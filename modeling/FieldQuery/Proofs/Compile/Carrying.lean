import FieldQuery.Compile.Correlation
import FieldQuery.Proofs.Catalog.Joining
import FieldQuery.Proofs.Compile.Trace
import FieldQuery.Proofs.Sql.Rankings
import Mathlib.Data.List.Sort

/-!
# Carrying keys back from the rows of a target

Every key and every row on the way of a correlation stands for the target rows that it can be traced
to. Two things are kept from hop to hop: a key is there exactly if it can be traced to some target
row, and the keys stand best first, that is, no key comes after another one that it beats by its
best target row. What counts as better is a *preference*. For a search nothing is better than
anything else, and only the first half says something.
-/

namespace FieldQuery.Compile

open FieldQuery.Catalog FieldQuery.Compilation FieldQuery.Sql

/-- Which target rows come strictly before which, and how the rows of a pluck are ordered. -/
structure Preference (purpose : Purpose) where
  le : String → List Fragment → Row → Row → Prop
  before : Row → Row → Prop
  irrefl : ∀ t, ¬ before t t
  /-- If only membership counts, no row comes before another one. -/
  flat : purpose = .filter → ∀ t u, ¬ before t u
  /-- Rankings put the rows in the order of their keys. -/
  ranked : purpose = .rank →
    ∀ {table column : String} {keys : KeySet} {a b : Row} {keyA keyB : Key},
      a column = some keyA → b column = some keyB → keyB ∈ keys.keys →
      le table (keys.rankOrder? (qualified table column)).toList a b →
      keys.keys.idxOf keyA ≤ keys.keys.idxOf keyB

namespace Preference

/-- The preference of a search. -/
def membership : Preference .filter where
  le _ _ _ _ := True
  before _ _ := False
  irrefl _ h := h
  flat _ _ _ h := h
  ranked h := nomatch h

/-- The preference of the rows of a table under an ordering. -/
def ofCollation (collation : Collation) (table : String) (orders : List Fragment) :
    Preference .rank where
  le table orders a b := collation.le table orders a b = true
  before t u := collation.le table orders u t = false
  irrefl t h := by simp [collation.le_refl] at h
  flat h := nomatch h
  ranked := by
    intro _ table column keys a b keyA keyB ha hb hmem hle
    by_contra hlt
    have hbefore : collation.le table (keys.rankOrder? (qualified table column)).toList a b =
        false :=
      Collation.not_le_of_idxOf_lt (List.ne_nil_of_mem hmem) hb ha (Nat.lt_of_not_le hlt)
    rw [hle] at hbefore
    cases hbefore

end Preference

section

variable {purpose : Purpose} {pref : Preference purpose} {db : Database} {α : Type}

/-! ## The order of what can be traced to target rows -/

/-- One item beats another one if it can be traced to a target row that comes before all of those
of the other. -/
def Preference.Beats (pref : Preference purpose) (traces : α → Row → Prop) (a b : α) : Prop :=
  ∃ t, traces a t ∧ ∀ u, traces b u → pref.before t u

private theorem Preference.not_beats_self {traces : α → Row → Prop} {a : α} :
    ¬ pref.Beats traces a a := by
  rintro ⟨t, ht, hbefore⟩
  exact pref.irrefl t (hbefore t ht)

/-- The keys are those that can be traced to a target row, and none comes after one it beats. -/
structure BestFirst (pref : Preference purpose) (keys : List Key) (traces : Key → Row → Prop) :
    Prop where
  mem_iff : ∀ key, key ∈ keys ↔ ∃ t, traces key t
  sorted : keys.Pairwise fun a b => ¬ pref.Beats traces b a

/-- A relation selects the rows that can be traced to a target row, and orders none of them after
one it beats. -/
structure Describes (pref : Preference purpose) (db : Database) (r : Relation)
    (traces : Row → Row → Prop) : Prop where
  selects_iff : ∀ row, db.Selects r row ↔ ∃ t, traces row t
  sorted : ∀ a b, db.Selects r a → db.Selects r b → pref.le r.table r.orders a b →
    ¬ pref.Beats traces b a

namespace BestFirst

variable {keys : List Key} {traces traces' : Key → Row → Prop}

/-- Keys are best first for any traces that are the same. -/
theorem congr (h : BestFirst pref keys traces) (htraces : ∀ key t, traces key t ↔ traces' key t) :
    BestFirst pref keys traces' := by
  have heq : traces = traces' := funext fun key => funext fun t => propext (htraces key t)
  exact heq ▸ h

/-- No keys are best first if nothing is traced. -/
theorem nil (h : ∀ key t, ¬ traces key t) : BestFirst pref [] traces where
  mem_iff key := by simp [h]
  sorted := List.Pairwise.nil

/-- A key that beats another value stands earlier, also if the other one is not there at all. -/
theorem idxOf_lt (h : BestFirst pref keys traces) {a b : Key} (hbeats : pref.Beats traces a b) :
    keys.idxOf a < keys.idxOf b := by
  obtain ⟨t, ht, -⟩ := id hbeats
  have ha : keys.idxOf a < keys.length := List.idxOf_lt_length_of_mem ((h.mem_iff a).mpr ⟨t, ht⟩)
  by_cases hb : b ∈ keys
  · by_contra hle
    have hb' := List.idxOf_lt_length_of_mem hb
    rcases Nat.lt_or_eq_of_le (Nat.le_of_not_lt hle) with hlt | heq
    · -- A key that stands later does not beat the earlier one.
      have hsorted := List.pairwise_iff_getElem.mp h.sorted _ _ hb' ha hlt
      rw [List.getElem_idxOf hb', List.getElem_idxOf ha] at hsorted
      exact hsorted hbeats
    · have hab : b = a := by
        rw [← List.getElem_idxOf hb', ← List.getElem_idxOf ha]
        simp only [heq]
      exact pref.not_beats_self (hab ▸ hbeats)
  · rw [List.idxOf_eq_length hb]
    exact ha

end BestFirst

namespace Describes

variable {r : Relation} {traces traces' : Row → Row → Prop}

/-- A relation describes any traces that are the same. -/
theorem congr (h : Describes pref db r traces)
    (htraces : ∀ row t, traces row t ↔ traces' row t) : Describes pref db r traces' := by
  have heq : traces = traces' := funext fun row => funext fun t => propext (htraces row t)
  exact heq ▸ h

/-- At the start every row is its own target row. -/
theorem of_selects {selected : Row → Prop} (hr : ∀ row, db.Selects r row ↔ selected row)
    (hbefore : ∀ a b, pref.le r.table r.orders a b → ¬ pref.before b a) :
    Describes pref db r fun row t => row = t ∧ selected t where
  selects_iff row := by simp [hr]
  sorted a b ha _ hle := by
    rintro ⟨t, ⟨rfl, -⟩, hb⟩
    exact hbefore a b hle (hb a ⟨rfl, (hr a).mp ha⟩)

/-- A condition on the rows leaves the target rows alone. -/
theorem filter (h : Describes pref db r traces) {condition : Fragment} {holds : Row → Prop}
    (hholds : ∀ row, db.Holds r.table condition row ↔ holds row) :
    Describes pref db (r.filter condition) fun row t => traces row t ∧ holds row where
  selects_iff row := by simp [Database.selects_filter, h.selects_iff, hholds]
  sorted a b ha hb hle := by
    rw [Database.selects_filter] at ha hb
    rintro ⟨t, ⟨ht, -⟩, hbefore⟩
    exact h.sorted a b ha.1 hb.1 hle ⟨t, ht, fun u hu => hbefore u ⟨hu, (hholds a).mp ha.2⟩⟩

end Describes

/-! ## One hop -/

/-- What is known of the answers of the store. -/
def Preference.contract (pref : Preference purpose) (db : Database) : Contract where
  answers r column answer :=
    ∃ rows : List Row, (∀ row, row ∈ rows ↔ db.Selects r row) ∧
      rows.Pairwise (pref.le r.table r.orders) ∧
      answer = rows.map fun row => row.value r.table column

/-- From rows to keys: the keys are those of the rows, at their first occurrence. -/
theorem Describes.keys {r : Relation} {traces : Row → Row → Prop}
    (h : Describes pref db r traces) (column : String) :
    (Compilation.keys r (qualified r.table column)).Ensures (pref.contract db) fun keys =>
      BestFirst pref keys.keys fun key t => ∃ row, row column = some key ∧ traces row t := by
  refine Ensures.keys trivial ?_
  rintro answer ⟨rows, hrows, hsorted, rfl⟩
  simp only [Row.value_qualified]
  refine ⟨fun key => ?_, ?_⟩
  · simp only [KeySet.mem_ofPlucked, List.mem_map, hrows, h.selects_iff]
    constructor
    · rintro ⟨row, ⟨t, ht⟩, hkey⟩
      exact ⟨t, row, hkey, ht⟩
    · rintro ⟨t, row, hkey, ht⟩
      exact ⟨row, ⟨t, ht⟩, hkey⟩
  · -- A row with the later key comes after the first row with the earlier one.
    refine KeySet.pairwise_ofList fun before key after hsplit later hlater hnew hne hbeats => ?_
    rw [List.filterMap_map, Function.id_comp, List.filterMap_eq_append_iff] at hsplit
    obtain ⟨rowsBefore, rest, rfl, rfl, hrest⟩ := hsplit
    obtain ⟨skipped, first, rowsAfter, rfl, hskipped, hfirst, rfl⟩ :=
      List.filterMap_eq_cons_iff.mp hrest
    obtain ⟨t, ⟨row, hrow, ht⟩, hbefore⟩ := hbeats
    have hselected : db.Selects r row := (h.selects_iff row).mpr ⟨t, ht⟩
    have hmem : row ∈ rowsAfter := by
      have hall := (hrows row).mpr hselected
      simp only [List.mem_append, List.mem_cons] at hall
      rcases hall with hmem | hmem | rfl | hmem
      · exact absurd (List.mem_filterMap.mpr ⟨row, hmem, hrow⟩) hnew
      · simp [hskipped row hmem] at hrow
      · exact absurd (Option.some.inj (hrow.symm.trans hfirst)) hne
      · exact hmem
    have hle : pref.le r.table r.orders first row := by
      have htail := (List.pairwise_append.mp (List.pairwise_append.mp hsorted).2.1).2.1
      exact (List.pairwise_cons.mp htail).1 row hmem
    have hselects : db.Selects r first := (hrows first).mp (by simp)
    exact h.sorted first row hselects hselected hle
      ⟨t, ht, fun u hu => hbefore u ⟨first, hfirst, hu⟩⟩

/-- From keys to rows: the rows with one of the keys in a column, in the order of the keys. -/
theorem BestFirst.describes_narrow {keys : KeySet} {traces : Key → Row → Prop}
    {among : Row → Prop} (h : BestFirst pref keys.keys traces) (settings : Settings)
    (column : String) (r : Relation) (hkeys : keys.keys ≠ [])
    (hr : ∀ row, db.Selects r row ↔ among row) (horders : r.orders = []) :
    Describes pref db (narrow settings purpose (qualified r.table column) keys r) fun row t =>
      among row ∧ ∃ key, row column = some key ∧ traces key t := by
  have hselects : ∀ row,
      db.Selects (narrow settings purpose (qualified r.table column) keys r) row ↔
        among row ∧ ∃ key ∈ keys.keys, row column = some key := by
    intro row
    have hfilter : db.Selects (r.filter (keys.inList (qualified r.table column))) row ↔
        among row ∧ ∃ key ∈ keys.keys, row column = some key := by
      simp only [Database.selects_filter, hr, Database.holds_inList_of_ne_nil hkeys,
        Row.value_qualified]
    cases purpose with
    | filter => exact hfilter
    | rank => exact (Database.selects_congr rfl rfl).trans hfilter
  refine ⟨fun row => ?_, fun a b ha hb hle => ?_⟩
  · simp only [hselects, h.mem_iff]
    constructor
    · rintro ⟨hrow, key, ⟨t, ht⟩, hkey⟩
      exact ⟨t, hrow, key, hkey, ht⟩
    · rintro ⟨t, hrow, key, hkey, ht⟩
      exact ⟨hrow, key, ⟨t, ht⟩, hkey⟩
  · obtain ⟨hrowA, keyA, hmemA, hkeyA⟩ := (hselects a).mp ha
    obtain ⟨hrowB, keyB, hmemB, hkeyB⟩ := (hselects b).mp hb
    rintro ⟨t, ⟨-, key, hkey, ht⟩, hbefore⟩
    obtain rfl := Option.some.inj (hkeyB.symm.trans hkey)
    cases purpose with
    | filter =>
      -- Nothing is better than anything else.
      obtain ⟨u, hu⟩ := (h.mem_iff keyA).mp hmemA
      exact pref.flat rfl t u (hbefore u ⟨hrowA, keyA, hkeyA, hu⟩)
    | rank =>
      -- Rows come in the order of their keys, and these stand best first.
      have hle' : pref.le r.table (keys.rankOrder? (qualified r.table column)).toList a b := by
        simpa [narrow, Relation.take, Relation.orderBy, Relation.filter, horders] using hle
      have hplaces := pref.ranked rfl hkeyA hkeyB hmemB hle'
      have hbeats : pref.Beats traces keyB keyA :=
        ⟨t, ht, fun u hu => hbefore u ⟨hrowA, keyA, hkeyA, hu⟩⟩
      exact absurd (h.idxOf_lt hbeats) (Nat.not_lt_of_le hplaces)

/-! ## One link -/

variable {owner target : Target} {rows : Relation} {traces : Row → Row → Prop} {link : Link}

/-- Rows that point at an owner of another type are left out. -/
theorem Describes.filter_ofOwner (h : Describes pref db rows traces)
    (htable : rows.table = target.table) :
    Describes pref db (ofOwner owner link target rows) fun row t =>
      traces row t ∧ link.Fits owner row := by
  obtain ⟨name, foreignKey, kind⟩ := link
  -- only a link with a discriminator restricts the rows; all others keep them
  rcases kind with _ | _ | ⟨form, far, _ | d⟩ | _
  case reversed.some =>
    exact h.filter fun row => htable ▸ Database.holds_equals_text
  all_goals exact h.congr fun row t => (and_iff_left trivial).symm

/-- A condition on the type keeps the table. -/
@[simp]
theorem table_restrict {condition : Option Fragment} :
    (restrict condition rows).table = rows.table := by
  cases condition <;> rfl

/-- A condition on the type keeps the orderings. -/
@[simp]
theorem orders_restrict {condition : Option Fragment} :
    (restrict condition rows).orders = rows.orders := by
  cases condition <;> rfl

/-- Keys that rows are narrowed to keep the table. -/
@[simp]
theorem table_narrow {settings : Settings} {column : String} {keys : KeySet} :
    (narrow settings purpose column keys rows).table = rows.table := by
  cases purpose <;> rfl

/-- The column of the owner is the one that the link has there. -/
theorem ownerColumn_eq : ownerColumn owner link = qualified owner.table (link.ownColumn owner) := by
  obtain ⟨name, foreignKey, kind⟩ := link
  cases kind <;> rfl

/-- A correlation compares the column of the owner that takes part in the association. -/
theorem correlate_column (settings : Settings) (purpose : Purpose) (owner target : Target)
    (rows : Relation) (association : Association) :
    (correlate settings purpose owner target rows association).Ensures {} fun found =>
      found.1 = qualified owner.table (association.ownColumn owner) := by
  -- both steps of a chain end in the owner's column of its first one
  refine correlate_cases (motive := fun association way =>
    (way rows).Ensures {} fun found => found.1 = qualified owner.table (association.ownColumn owner))
    ?step ?two ?unsupported association
  case step => exact fun link => (Ensures.any _).bind fun keys _ => Ensures.pure ownerColumn_eq
  case two =>
    intro _ _ via source _ _ middle _
    refine (Ensures.any _).bind fun found _ => ?_
    split
    · exact Ensures.pure ownerColumn_eq
    · exact (Ensures.any _).bind fun keys _ => Ensures.pure ownerColumn_eq
  case unsupported => exact fun _ _ _ => Ensures.fail _

/-- The rows of the owner that a polymorphic link may lead from. -/
theorem selects_pointsAt {row : Row} :
    db.Selects (restrict (pointsAt? owner link target) owner.relation) row ↔
      row ∈ db.rows owner.table ∧ link.Points target row := by
  unfold restrict pointsAt? Link.Points Target.relation
  -- only a polymorphic link restricts the owner's rows
  cases link.kind with
  | polymorphic typeColumn =>
    simp only [Database.selects_filter, Database.selects_all]
    exact and_congr_right' Database.holds_equals_text
  | _ => simp [Database.selects_all]

/-- The rows of a join table have to be looked up only if there are keys to look for. -/
theorem throughJoinTable_ensures {settings : Settings} {table targetKey ownerKey : String}
    {targets : KeySet} {traces : Key → Row → Prop} (h : BestFirst pref targets.keys traces) :
    (throughJoinTable settings purpose table targetKey ownerKey targets).Ensures
      (pref.contract db) fun keys =>
        BestFirst pref keys.keys fun key t => ∃ j, j ownerKey = some key ∧ j ∈ db.rows table ∧
          ∃ far, j targetKey = some far ∧ traces far t := by
  unfold throughJoinTable
  split
  · -- no target keys: nothing is plucked, and no row can trace to a key either
    next hempty =>
    rw [KeySet.isEmpty_iff] at hempty
    refine Ensures.pure (BestFirst.nil ?_)
    rintro key t ⟨j, -, -, far, -, ht⟩
    have hmem := (h.mem_iff far).mpr ⟨t, ht⟩
    simp [hempty] at hmem
  · -- the join table is narrowed to the target keys, and its rows inherit their order
    next hkeys =>
    have hall : ∀ row, db.Selects (.all table table) row ↔ row ∈ db.rows table :=
      fun _ => Database.selects_all
    have hrows := h.describes_narrow settings targetKey (.all table table)
      (by simpa [KeySet.isEmpty_iff] using hkeys) hall rfl
    have hplucked := hrows.keys ownerKey
    cases purpose <;> exact hplucked

/-- From the rows of a target to keys of its owner. -/
theorem keysBack_ensures {settings : Settings} (h : Describes pref db rows traces)
    (htable : rows.table = target.table) :
    (keysBack settings purpose link target rows).Ensures (pref.contract db) fun keys =>
      BestFirst pref keys.keys fun key t =>
        ∃ row, traces row t ∧ link.Reaches db target row key := by
  have hpluck : ∀ column, (Compilation.keys rows (target.column column)).Ensures (pref.contract db)
      fun keys => BestFirst pref keys.keys fun key t =>
        ∃ row, row column = some key ∧ traces row t := by
    intro column
    unfold Target.column
    exact htable ▸ h.keys column
  unfold keysBack Link.Reaches
  -- a join table is the only kind between whose two keys a third row stands
  cases link.kind with
  | direct | polymorphic | reversed =>
    refine (hpluck _).mono fun keys hkeys => hkeys.congr fun key t => ?_
    exact exists_congr fun row => and_comm
  | manyToMany far joinTable targetKey =>
    refine (hpluck _).bind fun targets htargets => ?_
    refine (throughJoinTable_ensures htargets).mono fun keys hkeys => hkeys.congr fun key t => ?_
    constructor
    · rintro ⟨j, howner, hj, far, hfar, row, hrow, ht⟩
      exact ⟨row, ht, j, hj, ⟨far, hfar, hrow⟩, howner⟩
    · rintro ⟨row, ht, j, hj, ⟨far, hfar, hrow⟩, howner⟩
      exact ⟨j, howner, hj, far, hfar, row, hrow, ht⟩

/-- Over one link, from the rows of its target to keys of the owner. -/
theorem Describes.keysBack_ofOwner (h : Describes pref db rows traces) (target : Target)
    (htable : rows.table = target.table) (settings : Settings) (owner : Target) (link : Link) :
    (keysBack settings purpose link target (ofOwner owner link target rows)).Ensures
      (pref.contract db) fun keys =>
        BestFirst pref keys.keys fun key t =>
          ∃ row, (traces row t ∧ link.Fits owner row) ∧ link.Reaches db target row key :=
  keysBack_ensures (h.filter_ofOwner htable) (table_restrict.trans htable)

/-- From the keys that a second link leads back to, to the rows of the middle that it joins. -/
theorem BestFirst.describes_middle {middle : Target} {keys : KeySet}
    (h : BestFirst pref keys.keys fun key t =>
      ∃ row, (traces row t ∧ link.Fits middle row) ∧ link.Reaches db target row key)
    (settings : Settings) (hkeys : keys.keys ≠ []) :
    Describes pref db
      (narrow settings purpose (ownerColumn middle link) keys
        (restrict (pointsAt? middle link target) middle.relation))
      fun m t => m ∈ db.rows middle.table ∧
        ∃ row, traces row t ∧ link.Joins db middle target m row := by
  have hselects : ∀ row, db.Selects (restrict (pointsAt? middle link target) middle.relation) row ↔
      row ∈ db.rows middle.table ∧ link.Points target row := fun _ => selects_pointsAt
  -- `narrow` puts its condition behind the one on the type the rows point at
  have hnarrow := h.describes_narrow settings (link.ownColumn middle)
    (restrict (pointsAt? middle link target) middle.relation) hkeys hselects orders_restrict
  rw [table_restrict, show middle.relation.table = middle.table from rfl, ← ownerColumn_eq]
    at hnarrow
  refine hnarrow.congr fun m t => ?_
  simp only [Link.joins_iff]
  constructor
  · rintro ⟨⟨hm, hpoints⟩, key, hown, row, ⟨ht, hfits⟩, hback⟩
    exact ⟨hm, row, ht, hpoints, hfits, key, hown, hback⟩
  · rintro ⟨hm, row, ht, hpoints, hfits, key, hown, hback⟩
    exact ⟨⟨hm, hpoints⟩, key, hown, row, ⟨ht, hfits⟩, hback⟩

/-! ## The whole way -/

/-- The keys that come back over two links are those of owners that some row of the middle is between,
best first. -/
theorem correlateTwo_ensures (settings : Settings) (owner : Target) (via : Link) (middle : Target)
    (source : Link) (h : Describes pref db rows traces) (htable : rows.table = target.table) :
    (correlateTwo settings purpose owner via middle source target rows).Ensures (pref.contract db)
      fun found =>
        found.1 = qualified owner.table (via.ownColumn owner) ∧
          BestFirst pref found.2.keys fun key t => ∃ row, traces row t ∧ ∃ m ∈ db.rows middle.table,
            source.Joins db middle target m row ∧ via.Fits owner m ∧ via.Reaches db middle m key := by
  -- The second link first, from the rows of the target to keys of the middle.
  refine (h.keysBack_ofOwner target htable settings middle source).bind fun found hfound => ?_
  split
  · next hempty =>
    refine Ensures.pure ⟨ownerColumn_eq, BestFirst.nil ?_⟩
    rintro key t ⟨row, ht, m, -, hjoins, -⟩
    obtain ⟨-, hfits, between, -, hback⟩ := Link.joins_iff.mp hjoins
    have hmem := (hfound.mem_iff between).mpr ⟨t, row, ⟨ht, hfits⟩, hback⟩
    simp [KeySet.isEmpty_iff.mp hempty] at hmem
  · next hkeys =>
    -- Then the first link, from the rows of the middle to keys of the owner.
    have hrows := hfound.describes_middle settings (by simpa [KeySet.isEmpty_iff] using hkeys)
    have hfirst := hrows.keysBack_ofOwner middle (table_narrow.trans table_restrict) settings owner via
    refine hfirst.bind fun keys hkeys => ?_
    refine Ensures.pure ⟨ownerColumn_eq, hkeys.congr fun key t => ?_⟩
    constructor
    · rintro ⟨m, ⟨⟨hm, row, ht, hjoins⟩, hfits⟩, hback⟩
      exact ⟨row, ht, m, hm, hjoins, hfits, hback⟩
    · rintro ⟨row, ht, m, hm, hjoins, hfits, hback⟩
      exact ⟨m, ⟨⟨hm, row, ht, hjoins⟩, hfits⟩, hback⟩

/-- A correlation gives the column of the owner that takes part in the association, and the keys
that the rows of the target carry back, best first. -/
theorem correlate_ensures (settings : Settings) (owner : Target) (association : Association)
    (h : Describes pref db rows traces) (htable : rows.table = target.table) :
    (correlate settings purpose owner target rows association).Ensures (pref.contract db)
      fun found =>
        found.1 = qualified owner.table (association.ownColumn owner) ∧
          BestFirst pref found.2.keys fun key t =>
            ∃ row, traces row t ∧ association.Carries db owner target row key := by
  refine correlate_cases (motive := fun association way =>
    (way rows).Ensures (pref.contract db) fun found =>
      found.1 = qualified owner.table (association.ownColumn owner) ∧
        BestFirst pref found.2.keys fun key t =>
          ∃ row, traces row t ∧ association.Carries db owner target row key)
    ?step ?two ?unsupported association
  case step =>
    intro link
    refine (h.keysBack_ofOwner target htable settings owner link).bind fun keys hkeys => ?_
    refine Ensures.pure ⟨ownerColumn_eq, hkeys.congr fun key t => ?_⟩
    exact exists_congr fun row => and_assoc
  case two =>
    intro _ _ via source _ _ middle hmiddle
    refine (correlateTwo_ensures settings owner via middle source h htable).mono fun found hfound =>
      ⟨hfound.1, hfound.2.congr fun key t => exists_congr fun row => and_congr_right fun _ => ?_⟩
    -- There is one middle only.
    constructor
    · exact fun hbetween => ⟨middle, hmiddle, hbetween⟩
    · rintro ⟨middle', hmiddle', hbetween⟩
      obtain rfl := Option.some.inj (hmiddle.symm.trans hmiddle')
      exact hbetween
  case unsupported => exact fun _ _ _ => Ensures.fail _

end

end FieldQuery.Compile

/-! ## A store that answers from a database -/

namespace FieldQuery.Sql.Collation

open FieldQuery.Compilation

variable {collation : Collation} {db : Database} {entity : String → Except QueryError Entity}

/-- The rows that a relation selects, in its order and without regard to its limit. -/
def ordered (collation : Collation) (db : Database) (r : Relation) : List Row :=
  (db.select r).insertionSort fun a b => collation.le r.table r.orders a b = true

private theorem mem_ordered {r : Relation} {row : Row} :
    row ∈ collation.ordered db r ↔ db.Selects r row := by
  simp [ordered, List.mem_insertionSort]

private theorem pairwise_ordered {r : Relation} :
    (collation.ordered db r).Pairwise fun a b => collation.le r.table r.orders a b = true := by
  have : Std.Total fun a b => collation.le r.table r.orders a b = true :=
    ⟨fun a b => by simpa using collation.le_total r.table r.orders a b⟩
  have : IsTrans Row fun a b => collation.le r.table r.orders a b = true :=
    ⟨fun _ _ _ => collation.le_trans⟩
  exact List.pairwise_insertionSort _ _

/-- A store that answers from the rows of a database. -/
def store (collation : Collation) (db : Database) (entity : String → Except QueryError Entity) :
    Backend Unit where
  entity identifier s := (entity identifier, s)
  pluck r column s := (.ok ((collation.ordered db r).map fun row => row.value r.table column), s)
  count _ s := s

private theorem eq_of_mem_plucks_store {α : Type} {x : Compilation α} {p : Plucked}
    {answer : List (Option Key)} (hp : p ∈ x.plucks (collation.store db entity) ())
    (hanswer : p.answer = .ok answer) :
    answer = (collation.ordered db p.relation).map fun row =>
      row.value p.relation.table p.column := by
  obtain ⟨s, hs⟩ := exists_answer_of_mem_plucks hp
  rw [hanswer] at hs
  exact (Except.ok.inj hs).symm

/-- Such a store answers with the rows that a relation selects. -/
theorem store_answers {α : Type} {x : Compilation α} {p : Plucked}
    (hp : p ∈ x.plucks (collation.store db entity) ()) {answer : List (Option Key)}
    (hanswer : p.answer = .ok answer) : db.Answers p.relation p.column answer :=
  ⟨collation.ordered db p.relation, fun _ => mem_ordered, eq_of_mem_plucks_store hp hanswer⟩

/-- The order is right too, and nothing is left out of tables that fit into the limits. -/
theorem store_answers_in_order {α : Type} {x : Compilation α} {p : Plucked}
    (hp : p ∈ x.plucks (collation.store db entity) ()) {answer : List (Option Key)}
    (hanswer : p.answer = .ok answer)
    (hlimit : ∀ n, p.relation.limit = some n → (db.rows p.relation.table).length ≤ n) :
    collation.Answers db p.relation p.column answer := by
  -- no row is cut off by the limit, so the store's rows are all of them in order
  refine ⟨collation.ordered db p.relation, fun _ => mem_ordered, pairwise_ordered, fun n hn => ?_,
    eq_of_mem_plucks_store hp hanswer⟩
  calc (collation.ordered db p.relation).length
      = (db.select p.relation).length := List.length_insertionSort _ _
    _ ≤ (db.rows p.relation.table).length := List.length_filter_le _ _
    _ ≤ n := hlimit n hn

end FieldQuery.Sql.Collation

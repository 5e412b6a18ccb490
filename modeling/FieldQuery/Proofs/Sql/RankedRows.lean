import FieldQuery.Proofs.Sql.Rankings

/-!
# Rows in the order of a plucked column

The keys of a plucked column rank rows by where the column has their value first. The tests of the
ranking are made one after another, so the place among the keys, which leaves out NULLs and
repetitions, has to be compared with the place in the column as it was plucked.

A row with NULL satisfies no test, and fails none either. MySQL and SQLite put unknown outcomes last
in descending order and PostgreSQL puts them first, so it is only there that such rows stand before
those with a key.
-/

namespace FieldQuery.Sql

/-! ## First places -/

/-- Where an element comes first in a list with one more at its end. -/
theorem idxOf_concat (keys : List Key) (last key : Key) :
    (keys ++ [last]).idxOf key =
      if key ∈ keys then keys.idxOf key else keys.length + if key = last then 0 else 1 := by
  rw [List.idxOf_append]
  split
  · rfl
  · split <;> simp_all [Nat.add_comm]

namespace KeySet

/-- Leaving out repetitions keeps the order of first occurrences. -/
theorem idxOf_ofList_lt_iff {keys : List Key} {a b : Key} :
    (ofList keys).keys.idxOf a < (ofList keys).keys.idxOf b ↔ keys.idxOf a < keys.idxOf b := by
  induction keys using List.reverseRecOn with
  | nil => rfl
  | append_singleton keys last ih =>
    -- In both lists the keys that they have come before those that they have not.
    have hkeys : ∀ key, keys.idxOf key < keys.length ↔ key ∈ keys :=
      fun _ => List.idxOf_lt_length_iff
    have hset : ∀ key, (ofList keys).keys.idxOf key < (ofList keys).keys.length ↔ key ∈ keys :=
      fun _ => List.idxOf_lt_length_iff.trans mem_ofList
    rw [ofList_concat, keys_insert, idxOf_concat, idxOf_concat]
    simp only [mem_ofList]
    by_cases hlast : last ∈ keys
    · grind
    · simp only [if_neg hlast, idxOf_concat, mem_ofList]
      grind

/-- Leaving out NULLs keeps the order of first occurrences. -/
theorem idxOf_filterMap_lt_iff {plucked : List (Option Key)} {a b : Key} :
    (plucked.filterMap id).idxOf a < (plucked.filterMap id).idxOf b ↔
      plucked.idxOf (some a) < plucked.idxOf (some b) := by
  -- induction on the plucked values: a NULL moves all positions alike
  induction plucked with
  | nil => rfl
  | cons value plucked ih =>
    cases value with
    | none =>
      rw [List.filterMap_cons_none rfl, ih]
      simp
    | some key =>
      have hkeep : (some key :: plucked).filterMap id = key :: plucked.filterMap id := rfl
      rw [hkeep]
      by_cases ha : key = a <;> by_cases hb : key = b <;> simp_all

/-- Two keys stand in a key set as they stand in the plucked column. -/
theorem idxOf_ofPlucked_lt_iff {plucked : List (Option Key)} {a b : Key} :
    (ofPlucked plucked).keys.idxOf a < (ofPlucked plucked).keys.idxOf b ↔
      plucked.idxOf (some a) < plucked.idxOf (some b) :=
  idxOf_ofList_lt_iff.trans idxOf_filterMap_lt_iff

/-- A plucked column without any key gives no ranking. -/
theorem ofPlucked_keys_eq_nil_iff {plucked : List (Option Key)} :
    (ofPlucked plucked).keys = [] ↔ ∀ key, some key ∉ plucked := by
  simp [List.eq_nil_iff_forall_not_mem]

end KeySet

/-! ## Places in a ranking -/

variable {dialect : Dialect} {keys : List Key} {a b : Key}

private theorem rankPlace_eq (h : keys.idxOf a = keys.idxOf b) :
    rankPlace dialect (keys.map Key.param) (some a) =
      rankPlace dialect (keys.map Key.param) (some b) := by
  by_cases ha : a ∈ keys
  · rw [(List.idxOf_inj ha).mp h]
  · -- Neither of them is a key of the ranking, so every test fails for both.
    have hb : b ∉ keys := by
      rwa [← List.idxOf_lt_length_iff, ← h, List.idxOf_lt_length_iff]
    refine List.map_congr_left fun value hvalue => ?_
    obtain ⟨key, hkey, rfl⟩ := List.mem_map.mp hvalue
    have hne {c : Key} (hc : c ∉ keys) : c.param ≠ key.param :=
      fun heq => hc (Key.param_injective heq ▸ hkey)
    simp [hne ha, hne hb]

/-- A key comes before another one in a ranking, or next to it, as it does among the keys. -/
theorem rankPlace_le_iff :
    rankPlace dialect (keys.map Key.param) (some a) ≤
      rankPlace dialect (keys.map Key.param) (some b) ↔ keys.idxOf a ≤ keys.idxOf b := by
  refine ⟨fun h => ?_, fun h => ?_⟩
  · -- a later key has a greater place, so places cannot be the other way round
    by_contra hlt
    exact absurd (rankPlace_lt dialect (not_le.mp hlt)) (not_lt.mpr h)
  · rcases h.lt_or_eq with hlt | heq
    · exact (rankPlace_lt dialect hlt).le
    · exact (rankPlace_eq heq).le

private theorem rankPlace_none_cons (key : Key) (keys : List Key) :
    rankPlace dialect ((key :: keys).map Key.param) none =
      dialect.descending none :: rankPlace dialect (keys.map Key.param) none := rfl

/-- The first test tells a NULL from a key. -/
theorem rankPlace_some_lt_none (hkeys : keys ≠ []) (hdialect : dialect ≠ .postgres) :
    rankPlace dialect (keys.map Key.param) (some a) <
      rankPlace dialect (keys.map Key.param) none := by
  obtain ⟨key, rest, rfl⟩ := List.exists_cons_of_ne_nil hkeys
  rw [rankPlace_none_cons, List.map_cons, rankPlace_cons, List.cons_lt_cons_iff]
  left
  cases dialect <;> first | contradiction | (split <;> decide)

private theorem rankPlace_none_lt_some (hkeys : keys ≠ []) :
    rankPlace .postgres (keys.map Key.param) none <
      rankPlace .postgres (keys.map Key.param) (some a) := by
  obtain ⟨key, rest, rfl⟩ := List.exists_cons_of_ne_nil hkeys
  rw [rankPlace_none_cons, List.map_cons, rankPlace_cons, List.cons_lt_cons_iff]
  left
  split <;> decide

/-! ## Rows in order -/

/-- Whether a row with one value may come before a row with another one by the ranking that a
plucked column gives. -/
def Precedes (dialect : Dialect) (plucked : List (Option Key)) : Option Key → Option Key → Prop
  | some a, some b => plucked.idxOf (some a) ≤ plucked.idxOf (some b)
  | some _, none => dialect ≠ .postgres
  | none, some _ => dialect = .postgres
  | none, none => True

instance (plucked : List (Option Key)) :
    (a b : Option Key) → Decidable (Precedes dialect plucked a b)
  | some a, some b => inferInstanceAs (Decidable (plucked.idxOf (some a) ≤ plucked.idxOf (some b)))
  | some _, none => inferInstanceAs (Decidable (dialect ≠ .postgres))
  | none, some _ => inferInstanceAs (Decidable (dialect = .postgres))
  | none, none => inferInstanceAs (Decidable True)

/-- Where a plucked column has a value first: at its end if it does not have it, and a NULL is never
looked for. -/
def firstPlace (plucked : List (Option Key)) : Option Key → Nat
  | some key => plucked.idxOf (some key)
  | none => plucked.length

private theorem firstPlace_le_length (plucked : List (Option Key)) (value : Option Key) :
    firstPlace plucked value ≤ plucked.length := by
  cases value
  · exact le_rfl
  · exact List.idxOf_le_length

variable {plucked : List (Option Key)} {table column : String}

private theorem firstPlace_eq_length (h : ∀ key, some key ∉ plucked) (value : Option Key) :
    firstPlace plucked value = plucked.length := by
  cases value with
  | none => rfl
  | some key => exact List.idxOf_eq_length (h key)

/-- Unless the engine puts NULLs first, no row comes before one that has an earlier place. -/
theorem Precedes.firstPlace_le {value value' : Option Key} (h : Precedes dialect plucked value value')
    (hnull : dialect = .postgres → value ≠ none) :
    firstPlace plucked value ≤ firstPlace plucked value' := by
  -- NULL has the place after all plucked values, which is wrong for PostgreSQL alone
  rcases value with _ | a <;> rcases value' with _ | b
  · exact le_rfl
  · exact absurd rfl (hnull h)
  · exact firstPlace_le_length plucked (some a)
  · exact h

namespace Collation

/-- Rows are in the order that a relation asks for. -/
def Sorted (collation : Collation) (table : String) (orders : List Fragment) (rows : List Row) :
    Prop :=
  rows.Pairwise fun a b => collation.le table orders a b = true

variable {collation : Collation} {rows : List Row}

private theorem le_rankOrder?_iff {key : Key} (hkey : some key ∈ plucked) {a b : Row} :
    collation.le table ((KeySet.ofPlucked plucked).rankOrder? column).toList a b = true ↔
      Precedes collation.dialect plucked (a.value table column) (b.value table column) := by
  have hkeys : (KeySet.ofPlucked plucked).keys ≠ [] :=
    fun hnil => KeySet.ofPlucked_keys_eq_nil_iff.mp hnil key hkey
  simp only [le, ranking?_rankOrder? hkeys, decide_eq_true_eq, KeySet.params]
  -- NULL stands on neither side, on one of them or on both; PostgreSQL alone puts it first
  cases a.value table column <;> cases b.value table column
  · simp [Precedes]
  · by_cases hdialect : collation.dialect = .postgres
    · simp [Precedes, hdialect, (rankPlace_none_lt_some hkeys).le]
    · simp [Precedes, hdialect, rankPlace_some_lt_none hkeys hdialect]
  · by_cases hdialect : collation.dialect = .postgres
    · simp [Precedes, hdialect, rankPlace_none_lt_some hkeys]
    · simp [Precedes, hdialect, (rankPlace_some_lt_none hkeys hdialect).le]
  · rw [rankPlace_le_iff, ← not_lt, KeySet.idxOf_ofPlucked_lt_iff, not_lt]
    rfl

private theorem sorted_rankOrder?_iff {key : Key} (hkey : some key ∈ plucked) :
    collation.Sorted table ((KeySet.ofPlucked plucked).rankOrder? column).toList rows ↔
      rows.Pairwise fun a b =>
        Precedes collation.dialect plucked (a.value table column) (b.value table column) :=
  List.Pairwise.iff fun _ _ => le_rankOrder?_iff hkey

/-- A plucked column orders the rows of a table by the first places of their values in it. Rows with
a value that it does not have come after all others, and rows with NULL after these, but before all
others on PostgreSQL. So each row comes after all those with an earlier place in the column if NULLs
have the last one, wherever the engine does not put rows with NULL first. -/
theorem sorted_by_plucked (collation : Collation) (table column : String)
    (plucked : List (Option Key)) (rows : List Row) :
    let orders := ((KeySet.ofPlucked plucked).rankOrder? column).toList
    ((∃ key, some key ∈ plucked) →
      (collation.Sorted table orders rows ↔ rows.Pairwise fun a b =>
        Precedes collation.dialect plucked (a.value table column) (b.value table column))) ∧
    (collation.Sorted table orders rows →
      (collation.dialect = .postgres → ∀ row ∈ rows, row.value table column ≠ none) →
      rows.Pairwise fun a b =>
        firstPlace plucked (a.value table column) ≤ firstPlace plucked (b.value table column)) := by
  refine ⟨fun ⟨key, hkey⟩ => sorted_rankOrder?_iff hkey, fun hsorted hnull => ?_⟩
  by_cases hplucked : ∃ key, some key ∈ plucked
  · obtain ⟨key, hkey⟩ := hplucked
    refine ((sorted_rankOrder?_iff hkey).mp hsorted).imp_of_mem fun ha _ h => ?_
    exact h.firstPlace_le fun hdialect => hnull hdialect _ ha
  · -- Without a key all rows have the last place.
    have hlast := firstPlace_eq_length (not_exists.mp hplucked)
    refine List.pairwise_of_forall fun a b => ?_
    rw [hlast, hlast]

/-- A database that orders rows by nothing but rankings. -/
def unordered (dialect : Dialect) : Collation where
  dialect := dialect
  other _ _ _ _ := true
  other_total _ _ _ _ := rfl
  other_trans _ _ _ _ _ _ _ := rfl

/-- A row with nothing but an author. -/
def ofAuthor (author : Option Key) : Row :=
  fun column => if column = "author_id" then author else none

/-- Books of the author that was plucked first, of one plucked after a NULL and a repetition, of one
that was not plucked, and of none. -/
def ofAuthors : List Row :=
  [ofAuthor (some (.integer 7)), ofAuthor (some (.integer 3)), ofAuthor (some (.integer 5)),
    ofAuthor none]

/-- The authors, plucked in the order of their names. -/
def authorsByName : List (Option Key) :=
  [some (.integer 7), none, some (.integer 7), some (.integer 3)]

/-- Books follow their authors on SQLite, and those without an author come last. -/
theorem sorted_by_authors :
    (unordered .sqlite).Sorted "books"
        ((KeySet.ofPlucked authorsByName).rankOrder? "books.author_id").toList ofAuthors ∧
      ofAuthors.Pairwise fun a b =>
        firstPlace authorsByName (a.value "books" "books.author_id") ≤
          firstPlace authorsByName (b.value "books" "books.author_id") := by
  obtain ⟨hiff, hplaces⟩ :=
    sorted_by_plucked (unordered .sqlite) "books" "books.author_id" authorsByName ofAuthors
  -- one key was plucked, so the ordering is decided by evaluation
  have hsorted := (hiff ⟨.integer 7, by decide⟩).mpr (by decide +kernel)
  exact ⟨hsorted, hplaces hsorted fun h => by cases h⟩

/-- On PostgreSQL a book without an author is in order before a book of the first author. -/
theorem null_before_ranked :
    let rows := [ofAuthor none, ofAuthor (some (.integer 7))]
    (unordered .postgres).Sorted "books"
        ((KeySet.ofPlucked authorsByName).rankOrder? "books.author_id").toList rows ∧
      ¬ rows.Pairwise fun a b =>
        firstPlace authorsByName (a.value "books" "books.author_id") ≤
          firstPlace authorsByName (b.value "books" "books.author_id") := by
  have hkey : some (.integer 7) ∈ authorsByName := by decide
  exact ⟨(sorted_rankOrder?_iff hkey).mpr (by decide +kernel), by decide +kernel⟩

end Collation

end FieldQuery.Sql

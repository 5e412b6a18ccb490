import FieldQuery.Compile.Compiler
import FieldQuery.Proofs.Compile.Linking

/-!
# Orderings by associations

An ordering by an association ranks the rows of the entity by the best row of the target that the
association leads to from them, in the order that the target itself has by the field it is ordered
by. Rows without any target row come after those with one.
-/

namespace FieldQuery.Compile

open FieldQuery.Catalog FieldQuery.Compilation FieldQuery.Sql

variable {σ : Type} {backend : Backend σ} {s s' : σ} {settings : Settings} {entity : Entity}
variable {association : Association} {target : Target} {options : OrderOptions}

/-! ## The expressions of an ordering by an association -/

/-- What a ranking by an association does when it has a result: the rows of the target are ordered,
their keys are carried back, and the owners are ranked by these. -/
theorem exists_of_run_rankByAssociation {orderTarget : TargetOrdering} {rank : List Fragment}
    (h : (rankByAssociation settings orderTarget entity association options).run backend s =
      (.ok rank, s')) :
    ∃ target found own s₁ column keys, association.target? = some target ∧
      (orderTarget target.name.typeName options.sortField).run backend s =
        (.ok (found, own), s₁) ∧
      rank = rankBy column keys ∧
      let carried := correlate settings .rank entity.asTarget target
        (ordered settings options.limit own found.relation) association
      carried.run backend s₁ = (.ok (column, keys), s') ∧
        carried.plucks backend s₁ ⊆
          (rankByAssociation settings orderTarget entity association options).plucks backend s := by
  -- the ranking is compiled in three steps: target, its own ordering, and the keys back
  obtain ⟨target, s₁, htarget, h₁, hplucks₁⟩ := exists_run_of_bind h
  obtain ⟨htarget', rfl⟩ := run_ofExcept_eq_ok.mp htarget
  obtain ⟨⟨found, own⟩, s₂, hown, h₂, hplucks₂⟩ := exists_run_of_bind h₁
  obtain ⟨⟨column, keys⟩, s₃, hcarried, h₃, -⟩ := exists_run_of_bind h₂
  cases h₃
  exact ⟨target, found, own, s₂, column, keys, requireTarget_eq_ok.mp htarget', hown, rfl, hcarried,
    fun _ hp => hplucks₁ (hplucks₂ (plucks_subset_bind hp))⟩

/-- An ordering by an association ranks by the column of the owner that takes part in it. -/
theorem rankByAssociation_column (orderTarget : TargetOrdering) :
    (rankByAssociation settings orderTarget entity association options).Ensures {} fun rank =>
      ∃ keys : KeySet, rank = rankBy (entity.column (association.ownColumn entity.asTarget)) keys := by
  refine (Ensures.any _).bind fun target _ => ?_
  refine (Ensures.any _).bind fun found _ => ?_
  refine (correlate_column settings .rank entity.asTarget target
    (ordered settings options.limit found.2 found.1.relation) association).bind fun carried h => ?_
  exact Ensures.pure ⟨carried.2, by rw [h]; rfl⟩

/-- The expressions around the ranking of an ordering by an association: rows without a reference
come first, and the primary key decides between rows of one rank otherwise. -/
def framed (type : FieldType) (column ownKey : String) (rank : List Fragment) : List Fragment :=
  if type = .directReference then .ofSql (column ++ " IS NULL DESC") :: rank
  else rank ++ [.ofSql ownKey]

/-- An ordering by an association is counted, and its ranking stands in the frame of its type. -/
theorem orderWith_of_isAssociation {orderTarget : TargetOrdering} {field : String}
    {direction : Direction} {type : FieldType}
    (hfield : entity.resolveWith field options.type = ⟨type, some association⟩)
    (htype : type.isAssociation = true) :
    orderWith settings orderTarget entity field direction options = do
      .note (.order type)
      return framed type (entity.columnFor field options.sqlColumn)
        (entity.keyColumn ++ " " ++ direction.sql)
        (← rankByAssociation settings orderTarget entity association options) := by
  unfold orderWith framed
  cases type <;> simp_all [FieldType.isAssociation, Entity.require]

/-- What an ordering by an association does when it has a result: one of the levels is used up, and
on the others the target is ordered by its own field. -/
theorem exists_of_run_orderClauses {levels : Nat} {field : String} {direction : Direction}
    {type : FieldType} {expressions : List Fragment}
    (hfield : entity.resolveWith field options.type = ⟨type, some association⟩)
    (htype : type.isAssociation = true)
    (h : (orderClauses settings levels entity field direction options).run backend s =
      (.ok expressions, s')) :
    ∃ target found s₀ own s₁ column keys, association.target? = some target ∧
      backend.entity target.name.typeName (backend.count (.order type) s) = (.ok found, s₀) ∧
      (orderClauses settings (levels - 1) found (options.sortField.getD found.defaultSortField)
        direction { limit := options.limit, reorder := true }).run backend s₀ = (.ok own, s₁) ∧
      expressions = framed type (entity.columnFor field options.sqlColumn)
        (entity.keyColumn ++ " " ++ direction.sql) (rankBy column keys) ∧
      let carried := correlate settings .rank entity.asTarget target
        (ordered settings options.limit own found.relation) association
      carried.run backend s₁ = (.ok (column, keys), s') ∧
        carried.plucks backend s₁ ⊆
          (orderClauses settings levels entity field direction options).plucks backend s := by
  cases levels with
  | zero =>
    -- Without a level left the ordering of the target fails.
    rw [orderClauses, orderWith_of_isAssociation hfield htype] at h
    obtain ⟨_, s₀, hnote, h₁, -⟩ := exists_run_of_bind h
    obtain ⟨rank, s₁, hrank, -, -⟩ := exists_run_of_bind h₁
    obtain ⟨_, _, _, _, _, _, -, hfail, -⟩ := exists_of_run_rankByAssociation hrank
    cases hfail
  | succ levels =>
    rw [orderClauses, orderWith_of_isAssociation hfield htype] at h
    obtain ⟨_, s₀, hnote, h₁, hplucks₁⟩ := exists_run_of_bind h
    rw [← orderWith_of_isAssociation hfield htype] at hplucks₁
    cases hnote
    obtain ⟨rank, s₁, hrank, h₂, -⟩ := exists_run_of_bind h₁
    cases h₂
    obtain ⟨target, found, own, s₂, column, keys, htarget, hown, rfl, hcarried, hplucks₂⟩ :=
      exists_of_run_rankByAssociation hrank
    obtain ⟨found', s₃, hfound, h₃, -⟩ := exists_run_of_bind hown
    obtain ⟨own', s₄, hown', h₄, -⟩ := exists_run_of_bind h₃
    cases h₄
    exact ⟨target, found, s₃, own, s₂, column, keys, htarget, run_entity_eq_ok.mp hfound, hown',
      rfl, hcarried, fun _ hp => hplucks₁ (plucks_subset_bind (hplucks₂ hp))⟩

/-! ## The best row of the target -/

/-- A row comes before another one in a ranking that was carried back from the rows of the target if
the association leads from it to a target row that comes strictly before all those that it leads to
from the other row, and also if it leads to none from the other one. -/
theorem not_le_of_carried {db : Database} {collation : Collation} {found : Entity}
    {own : List Fragment} {column : String} {keys : KeySet}
    (htarget : association.target? = some target) (htable : found.table = target.table)
    (hanswers : ∀ p ∈ (correlate settings .rank entity.asTarget target
        (ordered settings options.limit own found.relation) association).plucks backend s,
      ∀ answer, p.answer = .ok answer → collation.Answers db p.relation p.column answer)
    (hrun : (correlate settings .rank entity.asTarget target
        (ordered settings options.limit own found.relation) association).run backend s =
      (.ok (column, keys), s'))
    {a b : Row} (hb : b (association.ownColumn entity.asTarget) ≠ none)
    (hbetter : ∃ t ∈ db.rows target.table, association.Leads db entity.asTarget target a t ∧
      ∀ u ∈ db.rows target.table, association.Leads db entity.asTarget target b u →
        collation.le target.table own u t = false) :
    collation.le entity.table (rankBy column keys) b a = false := by
  -- The way starts from all rows of the target, in their own order.
  have hrows : Describes (.ofCollation collation target.table own) db
      (ordered settings options.limit own found.relation) fun row t =>
        row = t ∧ t ∈ db.rows target.table := by
    refine Describes.of_selects (fun row => ?_) fun a b hle hbefore => ?_
    · rw [← htable]
      have hselects : db.Selects (ordered settings options.limit own found.relation) row ↔
          db.Selects found.relation row := Database.selects_congr rfl rfl
      exact hselects.trans Database.selects_all
    · change collation.le found.table own a b = true at hle
      change collation.le target.table own a b = false at hbefore
      rw [htable, hbefore] at hle
      cases hle
  have hensures := correlate_ensures settings entity.asTarget association hrows htable
  obtain ⟨rfl, hkeys⟩ := (hensures.sound _ (fun _ _ _ _ _ _ => trivial) fun p hp answer hanswer => by
    obtain ⟨rows, hall, hsorted, -, hcolumn⟩ := hanswers p hp answer hanswer
    exact ⟨rows, hall, hsorted, hcolumn⟩).1 _ _ hrun
  -- The key of the first row beats that of the second one, so it stands earlier.
  obtain ⟨t, ht, hleads, hfirst⟩ := hbetter
  obtain ⟨keyB, hkeyB⟩ := Option.ne_none_iff_exists'.mp hb
  obtain ⟨keyA, hkeyA, hcarries⟩ := (Association.leads_iff htarget).mp hleads
  have hmem : keyA ∈ keys.keys := (hkeys.mem_iff keyA).mpr ⟨t, t, ⟨rfl, ht⟩, hcarries⟩
  refine Collation.not_le_of_idxOf_lt (List.ne_nil_of_mem hmem) hkeyA hkeyB (hkeys.idxOf_lt ?_)
  refine ⟨t, ⟨t, ⟨rfl, ht⟩, hcarries⟩, ?_⟩
  rintro u ⟨_, ⟨rfl, hu⟩, hcarriesU⟩
  exact hfirst _ hu ((Association.leads_iff htarget).mpr ⟨keyB, hkeyB, hcarriesU⟩)

/-- An ordering by an association ranks the rows of the entity by their best rows of the target, as
the target is ordered itself. A row with a better target row than all those of another one comes
before that one, and a row with some target row before those without any. -/
theorem order_ranks_by_best {compiler : Compiler} {bound result : Relation} {field : String}
    {direction : Direction} {type : FieldType} {db : Database} {collation : Collation}
    {found : Entity} {own : List Fragment} {s₀ s₁ : σ}
    (hfield : compiler.entity.resolveWith field options.type = ⟨type, some association⟩)
    (htype : type.isAssociation = true)
    (htarget : association.target? = some target)
    (hfound : backend.entity target.name.typeName (backend.count (.order type) s) =
      (.ok found, s₀))
    (htable : found.table = target.table)
    (hown : (orderClauses compiler.settings (compiler.settings.maxDepth - 1) found
        (options.sortField.getD found.defaultSortField) direction
        { limit := options.limit, reorder := true }).run backend s₀ = (.ok own, s₁))
    (hanswers : ∀ p ∈ ((compiler.bind bound).order field direction options).plucks backend s,
      ∀ answer, p.answer = .ok answer → collation.Answers db p.relation p.column answer)
    (hrun : ((compiler.bind bound).order field direction options).run backend s =
      (.ok result, s')) :
    ∃ rank, result = (if options.reorder then bound.reorder else bound).orderBy
        (framed type (compiler.entity.columnFor field options.sqlColumn)
          (compiler.entity.keyColumn ++ " " ++ direction.sql) rank) ∧
      ∀ a b : Row, b (association.ownColumn compiler.entity.asTarget) ≠ none →
        ((∃ t ∈ db.rows target.table,
            association.Leads db compiler.entity.asTarget target a t ∧
              ∀ u ∈ db.rows target.table,
                association.Leads db compiler.entity.asTarget target b u →
                  collation.le target.table own u t = false) →
          collation.le compiler.entity.table rank b a = false) ∧
        ((∃ t ∈ db.rows target.table,
            association.Leads db compiler.entity.asTarget target a t) →
          (¬ ∃ u ∈ db.rows target.table,
            association.Leads db compiler.entity.asTarget target b u) →
          collation.le compiler.entity.table rank b a = false) := by
  obtain ⟨_, s₂, hbound, h₁, hplucks₁⟩ := exists_run_of_bind hrun
  cases hbound
  -- the run gives a target, an entity and an ordering of its own; being runs of the same questions,
  -- they are those of the hypotheses
  obtain ⟨expressions, s₃, h₂, h₃, -⟩ := exists_run_of_bind h₁
  cases h₃
  have hplucks₂ := List.Subset.trans plucks_subset_bind hplucks₁
  change (orderClauses compiler.settings compiler.settings.maxDepth compiler.entity field direction
    options).run _ _ = _ at h₂
  obtain ⟨target', found', s₄, own', s₅, column, keys, htarget', hfound', hown', rfl, hcarried,
    hplucks₃⟩ := exists_of_run_orderClauses hfield htype h₂
  obtain rfl := Option.some.inj (htarget'.symm.trans htarget)
  obtain ⟨hok, rfl⟩ := Prod.mk.inj (hfound'.symm.trans hfound)
  obtain rfl := Except.ok.inj hok
  obtain ⟨hok', rfl⟩ := Prod.mk.inj (hown'.symm.trans hown)
  obtain rfl := Except.ok.inj hok'
  refine ⟨rankBy column keys, rfl, fun a b hb => ?_⟩
  have hbest := not_le_of_carried (a := a) htarget htable
    (fun p hp => hanswers p (hplucks₂ (hplucks₃ hp))) hcarried hb
  -- a row with nothing behind it ranks last, as no row `u` can stand against `t`
  refine ⟨hbest, ?_⟩
  rintro ⟨t, ht, hleads⟩ hnone
  exact hbest ⟨t, ht, hleads, fun u hu huleads => absurd ⟨u, hu, huleads⟩ hnone⟩

/-- Genres are ordered from the highest key to the lowest one, and the authors follow them. -/
theorem order_ranks_authors_by_genre :
    ∃ rank, Library.author.relation.orderBy
          [⟨"authors.id = ? DESC, authors.id = ? DESC", [.integer 2, .integer 1]⟩,
            .ofSql "authors.id ASC"] =
        Library.author.relation.orderBy (framed .reversedMany
          (Library.compiler.entity.columnFor "genres" none)
          (Library.compiler.entity.keyColumn ++ " " ++ Direction.ascending.sql) rank) ∧
      ∀ a b : Row, b "id" ≠ none →
        ((∃ t ∈ Library.db.rows "genres",
            Library.genres.Leads Library.db Library.author Library.genre a t ∧
              ∀ u ∈ Library.db.rows "genres",
                Library.genres.Leads Library.db Library.author Library.genre b u →
                  Library.collation.le "genres"
                    [.ofSql "genres.name IS NULL, genres.name = '' ASC, genres.name ASC"] u t =
                    false) →
          Library.collation.le "authors" rank b a = false) ∧
        ((∃ t ∈ Library.db.rows "genres",
            Library.genres.Leads Library.db Library.author Library.genre a t) →
          (¬ ∃ u ∈ Library.db.rows "genres",
            Library.genres.Leads Library.db Library.author Library.genre b u) →
          Library.collation.le "authors" rank b a = false) := by
  have hfield : Library.compiler.entity.resolveWith "genres" ({} : OrderOptions).type =
      ⟨.reversedMany, some Library.genres⟩ := by decide +kernel
  have hown : (orderClauses Library.compiler.settings 2 (Library.entityOf Library.genre []) "name"
      .ascending { limit := none, reorder := true }).run Library.store () =
        (.ok [.ofSql "genres.name IS NULL, genres.name = '' ASC, genres.name ASC"], ()) := by
    decide +kernel
  have hrun : ((Library.compiler.bind Library.author.relation).order "genres" .ascending {}).run
      Library.store () =
        (.ok (Library.author.relation.orderBy
          [⟨"authors.id = ? DESC, authors.id = ? DESC", [.integer 2, .integer 1]⟩,
            .ofSql "authors.id ASC"]), ()) := by
    decide +kernel
  -- the store keeps its rows in the collation's order and within the limit of every pluck
  refine order_ranks_by_best hfield rfl rfl rfl rfl hown (fun p hp answer hanswer => ?_) hrun
  have hlimit : ∀ p ∈ (Library.compiler.order "genres" .ascending {}).plucks Library.store (),
      ∀ n ∈ p.relation.limit, (Library.db.rows p.relation.table).length ≤ n := by
    decide +kernel
  exact Collation.store_answers_in_order hp hanswer (hlimit p hp)

end FieldQuery.Compile

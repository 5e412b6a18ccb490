import FieldQuery.Proofs.Catalog.Targets
import FieldQuery.Proofs.Compile.Balance
import FieldQuery.Proofs.Compile.Rerun

/-!
# Qualified plucks

The columns that a request plucks are qualified by the tables of targets, while the relations that
they are plucked from are those of the entities that are found for the targets. Carrying keys back,
searching and ordering each keep to the table of the target as long as the entity has it, so one walk
over the compilation settles every run, and the names that are looked up on the way decide whether it
applies. Main statement: if all of them are settled, targets and entities agree, and no column is
plucked from the rows of another table.
-/

namespace FieldQuery

open FieldQuery.Catalog FieldQuery.Compilation FieldQuery.Naming FieldQuery.Schema FieldQuery.Sql

variable {provider : Provider}

namespace Compile

/-- A column with the name of the table of a relation. -/
def QualifiedBy (rows : Relation) (column : String) : Prop :=
  ∃ name, column = qualified rows.table name

/-- Entities are loaded by their names, and columns are plucked from their own tables. -/
def qualifying (provider : Provider) : Contract where
  entity i e := Entity.load provider i = .ok e ∧ e.Faithful provider
  asks := QualifiedBy

variable {settings : Settings} {purpose : Purpose} {entity : Entity} {target : Target}
  {rows : Relation}

/-! ## Carrying keys back -/

private theorem keys_qualifying {name : String} :
    (Compilation.keys rows (qualified rows.table name)).Ensures (qualifying provider) fun _ =>
      True :=
  Ensures.keys ⟨name, rfl⟩ fun _ _ => trivial

private theorem throughJoinTable_qualifying {table targetKey ownerKey : String} {targets : KeySet} :
    (throughJoinTable settings purpose table targetKey ownerKey targets).Ensures
      (qualifying provider) fun _ => True := by
  unfold throughJoinTable
  split
  · exact Ensures.pure trivial
  · refine Ensures.keys ⟨ownerKey, ?_⟩ fun _ _ => trivial
    rw [table_narrow]
    rfl

private theorem keysBack_qualifying (link : Link) (htable : rows.table = target.table) :
    (keysBack settings purpose link target rows).Ensures (qualifying provider) fun _ => True := by
  have hkeys : ∀ name, (Compilation.keys rows (target.column name)).Ensures (qualifying provider)
      fun _ => True := by
    intro name
    show (Compilation.keys rows (qualified target.table name)).Ensures _ _
    rw [← htable]
    exact keys_qualifying
  unfold keysBack
  split
  · exact hkeys target.primaryKey
  · exact hkeys target.primaryKey
  · exact hkeys link.foreignKey
  -- The join table is plucked from its own rows.
  · refine (hkeys target.primaryKey).bind fun targets _ => ?_
    exact throughJoinTable_qualifying

/-- On the way back from the rows of a target every column is plucked from its own table. -/
theorem correlate_qualifying (owner : Target) (association : Association)
    (htable : rows.table = target.table) :
    (correlate settings purpose owner target rows association).Ensures (qualifying provider)
      fun _ => True := by
  have hofOwner : ∀ {owner target : Target} {link : Link} {rows : Relation},
      rows.table = target.table → (ofOwner owner link target rows).table = target.table :=
    fun h => table_restrict.trans h
  refine correlate_cases (motive := fun _ way =>
    (way rows).Ensures (qualifying provider) fun _ => True) ?step ?two ?unsupported association
  case step =>
    exact fun link => (keysBack_qualifying link (hofOwner htable)).bind fun _ _ => Ensures.pure trivial
  case two =>
    intro _ _ via source _ _ middle _
    refine (keysBack_qualifying source (hofOwner htable)).bind fun found _ => ?_
    split
    · exact Ensures.pure trivial
    · -- The rows between are those of the middle, narrowed to the keys that were found.
      have hbetween : (narrow settings purpose (ownerColumn middle source) found
          (restrict (pointsAt? middle source target) middle.relation)).table =
            middle.table := table_narrow.trans table_restrict
      exact (keysBack_qualifying via (hofOwner hbetween)).bind fun _ _ => Ensures.pure trivial
  case unsupported => exact fun _ _ _ => Ensures.fail _

/-! ## Searches -/

private theorem enter_qualifying (htarget : target.Faithful provider) :
    (enter settings target).Ensures (qualifying provider) fun found =>
      found.table = target.table := by
  unfold enter
  split
  · exact Ensures.fail _
  · refine Ensures.entity _ fun found h => ?_
    rw [← EntityCache.asTarget_of_load htarget h.1]

private theorem matching_qualifying (found : Entity) (value : Json) (fuzzy : Bool) :
    (matching settings found value fuzzy rows).Ensures (qualifying provider) fun r =>
      r.table = rows.table := by
  refine Ensures.note.bind fun _ _ => ?_
  exact Ensures.pure rfl

private theorem mem_targets_of_target? {association : Association}
    (h : association.target? = some target) :
    target ∈ association.targets := by
  match association with
  | .step link => exact Option.mem_toList.mpr h
  | .through _ _ _ none far _ => exact List.mem_append_right _ (Option.mem_toList.mpr h)
  | .through _ _ _ (some _) far _ => exact List.mem_append_right _ (Option.mem_toList.mpr h)

private theorem requireTarget_qualifying (hentity : entity.Faithful provider)
    {association : Association}
    (hassociation : association ∈ entity.catalog.associations) :
    (Compilation.ofExcept association.requireTarget).Ensures (qualifying provider)
      fun target => target.Faithful provider :=
  Ensures.ofExcept _ fun target h =>
    hentity association hassociation target (mem_targets_of_target? (requireTarget_eq_ok.mp h))

private theorem associationCondition_qualifying (hentity : entity.Faithful provider)
    {association : Association} (hassociation : association ∈ entity.catalog.associations)
    (value : Json) (fuzzy : Bool) :
    (associationCondition settings entity association value fuzzy).Ensures (qualifying provider)
      fun _ => True := by
  refine (requireTarget_qualifying hentity hassociation).bind fun target htarget => ?_
  refine (enter_qualifying htarget).bind fun found hfound => ?_
  refine (matching_qualifying found value fuzzy).bind fun rows hrows => ?_
  refine (correlate_qualifying entity.asTarget association (hrows.trans hfound)).bind
    fun carried _ => ?_
  exact Ensures.pure trivial

private theorem table_addressScope (scope : Catalog.AddressScope) (ownerType : String) :
    (scope.relation ownerType).table = scope.target.table := by
  unfold Catalog.AddressScope.relation
  simp only
  split <;> rfl

private theorem addressKeys_qualifying {scope : Catalog.AddressScope}
    (htable : rows.table = scope.target.table) :
    (Compilation.keys rows (scope.target.column scope.link.foreignKey)).Ensures
      (qualifying provider) fun _ => True := by
  show (Compilation.keys rows (qualified scope.target.table _)).Ensures _ _
  rw [← htable]
  exact keys_qualifying

private theorem addressCondition_qualifying (hentity : entity.Faithful provider) (field : String)
    (value : Json) (fuzzy : Bool) :
    (addressCondition settings entity field value fuzzy).Ensures (qualifying provider)
      fun _ => True := by
  unfold addressCondition
  split
  · exact Ensures.fail _
  · next scope hscope =>
    obtain ⟨hmem, htarget⟩ := Catalog.mem_of_addressScope? hscope
    have hfaithful := hentity _ hmem scope.target (mem_targets_of_target? htarget)
    -- the link of an address scope is one of the catalog, so its target is as the catalog knows it
    refine (enter_qualifying hfaithful).bind fun found _ => ?_
    refine (matching_qualifying found value fuzzy).bind fun rows hrows => ?_
    refine (addressKeys_qualifying (hrows.trans (table_addressScope scope _))).bind
      fun keys _ => ?_
    exact Ensures.pure trivial

/-- The association of a field is one of the catalog. -/
theorem require_qualifying (field : String) (type : Option FieldType) :
    (Compilation.ofExcept (entity.require field (entity.resolveWith field type).association)).Ensures
      (qualifying provider) fun association => association ∈ entity.catalog.associations :=
  Ensures.ofExcept _ fun _ h => Entity.mem_of_resolveWith (require_eq_ok.mp h)

private theorem searchClause_qualifying (hentity : entity.Faithful provider) (field : String)
    (value : Json) (options : SearchOptions) :
    (searchClause settings entity field value options).Ensures (qualifying provider)
      fun _ => True := by
  unfold searchClause
  simp only
  -- only the ways by an association and by an address pluck; the other conditions ask nothing
  split
  · refine Ensures.note.bind fun _ _ => ?_
    exact Ensures.pure trivial
  refine (Ensures.ofExcept (fun _ => True) fun _ _ => trivial).bind fun term _ => ?_
  refine Ensures.note.bind fun _ _ => ?_
  split
  · exact Ensures.pure trivial
  split
  · refine (require_qualifying field options.type).bind fun association hassociation => ?_
    refine (associationCondition_qualifying hentity hassociation value _).bind fun f _ => ?_
    exact Ensures.pure trivial
  split
  · refine (addressCondition_qualifying hentity field value _).bind fun f _ => ?_
    exact Ensures.pure trivial
  · refine (Ensures.ofExcept (fun _ => True) fun _ _ => trivial).bind fun f _ => ?_
    exact Ensures.pure trivial

/-! ## Orderings -/

/-- The entity by which a faithful target is ordered has the table of the target. -/
def QualifyingOrdering (provider : Provider) (orderTarget : TargetOrdering) : Prop :=
  ∀ target : Target, target.Faithful provider → ∀ sortField,
    (orderTarget target.name.typeName sortField).Ensures (qualifying provider) fun found =>
      found.1.table = target.table

variable {orderTarget : TargetOrdering} {options : OrderOptions}

private theorem rankByAssociation_qualifying (horder : QualifyingOrdering provider orderTarget)
    (hentity : entity.Faithful provider) {association : Association}
    (hassociation : association ∈ entity.catalog.associations) :
    (rankByAssociation settings orderTarget entity association options).Ensures
      (qualifying provider) fun _ => True := by
  refine (requireTarget_qualifying hentity hassociation).bind fun target htarget => ?_
  refine (horder target htarget options.sortField).bind fun found hfound => ?_
  -- ordering and cutting rows keeps their table
  have htable : (ordered settings options.limit found.2 found.1.relation).table = target.table :=
    hfound
  refine (correlate_qualifying entity.asTarget association htable).bind fun carried _ => ?_
  exact Ensures.pure trivial

private theorem rankByAddresses_qualifying (horder : QualifyingOrdering provider orderTarget)
    (hentity : entity.Faithful provider) (field : String) :
    (rankByAddresses settings orderTarget entity field options).Ensures (qualifying provider)
      fun _ => True := by
  unfold rankByAddresses
  split
  · exact Ensures.fail _
  · next scope hscope =>
    obtain ⟨hmem, htarget⟩ := Catalog.mem_of_addressScope? hscope
    have hfaithful := hentity _ hmem scope.target (mem_targets_of_target? htarget)
    refine (horder scope.target hfaithful options.sortField).bind fun found _ => ?_
    -- narrowing the rows of a scope keeps their table
    have htable : (ordered settings options.limit found.2
        (scope.relation entity.typeName)).table = scope.target.table :=
      table_addressScope scope _
    refine (addressKeys_qualifying htable).bind fun keys _ => ?_
    exact Ensures.pure trivial

private theorem orderWith_qualifying (horder : QualifyingOrdering provider orderTarget)
    (hentity : entity.Faithful provider) (field : String) (direction : Direction) :
    (orderWith settings orderTarget entity field direction options).Ensures (qualifying provider)
      fun _ => True := by
  have hrequire : (Compilation.ofExcept (entity.require field
      (entity.resolveWith field options.type).association)).Ensures (qualifying provider)
        fun association => association ∈ entity.catalog.associations :=
    require_qualifying field options.type
  unfold orderWith
  refine Ensures.note.bind fun _ _ => ?_
  -- Rows are plucked only for the types of associations and of addresses.
  split
  case h_1 | h_3 | h_4 | h_5 =>
    refine hrequire.bind fun association hassociation => ?_
    refine (rankByAssociation_qualifying horder hentity hassociation).bind fun rank _ => ?_
    exact Ensures.pure trivial
  case h_6 =>
    refine (rankByAddresses_qualifying horder hentity field).bind fun rank _ => ?_
    exact Ensures.pure trivial
  all_goals exact Ensures.pure trivial

private theorem orderClauses_qualifying {levels : Nat} (hentity : entity.Faithful provider)
    (field : String) (direction : Direction) :
    (orderClauses settings levels entity field direction options).Ensures (qualifying provider)
      fun _ => True := by
  -- On the levels that are left, with the entity open: one level down it is that of the target.
  induction levels generalizing entity field options with
  | zero =>
    rw [orderClauses]
    exact orderWith_qualifying (fun _ _ _ => Ensures.fail _) hentity field direction
  | succ levels ih =>
    rw [orderClauses]
    refine orderWith_qualifying (fun target htarget sortField => ?_) hentity field direction
    have hfound : (Compilation.entity target.name.typeName).Ensures (qualifying provider)
        fun found => found.table = target.table ∧ found.Faithful provider := by
      refine Ensures.entity _ fun found h => ⟨?_, h.2⟩
      rw [← EntityCache.asTarget_of_load htarget h.1]
    refine hfound.bind fun found h => ?_
    refine (ih h.2 (sortField.getD found.defaultSortField)).bind fun expressions _ => ?_
    exact Ensures.pure h.1

end Compile

private theorem Request.compile_qualifying {compiler : Compiler}
    (hentity : compiler.entity.Faithful provider) (request : Request) :
    (request.compile compiler).Ensures (Compile.qualifying provider) fun _ => True := by
  have hbound : compiler.bound.Ensures (Compile.qualifying provider) fun _ => True := by
    unfold Compiler.bound
    split
    · exact Ensures.pure trivial
    · exact Ensures.fail _
  cases request with
  | order field direction options =>
    refine hbound.bind fun bound _ => ?_
    refine (Compile.orderClauses_qualifying hentity field direction).bind fun expressions _ => ?_
    exact Ensures.pure trivial
  | search field value options =>
    refine hbound.bind fun bound _ => ?_
    refine (Compile.searchClause_qualifying hentity field value options).bind fun clause _ => ?_
    exact Ensures.pure trivial
  | searchAny value options =>
    refine hbound.bind fun bound _ => ?_
    refine Ensures.note.bind fun _ _ => ?_
    exact Ensures.pure trivial

/-! ## Runs on an engine -/

variable {σ α : Type} {engine : Engine provider σ}

/-- What is ensured if entities are loaded by their names holds of a run on an engine, as long as the
identifiers that were looked up are settled. -/
theorem Engine.qualified_of_ensures {post : α → Prop} {x : Compilation α}
    (hx : x.Ensures (Compile.qualifying provider) post) {earlier : List String} {s : σ}
    (hholds : EntityCache.Holds provider earlier (engine.cache s))
    (hsettled : EntityCache.Settled provider (earlier ++ x.lookups engine.toBackend s)) :
    ∀ p ∈ x.plucks engine.toBackend s, Compile.QualifiedBy p.relation p.column := by
  -- With every look-up the identifiers before it grow, and those still to come shrink.
  induction x generalizing earlier s with
  | done a => exact List.forall_mem_nil _
  | fail e => exact List.forall_mem_nil _
  | lookup i next ih =>
    simp only [lookups, plucks] at hsettled ⊢
    rcases hfound : engine.entity i s with ⟨e | entity, s'⟩
    · exact List.forall_mem_nil _
    simp only [hfound] at hsettled ⊢
    rw [← List.singleton_append, ← List.append_assoc] at hsettled
    have hnow : EntityCache.Settled provider (earlier ++ [i]) :=
      hsettled.mono (List.subset_append_left _ _)
    have hlookup := engine.lookup_of_entity hfound
    have hload : Entity.load provider i = .ok entity := by
      rw [← hholds.lookup_of_settled fun j hj => hnow.stable j (List.mem_append_left _ hj), hlookup]
    have hnext := (hholds.lookup i).2
    rw [hlookup] at hnext
    exact ih entity (hx entity ⟨hload, hnow.faithful (by simp) hload⟩) hnext hsettled
  | pluck r c next ih =>
    simp only [lookups, plucks] at hsettled ⊢
    have hcache := engine.cache_pluck r c s
    rcases hanswer : engine.pluck r c s with ⟨e | answer, s'⟩
    all_goals
      simp only [hanswer] at hsettled hcache ⊢
    · exact List.forall_mem_singleton.mpr hx.1
    · rw [← hcache] at hholds
      exact List.forall_mem_cons.mpr ⟨hx.1, ih _ (hx.2 answer trivial) hholds hsettled⟩
  | count event next ih =>
    simp only [lookups, plucks] at hsettled ⊢
    rw [← engine.cache_count event s] at hholds
    exact ih hx hholds hsettled

/-- On a cache that has looked up only what is read back from its type name, the entity that is found
for a target in any of its catalogs has the table and the key of the target. So every column that is
plucked for a request is one of the relation that it is plucked from. -/
theorem targets_agree (provider : Provider) :
    (∀ (earlier : List String) (cache : EntityCache), EntityCache.Holds provider earlier cache →
      EntityCache.Settled provider earlier →
      ∀ type owner, cache.entries.lookup type = some owner →
        ∀ association ∈ owner.catalog.associations, ∀ target ∈ association.targets,
          ∀ entity, (cache.lookup provider target.name.typeName).1 = .ok entity →
            entity.name = target.name ∧ entity.table = target.table ∧
              entity.primaryKey = target.primaryKey) ∧
    ∀ (σ : Type) (engine : Engine provider σ) (s : σ) (earlier : List String),
      EntityCache.Holds provider earlier (engine.cache s) →
      ∀ (compiler : Compiler) (request : Request) (type : String),
        (engine.cache s).entries.lookup type = some compiler.entity →
        EntityCache.Settled provider
          (earlier ++ (request.compile compiler).lookups engine.toBackend s) →
        ∀ p ∈ (request.compile compiler).plucks engine.toBackend s,
          ∃ name, p.column = qualified p.relation.table name := by
  refine ⟨fun earlier cache hholds hsettled type owner howner association hassociation target
    htarget entity hfound => ?_, fun σ engine s earlier hholds compiler request type hheld
    hsettled => ?_⟩
  · exact hholds.lookup_target hsettled howner hassociation htarget hfound
  · -- the entity held was loaded for one of the identifiers looked up before
    obtain ⟨i, hi, hload⟩ := hholds.exists_load hheld
    have hfaithful : compiler.entity.Faithful provider :=
      hsettled.faithful (List.mem_append_left _ hi) hload
    exact engine.qualified_of_ensures (Request.compile_qualifying hfaithful request) hholds hsettled

namespace Compile.Library

/-- An author has books, and over them genres. -/
def authorSchema : EntitySchema where
  typeName := "Author"
  columns := [("name", .string)]
  associations :=
    [{ name := "books", kind := .hasMany },
     { name := "genres", kind := .hasMany, through := some "books" }]

/-- The schemas of all three entities, with what they declare left to the conventions. -/
def shelves : Provider :=
  (Registry.ofList
    [authorSchema,
     { typeName := "Book", associations := [{ name := "genres", kind := .hasAndBelongsToMany }] },
     { typeName := "Genre", columns := [("name", .string)] }]).provider fun _ _ => none

/-- The engine over the store of the library that finds all three entities. -/
def shelved : Engine shelves (EntityCache × Unit) :=
  .ofExecutor shelves store.pluck

/-- What is kept after authors have been looked up. -/
def opened : EntityCache :=
  (EntityCache.lookup shelves "author" {}).2

/-- The entity of the authors. -/
def authors : Entity :=
  .ofSchema shelves author.name authorSchema

/-- The genres of an author are found over two tables that lie between. -/
theorem targets_agree_in_library :
    let request := (Request.search "genres" (.string "crime") {}).compile
      (.all ⟨.sqlite, 100, 3⟩ authors)
    EntityCache.Holds shelves ["author"] opened ∧ opened.entries.lookup "Author" = some authors ∧
      EntityCache.Settled shelves (["author"] ++ request.lookups shelved.toBackend (opened, ())) ∧
      (∀ association ∈ authors.catalog.associations, ∀ target ∈ association.targets,
        ∀ entity, (opened.lookup shelves target.name.typeName).1 = .ok entity →
          entity.name = target.name ∧ entity.table = target.table ∧
            entity.primaryKey = target.primaryKey) ∧
      (request.plucks shelved.toBackend (opened, ())).map (fun p => (p.relation.table, p.column)) =
        [("genres", "genres.id"), ("books_genres", "books_genres.book_id"),
         ("books", "books.author_id")] ∧
      ∀ p ∈ request.plucks shelved.toBackend (opened, ()),
        ∃ name, p.column = qualified p.relation.table name := by
  intro request
  have hholds : EntityCache.Holds shelves ["author"] opened :=
    ((EntityCache.holds_empty shelves).lookup "author").2
  have hheld : opened.entries.lookup "Author" = some authors := by
    have hname : EntityName.parse? "author" = some author.name := by decide +kernel
    have hschema : shelves.schema? author.name.typeName = some authorSchema := by decide +kernel
    -- the cache is new, so the entity found is the one its schema gives
    unfold opened
    rw [EntityCache.lookup_of_new hname rfl hschema]
    rfl
  have hlookups : request.lookups shelved.toBackend (opened, ()) = ["Genre"] := by
    decide +kernel
  have hsettled : EntityCache.Settled shelves
      (["author"] ++ request.lookups shelved.toBackend (opened, ())) := by
    rw [hlookups]
    exact ⟨by decide +kernel, by decide +kernel⟩
  obtain ⟨htargets, hplucks⟩ := targets_agree shelves
  refine ⟨hholds, hheld, hsettled, ?_, by decide +kernel, ?_⟩
  · exact htargets ["author"] opened hholds (hsettled.mono (List.subset_append_left _ _)) "Author"
      authors hheld
  · exact hplucks _ shelved (opened, ()) ["author"] hholds _ _ "Author" hheld hsettled

end Compile.Library

end FieldQuery

import FieldQuery.Proofs.Catalog.Descriptions
import FieldQuery.Proofs.Catalog.Targets
import FieldQuery.Proofs.Compile.Balance
import FieldQuery.Proofs.Compile.Engine
import FieldQuery.Proofs.Entity.Conversions

/-!
# What requests fail by

A computation *fails by* errors of a kind if every error that it ends in of its own accord is of this
kind, whatever its questions are answered. All other errors of a run come from a question: the store
fails, or an entity is not found.

Carrying keys back over an association of a catalog fails by nothing if the links of the association
are there, since a catalog composes associations of links that have the targets that are gone
through. So a request calls an association unsupported only where the catalog knows no target or no
second step for it.
-/

namespace FieldQuery

open FieldQuery.Catalog FieldQuery.Naming FieldQuery.Schema FieldQuery.Sql

namespace Compilation

variable {α β σ : Type}

/-! ## Failing by errors of a kind -/

/-- What a computation may look up, what it may find, and the errors that it may end in. -/
structure Bounds where
  sought : String → Prop := fun _ => True
  found : Entity → Prop := fun _ => True
  kind : QueryError → Prop := fun _ => False

/-- Whatever its questions are answered, a computation looks up and fails within bounds. -/
def FailsBy (bounds : Bounds) : Compilation α → Prop
  | done _ => True
  | fail e => bounds.kind e
  | lookup i next => bounds.sought i ∧ ∀ e, bounds.found e → (next e).FailsBy bounds
  | pluck _ _ next => ∀ keys, (next keys).FailsBy bounds
  | count _ next => next.FailsBy bounds

namespace FailsBy

variable {bounds : Bounds} {x : Compilation α} {f : α → Compilation β}

/-- A result is no failure. -/
theorem pure (a : α) : (Pure.pure a : Compilation α).FailsBy bounds := trivial

/-- A count is no failure. -/
theorem note (event : CompileEvent) : (Compilation.note event).FailsBy bounds := trivial

/-- Keys fail by the store alone, which is not counted here. -/
theorem keys (r : Relation) (column : String) : (Compilation.keys r column).FailsBy bounds :=
  fun _ => trivial

/-- A computation fails by what its parts fail by. -/
theorem bind (hx : x.FailsBy bounds) (hf : ∀ a, (f a).FailsBy bounds) :
    (x >>= f).FailsBy bounds := by
  change (x.bind f).FailsBy bounds
  -- induction on the first computation, whose result `f` is applied to where it is done
  induction x with
  | done a => exact hf a
  | fail e => exact hx
  | lookup i next ih => exact ⟨hx.1, fun e he => ih e (hx.2 e he)⟩
  | pluck r c next ih => exact fun keys => ih keys (hx keys)
  | count event next ih => exact ih hx

/-- The entity that a computation goes on from is one that may be found. -/
theorem entity_bind {identifier : String} {f : Entity → Compilation β}
    (hi : bounds.sought identifier) (hf : ∀ e, bounds.found e → (f e).FailsBy bounds) :
    (Compilation.entity identifier >>= f).FailsBy bounds :=
  ⟨hi, hf⟩

/-- What is known of a result that may be an error is known in what follows. -/
theorem ofExcept_bind {result : Except QueryError α} (herror : ∀ e, result = .error e → bounds.kind e)
    (hf : ∀ a, result = .ok a → (f a).FailsBy bounds) :
    (Compilation.ofExcept result >>= f).FailsBy bounds := by
  cases result with
  | ok a => exact hf a rfl
  | error e => exact herror e rfl

/-- An error of a run is one that the computation fails by, or a failure of the store or of a
look-up. -/
theorem sound {backend : Backend σ} (inv : σ → Prop) (hx : x.FailsBy bounds)
    (hlookup : ∀ i s result s', inv s → backend.entity i s = (result, s') →
      inv s' ∧ ∀ e, result = .ok e → bounds.found e)
    (hpluck : ∀ r c s answer s', inv s → backend.pluck r c s = (answer, s') → inv s')
    (hcount : ∀ event s, inv s → inv (backend.count event s))
    {s s' : σ} (hs : inv s) {e : QueryError} (h : x.run backend s = (.error e, s')) :
    bounds.kind e ∨ (∃ failure, e = .storage failure) ∨
      ∃ i, bounds.sought i ∧ ∃ s₁ s₂, inv s₁ ∧ backend.entity i s₁ = (.error e, s₂) := by
  -- On the program, for every state that keeps the invariant: each step is answered from one and
  -- leads to one.
  induction x generalizing s with
  | done a => cases h
  | fail e' =>
    cases h
    exact Or.inl hx
  | lookup i next ih =>
    simp only [run] at h
    rcases hfound : backend.entity i s with ⟨e' | entity, s₁⟩
    · simp only [hfound] at h
      cases h
      exact Or.inr (Or.inr ⟨i, hx.1, s, _, hs, hfound⟩)
    · simp only [hfound] at h
      obtain ⟨hs₁, hentity⟩ := hlookup i s _ s₁ hs hfound
      exact ih entity (hx.2 entity (hentity entity rfl)) hs₁ h
  | pluck r c next ih =>
    simp only [run] at h
    rcases hanswer : backend.pluck r c s with ⟨failure | answer, s₁⟩
    · simp only [hanswer] at h
      cases h
      exact Or.inr (Or.inl ⟨failure, rfl⟩)
    · simp only [hanswer] at h
      exact ih _ (hx _) (hpluck r c s _ s₁ hs hanswer) h
  | count event next ih => exact ih hx (hcount event s hs) h

end FailsBy

end Compilation

open Compilation

namespace Compile

variable {settings : Settings} {purpose : Purpose} {bounds : Bounds}

/-! ## Carrying back -/

private theorem keysBack_failsBy (link : Link) (target : Target) (rows : Relation) :
    (keysBack settings purpose link target rows).FailsBy bounds := by
  unfold keysBack
  split
  · exact .keys _ _
  · exact .keys _ _
  · exact .keys _ _
  · -- only a join table needs a second pluck, and plucks fail in the storage alone
    refine (FailsBy.keys _ _).bind fun targets => ?_
    unfold throughJoinTable
    split
    · exact .pure _
    · exact .keys _ _

private theorem correlateTwo_failsBy (owner : Target) (via : Link) (middle : Target) (source : Link)
    (target : Target) (rows : Relation) :
    (correlateTwo settings purpose owner via middle source target rows).FailsBy bounds := by
  refine (keysBack_failsBy _ _ _).bind fun found => ?_
  split
  · exact .pure _
  · exact (keysBack_failsBy _ _ _).bind fun _ => .pure _

/-- A well-formed association is carried back without an error, unless its second step is missing. -/
theorem correlate_failsBy {provider : Provider} {owner : EntityName} {schema : EntitySchema}
    {association : Association} (h : association.WellFormed provider owner schema)
    (hkind : ∀ name foreignKey via target isCollection,
      association = .through name foreignKey via none target isCollection →
      bounds.kind (.unsupportedAssociation name .noUsableSource))
    (from' target : Target) (rows : Relation) :
    (correlate settings purpose from' target rows association).FailsBy bounds := by
  match association with
  | .step link => exact (keysBack_failsBy _ _ _).bind fun _ => .pure _
  | .through _ _ _ none _ _ => exact hkind _ _ _ _ _ rfl
  | .through _ _ via (some source) _ _ =>
    -- Both steps are links, and the second one is a link of the middle, so there is a middle.
    obtain ⟨d, hd, -⟩ := h
    obtain ⟨link, rfl, -⟩ := hd.declares
    obtain ⟨next, rfl, hnext⟩ := hd.continues source rfl
    obtain ⟨middle, hmiddle⟩ := hnext.exists_target
    simp only [correlate, hmiddle]
    exact correlateTwo_failsBy _ _ _ _ _ _

/-- Whatever an association is, it is carried back or is not supported. -/
theorem correlate_failsBy_unsupported
    (hkind : ∀ name fault, bounds.kind (.unsupportedAssociation name fault)) (from' target : Target)
    (rows : Relation) (association : Association) :
    (correlate settings purpose from' target rows association).FailsBy bounds := by
  refine correlate_cases (motive := fun _ way => (way rows).FailsBy bounds) ?step ?two ?unsupported
    association
  case step => exact fun _ => (keysBack_failsBy _ _ _).bind fun _ => .pure _
  case two => exact fun _ _ _ _ _ _ _ _ => correlateTwo_failsBy _ _ _ _ _ _
  case unsupported => exact fun _ name fault => hkind name fault

/-! ## Conditions over keys -/

section Conditions

variable {entity : Entity} (hsought : ∀ identifier, bounds.sought identifier)
  (hdepth : ∀ depth, bounds.kind (.recursionLimit depth))
include hsought hdepth

private theorem enter_bind_failsBy {α : Type} (target : Target) {f : Entity → Compilation α}
    (hf : ∀ found, (f found).FailsBy bounds) : (enter settings target >>= f).FailsBy bounds := by
  unfold enter
  split
  · exact hdepth _
  · exact FailsBy.entity_bind (hsought _) fun found _ => hf found

/-- A search over an association fails for want of a target, at the depth, or on the way back. -/
theorem associationCondition_failsBy {association : Association}
    (htarget : ∀ e, association.requireTarget = .error e → bounds.kind e)
    (hcorrelate : ∀ target rows,
      (correlate settings .filter entity.asTarget target rows association).FailsBy bounds)
    (value : Json) (fuzzy : Bool) :
    (associationCondition settings entity association value fuzzy).FailsBy bounds := by
  refine FailsBy.ofExcept_bind htarget fun target _ => ?_
  refine enter_bind_failsBy hsought hdepth target fun found => ?_
  refine ((FailsBy.note _).bind fun _ => .pure _).bind fun rows => ?_
  exact (hcorrelate target rows).bind fun _ => .pure _

/-- A search for addresses fails for want of addresses or at the depth. -/
theorem addressCondition_failsBy {field : String}
    (hfield : bounds.kind (.unknownAssociation entity.typeName field)) (value : Json)
    (fuzzy : Bool) : (addressCondition settings entity field value fuzzy).FailsBy bounds := by
  unfold addressCondition
  split
  · exact hfield
  · next scope _ =>
    refine enter_bind_failsBy hsought hdepth scope.target fun found => ?_
    refine ((FailsBy.note _).bind fun _ => .pure _).bind fun rows => ?_
    exact (FailsBy.keys rows _).bind fun _ => .pure _

end Conditions

/-! ## Associations that are not supported -/

/-- What there is about an association that a request cannot follow: its target is not known, its
second step is missing, or one of its steps goes through another association. -/
def Lacks (association : Association) : AssociationFault → Prop
  | .targetVaries => association.target? = none
  | .noUsableSource =>
    ∃ name foreignKey via target isCollection,
      association = .through name foreignKey via none target isCollection
  | .nestedThrough =>
    ∃ name foreignKey via source target isCollection,
      association = .through name foreignKey via (some source) target isCollection ∧
        (via.isThrough = true ∨ source.isThrough = true)

private theorem not_lacks_nestedThrough {provider : Provider} {owner : EntityName}
    {schema : EntitySchema}
    {association : Association} (h : association.WellFormed provider owner schema) :
    ¬ Lacks association .nestedThrough := by
  rintro ⟨name, foreignKey, via, source, target, isCollection, rfl, hnested⟩
  -- neither part of a described chain is a chain
  obtain ⟨hvia, hsource⟩ := h.isThrough_eq_false
  rw [hvia, hsource source rfl] at hnested
  exact absurd hnested (by decide)

/-- An error that calls an association unsupported only if the catalog of an entity says so. -/
def Founded (provider : Provider) (e : QueryError) : Prop :=
  ∀ name fault, e = .unsupportedAssociation name fault →
    ∃ owner schema, ∃ association ∈ describeAll provider owner schema,
      association.name = name ∧ Lacks association fault

/-- An entity whose associations are described from a schema. -/
def Described (provider : Provider) (entity : Entity) : Prop :=
  ∃ name schema, entity = .ofSchema provider name schema

/-- Requests over the schemas of a provider. -/
def founding (provider : Provider) : Bounds where
  found := Described provider
  kind := Founded provider

variable {provider : Provider} {entity : Entity}

private theorem founded_of_ne {e : QueryError}
    (h : ∀ name fault, e ≠ .unsupportedAssociation name fault) :
    Founded provider e :=
  fun name fault he => absurd he (h name fault)

private theorem founded_of_mem (hentity : Described provider entity) {association : Association}
    (hassociation : association ∈ entity.catalog.associations) {fault : AssociationFault}
    (h : Lacks association fault) :
    Founded provider (.unsupportedAssociation association.name fault) := by
  obtain ⟨name, schema, rfl⟩ := hentity
  rintro _ _ ⟨⟩
  exact ⟨name, schema, association, hassociation, rfl, h⟩

private theorem correlate_founded (hentity : Described provider entity) {association : Association}
    (hassociation : association ∈ entity.catalog.associations) (owner target : Target)
    (rows : Relation) :
    (correlate settings purpose owner target rows association).FailsBy (founding provider) := by
  have hwell : ∃ name schema, association.WellFormed provider name schema := by
    obtain ⟨name, schema, rfl⟩ := hentity
    exact ⟨name, schema, wellFormed_of_mem_describeAll hassociation⟩
  obtain ⟨name, schema, hwell⟩ := hwell
  -- a chain without a usable source is the only fault of a followed association
  refine correlate_failsBy hwell (fun _ foreignKey via far isCollection h => ?_) owner target rows
  have hlacks : Lacks association .noUsableSource := ⟨_, foreignKey, via, far, isCollection, h⟩
  have hfounded := founded_of_mem hentity hassociation hlacks
  rwa [h] at hfounded

private theorem founded_of_requireTarget (hentity : Described provider entity)
    {association : Association}
    (hassociation : association ∈ entity.catalog.associations) {e : QueryError}
    (h : association.requireTarget = .error e) : Founded provider e := by
  unfold Association.requireTarget at h
  split at h
  · cases h
  · next hnone =>
    cases h
    exact founded_of_mem hentity hassociation hnone

/-- The association of a field is one of the catalog, if there is one. -/
theorem require_bind_founded {α : Type} (field : String) (type : Option FieldType)
    {f : Association → Compilation α}
    (hf : ∀ association ∈ entity.catalog.associations, (f association).FailsBy (founding provider)) :
    (Compilation.ofExcept (entity.require field (entity.resolveWith field type).association) >>=
      f).FailsBy (founding provider) := by
  -- the association required is one of the catalog; without one the failure names the field
  refine FailsBy.ofExcept_bind (fun e he => ?_) fun association h =>
    hf association (Entity.mem_of_resolveWith (require_eq_ok.mp h))
  unfold Entity.require at he
  split at he
  · cases he
  · cases he
    exact founded_of_ne nofun

/-! ## Searches -/

/-- Whether an error is one of a value that cannot be read. -/
def IsParse (e : QueryError) : Prop :=
  ∃ type text fault, e = .parse type text fault

private theorem IsParse.founded {e : QueryError} (h : IsParse e) : Founded provider e := by
  obtain ⟨type, text, fault, rfl⟩ := h
  exact founded_of_ne nofun

private theorem isParse_of_parseValue {type : FieldType} {value : Json} {e : QueryError}
    (h : entity.parseValue type value = .error e) : IsParse e :=
  ⟨type, Entity.exists_of_parseValue_eq_error h⟩

private theorem founded_of_plainCondition {dialect : Dialect} {field column text : String}
    {fuzzy : Bool}
    {type : FieldType} {term : Value.Term} {e : QueryError}
    (h : plainCondition dialect entity field column fuzzy text type term = .error e) :
    Founded provider e := by
  unfold plainCondition at h
  -- one case for each type of field; what fails is the value or the type, never the catalog
  split at h
  case h_5 => cases h; exact founded_of_ne nofun
  case h_9 | h_10 =>
    split at h
    · cases h
    · cases h
      exact founded_of_ne nofun
  case h_12 =>
    split at h
    · split at h
      · cases h
      · cases h
        exact founded_of_ne nofun
    · cases h
  case h_20 => cases h; exact founded_of_ne nofun
  all_goals cases h

private theorem founded_recursionLimit (depth : Nat) : Founded provider (.recursionLimit depth) :=
  founded_of_ne nofun

private theorem associationCondition_founded (hentity : Described provider entity)
    {association : Association} (hassociation : association ∈ entity.catalog.associations)
    (value : Json) (fuzzy : Bool) :
    (associationCondition settings entity association value fuzzy).FailsBy (founding provider) :=
  associationCondition_failsBy (fun _ => trivial) founded_recursionLimit
    (fun _ he => founded_of_requireTarget hentity hassociation he)
    (fun target rows => correlate_founded hentity hassociation _ target rows) value fuzzy

private theorem addressCondition_founded (field : String) (value : Json) (fuzzy : Bool) :
    (addressCondition settings entity field value fuzzy).FailsBy (founding provider) := by
  refine addressCondition_failsBy (fun _ => trivial) founded_recursionLimit ?_ value fuzzy
  exact founded_of_ne nofun

private theorem searchClause_founded (hentity : Described provider entity) (field : String)
    (value : Json)
    (options : SearchOptions) :
    (searchClause settings entity field value options).FailsBy (founding provider) := by
  unfold searchClause
  simp only
  -- the four ways of a search, in the order they are tried
  split
  · exact (FailsBy.note _).bind fun _ => .pure _
  refine FailsBy.ofExcept_bind (fun e he => (isParse_of_parseValue he).founded) fun term _ => ?_
  refine (FailsBy.note _).bind fun _ => ?_
  split
  · exact .pure _
  split
  · refine require_bind_founded field options.type fun association hassociation => ?_
    exact (associationCondition_founded hentity hassociation value _).bind fun _ => .pure _
  split
  · exact (addressCondition_founded field value _).bind fun _ => .pure _
  · exact FailsBy.ofExcept_bind (fun e he => founded_of_plainCondition he) fun _ _ => .pure _

/-! ## Orderings -/

variable {orderTarget : TargetOrdering} {options : OrderOptions}

private theorem orderWith_founded
    (horder : ∀ type sortField, (orderTarget type sortField).FailsBy (founding provider))
    (hentity : Described provider entity) (field : String) (direction : Direction) :
    (orderWith settings orderTarget entity field direction options).FailsBy (founding provider) := by
  unfold orderWith
  refine (FailsBy.note _).bind fun _ => ?_
  split
  -- the orderings by an association: its target, that target's ordering and the keys back may fail
  case h_1 | h_3 | h_4 | h_5 =>
    refine require_bind_founded field options.type fun association hassociation => ?_
    refine FailsBy.bind ?_ fun _ => .pure _
    refine FailsBy.ofExcept_bind
      (fun _ he => founded_of_requireTarget hentity hassociation he) fun target _ => ?_
    refine (horder _ _).bind fun found => ?_
    exact (correlate_founded hentity hassociation _ target _).bind fun _ => .pure _
  -- the ordering by addresses follows the address scope alone
  case h_6 =>
    refine FailsBy.bind ?_ fun _ => .pure _
    unfold rankByAddresses
    split
    · exact founded_of_ne nofun
    · refine (horder _ _).bind fun found => ?_
      exact (FailsBy.keys _ _).bind fun _ => .pure _
  all_goals exact .pure _

private theorem orderClauses_founded {levels : Nat} (hentity : Described provider entity)
    (field : String)
    (direction : Direction) :
    (orderClauses settings levels entity field direction options).FailsBy (founding provider) := by
  -- On the levels that are left, with the entity open: one level down it is that of the target.
  induction levels generalizing entity field options with
  | zero =>
    rw [orderClauses]
    refine orderWith_founded (fun _ _ => ?_) hentity field direction
    exact founded_of_ne fun _ _ h => by cases h
  | succ levels ih =>
    rw [orderClauses]
    refine orderWith_founded (fun type sortField => ?_) hentity field direction
    refine FailsBy.entity_bind trivial fun found hfound => ?_
    exact (ih hfound (sortField.getD found.defaultSortField)).bind fun _ => .pure _

end Compile

private theorem Request.compile_founded {provider : Provider} {compiler : Compiler}
    (hentity : Compile.Described provider compiler.entity) (request : Request) :
    (request.compile compiler).FailsBy (Compile.founding provider) := by
  -- a compiler without a relation fails before anything is asked
  have hbound : compiler.bound.FailsBy (Compile.founding provider) := by
    unfold Compiler.bound
    split
    · exact .pure _
    · exact Compile.founded_of_ne nofun
  cases request with
  | order field direction options =>
    refine hbound.bind fun _ => ?_
    exact (Compile.orderClauses_founded hentity field direction).bind fun _ => .pure _
  | search field value options =>
    refine hbound.bind fun _ => ?_
    exact (Compile.searchClause_founded hentity field value options).bind fun _ => .pure _
  | searchAny value options =>
    refine hbound.bind fun _ => ?_
    exact (FailsBy.note _).bind fun _ => .pure _

/-! ## Runs on an engine -/

namespace EntityCache

variable {provider : Provider} {earlier : List String} {cache : EntityCache}

private theorem described_of_load {identifier : String} {entity : Entity}
    (h : Entity.load provider identifier = .ok entity) : Compile.Described provider entity := by
  obtain ⟨schema, -, -, hentity⟩ := exists_schema_of_load h
  exact ⟨entity.name, schema, hentity⟩

private theorem founded_of_lookup {identifier : String} {e : QueryError} {next : EntityCache}
    (h : cache.lookup provider identifier = (.error e, next)) : Compile.Founded provider e := by
  rcases error_of_lookup h with rfl | ⟨type, rfl⟩
  · exact Compile.founded_of_ne nofun
  · exact Compile.founded_of_ne nofun

end EntityCache

/-- On an engine a request calls an association unsupported only if the catalog of an entity does. -/
theorem Engine.founded_of_run {provider : Provider} {σ : Type} (engine : Engine provider σ)
    {compiler : Compiler} (hentity : Compile.Described provider compiler.entity) (request : Request)
    {s s' : σ} {earlier : List String} (hholds : EntityCache.Holds provider earlier (engine.cache s))
    {e : QueryError} (h : (request.compile compiler).run engine.toBackend s = (.error e, s')) :
    Compile.Founded provider e := by
  -- the lookups keep the cache one that holds what was asked before, with entities as described
  have hlookup : ∀ i s result s', (∃ earlier, EntityCache.Holds provider earlier (engine.cache s)) →
      engine.entity i s = (result, s') →
      (∃ earlier, EntityCache.Holds provider earlier (engine.cache s')) ∧
        ∀ e, result = .ok e → Compile.Described provider e := by
    rintro i s result s' ⟨earlier, hholds⟩ hfound
    have hlookup := engine.lookup_of_entity hfound
    obtain ⟨hresult, hnext⟩ := hholds.lookup i
    rw [hlookup] at hresult hnext
    refine ⟨⟨_, hnext⟩, fun e he => EntityCache.described_of_load (hresult.symm.trans he)⟩
  -- plucks and counts leave the cache alone
  have hpluck : ∀ r c s answer s', (∃ earlier, EntityCache.Holds provider earlier (engine.cache s)) →
      engine.pluck r c s = (answer, s') →
      ∃ earlier, EntityCache.Holds provider earlier (engine.cache s') := by
    rintro r c s answer s' hs hanswer
    have hcache := engine.cache_pluck r c s
    rw [hanswer] at hcache
    rwa [hcache]
  have hcount : ∀ event s, (∃ earlier, EntityCache.Holds provider earlier (engine.cache s)) →
      ∃ earlier, EntityCache.Holds provider earlier (engine.cache (engine.count event s)) :=
    fun event s hs => by rwa [engine.cache_count]
  -- a failure is one of the compilation, of the storage, or of a lookup
  rcases (Request.compile_founded hentity request).sound _ hlookup hpluck hcount ⟨earlier, hholds⟩ h
    with hkind | ⟨failure, rfl⟩ | ⟨i, -, s₁, s₂, -, hfailed⟩
  · exact hkind
  · exact Compile.founded_of_ne nofun
  · exact EntityCache.founded_of_lookup (engine.lookup_of_entity hfailed)

/-! ## Catalogs -/

/-- Every association of a catalog is well formed, and has no target only where a row may point at
rows of any type or nothing tells where the second step leads. An association through another one goes
through one of the same catalog that goes through none itself, and has its key. If its second step is
there, this goes through none either, the middle is known, and the association is carried back without
any error but one of the store. So a request calls an association unsupported only if its catalog knows
no target or no second step for it, and never because one goes through two others. -/
theorem catalogs_followed (provider : Provider) :
    (∀ owner schema, ∀ association ∈ (Catalog.ofSchema provider owner schema).associations,
      association.WellFormed provider owner schema ∧
      (association.target? = none →
        association.isPolymorphic = true ∨
          ∃ name foreignKey via source isCollection,
            association = .through name foreignKey via source none isCollection ∧
              ∃ d ∈ schema.associations, d.name = name ∧ d.through = some via.name ∧
                LeavesTargetOpen d source) ∧
      ∀ name foreignKey via source far isCollection,
        association = .through name foreignKey via source far isCollection →
        via ∈ (Catalog.ofSchema provider owner schema).associations ∧ via.isThrough = false ∧
          foreignKey = via.foreignKey ∧
          ∀ step ∈ source, step.isThrough = false ∧ (∃ middle, via.target? = some middle) ∧
            ∀ (σ : Type) (backend : Backend σ) settings purpose (from' target : Target) rows s e s',
              (Compile.correlate settings purpose from' target rows association).run backend s =
                (.error e, s') → ∃ failure, e = .storage failure) ∧
    ∀ (σ : Type) (engine : Engine provider σ) (s : σ) (earlier : List String),
      EntityCache.Holds provider earlier (engine.cache s) →
      ∀ (compiler : Compiler) (type : String),
        (engine.cache s).entries.lookup type = some compiler.entity →
        ∀ (request : Request) name fault s',
          (request.compile compiler).run engine.toBackend s =
            (.error (.unsupportedAssociation name fault), s') →
          fault.message ≠ "nested through associations" ∧
          ∃ owner schema, ∃ association ∈ (Catalog.ofSchema provider owner schema).associations,
            association.name = name ∧ Compile.Lacks association fault := by
  refine ⟨fun owner schema association hassociation => ?_,
    fun σ engine s earlier hholds compiler type hheld request name fault s' hrun => ?_⟩
  · have hwell := wellFormed_of_mem_describeAll hassociation
    refine ⟨hwell, hwell.of_target?_eq_none, ?_⟩
    rintro name foreignKey via source far isCollection rfl
    obtain ⟨hvia, hsource⟩ := hwell.isThrough_eq_false
    have hmem := mem_describeAll_of_through hassociation
    obtain ⟨d, hd, -⟩ := id hwell
    refine ⟨hmem, hvia, hd.foreignKey_eq, fun step hstep => ⟨hsource step hstep, ?_, ?_⟩⟩
    · obtain ⟨next, -, hnext⟩ := hd.continues step hstep
      exact hnext.exists_target
    · -- With a second step nothing is looked up on the way, so only the store can fail.
      intro σ backend settings purpose from' target rows s e s' hrun
      obtain rfl : source = some step := hstep
      have hfails : (Compile.correlate settings purpose from' target rows
          (.through name foreignKey via (some step) far isCollection)).FailsBy
            { sought := fun _ => False } :=
        Compile.correlate_failsBy hwell (fun _ _ _ _ _ hnone => nomatch hnone) from' target rows
      rcases hfails.sound (fun _ => True) (fun _ _ _ _ _ _ => ⟨trivial, fun _ _ => trivial⟩)
        (fun _ _ _ _ _ _ _ => trivial) (fun _ _ _ => trivial) trivial hrun with h | h | ⟨_, h, -⟩
      · exact h.elim
      · exact h
      · exact h.elim
  · obtain ⟨i, -, hload⟩ := hholds.exists_load hheld
    obtain ⟨owner, schema, association, hassociation, hname, hlacks⟩ :=
      engine.founded_of_run (EntityCache.described_of_load hload) request hholds hrun name fault rfl
    refine ⟨fun hmessage => ?_, owner, schema, association, hassociation, hname, hlacks⟩
    have hwell := wellFormed_of_mem_describeAll hassociation
    cases fault with
    | targetVaries => exact absurd hmessage (by decide)
    | noUsableSource => exact absurd hmessage (by decide)
    | nestedThrough => exact Compile.not_lacks_nestedThrough hwell hlacks

namespace Compile.Library

/-- An author has genres over the books, and prizes that no book declares. -/
def prizedSchema : EntitySchema where
  typeName := "Author"
  columns := [("name", .string)]
  associations :=
    [{ name := "books", kind := .hasMany },
     { name := "genres", kind := .hasMany, through := some "books" },
     { name := "prizes", kind := .hasMany, through := some "books", className := some "Prize" }]

def prizes : Provider :=
  (Registry.ofList
    [prizedSchema,
     { typeName := "Book", associations := [{ name := "genres", kind := .hasAndBelongsToMany }] },
     { typeName := "Genre", columns := [("name", .string)] },
     { typeName := "Prize", columns := [("name", .string)] }]).provider fun _ _ => none

/-- An engine over a store that cannot be reached. -/
def unreachable : Engine prizes (EntityCache × Unit) :=
  .ofExecutor prizes fun _ _ s => (.error (.backend "unreachable"), s)

/-- What is kept after authors have been looked up. -/
def prizedCache : EntityCache :=
  (EntityCache.lookup prizes "author" {}).2

/-- The entity of the authors. -/
def prizedAuthors : Entity :=
  .ofSchema prizes author.name prizedSchema

/-- Where the store cannot be reached, an author is not found by a genre because of the store, and
not by a prize because no book tells what prizes it has. -/
theorem catalogs_followed_in_library :
    let search (field : String) := (Request.search field (.string "crime") {}).compile
      (.all ⟨.sqlite, 100, 3⟩ prizedAuthors)
    genres ∈ prizedAuthors.catalog.associations ∧
      (∃ books ∈ prizedAuthors.catalog.associations, books.name = "books" ∧ books.isThrough = false) ∧
      genres.foreignKey = "author_id" ∧
      ((search "genres").run unreachable.toBackend (prizedCache, ())).1 =
        .error (.storage (.backend "unreachable")) ∧
      (∀ e s', (correlate ⟨.sqlite, 100, 3⟩ .filter prizedAuthors.asTarget genre genre.relation
          genres).run unreachable.toBackend (prizedCache, ()) = (.error e, s') →
        ∃ failure, e = .storage failure) ∧
      ((search "prizes").run unreachable.toBackend (prizedCache, ())).1 =
        .error (.unsupportedAssociation "prizes" .noUsableSource) ∧
      ∃ owner schema, ∃ association ∈ (Catalog.ofSchema prizes owner schema).associations,
        association.name = "prizes" ∧ Lacks association .noUsableSource := by
  intro search
  -- the catalog and the failure are closed; the statement itself is applied at them
  have hmem : genres ∈ (Catalog.ofSchema prizes author.name prizedSchema).associations := by
    decide +kernel
  have hfailed : ((search "prizes").run unreachable.toBackend (prizedCache, ())).1 =
      .error (.unsupportedAssociation "prizes" .noUsableSource) := by
    decide +kernel
  have hholds : EntityCache.Holds prizes ["author"] prizedCache :=
    ((EntityCache.holds_empty prizes).lookup "author").2
  have hheld : prizedCache.entries.lookup "Author" = some prizedAuthors := by
    have hname : EntityName.parse? "author" = some author.name := by decide +kernel
    have hschema : prizes.schema? author.name.typeName = some prizedSchema := by decide +kernel
    unfold prizedCache
    rw [EntityCache.lookup_of_new hname rfl hschema]
    rfl
  obtain ⟨hcatalogs, hrequests⟩ := catalogs_followed prizes
  obtain ⟨hbooks, hstep, hkey, hsource⟩ :=
    (hcatalogs author.name prizedSchema genres hmem).2.2 _ _ _ _ _ _ rfl
  obtain ⟨-, -, hfollowed⟩ := hsource _ rfl
  refine ⟨hmem, ⟨_, hbooks, rfl, hstep⟩, hkey, by decide +kernel, fun e s' hrun => ?_, hfailed, ?_⟩
  · exact hfollowed _ unreachable.toBackend _ .filter _ genre _ (prizedCache, ()) e s' hrun
  · exact (hrequests _ unreachable (prizedCache, ()) ["author"] hholds
      (.all ⟨.sqlite, 100, 3⟩ prizedAuthors) "Author" hheld
      (.search "prizes" (.string "crime") {}) "prizes" .noUsableSource _
      (Prod.ext hfailed rfl)).2

end Compile.Library

end FieldQuery

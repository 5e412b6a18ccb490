import FieldQuery.Proofs.Compile.Engine
import FieldQuery.Proofs.Compile.Failures
import FieldQuery.Proofs.Compile.Forms
import FieldQuery.Proofs.Compile.Linking
import FieldQuery.Proofs.Compile.Wording
import FieldQuery.Proofs.Entity.Conversions

/-!
# Types that are not searched

A search calls the type of a field unsupported only where there is no condition for this type: for
bytes and for documents. Every term that a value of another type is converted to has a condition, or
the value is refused; and over keys of other entities a search fails for other reasons.
-/

namespace FieldQuery.Compile

open FieldQuery.Catalog FieldQuery.Compilation FieldQuery.Schema FieldQuery.Sql FieldQuery.Value

/-! ## Conditions on columns -/

/-- A type whose values are kept but not searched. -/
def IsKeptOnly (type : FieldType) : Prop :=
  type = .binary ∨ type = .json

instance (type : FieldType) : Decidable (IsKeptOnly type) :=
  inferInstanceAs (Decidable (_ ∨ _))

variable {dialect : Dialect} {entity : Entity} {field column text : String} {fuzzy : Bool}
  {type : FieldType} {term : Term}

private theorem plainCondition_of_isKeptOnly (htype : IsKeptOnly type) (term : Term) :
    plainCondition dialect entity field column fuzzy text type term =
      .error (.unsupportedType type.name) := by
  rcases htype with rfl | rfl <;> rfl

private theorem parseValue_of_isKeptOnly (entity : Entity) (htype : IsKeptOnly type) {value : Json}
    (hvalue : value.isNullMarker = false) :
    entity.parseValue type value = .ok (.text value.typedText) := by
  rcases htype with rfl | rfl <;> simp [Entity.parseValue, Value.parseValue, hvalue]

/-- A condition of the type, or a value that is refused. -/
def IsHandled (type : FieldType) (text : String) (result : Except QueryError Fragment) : Prop :=
  (∃ condition, result = .ok condition) ∨ ∃ fault, result = .error (.parse type text fault)

private theorem isHandled_ok (condition : Fragment) : IsHandled type text (.ok condition) :=
  Or.inl ⟨condition, rfl⟩

/-- Whatever a value is converted to, its type has a condition for it. -/
theorem plainCondition_isHandled (hterm : Conversion type (.ok term)) (hkept : ¬ IsKeptOnly type)
    (hplain : type.isAssociation = false ∧ type ≠ .addresses) :
    IsHandled type text (plainCondition dialect entity field column fuzzy text type term) := by
  -- By the shape of the term: the types that have it each have a branch.
  cases hterm with
  | text h value =>
    simp only [List.mem_cons, List.not_mem_nil, or_false] at h
    rcases h with rfl | rfl | rfl | hbytes | hdocument
    · exact isHandled_ok _
    · exact isHandled_ok _
    · exact isHandled_ok _
    · exact absurd (Or.inl hbytes) hkept
    · exact absurd (Or.inr hdocument) hkept
  | integer h n =>
    simp only [List.mem_cons, List.not_mem_nil, or_false] at h
    rcases h with rfl | rfl | rfl | rfl <;> exact isHandled_ok _
  | decimal h d =>
    simp only [List.mem_cons, List.not_mem_nil, or_false] at h
    rcases h with rfl | rfl | rfl | rfl
    · exact isHandled_ok _
    · exact isHandled_ok _
    · exact isHandled_ok _
    · -- A percentage in a column of integers may have too many points.
      unfold plainCondition
      simp only
      split
      · split
        · exact isHandled_ok _
        · exact Or.inr ⟨_, rfl⟩
      · exact isHandled_ok _
  | duration seconds => exact isHandled_ok _
  | boolean b => exact isHandled_ok _
  | moment h start precision =>
    simp only [List.mem_cons, List.not_mem_nil, or_false] at h
    rcases h with rfl | rfl
    all_goals
      unfold plainCondition
      simp only
      split
      · exact isHandled_ok _
      · exact Or.inr ⟨_, rfl⟩
  | time time => exact isHandled_ok _
  | raw h value =>
    obtain ⟨hassociation, haddresses⟩ := hplain
    cases type with
    | polymorphicReference | obfuscatedId => exact isHandled_ok _
    | directReference | reversedSingle | reversedMany | manyToMany => cases hassociation
    | addresses => exact absurd rfl haddresses
    | _ => simp at h

/-- A null marker that asks for no NULL is a type of its own, or no role. -/
theorem plainCondition_null_isHandled (haccepts : type.acceptsNull = false)
    (hplain : type.isAssociation = false ∧ type ≠ .addresses) :
    IsHandled type text (plainCondition dialect entity field column fuzzy text type .null) := by
  obtain ⟨hassociation, haddresses⟩ := hplain
  cases type with
  | polymorphicReference => exact isHandled_ok _
  | roles => exact Or.inr ⟨_, rfl⟩
  | reversedSingle | reversedMany | manyToMany => cases hassociation
  | addresses => exact absurd rfl haddresses
  | _ => cases haccepts

/-! ## Searches in plain fields -/

section Plain

variable {σ : Type} {backend : Backend σ} {s : σ} {compiler : Compiler} {bound : Relation}
  {value : Json} {options : SearchOptions}

/-- A search that does not go over keys ends as the conversion of its value and its condition do. -/
theorem run_search_of_plain
    (hcolumn : isAggregate (compiler.entity.columnFor field options.sqlColumn) = false)
    (htype : (compiler.entity.resolveWith field options.type).type = type)
    (hplain : type.isAssociation = false ∧ type ≠ .addresses)
    (hnull : ¬ (value.isNullMarker = true ∧ type.acceptsNull = true)) :
    (((compiler.bind bound).search field value options).run backend s).1 =
      (compiler.entity.parseValue type value).bind fun term =>
        (plainCondition compiler.settings.dialect compiler.entity field
          (compiler.entity.columnFor field options.sqlColumn) options.fuzzy value.typedText type
          term).map bound.filter := by
  change (((searchClause compiler.settings compiler.entity field value options).bind
    fun clause => .done (clause.addTo bound)).run backend s).1 = _
  unfold searchClause
  simp only [hcolumn, htype, Bool.false_eq_true, if_false]
  cases hterm : compiler.entity.parseValue type value with
  | error e => rfl
  | ok term =>
    -- a null value of a type that accepts it is compared with NULL, and is not meant here
    have hasked : ¬ (term = .null ∧ type.acceptsNull = true) := by
      rintro ⟨rfl, haccepts⟩
      exact hnull ⟨(Entity.parseValue_eq_ok_null_iff type).mp hterm, haccepts⟩
    simp only [ofExcept_ok_bind, if_neg hasked, hplain.1, Bool.false_eq_true, if_false,
      if_neg hplain.2, Except.bind]
    -- what the condition is does not matter: it is added if there is one
    generalize plainCondition compiler.settings.dialect compiler.entity field
      (compiler.entity.columnFor field options.sqlColumn) options.fuzzy value.typedText type
      term = condition
    cases condition with
    | error e => rfl
    | ok condition => rfl

/-- A search for a value of a type that is kept but not searched is refused for the type. -/
theorem run_search_of_isKeptOnly
    (hcolumn : isAggregate (compiler.entity.columnFor field options.sqlColumn) = false)
    (htype : (compiler.entity.resolveWith field options.type).type = type)
    (hkept : IsKeptOnly type) (hvalue : value.isNullMarker = false) :
    (((compiler.bind bound).search field value options).run backend s).1 =
      .error (.unsupportedType type.name) := by
  have hplain : type.isAssociation = false ∧ type ≠ .addresses := by
    rcases hkept with rfl | rfl <;> decide
  have hnull : ¬ (value.isNullMarker = true ∧ type.acceptsNull = true) := by simp [hvalue]
  rw [run_search_of_plain hcolumn htype hplain hnull,
    parseValue_of_isKeptOnly _ hkept hvalue, Except.bind, plainCondition_of_isKeptOnly hkept]
  rfl

/-- A search of any other type that does not go over keys has a condition of the type, or its value
is refused. -/
theorem run_search_isHandled (backend : Backend σ) (s : σ) (bound : Relation)
    (hcolumn : isAggregate (compiler.entity.columnFor field options.sqlColumn) = false)
    (htype : (compiler.entity.resolveWith field options.type).type = type)
    (hplain : type.isAssociation = false ∧ type ≠ .addresses) (hkept : ¬ IsKeptOnly type)
    (hnull : ¬ (value.isNullMarker = true ∧ type.acceptsNull = true)) :
    (∃ condition : Fragment,
        (((compiler.bind bound).search field value options).run backend s).1 =
          .ok (bound.filter condition) ∧
        condition.form ∈ plainForms compiler.settings.dialect compiler.entity
          (compiler.entity.columnFor field options.sqlColumn) options.fuzzy type) ∨
      ∃ text fault, (((compiler.bind bound).search field value options).run backend s).1 =
        .error (.parse type text fault) := by
  rw [run_search_of_plain hcolumn htype hplain hnull]
  -- The value is a null marker, or is refused, or has a term with a condition.
  have hhandled : ∀ term, compiler.entity.parseValue type value = .ok term →
      IsHandled type value.typedText (plainCondition compiler.settings.dialect compiler.entity field
        (compiler.entity.columnFor field options.sqlColumn) options.fuzzy value.typedText type
        term) := by
    intro term hterm
    cases hmarker : value.isNullMarker with
    | true =>
      obtain rfl : Term.null = term :=
        Except.ok.inj ((Entity.parseValue_of_isNullMarker type hmarker).symm.trans hterm)
      exact plainCondition_null_isHandled (by simpa [hmarker] using hnull) hplain
    | false =>
      have hconversion := compiler.entity.conversion_parseValue type hmarker
      rw [hterm] at hconversion
      exact plainCondition_isHandled hconversion hkept hplain
  cases hterm : compiler.entity.parseValue type value with
  | error e =>
    right
    obtain ⟨text, fault, rfl⟩ := Entity.exists_of_parseValue_eq_error hterm
    exact ⟨text, fault, rfl⟩
  | ok term =>
    rcases hhandled term hterm with ⟨condition, hcondition⟩ | ⟨fault, hfault⟩
    · left
      refine ⟨condition, ?_, form_of_plainCondition hcondition⟩
      rw [Except.bind, hcondition]
      rfl
    · right
      refine ⟨value.typedText, fault, ?_⟩
      rw [Except.bind, hfault]
      rfl

end Plain

/-! ## Searches over keys -/

/-- What a search over the keys of other entities fails by: associations, entities and the store. -/
inductive IsLinkError : QueryError → Prop
  | unknownAssociation (owner name : String) : IsLinkError (.unknownAssociation owner name)
  | unsupportedAssociation (name : String) (fault : AssociationFault) :
      IsLinkError (.unsupportedAssociation name fault)
  | recursionLimit (depth : Nat) : IsLinkError (.recursionLimit depth)
  | invalidIdentifier (identifier : String) : IsLinkError (.invalidIdentifier identifier)
  | unknownEntity (typeName : String) : IsLinkError (.unknownEntity typeName)
  | storage (failure : StorageError) : IsLinkError (.storage failure)

/-- Searches over keys. -/
def linking : Bounds where
  kind := IsLinkError

section Keys

variable {settings : Settings} {compiler : Compiler} {bound : Relation} {value : Json}
  {options : SearchOptions}

private theorem isLinkError_of_requireTarget {association : Association} {e : QueryError}
    (h : association.requireTarget = .error e) : IsLinkError e := by
  unfold Association.requireTarget at h
  split at h
  · cases h
  · cases h
    exact .unsupportedAssociation _ _

private theorem translated_failsBy (entity : Entity) (field : String) (value : Json)
    (options : SearchOptions) :
    (translated settings entity field value options).FailsBy linking := by
  unfold translated
  simp only
  split
  · -- a field that is no association is refused before anything is asked
    refine FailsBy.ofExcept_bind (fun e he => ?_) fun association _ => ?_
    · unfold Entity.require at he
      split at he
      · cases he
      · cases he
        exact .unknownAssociation _ _
    · apply associationCondition_failsBy (fun _ => trivial) IsLinkError.recursionLimit
      · exact fun e => isLinkError_of_requireTarget
      · exact fun target rows =>
          correlate_failsBy_unsupported IsLinkError.unsupportedAssociation _ target rows association
  · exact addressCondition_failsBy (fun _ => trivial) IsLinkError.recursionLimit
      (IsLinkError.unknownAssociation _ _) value options.fuzzy

private theorem search_failsBy (h : Translates compiler.entity field value options) :
    ((compiler.bind bound).search field value options).FailsBy linking := by
  have hbound : (compiler.bind bound).bound.FailsBy linking := .pure _
  refine hbound.bind fun relation => ?_
  change ((searchClause compiler.settings compiler.entity field value options) >>=
    fun clause => pure (clause.addTo relation)).FailsBy linking
  rw [searchClause_of_translates h]
  refine FailsBy.bind ((FailsBy.note _).bind fun _ => ?_) fun _ => .pure _
  exact (translated_failsBy _ _ _ _).bind fun _ => .pure _

/-- On an engine, a search over keys fails for an association, for an entity, or for the store. -/
theorem isLinkError_of_run_search {σ : Type} {provider : Provider} {engine : Engine provider σ}
    {s s' : σ} {e : QueryError} (h : Translates compiler.entity field value options)
    (hrun : ((compiler.bind bound).search field value options).run engine.toBackend s =
      (.error e, s')) : IsLinkError e := by
  -- the failure is one of the search, of the storage, or of a lookup of the engine
  rcases (search_failsBy h).sound (fun _ => True) (fun _ _ _ _ _ _ => ⟨trivial, fun _ _ => trivial⟩)
    (fun _ _ _ _ _ _ _ => trivial) (fun _ _ _ => trivial) trivial hrun with
    hkind | ⟨failure, rfl⟩ | ⟨i, -, s₁, s₂, -, hfailed⟩
  · exact hkind
  · exact .storage failure
  · rcases EntityCache.error_of_lookup (engine.lookup_of_entity hfailed) with rfl | ⟨name, rfl⟩
    · exact .invalidIdentifier i
    · exact .unknownEntity name

/-- A search over keys that has a result compares a column of the entity with keys. -/
theorem translated_ensures_keys (entity : Entity) (field : String) (value : Json)
    (options : SearchOptions) :
    (translated settings entity field value options).Ensures {} fun condition =>
      ∃ (keys : KeySet) (name : String), condition = keys.inList (entity.column name) := by
  unfold translated
  simp only
  split
  · refine (Ensures.any _).bind fun association _ => ?_
    refine (associationCondition_column association value options.fuzzy).mono ?_
    rintro condition ⟨keys, rfl⟩
    exact ⟨keys, _, rfl⟩
  · unfold addressCondition
    split
    · -- without a scope the computation fails, and the statement is about its results only
      trivial
    · refine (Ensures.any _).bind fun found _ => ?_
      refine (Ensures.any _).bind fun rows _ => ?_
      refine (Ensures.any _).bind fun keys _ => ?_
      exact Ensures.pure ⟨keys, _, rfl⟩

/-- On an engine, a search over keys compares a column of the entity with keys, or fails for an
association, for an entity, or for the store. -/
theorem run_search_of_translates {σ : Type} {provider : Provider} (engine : Engine provider σ)
    (s : σ) (bound : Relation) (h : Translates compiler.entity field value options) :
    let result := (((compiler.bind bound).search field value options).run engine.toBackend s).1
    (∃ (keys : KeySet) (name : String),
        result = .ok (bound.filter (keys.inList (compiler.entity.column name)))) ∨
      ∃ e, IsLinkError e ∧ result = .error e := by
  intro result
  rcases hrun : ((compiler.bind bound).search field value options).run engine.toBackend s with
    ⟨e | found, s'⟩
  · exact Or.inr ⟨e, isLinkError_of_run_search h hrun, congrArg Prod.fst hrun⟩
  · left
    -- a search that was answered is a clause, that clause a condition, and the condition a test of keys
    obtain ⟨clause, rfl, hclause, -⟩ := exists_of_run_search hrun
    obtain ⟨condition, rfl, hcondition, -⟩ := exists_of_run_searchClause h hclause
    obtain ⟨keys, name, rfl⟩ := ((translated_ensures_keys compiler.entity field value options).sound
      _ (fun _ _ _ _ _ _ => trivial) fun _ _ _ _ => trivial).1 _ _ hcondition
    exact ⟨keys, name, congrArg Prod.fst hrun⟩

end Keys

/-! ## All searches -/

/-- A search in a field that is no aggregate calls a type unsupported exactly for a value of a type
that is kept but not searched, and then it is the type of the field. A null marker is searched as
NULL, without a pluck, if the type has it so. Every other value has a condition in one of the forms
of its type, or is refused as a value of this type, and nothing is plucked. A search over the keys
of another entity compares a column of the entity with keys, or fails on the way to them. -/
theorem search_refuses_types {σ : Type} {provider : Provider} (engine : Engine provider σ) (s : σ)
    (compiler : Compiler) (bound : Relation) (field : String) (value : Json)
    (options : SearchOptions)
    (hcolumn : isAggregate (compiler.entity.columnFor field options.sqlColumn) = false) :
    let search := (compiler.bind bound).search field value options
    let result := (search.run engine.toBackend s).1
    let type := (compiler.entity.resolveWith field options.type).type
    let column := compiler.entity.columnFor field options.sqlColumn
    (∀ name, result = .error (.unsupportedType name) ↔
      name = type.name ∧ (type = .binary ∨ type = .json) ∧ value.isNullMarker = false) ∧
    if value.isNullMarker = true ∧ type.acceptsNull = true then
      result = .ok (bound.filter (.ofSql (column ++ " IS NULL"))) ∧
        search.plucks engine.toBackend s = []
    else if type.isAssociation = true ∨ type = .addresses then
      (∃ (keys : KeySet) (name : String),
          result = .ok (bound.filter (keys.inList (compiler.entity.column name)))) ∨
        ∃ e, IsLinkError e ∧ result = .error e
    else
      search.plucks engine.toBackend s = [] ∧
        (type ≠ .binary → type ≠ .json →
          (∃ condition : Fragment, result = .ok (bound.filter condition) ∧
              condition.form ∈ plainForms compiler.settings.dialect compiler.entity column
                options.fuzzy type) ∨
            ∃ text fault, result = .error (.parse type text fault)) := by
  intro search result type column
  by_cases hnull : value.isNullMarker = true ∧ type.acceptsNull = true
  · -- NULL in the column: there is a clause before the type is looked at.
    have hresult : result = .ok (bound.filter (.ofSql (column ++ " IS NULL"))) :=
      congrArg Prod.fst (run_search_of_searchClause engine.toBackend s bound
        (searchClause_of_null hcolumn hnull.1 hnull.2))
    rw [if_pos hnull]
    refine ⟨fun name => ?_, hresult, ?_⟩
    · simp [hresult, hnull.1]
    · by_contra hplucks
      exact (translates_of_plucks_ne_nil hplucks).2.2 hnull
  rw [if_neg hnull]
  by_cases hkeys : type.isAssociation = true ∨ type = .addresses
  · -- Keys of another entity: no error on the way is one of a type.
    have hresult := run_search_of_translates engine s bound ⟨hcolumn, hkeys, hnull⟩
    rw [if_pos hkeys]
    refine ⟨fun name => iff_of_false (fun hrefused => ?_) ?_, hresult⟩
    · rcases hresult with ⟨keys, name, hok⟩ | ⟨e, he, herror⟩
      · cases hok.symm.trans hrefused
      · obtain rfl := Except.error.inj (herror.symm.trans hrefused)
        cases he
    · rintro ⟨-, hkept | hkept, -⟩
      all_goals
        rw [hkept] at hkeys
        simp [FieldType.isAssociation] at hkeys
  rw [if_neg hkeys]
  -- A column of the entity: nothing is plucked, and the type decides.
  obtain ⟨hassociation, haddresses⟩ := not_or.mp hkeys
  have hplain : type.isAssociation = false ∧ type ≠ .addresses :=
    ⟨Bool.eq_false_of_not_eq_true hassociation, haddresses⟩
  have hplucks : search.plucks engine.toBackend s = [] := by
    by_contra hplucks
    exact hkeys (translates_of_plucks_ne_nil hplucks).2.1
  by_cases hkept : IsKeptOnly type
  · have hvalue : value.isNullMarker = false := by
      rcases hkept with hkept | hkept <;> simpa [hkept, FieldType.acceptsNull] using hnull
    have hresult : result = .error (.unsupportedType type.name) :=
      run_search_of_isKeptOnly hcolumn rfl hkept hvalue
    refine ⟨fun name => ?_, hplucks,
      fun hbinary hjson => absurd hkept (not_or.mpr ⟨hbinary, hjson⟩)⟩
    rw [hresult, Except.error.injEq, QueryError.unsupportedType.injEq]
    exact ⟨fun hname => ⟨hname.symm, hkept, hvalue⟩, fun h => h.1.symm⟩
  · have hresult := run_search_isHandled engine.toBackend s bound hcolumn rfl hplain hkept hnull
    refine ⟨fun name => iff_of_false (fun hrefused => ?_) fun h => hkept h.2.1, hplucks,
      fun _ _ => hresult⟩
    rcases hresult with ⟨condition, hok, -⟩ | ⟨text, fault, herror⟩
    · cases hok.symm.trans hrefused
    · cases herror.symm.trans hrefused

namespace Library

/-- The names of authors as if they were documents: no text is searched for in them, but NULL is. -/
theorem search_refuses_documents :
    let compiler := Compiler.all ⟨.sqlite, 100, 3⟩ prizedAuthors
    let result (value : Json) :=
      (((compiler.bind prizedAuthors.relation).search "name" value { type := some .json }).run
        unreachable.toBackend (prizedCache, ())).1
    isAggregate (prizedAuthors.columnFor "name" none) = false ∧
      result (.string "crime") = .error (.unsupportedType "json") ∧
      result (.string "null") =
        .ok (prizedAuthors.relation.filter ⟨"authors.name IS NULL", []⟩) := by
  intro compiler result
  have hcolumn : isAggregate (prizedAuthors.columnFor "name" none) = false := by decide +kernel
  have hname : prizedAuthors.columnFor "name" none ++ " IS NULL" = "authors.name IS NULL" := by
    decide +kernel
  -- one type at both values: only the null marker changes what is done with it
  have hrefuses (value : Json) := search_refuses_types unreachable (prizedCache, ()) compiler
    prizedAuthors.relation "name" value { type := some .json } hcolumn
  refine ⟨hcolumn, ?_, ?_⟩
  · refine ((hrefuses (.string "crime")).1 "json").mpr ⟨rfl, Or.inr rfl, ?_⟩
    decide +kernel
  · have hmarker : (Json.string "null").isNullMarker = true := by decide +kernel
    have hnull := (hrefuses (.string "null")).2
    rw [if_pos ⟨hmarker, rfl⟩] at hnull
    exact hname ▸ hnull.1

end Library

end FieldQuery.Compile

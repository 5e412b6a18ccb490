import FieldQuery.Entity.Field

/-!
# Columns of references

A field is an association before it is a column, but the column that it stands for is looked for the
other way round: an expression, the primary key and a declared column come before the key of a
reference. Main statements: when the column of a direct reference is that of its key, and when the
column of a polymorphic one, with the two endings after it, makes up the pair of columns that the
association has.
-/

namespace FieldQuery

open FieldQuery.Catalog FieldQuery.Sql

namespace Sql

variable {table a b : String}

/-- Columns of one table have the same full name only if they have the same name. -/
@[simp]
theorem qualified_inj : qualified table a = qualified table b ↔ a = b := by
  simp [qualified, String.ext_iff]

/-- An ending after a column belongs to its name. -/
theorem qualified_append : qualified table a ++ b = qualified table (a ++ b) := by
  simp [qualified, String.append_assoc]

/-- A column is longer than its own name. -/
theorem ne_qualified : a ≠ qualified table a := by
  intro h
  have hlength := congrArg String.length h
  simp [qualified, String.length_append] at hlength

end Sql

namespace Entity

variable {entity : Entity} {field key : String} {association : Association}

/-! ## What is found under a name -/

/-- A field with an association is the one that is found under its name; addresses of a category have
that of all addresses with them. -/
theorem resolveAssociation?_of_resolve {type : FieldType} (htype : type ≠ .addresses)
    (h : entity.resolve field = ⟨type, some association⟩) :
    entity.resolveAssociation? field = some (type, association) := by
  unfold resolve at h
  -- an association is resolved first, and what is left has no association or is an address
  split at h
  · next hfound =>
    obtain ⟨rfl, hassociation⟩ := ResolvedField.mk.inj h
    rw [hfound, Option.some.inj hassociation]
  · split at h
    · exact absurd (ResolvedField.mk.inj h).1.symm htype
    · cases (ResolvedField.mk.inj h).2

/-- The kinds of links are looked for one after another, the direct ones before the polymorphic ones.
No other kind of link and no association of two steps has the type of a reference. -/
theorem reference_of_resolveAssociation? {type : FieldType}
    (h : entity.resolveAssociation? field = some (type, association))
    (htype : type = .directReference ∨ type = .polymorphicReference) :
    type = .directReference ∧ entity.catalog.direct? field = some association ∨
      type = .polymorphicReference ∧ entity.catalog.direct? field = none ∧
        entity.catalog.polymorphic? field = some association := by
  simp only [resolveAssociation?, Option.orElse_eq_orElse, Option.orElse_eq_or,
    Option.or_eq_some_iff, Option.map_eq_some_iff, Option.map_eq_none_iff, Prod.mk.injEq] at h
  rcases h with ⟨_, hdirect, rfl, rfl⟩ | ⟨hdirect, ⟨_, hpolymorphic, rfl, rfl⟩ | ⟨-, h⟩⟩
  · exact Or.inl ⟨rfl, hdirect⟩
  · exact Or.inr ⟨rfl, hdirect, hpolymorphic⟩
  -- The other kinds have types of their own; over two steps the type depends on what is found.
  exfalso
  rcases h with ⟨_, -, rfl, -⟩ | ⟨-, ⟨_, -, rfl, -⟩ | ⟨-, ⟨_, -, rfl, -⟩ | ⟨-, through, -, hthrough⟩⟩⟩
  case inr.inr.inr => split at hthrough <;> cases hthrough <;> rcases htype with h | h <;> cases h
  all_goals rcases htype with h | h <;> cases h

/-- A field of the type of direct references is one in the catalog. -/
theorem direct?_of_resolve (h : entity.resolve field = ⟨.directReference, some association⟩) :
    entity.catalog.direct? field = some association := by
  have hfound := resolveAssociation?_of_resolve (by decide) h
  rcases reference_of_resolveAssociation? hfound (Or.inl rfl) with ⟨-, hdirect⟩ | ⟨htype, -⟩
  · exact hdirect
  · cases htype

/-- A field of the type of polymorphic references is one in the catalog, and no direct one has its name.
-/
theorem polymorphic?_of_resolve
    (h : entity.resolve field = ⟨.polymorphicReference, some association⟩) :
    entity.catalog.direct? field = none ∧
      entity.catalog.polymorphic? field = some association := by
  have hfound := resolveAssociation?_of_resolve (by decide) h
  rcases reference_of_resolveAssociation? hfound (Or.inr rfl) with ⟨htype, -⟩ | ⟨-, hlinks⟩
  · -- a direct reference of the name would have won
    cases htype
  · exact hlinks

/-! ## What a name stands for -/

/-- Whether a field stands for itself: there is a table or a call in it. -/
def IsExpression (field : String) : Prop :=
  '.' ∈ field.toList ∨ '(' ∈ field.toList

instance (field : String) : Decidable (IsExpression field) :=
  inferInstanceAs (Decidable (_ ∨ _))

private theorem isExpression_iff :
    (field.toList.any fun c => c == '.' || c == '(') = true ↔ IsExpression field := by
  simp [IsExpression, List.any_eq_true, and_or_left, exists_or]

private theorem sqlColumn_of_isExpression (h : IsExpression field) :
    entity.sqlColumn field = field := by
  rw [sqlColumn, if_pos (isExpression_iff.mpr h)]

section Plain

variable (hfield : ¬ IsExpression field)
include hfield

private theorem sqlColumn_of_isKey (hkey : entity.isKey field = true) :
    entity.sqlColumn field = entity.keyColumn := by
  rw [sqlColumn, if_neg (mt isExpression_iff.mp hfield), if_pos hkey]

private theorem sqlColumn_of_declared (hkey : entity.isKey field ≠ true)
    (hdeclared : (entity.schema.columnType? field).isSome = true) :
    entity.sqlColumn field = entity.column field := by
  rw [sqlColumn, if_neg (mt isExpression_iff.mp hfield), if_neg hkey, if_pos hdeclared]

private theorem sqlColumn_of_direct? (hkey : entity.isKey field ≠ true)
    (hdeclared : (entity.schema.columnType? field).isSome ≠ true)
    (hdirect : entity.catalog.direct? field = some association) :
    entity.sqlColumn field = entity.column association.foreignKey := by
  rw [sqlColumn, if_neg (mt isExpression_iff.mp hfield), if_neg hkey, if_neg hdeclared, hdirect]

private theorem sqlColumn_of_direct?_eq_none (hkey : entity.isKey field ≠ true)
    (hdirect : entity.catalog.direct? field = none) :
    entity.sqlColumn field = entity.column field := by
  rw [sqlColumn, if_neg (mt isExpression_iff.mp hfield), if_neg hkey, hdirect]
  exact ite_self _

end Plain

/-! ## Direct references -/

/-- Whether the column of a field is that of a key. A field with the name of a direct link reads the
key of the link unless the name also stands for something else. -/
def ReadsKey (entity : Entity) (field key : String) : Prop :=
  if IsExpression field then field = entity.column key
  else if entity.isKey field then entity.primaryKey = key
  else (entity.schema.columnType? field).isSome = true → field = key

instance (entity : Entity) (field key : String) : Decidable (entity.ReadsKey field key) :=
  inferInstanceAs (Decidable (if IsExpression field then field = entity.column key
    else if entity.isKey field then entity.primaryKey = key
    else (entity.schema.columnType? field).isSome = true → field = key))

/-- The column of a direct reference is that of its key exactly if the field reads the key. -/
theorem sqlColumn_eq_column_iff (hdirect : entity.catalog.direct? field = some association) :
    entity.sqlColumn field = entity.column association.foreignKey ↔
      entity.ReadsKey field association.foreignKey := by
  unfold ReadsKey
  -- the tests of a field in the order they are made: expression, key, declared column, association
  by_cases hfield : IsExpression field
  · rw [if_pos hfield, sqlColumn_of_isExpression hfield]
  rw [if_neg hfield]
  by_cases hkey : entity.isKey field = true
  · rw [if_pos hkey, sqlColumn_of_isKey hfield hkey]
    exact qualified_inj
  rw [if_neg hkey]
  by_cases hdeclared : (entity.schema.columnType? field).isSome = true
  · rw [sqlColumn_of_declared hfield hkey hdeclared]
    exact qualified_inj.trans ⟨fun h _ => h, fun h => h hdeclared⟩
  · rw [sqlColumn_of_direct? hfield hkey hdeclared hdirect]
    exact iff_of_true rfl fun h => absurd h hdeclared

/-! ## Polymorphic references -/

/-- Whether the column of a field makes up the columns of a polymorphic link of that name, with an
ending for the key and one for the type. -/
theorem sqlColumn_pair_iff (hdirect : entity.catalog.direct? field = none) :
    (entity.sqlColumn field ++ "_id" = entity.column key ∧
      entity.sqlColumn field ++ "_type" = entity.column (field ++ "_type")) ↔
      ¬ IsExpression field ∧ (entity.isKey field = true → entity.primaryKey = field) ∧
        key = field ++ "_id" := by
  by_cases hfield : IsExpression field
  · -- An expression is taken without the name of the table, which the column of the type has.
    rw [sqlColumn_of_isExpression hfield]
    exact iff_of_false (fun h => ne_qualified h.2) fun h => h.1 hfield
  by_cases hkey : entity.isKey field = true
  · rw [sqlColumn_of_isKey hfield hkey]
    simp only [keyColumn, column, qualified_append, qualified_inj, hfield, hkey,
      not_false_eq_true, true_and, true_implies]
    constructor
    · rintro ⟨rfl, htype⟩
      have hname : entity.primaryKey = field := by simpa [String.ext_iff] using htype
      exact ⟨hname, by rw [hname]⟩
    · rintro ⟨hname, rfl⟩
      rw [hname]
      exact ⟨rfl, rfl⟩
  · rw [sqlColumn_of_direct?_eq_none hfield hkey hdirect]
    simp only [column, qualified_append, qualified_inj, hfield, hkey, not_false_eq_true, true_and,
      and_true, Bool.false_eq_true, false_implies]
    exact eq_comm

end Entity

end FieldQuery

import FieldQuery.Catalog.Description

/-!
# Catalogs

The associations of an entity, found by name. A name may be that of an association of one kind and
of a field at the same time, so every kind has its own search.
-/

namespace FieldQuery

open FieldQuery.Catalog FieldQuery.Naming FieldQuery.Schema FieldQuery.Sql FieldQuery.Text

/-- The associations of an entity. -/
structure Catalog where
  owner : EntityName
  associations : List Association
deriving Repr, Inhabited

namespace Catalog

/-- The catalog of an entity. -/
def ofSchema (provider : Provider) (owner : EntityName) (schema : EntitySchema) : Catalog :=
  ⟨owner, describeAll provider owner schema⟩

/-- The first association of a name that has a property. -/
def named? (catalog : Catalog) (property : Association → Bool) (name : String) :
    Option Association :=
  catalog.associations.find? fun a => a.name == name && property a

/-- The direct link of a name, or of a name with `_id` after it. -/
def direct? (catalog : Catalog) (name : String) : Option Association :=
  catalog.named? Association.isDirect ((strip? "_id" name).getD name)

/-- The polymorphic link of a name. -/
def polymorphic? (catalog : Catalog) : String → Option Association :=
  catalog.named? Association.isPolymorphic

/-- The link of a name to many rows that point here. -/
def reversedMany? (catalog : Catalog) : String → Option Association :=
  catalog.named? fun a => a.isReversedMany || a.isOwned

/-- The link of a name to one row that points here. -/
def reversedSingle? (catalog : Catalog) : String → Option Association :=
  catalog.named? Association.isReversedSingle

/-- The link of a name over a join table. -/
def manyToMany? (catalog : Catalog) : String → Option Association :=
  catalog.named? Association.isManyToMany

/-- The association of a name that goes through another one. -/
def through? (catalog : Catalog) : String → Option Association :=
  catalog.named? Association.isThrough

/-- The association of a name, or else of a name with `_id` after it. -/
def associated? (catalog : Catalog) (name : String) : Option Association :=
  catalog.named? (fun _ => true) name <|>
    (strip? "_id" name).bind (catalog.named? fun _ => true)

/-! ## Addresses by category -/

/-- The association that holds the addresses of an entity. -/
def addresses : String := "addresses"

/-- The type name of an address, without its namespaces. -/
def addressType : String := "Address"

/-- The addresses of one category. -/
structure AddressScope where
  /-- The association that holds all addresses. -/
  link : Link
  target : Target
  category : String
deriving DecidableEq, Repr

/-- The category in a name such as `billing_address` or `billing_addresses`. -/
def addressCategory? (name : String) : Option String :=
  (strip? "_addresses" name <|> strip? "_address" name).filter fun c => !c.isEmpty

/-- The addresses that a name selects by its category, if the entity has addresses. -/
def addressScope? (catalog : Catalog) (name : String) : Option AddressScope := do
  let category ← addressCategory? name
  match ← catalog.reversedMany? addresses with
  | .step link =>
    let target ← link.target?
    -- an association of the name leads to addresses only by its type
    if target.name.baseTypeName = addressType then some ⟨link, target, category⟩ else none
  | .through _ _ _ _ _ _ => none

/-- The rows of a scope, of an owner of the given type. -/
def AddressScope.relation (scope : AddressScope) (ownerType : String) : Relation :=
  let inCategory := scope.target.relation.filter
    (.equals (scope.target.column "category") (.text scope.category))
  match scope.link.typeCondition? scope.target ownerType with
  | some condition => inCategory.filter condition
  | none => inCategory

end Catalog

end FieldQuery

import FieldQuery.Entity.Basic

/-!
# Remembered entities

Describing the associations of an entity takes many look-ups in the provider, so an entity is kept
under its canonical type name once it has been loaded. Schemas are taken to be immutable, and
nothing is ever dropped.
-/

namespace FieldQuery

open FieldQuery.Naming FieldQuery.Schema

/-- The entities loaded so far, under their canonical type names. -/
structure EntityCache where
  entries : List (String × Entity) := []

namespace EntityCache

/-- The number of entities. -/
def size (cache : EntityCache) : Nat :=
  cache.entries.length

/-- Whether no entity has been loaded. -/
def isEmpty (cache : EntityCache) : Bool :=
  cache.entries.isEmpty

/-- The entity that an identifier names, looked up first and kept if it had to be loaded. -/
def lookup (provider : Provider) (identifier : String) (cache : EntityCache) :
    Except QueryError Entity × EntityCache :=
  match EntityName.parse identifier with
  | .error e => (.error e, cache)
  | .ok name =>
    -- entities are kept under the type name alone, so the first spelling of a type names it for good
    match cache.entries.lookup name.typeName with
    | some entity => (.ok entity, cache)
    | none =>
      match provider.schema? name.typeName with
      | none => (.error (.unknownEntity name.typeName), cache)
      | some schema =>
        let entity := Entity.ofSchema provider name schema
        (.ok entity, ⟨(name.typeName, entity) :: cache.entries⟩)

end EntityCache

end FieldQuery

import FieldQuery.Schema.EntitySchema

/-!
# Registries

A registry keeps schemas under their canonical type names, one for each name. A provider is what the
rest of the library sees of it: a schema for a name, and a way to turn opaque tokens back into keys.
-/

namespace FieldQuery.Schema

open FieldQuery.Naming

/-- A source of schemas. -/
structure Provider where
  /-- The schema of a canonical type name. -/
  schema? : String → Option EntitySchema
  /-- The key that a token stands for in a type. -/
  decodeId? : String → String → Option Int64 := fun _ _ => none

/-- Schemas under their canonical type names. -/
structure Registry where
  entries : List (String × EntitySchema) := []
deriving Repr, Inhabited

namespace Registry

/-- A registry with one more schema; one of the same canonical name is replaced. -/
def add (schema : EntitySchema) (registry : Registry) : Registry :=
  let key := canonicalTypeName schema.typeName
  ⟨(key, schema) :: registry.entries.filter fun e => e.1 != key⟩

/-- The registry of some schemas. -/
def ofList (schemas : List EntitySchema) : Registry :=
  schemas.foldl (fun registry schema => registry.add schema) {}

/-- The number of schemas. -/
def size (registry : Registry) : Nat :=
  registry.entries.length

/-- Whether there is no schema. -/
def isEmpty (registry : Registry) : Bool :=
  registry.entries.isEmpty

/-- The schema of a canonical type name. -/
def schema? (registry : Registry) (typeName : String) : Option EntitySchema :=
  registry.entries.lookup typeName

/-- The schemas of a registry, with a way to read tokens. -/
def provider (registry : Registry) (decodeId? : String → String → Option Int64) : Provider :=
  ⟨registry.schema?, decodeId?⟩

end Registry

end FieldQuery.Schema

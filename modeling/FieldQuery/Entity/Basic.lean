import FieldQuery.Catalog.Basic

/-!
# Entities

An entity is a schema with its conventions filled in: the name in all its forms, the table, and the
catalog of its associations.
-/

namespace FieldQuery

open FieldQuery.Catalog FieldQuery.Naming FieldQuery.Schema FieldQuery.Sql

/-- An entity that requests can be compiled for. -/
structure Entity where
  name : EntityName
  schema : EntitySchema
  table : String
  catalog : Catalog
  /-- The key that an opaque token stands for. -/
  decodeId? : String → Option Int64

namespace Entity

/-- The entity of a name and its schema. -/
def ofSchema (provider : Provider) (name : EntityName) (schema : EntitySchema) : Entity where
  name
  schema
  table := schema.tableFor name
  catalog := .ofSchema provider name schema
  decodeId? := provider.decodeId? name.typeName

/-- The entity that an identifier names. -/
def load (provider : Provider) (identifier : String) : Except QueryError Entity := do
  let name ← EntityName.parse identifier
  match provider.schema? name.typeName with
  | some schema => pure (ofSchema provider name schema)
  | none => throw (.unknownEntity name.typeName)

/-- The canonical name of the type. -/
def typeName (entity : Entity) : String :=
  entity.name.typeName

/-- The column of the primary key. -/
def primaryKey (entity : Entity) : String :=
  entity.schema.primaryKey

/-- A column of the table. -/
def column (entity : Entity) (name : String) : String :=
  qualified entity.table name

/-- The primary key with the name of its table. -/
def keyColumn (entity : Entity) : String :=
  entity.column entity.primaryKey

/-- Whether a field is the primary key. -/
def isKey (entity : Entity) (field : String) : Bool :=
  field == "id" || field == entity.primaryKey

/-- All rows. -/
def relation (entity : Entity) : Relation :=
  .all entity.table entity.typeName

/-- The SQL expression of a field. An expression stands for itself, a direct link for its key, and
any other name for the column of that name. -/
def sqlColumn (entity : Entity) (field : String) : String :=
  -- A name with a table, or a call.
  if field.toList.any fun c => c == '.' || c == '(' then field
  else if entity.isKey field then entity.keyColumn
  -- a declared column wins over an association of its name
  else if (entity.schema.columnType? field).isSome then entity.column field
  else
    match entity.catalog.direct? field with
    | some association => entity.column association.foreignKey
    | none => entity.column field

/-- The columns by which an entity is ordered if it declares none, in order of preference. -/
def sortCandidates : List String :=
  ["name", "title", "label", "subject", "full_name", "first_name", "email", "description"]

/-- The field by which others are ordered when they are ordered by a reference to this entity. -/
def defaultSortField (entity : Entity) : String :=
  match entity.schema.defaultSort with
  | some field => field
  | none =>
    (sortCandidates.find? fun c => (entity.schema.columnType? c).isSome).getD entity.primaryKey

/-- The fields that a search in all of them looks into: the declared ones, or else all columns that
hold text. -/
def searchFields (entity : Entity) : List String :=
  -- declared fields are taken as they are, whatever type they have
  match entity.schema.searchColumns with
  | some fields => fields
  | none => (entity.schema.columns.filter fun c => c.2.isTextual).map (·.1)

end Entity

end FieldQuery

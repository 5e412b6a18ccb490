import FieldQuery.Json.Decoder
import FieldQuery.Json.Reader
import FieldQuery.Schema.EntitySchema

/-!
# Reading schemas

Schemas are read from a JSON array of entities. The options of an association stand beside its name
and kind; options that are not known are passed over, but each of them has to be a value.
-/

namespace FieldQuery.Schema

open FieldQuery.Json

/-- Decodes the type of a column. -/
def ColumnType.decode : Decoder ColumnType :=
  Decoder.name ColumnType.ofName?

/-- Decodes columns, an object of types. -/
def decodeColumns : Decoder (List (String × ColumnType)) := fun d => do
  (← Decoder.fields d).foldlM (fun columns (name, type) => do
    pure (setColumn name (← ColumnType.decode type) columns)) []

/-- An association stands four levels deep: in its object, the associations of its entity, that
entity, and the array of entities. -/
def associationDepth : Nat := 4

/-- Decodes an association, an object of its name, its kind and its options. -/
def AssociationDeclaration.decode : Decoder AssociationDeclaration := fun d => do
  let entries ← Decoder.fields d
  let options := entries.filter fun e => e.1 != "name" && e.1 != "kind"
  -- all options are read before any of them is decoded, so the depth counts in unknown ones as well
  if options.any fun e =>
      (e.2.valueWithin? (Document.nestingLimit - associationDepth)).isNone then none
  let flag name := do
    Decoder.withDefault Decoder.bool false (← Decoder.single name options)
  let word name := do
    Decoder.withDefault (Decoder.nullable Decoder.text) none (← Decoder.single name options)
  pure {
    name := ← Decoder.required Decoder.text (← Decoder.single "name" entries)
    kind := ← Decoder.required (Decoder.name DeclaredKind.ofName?) (← Decoder.single "kind" entries)
    className := ← word "class_name"
    foreignKey := ← word "foreign_key"
    polymorphic := ← flag "polymorphic"
    interface := ← word "as"
    autosave := ← flag "autosave"
    through := ← word "through"
    source := ← word "source"
    sourceType := ← word "source_type"
    joinTable := ← word "join_table"
    associationForeignKey := ← word "association_foreign_key" }

namespace EntitySchema

/-- The names of the fields, in the order in which an array lists them. -/
def fieldNames : List String :=
  ["type_name", "table_name", "primary_key", "columns", "associations", "default_sort",
   "search_columns", "roles", "obfuscated_ids"]

/-- Decodes an entity. -/
def decode : Decoder EntitySchema := fun d => do
  let word := Decoder.nullable Decoder.text
  match ← Decoder.record fieldNames d with
  | [typeName, table, key, columns, associations, sort, search, roles, obfuscated] =>
    pure {
      typeName := ← Decoder.required Decoder.text typeName
      tableName := ← Decoder.withDefault word none table
      primaryKey := ← Decoder.withDefault Decoder.text "id" key
      columns := ← Decoder.withDefault decodeColumns [] columns
      associations :=
        ← Decoder.withDefault (Decoder.list AssociationDeclaration.decode) [] associations
      defaultSort := ← Decoder.withDefault word none sort
      searchColumns :=
        ← Decoder.withDefault (Decoder.nullable (Decoder.list Decoder.text)) none search
      roles := ← Decoder.withDefault (Decoder.list Decoder.text) [] roles
      obfuscatedIds := ← Decoder.withDefault Decoder.bool false obfuscated }
  | _ => none

/-- Decodes the entities of an array. -/
def decodeAll : Decoder (List EntitySchema) :=
  Decoder.list decode

/-- Reads the entities of a JSON text. -/
def readAll? (text : String) : Option (List EntitySchema) :=
  (Document.read? text).bind decodeAll

end EntitySchema

end FieldQuery.Schema

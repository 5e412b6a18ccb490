import FieldQuery.Entity.Basic
import FieldQuery.Value.Parse

/-!
# The fields of an entity

A field is an association, one of the conventions for keys, roles and addresses, or a column, in
this order. A name that is none of these is taken for a column of numbers if it ends like a key, and
for a column of text otherwise.
-/

namespace FieldQuery

open FieldQuery.Catalog FieldQuery.Text FieldQuery.Value

/-- What a field is. -/
structure ResolvedField where
  type : FieldType
  association : Option Association
deriving DecidableEq, Repr

namespace Entity

/-- The association of a field, with the type that it is searched and ordered by. -/
def resolveAssociation? (entity : Entity) (field : String) : Option (FieldType × Association) :=
  let catalog := entity.catalog
  let typed (type : FieldType) : Option Association → Option (FieldType × Association) :=
    Option.map (Prod.mk type)
  -- names may be shared, and the kind that is tried first wins
  typed .directReference (catalog.direct? field)
  <|> typed .polymorphicReference (catalog.polymorphic? field)
  <|> typed .reversedMany (catalog.reversedMany? field)
  <|> typed .reversedSingle (catalog.reversedSingle? field)
  <|> typed .manyToMany (catalog.manyToMany? field)
  <|> (catalog.through? field).map fun a =>
    match a with
    | .through _ _ _ _ _ false => (.reversedSingle, a)
    | _ => (.reversedMany, a)

/-- The type of a field that is no association. -/
def plainType (entity : Entity) (field : String) : FieldType :=
  let schema := entity.schema
  -- the key is a token from outside where ids are obfuscated, whatever its column holds
  if schema.obfuscatedIds && entity.isKey field then .obfuscatedId
  else if !schema.roles.isEmpty && (field == "roles" || field == "roles_mask") then .roles
  else if (entity.catalog.addressScope? field).isSome then .addresses
  else
    match schema.columnType? field with
    | some type => type.fieldType
    | none =>
      -- an undeclared column with the name of a key is taken for one
      if entity.isKey field || (strip? "_id" field).isSome then .integer else .string

/-- What a field is. -/
def resolve (entity : Entity) (field : String) : ResolvedField :=
  match entity.resolveAssociation? field with
  | some (type, association) => ⟨type, some association⟩
  | none =>
    match entity.plainType field with
    | .addresses => ⟨.addresses, entity.catalog.reversedMany? addresses⟩
    | type => ⟨type, none⟩

/-- A field forced to a type, with the association of its name, if there is one. -/
def resolveAs (entity : Entity) (field : String) (type : FieldType) : ResolvedField :=
  match type with
  | .addresses => ⟨type, entity.catalog.reversedMany? addresses⟩
  | _ => ⟨type, entity.catalog.associated? field⟩

/-- What a field is, under a type that may be forced on it. -/
def resolveWith (entity : Entity) (field : String) : Option FieldType → ResolvedField
  | some type => entity.resolveAs field type
  | none => entity.resolve field

/-- The term of a value for a type. Tokens that stand for no key are kept as they are. -/
def parseValue (entity : Entity) (type : FieldType) (value : Json) : Except QueryError Term :=
  if value.isNullMarker then .ok .null
  else
    match type with
    | .obfuscatedId =>
      let token := value.typedText
      .ok (match entity.decodeId? token with
        | some id => .integer id
        | none => .raw token)
    | .roles => parseRoles entity.schema.roles value.typedText
    | _ => Value.parseValue type value

end Entity

end FieldQuery

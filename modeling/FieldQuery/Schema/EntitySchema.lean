import FieldQuery.Naming.EntityName
import FieldQuery.Schema.ColumnType

/-!
# Entity schemas

What an entity declares about itself: its table, its columns and its associations with other
entities. What is left out is filled in by conventions when the entity is loaded.
-/

namespace FieldQuery.Schema

open FieldQuery.Naming

/-- How an association is declared. -/
inductive DeclaredKind where
  /-- A row here holds the key of one row there. -/
  | belongsTo
  /-- One row there holds the key of a row here. -/
  | hasOne
  /-- Rows there hold the key of a row here. -/
  | hasMany
  /-- Rows of a join table hold one key of each side. -/
  | hasAndBelongsToMany
deriving DecidableEq, Repr, Inhabited

namespace DeclaredKind

/-- The name of a kind. -/
def name : DeclaredKind → String
  | belongsTo => "belongs_to"
  | hasOne => "has_one"
  | hasMany => "has_many"
  | hasAndBelongsToMany => "has_and_belongs_to_many"

/-- The kind with a given name. -/
def ofName? : String → Option DeclaredKind
  | "belongs_to" => some belongsTo
  | "has_one" => some hasOne
  | "has_many" => some hasMany
  | "has_and_belongs_to_many" => some hasAndBelongsToMany
  | _ => none

end DeclaredKind

/-- An association as an entity declares it. -/
structure AssociationDeclaration where
  name : String
  kind : DeclaredKind
  /-- The type on the far side, if the name of the association does not tell it. -/
  className : Option String := none
  foreignKey : Option String := none
  /-- The far side is of a type that each row names. -/
  polymorphic : Bool := false
  /-- The polymorphic association of the far side that points here. -/
  interface : Option String := none
  /-- The rows of the far side are saved with this one. -/
  autosave : Bool := false
  /-- The association of this entity over which the far side is reached. -/
  through : Option String := none
  /-- The association in the middle that leads to the far side. -/
  source : Option String := none
  /-- The type on the far side, where the association in the middle is polymorphic. -/
  sourceType : Option String := none
  joinTable : Option String := none
  /-- The column of the join table that points at the far side. -/
  associationForeignKey : Option String := none
deriving DecidableEq, Repr, Inhabited

/-- The declarations of an entity. -/
structure EntitySchema where
  typeName : String
  tableName : Option String := none
  primaryKey : String := "id"
  /-- The columns in their declared order, each name once. -/
  columns : List (String × ColumnType) := []
  associations : List AssociationDeclaration := []
  /-- The column by which others are ordered when they are ordered by a reference to this one. -/
  defaultSort : Option String := none
  /-- The columns that a search in all fields looks into. -/
  searchColumns : Option (List String) := none
  /-- The names of the roles in the order of their bits. -/
  roles : List String := []
  /-- Primary keys are shown as opaque tokens. -/
  obfuscatedIds : Bool := false
deriving DecidableEq, Repr, Inhabited

/-- Columns with one more; a column of the same name keeps its place and takes the new type. -/
def setColumn (name : String) (type : ColumnType) :
    List (String × ColumnType) → List (String × ColumnType)
  | [] => [(name, type)]
  | (n, t) :: rest => if n = name then (n, type) :: rest else (n, t) :: setColumn name type rest

namespace EntitySchema

/-- The type of a column. -/
def columnType? (schema : EntitySchema) (column : String) : Option ColumnType :=
  schema.columns.lookup column

/-- The declared table, or else the one that an entity of that name has by convention. -/
def tableFor (schema : EntitySchema) (name : EntityName) : String :=
  schema.tableName.getD name.tableName

end EntitySchema

end FieldQuery.Schema

import FieldQuery.Compile.Compilation

/-!
# Settings and options

The settings of an engine hold for all compilations; the options belong to one request.
-/

namespace FieldQuery

open FieldQuery.Catalog FieldQuery.Sql

/-- What all compilations of an engine share. -/
structure Settings where
  dialect : Dialect
  /-- The most rows of a sub-query that carries an ordering. -/
  keyLimit : Nat
  /-- How many associations a compilation may follow one after another. -/
  maxDepth : Nat
deriving DecidableEq, Repr, Inhabited

/-- The limit of a sub-query under a limit that a request may ask for. -/
def Settings.cap (settings : Settings) (limit : Option Nat) : Nat :=
  min (limit.getD settings.keyLimit) settings.keyLimit

/-- The options of an ordering. -/
structure OrderOptions where
  /-- The type that the field is taken for. -/
  type : Option FieldType := none
  /-- The field of the related entity to order by. -/
  sortField : Option String := none
  /-- The SQL expression to order by. -/
  sqlColumn : Option String := none
  /-- The most rows of the related entity to take into account. -/
  limit : Option Nat := none
  /-- Drops the orderings that are already there. -/
  reorder : Bool := false
deriving DecidableEq, Repr, Inhabited

/-- The options of a search in one field. -/
structure SearchOptions where
  /-- The type that the field is taken for. -/
  type : Option FieldType := none
  /-- Texts are matched in part, and whole numbers stand for a range. -/
  fuzzy : Bool := true
  /-- The SQL expression to compare with. -/
  sqlColumn : Option String := none
deriving DecidableEq, Repr, Inhabited

/-- The options of a search in all fields. -/
structure SearchAnyOptions where
  /-- The fields to look into instead of those of the entity. -/
  fields : Option (List String) := none
  fuzzy : Bool := true
deriving DecidableEq, Repr, Inhabited

namespace Entity

/-- An entity as the far side of an association. -/
def asTarget (entity : Entity) : Target :=
  ⟨entity.name, entity.table, entity.primaryKey⟩

/-- The column that a field is compared in, under an expression that may stand in for it. -/
def columnFor (entity : Entity) (field : String) (sqlColumn : Option String) : String :=
  sqlColumn.getD (entity.sqlColumn field)

/-- The association of a field that is used as one. -/
def require (entity : Entity) (field : String) : Option Association → Except QueryError Association
  | some association => .ok association
  | none => .error (.unknownAssociation entity.typeName field)

end Entity

/-- The far side of an association, which has to be known to search or order by it. -/
def Catalog.Association.requireTarget (association : Association) : Except QueryError Target :=
  match association.target? with
  | some target => .ok target
  | none => .error (.unsupportedAssociation association.name .targetVaries)

end FieldQuery

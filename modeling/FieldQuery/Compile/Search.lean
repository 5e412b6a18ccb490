import FieldQuery.Compile.Condition
import FieldQuery.Compile.Correlation

/-!
# Searches

The clause that a search adds to a relation. A search over an association searches all fields of the
target and carries the keys of what it finds back to the owner.
-/

namespace FieldQuery.Compile

open FieldQuery.Catalog FieldQuery.Sql

/-- What a search adds to a relation. -/
inductive Clause where
  | condition (fragment : Fragment)
  /-- A condition on groups. -/
  | having (fragment : Fragment)
deriving DecidableEq, Repr

/-- A relation with one more clause. -/
def Clause.addTo (relation : Relation) : Clause → Relation
  | condition fragment => relation.filter fragment
  | having fragment => relation.having fragment

/-- The entity of a target, if an association may be followed at all. -/
def enter (settings : Settings) (target : Target) : Compilation Entity :=
  if settings.maxDepth = 0 then .fail (.recursionLimit settings.maxDepth)
  else .entity target.name.typeName

/-- The rows of a relation over an entity that match a value in some field. -/
def matching (settings : Settings) (entity : Entity) (value : Json) (fuzzy : Bool)
    (rows : Relation) : Compilation Relation := do
  let (event, condition) := anyCondition settings.dialect entity value { fuzzy }
  .note event
  pure (rows.filter condition)

/-- The condition that an association leads to a row that matches a value. -/
def associationCondition (settings : Settings) (entity : Entity) (association : Association)
    (value : Json) (fuzzy : Bool) : Compilation Fragment := do
  let target ← .ofExcept association.requireTarget
  let found ← enter settings target
  let rows ← matching settings found value fuzzy found.relation
  let (column, keys) ← correlate settings .filter entity.asTarget target rows association
  pure (keys.inList column)

/-- The condition that an address of one category matches a value. -/
def addressCondition (settings : Settings) (entity : Entity) (field : String) (value : Json)
    (fuzzy : Bool) : Compilation Fragment :=
  match entity.catalog.addressScope? field with
  | none => .fail (.unknownAssociation entity.typeName field)
  | some scope => do
    let found ← enter settings scope.target
    let rows ← matching settings found value fuzzy (scope.relation entity.typeName)
    let keys ← .keys rows (scope.target.column scope.link.foreignKey)
    pure (keys.inList entity.keyColumn)

/-- The clause of a search in a field. -/
def searchClause (settings : Settings) (entity : Entity) (field : String) (value : Json)
    (options : SearchOptions) : Compilation Clause := do
  let column := entity.columnFor field options.sqlColumn
  -- the value of an aggregate is not read by the type of the field
  if isAggregate column then
    .note .searchAggregate
    pure (.having (.equals column (valueParam value)))
  else
    let resolved := entity.resolveWith field options.type
    let type := resolved.type
    -- A value that cannot be read ends the search before it is counted.
    let term ← .ofExcept (entity.parseValue type value)
    .note (.search type)
    -- a type that does not accept NULL goes on, with the marker for its value
    if term = .null ∧ type.acceptsNull then
      pure (.condition (.ofSql (column ++ " IS NULL")))
    else if type.isAssociation then
      let association ← .ofExcept (entity.require field resolved.association)
      return .condition (← associationCondition settings entity association value options.fuzzy)
    else if type = .addresses then
      return .condition (← addressCondition settings entity field value options.fuzzy)
    else
      return .condition (← .ofExcept (plainCondition settings.dialect entity field column
        options.fuzzy value.typedText type term))

end FieldQuery.Compile

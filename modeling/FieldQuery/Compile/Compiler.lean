import FieldQuery.Compile.Ordering
import FieldQuery.Compile.Search

/-!
# Compilers

A compiler belongs to an entity and has a relation bound to it, to which requests add clauses. A
request leaves the compiler as it is and gives a new relation, which may be bound in turn.
-/

namespace FieldQuery

open FieldQuery.Compile FieldQuery.Sql

/-- Compiles requests for the rows of an entity. -/
structure Compiler where
  settings : Settings
  entity : Entity
  relation : Option Relation

namespace Compiler

/-- A compiler for all rows of an entity. -/
def all (settings : Settings) (entity : Entity) : Compiler :=
  ⟨settings, entity, some entity.relation⟩

/-- A compiler without a relation. -/
def unbound (settings : Settings) (entity : Entity) : Compiler :=
  ⟨settings, entity, none⟩

/-- A compiler for the rows of another relation. -/
def bind (relation : Relation) (compiler : Compiler) : Compiler :=
  { compiler with relation := some relation }

/-- The relation that requests add to. -/
def bound (compiler : Compiler) : Compilation Relation :=
  match compiler.relation with
  | some relation => pure relation
  | none => .fail .noRelation

/-- The rows ordered by a field, after the orderings already there unless these are dropped. -/
def order (compiler : Compiler) (field : String) (direction : Direction) (options : OrderOptions) :
    Compilation Relation := do
  -- without a relation nothing is looked up and nothing is counted
  let relation ← compiler.bound
  let expressions ← orderClauses compiler.settings compiler.settings.maxDepth compiler.entity field
    direction options
  pure ((if options.reorder then relation.reorder else relation).orderBy expressions)

/-- The rows that match a value in a field. -/
def search (compiler : Compiler) (field : String) (value : Json) (options : SearchOptions) :
    Compilation Relation := do
  let relation ← compiler.bound
  let clause ← searchClause compiler.settings compiler.entity field value options
  pure (clause.addTo relation)

/-- The rows whose primary key a value names, or which match its text in some field. -/
def searchAny (compiler : Compiler) (value : Json) (options : SearchAnyOptions) :
    Compilation Relation := do
  let relation ← compiler.bound
  let (event, condition) := anyCondition compiler.settings.dialect compiler.entity value options
  .note event
  pure (relation.filter condition)

end Compiler

end FieldQuery

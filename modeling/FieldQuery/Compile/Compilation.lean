import FieldQuery.Entity.Field
import FieldQuery.Sql.KeySet

/-!
# Compilations

A compilation is a computation that may ask for an entity by its name, pluck the keys of a relation
from the store, and note what it is doing; it ends in a result or an error. It is a tree: a node is
a question and its children are the continuations for the possible answers, so what is asked along
the way can be read off without a store. `run` answers the questions from a backend.
-/

namespace FieldQuery

open FieldQuery.Sql

/-- What is counted about compilations. -/
inductive CompileEvent where
  | order (type : FieldType)
  | search (type : FieldType)
  /-- A search on an aggregate of groups. -/
  | searchAggregate
  /-- A search in all fields for keys. -/
  | searchAnyKey
  /-- A search in all fields for a text. -/
  | searchAnyText
deriving DecidableEq, Repr

/-- A computation with questions to the schemas and to the store. -/
inductive Compilation (α : Type) where
  | done (result : α)
  | fail (error : QueryError)
  /-- Asks for the entity of an identifier. -/
  | lookup (identifier : String) (next : Entity → Compilation α)
  /-- Asks for the keys in a column of a relation. -/
  | pluck (relation : Relation) (column : String) (next : KeySet → Compilation α)
  | count (event : CompileEvent) (next : Compilation α)

namespace Compilation

variable {α β σ : Type}

/-! ## Building -/

/-- A computation continued with its result. -/
def bind : Compilation α → (α → Compilation β) → Compilation β
  | done a, f => f a
  | fail e, _ => fail e
  | lookup i next, f => lookup i fun entity => (next entity).bind f
  | pluck r c next, f => pluck r c fun keys => (next keys).bind f
  | count e next, f => count e (next.bind f)

instance : Monad Compilation where
  pure := done
  bind := bind

/-- The entity of an identifier. -/
def entity (identifier : String) : Compilation Entity :=
  lookup identifier done

/-- The keys in a column of a relation. -/
def keys (relation : Relation) (column : String) : Compilation KeySet :=
  pluck relation column done

/-- Notes an event. -/
def note (event : CompileEvent) : Compilation Unit :=
  count event (done ())

/-- A result that may be an error. -/
def ofExcept : Except QueryError α → Compilation α
  | .ok a => done a
  | .error e => fail e

/-! ## Running -/

/-- What answers the questions of a compilation, changing a state on the way. -/
structure Backend (σ : Type) where
  entity : String → σ → Except QueryError Entity × σ
  /-- The values of a column in the rows of a relation, in their order, with nothing for NULLs. -/
  pluck : Relation → String → σ → Except StorageError (List (Option Key)) × σ
  count : CompileEvent → σ → σ

/-- The result of a compilation and the state after it. The first error ends it. -/
def run (backend : Backend σ) : Compilation α → σ → Except QueryError α × σ
  | done a, s => (.ok a, s)
  | fail e, s => (.error e, s)
  | lookup i next, s =>
    match backend.entity i s with
    | (.ok entity, s') => (next entity).run backend s'
    | (.error e, s') => (.error e, s')
  | pluck r c next, s =>
    match backend.pluck r c s with
    -- a backend answers with what the rows hold; repeated keys and NULLs are dropped here
    | (.ok column, s') => (next (.ofPlucked column)).run backend s'
    | (.error e, s') => (.error (.storage e), s')
  | count event next, s => next.run backend (backend.count event s)

end Compilation

end FieldQuery

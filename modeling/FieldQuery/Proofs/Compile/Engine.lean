import FieldQuery.Session
import FieldQuery.Proofs.Compile.Trace

/-!
# Engines

An engine finds entities in a cache over the schemas of a provider, and has its questions to the
store answered by an executor. Nothing is assumed of the executor: it may keep a state of its own,
and answer or fail as it likes.
-/

namespace FieldQuery

open FieldQuery.Compilation FieldQuery.Schema FieldQuery.Sql

/-- A backend that finds its entities in a cache, which nothing but a look-up changes. -/
structure Engine (provider : Provider) (σ : Type) extends Backend σ where
  cache : σ → EntityCache
  lookup_eq : ∀ identifier s,
    ((entity identifier s).1, cache (entity identifier s).2) = (cache s).lookup provider identifier
  cache_pluck : ∀ relation column s, cache (pluck relation column s).2 = cache s
  cache_count : ∀ event s, cache (count event s) = cache s

attribute [simp] Engine.cache_pluck Engine.cache_count

/-- The engine that sessions run on. -/
def Workspace.engine (provider : Provider) : Engine provider Workspace where
  toBackend := Workspace.backend provider
  cache := Workspace.cache
  lookup_eq _ _ := rfl
  cache_pluck _ _ _ := rfl
  cache_count _ _ := rfl

namespace Engine

variable {provider : Provider} {σ : Type}

/-- The engine over an executor. -/
def ofExecutor {τ : Type} (provider : Provider)
    (pluck : Relation → String → τ → Except StorageError (List (Option Key)) × τ) :
    Engine provider (EntityCache × τ) where
  entity identifier s :=
    let (result, cache) := s.1.lookup provider identifier
    (result, cache, s.2)
  pluck relation column s :=
    let (answer, next) := pluck relation column s.2
    (answer, s.1, next)
  count _ s := s
  cache := Prod.fst
  lookup_eq _ _ := rfl
  cache_pluck _ _ _ := rfl
  cache_count _ _ := rfl

/-- The entity that an engine finds is the one that its cache gives. -/
theorem lookup_of_entity {engine : Engine provider σ} {identifier : String}
    {result : Except QueryError Entity} {s s' : σ}
    (h : engine.entity identifier s = (result, s')) :
    (engine.cache s).lookup provider identifier = (result, engine.cache s') := by
  rw [← engine.lookup_eq, h]

end Engine

end FieldQuery

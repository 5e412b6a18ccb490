import FieldQuery.Compile.Compiler
import FieldQuery.Entity.Cache
import FieldQuery.Metrics
import FieldQuery.Store.Script

/-!
# Sessions

A session compiles one request after another against a scripted store. It keeps the entities that
have been loaded, the rest of the script, the counts, and the compiler that requests go to.
-/

namespace FieldQuery

open FieldQuery.Schema FieldQuery.Sql FieldQuery.Store

/-- What compilations change. -/
structure Workspace where
  cache : EntityCache := {}
  script : Script := {}
  tally : Tally := {}

namespace Workspace

/-- The entity of an identifier. -/
def lookup (provider : Provider) (identifier : String) (w : Workspace) :
    Except QueryError Entity × Workspace :=
  let (result, cache) := w.cache.lookup provider identifier
  (result, { w with cache })

/-- Answers compilations from the schemas of a provider and from the script. -/
def backend (provider : Provider) : Compilation.Backend Workspace where
  entity := lookup provider
  pluck relation column w :=
    let (answer, script) := w.script.pluck relation column
    (.ok answer, { w with script })
  count event w := { w with tally := w.tally.count (.compiled event) }

end Workspace

/-- A series of requests. -/
structure Session where
  settings : Settings
  provider : Provider
  workspace : Workspace := {}
  compiler : Option Compiler := none

namespace Session

/-- Makes the compiler of an entity the one that requests go to. It is made from the entity by
`start`; on an error the one before is kept. -/
def select (identifier : String) (start : Settings → Entity → Compiler) (session : Session) :
    Except QueryError Compiler × Session :=
  let (result, workspace) := session.workspace.lookup session.provider identifier
  let compiler := result.map (start session.settings)
  (compiler, { session with
    workspace
    compiler := match compiler with
      | .ok c => some c
      | .error _ => session.compiler })

/-- Binds a relation to a compiler and makes it the one that requests go to. -/
def bind (relation : Relation) (compiler : Compiler) (session : Session) : Session :=
  { session with compiler := some (compiler.bind relation) }

/-- Queues an answer of the store. -/
def respond (table : String) (answer : List (Option Key)) (session : Session) : Session :=
  { session with
    workspace.script := session.workspace.script.respond table answer }

/-- What came of a request. -/
structure Outcome where
  result : Except QueryError Relation
  /-- The plucks that were made, as statements. -/
  plucks : List String

/-- Compiles a request. With `keep` the relation it gives is bound to the compiler. -/
def compile (compiler : Compiler) (request : Compiler → Compilation Relation) (keep : Bool)
    (session : Session) : Outcome × Session :=
  let before := session.workspace.script.log.length
  let (result, workspace) :=
    (request compiler).run (Workspace.backend session.provider) session.workspace
  let after := { session with workspace }
  (⟨result, workspace.script.log.drop before⟩,
    match result with
    -- Without `keep` the next request starts from the same relation.
    | .ok relation => if keep then after.bind relation compiler else after
    | .error _ => after)

end Session

end FieldQuery

import FieldQuery.Config
import FieldQuery.Error
import FieldQuery.Retry

/-!
# Opening a store

A store is opened by its URL, with as many attempts as the configuration allows. A configuration
without a URL, or with one from which no dialect can be told, fails at once.
-/

namespace FieldQuery.Store

open FieldQuery.Sql

/-- Opens the store of a configuration. `openStore` is given the URL and the number of the attempt;
the result is the dialect and what `openStore` gives. -/
def connect {α : Type} (config : Config) (openStore : String → Nat → Except StorageError α) :
    Except StorageError (Dialect × α) :=
  match config.databaseUrl with
  | none => .error (.backend "database_url is not configured")
  | some url =>
    match config.resolvedDialect? with
    | none => .error (.backend ("Cannot infer SQL dialect from '" ++ url ++ "'"))
    | some dialect =>
      -- The policy has a wait for every attempt, so there is an outcome.
      let opened := (retry (.connect config.connectAttempts) (openStore url)).result.get
        (RetryPolicy.isSome_attemptFrom (RetryPolicy.isSome_waitBefore?_connect _) _ _ _)
      opened.map fun store => (dialect, store)

end FieldQuery.Store

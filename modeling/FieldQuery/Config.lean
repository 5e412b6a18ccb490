import FieldQuery.Json.Decoder
import FieldQuery.Json.Reader
import FieldQuery.Sql.Dialect

/-!
# Configuration

Where the store is, which dialect it speaks, and the limits of a compilation. A configuration is
read from a JSON text; every field may be left out.
-/

namespace FieldQuery

open FieldQuery.Json FieldQuery.Sql

/-- The configuration of an engine. -/
structure Config where
  databaseUrl : Option String := none
  /-- The dialect, if it is not the one that the URL names. -/
  dialect : Option Dialect := none
  /-- The most rows of a sub-query that carries an ordering. -/
  keyLimit : Nat := 1000
  /-- How many associations a compilation may follow one after another. -/
  maxDepth : Nat := 8
  maxConnections : Nat := 5
  connectAttempts : Nat := 5
deriving DecidableEq, Repr, Inhabited

namespace Config

/-- The given dialect, or else the one that the URL names. -/
def resolvedDialect? (config : Config) : Option Dialect :=
  match config.dialect with
  | some dialect => some dialect
  | none => config.databaseUrl.bind Dialect.ofUrl?

/-- The names of the fields, in the order in which an array lists them. -/
def fieldNames : List String :=
  ["database_url", "dialect", "key_translation_limit", "max_depth", "max_connections",
   "connect_attempts"]

/-- Decodes a configuration. Limits are 64-bit numbers and the pool size is a 32-bit number. -/
def decode : Decoder Config := fun d => do
  let defaults : Config := {}
  let word := Decoder.natUpTo 0xFFFFFFFFFFFFFFFF
  match ← Decoder.record fieldNames d with
  | [url, dialect, keys, depth, connections, attempts] =>
    pure {
      databaseUrl := ← Decoder.withDefault (Decoder.nullable Decoder.text) none url
      dialect :=
        ← Decoder.withDefault (Decoder.nullable (Decoder.name Dialect.ofName?)) none dialect
      keyLimit := ← Decoder.withDefault word defaults.keyLimit keys
      maxDepth := ← Decoder.withDefault word defaults.maxDepth depth
      maxConnections :=
        ← Decoder.withDefault (Decoder.natUpTo 0xFFFFFFFF) defaults.maxConnections connections
      connectAttempts := ← Decoder.withDefault word defaults.connectAttempts attempts }
  | _ => none

/-- Reads a configuration from a JSON text. -/
def read? (text : String) : Option Config :=
  (Document.read? text).bind decode

end Config

end FieldQuery

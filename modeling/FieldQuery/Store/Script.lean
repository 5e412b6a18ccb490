import FieldQuery.Sql.KeySet
import FieldQuery.Sql.Relation

/-!
# Scripted stores

A store that answers plucks from a script. Answers are queued per table and each of them is given
once; a pluck from a table with nothing queued gives no rows. Every pluck is written to a log.
-/

namespace FieldQuery.Store

open FieldQuery.Sql

/-- The answers still to be given, and the plucks so far. -/
structure Script where
  /-- The queues of the tables. -/
  queues : List (String × List (List (Option Key))) := []
  /-- The plucks as statements, in their order. -/
  log : List String := []
deriving Repr, Inhabited

namespace Script

/-- The answers queued for a table. -/
def queue (script : Script) (table : String) : List (List (Option Key)) :=
  (script.queues.lookup table).getD []

/-- A script with another queue for a table. -/
def setQueue (table : String) (answers : List (List (Option Key))) (script : Script) : Script :=
  { script with queues := (table, answers) :: script.queues.filter fun q => q.1 != table }

/-- Queues one more answer for a table. -/
def respond (table : String) (answer : List (Option Key)) (script : Script) : Script :=
  script.setQueue table (script.queue table ++ [answer])

/-- The next answer for the table of a relation. -/
def pluck (relation : Relation) (column : String) (script : Script) :
    List (Option Key) × Script :=
  let logged := { script with log := script.log ++ [relation.inlineText column] }
  match script.queue relation.table with
  | [] => ([], logged)
  | answer :: rest => (answer, logged.setQueue relation.table rest)

end Script

end FieldQuery.Store

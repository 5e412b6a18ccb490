import FieldQuery.Compile.Compilation

/-!
# Metrics

What is measured, and the names under which it is reported. A tally keeps the measurements by name,
in ascending order of the names.
-/

namespace FieldQuery

/-- What came of probing whether a member of an entity is a scope. -/
inductive ProbeOutcome where
  | scope
  /-- The member gave something else than a relation. -/
  | value
  /-- The member failed. -/
  | error
  /-- There is no such member. -/
  | missing
deriving DecidableEq, Repr, Inhabited

/-- The name of an outcome. -/
def ProbeOutcome.name : ProbeOutcome → String
  | scope => "scope"
  | value => "value"
  | error => "error"
  | missing => "missing"

namespace CompileEvent

/-- The operation that an event belongs to. -/
def operation : CompileEvent → String
  | order _ => "order"
  | search _ | searchAggregate => "search"
  | searchAnyKey | searchAnyText => "search_any"

/-- What the operation was applied to. -/
def subject : CompileEvent → String
  | order type | search type => type.name
  | searchAggregate => "aggregate"
  | searchAnyKey => "key"
  | searchAnyText => "text"

end CompileEvent

/-- Something that is measured. -/
inductive Metric where
  | compiled (event : CompileEvent)
  /-- The plucks from a table. -/
  | plucks (table : String)
  /-- The rows of a pluck. -/
  | pluckedRows (table : String)
  /-- The time a pluck takes. -/
  | pluckTime (table : String)
  | probes (outcome : ProbeOutcome)
deriving DecidableEq, Repr

namespace Metric

/-- A name with labels, as in `name{label=value,other=value}`. -/
def labelled (name : String) (labels : List (String × String)) : String :=
  name ++ "\x7b" ++ ",".intercalate (labels.map fun l => l.1 ++ "=" ++ l.2) ++ "\x7d"

/-- The name under which a metric is reported. -/
def key : Metric → String
  | compiled event =>
    labelled "query_engine_compile_total"
      [("operation", event.operation), ("semantic_type", event.subject)]
  | plucks table => labelled "query_engine_pluck_total" [("table", table)]
  | pluckedRows table => labelled "query_engine_pluck_rows" [("table", table)]
  | pluckTime table => labelled "query_engine_pluck_seconds" [("table", table)]
  | probes outcome => labelled "query_engine_scope_probe_total" [("outcome", outcome.name)]

end Metric

/-- The measurements under one name. -/
structure Measurement where
  samples : Nat
  /-- The sum of the measured values, where they are kept. -/
  sum : Option Nat
deriving DecidableEq, Repr, Inhabited

/-- Measurements in ascending order of their names. -/
structure Tally where
  entries : List (String × Measurement) := []
deriving DecidableEq, Repr, Inhabited

namespace Tally

/-- Ordered measurements with one more sample under a name. -/
def addTo (key : String) (value : Option Nat) :
    List (String × Measurement) → List (String × Measurement)
  | [] => [(key, ⟨1, value⟩)]
  | (k, m) :: rest =>
    if key < k then (key, ⟨1, value⟩) :: (k, m) :: rest
    else if key = k then
      (k, ⟨m.samples + 1, match m.sum, value with
        | some a, some b => some (a + b)
        | _, _ => none⟩) :: rest
    else (k, m) :: addTo key value rest

/-- A tally with one more sample, of which only the number is kept. -/
def count (metric : Metric) (tally : Tally) : Tally :=
  ⟨addTo metric.key none tally.entries⟩

/-- A tally with one more sample of a value. -/
def sample (metric : Metric) (value : Nat) (tally : Tally) : Tally :=
  ⟨addTo metric.key (some value) tally.entries⟩

/-- A tally with one more pluck of some rows from a table. -/
def pluck (table : String) (rows : Nat) (tally : Tally) : Tally :=
  ((tally.count (.plucks table)).sample (.pluckedRows table) rows).count (.pluckTime table)

end Tally

end FieldQuery

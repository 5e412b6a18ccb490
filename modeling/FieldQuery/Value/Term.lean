import FieldQuery.Calendar.Precision
import FieldQuery.Error

/-!
# Search terms

A search value that has been converted for comparison with a column.
-/

namespace FieldQuery.Value

open FieldQuery.Calendar FieldQuery.Number

/-- A converted search value. -/
inductive Term where
  /-- Rows without a value are asked for. -/
  | null
  | text (value : String)
  | integer (value : Int64)
  | decimal (value : Decimal)
  | boolean (value : Bool)
  /-- The bucket of moments that starts at a moment. -/
  | moment (start : Moment) (precision : Precision)
  | time (value : TimeOfDay)
  /-- A number of seconds. -/
  | duration (seconds : Int64)
  /-- A text that is not converted. -/
  | raw (value : String)
deriving DecidableEq, Repr

/-- A result with the text and the type that a fault is reported for. -/
def reported {α : Type} (type : FieldType) (text : String) :
    Except ParseFault α → Except QueryError α
  | .ok a => .ok a
  | .error fault => .error (.parse type text fault)

/-- The value of an option, or a fault. -/
def orFault {α : Type} (fault : ParseFault) : Option α → Except ParseFault α
  | some a => .ok a
  | none => .error fault

end FieldQuery.Value

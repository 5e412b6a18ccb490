import FieldQuery.FieldType

/-!
# Column types

The type that a column is declared with. Every column type is the field type of the same name.
-/

namespace FieldQuery.Schema

/-- The declared type of a column. -/
inductive ColumnType where
  | string
  | text
  | email
  | integer
  | decimal
  | float
  | currency
  | percentage
  | duration
  | price
  | boolean
  | date
  | datetime
  | time
  | binary
  | json
deriving DecidableEq, Repr, Inhabited

namespace ColumnType

/-- How a field that is a column of the type is ordered and compared. -/
def fieldType : ColumnType → FieldType
  | string => .string
  | text => .text
  | email => .email
  | integer => .integer
  | decimal => .decimal
  | float => .float
  | currency => .currency
  | percentage => .percentage
  | duration => .duration
  | price => .price
  | boolean => .boolean
  | date => .date
  | datetime => .datetime
  | time => .time
  | binary => .binary
  | json => .json

/-- All types. -/
def all : List ColumnType :=
  [string, text, email, integer, decimal, float, currency, percentage, duration, price, boolean,
   date, datetime, time, binary, json]

/-- Further names under which a type may be declared. -/
def aliases : List (String × ColumnType) :=
  [("varchar", string), ("citext", string), ("bigint", integer), ("smallint", integer),
   ("numeric", decimal), ("double", float), ("real", float), ("timestamp", datetime)]

/-- The type declared by a name or an alias. -/
def ofName? (name : String) : Option ColumnType :=
  match all.find? fun t => t.fieldType.name == name with
  | some t => some t
  | none => aliases.lookup name

/-- Whether a search in all fields of an entity looks into a column of the type. -/
def isTextual : ColumnType → Bool
  | string | text | email => true
  | _ => false

end ColumnType

end FieldQuery.Schema

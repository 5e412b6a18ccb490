import FieldQuery.Number.Binary64

/-!
# JSON values

The values a caller may search for. A number is an integer of at most 64 bits, signed or unsigned,
or a finite double. The fields of an object are kept in ascending order of their names, one field
a name.
-/

namespace FieldQuery

open FieldQuery.Number

namespace Json

/-- A JSON number. -/
inductive Number where
  /-- A number without fraction and exponent that fits a signed or an unsigned 64-bit integer. -/
  | integer (value : Int) (inRange : -0x8000000000000000 ≤ value ∧ value < 0x10000000000000000)
  /-- Any other number. -/
  | double (value : Binary64) (finite : value.isFinite = true)
deriving DecidableEq, Repr

namespace Number

/-- The number as a signed 64-bit integer, if it is an integer of that range. -/
def int64? : Number → Option Int64
  | .integer n _ => if n < 0x8000000000000000 then some (Int64.ofInt n) else none
  | .double _ _ => none

/-- The number as the nearest double. -/
def toBinary64 : Number → Binary64
  | .integer n _ => Binary64.ofInt n
  | .double x _ => x

end Number

end Json

/-- A JSON value. -/
inductive Json where
  | null
  | bool (value : Bool)
  | number (value : Json.Number)
  | string (value : String)
  | array (items : List Json)
  | object (fields : List (String × Json))
deriving Inhabited, Repr

namespace Json

/-- Fields in ascending order of their names with one more field; a field of the same name is
replaced. -/
def insertField (name : String) (value : Json) : List (String × Json) → List (String × Json)
  | [] => [(name, value)]
  | (n, v) :: rest =>
    if name < n then (name, value) :: (n, v) :: rest
    else if name = n then (name, value) :: rest
    else (n, v) :: insertField name value rest

/-- The value of a field of an object. -/
def field? (name : String) : Json → Option Json
  | .object fields => fields.lookup name
  | _ => none

end Json

end FieldQuery

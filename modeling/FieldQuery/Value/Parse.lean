import FieldQuery.Json.Text
import FieldQuery.Value.Duration
import FieldQuery.Value.Roles
import FieldQuery.Value.Timestamp

/-!
# Converting a search value

What a JSON value stands for when it is compared with a field of a given type. Numbers inside a text
may be decorated: only digits, hyphens and points count.
-/

namespace FieldQuery.Value

open FieldQuery.Number FieldQuery.Text

/-! ## Numbers -/

/-- The characters of a text that can belong to a number. -/
def numericChars (text : List Char) : List Char :=
  text.filter fun c => c.isDigit || c == '-' || c == '.'

/-- The decimal in a text. -/
def decimalOf (text : String) : Except ParseFault Decimal :=
  match numericChars text.toList with
  | [] => .error .notANumber
  | chars => (Decimal.read chars).mapError .decimal

/-- The integer of a value; a fraction is dropped. -/
def integerOf (value : Json) : Except ParseFault Int64 :=
  match value with
  | .number n => .ok (n.int64?.getD n.toBinary64.truncated)
  | .bool _ => .error .notANumber
  | _ => do
    let d ← decimalOf value.typedText
    orFault .outOfRange (toInt64? d.trunc)

/-- The cents of a price: an integer counts cents, and any other value is in whole units. -/
def centsOf (value : Json) : Except ParseFault Int64 :=
  let inUnits : Except ParseFault Int64 := do
    let d ← decimalOf value.typedText
    orFault .outOfRange ((d.mul? .oneHundred).bind fun cents => toInt64? cents.round)
  match value with
  | .number n =>
    match n.int64? with
    | some cents => .ok cents
    -- a number that is no 64-bit integer is read like its text
    | none => inUnits
  | _ => inUnits

/-- The seconds of a duration; a number counts seconds and is rounded to a whole one. -/
def secondsOf (value : Json) : Except ParseFault Int64 :=
  match value with
  | .number n => .ok (n.int64?.getD n.toBinary64.rounded)
  | _ => durationSeconds value.typedText.toList

/-! ## Truth values -/

/-- The words for yes. -/
def yesWords : List String := ["true", "t", "yes", "y", "1", "on"]

/-- The words for no. -/
def noWords : List String := ["false", "f", "no", "n", "0", "off"]

/-- The truth value of a value: a number is true unless it is zero, and a text is one of the words
for yes and no in any case. -/
def booleanOf (value : Json) : Except ParseFault Bool :=
  match value with
  | .bool b => .ok b
  | .number n => .ok n.toBinary64.isNonzero
  | _ =>
    let word := String.ofList (asciiLower (trim value.typedText.toList))
    if word ∈ yesWords then .ok true
    else if word ∈ noWords then .ok false
    else .error .notABoolean

/-! ## All types -/

/-- The term of a value for a type, without knowledge of the entity. Roles and opaque keys depend on
the entity, and associations are searched by other means, so for them the text is kept. -/
def parseValue (type : FieldType) (value : Json) : Except QueryError Term :=
  let text := value.typedText
  if value.isNullMarker then .ok .null
  else
    match type with
    | .string | .text | .email | .binary | .json => .ok (.text text)
    | .integer => (reported type text (integerOf value)).map .integer
    | .decimal | .float | .currency | .percentage =>
      (reported type text (decimalOf text)).map .decimal
    | .price => (reported type text (centsOf value)).map .integer
    | .duration => (reported type text (secondsOf value)).map .duration
    | .boolean => (reported type text (booleanOf value)).map .boolean
    | .date | .datetime =>
      (parseTimestamp type text).map fun (start, precision) => .moment start precision
    | .time => (parseTime text).map .time
    | .directReference | .polymorphicReference | .reversedSingle | .reversedMany | .manyToMany
    | .addresses | .obfuscatedId | .roles => .ok (.raw text)

end FieldQuery.Value

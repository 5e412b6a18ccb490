import FieldQuery.Compile.Settings

/-!
# Conditions on columns

The condition that compares a column of an entity with a search term, by the type of the field.
Values become parameters, and the text of a condition depends only on the shape of the term.
-/

namespace FieldQuery.Compile

open FieldQuery.Calendar FieldQuery.Number FieldQuery.Schema FieldQuery.Sql FieldQuery.Text
open FieldQuery.Value

/-! ## Parts of conditions -/

/-- The range of an inexact number: from the value up to a bound, or for a negative value down to
it. The value is in the range and the bound is not. -/
def widened (column : String) (value bound : Param) (negative : Bool) : Fragment :=
  if negative then ⟨column ++ " <= ? AND " ++ column ++ " > ?", [value, bound]⟩
  else ⟨column ++ " >= ? AND " ++ column ++ " < ?", [value, bound]⟩

/-- A decimal as a parameter. -/
def decimalParam (d : Decimal) : Param :=
  .float d.toBinary64

/-- The condition that a column contains a text, or equals it. -/
def textCondition (dialect : Dialect) (fuzzy : Bool) (column text : String) : Fragment :=
  if fuzzy then ⟨column ++ " " ++ dialect.fuzzyOperator ++ " ?", [.text ("%" ++ text ++ "%")]⟩
  else .equals column (.text text)

/-- The condition that a column is in the bucket of moments from `start` to `last`. -/
def bucketCondition (dialect : Dialect) (type : FieldType) (column : String)
    (start last : Moment) : Fragment :=
  let between (placeholder from' to' : String) : Fragment :=
    ⟨column ++ " >= " ++ placeholder ++ " AND " ++ column ++ " <= " ++ placeholder,
      [.text from', .text to']⟩
  -- dates are compared without their time
  if type = .date then between dialect.datePlaceholder start.date.text last.date.text
  else between dialect.timestampPlaceholder start.text last.preciseText

/-- The condition that a column holds a time of day. The minute counts unless it is zero. -/
def timeCondition (dialect : Dialect) (column : String) (time : TimeOfDay) : Fragment :=
  let part (expression : String) (n : Nat) := Fragment.equals expression (.integer (Int64.ofNat n))
  let hour := part (dialect.extractHour column) time.hour
  if time.minute = 0 then hour
  else .join " AND " [hour, part (dialect.extractMinute column) time.minute]

/-- The condition that a column holds a decimal. A fuzzy whole number stands for the range up to the
next one, away from zero. -/
def decimalCondition (fuzzy : Bool) (column text : String) (d : Decimal) : Fragment :=
  let bound := if d.isNegative then d.sub? .one else d.add? .one
  -- a number without a next one is compared exactly, even by a fuzzy search
  match bound with
  | some bound =>
    if fuzzy && d.isWhole && !text.toList.contains '.' then
      widened column (decimalParam d) (decimalParam bound) d.isNegative
    else .equals column (decimalParam d)
  | none => .equals column (decimalParam d)

/-- The condition that a column holds a duration. A fuzzy number of seconds that makes up whole
minutes stands for the range up to the next minute, away from zero. -/
def durationCondition (fuzzy : Bool) (column text : String) (seconds : Int64) : Fragment :=
  let n := seconds.toInt
  let bound := toInt64? (if n < 0 then n - 60 else n + 60)
  match bound with
  | some bound =>
    if fuzzy && n % 60 == 0 && isBareSeconds text then
      widened column (.integer seconds) (.integer bound) (n < 0)
    else .equals column (.integer seconds)
  | none => .equals column (.integer seconds)

/-- The percentage points of a fraction, without their decimal places. -/
def percentPoints? (d : Decimal) : Option Int64 :=
  (d.mul? .oneHundred).bind fun scaled => toInt64? scaled.trunc

/-- The condition that a polymorphic reference holds the type and the key that a text such as
`Post_12` names. Any other text may be the key or the type. -/
def polymorphicCondition (column text : String) : Fragment :=
  let typed : Option (String × Int64) := do
    -- Type names may contain underscores, so the last one counts.
    let (type, key) ← cutAtLast? '_' text.toList
    if type.isEmpty then none else pure (String.ofList type, ← readInt64? (trim key))
  match typed with
  | some (type, id) =>
    ⟨column ++ "_id = ? AND " ++ column ++ "_type = ?", [.integer id, .text type]⟩
  -- what is left may be the key alone or the type alone; no row has the sentinel for a key
  | none =>
    let id := (readInt64? (trim text.toList)).getD sentinelKey
    ⟨column ++ "_id = ? OR " ++ column ++ "_type = ?", [.integer id, .text text]⟩

/-! ## The condition of a field -/

/-- The condition on a field that is not an association. `text` is the value as it was typed. A
token that stands for no key matches no row. -/
def plainCondition (dialect : Dialect) (entity : Entity) (field column : String) (fuzzy : Bool)
    (text : String) (type : FieldType) (term : Term) : Except QueryError Fragment :=
  match type, term with
  | .polymorphicReference, _ => .ok (polymorphicCondition column text)
  | .obfuscatedId, .integer id => .ok (.equals column (.integer id))
  | .obfuscatedId, _ => .ok (.equals column (.integer sentinelKey))
  | .roles, .integer mask =>
    .ok ⟨"(" ++ entity.column "roles_mask" ++ " & ?) > 0", [.integer mask]⟩
  -- Only the null markers get here.
  | .roles, _ => .error (.parse .roles text .noRoles)
  | .boolean, .boolean b => .ok (.equals column (.boolean b))
  | .integer, .integer n | .price, .integer n => .ok (.equals column (.integer n))
  | .date, .moment start precision | .datetime, .moment start precision =>
    match precision.bucketEnd? start with
    | some last => .ok (bucketCondition dialect type column start last)
    | none => .error (.parse type text .dateOutOfRange)
  | .time, .time time => .ok (timeCondition dialect column time)
  | .percentage, .decimal d =>
    -- an integer column holds percentage points and not the fraction
    if entity.schema.columnType? field = some .integer then
      match percentPoints? d with
      | some points => .ok (.equals column (.integer points))
      | none => .error (.parse .percentage text .outOfRange)
    else .ok (decimalCondition fuzzy column text d)
  | .decimal, .decimal d | .float, .decimal d | .currency, .decimal d =>
    .ok (decimalCondition fuzzy column text d)
  | .duration, .duration seconds => .ok (durationCondition fuzzy column text seconds)
  | .string, .text value | .text, .text value | .email, .text value =>
    .ok (textCondition dialect fuzzy column value)
  | type, _ => .error (.unsupportedType type.name)

/-! ## The condition of a search in all fields -/

/-- A key from the item of a list, if it is a number or a text. -/
def keyOfItem? : Json → Option Key
  | .number n => n.int64?.map .integer
  | .string s => some (((readInt64? s.toList).map .integer).getD (.text s))
  | _ => none

/-- The keys that a value names: an integer, the canonical text of one, or the items of a list. -/
def keysOfValue? : Json → Option KeySet
  | .number n => n.int64?.map fun id => .ofList [.integer id]
  -- `007` is a text like any other, as no integer is printed that way
  | .string s =>
    ((readInt64? s.toList).filter fun id => intText id.toInt == s).map fun id =>
      .ofList [.integer id]
  | .array items => some (.ofList (items.filterMap keyOfItem?))
  | _ => none

/-- The condition that one of some fields matches a text; without fields no row does. -/
def anyTextCondition (dialect : Dialect) (entity : Entity) (fields : List String) (fuzzy : Bool)
    (text : String) : Fragment :=
  if fields.isEmpty then .never
  else
    .join " OR " (fields.map fun field =>
      textCondition dialect fuzzy (entity.sqlColumn field) text)

/-- The condition of a search in all fields, with what is counted about it: a test of the primary
key if the value names keys, and a match of the text otherwise. -/
def anyCondition (dialect : Dialect) (entity : Entity) (value : Json)
    (options : SearchAnyOptions) : CompileEvent × Fragment :=
  match keysOfValue? value with
  | some keys => (.searchAnyKey, keys.inList entity.keyColumn)
  | none =>
    (.searchAnyText, anyTextCondition dialect entity (options.fields.getD entity.searchFields)
      options.fuzzy value.typedText)

/-! ## Aggregates -/

/-- The functions over groups of rows. -/
def aggregates : List String := ["SUM(", "COUNT(", "MAX(", "MIN(", "AVG("]

/-- Whether an expression calls a function over groups, in any case. -/
def isAggregate (column : String) : Bool :=
  aggregates.any fun a => occursIn a.toList (asciiUpper column.toList)

/-- A value as a parameter. -/
def valueParam : Json → Param
  | .bool b => .boolean b
  | .number n => (n.int64?.map Param.integer).getD (.float n.toBinary64)
  | other => .text other.typedText

end FieldQuery.Compile

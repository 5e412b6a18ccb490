import FieldQuery.Text.DecimalDigit
import FieldQuery.Value.Term

/-!
# Durations

A duration is a number of seconds. It is written as a plain number, as hours and minutes with
optional seconds between colons, or as amounts with units; a minus sign in front negates it. Of
amounts with units whatever stands between them is passed over, and the sum is rounded to whole
seconds.
-/

namespace FieldQuery.Value

open FieldQuery.Number FieldQuery.Text

/-! ## Units -/

/-- A unit of time. -/
inductive DurationUnit where
  | day
  | hour
  | minute
  | second
deriving DecidableEq, Repr

/-- The seconds of a unit. -/
def DurationUnit.seconds : DurationUnit → Nat
  | day => 86400
  | hour => 3600
  | minute => 60
  | second => 1

/-- The seconds of a unit as a decimal. -/
def DurationUnit.factor (unit : DurationUnit) : Decimal :=
  Decimal.ofNat unit.seconds (by cases unit <;> decide)

/-- The spellings of the units. Where one spelling begins another, the longer one comes first. -/
def unitSpellings : List (String × DurationUnit) :=
  [("days", .day), ("day", .day), ("d", .day),
   ("hours", .hour), ("hour", .hour), ("hrs", .hour), ("hr", .hour), ("h", .hour),
   ("minutes", .minute), ("minute", .minute), ("mins", .minute), ("min", .minute), ("m", .minute),
   ("seconds", .second), ("second", .second), ("secs", .second), ("sec", .second), ("s", .second)]

/-- Whether a character is a form of a small letter. The long s is a form of `s`. -/
def isFormOf (letter c : Char) : Bool :=
  c.toLower = letter || (letter = 's' && c = 'ſ')

/-- The rest of a text after a word in any case, if it begins with the word. -/
def afterWord? : List Char → List Char → Option (List Char)
  | [], text => some text
  | _ :: _, [] => none
  | letter :: word, c :: text => if isFormOf letter c then afterWord? word text else none

/-- The unit a text begins with, and the rest of the text. -/
def readUnit? (text : List Char) : Option (DurationUnit × List Char) :=
  unitSpellings.findSome? fun (word, unit) =>
    (afterWord? word.toList text).map fun rest => (unit, rest)

/-! ## Amounts with units -/

/-- An amount with a unit as it was found in a text. -/
structure DurationTerm where
  amount : List Char
  unit : DurationUnit
  /-- The number of characters from the first digit to the end of the unit. -/
  length : Nat
deriving DecidableEq, Repr

/-- The digits at the start of a text, with the fraction that may follow them, and the rest. -/
def readAmount (text : List Char) : List Char × List Char :=
  let whole := text.takeWhile isDecimalDigit
  let rest := text.dropWhile isDecimalDigit
  match rest with
  | '.' :: places =>
    let fraction := places.takeWhile isDecimalDigit
    -- a point with no digit after it is left to what follows the amount
    if fraction.isEmpty then (whole, rest)
    else (whole ++ '.' :: fraction, places.dropWhile isDecimalDigit)
  | _ => (whole, rest)

/-- The amount with a unit that a text begins with. White space may stand before the unit. -/
def readTerm? (text : List Char) : Option DurationTerm :=
  if (text.takeWhile isDecimalDigit).isEmpty then none
  else
    let (amount, rest) := readAmount text
    (readUnit? (trimStart rest)).map fun (unit, rest) =>
      { amount, unit, length := text.length - rest.length }

/-- The amounts with units of a text from left to right; the first `skip` characters still belong
to the one before. -/
def durationTermsFrom (skip : Nat) : List Char → List DurationTerm
  | [] => []
  | c :: rest =>
    match skip with
    | n + 1 => durationTermsFrom n rest
    | 0 =>
      match readTerm? (c :: rest) with
      | some term => term :: durationTermsFrom (term.length - 1) rest
      | none => durationTermsFrom 0 rest

/-- The amounts with units of a text from left to right. -/
def durationTerms (text : List Char) : List DurationTerm :=
  durationTermsFrom 0 text

/-- The sum of amounts with units, on top of `total`. -/
def sumTerms (total : Decimal) : List DurationTerm → Except ParseFault Decimal
  | [] => .ok total
  | term :: rest => do
    let amount ← (Decimal.read term.amount).mapError .decimal
    let seconds ← orFault .outOfRange (amount.mul? term.unit.factor)
    let total ← orFault .outOfRange (total.add? seconds)
    sumTerms total rest

/-! ## Clock form -/

/-- A run of one or two decimal digits. -/
def isClockPart (text : List Char) : Bool :=
  (text.length == 1 || text.length == 2) && text.all isDecimalDigit

/-- The hours, minutes and seconds between the colons of a clock form. -/
def clockParts? (text : List Char) : Option (List Char × List Char × List Char) :=
  match text.splitOnP (· == ':') with
  | [h, m] =>
    -- only the hours may have any number of digits
    if !h.isEmpty && h.all isDecimalDigit && isClockPart m then some (h, m, ['0']) else none
  | [h, m, s] =>
    if !h.isEmpty && h.all isDecimalDigit && isClockPart m && isClockPart s then some (h, m, s)
    else none
  | _ => none

/-- The seconds of a clock form, if its numbers are in range. -/
def clockSeconds? (h m s : List Char) : Option Int64 := do
  let limit := 0x7FFFFFFFFFFFFFFF
  -- each number has to fit on its own, not only their sum
  let hours ← readNatUpTo? limit h
  let minutes ← readNatUpTo? limit m
  let seconds ← readNatUpTo? limit s
  toInt64? (hours * 3600 + minutes * 60 + seconds : Nat)

/-! ## Reading -/

/-- The seconds of a duration without its sign. -/
def unsignedSeconds (body : List Char) : Except ParseFault Int64 :=
  -- A plain number is tried first, then the clock form, then amounts with units.
  match Decimal.read body with
  | .ok d => orFault .outOfRange (toInt64? d.round)
  | .error _ =>
    match clockParts? body with
    | some (h, m, s) => orFault .outOfRange (clockSeconds? h m s)
    | none =>
      match durationTerms body with
      | [] => .error .unrecognisedDuration
      | terms => do
        let total ← sumTerms .zero terms
        orFault .outOfRange (toInt64? total.round)

/-- A trimmed text divided into its sign and what the sign applies to. -/
def splitSign (text : List Char) : Bool × List Char :=
  match trim text with
  | '-' :: rest => (true, trim rest)
  | body => (false, body)

/-- The seconds of a duration. -/
def durationSeconds (text : List Char) : Except ParseFault Int64 := do
  let (negative, body) := splitSign text
  let seconds ← unsignedSeconds body
  -- the size has to fit before the sign is applied
  if negative then orFault .outOfRange (toInt64? (-seconds.toInt)) else pure seconds

/-- Reads a duration. -/
def parseDuration (text : String) : Except QueryError Int64 :=
  reported .duration text (durationSeconds text.toList)

/-- Whether a duration is written as a whole number of seconds and nothing else. -/
def isBareSeconds (text : String) : Bool :=
  let body := (splitSign text.toList).2
  !body.isEmpty && body.all Char.isDigit

/-! ## Writing -/

/-- The text of a duration in hours, minutes and seconds. -/
def formatDuration (seconds : Int64) : String :=
  let n := seconds.toInt.natAbs
  String.ofList ((if seconds.toInt < 0 then ['-'] else []) ++ natDigits (n / 3600) ++ ['h', ' ']
    ++ natDigits (n % 3600 / 60) ++ ['m', ' '] ++ natDigits (n % 60) ++ ['s'])

end FieldQuery.Value

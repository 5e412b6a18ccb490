import FieldQuery.Text.DecimalDigit
import FieldQuery.Value.Term

/-!
# Dates and times

The components of a date are the runs of digits of its text, whatever stands between them. The year
has four digits and comes first, or after the month, or after month and day. Missing components
take their least value, and their number gives the precision. A time of day is written in digits
with optional colons and a mark for the half of the day, or as a whole date.
-/

namespace FieldQuery.Value

open FieldQuery.Calendar FieldQuery.Text

/-! ## Dates -/

/-- The runs of digits of a date, by what they stand for. -/
structure DateRuns where
  year : List Char
  month : Option (List Char)
  day : Option (List Char)
  /-- Hour, minute and second, and what follows them. -/
  clock : List (List Char)
deriving DecidableEq, Repr

/-- A run that takes up four bytes can be a year. -/
def isYearRun (run : List Char) : Bool :=
  byteLength run == 4

/-- Assigns the runs of a date in one of the three orders. -/
def DateRuns.assign (runs : List (List Char)) : Except ParseFault DateRuns :=
  match runs with
  | [] => .error .noDateComponents
  | y :: rest =>
    -- Year first.
    if isYearRun y then .ok ⟨y, rest[0]?, rest[1]?, rest.drop 2⟩
    else
      match rest with
      -- Month, year.
      | [y'] => if isYearRun y' then .ok ⟨y', some y, none, []⟩ else .error .unrecognisedDateOrder
      -- Month, day, year, and the time.
      | d :: y' :: clock =>
        if isYearRun y' then .ok ⟨y', some y, some d, clock⟩ else .error .unrecognisedDateOrder
      | [] => .error .unrecognisedDateOrder

/-- The number of a component, or its least value where it is missing. -/
def componentOr (least : Nat) : Option (List Char) → Except ParseFault Nat
  | none => .ok least
  | some run => orFault .componentOutOfRange (readNatUpTo? 0xFFFFFFFF run)

/-- The hour on a clock of twenty-four hours, if the text names a half of the day. -/
def adjustHour (afternoon morning : Bool) (hour : Nat) : Nat :=
  if afternoon && hour < 12 then hour + 12
  else if morning && hour == 12 then 0
  else hour

/-- The start and the precision of the bucket a text stands for. -/
def timestampOf (text : List Char) : Except ParseFault (Moment × Precision) := do
  let runs := digitRuns text
  let assigned ← DateRuns.assign runs
  let year ← orFault .yearOutOfRange (readNat? assigned.year)
  let month ← componentOr 1 assigned.month
  let day ← componentOr 1 assigned.day
  let hour ← componentOr 0 assigned.clock[0]?
  let minute ← componentOr 0 assigned.clock[1]?
  let second ← componentOr 0 assigned.clock[2]?
  -- The marks count wherever they stand in the text.
  let lower := asciiLower text
  let hour := adjustHour (occursIn ['p', 'm'] lower) (occursIn ['a', 'm'] lower) hour
  let date ← orFault .invalidDate (Date.of? year month day)
  let time ← orFault .invalidTime (TimeOfDay.of? hour minute second)
  -- runs after the second count no further
  pure (⟨date, time⟩, Precision.ofComponents runs.length)

/-- Reads a date for a field of a given type. -/
def parseTimestamp (type : FieldType) (text : String) : Except QueryError (Moment × Precision) :=
  reported type text (timestampOf text.toList)

/-! ## Times of day -/

/-- The digits of a time of day and the mark for the half of the day. -/
structure ClockText where
  hour : List Char
  minute : Option (List Char)
  second : Option (List Char)
  /-- The small letter `a` or `p`. -/
  half : Option Char
deriving DecidableEq, Repr

/-- A text without its first character if that is a form of a given small letter or sign. -/
def dropOptional (sign : Char) : List Char → List Char
  | c :: rest => if c.toLower = sign then rest else c :: rest
  | [] => []

/-- What may follow the digits of a time: white space, a letter for the half of the day, and an `m`,
with points after the two letters. The result is the letter, if the text is of this form. -/
def readHalf? (text : List Char) : Option (Option Char) :=
  let text := trimStart text
  let (half, rest) :=
    match text with
    | c :: rest =>
      if c.toLower = 'a' ∨ c.toLower = 'p' then (some c.toLower, rest) else (none, c :: rest)
    | [] => (none, [])
  -- each of the three may be missing, but they come in this order
  let rest := dropOptional '.' (dropOptional 'm' (dropOptional '.' rest))
  if rest.isEmpty then some half else none

/-- The first `n` characters of a text and the rest, if there are as many and all are decimal
digits. -/
def takeDigits? (n : Nat) (text : List Char) : Option (List Char × List Char) :=
  let run := text.take n
  if run.length = n ∧ run.all isDecimalDigit then some (run, text.drop n) else none

/-- The ways to read the hour, with two digits before one. -/
def hourReadings (text : List Char) : List (List Char × List Char) :=
  (takeDigits? 2 text).toList ++ (takeDigits? 1 text).toList

/-- The two digits after a colon. -/
def afterColon (text : List Char) : List (Option (List Char) × List Char) :=
  match text with
  | ':' :: rest => (takeDigits? 2 rest).toList.map fun (run, rest) => (some run, rest)
  | _ => []

/-- The ways to read the minute: after a colon, without one, or not at all. -/
def minuteReadings (text : List Char) : List (Option (List Char) × List Char) :=
  afterColon text ++ ((takeDigits? 2 text).toList.map fun (run, rest) => (some run, rest))
    ++ [(none, text)]

/-- The ways to read the second: after a colon, or not at all. -/
def secondReadings (text : List Char) : List (Option (List Char) × List Char) :=
  afterColon text ++ [(none, text)]

/-- The first reading of a time of day that takes up the whole text. -/
def readClock? (text : List Char) : Option ClockText :=
  (hourReadings text).findSome? fun (hour, rest) =>
    (minuteReadings rest).findSome? fun (minute, rest) =>
      (secondReadings rest).findSome? fun (second, rest) =>
        (readHalf? rest).map fun half => { hour, minute, second, half }

/-- The number of a part of a time, or zero where it is missing. -/
def partOr (fault : ParseFault) : Option (List Char) → Except ParseFault Nat
  | none => .ok 0
  | some run => orFault fault (readNat? run)

/-- The time of day a text stands for. -/
def timeOf (text : List Char) : Except ParseFault TimeOfDay := do
  let clock ← orFault .unrecognisedTime (readClock? text)
  let hour ← partOr .hourOutOfRange (some clock.hour)
  let minute ← partOr .minuteOutOfRange clock.minute
  let second ← partOr .secondOutOfRange clock.second
  let hour := adjustHour (clock.half == some 'p') (clock.half == some 'a') hour
  orFault .invalidTime (TimeOfDay.of? hour minute second)

/-- Whether a text is read as a whole date: it has several runs of digits, and one of them can be a
year. -/
def isWholeDate (text : List Char) : Bool :=
  let runs := digitRuns text
  1 < runs.length && runs.any isYearRun

/-- Reads a time of day. -/
def parseTime (text : String) : Except QueryError TimeOfDay :=
  let body := trim text.toList
  if isWholeDate body then
    (parseTimestamp .time (String.ofList body)).map fun (moment, _) => moment.time
  else
    reported .time text (timeOf body)

end FieldQuery.Value

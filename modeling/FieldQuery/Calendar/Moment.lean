import FieldQuery.Calendar.Date

/-!
# Moments

A time of day is a number of microseconds since midnight, and a moment is a time of day on a date.
Moving a moment by less than a day crosses at most one midnight.
-/

namespace FieldQuery.Calendar

open FieldQuery.Text

/-- The microseconds of a second. -/
def secondMicros : Nat := 1000000

/-- The microseconds of a minute. -/
def minuteMicros : Nat := 60000000

/-- The microseconds of an hour. -/
def hourMicros : Nat := 3600000000

/-- The microseconds of a day. -/
def dayMicros : Nat := 86400000000

/-- A time of day, to the microsecond. -/
structure TimeOfDay where
  micros : Nat
  micros_lt : micros < dayMicros
deriving DecidableEq, Repr

namespace TimeOfDay

/-- The start of the day. -/
def midnight : TimeOfDay :=
  ⟨0, by decide⟩

/-- The last microsecond of the day. -/
def last : TimeOfDay :=
  ⟨dayMicros - 1, by decide⟩

/-- The time with the given hour, minute, second and microsecond, if there is one. -/
def of? (hour minute second : Nat) (microsecond : Nat := 0) : Option TimeOfDay :=
  if h : hour < 24 ∧ minute < 60 ∧ second < 60 ∧ microsecond < 1000000 then
    some ⟨hour * hourMicros + minute * minuteMicros + second * secondMicros + microsecond, by
      simp only [hourMicros, minuteMicros, secondMicros, dayMicros]; omega⟩
  else none

/-- The hour of the day. -/
def hour (t : TimeOfDay) : Nat :=
  t.micros / hourMicros

/-- The minute of the hour. -/
def minute (t : TimeOfDay) : Nat :=
  t.micros / minuteMicros % 60

/-- The second of the minute. -/
def second (t : TimeOfDay) : Nat :=
  t.micros / secondMicros % 60

/-- The microsecond of the second. -/
def microsecond (t : TimeOfDay) : Nat :=
  t.micros % secondMicros

/-- The characters of hour, minute and second, with colons between them. -/
def digits (t : TimeOfDay) : List Char :=
  paddedDigits 2 t.hour ++ ':' :: paddedDigits 2 t.minute ++ ':' :: paddedDigits 2 t.second

end TimeOfDay

/-- A time of day on a date. -/
structure Moment where
  date : Date
  time : TimeOfDay
deriving DecidableEq, Repr

namespace Moment

/-- The start of a day. -/
def startOf (date : Date) : Moment :=
  ⟨date, .midnight⟩

/-- The moment one microsecond earlier. -/
def previous? (m : Moment) : Option Moment :=
  if m.time.micros = 0 then m.date.previous?.map fun d => ⟨d, .last⟩
  else some ⟨m.date, ⟨m.time.micros - 1, by have := m.time.micros_lt; omega⟩⟩

/-- The moment that is later by some microseconds, at most a day. -/
def later? (micros : Nat) (h : micros ≤ dayMicros) (m : Moment) : Option Moment :=
  if hlt : m.time.micros + micros < dayMicros then some ⟨m.date, ⟨m.time.micros + micros, hlt⟩⟩
  -- at most one midnight lies in between
  else
    m.date.next?.map fun d =>
      ⟨d, ⟨m.time.micros + micros - dayMicros, by have := m.time.micros_lt; omega⟩⟩

/-- The text of a moment to the second, as in `2024-03-05 10:30:00`. -/
def text (m : Moment) : String :=
  String.ofList (m.date.digits ++ ' ' :: m.time.digits)

/-- The text of a moment to the microsecond, as in `2024-03-05 10:30:00.000000`. -/
def preciseText (m : Moment) : String :=
  String.ofList
    (m.date.digits ++ ' ' :: m.time.digits ++ '.' :: paddedDigits 6 m.time.microsecond)

end Moment

end FieldQuery.Calendar

import FieldQuery.Text.Numeral

/-!
# Dates

Days of the proleptic Gregorian calendar, within the years that the engines' date arithmetic covers.
A date carries the proof that it exists, so stepping to a neighbouring day fails exactly at the two
ends of the calendar.
-/

namespace FieldQuery.Calendar

open FieldQuery.Text

/-- The first year of the calendar. -/
def firstYear : Int := -262143

/-- The last year of the calendar. -/
def lastYear : Int := 262142

/-- A year divisible by four, but of the full centuries only every fourth. -/
def isLeapYear (year : Int) : Bool :=
  year % 4 == 0 && (year % 100 != 0 || year % 400 == 0)

/-- The number of days of a month. -/
def daysInMonth (year : Int) (month : Nat) : Nat :=
  match month with
  | 2 => if isLeapYear year then 29 else 28
  | 4 | 6 | 9 | 11 => 30
  | _ => 31

/-- The days that exist. -/
def IsDate (year : Int) (month day : Nat) : Prop :=
  firstYear ≤ year ∧ year ≤ lastYear ∧ 1 ≤ month ∧ month ≤ 12 ∧ 1 ≤ day ∧
    day ≤ daysInMonth year month

instance (year : Int) (month day : Nat) : Decidable (IsDate year month day) := by
  unfold IsDate; infer_instance

/-- A day of the calendar. -/
structure Date where
  year : Int
  month : Nat
  day : Nat
  valid : IsDate year month day
deriving DecidableEq, Repr

namespace Date

/-- The day with the given numbers, if it exists. -/
def of? (year : Int) (month day : Nat) : Option Date :=
  if h : IsDate year month day then some ⟨year, month, day, h⟩ else none

/-- The next day. -/
def next? (d : Date) : Option Date :=
  if d.day < daysInMonth d.year d.month then of? d.year d.month (d.day + 1)
  else if d.month < 12 then of? d.year (d.month + 1) 1
  else of? (d.year + 1) 1 1

/-- The day before. -/
def previous? (d : Date) : Option Date :=
  if 1 < d.day then of? d.year d.month (d.day - 1)
  else if 1 < d.month then of? d.year (d.month - 1) (daysInMonth d.year (d.month - 1))
  else of? (d.year - 1) 12 31

/-- A year in four digits; outside 0 to 9999 it has a sign. -/
def yearDigits (year : Int) : List Char :=
  if 0 ≤ year ∧ year ≤ 9999 then paddedDigits 4 year.natAbs
  else (if year < 0 then '-' else '+') :: paddedDigits 4 year.natAbs

/-- The characters of year, month and day, with hyphens between them. -/
def digits (d : Date) : List Char :=
  yearDigits d.year ++ '-' :: paddedDigits 2 d.month ++ '-' :: paddedDigits 2 d.day

/-- The text of a date, as in `2024-03-05`. -/
def text (d : Date) : String :=
  String.ofList d.digits

end Date

end FieldQuery.Calendar

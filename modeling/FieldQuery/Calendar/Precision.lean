import FieldQuery.Calendar.Moment

/-!
# Precision of a date

A date that is written with fewer components stands for a bucket of moments: a year, a month, a day,
an hour, a minute or a second. The bucket starts at the moment that fills the missing components
with their least values, and ends one microsecond before the next bucket.
-/

namespace FieldQuery.Calendar

/-- How many components of a date are written. -/
inductive Precision where
  | year
  | month
  | day
  | hour
  | minute
  | second
deriving DecidableEq, Repr, Inhabited

namespace Precision

/-- The name of a precision. -/
def name : Precision → String
  | year => "year"
  | month => "month"
  | day => "day"
  | hour => "hour"
  | minute => "minute"
  | second => "second"

/-- The number of components that a precision stands for. -/
def components : Precision → Nat
  | year => 1
  | month => 2
  | day => 3
  | hour => 4
  | minute => 5
  | second => 6

/-- The precision of a number of components. -/
def ofComponents : Nat → Precision
  | 0 | 1 => year
  | 2 => month
  | 3 => day
  | 4 => hour
  | 5 => minute
  | _ => second

/-- The start of the bucket after the one that starts at a moment. -/
def nextStart? (p : Precision) (start : Moment) : Option Moment :=
  let date := start.date
  match p with
  | year => (Date.of? (date.year + 1) 1 1).map .startOf
  | month =>
    (if date.month = 12 then Date.of? (date.year + 1) 1 1
     else Date.of? date.year (date.month + 1) 1).map .startOf
  -- from a day up a bucket ends with a day, whatever the time its start was given
  | day => date.next?.map .startOf
  | hour => start.later? hourMicros (by decide)
  | minute => start.later? minuteMicros (by decide)
  | second => start.later? secondMicros (by decide)

/-- The last moment of the bucket that starts at a moment. -/
def bucketEnd? (p : Precision) (start : Moment) : Option Moment :=
  (p.nextStart? start).bind Moment.previous?

end Precision

end FieldQuery.Calendar

/-!
# Dates and times of day

The calendar is the Gregorian one, carried back without end before its adoption: year
zero exists and leap years follow one rule throughout.  Years outside a fixed span are
not representable as dates.
-/

namespace RecordQuery.Calendar

/-- Whether hour and minute name a time of day. -/
def isTimeOfDay (hour minute : Nat) : Bool :=
  hour < 24 && minute < 60

/-- Every fourth year is a leap year, except for those centuries that four hundred
does not divide. -/
def isLeapYear (year : Int) : Bool :=
  year % 4 = 0 && (year % 100 ≠ 0 || year % 400 = 0)

/-- The number of days of a month, zero if there is no such month. -/
def daysInMonth (year : Int) (month : Nat) : Nat :=
  match month with
  | 1 | 3 | 5 | 7 | 8 | 10 | 12 => 31
  | 4 | 6 | 9 | 11 => 30
  | 2 => if isLeapYear year then 29 else 28
  | _ => 0

/-- The first year that a date can have. -/
def firstYear : Int := -262143

/-- The last year that a date can have. -/
def lastYear : Int := 262142

/-- Whether year, month and day name a date. -/
def isDate (year : Int) (month day : Nat) : Bool :=
  firstYear ≤ year && year ≤ lastYear && 1 ≤ day && day ≤ daysInMonth year month

/-- The two halves of a twelve-hour clock. -/
inductive DayHalf where
  | am
  | pm
  deriving DecidableEq, Repr

namespace DayHalf

/-- The half as it is written, in lower case. -/
def spelling : DayHalf → String
  | am => "am"
  | pm => "pm"

/-- The hour of the day that a twelve-hour clock means, if it shows that hour at all. -/
def hour? (half : DayHalf) (hour : Nat) : Option Nat :=
  if 1 ≤ hour ∧ hour ≤ 12 then
    some (hour % 12 + (match half with | am => 0 | pm => 12))
  else
    none

end DayHalf

end RecordQuery.Calendar

import RecordQuery.Calendar
import RecordQuery.Number.Decimal
import RecordQuery.Operator

/-!
# Why a literal is refused

A text can have the shape of a literal and still stand for no value.  A fault tells
what the text was taken for and why it failed.  The two `other` cases let a host that
checks literals of its own report its findings in the same form.
-/

namespace RecordQuery

/-- What a refused text was taken for. -/
inductive LiteralKind where
  | integer
  | decimal
  | time
  | date
  | dateTime
  | operator
  | other (name : String)
  deriving DecidableEq, Repr

/-- The name of a kind in messages. -/
def LiteralKind.name : LiteralKind → String
  | integer => "integer"
  | decimal => "decimal"
  | time => "time"
  | date => "date"
  | dateTime => "datetime"
  | operator => "operator"
  | other name => name

/-- One of the three parts of a date. -/
inductive DatePart where
  | year
  | month
  | day
  deriving DecidableEq, Repr

/-- The name of a part in messages. -/
def DatePart.name : DatePart → String
  | year => "year"
  | month => "month"
  | day => "day"

/-- Why a text was refused. -/
inductive FaultReason where
  | integer (fault : IntegerFault)
  | decimal (fault : DecimalFault)
  /-- A time without a colon. -/
  | missingColon
  /-- A date and time without white space between them. -/
  | missingTime
  | badHour (text : String)
  | badMinute (text : String)
  /-- What follows the minutes is neither `am` nor `pm`. -/
  | unknownSuffix (text : String)
  /-- An hour that a twelve-hour clock does not show. -/
  | hourOutOfRange (hour : Nat) (half : Calendar.DayHalf)
  | notTimeOfDay (text : String)
  /-- A part of a date that is absent or no number. -/
  | badDatePart (part : DatePart) (text : String)
  | notCalendarDate (text : String)
  | unknownComparison (text : String)
  | other (text : String)
  deriving DecidableEq, Repr

/-- The wording of a reason. -/
def FaultReason.message : FaultReason → String
  | integer fault => fault.message
  | decimal fault => fault.message
  | missingColon => "missing ':'"
  | missingTime => "missing time part"
  | badHour text => "bad hour '" ++ text ++ "'"
  | badMinute text => "bad minute '" ++ text ++ "'"
  | unknownSuffix text => "unknown suffix '" ++ text ++ "'"
  | hourOutOfRange hour half =>
    "hour " ++ String.ofList (Nat.toDigits 10 hour) ++ " is out of range for " ++ half.spelling
  | notTimeOfDay text => text ++ " is not a time of day"
  | badDatePart part text => "bad " ++ part.name ++ " in '" ++ text ++ "'"
  | notCalendarDate text => text ++ " is not a calendar date"
  | unknownComparison text => Comparison.unknownMessage text
  | other text => text

/-- What a refused text was taken for, and why it was refused. -/
structure LiteralFault where
  kind : LiteralKind
  reason : FaultReason
  deriving DecidableEq, Repr

end RecordQuery

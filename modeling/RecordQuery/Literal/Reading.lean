import RecordQuery.Literal.Basic
import RecordQuery.Literal.Fault
import RecordQuery.Text.Blank

/-!
# Reading literals

A literal is read from the text that was recognised as one.  A quoted string loses its
quotes and its backslashes, a number is converted, and a time or date keeps its text.
Times and dates are held against clock and calendar only if that is asked for; then
the first thing that is wrong is reported, the date of a date and time before its time.
-/

namespace RecordQuery.Literal

/-! ## Strings and numbers -/

/-- Strips one character at each end and deletes every backslash, so a quote that was
written behind a backslash stays and the backslash goes. -/
def unquote (cs : List Char) : List Char :=
  cs.tail.dropLast.filter (· ≠ '\\')

/-- Reads a number: a decimal if there is a point in it, else a whole number. -/
def readNumber (cs : List Char) : Except LiteralFault Literal :=
  if cs.contains '.' then
    match Decimal.read cs with
    | .ok value => .ok (.decimal value)
    | .error fault => .error ⟨.decimal, .decimal fault⟩
  else
    match Numeral.readInt64 cs with
    | .ok value => .ok (.integer value)
    | .error fault => .error ⟨.integer, .integer fault⟩

/-! ## Clock and calendar -/

/-- Cuts a text at the first character of a class, which belongs to neither part.
Without such a character all of the text is in the first part. -/
def cutAt (isCut : Char → Bool) (cs : List Char) : List Char × Option (List Char) :=
  match cs.dropWhile fun c => !isCut c with
  | [] => (cs, none)
  | _ :: after => (cs.takeWhile fun c => !isCut c, some after)

/-- The half of the day that a suffix names, in any letter case.  White space around
the suffix does not count, and without a suffix there is no half. -/
def readHalf (suffix : List Char) : Except FaultReason (Option Calendar.DayHalf) :=
  let word := String.ofList ((Text.trimBlanks suffix).map Char.toLower)
  if word = "" then .ok none
  else if word = Calendar.DayHalf.am.spelling then .ok (some .am)
  else if word = Calendar.DayHalf.pm.spelling then .ok (some .pm)
  else .error (.unknownSuffix word)

/-- The hour of the day, if the suffix goes with the hour. -/
def hourOfDay (hour : Nat) : Option Calendar.DayHalf → Except FaultReason Nat
  | none => .ok hour
  | some half =>
    match half.hour? hour with
    | some hour => .ok hour
    | none => .error (.hourOutOfRange hour half)

/-- Holds a time, `H:M` with an optional suffix, against the clock. -/
def checkTime (cs : List Char) : Except FaultReason Unit :=
  match cutAt (· == ':') cs with
  | (_, none) => .error .missingColon
  | (hourText, some rest) => do
    let minuteText := rest.takeWhile Char.isDigit
    let suffix := rest.dropWhile Char.isDigit
    let some hour := Numeral.readCount? hourText
      | .error (.badHour (String.ofList hourText))
    let some minute := Numeral.readCount? minuteText
      | .error (.badMinute (String.ofList minuteText))
    let half ← readHalf suffix
    let hour ← hourOfDay hour half
    if Calendar.isTimeOfDay hour minute then .ok ()
    else .error (.notTimeOfDay (String.ofList cs))

/-- A part of a date as a number. -/
def datePart (text : List Char) (part : DatePart) (digits : Option (List Char)) :
    Except FaultReason Nat :=
  match digits.bind Numeral.readCount? with
  | some value => .ok value
  | none => .error (.badDatePart part (String.ofList text))

/-- The year that a count of thirty-two bits stands for: its upper half counts down
from minus one. -/
def yearOfCount (count : Nat) : Int :=
  (count : Int).bmod (Numeral.maxCount + 1)

/-- Holds a date, `Y-M-D`, against the calendar. -/
def checkDate (cs : List Char) : Except FaultReason Unit := do
  let (yearText, afterYear) := cutAt (· == '-') cs
  let (monthText, dayText) :=
    match afterYear with
    | none => (none, none)
    | some rest =>
      let (monthText, dayText) := cutAt (· == '-') rest
      (some monthText, dayText)
  let year ← datePart cs .year (some yearText)
  let month ← datePart cs .month monthText
  let day ← datePart cs .day dayText
  if Calendar.isDate (yearOfCount year) month day then .ok ()
  else .error (.notCalendarDate (String.ofList cs))

/-- Holds a date and time, with white space between the two, against calendar and
clock. -/
def checkDateTime (cs : List Char) : Except FaultReason Unit :=
  match cutAt Text.isBlank cs with
  | (_, none) => .error .missingTime
  | (dateText, some timeText) => do
    checkDate dateText
    checkTime (Text.dropBlanks timeText)

/-! ## Times and dates -/

/-- Reads a literal that keeps its text, after a check if one is asked for. -/
def readChecked (validate : Bool) (kind : LiteralKind) (check : List Char → Except FaultReason Unit)
    (make : String → Literal) (cs : List Char) : Except LiteralFault Literal :=
  if validate then
    match check cs with
    | .ok () => .ok (make (String.ofList cs))
    | .error reason => .error ⟨kind, reason⟩
  else
    .ok (make (String.ofList cs))

/-- Reads a time of day. -/
def readTime (validate : Bool) : List Char → Except LiteralFault Literal :=
  readChecked validate .time checkTime .time

/-- Reads a date. -/
def readDate (validate : Bool) : List Char → Except LiteralFault Literal :=
  readChecked validate .date checkDate .date

/-- Reads a date and a time of day. -/
def readDateTime (validate : Bool) : List Char → Except LiteralFault Literal :=
  readChecked validate .dateTime checkDateTime .dateTime

end RecordQuery.Literal

/-!
# Whole numbers in decimal notation

A numeral is read digit by digit from the left, and reading stops at the first thing
that is wrong: a character that is no digit, or a digit that takes the value out of
range.  So of two faults in one text the one further left is reported.
-/

namespace RecordQuery

/-- Why a text is no whole number. -/
inductive IntegerFault where
  /-- There is nothing to read. -/
  | empty
  /-- A character is no digit, or no digit follows the sign. -/
  | invalidDigit
  /-- The value lies above the range. -/
  | tooLarge
  /-- The value lies below the range. -/
  | tooSmall
  deriving DecidableEq, Repr

namespace IntegerFault

/-- The wording of a fault. -/
def message : IntegerFault → String
  | empty => "cannot parse integer from empty string"
  | invalidDigit => "invalid digit found in string"
  | tooLarge => "number too large to fit in target type"
  | tooSmall => "number too small to fit in target type"

end IntegerFault

namespace Numeral

/-- The value of a decimal digit. -/
def digitValue (c : Char) : Nat :=
  c.toNat - '0'.toNat

/-- Reads digits on top of the value read so far.  The value may not exceed `limit`;
if it does, the fault is `beyond`. -/
def readOnto (limit : Nat) (beyond : IntegerFault) (value : Nat) :
    List Char → Except IntegerFault Nat
  | [] => .ok value
  | c :: cs =>
    if c.isDigit then
      let larger := 10 * value + digitValue c
      if larger ≤ limit then readOnto limit beyond larger cs else .error beyond
    else
      .error .invalidDigit

/-- Reads one digit or more, with no sign before them. -/
def readDigits (limit : Nat) (beyond : IntegerFault) : List Char → Except IntegerFault Nat
  | [] => .error .invalidDigit
  | c :: cs => readOnto limit beyond 0 (c :: cs)

/-- The largest whole number of sixty-four bits with a sign.  The smallest one is
further from zero by one. -/
def maxInt64 : Nat := 9223372036854775807

/-- The largest count of thirty-two bits. -/
def maxCount : Nat := 4294967295

/-- Reads a whole number of sixty-four bits with a sign, which may be left out. -/
def readInt64 : List Char → Except IntegerFault Int64
  | [] => .error .empty
  | '-' :: cs => (readDigits (maxInt64 + 1) .tooSmall cs).map fun n => Int64.ofInt (-(n : Int))
  | '+' :: cs => (readDigits maxInt64 .tooLarge cs).map fun n => Int64.ofInt n
  | cs => (readDigits maxInt64 .tooLarge cs).map fun n => Int64.ofInt n

/-- Reads a count of thirty-two bits.  A plus sign may stand before it. -/
def readCount? : List Char → Option Nat
  | '+' :: cs => (readDigits maxCount .tooLarge cs).toOption
  | cs => (readDigits maxCount .tooLarge cs).toOption

/-- A whole number as it is written: a minus sign if it is negative, and its digits. -/
def writeInt (n : Int) : List Char :=
  if n < 0 then '-' :: Nat.toDigits 10 n.natAbs else Nat.toDigits 10 n.natAbs

end Numeral

end RecordQuery

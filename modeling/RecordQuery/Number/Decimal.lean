import RecordQuery.Number.Integer

/-!
# Decimal fractions

A decimal is a whole coefficient over a power of ten.  The coefficient has at most
ninety-six bits and a sign, and the scale, the number of digits behind the point, is at
most 28.  The scale is part of a decimal: `1.50` and `1.5` are different decimals of
one value, and equality `==` compares values.

Reading keeps every digit that fits.  Behind the point reading ends where the next
digit would not fit any more; that one digit then rounds the coefficient, half away
from zero, and the digits behind it have no say.  Before the point a digit that does
not fit is an overflow.

Low lines may separate digits, and nearly everywhere they are passed over.  The
exception is a low line behind the last place that a decimal has: if the coefficient is
short there, the low line holds the place of the rounding digit, and nothing is rounded.
-/

namespace RecordQuery

/-- Why a text is no decimal. -/
inductive DecimalFault where
  /-- No digit stands on either side of the point. -/
  | noDigits
  /-- A second point. -/
  | twoPoints
  /-- A low line with no digit before it. -/
  | leadingSeparator
  /-- A character that has no place in a decimal. -/
  | unknownCharacter
  /-- The part before the point is too long. -/
  | tooManyDigits
  /-- Rounding leads out of range, with no place behind the point to give up. -/
  | roundingOverflow
  deriving DecidableEq, Repr

namespace DecimalFault

/-- The wording of a fault. -/
def message : DecimalFault → String
  | noDigits => "Invalid decimal: no digits found"
  | twoPoints => "Invalid decimal: two decimal points"
  | leadingSeparator => "Invalid decimal: must start lead with a number"
  | unknownCharacter => "Invalid decimal: unknown character"
  | tooManyDigits => "Invalid decimal: overflow from too many digits"
  | roundingOverflow => "Invalid decimal: overflow from mantissa after rounding"

end DecimalFault

/-- What the magnitude of a coefficient stays below: two to the power of ninety-six. -/
def Decimal.coefficientBound : Nat := 79228162514264337593543950336

/-- The largest scale. -/
def Decimal.maxScale : Nat := 28

/-- A decimal fraction, its coefficient over ten to the power of its scale. -/
structure Decimal where
  /-- The digits of the decimal, without their point. -/
  coefficient : Int
  /-- How many of the digits stand behind the point. -/
  scale : Nat
  coefficient_lt : coefficient.natAbs < Decimal.coefficientBound
  scale_le : scale ≤ Decimal.maxScale

namespace Decimal

/-! ## Equality of value -/

/-- Whether two decimals have the same value. -/
def sameValue (a b : Decimal) : Bool :=
  a.coefficient * (Nat.pow 10 b.scale : Nat) == b.coefficient * (Nat.pow 10 a.scale : Nat)

instance : BEq Decimal := ⟨sameValue⟩

/-! ## Reading -/

/-- The digits read so far, without their sign. -/
structure Digits where
  /-- The value of the digits, without their point. -/
  mantissa : Nat
  /-- How many of them stand behind the point. -/
  scale : Nat
  mantissa_lt : mantissa < coefficientBound
  scale_le : scale ≤ maxScale

/-- The decimal with the given digits. -/
def ofDigits (negative : Bool) (digits : Digits) : Decimal where
  coefficient := if negative then -(digits.mantissa : Int) else digits.mantissa
  scale := digits.scale
  coefficient_lt := by
    have := digits.mantissa_lt
    split <;> omega
  scale_le := digits.scale_le

/-- Rounds by the first digit that does not fit.  If rounding up leaves the range, one
place behind the point is given up. -/
def Digits.roundBy (digits : Digits) (digit : Nat) : Except DecimalFault Digits :=
  if digit < 5 then
    .ok digits
  else if small : digits.mantissa + 1 < coefficientBound then
    .ok ⟨digits.mantissa + 1, digits.scale, small, digits.scale_le⟩
  else if digits.scale = 0 then
    .error .roundingOverflow
  else
    .ok ⟨(digits.mantissa + 1 + 4) / 10, digits.scale - 1,
      by have := digits.mantissa_lt; unfold coefficientBound at *; omega,
      by have := digits.scale_le; omega⟩

/-- The fault of a character that is neither a digit nor a separator that may stand
where it does. -/
def faultOf (c : Char) : DecimalFault :=
  if c = '.' then .twoPoints else if c = '_' then .leadingSeparator else .unknownCharacter

/-- What a short coefficient stays below when its last digit is left out.  Such a
coefficient fits sixty-four bits, whatever its last digit is. -/
def shortBound : Nat := 1844674407370954906

/-- Whether a low line ends the digits: no place is left behind the point, and the
coefficient is short. -/
def Digits.endAtSeparator (digits : Digits) : Bool :=
  digits.scale = maxScale && digits.mantissa / 10 < shortBound

/-- Looks through the digits that have no say any more. -/
def checkRest : List Char → Except DecimalFault Unit
  | [] => .ok ()
  | c :: cs => if c.isDigit || c = '_' then checkRest cs else .error (faultOf c)

/-- Reads what stands behind the point.  `begun` tells whether a digit has been seen. -/
def readFraction (digits : Digits) (begun : Bool) :
    List Char → Except DecimalFault Digits
  | [] => if begun then .ok digits else .error .noDigits
  | c :: cs =>
    if c.isDigit then
      if room : 10 * digits.mantissa + Numeral.digitValue c < coefficientBound ∧
          digits.scale < maxScale then
        readFraction ⟨10 * digits.mantissa + Numeral.digitValue c, digits.scale + 1,
          room.1, room.2⟩ true cs
      else do
        let rounded ← digits.roundBy (Numeral.digitValue c)
        checkRest cs
        return rounded
    else if c = '_' && begun then
      if digits.endAtSeparator then do
        checkRest cs
        return digits
      else
        readFraction digits begun cs
    else
      .error (faultOf c)

/-- Reads digits up to the point, if there is one, and then what stands behind it. -/
def readWhole (value : Nat) (value_lt : value < coefficientBound) (begun : Bool) :
    List Char → Except DecimalFault Digits
  | [] => if begun then .ok ⟨value, 0, value_lt, Nat.zero_le _⟩ else .error .noDigits
  | c :: cs =>
    if c.isDigit then
      if room : 10 * value + Numeral.digitValue c < coefficientBound then
        readWhole (10 * value + Numeral.digitValue c) room true cs
      else
        .error .tooManyDigits
    else if c = '.' then
      readFraction ⟨value, 0, value_lt, Nat.zero_le _⟩ begun cs
    else if c = '_' && begun then
      readWhole value value_lt begun cs
    else
      .error (faultOf c)

/-- Reads a decimal: an optional sign, digits, and an optional point among them.  Low
lines may separate digits. -/
def read : List Char → Except DecimalFault Decimal
  | '-' :: cs => (readWhole 0 (by decide) false cs).map (ofDigits true)
  | '+' :: cs => (readWhole 0 (by decide) false cs).map (ofDigits false)
  | cs => (readWhole 0 (by decide) false cs).map (ofDigits false)

/-! ## Writing -/

/-- The digits of the coefficient, with zeros in front so that at least one of them
stands before the point. -/
def paddedDigits (d : Decimal) : List Char :=
  let digits := Nat.toDigits 10 d.coefficient.natAbs
  List.replicate (d.scale + 1 - digits.length) '0' ++ digits

/-- A decimal as it is written: its sign if it is negative, its whole part, and all
digits of its scale behind a point.  With scale zero there is no point. -/
def write (d : Decimal) : List Char :=
  let digits := d.paddedDigits
  let whole := digits.take (digits.length - d.scale)
  let fraction := digits.drop (digits.length - d.scale)
  let sign := if d.coefficient < 0 then ['-'] else []
  sign ++ whole ++ (if d.scale = 0 then [] else '.' :: fraction)

/-- A decimal as text. -/
def display (d : Decimal) : String :=
  String.ofList d.write

end Decimal

end RecordQuery

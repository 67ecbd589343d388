import Mathlib.Algebra.Order.Field.Rat
import Mathlib.Tactic.FieldSimp
import Mathlib.Tactic.Linarith
import Mathlib.Tactic.NormNum
import Mathlib.Tactic.Positivity
import Mathlib.Tactic.Ring
import RecordQuery.Proofs.Number.ReadBack
import RecordQuery.Proofs.Token.Conversion
import RecordQuery.Proofs.Token.Shape

/-!
# What a number is read as

A text with the shape of a number stands for a rational number (`Numeral.writtenValue`).
Without a point it is read as exactly that number, or refused if the number does not fit
sixty-four bits.

With a point it need not be read exactly.  The reader takes digits as long as there is room
for them, and where there is none the next digit rounds.  What remains to be read behind the
digits taken so far is a fraction of one unit of the last place, so the whole walk is about
the number `(mantissa + fraction) / 10 ^ scale`, which no step changes until the rounding.
The outcome is that number where a decimal has its value, and otherwise a decimal that is
nearest among those of its own scale (`Decimal.Approximates`).  A number is refused only if
rounding leads out of range.
-/

namespace RecordQuery

variable {c : Char} {cs whole fraction text rest : List Char}

/-! ## Numbers as they are written -/

namespace Numeral

/-- The value of digits behind a point. -/
def fractionValue : List Char → ℚ
  | [] => 0
  | c :: cs => (digitValue c + fractionValue cs) / 10

/-- The value of digits that may have a point among them. -/
def magnitude (cs : List Char) : ℚ :=
  Nat.ofDigitChars 10 (cs.takeWhile (· ≠ '.')) 0 + fractionValue (cs.dropWhile (· ≠ '.')).tail

/-- The number that a text stands for. -/
def writtenValue : List Char → ℚ
  | '-' :: cs => -magnitude cs
  | '+' :: cs => magnitude cs
  | cs => magnitude cs

theorem fractionValue_bounds (hdigits : ∀ c ∈ cs, c.isDigit = true) :
    0 ≤ fractionValue cs ∧ fractionValue cs < 1 := by
  induction cs with
  | nil => exact ⟨le_refl _, one_pos⟩
  | cons c cs ih =>
      obtain ⟨hnonneg, hlt⟩ := ih fun d hd => hdigits d (List.mem_cons_of_mem c hd)
      have hdigit : (digitValue c : ℚ) ≤ 9 := by
        exact_mod_cast digitValue_le (hdigits c List.mem_cons_self)
      rw [fractionValue]
      constructor
      · positivity
      · linarith

/-- The first digit behind the point tells the fraction up to a tenth. -/
theorem fractionValue_cons_bounds (hdigits : ∀ d ∈ c :: cs, d.isDigit = true) :
    (digitValue c : ℚ) / 10 ≤ fractionValue (c :: cs) ∧
      fractionValue (c :: cs) < (digitValue c + 1) / 10 := by
  obtain ⟨hnonneg, hlt⟩ := fractionValue_bounds fun d hd => hdigits d (List.mem_cons_of_mem c hd)
  rw [fractionValue]
  constructor <;> linarith

theorem magnitude_point (hdigits : ∀ c ∈ whole, c.isDigit = true) (fraction : List Char) :
    magnitude (whole ++ '.' :: fraction) =
      Nat.ofDigitChars 10 whole 0 + fractionValue fraction := by
  have hplain : ∀ c ∈ whole, (decide (c ≠ '.')) = true := by
    intro c hc
    exact decide_eq_true (ne_of_isDigit (hdigits c hc) (by decide))
  rw [magnitude, List.takeWhile_append_of_pos hplain, List.dropWhile_append_of_pos hplain]
  simp

theorem magnitude_digits (hdigits : ∀ c ∈ whole, c.isDigit = true) :
    magnitude whole = Nat.ofDigitChars 10 whole 0 := by
  have hplain : ∀ c ∈ whole, (decide (c ≠ '.')) = true := by
    intro c hc
    exact decide_eq_true (ne_of_isDigit (hdigits c hc) (by decide))
  rw [magnitude, List.takeWhile_eq_self_iff.mpr hplain, List.dropWhile_eq_nil_iff.mpr hplain]
  simp [fractionValue]

theorem whole_le_magnitude (hwhole : ∀ c ∈ whole, c.isDigit = true)
    (hfraction : ∀ c ∈ fraction, c.isDigit = true) :
    (Nat.ofDigitChars 10 whole 0 : ℚ) ≤ magnitude (whole ++ '.' :: fraction) := by
  have hnonneg := (fractionValue_bounds hfraction).1
  rw [magnitude_point hwhole]
  linarith

/-- Digits in front have no sign. -/
theorem writtenValue_digits (hdigits : ∀ c ∈ whole, c.isDigit = true) (hne : whole ≠ []) :
    writtenValue (whole ++ rest) = magnitude (whole ++ rest) := by
  cases whole with
  | nil => exact absurd rfl hne
  | cons c whole =>
      have hc := hdigits c List.mem_cons_self
      rw [List.cons_append]
      unfold writtenValue
      split
      · next heq =>
          cases heq
          exact absurd hc (by decide)
      · next heq =>
          cases heq
          exact absurd hc (by decide)
      · rfl

/-- A whole number is written as what it is. -/
theorem writtenValue_writeInt (n : Int) : writtenValue (writeInt n) = n := by
  have hdigits := isDigit_toDigits n.natAbs
  have hvalue : (Nat.ofDigitChars 10 (Nat.toDigits 10 n.natAbs) 0 : ℚ) = (n.natAbs : Int) := by
    rw [Nat.ofDigitChars_ten_toDigits, Int.cast_natCast]
  unfold writeInt
  split
  · next hneg =>
      have habs : -(n.natAbs : Int) = n := by omega
      rw [writtenValue, magnitude_digits hdigits, hvalue, ← Int.cast_neg, habs]
  · next hnonneg =>
      have habs : (n.natAbs : Int) = n := by omega
      have hplain : writtenValue (Nat.toDigits 10 n.natAbs ++ []) =
          magnitude (Nat.toDigits 10 n.natAbs ++ []) :=
        writtenValue_digits hdigits Nat.toDigits_ne_nil
      rw [List.append_nil] at hplain
      rw [hplain, magnitude_digits hdigits, hvalue, habs]

theorem writeInt_injective : Function.Injective writeInt := by
  intro n m h
  have hvalue := congrArg writtenValue h
  rw [writtenValue_writeInt, writtenValue_writeInt] at hvalue
  exact_mod_cast hvalue

/-! ## Whole numbers -/

/-- Whether sixty-four bits hold the number. -/
def FitsInt64 (number : ℚ) : Prop :=
  -2 ^ 63 ≤ number ∧ number ≤ 2 ^ 63 - 1

theorem fitsInt64_intCast (n : Int) : FitsInt64 n ↔ -2 ^ 63 ≤ n ∧ n ≤ 2 ^ 63 - 1 := by
  unfold FitsInt64
  constructor
  · rintro ⟨hlow, hhigh⟩
    exact ⟨by exact_mod_cast hlow, by exact_mod_cast hhigh⟩
  · rintro ⟨hlow, hhigh⟩
    exact ⟨by exact_mod_cast hlow, by exact_mod_cast hhigh⟩

/-- A whole number is read as its value or not at all. -/
theorem readInt64_of_value {n : Int} (hvalue : writtenValue text = n)
    (hok : FitsInt64 n → readInt64 text = .ok (Int64.ofInt n))
    (herror : ¬ FitsInt64 n → ∃ fault, readInt64 text = .error fault) :
    (FitsInt64 (writtenValue text) →
      ∃ n : Int64, (n.toInt : ℚ) = writtenValue text ∧ readInt64 text = .ok n) ∧
    (¬ FitsInt64 (writtenValue text) → ∃ fault, readInt64 text = .error fault) := by
  rw [hvalue]
  refine ⟨fun hfits => ⟨_, ?_, hok hfits⟩, herror⟩
  obtain ⟨hlow, hhigh⟩ := (fitsInt64_intCast n).mp hfits
  rw [Int64.toInt_ofInt_of_le hlow (by omega)]

/-- Digits with a sign or without one are read as what they stand for, within sixty-four
bits. -/
theorem readInt64_written {sign : List Char} (hsign : sign = [] ∨ sign = ['+'] ∨ sign = ['-'])
    (hne : whole ≠ []) (hdigits : ∀ c ∈ whole, c.isDigit = true) :
    (FitsInt64 (writtenValue (sign ++ whole)) →
      ∃ n : Int64, (n.toInt : ℚ) = writtenValue (sign ++ whole) ∧
        readInt64 (sign ++ whole) = .ok n) ∧
    (¬ FitsInt64 (writtenValue (sign ++ whole)) →
      ∃ fault, readInt64 (sign ++ whole) = .error fault) := by
  have hmagnitude := magnitude_digits hdigits
  have hplain : FitsInt64 ((Nat.ofDigitChars 10 whole 0 : Nat) : Int) ↔
      Nat.ofDigitChars 10 whole 0 ≤ maxInt64 := by
    rw [fitsInt64_intCast, maxInt64]
    omega
  have hminus : FitsInt64 ((-(Nat.ofDigitChars 10 whole 0 : Nat) : Int) : ℚ) ↔
      Nat.ofDigitChars 10 whole 0 ≤ maxInt64 + 1 := by
    rw [fitsInt64_intCast, maxInt64]
    omega
  rcases hsign with rfl | rfl | rfl
  · have hvalue : writtenValue (whole ++ []) = magnitude (whole ++ []) :=
      writtenValue_digits hdigits hne
    rw [List.append_nil] at hvalue
    rw [List.nil_append]
    refine readInt64_of_value (by rw [hvalue, hmagnitude, Int.cast_natCast])
      (fun hfits => ?_) (fun hbeyond => ⟨.tooLarge, ?_⟩)
    · rw [readInt64_digits hdigits hne, readDigits_digits hdigits hne, if_pos (hplain.mp hfits)]
      rfl
    · rw [readInt64_digits hdigits hne, readDigits_digits hdigits hne,
        if_neg (mt hplain.mpr hbeyond)]
      rfl
  · rw [List.singleton_append]
    refine readInt64_of_value (by rw [writtenValue, hmagnitude, Int.cast_natCast])
      (fun hfits => ?_) (fun hbeyond => ⟨.tooLarge, ?_⟩)
    · rw [readInt64, readDigits_digits hdigits hne, if_pos (hplain.mp hfits)]
      rfl
    · rw [readInt64, readDigits_digits hdigits hne, if_neg (mt hplain.mpr hbeyond)]
      rfl
  · rw [List.singleton_append]
    refine readInt64_of_value (by rw [writtenValue, hmagnitude, Int.cast_neg, Int.cast_natCast])
      (fun hfits => ?_) (fun hbeyond => ⟨.tooSmall, ?_⟩)
    · rw [readInt64, readDigits_digits hdigits hne, if_pos (hminus.mp hfits)]
      rfl
    · rw [readInt64, readDigits_digits hdigits hne, if_neg (mt hminus.mpr hbeyond)]
      rfl

end Numeral

/-! ## Rounding -/

namespace Decimal

open Numeral

/-- The number that a decimal is. -/
def value (d : Decimal) : ℚ :=
  d.coefficient / 10 ^ d.scale

/-- Whether a decimal has the number for its value. -/
def IsExpressible (number : ℚ) : Prop :=
  ∃ d : Decimal, d.value = number

/-- What a decimal keeps of a number: it is off by at most half a unit in its last place, and
it is not off at all where a decimal has the number for its value. -/
structure Approximates (d : Decimal) (number : ℚ) : Prop where
  near : |d.value - number| ≤ 1 / 2 / 10 ^ d.scale
  exact : IsExpressible number → d.value = number

/-- The number that digits stand for, if there is more to read: a fraction of one unit in
the last place. -/
def Digits.valueWith (digits : Digits) (more : ℚ) : ℚ :=
  (digits.mantissa + more) / 10 ^ digits.scale

variable {digits : Digits} {more : ℚ}

theorem value_ofDigits (digits : Digits) :
    (ofDigits false digits).value = digits.mantissa / 10 ^ digits.scale := by
  simp [value, ofDigits]

theorem value_ofDigits_neg (digits : Digits) :
    (ofDigits true digits).value = -(ofDigits false digits).value := by
  simp [value, ofDigits, neg_div]

/-- The number from which on rounding leads out of range. -/
def overflowLimit : ℚ := coefficientBound - 1 / 2

theorem Digits.mantissa_add_one_le (digits : Digits) :
    (digits.mantissa : ℚ) + 1 ≤ coefficientBound := by
  exact_mod_cast digits.mantissa_lt

theorem Digits.valueWith_le (digits : Digits) (hmore : 0 ≤ more) :
    digits.valueWith more ≤ digits.mantissa + more := by
  have hpow : (1 : ℚ) ≤ 10 ^ digits.scale := one_le_pow₀ (by norm_num)
  exact div_le_self (by positivity) hpow

/-- A whole number leaves no fraction. -/
theorem eq_zero_of_whole {n : Int} {m : Nat} (hmore : 0 ≤ more) (hlt : more < 1)
    (h : (n : ℚ) = m + more) : more = 0 := by
  have hlow : (m : Int) ≤ n := by
    have : (m : ℚ) ≤ n := by linarith
    exact_mod_cast this
  have hhigh : n < m + 1 := by
    have : (n : ℚ) < m + 1 := by linarith
    exact_mod_cast this
  have heq : n = m := by omega
  rw [heq, Int.cast_natCast] at h
  linarith

/-- Where there is no room for the next digit, a number that a decimal has ends here. -/
theorem eq_zero_of_full {digit : Nat} (hmore : 0 ≤ more) (hlt : more < 1)
    (hdigit : (digit : ℚ) / 10 ≤ more)
    (hfull : ¬ (10 * digits.mantissa + digit < coefficientBound ∧ digits.scale < maxScale))
    (hexists : IsExpressible (digits.valueWith more)) : more = 0 := by
  obtain ⟨other, hother⟩ := hexists
  rw [value, Digits.valueWith, div_eq_div_iff (by positivity) (by positivity)] at hother
  rcases Nat.lt_or_ge digits.scale other.scale with hless | hle
  · -- one place more, and the coefficient is out of range
    exfalso
    obtain ⟨gap, hgap⟩ := Nat.exists_eq_add_of_lt hless
    have hcoefficient : (other.coefficient : ℚ) = (digits.mantissa + more) * 10 * 10 ^ gap := by
      have hpos : (10 : ℚ) ^ digits.scale ≠ 0 := by positivity
      apply mul_right_cancel₀ hpos
      rw [hother, hgap]
      ring
    have hpow : (1 : ℚ) ≤ 10 ^ gap := one_le_pow₀ (by norm_num)
    have hlarge : (digits.mantissa + more) * 10 ≤ (other.coefficient : ℚ) := by
      rw [hcoefficient]
      exact le_mul_of_one_le_right (by positivity) hpow
    have hbeyond : 10 * (digits.mantissa : Int) + digit ≤ other.coefficient := by
      have : (10 * digits.mantissa + digit : ℚ) ≤ other.coefficient := by linarith
      exact_mod_cast this
    have hrange := other.coefficient_lt
    exact hfull ⟨by omega, hless.trans_le other.scale_le⟩
  · -- the mantissa and the fraction make a whole number
    obtain ⟨gap, hgap⟩ := Nat.exists_eq_add_of_le hle
    refine eq_zero_of_whole (n := other.coefficient * 10 ^ gap) (m := digits.mantissa) hmore hlt ?_
    have hpos : (10 : ℚ) ^ other.scale ≠ 0 := by positivity
    apply mul_right_cancel₀ hpos
    push_cast
    rw [← hother, hgap]
    ring

/-- Half a unit of the mantissa is half a unit in the last place. -/
theorem near_of_mantissa {number : ℚ} (h : |digits.mantissa - number| ≤ 1 / 2) :
    |(ofDigits false digits).value - number / 10 ^ digits.scale| ≤
      1 / 2 / 10 ^ digits.scale := by
  have hpos : (0 : ℚ) < 10 ^ digits.scale := by positivity
  rw [value_ofDigits, ← sub_div, abs_div, abs_of_pos hpos]
  exact div_le_div_of_nonneg_right h hpos.le

theorem approximates_down (hmore : 0 ≤ more) (hhalf : more < 1 / 2)
    (hzero : IsExpressible (digits.valueWith more) → more = 0) :
    (ofDigits false digits).Approximates (digits.valueWith more) where
  near := by
    refine near_of_mantissa ?_
    rw [sub_add_cancel_left, abs_neg, abs_of_nonneg hmore]
    exact hhalf.le
  exact hexists := by
    rw [Digits.valueWith, hzero hexists, add_zero, value_ofDigits]

theorem approximates_up {rounded : Digits} (hhalf : 1 / 2 ≤ more) (hlt : more < 1)
    (hmantissa : rounded.mantissa = digits.mantissa + 1) (hscale : rounded.scale = digits.scale)
    (hnone : ¬ IsExpressible (digits.valueWith more)) :
    (ofDigits false rounded).Approximates (digits.valueWith more) where
  near := by
    rw [Digits.valueWith, ← hscale]
    refine near_of_mantissa ?_
    rw [hmantissa, abs_le]
    push_cast
    constructor <;> linarith
  exact hexists := absurd hexists hnone

/-- Behind the largest mantissa rounding gives up a place. -/
theorem approximates_shorter {rounded : Digits} (hhalf : 1 / 2 ≤ more) (hlt : more < 1)
    (hmantissa : 10 * rounded.mantissa = digits.mantissa + 5)
    (hscale : digits.scale = rounded.scale + 1)
    (hnone : ¬ IsExpressible (digits.valueWith more)) :
    (ofDigits false rounded).Approximates (digits.valueWith more) where
  near := by
    have hcast : 10 * (rounded.mantissa : ℚ) = digits.mantissa + 5 := by exact_mod_cast hmantissa
    have htenth : digits.valueWith more =
        (digits.mantissa + more) / 10 / 10 ^ rounded.scale := by
      rw [Digits.valueWith, hscale, pow_succ', div_div]
    rw [htenth]
    refine near_of_mantissa ?_
    rw [abs_le]
    constructor <;> linarith
  exact hexists := absurd hexists hnone

/-- The first digit that does not fit decides about half a unit. -/
theorem half_le_iff {digit : Nat} (hlow : (digit : ℚ) / 10 ≤ more)
    (hhigh : more < (digit + 1) / 10) : 1 / 2 ≤ more ↔ 5 ≤ digit := by
  constructor
  · intro hhalf
    have : (4 : ℚ) < digit := by linarith
    exact_mod_cast this
  · intro hdigit
    have : (5 : ℚ) ≤ digit := by exact_mod_cast hdigit
    linarith

/-- With a digit behind the point, no number leaves the range. -/
theorem Digits.valueWith_lt_of_scale (hmore : 0 ≤ more) (hlt : more < 1)
    (hscale : digits.scale ≠ 0) : digits.valueWith more < overflowLimit := by
  have hbound := digits.mantissa_add_one_le
  have hten : (10 : ℚ) ≤ 10 ^ digits.scale := le_self_pow₀ (by norm_num) hscale
  have hvalue : digits.valueWith more ≤ (digits.mantissa + more) / 10 :=
    div_le_div_of_nonneg_left (by positivity) (by norm_num) hten
  have hsmall : (coefficientBound : ℚ) / 10 < overflowLimit := by
    norm_num [overflowLimit, coefficientBound]
  linarith

/-- What should come of a number without a sign: digits that approximate it, unless it is
beyond the limit. -/
structure Nearest (result : Except DecimalFault Digits) (number : ℚ) : Prop where
  ok : number < overflowLimit →
    ∃ read, result = .ok read ∧ (ofDigits false read).Approximates number
  error : overflowLimit ≤ number → ∃ fault, result = .error fault

theorem nearest_ok {number : ℚ} (happroximates : (ofDigits false digits).Approximates number)
    (hbelow : number < overflowLimit) : Nearest (.ok digits) number where
  ok _ := ⟨digits, rfl, happroximates⟩
  error hbeyond := absurd hbelow (not_lt.mpr hbeyond)

theorem nearest_error {number : ℚ} {fault : DecimalFault} (hbeyond : overflowLimit ≤ number) :
    Nearest (.error fault) number where
  ok hbelow := absurd hbelow (not_lt.mpr hbeyond)
  error _ := ⟨fault, rfl⟩

/-- Below half a unit behind the largest mantissa, a number is in range. -/
theorem Digits.valueWith_lt (hmore : 0 ≤ more)
    (hbelow : (digits.mantissa : ℚ) + more < overflowLimit) :
    digits.valueWith more < overflowLimit :=
  (digits.valueWith_le hmore).trans_lt hbelow

/-- The first digit that does not fit rounds to a nearest number. -/
theorem roundBy_nearest {digit : Nat} (hmore : 0 ≤ more) (hlt : more < 1)
    (hlow : (digit : ℚ) / 10 ≤ more) (hhigh : more < (digit + 1) / 10)
    (hfull : ¬ (10 * digits.mantissa + digit < coefficientBound ∧ digits.scale < maxScale)) :
    Nearest (digits.roundBy digit) (digits.valueWith more) := by
  have hbound := digits.mantissa_add_one_le
  have hzero := eq_zero_of_full hmore hlt hlow hfull
  have hhalf_iff := half_le_iff hlow hhigh
  unfold Digits.roundBy
  by_cases hdigit : digit < 5
  · have hhalf : more < 1 / 2 := lt_of_not_ge fun h => absurd (hhalf_iff.mp h) (by omega)
    rw [if_pos hdigit]
    refine nearest_ok (approximates_down hmore hhalf hzero) (Digits.valueWith_lt hmore ?_)
    unfold overflowLimit
    linarith
  · have hhalf : 1 / 2 ≤ more := hhalf_iff.mpr (by omega)
    have hnone : ¬ IsExpressible (digits.valueWith more) := by
      intro hexists
      have := hzero hexists
      linarith
    rw [if_neg hdigit]
    by_cases hsmall : digits.mantissa + 1 < coefficientBound
    · have hroom : (digits.mantissa : ℚ) + 2 ≤ coefficientBound := by exact_mod_cast hsmall
      rw [dif_pos hsmall]
      refine nearest_ok (approximates_up hhalf hlt rfl rfl hnone) (Digits.valueWith_lt hmore ?_)
      unfold overflowLimit
      linarith
    · have hlargest : digits.mantissa + 1 = coefficientBound := by
        have := digits.mantissa_lt
        omega
      rw [dif_neg hsmall]
      by_cases hscale : digits.scale = 0
      · have hcast : (digits.mantissa : ℚ) + 1 = coefficientBound := by exact_mod_cast hlargest
        rw [if_pos hscale]
        refine nearest_error ?_
        rw [Digits.valueWith, hscale, pow_zero, div_one, overflowLimit]
        linarith
      · have hshorter : 10 * ((digits.mantissa + 1 + 4) / 10) = digits.mantissa + 5 := by
          rw [hlargest]
          unfold coefficientBound at hlargest ⊢
          omega
        have hplace : digits.scale = digits.scale - 1 + 1 := by omega
        rw [if_neg hscale]
        exact nearest_ok (approximates_shorter hhalf hlt hshorter hplace hnone)
          (Digits.valueWith_lt_of_scale hmore hlt hscale)

/-! ## Behind the point -/

theorem checkRest_digits (hdigits : ∀ c ∈ cs, c.isDigit = true) : checkRest cs = .ok () := by
  induction cs with
  | nil => rfl
  | cons c cs ih =>
      rw [checkRest, hdigits c List.mem_cons_self, Bool.true_or, if_pos rfl]
      exact ih fun d hd => hdigits d (List.mem_cons_of_mem c hd)

theorem approximates_self (digits : Digits) :
    (ofDigits false digits).Approximates (digits.valueWith 0) where
  near := by
    rw [Digits.valueWith, add_zero, value_ofDigits, sub_self, abs_zero]
    positivity
  exact _ := by rw [Digits.valueWith, add_zero, value_ofDigits]

/-- A digit that is taken leaves the number as it is. -/
theorem valueWith_cons (taken : Digits) (c : Char) (cs : List Char)
    (hmantissa : taken.mantissa = 10 * digits.mantissa + digitValue c)
    (hscale : taken.scale = digits.scale + 1) :
    digits.valueWith (fractionValue (c :: cs)) = taken.valueWith (fractionValue cs) := by
  rw [Digits.valueWith, Digits.valueWith, hmantissa, hscale, fractionValue, pow_succ']
  push_cast
  field_simp
  ring

/-- Behind a result, digits are only looked through. -/
theorem Nearest.checkRest {result : Except DecimalFault Digits} {number : ℚ}
    (h : Nearest result number) (hdigits : ∀ c ∈ cs, c.isDigit = true) :
    Nearest (do let digits ← result; checkRest cs; return digits) number := by
  cases result with
  | error fault => exact h
  | ok digits =>
      rw [checkRest_digits hdigits]
      exact h

/-- Digits behind the point are read to a nearest number. -/
theorem readFraction_nearest (digits : Digits) (hdigits : ∀ c ∈ cs, c.isDigit = true) :
    Nearest (readFraction digits true cs) (digits.valueWith (fractionValue cs)) := by
  induction cs generalizing digits with
  | nil =>
      have hbound := digits.mantissa_add_one_le
      refine nearest_ok (approximates_self digits) (Digits.valueWith_lt le_rfl ?_)
      rw [fractionValue, add_zero, overflowLimit]
      linarith
  | cons c cs ih =>
      have htail : ∀ d ∈ cs, d.isDigit = true := fun d hd => hdigits d (List.mem_cons_of_mem c hd)
      rw [readFraction, if_pos (hdigits c List.mem_cons_self)]
      by_cases hroom : 10 * digits.mantissa + digitValue c < coefficientBound ∧
          digits.scale < maxScale
      · rw [dif_pos hroom, valueWith_cons ⟨_, _, hroom.1, hroom.2⟩ c cs rfl rfl]
        exact ih _ htail
      · obtain ⟨hmore, hlt⟩ := fractionValue_bounds hdigits
        obtain ⟨hlow, hhigh⟩ := fractionValue_cons_bounds hdigits
        rw [dif_neg hroom]
        exact (roundBy_nearest hmore hlt hlow hhigh hroom).checkRest htail

/-! ## The whole decimal -/

theorem readWhole_beyond {value : Nat} (hvalue : value < coefficientBound) {begun : Bool}
    (hdigits : ∀ c ∈ whole, c.isDigit = true)
    (hlarge : coefficientBound ≤ Nat.ofDigitChars 10 whole value) :
    readWhole value hvalue begun (whole ++ rest) = .error .tooManyDigits := by
  induction whole generalizing value begun with
  | nil =>
      rw [Nat.ofDigitChars_nil] at hlarge
      omega
  | cons c whole ih =>
      rw [ofDigitChars_cons_digitValue] at hlarge
      rw [List.cons_append, readWhole, if_pos (hdigits c List.mem_cons_self)]
      split
      · exact ih _ (fun d hd => hdigits d (List.mem_cons_of_mem c hd)) hlarge
      · rfl

/-- A decimal without its sign is read to a nearest number. -/
theorem readWhole_nearest (hne : whole ≠ []) (hdigits : ∀ c ∈ whole, c.isDigit = true)
    (hfraction : ∀ c ∈ fraction, c.isDigit = true) :
    Nearest (readWhole 0 (by decide) false (whole ++ '.' :: fraction))
      (magnitude (whole ++ '.' :: fraction)) := by
  by_cases hfits : Nat.ofDigitChars 10 whole 0 < coefficientBound
  · have hread := readFraction_nearest ⟨_, 0, hfits, Nat.zero_le _⟩ hfraction
    rw [Digits.valueWith, pow_zero, div_one] at hread
    rwa [readWhole_digits (by decide) hdigits hfits (Or.inr hne), magnitude_point hdigits]
  · have hlarge : coefficientBound ≤ Nat.ofDigitChars 10 whole 0 := by omega
    have hcast : (coefficientBound : ℚ) ≤ Nat.ofDigitChars 10 whole 0 := by exact_mod_cast hlarge
    have hwhole := whole_le_magnitude hdigits hfraction
    rw [readWhole_beyond (by decide) hdigits hlarge]
    refine nearest_error ?_
    unfold overflowLimit
    linarith

/-- The negative of a decimal. -/
theorem IsExpressible.neg {number : ℚ} (h : IsExpressible number) : IsExpressible (-number) := by
  obtain ⟨d, rfl⟩ := h
  refine ⟨⟨-d.coefficient, d.scale, by rw [Int.natAbs_neg]; exact d.coefficient_lt, d.scale_le⟩, ?_⟩
  simp [value, neg_div]

theorem Approximates.neg {number : ℚ} (h : (ofDigits false digits).Approximates number) :
    (ofDigits true digits).Approximates (-number) where
  near := by
    rw [value_ofDigits_neg, neg_sub_neg, abs_sub_comm]
    exact h.near
  exact hexists := by
    rw [value_ofDigits_neg, h.exact (neg_neg number ▸ hexists.neg)]

/-- The sign has no part in how near a number is. -/
theorem Approximates.signed {number : ℚ} (h : (ofDigits false digits).Approximates number)
    (negative : Bool) :
    (ofDigits negative digits).Approximates (if negative then -number else number) := by
  cases negative with
  | false => exact h
  | true => exact h.neg

theorem read_of_readWhole {negative : Bool} (hne : whole ≠ [])
    (hdigits : ∀ c ∈ whole, c.isDigit = true) (hfraction : ∀ c ∈ fraction, c.isDigit = true)
    (hread : read text = (readWhole 0 (by decide) false (whole ++ '.' :: fraction)).map
      (ofDigits negative))
    (hvalue : writtenValue text = if negative then -magnitude (whole ++ '.' :: fraction)
      else magnitude (whole ++ '.' :: fraction)) :
    (|writtenValue text| < overflowLimit →
      ∃ d, read text = .ok d ∧ d.Approximates (writtenValue text)) ∧
    (overflowLimit ≤ |writtenValue text| → ∃ fault, read text = .error fault) := by
  have hnonneg : 0 ≤ magnitude (whole ++ '.' :: fraction) :=
    (Nat.cast_nonneg _).trans (whole_le_magnitude hdigits hfraction)
  have habs : |writtenValue text| = magnitude (whole ++ '.' :: fraction) := by
    rw [hvalue]
    split
    · rw [abs_neg, abs_of_nonneg hnonneg]
    · exact abs_of_nonneg hnonneg
  have hnearest := readWhole_nearest hne hdigits hfraction
  rw [habs, hread]
  constructor
  · intro hbelow
    obtain ⟨digits, hdigits, hnear⟩ := hnearest.ok hbelow
    rw [hdigits, hvalue]
    exact ⟨_, rfl, hnear.signed negative⟩
  · intro hbeyond
    obtain ⟨fault, hfault⟩ := hnearest.error hbeyond
    rw [hfault]
    exact ⟨fault, rfl⟩

/-- A decimal is read as a nearest number, or it is out of range. -/
theorem read_nearest {sign : List Char} (hsign : sign = [] ∨ sign = ['+'] ∨ sign = ['-'])
    (hne : whole ≠ []) (hdigits : ∀ c ∈ whole, c.isDigit = true)
    (hfraction : ∀ c ∈ fraction, c.isDigit = true) :
    (|writtenValue (sign ++ (whole ++ '.' :: fraction))| < overflowLimit →
      ∃ d, read (sign ++ (whole ++ '.' :: fraction)) = .ok d ∧
        d.Approximates (writtenValue (sign ++ (whole ++ '.' :: fraction)))) ∧
    (overflowLimit ≤ |writtenValue (sign ++ (whole ++ '.' :: fraction))| →
      ∃ fault, read (sign ++ (whole ++ '.' :: fraction)) = .error fault) := by
  rcases hsign with rfl | rfl | rfl
  · rw [List.nil_append]
    exact read_of_readWhole hne hdigits hfraction (read_digits hdigits hne)
      (writtenValue_digits hdigits hne)
  · exact read_of_readWhole hne hdigits hfraction rfl rfl
  · exact read_of_readWhole hne hdigits hfraction rfl rfl

end Decimal

/-! ## Numbers -/

namespace Literal

open Numeral Decimal

/-- Every text with the shape of a number is read.  Without a point it is read as the number
that it stands for, if sixty-four bits hold that, and it is refused otherwise.  With a point
it is read as a decimal that keeps as much of the number as it has room for, and it is refused
from half a unit behind the largest mantissa on. -/
theorem readNumber_written (h : Rule.number.scan cs = some (text, rest)) :
    ('.' ∉ text →
      (FitsInt64 (writtenValue text) →
        ∃ n : Int64, (n.toInt : ℚ) = writtenValue text ∧ readNumber text = .ok (.integer n)) ∧
      (¬ FitsInt64 (writtenValue text) →
        ∃ fault, readNumber text = .error ⟨.integer, .integer fault⟩)) ∧
    ('.' ∈ text →
      (|writtenValue text| < overflowLimit →
        ∃ d, readNumber text = .ok (.decimal d) ∧ d.Approximates (writtenValue text)) ∧
      (overflowLimit ≤ |writtenValue text| →
        ∃ fault, readNumber text = .error ⟨.decimal, .decimal fault⟩)) := by
  obtain ⟨sign, digits, behind, hsign, hne, hdigits, hbehind, rfl⟩ := Rule.exists_of_scanNumber h
  have hpoint : '.' ∉ sign ++ digits := by
    have hnone : '.' ∉ digits := not_mem_of_isDigit hdigits (by decide)
    rcases hsign with rfl | rfl | rfl <;> simp [hnone]
  rcases hbehind with rfl | ⟨fraction, -, hfraction, rfl⟩
  · obtain ⟨hok, herror⟩ := readInt64_written hsign hne hdigits
    have hcontains : ¬ (sign ++ digits).contains '.' = true := by simpa using hpoint
    rw [List.append_nil]
    refine ⟨fun _ => ⟨fun hfits => ?_, fun hbeyond => ?_⟩, fun hmem => absurd hmem hpoint⟩
    · obtain ⟨n, hvalue, hn⟩ := hok hfits
      exact ⟨n, hvalue, by rw [readNumber, if_neg hcontains, hn]⟩
    · obtain ⟨fault, hfault⟩ := herror hbeyond
      exact ⟨fault, by rw [readNumber, if_neg hcontains, hfault]⟩
  · obtain ⟨hok, herror⟩ := read_nearest hsign hne hdigits hfraction
    have hmem : '.' ∈ sign ++ (digits ++ '.' :: fraction) := by simp
    have hcontains := List.contains_iff_mem.mpr hmem
    refine ⟨fun hnone => absurd hmem hnone, fun _ => ⟨fun hbelow => ?_, fun hbeyond => ?_⟩⟩
    · obtain ⟨d, hd, hnear⟩ := hok hbelow
      exact ⟨d, by rw [readNumber, if_pos hcontains, hd], hnear⟩
    · obtain ⟨fault, hfault⟩ := herror hbeyond
      exact ⟨fault, by rw [readNumber, if_pos hcontains, hfault]⟩

/-- A place more than a decimal has, and the number is still read. -/
theorem readNumber_written_long :
    Rule.number.scan "-0.00000000000000000000000000007 ".toList =
        some ("-0.00000000000000000000000000007".toList, [' ']) ∧
      ∃ d, readNumber "-0.00000000000000000000000000007".toList = .ok (.decimal d) ∧
        d.Approximates (writtenValue "-0.00000000000000000000000000007".toList) := by
  have hscan : Rule.number.scan "-0.00000000000000000000000000007 ".toList =
      some ("-0.00000000000000000000000000007".toList, [' ']) := by decide +kernel
  have hpoint : '.' ∈ "-0.00000000000000000000000000007".toList := by decide +kernel
  have hbelow : |writtenValue "-0.00000000000000000000000000007".toList| < overflowLimit := by
    decide +kernel
  exact ⟨hscan, ((readNumber_written hscan).2 hpoint).1 hbelow⟩

/-- A number that is not zero is read as zero. -/
theorem readNumber_rounds :
    Rule.number.scan "0.00000000000000000000000000001".toList =
        some ("0.00000000000000000000000000001".toList, []) ∧
      ∃ d, readNumber "0.00000000000000000000000000001".toList = .ok (.decimal d) ∧
        d.value ≠ writtenValue "0.00000000000000000000000000001".toList := by
  refine ⟨by decide +kernel, ⟨0, 28, by decide, by decide⟩, rfl, ?_⟩
  decide +kernel

end Literal

end RecordQuery

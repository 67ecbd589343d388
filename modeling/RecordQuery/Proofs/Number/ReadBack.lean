import Mathlib.Order.Nat
import RecordQuery.Number.Decimal

/-!
# Written numbers are read back

A reader of numbers walks the digits with the value so far.  Where the value of all of
them fits, no step on the way leaves the range, so the reader arrives at that value.
Core says what the digits of a natural number amount to (`Nat.ofDigitChars_toDigits`);
with this every whole number of sixty-four bits and every decimal with a digit behind
its point is what its own text is read as.

A decimal can lose all digits behind its point to rounding.  That takes a coefficient of
nearly ninety-six bits, so what is printed then is too large for a whole number.
-/

namespace RecordQuery

variable {value : Nat} {cs whole fraction : List Char}

theorem ofDigitChars_cons_digitValue (c : Char) (cs : List Char) (value : Nat) :
    Nat.ofDigitChars 10 (c :: cs) value =
      Nat.ofDigitChars 10 cs (10 * value + Numeral.digitValue c) :=
  Nat.ofDigitChars_cons

theorem digitValue_le {c : Char} (h : c.isDigit = true) : Numeral.digitValue c ≤ 9 := by
  have hmost : c.toNat ≤ 57 := (Char.isDigit_iff_toNat.mp h).2
  have hzero : '0'.toNat = 48 := rfl
  unfold Numeral.digitValue
  omega

theorem le_ofDigitChars (cs : List Char) (value : Nat) : value ≤ Nat.ofDigitChars 10 cs value := by
  induction cs generalizing value with
  | nil => exact (Nat.ofDigitChars_nil).ge
  | cons c cs ih =>
      have hstep := ih (10 * value + Numeral.digitValue c)
      rw [ofDigitChars_cons_digitValue]
      omega

theorem isDigit_toDigits (n : Nat) : ∀ c ∈ Nat.toDigits 10 n, c.isDigit = true :=
  fun _ hc => Nat.isDigit_of_mem_toDigits (by decide) (by decide) hc

theorem ne_of_isDigit {c d : Char} (h : c.isDigit = true) (hd : d.isDigit = false) : c ≠ d := by
  rintro rfl
  rw [h] at hd
  cases hd

theorem not_mem_of_isDigit {d : Char} (h : ∀ c ∈ cs, c.isDigit = true)
    (hd : d.isDigit = false) : d ∉ cs :=
  fun hmem => ne_of_isDigit (h d hmem) hd rfl

/-! ## Whole numbers -/

namespace Numeral

variable {limit : Nat} {beyond : IntegerFault}

theorem readOnto_digits (hdigits : ∀ c ∈ cs, c.isDigit = true)
    (hfits : Nat.ofDigitChars 10 cs value ≤ limit) :
    readOnto limit beyond value cs = .ok (Nat.ofDigitChars 10 cs value) := by
  induction cs generalizing value with
  | nil => rw [readOnto, Nat.ofDigitChars_nil]
  | cons c cs ih =>
      rw [ofDigitChars_cons_digitValue] at hfits ⊢
      -- the value only grows from here, so it fits now
      have hstep := le_trans (le_ofDigitChars cs (10 * value + digitValue c)) hfits
      rw [readOnto, if_pos (hdigits c List.mem_cons_self), if_pos hstep]
      exact ih (fun d hd => hdigits d (List.mem_cons_of_mem c hd)) hfits

theorem readOnto_beyond (hdigits : ∀ c ∈ cs, c.isDigit = true) (hvalue : value ≤ limit)
    (hlarge : limit < Nat.ofDigitChars 10 cs value) :
    readOnto limit beyond value cs = .error beyond := by
  induction cs generalizing value with
  | nil =>
      rw [Nat.ofDigitChars_nil] at hlarge
      omega
  | cons c cs ih =>
      rw [ofDigitChars_cons_digitValue] at hlarge
      rw [readOnto, if_pos (hdigits c List.mem_cons_self)]
      by_cases hstep : 10 * value + digitValue c ≤ limit
      · rw [if_pos hstep]
        exact ih (fun d hd => hdigits d (List.mem_cons_of_mem c hd)) hstep hlarge
      · rw [if_neg hstep]

/-- Digits are read as their value, up to the limit. -/
theorem readDigits_digits (hdigits : ∀ c ∈ cs, c.isDigit = true) (hne : cs ≠ []) :
    readDigits limit beyond cs =
      if Nat.ofDigitChars 10 cs 0 ≤ limit then .ok (Nat.ofDigitChars 10 cs 0)
      else .error beyond := by
  have hread : readDigits limit beyond cs = readOnto limit beyond 0 cs := by
    cases cs with
    | nil => exact absurd rfl hne
    | cons c cs => rfl
  rw [hread]
  split
  · next hfits => exact readOnto_digits hdigits hfits
  · next hlarge => exact readOnto_beyond hdigits (Nat.zero_le limit) (by omega)

/-- Nothing but digits is read. -/
theorem isDigit_of_readOnto {n : Nat} (h : readOnto limit beyond value cs = .ok n) :
    ∀ c ∈ cs, c.isDigit = true := by
  induction cs generalizing value with
  | nil => simp
  | cons c cs ih =>
      rw [readOnto] at h
      split at h
      · next hdigit =>
          simp only at h
          split at h
          · exact List.forall_mem_cons.mpr ⟨hdigit, ih h⟩
          · cases h
      · cases h

theorem readDigits_eq_ok {n : Nat} : readDigits limit beyond cs = .ok n ↔
    cs ≠ [] ∧ (∀ c ∈ cs, c.isDigit = true) ∧ Nat.ofDigitChars 10 cs 0 = n ∧ n ≤ limit := by
  constructor
  · intro h
    have hne : cs ≠ [] := by
      rintro rfl
      cases h
    obtain ⟨c, more, rfl⟩ := List.exists_cons_of_ne_nil hne
    have hdigits := isDigit_of_readOnto h
    rw [readDigits_digits hdigits hne] at h
    split at h
    · next hfits =>
        cases h
        exact ⟨hne, hdigits, rfl, hfits⟩
    · cases h
  · rintro ⟨hne, hdigits, rfl, hfits⟩
    rw [readDigits_digits hdigits hne, if_pos hfits]

theorem readDigits_toDigits {n : Nat} (h : n ≤ limit) :
    readDigits limit beyond (Nat.toDigits 10 n) = .ok n := by
  rw [readDigits_digits (isDigit_toDigits n) Nat.toDigits_ne_nil, Nat.ofDigitChars_ten_toDigits,
    if_pos h]

theorem readDigits_beyond {n : Nat} (h : limit < n) :
    readDigits limit beyond (Nat.toDigits 10 n) = .error beyond := by
  rw [readDigits_digits (isDigit_toDigits n) Nat.toDigits_ne_nil, Nat.ofDigitChars_ten_toDigits,
    if_neg (by omega)]

/-- Digits alone are a number without a sign. -/
theorem readInt64_digits (hdigits : ∀ c ∈ cs, c.isDigit = true) (hne : cs ≠ []) :
    readInt64 cs = (readDigits maxInt64 .tooLarge cs).map fun n => Int64.ofInt n := by
  cases cs with
  | nil => exact absurd rfl hne
  | cons c cs =>
      have hc := hdigits c List.mem_cons_self
      unfold readInt64
      split
      · next heq => cases heq
      · next heq =>
          cases heq
          exact absurd hc (by decide)
      · next heq =>
          cases heq
          exact absurd hc (by decide)
      · rfl

/-- A whole number is what its text is read as. -/
theorem readInt64_writeInt (value : Int64) : readInt64 (writeInt value.toInt) = .ok value := by
  have hleast := value.le_toInt
  have hmost := value.toInt_lt
  unfold writeInt
  split
  · next hneg =>
      have hfits : value.toInt.natAbs ≤ maxInt64 + 1 := by
        unfold maxInt64
        omega
      have habs : -(value.toInt.natAbs : Int) = value.toInt := by omega
      rw [readInt64, readDigits_toDigits hfits]
      show Except.ok (Int64.ofInt (-(value.toInt.natAbs : Int))) = .ok value
      rw [habs, Int64.ofInt_toInt]
  · next hnonneg =>
      have hfits : value.toInt.natAbs ≤ maxInt64 := by
        unfold maxInt64
        omega
      have habs : (value.toInt.natAbs : Int) = value.toInt := by omega
      rw [readInt64_digits (isDigit_toDigits _) Nat.toDigits_ne_nil, readDigits_toDigits hfits]
      show Except.ok (Int64.ofInt (value.toInt.natAbs : Int)) = .ok value
      rw [habs, Int64.ofInt_toInt]

/-- What does not fit sixty-four bits is not read. -/
theorem readInt64_writeInt_beyond {n : Int} (h : maxInt64 + 1 < n.natAbs) :
    ∃ fault, readInt64 (writeInt n) = .error fault := by
  unfold writeInt
  split
  · refine ⟨.tooSmall, ?_⟩
    rw [readInt64, readDigits_beyond h]
    rfl
  · refine ⟨.tooLarge, ?_⟩
    have hlarge : maxInt64 < n.natAbs := by omega
    rw [readInt64_digits (isDigit_toDigits _) Nat.toDigits_ne_nil, readDigits_beyond hlarge]
    rfl

end Numeral

/-! ## Decimals -/

namespace Decimal

open Numeral

theorem readFraction_digits {digits : Digits} {begun : Bool}
    (hdigits : ∀ c ∈ cs, c.isDigit = true)
    (hfits : Nat.ofDigitChars 10 cs digits.mantissa < coefficientBound)
    (hroom : digits.scale + cs.length ≤ maxScale) (hbegun : begun = true) :
    readFraction digits begun cs =
      .ok ⟨Nat.ofDigitChars 10 cs digits.mantissa, digits.scale + cs.length, hfits, hroom⟩ := by
  induction cs generalizing digits begun with
  | nil => simp [readFraction, hbegun]
  | cons c cs ih =>
      have hstep := le_ofDigitChars cs (10 * digits.mantissa + digitValue c)
      have hfits' := hfits
      rw [ofDigitChars_cons_digitValue] at hfits'
      rw [List.length_cons] at hroom
      have hplace : 10 * digits.mantissa + digitValue c < coefficientBound ∧
          digits.scale < maxScale := ⟨by omega, by omega⟩
      have hroom' : digits.scale + 1 + cs.length ≤ maxScale := by omega
      have hlength : digits.scale + 1 + cs.length = digits.scale + (cs.length + 1) := by omega
      rw [readFraction, if_pos (hdigits c List.mem_cons_self), dif_pos hplace,
        ih (fun d hd => hdigits d (List.mem_cons_of_mem c hd)) hfits' hroom' rfl]
      simp only [ofDigitChars_cons_digitValue, List.length_cons, hlength]

theorem readWhole_digits (hvalue : value < coefficientBound) {begun : Bool}
    (hdigits : ∀ c ∈ whole, c.isDigit = true)
    (hfits : Nat.ofDigitChars 10 whole value < coefficientBound)
    (hbegun : begun = true ∨ whole ≠ []) :
    readWhole value hvalue begun (whole ++ '.' :: fraction) =
      readFraction ⟨Nat.ofDigitChars 10 whole value, 0, hfits, Nat.zero_le _⟩ true fraction := by
  induction whole generalizing value begun with
  | nil =>
      have htrue : begun = true := hbegun.resolve_right (by simp)
      have hpoint : Char.isDigit '.' = false := by decide
      simp [readWhole, hpoint, htrue]
  | cons c whole ih =>
      have hstep := le_ofDigitChars whole (10 * value + digitValue c)
      have hfits' := hfits
      rw [ofDigitChars_cons_digitValue] at hfits'
      have hroom : 10 * value + digitValue c < coefficientBound := by omega
      rw [List.cons_append, readWhole, if_pos (hdigits c List.mem_cons_self), dif_pos hroom,
        ih hroom (fun d hd => hdigits d (List.mem_cons_of_mem c hd)) hfits' (Or.inl rfl)]
      simp only [ofDigitChars_cons_digitValue]

/-! ## The text of a decimal -/

variable {d : Decimal}

theorem isDigit_paddedDigits (d : Decimal) : ∀ c ∈ d.paddedDigits, c.isDigit = true := by
  intro c hc
  rcases List.mem_append.mp hc with hzero | hdigit
  · rw [(List.mem_replicate.mp hzero).2]
    decide
  · exact isDigit_toDigits _ c hdigit

theorem ofDigitChars_paddedDigits (d : Decimal) :
    Nat.ofDigitChars 10 d.paddedDigits 0 = d.coefficient.natAbs := by
  rw [paddedDigits, Nat.ofDigitChars_append, Nat.ofDigitChars_replicate_zero, Nat.mul_zero,
    Nat.ofDigitChars_ten_toDigits]

theorem scale_lt_length_paddedDigits (d : Decimal) : d.scale < d.paddedDigits.length := by
  simp only [paddedDigits, List.length_append, List.length_replicate]
  omega

/-- The digits in front of the point. -/
def wholeDigits (d : Decimal) : List Char :=
  d.paddedDigits.take (d.paddedDigits.length - d.scale)

/-- The digits behind the point. -/
def fractionDigits (d : Decimal) : List Char :=
  d.paddedDigits.drop (d.paddedDigits.length - d.scale)

/-- The sign of a number that is negative. -/
def sign (d : Decimal) : List Char :=
  if d.coefficient < 0 then ['-'] else []

theorem write_eq (hscale : d.scale ≠ 0) :
    d.write = d.sign ++ (d.wholeDigits ++ '.' :: d.fractionDigits) := by
  simp [write, sign, wholeDigits, fractionDigits, hscale]

/-- Without a digit behind the point, a decimal is written as a whole number is. -/
theorem write_of_scale_zero (hscale : d.scale = 0) : d.write = writeInt d.coefficient := by
  have hpadded : d.paddedDigits = Nat.toDigits 10 d.coefficient.natAbs := by
    have hpos : 0 < (Nat.toDigits 10 d.coefficient.natAbs).length := Nat.length_toDigits_pos
    have hnone : d.scale + 1 - (Nat.toDigits 10 d.coefficient.natAbs).length = 0 := by omega
    rw [paddedDigits, hnone]
    rfl
  unfold write writeInt
  simp only [hpadded, hscale, Nat.sub_zero, List.take_length, if_true, List.append_nil]
  split <;> rfl

theorem isDigit_wholeDigits (d : Decimal) : ∀ c ∈ d.wholeDigits, c.isDigit = true :=
  fun c hc => isDigit_paddedDigits d c (List.mem_of_mem_take hc)

theorem isDigit_fractionDigits (d : Decimal) : ∀ c ∈ d.fractionDigits, c.isDigit = true :=
  fun c hc => isDigit_paddedDigits d c (List.mem_of_mem_drop hc)

theorem wholeDigits_ne_nil (d : Decimal) : d.wholeDigits ≠ [] := by
  have hlength := scale_lt_length_paddedDigits d
  apply List.length_pos_iff.mp
  rw [wholeDigits, List.length_take]
  omega

theorem length_fractionDigits (d : Decimal) : d.fractionDigits.length = d.scale := by
  have hlength := scale_lt_length_paddedDigits d
  rw [fractionDigits, List.length_drop]
  omega

theorem fractionDigits_ne_nil (hscale : d.scale ≠ 0) : d.fractionDigits ≠ [] := by
  apply List.length_pos_iff.mp
  rw [length_fractionDigits]
  omega

theorem ofDigitChars_digits (d : Decimal) :
    Nat.ofDigitChars 10 d.fractionDigits (Nat.ofDigitChars 10 d.wholeDigits 0) =
      d.coefficient.natAbs := by
  rw [← Nat.ofDigitChars_append, wholeDigits, fractionDigits, List.take_append_drop,
    ofDigitChars_paddedDigits]

theorem point_mem_write_iff (d : Decimal) : '.' ∈ d.write ↔ d.scale ≠ 0 := by
  by_cases hscale : d.scale = 0
  · have hdigits : '.' ∉ Nat.toDigits 10 d.coefficient.natAbs :=
      not_mem_of_isDigit (isDigit_toDigits _) (by decide)
    rw [write_of_scale_zero hscale, writeInt]
    split <;> simp [hdigits, hscale]
  · simp [write_eq hscale, hscale]

/-! ## Reading it back -/

theorem readWhole_write (d : Decimal) :
    readWhole 0 (by decide) false (d.wholeDigits ++ '.' :: d.fractionDigits) =
      .ok ⟨d.coefficient.natAbs, d.scale, d.coefficient_lt, d.scale_le⟩ := by
  have hvalue := ofDigitChars_digits d
  have hwhole : Nat.ofDigitChars 10 d.wholeDigits 0 < coefficientBound :=
    lt_of_le_of_lt (le_ofDigitChars d.fractionDigits _) (hvalue.trans_lt d.coefficient_lt)
  have hfits : Nat.ofDigitChars 10 d.fractionDigits (Nat.ofDigitChars 10 d.wholeDigits 0) <
      coefficientBound := hvalue.trans_lt d.coefficient_lt
  have hroom : 0 + d.fractionDigits.length ≤ maxScale := by
    rw [length_fractionDigits, Nat.zero_add]
    exact d.scale_le
  rw [readWhole_digits (by decide) (isDigit_wholeDigits d) hwhole (Or.inr (wholeDigits_ne_nil d)),
    readFraction_digits (isDigit_fractionDigits d) hfits hroom rfl]
  simp only [hvalue, length_fractionDigits, Nat.zero_add]

/-- Digits in front are read without a sign. -/
theorem read_digits (hdigits : ∀ c ∈ whole, c.isDigit = true) (hne : whole ≠ []) :
    read (whole ++ fraction) =
      (readWhole 0 (by decide) false (whole ++ fraction)).map (ofDigits false) := by
  cases whole with
  | nil => exact absurd rfl hne
  | cons c whole =>
      have hc := hdigits c List.mem_cons_self
      unfold read
      split
      · next heq =>
          cases heq
          exact absurd hc (by decide)
      · next heq =>
          cases heq
          exact absurd hc (by decide)
      · rfl

/-- A decimal with a digit behind its point is what its text is read as. -/
theorem read_write (d : Decimal) (hscale : d.scale ≠ 0) : read d.write = .ok d := by
  have hwhole := readWhole_write d
  by_cases hneg : d.coefficient < 0
  · have habs : -(d.coefficient.natAbs : Int) = d.coefficient := by omega
    have hwrite : d.write = '-' :: (d.wholeDigits ++ '.' :: d.fractionDigits) := by
      rw [write_eq hscale, sign, if_pos hneg]
      rfl
    rw [hwrite, read, hwhole]
    simp only [Except.map, ofDigits, if_true, habs]
  · have habs : (d.coefficient.natAbs : Int) = d.coefficient := by omega
    have hwrite : d.write = d.wholeDigits ++ '.' :: d.fractionDigits := by
      rw [write_eq hscale, sign, if_neg hneg]
      rfl
    rw [hwrite, read_digits (isDigit_wholeDigits d) (wholeDigits_ne_nil d), hwhole]
    simp only [Except.map, ofDigits, Bool.false_eq_true, if_false, habs]

/-! ## Decimals that lose their point -/

/-- A mantissa that no whole number has. -/
def IsLarge (mantissa : Nat) : Prop := maxInt64 + 1 < mantissa

theorem mantissa_of_roundBy {digits rounded : Digits} {digit : Nat}
    (h : digits.roundBy digit = .ok rounded) :
    (rounded.scale = digits.scale ∧ digits.mantissa ≤ rounded.mantissa) ∨
      IsLarge rounded.mantissa := by
  unfold Digits.roundBy at h
  split at h
  · cases h
    exact Or.inl ⟨rfl, Nat.le_refl _⟩
  · split at h
    · cases h
      exact Or.inl ⟨rfl, Nat.le_succ _⟩
    · next hlarge =>
        split at h
        · cases h
        · cases h
          refine Or.inr ?_
          unfold IsLarge
          unfold coefficientBound at hlarge
          unfold maxInt64
          show _ < (digits.mantissa + 1 + 4) / 10
          omega

/-- Behind a result, the remaining digits are only looked through. -/
theorem ok_of_checkRest {result : Except DecimalFault Digits} {read : Digits}
    (h : (do let digits ← result; checkRest cs; return digits) = Except.ok read) :
    result = .ok read := by
  cases result with
  | error fault => cases h
  | ok digits =>
      cases hrest : checkRest cs with
      | error fault => simp [hrest, Bind.bind, Except.bind] at h
      | ok done =>
          simp only [hrest, Bind.bind, Except.bind, Pure.pure, Except.pure] at h
          exact h

/-- Where a place behind the point is taken, only rounding near the bound gives it up. -/
theorem readFraction_scale {digits read : Digits} {begun : Bool}
    (h : readFraction digits begun cs = .ok read) (hscale : digits.scale ≠ 0) :
    read.scale ≠ 0 ∨ IsLarge read.mantissa := by
  induction cs generalizing digits begun with
  | nil =>
      rw [readFraction] at h
      split at h
      · cases h
        exact Or.inl hscale
      · cases h
  | cons c cs ih =>
      rw [readFraction] at h
      split at h
      · split at h
        · exact ih h (Nat.succ_ne_zero _)
        · rcases mantissa_of_roundBy (ok_of_checkRest h) with ⟨hkept, -⟩ | hlarge
          · exact Or.inl (by rwa [hkept])
          · exact Or.inr hlarge
      · split at h
        · split at h
          · have hread : Except.ok digits = .ok read := @ok_of_checkRest cs (.ok digits) read h
            cases hread
            exact Or.inl hscale
          · exact ih h hscale
        · cases h

/-- A digit behind the point is kept, unless those before it leave no room. -/
theorem readFraction_digit {digits read : Digits} {begun : Bool} {c : Char}
    (h : readFraction digits begun (c :: cs) = .ok read) (hc : c.isDigit = true) :
    read.scale ≠ 0 ∨ IsLarge read.mantissa := by
  rw [readFraction, if_pos hc] at h
  split at h
  · exact readFraction_scale h (Nat.succ_ne_zero _)
  · next hroom =>
      rcases mantissa_of_roundBy (ok_of_checkRest h) with ⟨hkept, hle⟩ | hlarge
      · by_cases hscale : digits.scale = 0
        · -- there are places left, so it is the coefficient that has no room
          refine Or.inr ?_
          have hdigit := digitValue_le hc
          have hplaces : digits.scale < maxScale := by
            rw [hscale]
            decide
          have hfull : coefficientBound ≤ 10 * digits.mantissa + digitValue c := by
            by_contra hlt
            exact hroom ⟨by omega, hplaces⟩
          unfold coefficientBound at hfull
          unfold IsLarge maxInt64
          omega
        · exact Or.inl (by rwa [hkept])
      · exact Or.inr hlarge

theorem exists_readFraction_of_readWhole (hvalue : value < coefficientBound) {begun : Bool}
    {read : Digits} (hdigits : ∀ c ∈ whole, c.isDigit = true)
    (h : readWhole value hvalue begun (whole ++ '.' :: fraction) = .ok read) :
    ∃ digits begun, readFraction digits begun fraction = .ok read := by
  induction whole generalizing value begun with
  | nil =>
      have hpoint : Char.isDigit '.' = false := by decide
      simp only [List.nil_append, readWhole, hpoint, Bool.false_eq_true, if_false, if_true] at h
      exact ⟨_, _, h⟩
  | cons c whole ih =>
      rw [List.cons_append, readWhole, if_pos (hdigits c List.mem_cons_self)] at h
      split at h
      · exact ih _ (fun d hd => hdigits d (List.mem_cons_of_mem c hd)) h
      · cases h

/-- A decimal that is read from digits on both sides of a point has a digit behind the
point, or it is too large for a whole number. -/
theorem scale_of_read {sign : List Char} {c : Char} {d : Decimal}
    (hsign : sign = [] ∨ sign = ['+'] ∨ sign = ['-'])
    (hne : whole ≠ []) (hdigits : ∀ c ∈ whole, c.isDigit = true) (hc : c.isDigit = true)
    (h : read (sign ++ (whole ++ '.' :: c :: fraction)) = .ok d) :
    d.scale ≠ 0 ∨ IsLarge d.coefficient.natAbs := by
  have hmap : ∀ (negative : Bool) (result : Except DecimalFault Digits),
      result.map (ofDigits negative) = .ok d →
        ∃ digits, result = .ok digits ∧ d = ofDigits negative digits := by
    intro negative result hresult
    cases result with
    | error fault => cases hresult
    | ok digits =>
        cases hresult
        exact ⟨digits, rfl, rfl⟩
  have hread : ∃ negative digits,
      readWhole 0 (by decide) false (whole ++ '.' :: c :: fraction) = .ok digits ∧
        d = ofDigits negative digits := by
    rcases hsign with rfl | rfl | rfl
    · rw [List.nil_append, read_digits hdigits hne] at h
      exact ⟨false, hmap false _ h⟩
    · exact ⟨false, hmap false _ h⟩
    · exact ⟨true, hmap true _ h⟩
  obtain ⟨negative, digits, hwhole, rfl⟩ := hread
  obtain ⟨before, begun, hfraction⟩ := exists_readFraction_of_readWhole (by decide) hdigits hwhole
  have habs : (ofDigits negative digits).coefficient.natAbs = digits.mantissa := by
    unfold ofDigits
    split <;> simp
  rw [habs]
  exact readFraction_digit hfraction hc

end Decimal

end RecordQuery

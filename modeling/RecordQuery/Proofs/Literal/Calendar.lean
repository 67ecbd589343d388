import Mathlib.Tactic.IntervalCases
import RecordQuery.Literal.Reading
import RecordQuery.Proofs.Number.ReadBack

/-!
# Dates and the calendar

The calendar by which dates are checked is that of the standard library, as far as a date
can have the year (`Calendar.isDate_iff`).

A text is taken for a date if it is made of three counts with hyphens between them
(`Literal.TellsDate`), and it is refused if its month has no such day.  The year is read as a
count of thirty-two bits but stands for a number with a sign, so that a count behind the
middle of its range is checked as a year before zero: `4294967295-1-1` is a day of the year
minus one (`Literal.readDate_eq`).
-/

namespace RecordQuery

/-! ## The calendar -/

namespace Calendar

open Std.Time

variable {year : Int} {month day : Nat}

/-- A month of a year has a day of this number, in the Gregorian calendar carried back
without end. -/
def HasDay (year : Int) (month day : Nat) : Prop :=
  ∃ date : PlainDate, date.year.toInt = year ∧ date.month.toInt = month ∧ date.day.toInt = day

theorem isLeapYear_eq (year : Year.Offset) : isLeapYear year.toInt = year.isLeap := by
  have hdvd : ∀ divisor : Int, year.toInt % divisor = 0 ↔ year.toInt.tmod divisor = 0 :=
    fun divisor => by rw [← Int.dvd_iff_emod_eq_zero, Int.dvd_iff_tmod_eq_zero]
  simp only [isLeapYear, Year.Offset.isLeap, hdvd, ne_eq, Bool.decide_and, Bool.decide_or]

/-- The months are as long as the calendar has them. -/
theorem daysInMonth_eq (year : Year.Offset) {ordinal : Month.Ordinal}
    (h : ordinal.toInt = month) :
    (daysInMonth year.toInt month : Int) = (ordinal.days year.isLeap).toInt := by
  obtain ⟨value, hleast, hmost⟩ := ordinal
  obtain rfl : value = month := h
  have hleast' : 1 ≤ month := by exact_mod_cast hleast
  have hmost' : month ≤ 12 := by exact_mod_cast hmost
  cases hleap : year.isLeap <;> interval_cases month <;>
    simp [daysInMonth, isLeapYear_eq, hleap] <;> rfl

/-- Only twelve months have days, and none has more than thirty-one. -/
theorem month_and_day_le (hleast : 1 ≤ day) (h : day ≤ daysInMonth year month) :
    1 ≤ month ∧ month ≤ 12 ∧ day ≤ 31 := by
  unfold daysInMonth at h
  split at h <;> try split at h
  all_goals omega

theorem hasDay_iff : HasDay year month day ↔ 1 ≤ day ∧ day ≤ daysInMonth year month := by
  constructor
  · rintro ⟨date, rfl, hmonth, hday⟩
    have hlast : date.day.toInt ≤ (date.month.days date.year.isLeap).toInt := date.valid
    have hleast : (1 : Int) ≤ date.day.toInt := date.day.2.1
    rw [← daysInMonth_eq date.year hmonth, hday] at hlast
    omega
  · rintro ⟨hleast, hlast⟩
    obtain ⟨hmonth, hmonth', hday⟩ := month_and_day_le hleast hlast
    let monthOfYear : Month.Ordinal := ⟨month, by omega, by omega⟩
    let dayOfMonth : Day.Ordinal := ⟨day, by omega, by omega⟩
    refine ⟨⟨.ofInt year, monthOfYear, dayOfMonth, ?_⟩, rfl, rfl, rfl⟩
    have hlast' : (day : Int) ≤ daysInMonth year month := by exact_mod_cast hlast
    exact hlast'.trans_eq (daysInMonth_eq (.ofInt year) rfl)

/-- Dates are the days of the calendar in those years that a date can have. -/
theorem isDate_iff : isDate year month day = true ↔
    firstYear ≤ year ∧ year ≤ lastYear ∧ HasDay year month day := by
  simp only [isDate, hasDay_iff, Bool.and_eq_true, decide_eq_true_eq, and_assoc]

end Calendar

/-! ## Counts -/

namespace Numeral

variable {text : List Char} {n m : Nat}

/-- A text is a count of thirty-two bits: digits, perhaps behind a plus sign. -/
def IsCount (text : List Char) (n : Nat) : Prop :=
  ∃ digits, (text = digits ∨ text = '+' :: digits) ∧ digits ≠ [] ∧
    (∀ c ∈ digits, c.isDigit = true) ∧ Nat.ofDigitChars 10 digits 0 = n ∧ n ≤ maxCount

theorem readCount?_of_digits (hdigits : ∀ c ∈ text, c.isDigit = true) :
    readCount? text = (readDigits maxCount .tooLarge text).toOption := by
  unfold readCount?
  split
  · exact absurd (hdigits '+' List.mem_cons_self) (by decide)
  · rfl

theorem readDigits_toOption_eq_some :
    (readDigits maxCount .tooLarge text).toOption = some n ↔ text ≠ [] ∧
      (∀ c ∈ text, c.isDigit = true) ∧ Nat.ofDigitChars 10 text 0 = n ∧ n ≤ maxCount := by
  have hread : readDigits maxCount .tooLarge text = .ok n ↔ _ := readDigits_eq_ok
  rw [← hread]
  cases readDigits maxCount .tooLarge text <;> simp [Except.toOption]

theorem readCount?_eq_some : readCount? text = some n ↔ IsCount text n := by
  constructor
  · intro h
    unfold readCount? at h
    split at h
    · exact ⟨_, Or.inr rfl, readDigits_toOption_eq_some.mp h⟩
    · exact ⟨_, Or.inl rfl, readDigits_toOption_eq_some.mp h⟩
  · rintro ⟨digits, rfl | rfl, hread⟩
    · rw [readCount?_of_digits hread.2.1]
      exact readDigits_toOption_eq_some.mpr hread
    · exact readDigits_toOption_eq_some.mpr hread

theorem IsCount.unique (h : IsCount text n) (h' : IsCount text m) : n = m := by
  rw [← readCount?_eq_some] at h h'
  exact Option.some.inj (h.symm.trans h')

theorem IsCount.le_maxCount (h : IsCount text n) : n ≤ maxCount := by
  obtain ⟨_, -, -, -, -, hmost⟩ := h
  exact hmost

/-- A count has no character but digits and a plus sign. -/
theorem IsCount.not_mem {c : Char} (h : IsCount text n) (hplus : c ≠ '+')
    (hdigit : c.isDigit = false) : c ∉ text := by
  obtain ⟨digits, htext, -, hdigits, -⟩ := h
  have hnone := not_mem_of_isDigit hdigits hdigit
  rcases htext with rfl | rfl
  · exact hnone
  · simp [hplus, hnone]

end Numeral

namespace Literal

open Numeral Calendar

variable {text front back : List Char} {isCut : Char → Bool} {year month day : Nat}

/-! ## Dates in three parts -/

theorem exists_of_bind_ok {ε α β : Type} {first : Except ε α} {next : α → Except ε β} {value : β}
    (h : first >>= next = .ok value) : ∃ found, first = .ok found ∧ next found = .ok value := by
  cases first with
  | error fault => cases h
  | ok found => exact ⟨found, rfl, h⟩

theorem cutAt_of_mem {c : Char} (hfront : ∀ d ∈ front, isCut d = false) (hc : isCut c = true)
    (back : List Char) : cutAt isCut (front ++ c :: back) = (front, some back) := by
  have hplain : ∀ d ∈ front, (!isCut d) = true := fun d hd => by rw [hfront d hd]; rfl
  simp [cutAt, List.dropWhile_append_of_pos hplain, List.takeWhile_append_of_pos hplain, hc]

/-- A count ends in front of a hyphen. -/
theorem cutAt_of_isCount {n : Nat} (h : IsCount front n) (back : List Char) :
    cutAt (· == '-') (front ++ '-' :: back) = (front, some back) := by
  have hnone : '-' ∉ front := h.not_mem (by decide) (by decide)
  exact cutAt_of_mem (fun d hd => beq_false_of_ne (ne_of_mem_of_not_mem hd hnone)) rfl back

/-- A text that is cut is cut at a character of the class. -/
theorem eq_of_cutAt (h : cutAt isCut text = (front, some back)) :
    ∃ c, isCut c = true ∧ text = front ++ c :: back := by
  unfold cutAt at h
  split at h
  · cases h
  · next c after hafter =>
      cases h
      have hsplit := List.takeWhile_append_dropWhile (p := fun c => !isCut c) (l := text)
      have hstop := List.head?_dropWhile_not (fun c => !isCut c) text
      rw [hafter] at hsplit hstop
      exact ⟨c, by simpa using hstop, hsplit.symm⟩

/-- A text tells a date: three counts with hyphens between them. -/
def TellsDate (text : List Char) (year month day : Nat) : Prop :=
  ∃ yearText monthText dayText, text = yearText ++ '-' :: (monthText ++ '-' :: dayText) ∧
    IsCount yearText year ∧ IsCount monthText month ∧ IsCount dayText day

theorem TellsDate.year_le (h : TellsDate text year month day) : year ≤ maxCount := by
  obtain ⟨_, _, _, -, hyear, -, -⟩ := h
  exact hyear.le_maxCount

theorem TellsDate.unique {year' month' day' : Nat} (h : TellsDate text year month day)
    (h' : TellsDate text year' month' day') : year = year' ∧ month = month' ∧ day = day' := by
  obtain ⟨yearText, monthText, dayText, rfl, hyear, hmonth, hday⟩ := h
  obtain ⟨yearText', monthText', dayText', htext, hyear', hmonth', hday'⟩ := h'
  have hcut := congrArg (cutAt (· == '-')) htext
  rw [cutAt_of_isCount hyear, cutAt_of_isCount hyear', Prod.mk.injEq, Option.some.injEq] at hcut
  obtain ⟨rfl, hrest⟩ := hcut
  have hcut := congrArg (cutAt (· == '-')) hrest
  rw [cutAt_of_isCount hmonth, cutAt_of_isCount hmonth', Prod.mk.injEq, Option.some.injEq] at hcut
  obtain ⟨rfl, rfl⟩ := hcut
  exact ⟨hyear.unique hyear', hmonth.unique hmonth', hday.unique hday'⟩

theorem datePart_eq_ok {part : DatePart} {digits : List Char} {n : Nat} :
    datePart text part (some digits) = .ok n ↔ IsCount digits n := by
  rw [← readCount?_eq_some, datePart, Option.bind_some]
  cases readCount? digits <;> simp

/-- A date is checked by the calendar. -/
theorem checkDate_of_tells (h : TellsDate text year month day) :
    checkDate text = if isDate (yearOfCount year) month day then .ok ()
      else .error (.notCalendarDate (String.ofList text)) := by
  obtain ⟨yearText, monthText, dayText, htext, hyear, hmonth, hday⟩ := h
  have hfirst : cutAt (· == '-') text = (yearText, some (monthText ++ '-' :: dayText)) := by
    rw [htext, cutAt_of_isCount hyear]
  simp only [checkDate, hfirst, cutAt_of_isCount hmonth, datePart_eq_ok.mpr hyear,
    datePart_eq_ok.mpr hmonth, datePart_eq_ok.mpr hday, bind, Except.bind]

/-- Nothing else is a date. -/
theorem tells_of_checkDate (h : checkDate text = .ok ()) :
    ∃ year month day, TellsDate text year month day := by
  rcases hcut : cutAt (· == '-') text with ⟨yearText, _ | rest⟩
  · -- without a hyphen there is no month
    simp only [checkDate, hcut] at h
    obtain ⟨year, -, h⟩ := exists_of_bind_ok h
    obtain ⟨month, hmonth, -⟩ := exists_of_bind_ok h
    cases hmonth
  · rcases hcut' : cutAt (· == '-') rest with ⟨monthText, dayText⟩
    simp only [checkDate, hcut, hcut'] at h
    obtain ⟨year, hyear, h⟩ := exists_of_bind_ok h
    obtain ⟨month, hmonth, h⟩ := exists_of_bind_ok h
    obtain ⟨day, hday, -⟩ := exists_of_bind_ok h
    cases dayText with
    | none => cases hday
    | some dayText =>
        obtain ⟨c, hc, rfl⟩ := eq_of_cutAt hcut
        obtain ⟨d, hd, rfl⟩ := eq_of_cutAt hcut'
        rw [eq_of_beq hc, eq_of_beq hd]
        exact ⟨year, month, day, yearText, monthText, dayText, rfl, datePart_eq_ok.mp hyear,
          datePart_eq_ok.mp hmonth, datePart_eq_ok.mp hday⟩

/-! ## Checked literals -/

variable {kind : LiteralKind} {check : List Char → Except FaultReason Unit}
  {make : String → Literal}

theorem readChecked_of_ok (h : check text = .ok ()) :
    readChecked true kind check make text = .ok (make (String.ofList text)) := by
  simp only [readChecked, if_true, h]

theorem readChecked_of_error {reason : FaultReason} (h : check text = .error reason) :
    readChecked true kind check make text = .error ⟨kind, reason⟩ := by
  simp only [readChecked, if_true, h]

/-! ## Years -/

/-- A count in the upper half of its range stands for a year before zero. -/
theorem yearOfCount_eq (hmost : year ≤ maxCount) :
    yearOfCount year = if year ≤ 2147483647 then (year : Int) else year - 4294967296 := by
  unfold maxCount at hmost
  rw [yearOfCount, maxCount, Int.bmod_def]
  split <;> split <;> omega

/-- A count is checked as the year of that number, or as a year before zero. -/
theorem isDate_yearOfCount_iff (hmost : year ≤ maxCount) :
    isDate (yearOfCount year) month day = true ↔
      ((year : Int) ≤ lastYear ∧ HasDay year month day) ∨
        (firstYear ≤ (year : Int) - 4294967296 ∧ HasDay (year - 4294967296) month day) := by
  rw [isDate_iff, yearOfCount_eq hmost]
  unfold maxCount firstYear lastYear at *
  by_cases hhalf : year ≤ 2147483647
  · rw [if_pos hhalf]
    constructor
    · rintro ⟨-, hlast, hday⟩
      exact Or.inl ⟨hlast, hday⟩
    · rintro (⟨hlast, hday⟩ | ⟨hfirst, -⟩)
      · exact ⟨by omega, hlast, hday⟩
      · omega
  · rw [if_neg hhalf]
    constructor
    · rintro ⟨hfirst, -, hday⟩
      exact Or.inr ⟨hfirst, hday⟩
    · rintro (⟨hlast, -⟩ | ⟨hfirst, hday⟩)
      · omega
      · exact ⟨hfirst, by omega, hday⟩

/-- Any text is a date if it is made of three counts of which the first is the number of a
year that a date can have, and of which the others are a month and a day of this year.  It is
a date, too, if the first count is as far below `4294967296` as the number of such a year is
below zero, and then month and day are those of that year.  Any other text is refused, and
what it was taken for is a date. -/
theorem readDate_eq (text : List Char) :
    (readDate true text = .ok (.date (String.ofList text)) ↔ ∃ year month day,
      TellsDate text year month day ∧
        (((year : Int) ≤ lastYear ∧ HasDay year month day) ∨
          (firstYear ≤ (year : Int) - 4294967296 ∧ HasDay (year - 4294967296) month day))) ∧
    (readDate true text = .ok (.date (String.ofList text)) ∨
      ∃ reason, readDate true text = .error ⟨.date, reason⟩) := by
  cases hcheck : checkDate text with
  | error reason =>
      have hread : readDate true text = .error ⟨.date, reason⟩ := readChecked_of_error hcheck
      rw [hread]
      refine ⟨⟨by simp, ?_⟩, Or.inr ⟨reason, rfl⟩⟩
      rintro ⟨year, month, day, htells, hdate⟩
      rw [checkDate_of_tells htells,
        if_pos ((isDate_yearOfCount_iff htells.year_le).mpr hdate)] at hcheck
      cases hcheck
  | ok =>
      have hread : readDate true text = .ok (.date (String.ofList text)) := readChecked_of_ok hcheck
      rw [hread]
      refine ⟨⟨fun _ => ?_, fun _ => rfl⟩, Or.inl rfl⟩
      obtain ⟨year, month, day, htells⟩ := tells_of_checkDate hcheck
      refine ⟨year, month, day, htells, ?_⟩
      rw [checkDate_of_tells htells] at hcheck
      split at hcheck
      · next hdate => exact (isDate_yearOfCount_iff htells.year_le).mp hdate
      · cases hcheck

/-- A year of ten digits passes for the year minus one. -/
theorem readDate_wraps : ¬ (readDate true "4294967295-1-1".toList =
      .ok (.date "4294967295-1-1") ↔ ∃ year month day,
    TellsDate "4294967295-1-1".toList year month day ∧ firstYear ≤ year ∧ year ≤ lastYear ∧
      HasDay year month day) := by
  intro h
  have hcheck : checkDate "4294967295-1-1".toList = .ok () := by decide +kernel
  have hread : readDate true "4294967295-1-1".toList = .ok (.date "4294967295-1-1") :=
    readChecked_of_ok hcheck
  obtain ⟨year, month, day, htells, -, hlast, -⟩ := h.mp hread
  have htold : TellsDate "4294967295-1-1".toList 4294967295 1 1 :=
    ⟨"4294967295".toList, ['1'], ['1'], rfl, readCount?_eq_some.mp (by decide),
      readCount?_eq_some.mp (by decide), readCount?_eq_some.mp (by decide)⟩
  obtain ⟨rfl, -, -⟩ := htells.unique htold
  exact absurd hlast (by decide)

end Literal

end RecordQuery

import RecordQuery.Proofs.Literal.Calendar
import RecordQuery.Proofs.Token.Priority

/-!
# Times and dates that there are

A time or a date is taken apart twice, by the rule that finds the text and by the check of its
value.  What the text is made of is said here without either: a moment (`Literal.Moment`) is a
clock, a day or both, each with the digits and the white space that it is written with.  Every
text that one of the three rules finds is that of a moment (`Literal.exists_moment`), and the
check splits it at the same places (`Literal.Moment.check_cases`).

A lexer that checks times and dates therefore returns the literal if the clock shows that time
and the calendar has that day, and refuses all of the text otherwise
(`Lexer.nextToken_moment`).
-/

namespace RecordQuery

open Scan Calendar

/-! ## Digits -/

/-- Every digit makes room for ten times as much. -/
theorem ofDigitChars_lt {cs : List Char} (h : ∀ c ∈ cs, c.isDigit = true) (value : Nat) :
    Nat.ofDigitChars 10 cs value < (value + 1) * 10 ^ cs.length := by
  induction cs generalizing value with
  | nil => simp [Nat.ofDigitChars_nil]
  | cons c cs ih =>
      have hdigit := digitValue_le (h c List.mem_cons_self)
      rw [ofDigitChars_cons_digitValue, List.length_cons]
      calc Nat.ofDigitChars 10 cs (10 * value + Numeral.digitValue c)
          < (10 * value + Numeral.digitValue c + 1) * 10 ^ cs.length :=
            ih (fun d hd => h d (List.mem_cons_of_mem c hd)) _
        _ ≤ (value + 1) * 10 * 10 ^ cs.length := Nat.mul_le_mul_right _ (by omega)
        _ = (value + 1) * 10 ^ (cs.length + 1) := by rw [Nat.mul_assoc, Nat.pow_succ']

namespace Literal

/-- The digits of a number in a time or in a date. -/
structure Figures (least most : Nat) where
  text : List Char
  isDigits : IsDigits least most text

namespace Figures

variable {least most : Nat}

/-- The number that the digits stand for. -/
def value (figures : Figures least most) : Nat :=
  Nat.ofDigitChars 10 figures.text 0

variable (figures : Figures least most)

theorem ne_nil (hleast : 1 ≤ least) : figures.text ≠ [] :=
  List.length_pos_iff.mp (hleast.trans figures.isDigits.least_le)

theorem value_lt : figures.value < 10 ^ most :=
  calc figures.value
      < (0 + 1) * 10 ^ figures.text.length := ofDigitChars_lt figures.isDigits.isDigit 0
    _ ≤ 10 ^ most := by
      rw [Nat.zero_add, Nat.one_mul]
      exact Nat.pow_le_pow_right (by decide) figures.isDigits.le_most

theorem isCount (hleast : 1 ≤ least) (hmost : most ≤ 9) :
    Numeral.IsCount figures.text figures.value := by
  -- thirty-two bits have room for nine digits
  have hfits : figures.value < 10 ^ 9 :=
    figures.value_lt.trans_le (Nat.pow_le_pow_right (by decide) hmost)
  refine ⟨figures.text, Or.inl rfl, figures.ne_nil hleast, figures.isDigits.isDigit, rfl, ?_⟩
  unfold Numeral.maxCount
  omega

end Figures

/-! ## Moments -/

/-- A day as it is written. -/
structure Day where
  year : Figures 4 4
  month : Figures 1 2
  day : Figures 1 2

/-- A half of the day as it is written, in any letter case and behind any white space. -/
structure Suffix where
  gap : List Char
  word : List Char
  half : DayHalf
  blank : ∀ c ∈ gap, Text.isBlank c = true
  spelled : word.map Char.toLower = half.spelling.toList

/-- A time of day as it is written. -/
structure Clock where
  hour : Figures 1 2
  minute : Figures 1 2
  suffix? : Option Suffix

/-- What a literal of a time or a date stands for. -/
inductive Moment where
  | time (clock : Clock)
  | date (day : Day)
  | dateTime (day : Day) (gap : List Char) (clock : Clock) (hne : gap ≠ [])
      (hblank : ∀ c ∈ gap, Text.isBlank c = true)

/-- The calendar has the day. -/
def Day.IsReal (day : Day) : Prop :=
  HasDay day.year.value day.month.value day.day.value

/-- A clock of twenty-four hours shows the time or, if there is a half of the day, one of
twelve hours does. -/
def Clock.IsReal (clock : Clock) : Prop :=
  match clock.suffix? with
  | none => clock.hour.value ≤ 23 ∧ clock.minute.value ≤ 59
  | some _ => 1 ≤ clock.hour.value ∧ clock.hour.value ≤ 12 ∧ clock.minute.value ≤ 59

def Day.text (day : Day) : List Char :=
  day.year.text ++ '-' :: (day.month.text ++ '-' :: day.day.text)

def Suffix.text (suffix : Suffix) : List Char :=
  suffix.gap ++ suffix.word

def Clock.text (clock : Clock) : List Char :=
  clock.hour.text ++ ':' :: (clock.minute.text ++ (clock.suffix?.map Suffix.text).getD [])

namespace Moment

/-- There is such a moment. -/
def IsReal : Moment → Prop
  | time clock => clock.IsReal
  | date day => day.IsReal
  | dateTime day _ clock _ _ => day.IsReal ∧ clock.IsReal

def text : Moment → List Char
  | time clock => clock.text
  | date day => day.text
  | dateTime day gap clock _ _ => day.text ++ gap ++ clock.text

/-- The rule that finds a moment. -/
def rule : Moment → Rule
  | time _ => .time
  | date _ => .date
  | dateTime .. => .dateTime

def kind : Moment → LiteralKind
  | time _ => .time
  | date _ => .date
  | dateTime .. => .dateTime

/-- The literal of a moment. -/
def literal (moment : Moment) (text : String) : Literal :=
  match moment with
  | time _ => .time text
  | date _ => .date text
  | dateTime .. => .dateTime text

/-- The check of a moment. -/
def check : Moment → List Char → Except FaultReason Unit
  | time _ => checkTime
  | date _ => checkDate
  | dateTime .. => checkDateTime

end Moment

/-! ## Days -/

theorem Day.tellsDate (day : Day) :
    TellsDate day.text day.year.value day.month.value day.day.value :=
  ⟨_, _, _, rfl, day.year.isCount (by decide) (by decide),
    day.month.isCount (by decide) (by decide), day.day.isCount (by decide) (by decide)⟩

/-- A year of four digits is one that dates can have. -/
theorem Day.isDate_iff (day : Day) :
    isDate (yearOfCount day.year.value) day.month.value day.day.value = true ↔ day.IsReal := by
  have hyear : day.year.value < 10000 := day.year.value_lt
  rw [isDate_yearOfCount_iff day.tellsDate.year_le]
  unfold firstYear lastYear
  constructor
  · rintro (⟨-, hday⟩ | ⟨hfirst, -⟩)
    · exact hday
    · omega
  · intro hday
    exact Or.inl ⟨by omega, hday⟩

theorem Day.checkDate_cases (day : Day) :
    (day.IsReal ∧ checkDate day.text = .ok ()) ∨
      (¬ day.IsReal ∧ checkDate day.text = .error (.notCalendarDate (String.ofList day.text))) := by
  rw [checkDate_of_tells day.tellsDate]
  by_cases hreal : day.IsReal
  · exact Or.inl ⟨hreal, if_pos (day.isDate_iff.mpr hreal)⟩
  · exact Or.inr ⟨hreal, if_neg (mt day.isDate_iff.mp hreal)⟩

/-! ## Times of day -/

namespace Suffix

variable (suffix : Suffix)

theorem isHalf : Rule.IsHalf suffix.word := by
  have hspelled := suffix.spelled
  cases hhalf : suffix.half with
  | am => exact Or.inl (by rw [hspelled, hhalf]; rfl)
  | pm => exact Or.inr (by rw [hspelled, hhalf]; rfl)

theorem readHalf_text : readHalf suffix.text = .ok (some suffix.half) := by
  have hsolid : ∀ c ∈ suffix.word, Text.isBlank c = false :=
    fun c hc => Rule.not_isBlank_of_isAlpha (suffix.isHalf.isAlpha c hc)
  have htrim : Text.trimBlanks suffix.text = suffix.word := by
    rw [text, Text.trimBlanks, Text.dropBlanks_append_of_blank suffix.blank, ← Text.trimBlanks]
    exact trimBlanks_eq_self (fun c hc => hsolid c (List.mem_of_mem_head? hc))
      (fun c hc => hsolid c (List.mem_of_mem_getLast? hc))
  have hword : String.ofList (suffix.word.map Char.toLower) = suffix.half.spelling := by
    rw [suffix.spelled, String.ofList_toList]
  unfold readHalf
  rw [htrim, hword]
  cases suffix.half <;> rfl

end Suffix

namespace Clock

variable (clock : Clock)

theorem cutAt_text : cutAt (· == ':') clock.text =
    (clock.hour.text, some (clock.minute.text ++ (clock.suffix?.map Suffix.text).getD [])) := by
  refine cutAt_of_mem (fun c hc => ?_) rfl _
  exact beq_false_of_ne (ne_of_isDigit (clock.hour.isDigits.isDigit c hc) (by decide))

/-- Behind the minutes stands no digit. -/
theorem stops_suffix : Stops Char.isDigit ((clock.suffix?.map Suffix.text).getD []) := by
  cases clock.suffix? with
  | none => exact stops_nil _
  | some suffix =>
      intro c hc
      rcases List.mem_append.mp (List.mem_of_mem_head? hc) with hc | hc
      · exact Rule.not_isDigit_of_isBlank (suffix.blank c hc)
      · exact Rule.not_isDigit_of_isAlpha (suffix.isHalf.isAlpha c hc)

/-- A time of day is checked by the hour that its clock means. -/
theorem checkTime_eq : checkTime clock.text =
    (hourOfDay clock.hour.value (clock.suffix?.map Suffix.half)).bind fun hour =>
      if isTimeOfDay hour clock.minute.value then .ok ()
      else .error (.notTimeOfDay (String.ofList clock.text)) := by
  have hhour := Numeral.readCount?_eq_some.mpr (clock.hour.isCount (by decide) (by decide))
  have hminute := Numeral.readCount?_eq_some.mpr (clock.minute.isCount (by decide) (by decide))
  have hdigits := takeWhile_exact clock.minute.isDigits.isDigit clock.stops_suffix
  have hrest := dropWhile_exact clock.minute.isDigits.isDigit clock.stops_suffix
  have hhalf : readHalf ((clock.suffix?.map Suffix.text).getD []) =
      .ok (clock.suffix?.map Suffix.half) := by
    cases clock.suffix? with
    | none => rfl
    | some suffix => exact suffix.readHalf_text
  simp only [checkTime, cutAt_text, hdigits, hrest, hhour, hminute, hhalf, bind, Except.bind]

/-- What is wrong with a clock. -/
inductive Fault (clock : Clock) : FaultReason → Prop where
  /-- A clock of twelve hours does not show this one. -/
  | hourOutOfRange {suffix : Suffix} (hsuffix : clock.suffix? = some suffix)
      (hhour : ¬ (1 ≤ clock.hour.value ∧ clock.hour.value ≤ 12)) :
      Fault clock (.hourOutOfRange clock.hour.value suffix.half)
  /-- Hour and half of the day go together, but there is no such time. -/
  | notTimeOfDay (hhour : clock.suffix? = none ∨ (1 ≤ clock.hour.value ∧ clock.hour.value ≤ 12))
      (hreal : ¬ clock.IsReal) : Fault clock (.notTimeOfDay (String.ofList clock.text))

variable {clock}

theorem Fault.not_isReal {reason : FaultReason} (h : clock.Fault reason) : ¬ clock.IsReal := by
  cases h with
  | notTimeOfDay hhour hreal => exact hreal
  | hourOutOfRange hsuffix hhour =>
      unfold IsReal
      rw [hsuffix]
      exact fun hreal => hhour ⟨hreal.1, hreal.2.1⟩

theorem isReal_of_none (h : clock.suffix? = none) :
    clock.IsReal ↔ clock.hour.value ≤ 23 ∧ clock.minute.value ≤ 59 := by
  unfold IsReal
  rw [h]

theorem isReal_of_some {suffix : Suffix} (h : clock.suffix? = some suffix) : clock.IsReal ↔
    1 ≤ clock.hour.value ∧ clock.hour.value ≤ 12 ∧ clock.minute.value ≤ 59 := by
  unfold IsReal
  rw [h]

theorem hourOfDay_of_shown {hour : Nat} (h : 1 ≤ hour ∧ hour ≤ 12) (half : DayHalf) :
    ∃ found, hourOfDay hour (some half) = .ok found ∧ found < 24 := by
  have hless : hour % 12 < 12 := Nat.mod_lt hour (by decide)
  cases half with
  | am => exact ⟨hour % 12, by simp [hourOfDay, DayHalf.hour?, h], by omega⟩
  | pm => exact ⟨hour % 12 + 12, by simp [hourOfDay, DayHalf.hour?, h], by omega⟩

theorem hourOfDay_of_not_shown {hour : Nat} (h : ¬ (1 ≤ hour ∧ hour ≤ 12)) (half : DayHalf) :
    hourOfDay hour (some half) = .error (.hourOutOfRange hour half) := by
  simp only [hourOfDay, DayHalf.hour?, h, if_false]

/-- Where the clock means an hour, the time is checked. -/
theorem checkTime_of_hour {hour : Nat}
    (hhour : hourOfDay clock.hour.value (clock.suffix?.map Suffix.half) = .ok hour)
    (hshown : clock.suffix? = none ∨ (1 ≤ clock.hour.value ∧ clock.hour.value ≤ 12))
    (hreal : clock.IsReal ↔ hour < 24 ∧ clock.minute.value < 60) :
    (clock.IsReal ∧ checkTime clock.text = .ok ()) ∨
      ∃ reason, clock.Fault reason ∧ checkTime clock.text = .error reason := by
  have htime : isTimeOfDay hour clock.minute.value = true ↔ clock.IsReal := by
    rw [hreal, isTimeOfDay, Bool.and_eq_true, decide_eq_true_eq, decide_eq_true_eq]
  rw [checkTime_eq, hhour]
  by_cases hclock : clock.IsReal
  · exact Or.inl ⟨hclock, if_pos (htime.mpr hclock)⟩
  · exact Or.inr ⟨_, .notTimeOfDay hshown hclock, if_neg (mt htime.mp hclock)⟩

/-- A clock passes its check, or the check tells what is wrong with it. -/
theorem checkTime_cases (clock : Clock) : (clock.IsReal ∧ checkTime clock.text = .ok ()) ∨
    ∃ reason, clock.Fault reason ∧ checkTime clock.text = .error reason := by
  cases hsuffix : clock.suffix? with
  | none =>
      refine checkTime_of_hour (by rw [hsuffix]; rfl) (Or.inl hsuffix) ?_
      rw [isReal_of_none hsuffix]
      omega
  | some suffix =>
      by_cases hshown : 1 ≤ clock.hour.value ∧ clock.hour.value ≤ 12
      · obtain ⟨hour, hhour, hlt⟩ := hourOfDay_of_shown hshown suffix.half
        refine checkTime_of_hour (by rw [hsuffix]; exact hhour) (Or.inr hshown) ?_
        rw [isReal_of_some hsuffix]
        omega
      · refine Or.inr ⟨_, .hourOutOfRange hsuffix hshown, ?_⟩
        rw [checkTime_eq, hsuffix, Option.map_some, hourOfDay_of_not_shown hshown]
        rfl

end Clock

/-! ## Moments and their checks -/

theorem Day.not_isBlank (day : Day) : ∀ c ∈ day.text, Text.isBlank c = false := by
  have hdigits : ∀ {least most : Nat} (figures : Figures least most), ∀ c ∈ figures.text,
      Text.isBlank c = false :=
    fun figures c hc => Rule.not_isBlank_of_isDigit (figures.isDigits.isDigit c hc)
  intro c hc
  simp only [Day.text, List.mem_append, List.mem_cons] at hc
  rcases hc with hc | rfl | hc | rfl | hc
  · exact hdigits day.year c hc
  · decide
  · exact hdigits day.month c hc
  · decide
  · exact hdigits day.day c hc

theorem Clock.stops_isBlank (clock : Clock) : Stops Text.isBlank clock.text := by
  obtain ⟨c, more, hcons⟩ := List.exists_cons_of_ne_nil (clock.hour.ne_nil (by decide))
  rw [Clock.text, hcons]
  refine stops_cons (Rule.not_isBlank_of_isDigit (clock.hour.isDigits.isDigit c ?_)) _
  rw [hcons]
  exact List.mem_cons_self

/-- A day and a clock are checked one after the other. -/
theorem checkDateTime_eq (day : Day) {gap : List Char} (clock : Clock) (hne : gap ≠ [])
    (hblank : ∀ c ∈ gap, Text.isBlank c = true) : checkDateTime (day.text ++ gap ++ clock.text) =
      (checkDate day.text).bind fun _ => checkTime clock.text := by
  -- the text is cut at the first character of the gap, and the rest of the gap is dropped
  obtain ⟨c, more, rfl⟩ := List.exists_cons_of_ne_nil hne
  rw [List.forall_mem_cons] at hblank
  have hcut : cutAt Text.isBlank (day.text ++ c :: more ++ clock.text) =
      (day.text, some (more ++ clock.text)) := by
    rw [List.append_assoc, List.cons_append]
    exact cutAt_of_mem day.not_isBlank hblank.1 _
  have htime : Text.dropBlanks (more ++ clock.text) = clock.text := by
    rw [Text.dropBlanks_append_of_blank hblank.2, dropBlanks_of_stops clock.stops_isBlank]
  simp only [checkDateTime, hcut, htime]
  rfl

namespace Moment

/-- What is wrong with a moment.  Where both day and clock are wrong, it is the day. -/
inductive Fault : Moment → FaultReason → Prop where
  | time {clock : Clock} {reason : FaultReason} (h : clock.Fault reason) :
      Fault (.time clock) reason
  | date {day : Day} (h : ¬ day.IsReal) :
      Fault (.date day) (.notCalendarDate (String.ofList day.text))
  | dayOf {day : Day} {gap : List Char} {clock : Clock} {hne : gap ≠ []}
      {hblank : ∀ c ∈ gap, Text.isBlank c = true} (h : ¬ day.IsReal) :
      Fault (.dateTime day gap clock hne hblank) (.notCalendarDate (String.ofList day.text))
  | clockOf {day : Day} {gap : List Char} {clock : Clock} {hne : gap ≠ []}
      {hblank : ∀ c ∈ gap, Text.isBlank c = true} {reason : FaultReason} (hday : day.IsReal)
      (h : clock.Fault reason) : Fault (.dateTime day gap clock hne hblank) reason

theorem Fault.not_isReal {moment : Moment} {reason : FaultReason} (h : moment.Fault reason) :
    ¬ moment.IsReal := by
  cases h with
  | time h => exact h.not_isReal
  | date h => exact h
  | dayOf h => exact fun hreal => h hreal.1
  | clockOf hday h => exact fun hreal => h.not_isReal hreal.2

/-- A moment passes its check, or the check tells what is wrong with it. -/
theorem check_cases (moment : Moment) : (moment.IsReal ∧ moment.check moment.text = .ok ()) ∨
    ∃ reason, moment.Fault reason ∧ moment.check moment.text = .error reason := by
  cases moment with
  | time clock =>
      rcases clock.checkTime_cases with hreal | ⟨reason, hfault, hcheck⟩
      · exact Or.inl hreal
      · exact Or.inr ⟨reason, .time hfault, hcheck⟩
  | date day =>
      rcases day.checkDate_cases with hreal | ⟨hreal, hcheck⟩
      · exact Or.inl hreal
      · exact Or.inr ⟨_, .date hreal, hcheck⟩
  | dateTime day gap clock hne hblank =>
      have hcheck := checkDateTime_eq day clock hne hblank
      rcases day.checkDate_cases with ⟨hday, hdate⟩ | ⟨hday, hdate⟩
      · rw [hdate] at hcheck
        rcases clock.checkTime_cases with ⟨hclock, htime⟩ | ⟨reason, hfault, htime⟩
        · exact Or.inl ⟨⟨hday, hclock⟩, hcheck.trans htime⟩
        · exact Or.inr ⟨reason, .clockOf hday hfault, hcheck.trans htime⟩
      · rw [hdate] at hcheck
        exact Or.inr ⟨_, .dayOf hday, hcheck⟩

theorem readChecked_cases (moment : Moment) :
    (moment.IsReal ∧ readChecked true moment.kind moment.check moment.literal moment.text =
      .ok (moment.literal (String.ofList moment.text))) ∨
    ∃ reason, moment.Fault reason ∧
      readChecked true moment.kind moment.check moment.literal moment.text =
        .error ⟨moment.kind, reason⟩ := by
  rcases moment.check_cases with ⟨hreal, hcheck⟩ | ⟨reason, hfault, hcheck⟩
  · exact Or.inl ⟨hreal, readChecked_of_ok hcheck⟩
  · exact Or.inr ⟨reason, hfault, readChecked_of_error hcheck⟩

/-- What the rule of a moment makes of a text. -/
theorem eq_of_makes (moment : Moment) {validate : Bool} {text : List Char}
    {outcome : Except LiteralFault Token}
    (h : (Shape.rule moment.rule).Makes validate text outcome) : outcome =
      (readChecked validate moment.kind moment.check moment.literal text).map .literal := by
  cases moment <;> cases h <;> rfl

end Moment

/-! ## Texts that the rules find -/

variable {cs text rest : List Char}

theorem exists_day (h : Rule.scanDate cs = some (text, rest)) : ∃ day : Day, day.text = text := by
  obtain ⟨year, month, day, hyear, hmonth, hday, rfl, -, -⟩ := Rule.scanDate_eq_some.mp h
  exact ⟨⟨⟨year, hyear⟩, ⟨month, hmonth⟩, ⟨day, hday⟩⟩, by simp [Day.text]⟩

theorem exists_suffix (h : Rule.scanHalf cs = some (text, rest)) :
    ∃ suffix : Suffix, suffix.text = text := by
  obtain ⟨gap, word, hgap, hword, rfl, -, -⟩ := Rule.scanHalf_eq_some.mp h
  rcases hword with ham | hpm
  · exact ⟨⟨gap, word, .am, hgap, ham⟩, rfl⟩
  · exact ⟨⟨gap, word, .pm, hgap, hpm⟩, rfl⟩

theorem exists_clock (h : Rule.scanTime cs = some (text, rest)) :
    ∃ clock : Clock, clock.text = text := by
  obtain ⟨clockText, left, hclock, hleft⟩ := Rule.scanTime_eq_some.mp h
  obtain ⟨hour, minute, hhour, hminute, rfl, -, -⟩ := Rule.scanClock_eq_some.mp hclock
  rcases hleft with ⟨half, hhalf, rfl⟩ | ⟨-, -, rfl⟩
  · obtain ⟨suffix, rfl⟩ := exists_suffix hhalf
    exact ⟨⟨⟨hour, hhour⟩, ⟨minute, hminute⟩, some suffix⟩, by simp [Clock.text]⟩
  · exact ⟨⟨⟨hour, hhour⟩, ⟨minute, hminute⟩, none⟩, by simp [Clock.text]⟩

/-- What one of the rules for times and dates finds is the text of a moment. -/
theorem exists_moment {rule : Rule} (htemporal : rule ∈ [Rule.time, .date, .dateTime])
    (h : rule.scan cs = some (text, rest)) :
    ∃ moment : Moment, moment.rule = rule ∧ moment.text = text := by
  simp only [List.mem_cons, List.not_mem_nil, or_false] at htemporal
  rcases htemporal with rfl | rfl | rfl
  · obtain ⟨clock, rfl⟩ := exists_clock h
    exact ⟨.time clock, rfl, rfl⟩
  · obtain ⟨day, rfl⟩ := exists_day h
    exact ⟨.date day, rfl, rfl⟩
  · obtain ⟨date, gap, time, behind, left, hdate, hgap, htime, rfl⟩ :=
      Rule.scanDateTime_eq_some.mp h
    obtain ⟨day, rfl⟩ := exists_day hdate
    obtain ⟨clock, rfl⟩ := exists_clock htime
    obtain ⟨hne, hmany⟩ := many1_eq_some.mp hgap
    exact ⟨.dateTime day gap clock hne (many_eq_some.mp hmany).1, rfl, rfl⟩

end Literal

/-! ## Lexers that check -/

theorem Pattern.Longest.unique {pattern : Pattern} {cs text other : List Char}
    (h : pattern.Longest cs text) (h' : pattern.Longest cs other) : text = other := by
  obtain ⟨rest, hcs, hmatch⟩ := h.isMatch
  obtain ⟨rest', hcs', hmatch'⟩ := h'.isMatch
  have hlength : text.length = other.length :=
    le_antisymm (h'.length_le text rest hcs hmatch) (h.length_le other rest' hcs' hmatch')
  exact (List.append_inj (hcs.symm.trans hcs') hlength).1

theorem Shape.isFirst_of_find? {rule : Rule} {cs text rest : List Char}
    (h : Rule.find? cs = some (rule, text, rest)) : (Shape.rule rule).IsFirst cs := by
  obtain ⟨hscan, hearlier⟩ := Rule.find?_eq_some.mp h
  refine ⟨matchesStart_iff.mpr ⟨text, rest, hscan⟩, fun other hother => scan_eq_none_iff.mp ?_⟩
  rw [before_rule, List.mem_cons, List.mem_map] at hother
  rcases hother with rfl | ⟨earlier, hmem, rfl⟩
  · obtain ⟨c, more, htext, hc⟩ := Rule.starts_of_scan hscan
    have hsplit := Rule.splits_scan rule cs text rest hscan
    rw [hsplit, htext]
    simp [scan, Scan.one, ofChar?_of_starts hc]
  · exact hearlier earlier hmem

namespace Lexer

open Literal

/-- A lexer that checks times and dates, in front of a text of one of their rules: all of the
text that the rule finds is that of a moment.  If there is such a moment, the lexer returns
its literal, and this keeps the text as it is.  If there is not, the lexer refuses all of the
text, which was taken for what the rule finds. -/
theorem nextToken_moment {lexer : Lexer} {rule : Rule} (hvalidate : lexer.validate = true)
    (htemporal : rule ∈ [Rule.time, .date, .dateTime])
    (hfirst : (Shape.rule rule).IsFirst (Text.dropBlanks lexer.rest)) :
    (∃ moment : Moment, moment.rule = rule ∧
      rule.pattern.Longest (Text.dropBlanks lexer.rest) moment.text) ∧
    ∀ moment : Moment, moment.rule = rule →
      rule.pattern.Longest (Text.dropBlanks lexer.rest) moment.text →
        (moment.IsReal → lexer.nextToken.1 =
          .ok (some ⟨.literal (moment.literal (String.ofList moment.text)),
            lexer.skipBlanks.place, Text.byteLength moment.text⟩)) ∧
        (¬ moment.IsReal → ∃ reason, lexer.nextToken.1 =
          .error (.invalidLiteral lexer.skipBlanks.place (String.ofList moment.text)
            ⟨moment.kind, reason⟩)) := by
  constructor
  · obtain ⟨text, rest, hscan⟩ := Shape.matchesStart_iff.mp hfirst.matchesStart
    obtain ⟨moment, hrule, rfl⟩ := exists_moment htemporal hscan
    exact ⟨moment, hrule, Shape.longest_of_scan hscan⟩
  · rintro moment rfl hlongest
    obtain ⟨text, outcome, hlongest', hmakes, hnext⟩ := hfirst.nextToken
    rw [hvalidate] at hmakes
    obtain rfl := hlongest.unique hlongest'
    rw [hnext, moment.eq_of_makes hmakes]
    rcases moment.readChecked_cases with ⟨hreal, hread⟩ | ⟨reason, hfault, hread⟩
    · rw [hread]
      exact ⟨fun _ => rfl, fun hnone => absurd hreal hnone⟩
    · rw [hread]
      exact ⟨fun hreal => absurd hreal hfault.not_isReal, fun _ => ⟨reason, rfl⟩⟩

/-- The last minute of the hour after noon, on a day that only leap years have. -/
theorem nextToken_moment_leap :
    ∃ spanned, ((Lexer.start "\t2024-2-29 \n12:59Pm)").withValidation true).nextToken.1 =
        .ok (some spanned) ∧
      spanned.token = .literal (.dateTime "2024-2-29 \n12:59Pm") := by
  have hfind : Rule.find? (Text.dropBlanks ((Lexer.start
      "\t2024-2-29 \n12:59Pm)").withValidation true).rest) =
        some (.dateTime, "2024-2-29 \n12:59Pm".toList, [')']) := by
    decide +kernel
  have hdigits : ∀ {text : List Char}, text.all Char.isDigit = true →
      ∀ c ∈ text, c.isDigit = true := List.all_eq_true.mp
  let day : Day := ⟨⟨['2', '0', '2', '4'], hdigits rfl, by decide, by decide⟩,
    ⟨['2'], hdigits rfl, by decide, by decide⟩, ⟨['2', '9'], hdigits rfl, by decide, by decide⟩⟩
  let clock : Clock := ⟨⟨['1', '2'], hdigits rfl, by decide, by decide⟩,
    ⟨['5', '9'], hdigits rfl, by decide, by decide⟩, some ⟨[], ['P', 'm'], .pm, by simp, by decide⟩⟩
  have hday : HasDay (2024 : Nat) 2 29 := hasDay_iff.mpr (by decide)
  have hclock : 1 ≤ 12 ∧ 12 ≤ 12 ∧ 59 ≤ 59 := by decide
  have hblank : ∀ c ∈ [' ', '\n'], Text.isBlank c = true := List.all_eq_true.mp rfl
  have hlongest := (Rule.finds_scan .dateTime).longest (Rule.splits_scan .dateTime)
    (Rule.scan_of_find? hfind)
  have hnext := (nextToken_moment rfl (by decide) (Shape.isFirst_of_find? hfind)).2
    (.dateTime day [' ', '\n'] clock (by simp) hblank) rfl hlongest
  exact ⟨_, hnext.1 ⟨hday, hclock⟩, rfl⟩

end Lexer

end RecordQuery

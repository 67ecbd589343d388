import Mathlib.Data.List.Basic
import RecordQuery.Proofs.Token.Boundary

/-!
# Texts that are one token

Which rule takes a text is decided by its first character and, where it is a digit, by
what the earlier rules find.  What a rule takes from a text it also takes where a
delimiter and other text stand behind it (`find?_extend`), with two exceptions: a date in
front of a time, and a time in front of a half of the day.  A lexeme is a text that a rule
takes as a whole, and whatever has been read is a lexeme by itself (`find?_self`).
-/

namespace RecordQuery

namespace Rule

open Scan

variable {rule : Rule} {cs text rest ds : List Char}

/-! ## First characters -/

/-- Whether a text that a rule takes can start with a character. -/
def starts : Rule → Char → Bool
  | actionKey, c => c == ':'
  | operator, c => ['=', '!', '>', '<'].contains c
  | identifier, c => isNameStart c
  | dateTime, c | date, c | time, c => c.isDigit
  | string, c => isQuote c
  | number, c => c.isDigit || ['+', '-'].contains c

theorem isDigit_of_scanDate (h : scanDate cs = some (text, rest)) :
    ∃ c more, text = c :: more ∧ c.isDigit = true := by
  obtain ⟨year, month, day, hyear, -, -, rfl, -, -⟩ := scanDate_eq_some.mp h
  cases year with
  | nil => exact absurd hyear.least_le (by simp)
  | cons c year => exact ⟨c, _, rfl, hyear.isDigit c List.mem_cons_self⟩

theorem isDigit_of_scanClock (h : scanClock cs = some (text, rest)) :
    ∃ c more, text = c :: more ∧ c.isDigit = true := by
  obtain ⟨hour, minute, hhour, -, rfl, -, -⟩ := scanClock_eq_some.mp h
  cases hour with
  | nil => exact absurd hhour.least_le (by simp)
  | cons c hour => exact ⟨c, _, rfl, hhour.isDigit c List.mem_cons_self⟩

theorem starts_of_scan (h : rule.scan cs = some (text, rest)) :
    ∃ c more, text = c :: more ∧ rule.starts c = true := by
  cases rule with
  | actionKey =>
      obtain ⟨name, -, -, rfl, -, -⟩ := scanActionKey_eq_some.mp h
      exact ⟨':', name, rfl, rfl⟩
  | operator =>
      obtain ⟨choice, hchoice, hfound⟩ := List.exists_of_findSome?_eq_some h
      simp only [List.mem_cons, List.not_mem_nil, or_false] at hchoice
      rcases hchoice with rfl | rfl | rfl | rfl | rfl | rfl | rfl | rfl
      -- the two operators that end as words do
      case inr.inr.inr.inr.inr.inr.inl | inr.inr.inr.inr.inr.inr.inr =>
        obtain ⟨head, _, more, hword, -, rfl⟩ := sequence_cons_eq_some.mp hfound
        rw [text_of_word hword]
        exact ⟨_, _, rfl, rfl⟩
      all_goals
        rw [text_of_word hfound]
        exact ⟨_, _, rfl, rfl⟩
  | identifier =>
      obtain ⟨c, more, hc, -, rfl, -⟩ := scanIdentifier_eq_some.mp h
      exact ⟨c, _, rfl, hc⟩
  | dateTime =>
      obtain ⟨date, gap, time, behind, left, hdate, -, -, rfl⟩ := scanDateTime_eq_some.mp h
      obtain ⟨c, more, rfl, hc⟩ := isDigit_of_scanDate hdate
      exact ⟨c, _, rfl, hc⟩
  | date => exact isDigit_of_scanDate h
  | time =>
      obtain ⟨clock, left, hclock, hleft⟩ := scanTime_eq_some.mp h
      obtain ⟨c, more, rfl, hc⟩ := isDigit_of_scanClock hclock
      rcases hleft with ⟨half, -, rfl⟩ | ⟨-, -, rfl⟩
      · exact ⟨c, _, rfl, hc⟩
      · exact ⟨c, _, rfl, hc⟩
  | string =>
      obtain ⟨quote, behind, more, hquote, -, rfl, -⟩ := scanString_eq_some.mp h
      exact ⟨quote, more, rfl, hquote⟩
  | number =>
      obtain ⟨sign, digits, behind, hsign, hne, hdigits, -, rfl⟩ := exists_of_scanNumber h
      rcases hsign with rfl | rfl | rfl
      · cases digits with
        | nil => exact absurd rfl hne
        | cons c digits => exact ⟨c, _, rfl, by simp [starts, hdigits c List.mem_cons_self]⟩
      · exact ⟨'+', _, rfl, rfl⟩
      · exact ⟨'-', _, rfl, rfl⟩

/-- No token starts with white space. -/
theorem not_isBlank_of_starts {c : Char} (h : rule.starts c = true) : Text.isBlank c = false := by
  have hpart : isNamePart c = true → Text.isBlank c = false := not_isBlank_of_isNamePart
  have hlist : ∀ cs : List Char, cs.all (fun d => !Text.isBlank d) = true → cs.contains c = true →
      Text.isBlank c = false := by
    intro cs hcs hc
    simpa using List.all_eq_true.mp hcs c (List.contains_iff_mem.mp hc)
  cases rule with
  | actionKey => exact hlist [':'] (by decide) (by simpa [starts] using h)
  | operator => exact hlist ['=', '!', '>', '<'] (by decide) h
  | identifier => exact hpart (by simp [isNamePart, show isNameStart c = true from h])
  | string => exact hlist ['"', '\''] (by decide) (by simpa [starts, isQuote] using h)
  | number =>
      rcases Bool.or_eq_true_iff.mp h with hdigit | hsign
      · exact hpart (by simp [isNamePart, hdigit])
      · exact hlist ['+', '-'] (by decide) hsign
  | _ => exact hpart (by simp [isNamePart, show c.isDigit = true from h])

/-- A rule takes nothing where it cannot start. -/
theorem scan_none_of_starts (h : ∀ c ∈ cs.head?, rule.starts c = false) : rule.scan cs = none := by
  rw [Option.eq_none_iff_forall_ne_some]
  rintro ⟨text, rest⟩ hscan
  obtain ⟨c, more, rfl, hc⟩ := starts_of_scan hscan
  rw [splits_scan rule cs _ rest hscan] at h
  rw [h c rfl] at hc
  cases hc

/-! ## The first rule -/

/-- The rules that are tried before a rule. -/
def before (rule : Rule) : List Rule :=
  all.takeWhile (· ≠ rule)

/-- What stands before an item of a list is what is found before meeting it. -/
theorem mem_of_mem_takeWhile_ne {α : Type} [DecidableEq α] {front back : List α} {item other : α}
    (h : other ∈ (front ++ item :: back).takeWhile (· ≠ item)) : other ∈ front := by
  have hstop : (item :: back).takeWhile (· ≠ item) = [] := by simp
  rw [List.takeWhile_append, hstop, List.append_nil] at h
  split at h
  · exact h
  · exact (List.takeWhile_sublist _).subset h

theorem find?_eq_some : find? cs = some (rule, text, rest) ↔
    rule.scan cs = some (text, rest) ∧ ∀ earlier ∈ rule.before, earlier.scan cs = none := by
  constructor
  · intro h
    have hscan := scan_of_find? h
    obtain ⟨front, found, back, hall, hfound, hfront⟩ := List.findSome?_eq_some_iff.mp h
    obtain ⟨pair, -, hpair⟩ := Option.map_eq_some_iff.mp hfound
    cases hpair
    refine ⟨hscan, fun earlier hearlier => ?_⟩
    rw [before, hall] at hearlier
    exact Option.map_eq_none_iff.mp (hfront earlier (mem_of_mem_takeWhile_ne hearlier))
  · rintro ⟨hscan, hearlier⟩
    obtain ⟨back, hall⟩ : ∃ back, all = rule.before ++ rule :: back := by
      cases rule <;> exact ⟨_, rfl⟩
    rw [find?, hall, List.findSome?_append, List.findSome?_eq_none_iff.mpr, Option.none_or,
      List.findSome?_cons, hscan]
    · rfl
    · intro earlier hmem
      rw [hearlier earlier hmem]
      rfl

/-! ## A lexeme in front of a delimiter -/

/-- Only dates, times and numbers start with a digit. -/
theorem not_starts_of_isDigit {c : Char} (h : c.isDigit = true) :
    ∀ rule ∈ [actionKey, operator, identifier, string], rule.starts c = false := by
  have hne : ∀ d : Char, d.isDigit = false → c ≠ d := by
    rintro d hd rfl
    rw [h] at hd
    cases hd
  have halpha : c.isAlpha = false := Bool.eq_false_iff.mpr fun halpha => by
    rw [not_isDigit_of_isAlpha halpha] at h
    cases h
  simp [starts, isNameStart, isQuote, halpha, hne]

/-- Only names start with a letter or a low line. -/
theorem not_starts_of_isNameStart {c : Char} (h : isNameStart c = true)
    (hrule : rule ≠ identifier) : rule.starts c = false := by
  have hne : ∀ d : Char, isNameStart d = false → c ≠ d := by
    rintro d hd rfl
    rw [h] at hd
    cases hd
  have hdigit : c.isDigit = false := by
    rcases Bool.or_eq_true_iff.mp h with halpha | hline
    · exact not_isDigit_of_isAlpha halpha
    · rw [eq_of_beq hline]
      decide
  cases rule with
  | identifier => exact absurd rfl hrule
  | actionKey => exact beq_eq_false_iff_ne.mpr (hne ':' (by decide))
  | operator => simp [starts, hne '=' (by decide), hne '!' (by decide), hne '>' (by decide),
      hne '<' (by decide)]
  | string => simp [starts, isQuote, hne '"' (by decide), hne '\'' (by decide)]
  | number => simp [starts, hdigit, hne '+' (by decide), hne '-' (by decide)]
  | _ => exact hdigit

theorem scan_none_of_not_starts {c : Char} (h : rule.starts c = false) :
    rule.scan (c :: cs) = none := by
  exact scan_none_of_starts (stops_cons h cs)

theorem not_isQuote_of_starts_number {c : Char} (h : number.starts c = true) :
    string.starts c = false := by
  simp only [starts, Bool.or_eq_true] at h
  rcases h with hdigit | hsign
  · exact not_starts_of_isDigit hdigit string (by simp)
  · simp only [List.contains_eq_mem, List.mem_cons, List.not_mem_nil, or_false,
      decide_eq_true_eq] at hsign
    rcases hsign with rfl | rfl <;> decide

/-- What a rule takes it also takes where a delimiter and other text stand behind all,
unless a date could go on with a time there, or a time with a half of the day. -/
theorem find?_extend (h : find? cs = some (rule, text, rest)) (hds : Delimited ds)
    (hdate : rule = date → scanDateTime (cs ++ ds) = none)
    (hhalf : rule = time ∨ rule = dateTime → EndsInDigit text → scanHalf (rest ++ ds) = none) :
    find? (cs ++ ds) = some (rule, text, rest ++ ds) := by
  obtain ⟨hscan, hbefore⟩ := find?_eq_some.mp h
  have hnone : ∀ earlier, earlier ∈ rule.before → earlier ≠ time → earlier ≠ dateTime →
      earlier ≠ string → earlier.scan (cs ++ ds) = none :=
    fun earlier hmem htime hdateTime hstring =>
      (ignores_scan hds htime hdateTime hstring).none (hbefore earlier hmem)
  -- the rule takes the same text, and no earlier one takes any
  refine find?_eq_some.mpr ⟨?_, fun earlier hmem => ?_⟩
  · cases rule with
    | dateTime => exact scanDateTime_extend hds hscan (hhalf (Or.inr rfl))
    | time => exact scanTime_extend hds hscan (hhalf (Or.inl rfl))
    | string => exact scanString_extend hscan ds
    | _ => exact (ignores_scan hds (by simp) (by simp) (by simp)).extends cs text rest hscan
  · cases earlier with
    | dateTime =>
        by_cases hrule : rule = date
        · exact hdate hrule
        · have hdate' : date ∈ rule.before := by
            cases rule <;> first | exact absurd rfl hrule | revert hmem; decide
          exact scanDateTime_none (hnone date hdate' (by simp) (by simp) (by simp))
    | time =>
        exact scanTime_none ((ignores_scanClock hds).none (scanClock_none (hbefore time hmem)))
    | string =>
        obtain rfl : rule = number := by
          cases rule <;> first | rfl | exact absurd hmem (by decide)
        obtain ⟨c, more, rfl, hc⟩ := starts_of_scan hscan
        rw [splits_scan number cs _ rest hscan]
        exact scan_none_of_starts (stops_cons (not_isQuote_of_starts_number hc) _)
    | _ => exact hnone _ hmem (by simp) (by simp) (by simp)

/-- A text that a rule takes as a whole ends in front of a delimiter, if what it could take
besides is not there. -/
theorem find?_append (h : find? text = some (rule, text, [])) (hds : Delimited ds)
    (hdate : rule = date → scanTime (Text.dropBlanks ds) = none)
    (hhalf : rule = time ∨ rule = dateTime → EndsInDigit text → scanHalf ds = none) :
    find? (text ++ ds) = some (rule, text, ds) := by
  refine find?_extend h hds ?_ hhalf
  intro hrule
  have hscan := scan_of_find? h
  rw [hrule] at hscan
  have hbehind := (ignores_scanDate hds).extends text text [] hscan
  exact (scanDateTime_eq_none_iff hbehind).mpr (Or.inr (hdate hrule))

/-! ## Times and halves of the day in front of other texts -/

/-- A mark starts neither a time nor a half of the day. -/
theorem scanTime_mark (mark : Mark) (ds : List Char) :
    scanTime (Text.dropBlanks (mark.char :: ds)) = none := by
  have hblank : Text.isBlank mark.char = false := by cases mark <;> decide
  have hdigit : time.starts mark.char = false := by cases mark <;> decide
  rw [dropBlanks_of_stops (stops_cons hblank ds)]
  exact scan_none_of_not_starts hdigit

theorem scanHalf_mark (mark : Mark) (ds : List Char) : scanHalf (mark.char :: ds) = none := by
  have hblank : Text.isBlank mark.char = false := by cases mark <;> decide
  have halpha : mark.char.isAlpha = false := by cases mark <;> decide
  exact scanHalf_cons_none hblank halpha ds

/-- A mark stops every rule. -/
theorem find?_mark (h : find? text = some (rule, text, [])) (mark : Mark) (ds : List Char) :
    find? (text ++ mark.char :: ds) = some (rule, text, mark.char :: ds) :=
  find?_append h (delimited_mark mark ds) (fun _ => scanTime_mark mark ds)
    fun _ _ => scanHalf_mark mark ds

/-- A space stops every rule but those for dates and times. -/
theorem find?_space (h : find? text = some (rule, text, []))
    (hrule : rule ≠ date ∧ rule ≠ time ∧ rule ≠ dateTime) (ds : List Char) :
    find? (text ++ ' ' :: ds) = some (rule, text, ' ' :: ds) := by
  obtain ⟨hdate, htime, hdateTime⟩ := hrule
  refine find?_append h (delimited_cons (by decide)) (fun hrule => absurd hrule hdate) ?_
  rintro (hrule | hrule)
  · exact absurd hrule htime
  · exact absurd hrule hdateTime

/-- Only names start with a letter. -/
theorem not_isAlpha_of_starts {c : Char} (h : rule.starts c = true) (hrule : rule ≠ identifier) :
    c.isAlpha = false := by
  refine Bool.eq_false_iff.mpr fun halpha => ?_
  have hname : isNameStart c = true := by simp [isNameStart, halpha]
  rw [not_starts_of_isNameStart hname hrule] at h
  cases h

/-- Only times start with a time. -/
theorem scanClock_of_find? (h : find? text = some (rule, text, [])) (hrule : rule ≠ time) :
    scanClock text = none := by
  obtain ⟨hscan, hbefore⟩ := find?_eq_some.mp h
  obtain ⟨c, more, rfl, hc⟩ := starts_of_scan hscan
  have hdigit : c.isDigit = false → scanClock (c :: more) = none := by
    intro hdigit
    have hnone : time.scan (c :: more) = none := scan_none_of_not_starts hdigit
    exact scanClock_none hnone
  cases rule with
  | time => exact absurd rfl hrule
  | date => exact scanClock_of_scanDate hscan
  | dateTime =>
      obtain ⟨date, gap, time, behind, left, hdate, -⟩ := scanDateTime_eq_some.mp hscan
      exact scanClock_of_scanDate hdate
  | string => exact scanClock_none (hbefore time (by decide))
  | number => exact scanClock_none (hbefore time (by decide))
  | actionKey =>
      apply hdigit
      rw [eq_of_beq hc]
      decide
  | operator =>
      apply hdigit
      simp only [starts, List.contains_eq_mem, List.mem_cons, List.not_mem_nil, or_false,
        decide_eq_true_eq] at hc
      rcases hc with rfl | rfl | rfl | rfl <;> decide
  | identifier =>
      apply hdigit
      rcases Bool.or_eq_true_iff.mp hc with halpha | hline
      · exact not_isDigit_of_isAlpha halpha
      · rw [eq_of_beq hline]
        decide

/-! ## No lexeme ends in white space -/

theorem getLast?_of_scanToQuote {quote : Char} (h : scanToQuote quote cs = some (text, rest)) :
    text.getLast? = some quote := by
  fun_induction scanToQuote quote cs generalizing text with
  | case1 => cases h
  | case2 cs =>
      cases h
      rfl
  | case3 => cases h
  | case4 c cs hquote ih =>
      obtain ⟨⟨more, left⟩, hmore, hpair⟩ := Option.map_eq_some_iff.mp h
      cases hpair
      rw [List.getLast?_cons, List.getLast?_cons, ih hmore]
      rfl
  | case5 c cs hquote hslash ih =>
      obtain ⟨⟨more, left⟩, hmore, hpair⟩ := Option.map_eq_some_iff.mp h
      cases hpair
      rw [List.getLast?_cons, ih hmore]
      rfl

theorem not_isBlank_last_of_scanTime {front : List Char} {c : Char}
    (h : scanTime (front ++ [c]) = some (front ++ [c], [])) : Text.isBlank c = false := by
  refine Bool.eq_false_iff.mpr fun hblank => ?_
  have hds : Delimited [c] := delimited_cons (by simp [isDelimiter, hblank])
  obtain ⟨clock, left, hclock, hleft⟩ := scanTime_eq_some.mp h
  -- the clock ends in front of the white space, so what is left is not empty
  rw [ignores_scanClock hds front] at hclock
  obtain ⟨⟨clock', left'⟩, -, hpair⟩ := Option.map_eq_some_iff.mp hclock
  obtain ⟨rfl, rfl⟩ := Prod.mk.inj hpair
  rcases hleft with ⟨half, hhalf, -⟩ | ⟨-, hnil, -⟩
  · obtain ⟨gap, word, -, hword, rfl, hsplit, -⟩ := scanHalf_eq_some.mp hhalf
    have hlast : word.getLast? = some c := by
      have := congrArg List.getLast? hsplit
      rw [List.append_nil, List.getLast?_append_of_ne_nil _ hword.ne_nil] at this
      simpa using this.symm
    have hmem := List.mem_of_getLast? hlast
    rw [not_isBlank_of_isAlpha (hword.isAlpha c hmem)] at hblank
    cases hblank
  · simp at hnil

/-- White space at the end would not be taken. -/
theorem not_isBlank_getLast (h : rule.scan text = some (text, [])) :
    ∀ c ∈ text.getLast?, Text.isBlank c = false := by
  intro c hc
  obtain ⟨front, rfl⟩ := List.getLast?_eq_some_iff.mp hc
  have hplain : rule ≠ time → rule ≠ dateTime → rule ≠ string → Text.isBlank c = false := by
    intro htime hdateTime hstring
    refine Bool.eq_false_iff.mpr fun hblank => ?_
    have hds : Delimited [c] := delimited_cons (by simp [isDelimiter, hblank])
    -- white space delimits, so the rule would leave it behind
    rw [ignores_scan hds htime hdateTime hstring front] at h
    obtain ⟨⟨more, left⟩, -, hpair⟩ := Option.map_eq_some_iff.mp h
    simp at hpair
  cases rule with
  | time => exact not_isBlank_last_of_scanTime h
  | dateTime =>
      obtain ⟨date, gap, time, behind, left, -, -, htime, htext⟩ := scanDateTime_eq_some.mp h
      have hleft : left = time := by simpa using splits_scanTime left time [] htime
      subst hleft
      have hne : left ≠ [] := advances_scan .time left left [] htime
      have hlast : left.getLast? = some c := by
        rw [htext, List.getLast?_append_of_ne_nil _ hne] at hc
        exact hc
      obtain ⟨front', rfl⟩ := List.getLast?_eq_some_iff.mp hlast
      exact not_isBlank_last_of_scanTime htime
  | string =>
      obtain ⟨quote, behind, more, hquote, hmore, htext, -⟩ := scanString_eq_some.mp h
      rw [htext, List.getLast?_cons, getLast?_of_scanToQuote hmore] at hc
      cases hc
      rcases Bool.or_eq_true_iff.mp hquote with hquote | hquote <;>
        · rw [eq_of_beq hquote]
          decide
  | _ => exact hplain (by simp) (by simp) (by simp)

/-! ## What was read is a lexeme -/

theorem scan_self (hscan : rule.scan cs = some (text, rest)) (hoperator : rule ≠ operator)
    (hstring : rule ≠ string) (hnumber : rule ≠ number) : rule.scan text = some (text, []) := by
  cases rule with
  | actionKey => exact scanActionKey_self hscan
  | identifier => exact scanIdentifier_self hscan
  | dateTime => exact scanDateTime_self hscan
  | date => exact scanDate_self hscan
  | time => exact scanTime_self hscan
  | operator => exact absurd rfl hoperator
  | string => exact absurd rfl hstring
  | number => exact absurd rfl hnumber

theorem find?_self (h : find? cs = some (rule, text, rest)) (hoperator : rule ≠ operator)
    (hstring : rule ≠ string) (hnumber : rule ≠ number) :
    find? text = some (rule, text, []) := by
  obtain ⟨hscan, hbefore⟩ := find?_eq_some.mp h
  have hself := scan_self hscan hoperator hstring hnumber
  refine find?_eq_some.mpr ⟨hself, fun earlier hmem => ?_⟩
  obtain ⟨c, more, rfl, hc⟩ := starts_of_scan hscan
  -- the earlier rules that matter are those with the same first character
  have hdigits : c.isDigit = true → earlier ∈ [actionKey, operator, identifier, string] →
      earlier.scan (c :: more) = none := fun hdigit hearlier =>
    scan_none_of_not_starts (not_starts_of_isDigit hdigit earlier hearlier)
  cases rule with
  | actionKey => cases hmem
  | identifier =>
      refine scan_none_of_not_starts (not_starts_of_isNameStart hc ?_)
      rintro rfl
      exact absurd hmem (by decide)
  | dateTime =>
      refine hdigits hc ?_
      revert hmem
      cases earlier <;> decide
  | date =>
      cases earlier with
      | dateTime =>
          exact (scanDateTime_eq_none_iff hself).mpr (Or.inr rfl)
      | _ => exact hdigits hc (by revert hmem; decide)
  | time =>
      have hdate : scanDate (c :: more) = none := by
        rw [Option.eq_none_iff_forall_ne_some]
        rintro ⟨date, left⟩ hdate
        rw [scan, scanTime_none (scanClock_of_scanDate hdate)] at hself
        cases hself
      cases earlier with
      | dateTime => exact scanDateTime_none hdate
      | date => exact hdate
      | _ => exact hdigits hc (by revert hmem; decide)
  | operator => exact absurd rfl hoperator
  | string => exact absurd rfl hstring
  | number => exact absurd rfl hnumber

end Rule

end RecordQuery

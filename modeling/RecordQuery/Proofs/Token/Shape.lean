import Mathlib.Data.List.TakeWhile
import RecordQuery.Token.Rule

/-!
# The shapes of times and dates

A scanner is a function; here it is said what texts it takes.  For each piece there is
an equivalence between the outcome of the scanner and the shape of the text: what the
taken text looks like, and what does not follow it.  The shapes of dates, times, halves
of the day and of a date with a time are put together from these.

The shapes show that a text that was taken is taken again where nothing follows it, and
that a time without a half of the day has none behind it (`scanHalf_of_scanTime`).
-/

namespace RecordQuery

theorem Text.dropBlanks_eq_nil_iff {cs : List Char} :
    dropBlanks cs = [] ↔ ∀ c ∈ cs, isBlank c = true :=
  List.dropWhile_eq_nil_iff

namespace Scan

/-! ## Pieces -/

/-- A text does not start with a character of a class. -/
def Stops (isMember : Char → Bool) (ds : List Char) : Prop :=
  ∀ c ∈ ds.head?, isMember c = false

theorem stops_nil (isMember : Char → Bool) : Stops isMember [] := by simp [Stops]

theorem stops_cons {isMember : Char → Bool} {c : Char} (h : isMember c = false) (cs : List Char) :
    Stops isMember (c :: cs) := by
  intro d hd
  cases hd
  exact h

/-- There is no white space to leave out. -/
theorem dropBlanks_of_stops {cs : List Char} (h : Stops Text.isBlank cs) :
    Text.dropBlanks cs = cs := by
  cases cs with
  | nil => rfl
  | cons c cs => simp [Text.dropBlanks, h c rfl]

theorem stops_of_append {isMember : Char → Bool} {front back : List Char}
    (h : Stops isMember (front ++ back)) : Stops isMember front := by
  cases front with
  | nil => exact stops_nil isMember
  | cons c front => exact h

theorem takeWhile_append {isMember : Char → Bool} {ds : List Char} (h : Stops isMember ds)
    (cs : List Char) : (cs ++ ds).takeWhile isMember = cs.takeWhile isMember := by
  induction cs with
  | nil =>
      cases ds with
      | nil => rfl
      | cons d ds => simp [h d rfl]
  | cons c cs ih =>
      cases hc : isMember c with
      | true => simp [hc, ih]
      | false => simp [hc]

theorem dropWhile_append {isMember : Char → Bool} {ds : List Char} (h : Stops isMember ds)
    (cs : List Char) : (cs ++ ds).dropWhile isMember = cs.dropWhile isMember ++ ds := by
  induction cs with
  | nil =>
      cases ds with
      | nil => rfl
      | cons d ds => simp [h d rfl]
  | cons c cs ih =>
      cases hc : isMember c with
      | true => simp [hc, ih]
      | false => simp [hc]

theorem stops_dropWhile (isMember : Char → Bool) (cs : List Char) :
    Stops isMember (cs.dropWhile isMember) := by
  intro c hc
  have := List.head?_dropWhile_not isMember cs
  rw [Option.mem_def.mp hc] at this
  exact this

/-- Characters of a class, and then none. -/
theorem takeWhile_exact {isMember : Char → Bool} {text rest : List Char}
    (htext : ∀ c ∈ text, isMember c = true) (hrest : Stops isMember rest) :
    (text ++ rest).takeWhile isMember = text := by
  rw [takeWhile_append hrest]
  exact List.takeWhile_eq_self_iff.mpr htext

theorem dropWhile_exact {isMember : Char → Bool} {text rest : List Char}
    (htext : ∀ c ∈ text, isMember c = true) (hrest : Stops isMember rest) :
    (text ++ rest).dropWhile isMember = rest := by
  rw [dropWhile_append hrest, List.dropWhile_eq_nil_iff.mpr htext, List.nil_append]

theorem one_eq_some {isMember : Char → Bool} {cs text rest : List Char} :
    one isMember cs = some (text, rest) ↔
      ∃ c, isMember c = true ∧ text = [c] ∧ cs = c :: rest := by
  cases cs with
  | nil => simp [one]
  | cons c cs =>
      cases hc : isMember c with
      | true =>
          simp only [one, hc, if_true, Option.some.injEq, Prod.mk.injEq]
          constructor
          · rintro ⟨rfl, rfl⟩
            exact ⟨c, hc, rfl, rfl⟩
          · rintro ⟨d, -, rfl, heq⟩
            cases heq
            exact ⟨rfl, rfl⟩
      | false =>
          simp only [one, hc, Bool.false_eq_true, if_false, reduceCtorEq, false_iff]
          rintro ⟨d, hd, -, heq⟩
          rw [(List.cons.inj heq).1, hd] at hc
          cases hc

theorem many_eq_some {isMember : Char → Bool} {cs text rest : List Char} :
    many isMember cs = some (text, rest) ↔
      (∀ c ∈ text, isMember c = true) ∧ cs = text ++ rest ∧ Stops isMember rest := by
  simp only [many, Option.some.injEq, Prod.mk.injEq]
  constructor
  · rintro ⟨rfl, rfl⟩
    exact ⟨fun c hc => List.mem_takeWhile_imp hc, List.takeWhile_append_dropWhile.symm,
      stops_dropWhile isMember cs⟩
  · rintro ⟨htext, rfl, hrest⟩
    exact ⟨takeWhile_exact htext hrest, dropWhile_exact htext hrest⟩

theorem many1_eq_some {isMember : Char → Bool} {cs text rest : List Char} :
    many1 isMember cs = some (text, rest) ↔
      text ≠ [] ∧ many isMember cs = some (text, rest) := by
  simp only [many1, many, Option.some.injEq, Prod.mk.injEq]
  cases cs.takeWhile isMember with
  | nil =>
      simp only [reduceCtorEq, false_iff, not_and]
      intro hne hnil
      exact absurd hnil.symm hne
  | cons c run =>
      simp only [Option.some.injEq, Prod.mk.injEq, iff_and_self, and_imp]
      rintro rfl -
      exact List.cons_ne_nil c run

/-- Between `least` and `most` decimal digits. -/
structure IsDigits (least most : Nat) (text : List Char) : Prop where
  isDigit : ∀ c ∈ text, c.isDigit = true
  least_le : least ≤ text.length
  le_most : text.length ≤ most

/-- The digits at the start of a text, as far as they are looked at. -/
theorem takeWhile_take_eq {most : Nat} {text rest : List Char} :
    ((text ++ rest).take most).takeWhile Char.isDigit = text ↔
      (∀ c ∈ text, c.isDigit = true) ∧ text.length ≤ most ∧
        (text.length = most ∨ Stops Char.isDigit rest) := by
  constructor
  · intro h
    have hdigit : ∀ c ∈ text, c.isDigit = true := by
      rw [← h]
      exact fun c hc => List.mem_takeWhile_imp hc
    have hmost : text.length ≤ most := by
      rw [← h]
      exact (List.takeWhile_sublist _).length_le.trans (List.length_take_le _ _)
    refine ⟨hdigit, hmost, ?_⟩
    rw [List.take_append, List.take_of_length_le hmost, List.takeWhile_append_of_pos hdigit,
      List.append_right_eq_self] at h
    -- with room left, a further digit would have been taken
    rcases hmost.eq_or_lt with heq | hlt
    · exact Or.inl heq
    · refine Or.inr fun c hc => ?_
      obtain ⟨more, rfl⟩ := List.head?_eq_some_iff.mp hc
      obtain ⟨room, hroom⟩ := Nat.exists_eq_succ_of_ne_zero (Nat.sub_ne_zero_of_lt hlt)
      rw [hroom, List.take_succ_cons] at h
      exact Bool.eq_false_iff.mpr fun hdigit => by simp [hdigit] at h
  · rintro ⟨hdigit, hmost, hend⟩
    rw [List.take_append, List.take_of_length_le hmost]
    refine takeWhile_exact hdigit fun c hc => ?_
    rcases hend with hlength | hstops
    · simp [hlength] at hc
    · rw [List.head?_take] at hc
      split at hc
      · cases hc
      · exact hstops c hc

theorem digits_eq_some {least most : Nat} {cs text rest : List Char} :
    digits least most cs = some (text, rest) ↔ IsDigits least most text ∧ cs = text ++ rest ∧
      (text.length = most ∨ Stops Char.isDigit rest) := by
  constructor
  · intro h
    obtain rfl := splits_digits least most cs text rest h
    simp only [digits] at h
    split at h
    · cases h
    · next hleast =>
        obtain ⟨htext, -⟩ := Prod.mk.inj (Option.some.inj h)
        obtain ⟨hdigit, hmost, hend⟩ := takeWhile_take_eq.mp htext
        rw [htext] at hleast
        exact ⟨⟨hdigit, Nat.not_lt.mp hleast, hmost⟩, rfl, hend⟩
  · rintro ⟨htext, rfl, hend⟩
    have hrun := takeWhile_take_eq.mpr ⟨htext.isDigit, htext.le_most, hend⟩
    simp [digits, hrun, Nat.not_lt.mpr htext.least_le]

theorem sequence_cons_eq_some {first : Scan} {others : List Scan} {cs text rest : List Char} :
    sequence (first :: others) cs = some (text, rest) ↔
      ∃ head middle more, first cs = some (head, middle) ∧
        sequence others middle = some (more, rest) ∧ text = head ++ more := by
  simp only [sequence]
  cases first cs with
  | none => simp
  | some pair =>
      obtain ⟨head, middle⟩ := pair
      simp only [Option.map_eq_some_iff, Prod.exists, Prod.mk.injEq, Option.some.injEq]
      constructor
      · rintro ⟨more, _, hmore, rfl, rfl⟩
        exact ⟨head, middle, more, ⟨rfl, rfl⟩, hmore, rfl⟩
      · rintro ⟨_, _, more, ⟨rfl, rfl⟩, hmore, rfl⟩
        exact ⟨more, rest, hmore, rfl, rfl⟩

theorem sequence_nil_eq_some {cs text rest : List Char} :
    sequence [] cs = some (text, rest) ↔ text = [] ∧ cs = rest := by
  simp [sequence, eq_comm]

theorem sequence_append (front back : List Scan) (cs : List Char) :
    sequence (front ++ back) cs = (sequence front cs).bind fun (text, rest) =>
      (sequence back rest).map fun (more, rest) => (text ++ more, rest) := by
  induction front generalizing cs with
  | nil => simp [sequence]
  | cons first others ih =>
      simp only [List.cons_append, sequence]
      cases first cs with
      | none => rfl
      | some pair =>
          simp only [ih]
          cases sequence others pair.2 with
          | none => rfl
          | some more => simp [Function.comp_def]

theorem optional_eq_some {piece : Scan} {cs text rest : List Char} :
    Scan.optional piece cs = some (text, rest) ↔
      piece cs = some (text, rest) ∨ (piece cs = none ∧ text = [] ∧ cs = rest) := by
  cases hpiece : piece cs with
  | none => simp [Scan.optional, hpiece, eq_comm]
  | some pair => simp [Scan.optional, hpiece]

theorem wordAnyCase_eq_some {ws cs text rest : List Char} :
    wordAnyCase ws cs = some (text, rest) ↔ text.map Char.toLower = ws ∧ cs = text ++ rest := by
  induction ws generalizing cs text with
  | nil =>
      simp only [wordAnyCase, Option.some.injEq, Prod.mk.injEq, List.map_eq_nil_iff]
      constructor
      · rintro ⟨rfl, rfl⟩
        exact ⟨rfl, rfl⟩
      · rintro ⟨rfl, rfl⟩
        exact ⟨rfl, rfl⟩
  | cons w ws ih =>
      cases cs with
      | nil =>
          simp only [wordAnyCase, reduceCtorEq, false_iff, not_and]
          rintro hmap hnil
          rw [(List.append_eq_nil_iff.mp hnil.symm).1] at hmap
          cases hmap
      | cons c cs =>
          simp only [wordAnyCase, Option.ite_none_right_eq_some, Option.map_eq_some_iff,
            Prod.exists, Prod.mk.injEq]
          constructor
          · rintro ⟨rfl, more, left, hmore, rfl, rfl⟩
            obtain ⟨rfl, rfl⟩ := ih.mp hmore
            exact ⟨rfl, rfl⟩
          · rintro ⟨hmap, hcs⟩
            cases text with
            | nil => cases hmap
            | cons d more =>
                obtain ⟨rfl, rfl⟩ := List.cons.inj hcs
                obtain ⟨hc, hmore⟩ := List.cons.inj hmap
                exact ⟨hc, more, rest, ih.mpr ⟨hmore, rfl⟩, rfl, rfl⟩

theorem wordEnd_eq_some {cs text rest : List Char} :
    wordEnd cs = some (text, rest) ↔ text = [] ∧ cs = rest ∧ Text.endsWord rest = true := by
  simp only [wordEnd, Option.ite_none_right_eq_some, Option.some.injEq, Prod.mk.injEq]
  constructor
  · rintro ⟨h, rfl, rfl⟩
    exact ⟨rfl, rfl, h⟩
  · rintro ⟨rfl, rfl, h⟩
    exact ⟨h, rfl, rfl⟩

end Scan

theorem trimBlanks_eq_self {cs : List Char} (hfirst : Scan.Stops Text.isBlank cs)
    (hlast : ∀ c ∈ cs.getLast?, Text.isBlank c = false) : Text.trimBlanks cs = cs := by
  have hreverse : Scan.Stops Text.isBlank cs.reverse := by
    intro c hc
    rw [List.head?_reverse] at hc
    exact hlast c hc
  rw [Text.trimBlanks, Scan.dropBlanks_of_stops hfirst, Scan.dropBlanks_of_stops hreverse,
    List.reverse_reverse]

namespace Rule

open Scan

variable {cs text rest : List Char}

/-! ## Dates -/

theorem scanDate_eq_some :
    scanDate cs = some (text, rest) ↔ ∃ year month day, IsDigits 4 4 year ∧ IsDigits 1 2 month ∧
      IsDigits 1 2 day ∧ text = year ++ '-' :: month ++ '-' :: day ∧ cs = text ++ rest ∧
        (day.length = 2 ∨ Stops Char.isDigit rest) := by
  simp only [scanDate, sequence_cons_eq_some, sequence_nil_eq_some, digits_eq_some, one_eq_some,
    beq_iff_eq]
  constructor
  · rintro ⟨year, _, _, ⟨hyear, rfl, -⟩, ⟨_, _, _, ⟨_, rfl, rfl, rfl⟩, ⟨month, _, _,
      ⟨hmonth, rfl, -⟩, ⟨_, _, _, ⟨_, rfl, rfl, rfl⟩, ⟨day, _, _, ⟨hday, rfl, hend⟩, ⟨rfl, rfl⟩,
      rfl⟩, rfl⟩, rfl⟩, rfl⟩, rfl⟩
    exact ⟨year, month, day, hyear, hmonth, hday, by simp, by simp, hend⟩
  · rintro ⟨year, month, day, hyear, hmonth, hday, rfl, rfl, hend⟩
    have hhyphen : ∀ more, Stops Char.isDigit ('-' :: more) := by simp [Stops]
    exact ⟨year, _, _, ⟨hyear, by simp, Or.inr (hhyphen _)⟩, ⟨_, _, _, ⟨_, rfl, rfl, rfl⟩,
      ⟨month, _, _, ⟨hmonth, rfl, Or.inr (hhyphen _)⟩, ⟨_, _, _, ⟨_, rfl, rfl, rfl⟩, ⟨day, _, _,
      ⟨hday, rfl, hend⟩, ⟨rfl, rfl⟩, rfl⟩, rfl⟩, rfl⟩, rfl⟩, by simp⟩

/-! ## Times -/

/-- Hour and minute, without a half of the day. -/
def scanClock : Scan :=
  .sequence [.digits 1 2, .one (· == ':'), .digits 1 2]

theorem scanClock_eq_some :
    scanClock cs = some (text, rest) ↔ ∃ hour minute, IsDigits 1 2 hour ∧ IsDigits 1 2 minute ∧
      text = hour ++ ':' :: minute ∧ cs = text ++ rest ∧
        (minute.length = 2 ∨ Stops Char.isDigit rest) := by
  simp only [scanClock, sequence_cons_eq_some, sequence_nil_eq_some, digits_eq_some, one_eq_some,
    beq_iff_eq]
  constructor
  · rintro ⟨hour, _, _, ⟨hhour, rfl, -⟩, ⟨_, _, _, ⟨_, rfl, rfl, rfl⟩, ⟨minute, _, _,
      ⟨hminute, rfl, hend⟩, ⟨rfl, rfl⟩, rfl⟩, rfl⟩, rfl⟩
    exact ⟨hour, minute, hhour, hminute, by simp, by simp, hend⟩
  · rintro ⟨hour, minute, hhour, hminute, rfl, rfl, hend⟩
    have hcolon : ∀ more, Stops Char.isDigit (':' :: more) := by simp [Stops]
    exact ⟨hour, _, _, ⟨hhour, by simp, Or.inr (hcolon _)⟩, ⟨_, _, _, ⟨_, rfl, rfl, rfl⟩,
      ⟨minute, _, _, ⟨hminute, rfl, hend⟩, ⟨rfl, rfl⟩, rfl⟩, rfl⟩, by simp⟩

/-- A text without hyphens is no date. -/
theorem scanDate_of_not_mem (h : '-' ∉ cs) : scanDate cs = none := by
  rw [Option.eq_none_iff_forall_ne_some]
  rintro ⟨text, rest⟩ hscan
  obtain ⟨year, month, day, -, -, -, rfl, rfl, -⟩ := scanDate_eq_some.mp hscan
  simp at h

/-- A text without a colon is no time. -/
theorem scanClock_of_not_mem (h : ':' ∉ cs) : scanClock cs = none := by
  rw [Option.eq_none_iff_forall_ne_some]
  rintro ⟨text, rest⟩ hscan
  obtain ⟨hour, minute, -, -, rfl, rfl, -⟩ := scanClock_eq_some.mp hscan
  simp at h

/-! ## Letters and digits -/

theorem isUpper_iff_toNat {c : Char} : c.isUpper = true ↔ 65 ≤ c.toNat ∧ c.toNat ≤ 90 := by
  change decide _ = true ↔ _
  rw [decide_eq_true_eq]
  exact and_congr UInt32.le_iff_toNat_le UInt32.le_iff_toNat_le

theorem isLower_iff_toNat {c : Char} : c.isLower = true ↔ 97 ≤ c.toNat ∧ c.toNat ≤ 122 := by
  change (decide _ && decide _) = true ↔ _
  rw [Bool.and_eq_true, decide_eq_true_eq, decide_eq_true_eq]
  exact and_congr UInt32.le_iff_toNat_le UInt32.le_iff_toNat_le

theorem isAlpha_iff_toNat {c : Char} :
    c.isAlpha = true ↔
      (65 ≤ c.toNat ∧ c.toNat ≤ 90) ∨ (97 ≤ c.toNat ∧ c.toNat ≤ 122) := by
  rw [← isUpper_iff_toNat, ← isLower_iff_toNat]
  exact Bool.or_eq_true_iff

theorem isDigit_iff_toNat {c : Char} : c.isDigit = true ↔ 48 ≤ c.toNat ∧ c.toNat ≤ 57 :=
  Char.isDigit_iff_toNat

theorem isAlpha_of_toLower {c : Char} (h : c.toLower.isAlpha = true) : c.isAlpha = true := by
  unfold Char.toLower at h
  split at h
  · next hupper =>
      have hrange := isUpper_iff_toNat.mp (decide_eq_true hupper)
      exact isAlpha_iff_toNat.mpr (Or.inl hrange)
  · exact h

theorem not_isDigit_of_isAlpha {c : Char} (h : c.isAlpha = true) : c.isDigit = false := by
  rw [isAlpha_iff_toNat] at h
  refine Bool.eq_false_iff.mpr fun hdigit => ?_
  rw [isDigit_iff_toNat] at hdigit
  omega

theorem not_isBlank_of_isAlpha {c : Char} (h : c.isAlpha = true) : Text.isBlank c = false := by
  rw [isAlpha_iff_toNat] at h
  simp only [Text.isBlank, Text.CodeSet.contains, Text.blankCharacters, List.any_cons,
    List.any_nil, Bool.or_false, Bool.or_eq_false_iff, Bool.and_eq_false_iff,
    decide_eq_false_iff_not]
  omega

/-! ## Halves of the day -/

/-- One of the words for a half of the day. -/
def IsHalf (word : List Char) : Prop :=
  word.map Char.toLower = ['a', 'm'] ∨ word.map Char.toLower = ['p', 'm']

theorem IsHalf.isAlpha {word : List Char} (h : IsHalf word) : ∀ c ∈ word, c.isAlpha = true := by
  intro c hc
  have hlower := List.mem_map_of_mem (f := Char.toLower) hc
  refine isAlpha_of_toLower ?_
  rcases h with h | h <;>
    · rw [h] at hlower
      simp only [List.mem_cons, List.not_mem_nil, or_false] at hlower
      rcases hlower with hlower | hlower <;> rw [hlower] <;> decide

theorem IsHalf.ne_nil {word : List Char} (h : IsHalf word) : word ≠ [] := by
  rintro rfl
  rcases h with h | h <;> cases h

theorem IsHalf.stops_isBlank {word : List Char} (h : IsHalf word) :
    Stops Text.isBlank (word ++ rest) := by
  cases word with
  | nil => exact absurd rfl h.ne_nil
  | cons c word => exact stops_cons (not_isBlank_of_isAlpha (h.isAlpha c List.mem_cons_self)) _

theorem firstOf_half_eq_some :
    firstOf [.wordAnyCase ['a', 'm'], .wordAnyCase ['p', 'm']] cs = some (text, rest) ↔
      IsHalf text ∧ cs = text ++ rest := by
  have hfound : firstOf [.wordAnyCase ['a', 'm'], .wordAnyCase ['p', 'm']] cs =
      (wordAnyCase ['a', 'm'] cs).or (wordAnyCase ['p', 'm'] cs) := by
    simp only [firstOf, List.findSome?_cons, List.findSome?_nil]
    cases wordAnyCase ['a', 'm'] cs <;> cases wordAnyCase ['p', 'm'] cs <;> rfl
  rw [hfound, Option.or_eq_some_iff, wordAnyCase_eq_some, wordAnyCase_eq_some]
  constructor
  · rintro (⟨ham, hcs⟩ | ⟨-, hpm, hcs⟩)
    · exact ⟨Or.inl ham, hcs⟩
    · exact ⟨Or.inr hpm, hcs⟩
  · rintro ⟨ham | hpm, hcs⟩
    · exact Or.inl ⟨ham, hcs⟩
    · refine Or.inr ⟨?_, hpm, hcs⟩
      -- both words have two letters, so no text starts with both
      rw [Option.eq_none_iff_forall_ne_some]
      rintro ⟨taken, left⟩ htaken
      obtain ⟨ham, hcs'⟩ := wordAnyCase_eq_some.mp htaken
      have htwo := congrArg List.length ham
      have htwo' := congrArg List.length hpm
      rw [List.length_map] at htwo htwo'
      obtain ⟨rfl, -⟩ := List.append_inj (hcs'.symm.trans hcs) (htwo.trans htwo'.symm)
      rw [ham] at hpm
      cases hpm

theorem scanHalf_eq_some :
    scanHalf cs = some (text, rest) ↔ ∃ gap word, (∀ c ∈ gap, Text.isBlank c = true) ∧
      IsHalf word ∧ text = gap ++ word ∧ cs = text ++ rest ∧ Text.endsWord rest = true := by
  simp only [scanHalf, sequence_cons_eq_some, sequence_nil_eq_some, many_eq_some,
    firstOf_half_eq_some, wordEnd_eq_some]
  constructor
  · rintro ⟨gap, _, _, ⟨hgap, rfl, -⟩, ⟨word, _, _, ⟨hword, rfl⟩, ⟨_, _, _, ⟨rfl, rfl, hend⟩,
      ⟨rfl, rfl⟩, rfl⟩, rfl⟩, rfl⟩
    exact ⟨gap, word, hgap, hword, by simp, by simp, hend⟩
  · rintro ⟨gap, word, hgap, hword, rfl, rfl, hend⟩
    exact ⟨gap, _, _, ⟨hgap, by simp, hword.stops_isBlank⟩,
      ⟨word, _, _, ⟨hword, rfl⟩, ⟨_, _, _, ⟨rfl, rfl, hend⟩, ⟨rfl, rfl⟩, rfl⟩, rfl⟩, by simp⟩

/-- A text starts with a half of the day that is a word of its own. -/
def StartsHalf (cs : List Char) : Prop :=
  ∃ word rest, cs = word ++ rest ∧ IsHalf word ∧ Text.endsWord rest = true

theorem scanHalf_eq_none_iff : scanHalf cs = none ↔ ¬ StartsHalf (Text.dropBlanks cs) := by
  constructor
  · intro hnone hstarts
    obtain ⟨word, rest, hcs, hword, hend⟩ := hstarts
    have hsplit : cs = cs.takeWhile Text.isBlank ++ word ++ rest := by
      rw [List.append_assoc, ← hcs, Text.takeWhile_append_dropBlanks]
    have hgap : ∀ c ∈ cs.takeWhile Text.isBlank, Text.isBlank c = true :=
      fun c hc => List.mem_takeWhile_imp hc
    rw [scanHalf_eq_some.mpr ⟨_, word, hgap, hword, rfl, hsplit, hend⟩] at hnone
    cases hnone
  · intro hstarts
    refine Option.eq_none_iff_forall_ne_some.mpr fun pair hscan => hstarts ?_
    obtain ⟨gap, word, hgap, hword, htext, hcs, hend⟩ := scanHalf_eq_some.mp hscan
    refine ⟨word, pair.2, ?_, hword, hend⟩
    rw [hcs, htext, List.append_assoc, Text.dropBlanks_append_of_blank hgap]
    exact dropBlanks_of_stops hword.stops_isBlank

/-- White space in front of a half of the day belongs to it. -/
theorem scanHalf_dropBlanks : scanHalf (Text.dropBlanks cs) = none ↔ scanHalf cs = none := by
  rw [scanHalf_eq_none_iff, scanHalf_eq_none_iff, Text.dropBlanks_dropBlanks]

/-! ## Times of day -/

/-- A time of day is a clock with the half of the day behind it, if there is one. -/
theorem scanTime_eq (cs : List Char) : scanTime cs = (scanClock cs).map fun (clock, left) =>
    (clock ++ ((scanHalf left).getD ([], left)).1, ((scanHalf left).getD ([], left)).2) := by
  have hcut : scanTime = Scan.sequence ([.digits 1 2, .one (· == ':'), .digits 1 2] ++
      [.optional scanHalf]) := rfl
  rw [hcut, sequence_append, ← scanClock]
  cases scanClock cs with
  | none => rfl
  | some pair => simp [Scan.sequence, Scan.optional]

theorem scanTime_eq_some :
    scanTime cs = some (text, rest) ↔ ∃ clock left, scanClock cs = some (clock, left) ∧
      ((∃ half, scanHalf left = some (half, rest) ∧ text = clock ++ half) ∨
        (scanHalf left = none ∧ left = rest ∧ text = clock)) := by
  rw [scanTime_eq]
  simp only [Option.map_eq_some_iff, Prod.exists, Prod.mk.injEq]
  constructor
  · rintro ⟨clock, left, hclock, htext, hrest⟩
    refine ⟨clock, left, hclock, ?_⟩
    cases hhalf : scanHalf left with
    | none =>
        rw [hhalf] at htext hrest
        exact Or.inr ⟨rfl, hrest, by simpa using htext.symm⟩
    | some pair =>
        rw [hhalf] at htext hrest
        exact Or.inl ⟨pair.1, by rw [← hrest]; rfl, htext.symm⟩
  · rintro ⟨clock, left, hclock, ⟨half, hhalf, rfl⟩ | ⟨hhalf, rfl, rfl⟩⟩
    · exact ⟨clock, left, hclock, by simp [hhalf], by simp [hhalf]⟩
    · exact ⟨text, left, hclock, by simp [hhalf], by simp [hhalf]⟩

theorem scanDateTime_eq_some :
    scanDateTime cs = some (text, rest) ↔ ∃ date gap time behind left,
      scanDate cs = some (date, behind) ∧ many1 Text.isBlank behind = some (gap, left) ∧
        scanTime left = some (time, rest) ∧ text = date ++ gap ++ time := by
  simp only [scanDateTime, sequence_cons_eq_some, sequence_nil_eq_some]
  constructor
  · rintro ⟨date, behind, _, hdate, ⟨gap, left, _, hgap, ⟨time, _, _, htime, ⟨rfl, rfl⟩, rfl⟩,
      rfl⟩, rfl⟩
    exact ⟨date, gap, time, behind, left, hdate, hgap, htime, by simp⟩
  · rintro ⟨date, gap, time, behind, left, hdate, hgap, htime, rfl⟩
    exact ⟨date, behind, _, hdate, ⟨gap, left, _, hgap, ⟨time, _, _, htime, ⟨rfl, rfl⟩, rfl⟩,
      rfl⟩, by simp⟩

/-- A date goes on where white space and a time stand behind it, and not otherwise. -/
theorem scanDateTime_eq_none_iff (h : scanDate cs = some (text, rest)) :
    scanDateTime cs = none ↔
      Stops Text.isBlank rest ∨ scanTime (Text.dropBlanks rest) = none := by
  constructor
  · intro hnone
    by_cases hgap : rest.takeWhile Text.isBlank = []
    · have hdrop := Text.takeWhile_append_dropBlanks rest
      rw [hgap, List.nil_append] at hdrop
      exact Or.inl (hdrop ▸ stops_dropWhile Text.isBlank rest)
    · refine Or.inr (Option.eq_none_iff_forall_ne_some.mpr fun pair htime => ?_)
      have hmany : many1 Text.isBlank rest = some (rest.takeWhile Text.isBlank,
          Text.dropBlanks rest) := many1_eq_some.mpr ⟨hgap, rfl⟩
      rw [scanDateTime_eq_some.mpr ⟨text, _, pair.1, rest, _, h, hmany, htime, rfl⟩] at hnone
      cases hnone
  · intro hend
    refine Option.eq_none_iff_forall_ne_some.mpr fun pair hscan => ?_
    obtain ⟨date, gap, time, behind, left, hdate, hgap, htime, -⟩ := scanDateTime_eq_some.mp hscan
    rw [h, Option.some.injEq, Prod.mk.injEq] at hdate
    rw [← hdate.2] at hgap
    obtain ⟨hne, hmany⟩ := many1_eq_some.mp hgap
    rcases hend with hstops | hnone
    · obtain ⟨hblank, hsplit, -⟩ := many_eq_some.mp hmany
      obtain ⟨c, more, hcons⟩ := List.exists_cons_of_ne_nil hne
      have hc := hblank c (by rw [hcons]; exact List.mem_cons_self)
      rw [hsplit, hcons] at hstops
      rw [hstops c rfl] at hc
      cases hc
    · have hleft : Text.dropBlanks rest = left := (Prod.mk.inj (Option.some.inj hmany)).2
      rw [hleft, htime] at hnone
      cases hnone

/-! ## Quoted text -/

theorem scanToQuote_quote (quote : Char) (cs : List Char) :
    scanToQuote quote (quote :: cs) = some ([quote], cs) := by
  rw [scanToQuote.eq_def]
  simp

theorem scanToQuote_escaped {quote : Char} (h : quote ≠ '\\') (c : Char) (cs : List Char) :
    scanToQuote quote ('\\' :: c :: cs) =
      (scanToQuote quote cs).map fun (text, rest) => ('\\' :: c :: text, rest) := by
  rw [scanToQuote.eq_def]
  simp [h.symm]

theorem scanToQuote_plain {quote c : Char} (hquote : c ≠ quote) (hslash : c ≠ '\\')
    (cs : List Char) : scanToQuote quote (c :: cs) =
      (scanToQuote quote cs).map fun (text, rest) => (c :: text, rest) := by
  rw [scanToQuote.eq_def]
  simp [hquote, hslash]

/-- Quoted text ends at its quote, whatever stands behind it. -/
theorem scanToQuote_extend {quote : Char} (h : scanToQuote quote cs = some (text, rest))
    (ds : List Char) : scanToQuote quote (cs ++ ds) = some (text, rest ++ ds) := by
  fun_induction scanToQuote quote cs generalizing text with
  | case1 => cases h
  | case2 cs =>
      cases h
      exact scanToQuote_quote quote _
  | case3 => cases h
  | case4 c cs hquote ih =>
      obtain ⟨⟨more, left⟩, hmore, hpair⟩ := Option.map_eq_some_iff.mp h
      cases hpair
      rw [List.cons_append, List.cons_append, scanToQuote_escaped (Ne.symm hquote), ih hmore]
      rfl
  | case5 c cs hquote hslash ih =>
      obtain ⟨⟨more, left⟩, hmore, hpair⟩ := Option.map_eq_some_iff.mp h
      cases hpair
      rw [List.cons_append, scanToQuote_plain hquote hslash, ih hmore]
      rfl

theorem scanString_eq_some :
    scanString cs = some (text, rest) ↔ ∃ quote behind more, isQuote quote = true ∧
      scanToQuote quote behind = some (more, rest) ∧ text = quote :: more ∧
        cs = quote :: behind := by
  constructor
  · intro h
    cases cs with
    | nil => cases h
    | cons quote behind =>
        simp only [scanString, Option.ite_none_right_eq_some] at h
        obtain ⟨hquote, h⟩ := h
        obtain ⟨⟨more, left⟩, hmore, hpair⟩ := Option.map_eq_some_iff.mp h
        cases hpair
        exact ⟨quote, behind, more, hquote, hmore, rfl, rfl⟩
  · rintro ⟨quote, behind, more, hquote, hmore, rfl, rfl⟩
    rw [scanString, if_pos hquote, hmore]
    rfl

theorem scanString_extend (h : scanString cs = some (text, rest)) (ds : List Char) :
    scanString (cs ++ ds) = some (text, rest ++ ds) := by
  obtain ⟨quote, behind, more, hquote, hmore, rfl, rfl⟩ := scanString_eq_some.mp h
  exact scanString_eq_some.mpr
    ⟨quote, behind ++ ds, more, hquote, scanToQuote_extend hmore ds, rfl, rfl⟩

/-! ## Numbers -/

/-- A point and the digits behind it, or nothing. -/
def IsFraction (behind : List Char) : Prop :=
  behind = [] ∨ ∃ fraction, fraction ≠ [] ∧ (∀ c ∈ fraction, c.isDigit = true) ∧
    behind = '.' :: fraction

theorem IsFraction.mem {behind : List Char} (h : IsFraction behind) :
    ∀ c ∈ behind, c.isDigit = true ∨ c = '.' := by
  rcases h with rfl | ⟨fraction, -, hdigits, rfl⟩
  · simp
  · intro c hc
    rcases List.mem_cons.mp hc with rfl | hc
    · exact Or.inr rfl
    · exact Or.inl (hdigits c hc)

theorem IsFraction.stops_isDigit {behind : List Char} (h : IsFraction behind) :
    Stops Char.isDigit behind := by
  rcases h with rfl | ⟨fraction, -, -, rfl⟩
  · exact stops_nil _
  · exact stops_cons (by decide) fraction

/-- A number that was taken has these parts. -/
theorem exists_of_scanNumber (h : scanNumber cs = some (text, rest)) :
    ∃ sign digits behind, (sign = [] ∨ sign = ['+'] ∨ sign = ['-']) ∧ digits ≠ [] ∧
      (∀ c ∈ digits, c.isDigit = true) ∧ IsFraction behind ∧ text = sign ++ (digits ++ behind) := by
  obtain ⟨sign, middle, more, hsign, hmore, rfl⟩ := sequence_cons_eq_some.mp h
  obtain ⟨digits, left, more', hdigits, hmore', rfl⟩ := sequence_cons_eq_some.mp hmore
  obtain ⟨behind, left', more'', hbehind, hnil, rfl⟩ := sequence_cons_eq_some.mp hmore'
  obtain ⟨rfl, -⟩ := sequence_nil_eq_some.mp hnil
  obtain ⟨hne, hmany⟩ := many1_eq_some.mp hdigits
  refine ⟨sign, digits, behind, ?_, hne, (many_eq_some.mp hmany).1, ?_, by simp⟩
  · rcases optional_eq_some.mp hsign with hsign | ⟨-, rfl, -⟩
    · obtain ⟨c, hc, rfl, -⟩ := one_eq_some.mp hsign
      rcases Bool.or_eq_true_iff.mp hc with hc | hc
      · rw [eq_of_beq hc]
        exact Or.inr (Or.inl rfl)
      · rw [eq_of_beq hc]
        exact Or.inr (Or.inr rfl)
    · exact Or.inl rfl
  · rcases optional_eq_some.mp hbehind with hbehind | ⟨-, rfl, -⟩
    · obtain ⟨point, run, tail, hpoint, htail, rfl⟩ := sequence_cons_eq_some.mp hbehind
      obtain ⟨fraction, _, _, hfraction, hnil, rfl⟩ := sequence_cons_eq_some.mp htail
      obtain ⟨rfl, -⟩ := sequence_nil_eq_some.mp hnil
      obtain ⟨c, hc, rfl, -⟩ := one_eq_some.mp hpoint
      obtain ⟨hne', hmany'⟩ := many1_eq_some.mp hfraction
      rw [eq_of_beq hc]
      exact Or.inr ⟨fraction, hne', (many_eq_some.mp hmany').1, by simp⟩
    · exact Or.inl rfl

/-! ## A text that was taken is taken again where nothing follows it -/

theorem scanClock_trim {more : List Char} (h : scanClock (text ++ more ++ rest) =
    some (text, more ++ rest)) : scanClock (text ++ more) = some (text, more) := by
  obtain ⟨hour, minute, hhour, hminute, htext, -, hend⟩ := scanClock_eq_some.mp h
  refine scanClock_eq_some.mpr ⟨hour, minute, hhour, hminute, htext, rfl, ?_⟩
  rcases hend with hend | hend
  · exact Or.inl hend
  · exact Or.inr (stops_of_append hend)

theorem scanDate_trim {more : List Char} (h : scanDate (text ++ more ++ rest) =
    some (text, more ++ rest)) : scanDate (text ++ more) = some (text, more) := by
  obtain ⟨year, month, day, hyear, hmonth, hday, htext, -, hend⟩ := scanDate_eq_some.mp h
  refine scanDate_eq_some.mpr ⟨year, month, day, hyear, hmonth, hday, htext, rfl, ?_⟩
  rcases hend with hend | hend
  · exact Or.inl hend
  · exact Or.inr (stops_of_append hend)

theorem scanHalf_nil : scanHalf [] = none := rfl

theorem scanTime_self (h : scanTime cs = some (text, rest)) : scanTime text = some (text, []) := by
  obtain rfl := splits_scanTime cs text rest h
  obtain ⟨clock, left, hclock, hleft⟩ := scanTime_eq_some.mp h
  rcases hleft with ⟨half, hhalf, rfl⟩ | ⟨-, rfl, rfl⟩
  · obtain ⟨gap, word, hgap, hword, rfl, rfl, -⟩ := scanHalf_eq_some.mp hhalf
    refine scanTime_eq_some.mpr ⟨clock, gap ++ word, ?_, Or.inl ⟨gap ++ word, ?_, rfl⟩⟩
    · exact scanClock_trim (by simpa using hclock)
    · exact scanHalf_eq_some.mpr ⟨gap, word, hgap, hword, rfl, by simp, rfl⟩
  · refine scanTime_eq_some.mpr ⟨text, [], ?_, Or.inr ⟨scanHalf_nil, rfl, rfl⟩⟩
    have hself : scanClock (text ++ []) = some (text, []) := scanClock_trim (by simpa using hclock)
    simpa using hself

theorem scanDateTime_self (h : scanDateTime cs = some (text, rest)) :
    scanDateTime text = some (text, []) := by
  obtain ⟨date, gap, time, behind, left, hdate, hgap, htime, rfl⟩ := scanDateTime_eq_some.mp h
  obtain rfl := splits_scanDate cs date behind hdate
  obtain ⟨hne, hmany⟩ := many1_eq_some.mp hgap
  obtain ⟨hblank, rfl, hstops⟩ := many_eq_some.mp hmany
  obtain rfl := splits_scanTime left time rest htime
  refine scanDateTime_eq_some.mpr ⟨date, gap, time, gap ++ time, time, ?_, ?_, scanTime_self htime,
    rfl⟩
  · rw [List.append_assoc]
    exact scanDate_trim (by simpa using hdate)
  · exact many1_eq_some.mpr ⟨hne, many_eq_some.mpr ⟨hblank, rfl, stops_of_append hstops⟩⟩

theorem scanDate_self (h : scanDate cs = some (text, rest)) : scanDate text = some (text, []) := by
  obtain rfl := splits_scanDate cs text rest h
  have hself : scanDate (text ++ []) = some (text, []) := scanDate_trim (by simpa using h)
  simpa using hself

theorem scanPath_part {c : Char} (h : isNamePart c = true) (cs : List Char) :
    scanPath (c :: cs) = (c :: (scanPath cs).1, (scanPath cs).2) := by
  rw [scanPath.eq_def]
  simp [h]

theorem scanPath_point {d : Char} (h : isNameStart d = true) (cs : List Char) :
    scanPath ('.' :: d :: cs) = ('.' :: d :: (scanPath cs).1, (scanPath cs).2) := by
  have hpoint : isNamePart '.' = false := by decide
  rw [scanPath.eq_def]
  simp [h, hpoint]

/-- A path ends in front of anything but a part of a name and a point before a name. -/
theorem scanPath_stop {cs : List Char} (h : Stops isNamePart cs)
    (hpoint : ∀ d ds, cs = '.' :: d :: ds → isNameStart d = false) : scanPath cs = ([], cs) := by
  rw [scanPath.eq_def]
  split
  · rfl
  · next c cs =>
      rw [if_neg (by simpa using h c rfl)]
      split
      · next hc =>
          subst hc
          split
          · rfl
          · next d ds => rw [if_neg (by simpa using hpoint d ds rfl)]
      · rfl

theorem stops_scanPath (cs : List Char) : Stops isNamePart (scanPath cs).2 := by
  have hpoint : isNamePart '.' = false := by decide
  fun_induction scanPath cs with
  | case1 => exact stops_nil _
  | case2 c cs hc text rest heq ih => rwa [heq] at ih
  | case3 => exact fun c hc => by cases hc; exact hpoint
  | case4 d cs hd text rest heq hdot ih => rwa [heq] at ih
  | case5 => exact fun c hc => by cases hc; exact hpoint
  | case6 c cs hc hne => exact fun c' hc' => by cases hc'; simpa using hc

theorem scanPath_self (cs : List Char) : scanPath (scanPath cs).1 = ((scanPath cs).1, []) := by
  fun_induction scanPath cs with
  | case1 => rfl
  | case2 c cs hc text rest heq ih =>
      rw [heq] at ih
      rw [scanPath_part hc, ih]
  | case3 => rfl
  | case4 d cs hd text rest heq hdot ih =>
      rw [heq] at ih
      rw [scanPath_point hd, ih]
  | case5 => rfl
  | case6 => rfl

theorem scanIdentifier_eq_some :
    scanIdentifier cs = some (text, rest) ↔ ∃ c more, isNameStart c = true ∧ cs = c :: more ∧
      text = c :: (scanPath more).1 ∧ rest = (scanPath more).2 := by
  simp only [scanIdentifier, sequence_cons_eq_some, sequence_nil_eq_some, one_eq_some,
    Option.some.injEq]
  constructor
  · rintro ⟨_, more, _, ⟨c, hc, rfl, rfl⟩, ⟨path, _, _, hpath, ⟨rfl, rfl⟩, rfl⟩, rfl⟩
    exact ⟨c, more, hc, rfl, by simp [hpath], by simp [hpath]⟩
  · rintro ⟨c, more, hc, rfl, rfl, rfl⟩
    exact ⟨[c], more, _, ⟨c, hc, rfl, rfl⟩, ⟨(scanPath more).1, (scanPath more).2, [], rfl,
      ⟨rfl, rfl⟩, rfl⟩, by simp⟩

theorem scanIdentifier_self (h : scanIdentifier cs = some (text, rest)) :
    scanIdentifier text = some (text, []) := by
  obtain ⟨c, more, hc, rfl, rfl, rfl⟩ := scanIdentifier_eq_some.mp h
  exact scanIdentifier_eq_some.mpr ⟨c, (scanPath more).1, hc, rfl, by rw [scanPath_self],
    by rw [scanPath_self]⟩

theorem scanActionKey_eq_some :
    scanActionKey cs = some (text, rest) ↔ ∃ name, name ≠ [] ∧
      (∀ c ∈ name, (c.isAlpha || c.isDigit) = true) ∧ text = ':' :: name ∧ cs = text ++ rest ∧
        Stops (fun c => c.isAlpha || c.isDigit) rest := by
  simp only [scanActionKey, sequence_cons_eq_some, sequence_nil_eq_some, one_eq_some,
    many1_eq_some, many_eq_some, beq_iff_eq]
  constructor
  · rintro ⟨_, _, _, ⟨_, rfl, rfl, rfl⟩, ⟨name, _, _, ⟨hne, hname, rfl, hstops⟩, ⟨rfl, rfl⟩, rfl⟩,
      rfl⟩
    exact ⟨name, hne, hname, by simp, by simp, hstops⟩
  · rintro ⟨name, hne, hname, rfl, rfl, hstops⟩
    exact ⟨_, _, _, ⟨_, rfl, rfl, rfl⟩, ⟨name, _, _, ⟨hne, hname, rfl, hstops⟩, ⟨rfl, rfl⟩, rfl⟩,
      by simp⟩

theorem scanActionKey_self (h : scanActionKey cs = some (text, rest)) :
    scanActionKey text = some (text, []) := by
  obtain ⟨name, hne, hname, rfl, -, -⟩ := scanActionKey_eq_some.mp h
  exact scanActionKey_eq_some.mpr ⟨name, hne, hname, rfl, by simp, stops_nil _⟩

/-! ## Dates, times and what follows them -/

/-- A text ends in a digit, as a time without a half of the day does. -/
def EndsInDigit (text : List Char) : Prop := ∃ c ∈ text.getLast?, c.isDigit = true

theorem EndsInDigit.append {back : List Char} (h : EndsInDigit back) (front : List Char) :
    EndsInDigit (front ++ back) := by
  obtain ⟨c, hc, hdigit⟩ := h
  exact ⟨c, by simp [List.getLast?_append, Option.mem_def.mp hc], hdigit⟩

theorem endsInDigit_of_scanClock (h : scanClock cs = some (text, rest)) : EndsInDigit text := by
  obtain ⟨hour, minute, -, hminute, rfl, -, -⟩ := scanClock_eq_some.mp h
  have hne : minute ≠ [] := List.length_pos_iff.mp hminute.least_le
  refine ⟨minute.getLast hne, ?_, hminute.isDigit _ (List.getLast_mem hne)⟩
  simp [List.getLast?_append, List.getLast?_cons, List.getLast?_eq_some_getLast hne]

theorem IsHalf.not_endsInDigit {word : List Char} (h : IsHalf word) (front : List Char) :
    ¬ EndsInDigit (front ++ word) := by
  rintro ⟨c, hc, hdigit⟩
  rw [List.getLast?_append, List.getLast?_eq_some_getLast h.ne_nil] at hc
  cases hc
  rw [not_isDigit_of_isAlpha (h.isAlpha _ (List.getLast_mem h.ne_nil))] at hdigit
  cases hdigit

theorem not_endsInDigit_of_scanHalf {front : List Char} (h : scanHalf cs = some (text, rest)) :
    ¬ EndsInDigit (front ++ text) := by
  obtain ⟨gap, word, -, hword, rfl, -⟩ := scanHalf_eq_some.mp h
  rw [← List.append_assoc]
  exact hword.not_endsInDigit (front ++ gap)

/-- Behind a time that ends in a digit there is no half of the day. -/
theorem scanHalf_of_scanTime (h : scanTime cs = some (text, rest)) (hdigit : EndsInDigit text) :
    scanHalf rest = none := by
  obtain ⟨clock, left, -, ⟨half, hhalf, rfl⟩ | ⟨hhalf, rfl, rfl⟩⟩ := scanTime_eq_some.mp h
  · exact absurd hdigit (not_endsInDigit_of_scanHalf hhalf)
  · exact hhalf

theorem scanHalf_of_scanDateTime (h : scanDateTime cs = some (text, rest))
    (hdigit : EndsInDigit text) : scanHalf rest = none := by
  obtain ⟨date, gap, time, behind, left, -, -, htime, rfl⟩ := scanDateTime_eq_some.mp h
  refine scanHalf_of_scanTime htime ?_
  obtain ⟨c, hc, hdigit⟩ := hdigit
  refine ⟨c, ?_, hdigit⟩
  have hne : time ≠ [] := advances_scan .time left time rest htime
  rw [List.getLast?_append, List.getLast?_eq_some_getLast hne] at hc
  rw [List.getLast?_eq_some_getLast hne]
  exact hc

/-- A date has four digits in front, and a time has two at most. -/
theorem scanClock_of_scanDate (h : scanDate cs = some (text, rest)) : scanClock cs = none := by
  rw [Option.eq_none_iff_forall_ne_some]
  rintro ⟨clock, left⟩ hclock
  obtain ⟨year, month, day, hyear, -, -, rfl, rfl, -⟩ := scanDate_eq_some.mp h
  obtain ⟨hour, minute, hhour, -, rfl, heq, -⟩ := scanClock_eq_some.mp hclock
  have hlonger : hour.length < year.length := by
    have := hhour.le_most
    have := hyear.least_le
    omega
  simp only [List.append_assoc, List.cons_append] at heq
  rcases List.append_eq_append_iff.mp heq with ⟨more, rfl, -⟩ | ⟨more, rfl, hmore⟩
  · rw [List.length_append] at hlonger
    omega
  · cases more with
    | nil => simp at hlonger
    | cons c more =>
        obtain ⟨rfl, -⟩ := List.cons.inj hmore
        exact absurd (hyear.isDigit ':' (by simp)) (by decide)

end Rule

end RecordQuery

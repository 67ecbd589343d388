import RecordQuery.Proofs.Token.Shape

/-!
# What stands behind a token

White space and punctuation marks delimit tokens.  A scanner that a delimiter stops
finds the same thing in a text whatever stands behind the delimiter: it ignores the
rest (`Scan.Ignores`).  This is shown piece by piece and passes on to what pieces are put
together to.

The shapes with white space inside them are the exception.  They look past a blank, for
the time behind a date and for the half of the day behind a time, and ignore the rest
only if it does not start with what they look for.
-/

namespace RecordQuery

/-! ## Delimiters -/

namespace Text.CodeSet

/-- Whether no range of one set meets a range of the other. -/
def apart (set other : CodeSet) : Bool :=
  set.all fun range => other.all fun range' => range.2 < range'.1 || range'.2 < range.1

theorem not_contains_of_apart {set other : CodeSet} (h : set.apart other = true) {c : Char}
    (hc : set.contains c = true) : other.contains c = false := by
  obtain ⟨range, hrange, hmem⟩ := List.any_eq_true.mp hc
  rw [contains, List.any_eq_false]
  intro range' hrange' hmem'
  have hapart := List.all_eq_true.mp (List.all_eq_true.mp h range hrange) range' hrange'
  simp only [Bool.and_eq_true, decide_eq_true_eq, Bool.or_eq_true] at hmem hmem' hapart
  omega

end Text.CodeSet

/-- Whether a character separates tokens: white space does, and so do the marks. -/
def isDelimiter (c : Char) : Bool :=
  Text.isBlank c || (Mark.ofChar? c).isSome

/-- A text is empty or starts with a delimiter. -/
def Delimited (ds : List Char) : Prop := ∀ c ∈ ds.head?, isDelimiter c = true

theorem delimited_nil : Delimited [] := by simp [Delimited]

theorem delimited_cons {c : Char} {ds : List Char} (h : isDelimiter c = true) :
    Delimited (c :: ds) := by simpa [Delimited] using h

theorem delimited_mark (mark : Mark) (ds : List Char) : Delimited (mark.char :: ds) := by
  apply delimited_cons
  cases mark <;> decide

theorem isWordCharacter_of_isNamePart {c : Char} (h : Rule.isNamePart c = true) :
    Text.isWordCharacter c = true := by
  have hascii : Text.asciiWord.contains c = true := by
    simp only [Rule.isNamePart, Rule.isNameStart, Bool.or_eq_true, beq_iff_eq,
      Rule.isAlpha_iff_toNat, Rule.isDigit_iff_toNat] at h
    rcases h with ((h | h) | rfl) | h
    · simp [Text.asciiWord, Text.CodeSet.contains, h]
    · simp [Text.asciiWord, Text.CodeSet.contains, h]
    · decide
    · simp [Text.asciiWord, Text.CodeSet.contains, h]
  simp [Text.isWordCharacter, Text.wordCharacters, Text.CodeSet.contains_append, hascii]

theorem not_isWordCharacter_of_isBlank {c : Char} (h : Text.isBlank c = true) :
    Text.isWordCharacter c = false :=
  Text.CodeSet.not_contains_of_apart (by decide +kernel) h

theorem not_isBlank_of_isNamePart {c : Char} (h : Rule.isNamePart c = true) :
    Text.isBlank c = false :=
  Text.CodeSet.not_contains_of_apart (by decide +kernel) (isWordCharacter_of_isNamePart h)

theorem not_isWordCharacter_of_isDelimiter {c : Char} (h : isDelimiter c = true) :
    Text.isWordCharacter c = false := by
  rcases Bool.or_eq_true_iff.mp h with hblank | hmark
  · exact not_isWordCharacter_of_isBlank hblank
  · obtain ⟨mark, hmark⟩ := Option.isSome_iff_exists.mp hmark
    have hc := List.find?_some hmark
    rw [← eq_of_beq hc]
    cases mark <;> decide +kernel

theorem not_isNamePart_of_isDelimiter {c : Char} (h : isDelimiter c = true) :
    Rule.isNamePart c = false := by
  refine Bool.eq_false_iff.mpr fun hname => ?_
  have hword := isWordCharacter_of_isNamePart hname
  rw [not_isWordCharacter_of_isDelimiter h] at hword
  cases hword

theorem not_isDigit_of_isDelimiter {c : Char} (h : isDelimiter c = true) : c.isDigit = false := by
  have hname := not_isNamePart_of_isDelimiter h
  simp only [Rule.isNamePart, Bool.or_eq_false_iff] at hname
  exact hname.2

theorem not_isNameStart_of_isDelimiter {c : Char} (h : isDelimiter c = true) :
    Rule.isNameStart c = false := by
  have hname := not_isNamePart_of_isDelimiter h
  simp only [Rule.isNamePart, Bool.or_eq_false_iff] at hname
  exact hname.1

theorem not_isAlpha_of_isDelimiter {c : Char} (h : isDelimiter c = true) : c.isAlpha = false := by
  have hstart := not_isNameStart_of_isDelimiter h
  simp only [Rule.isNameStart, Bool.or_eq_false_iff] at hstart
  exact hstart.1

theorem ne_of_isDelimiter {c d : Char} (h : isDelimiter c = true) (hd : isDelimiter d = false) :
    c ≠ d := by
  rintro rfl
  rw [h] at hd
  cases hd

namespace Scan

/-! ## Scanners that ignore what stands behind -/

/-- What a scanner finds in a text does not depend on `ds` behind it. -/
def Ignores (scan : Scan) (ds : List Char) : Prop :=
  ∀ cs, scan (cs ++ ds) = (scan cs).map fun (text, rest) => (text, rest ++ ds)

/-- What a scanner takes from a text it also takes with `ds` behind it. -/
def Extends (scan : Scan) (ds : List Char) : Prop :=
  ∀ cs text rest, scan cs = some (text, rest) → scan (cs ++ ds) = some (text, rest ++ ds)

variable {ds : List Char}

theorem Ignores.extends {scan : Scan} (h : scan.Ignores ds) : scan.Extends ds := by
  intro cs text rest hscan
  rw [h cs, hscan, Option.map_some]

theorem Ignores.none {scan : Scan} (h : scan.Ignores ds) {cs : List Char}
    (hscan : scan cs = .none) : scan (cs ++ ds) = .none := by
  rw [h cs, hscan, Option.map_none]

theorem ignores_one {isMember : Char → Bool} (h : Stops isMember ds) :
    (one isMember).Ignores ds := by
  intro cs
  cases cs with
  | nil =>
      cases ds with
      | nil => rfl
      | cons d ds => simp [one, h d rfl]
  | cons c cs =>
      cases hc : isMember c with
      | true => simp [one, hc]
      | false => simp [one, hc]

theorem ignores_many1 {isMember : Char → Bool} (h : Stops isMember ds) :
    (many1 isMember).Ignores ds := by
  intro cs
  simp only [many1, takeWhile_append h, dropWhile_append h]
  cases cs.takeWhile isMember with
  | nil => rfl
  | cons c run => rfl

theorem ignores_digits {least most : Nat} (h : Stops Char.isDigit ds) :
    (digits least most).Ignores ds := by
  intro cs
  have hrun : ((cs ++ ds).take most).takeWhile Char.isDigit =
      (cs.take most).takeWhile Char.isDigit := by
    -- what the limit leaves of `ds` starts as `ds` does
    rw [List.take_append]
    refine takeWhile_append (fun c hc => ?_) _
    cases ds with
    | nil => simp at hc
    | cons d ds =>
        cases hmost : most - cs.length with
        | zero => simp [hmost] at hc
        | succ n =>
            simp [hmost] at hc
            exact hc ▸ h d rfl
  have hlength : ((cs.take most).takeWhile Char.isDigit).length ≤ cs.length :=
    Nat.le_trans (List.takeWhile_sublist _).length_le (List.length_take_le' _ _)
  simp only [digits, hrun]
  split
  · rfl
  · simp [List.drop_append_of_le_length hlength]

theorem ignores_word {ws : List Char} (h : Stops ws.contains ds) : (word ws).Ignores ds := by
  intro cs
  induction ws generalizing cs with
  | nil => rfl
  | cons w ws ih =>
      have hws : Stops ws.contains ds := fun c hc => by
        have := h c hc
        simp_all
      cases cs with
      | nil =>
          cases ds with
          | nil => rfl
          | cons d ds =>
              -- where the text ends within the word, `ds` does not go on with it
              have hd : d ≠ w := by
                have := h d rfl
                simp_all
              simp [word, hd]
      | cons c cs =>
          simp only [List.cons_append, word]
          split
          · rw [ih hws]
            simp [Function.comp_def]
          · rfl

theorem ignores_wordEnd (h : Text.endsWord ds = true) : wordEnd.Ignores ds := by
  intro cs
  cases cs with
  | nil => exact if_pos h
  | cons c cs =>
      cases hc : Text.isWordCharacter c with
      | true => simp [wordEnd, Text.endsWord, hc]
      | false => simp [wordEnd, Text.endsWord, hc]

theorem ignores_sequence {pieces : List Scan} (h : ∀ piece ∈ pieces, piece.Ignores ds) :
    (sequence pieces).Ignores ds := by
  induction pieces with
  | nil => intro cs; rfl
  | cons first others ih =>
      have hothers := ih fun piece hpiece => h piece (List.mem_cons_of_mem _ hpiece)
      intro cs
      simp only [sequence, h first List.mem_cons_self cs]
      cases first cs with
      | none => rfl
      | some pair =>
          simp only [Option.map_some, hothers pair.2]
          simp [Function.comp_def]

theorem ignores_firstOf {choices : List Scan} (h : ∀ choice ∈ choices, choice.Ignores ds) :
    (firstOf choices).Ignores ds := by
  intro cs
  unfold firstOf
  induction choices with
  | nil => rfl
  | cons choice choices ih =>
      have hchoices := ih fun other hother => h other (List.mem_cons_of_mem _ hother)
      rw [List.findSome?_cons, List.findSome?_cons, h choice List.mem_cons_self cs]
      cases choice cs with
      | none => exact hchoices
      | some pair => rfl

theorem ignores_optional {piece : Scan} (h : piece.Ignores ds) : (optional piece).Ignores ds := by
  intro cs
  simp only [optional, h cs]
  cases piece cs with
  | none => rfl
  | some pair => rfl

end Scan

/-! ## The shapes of tokens -/

namespace Rule

open Scan

variable {ds : List Char}

theorem stops_isDigit (h : Delimited ds) : Stops Char.isDigit ds :=
  fun c hc => not_isDigit_of_isDelimiter (h c hc)

theorem stops_isNamePart (h : Delimited ds) : Stops isNamePart ds :=
  fun c hc => not_isNamePart_of_isDelimiter (h c hc)

theorem stops_isNameStart (h : Delimited ds) : Stops isNameStart ds :=
  fun c hc => not_isNameStart_of_isDelimiter (h c hc)

theorem stops_of_forall {isMember : Char → Bool} (members : List Char)
    (hmembers : ∀ c, isMember c = true → c ∈ members)
    (hdelimiters : members.all (fun c => !isDelimiter c) = true) (h : Delimited ds) :
    Stops isMember ds := by
  intro c hc
  refine Bool.eq_false_iff.mpr fun hmember => ?_
  have hnot := List.all_eq_true.mp hdelimiters c (hmembers c hmember)
  rw [h c hc] at hnot
  cases hnot

theorem endsWord_of_delimited (h : Delimited ds) : Text.endsWord ds = true := by
  cases ds with
  | nil => rfl
  | cons d ds => simp [Text.endsWord, not_isWordCharacter_of_isDelimiter (h d rfl)]

theorem scanPath_delimited (h : Delimited ds) (cs : List Char) :
    scanPath (cs ++ ds) = ((scanPath cs).1, (scanPath cs).2 ++ ds) := by
  have hstart : ∀ d ds', ds = d :: ds' → isNameStart d = false := by
    rintro d ds' rfl
    exact stops_isNameStart h d rfl
  have hpoint : ∀ d ds', ds = '.' :: d :: ds' → isNameStart d = false := by
    rintro d ds' rfl
    exact absurd rfl (ne_of_isDelimiter (h '.' rfl) (by decide))
  fun_induction scanPath cs with
  | case1 => exact scanPath_stop (stops_isNamePart h) hpoint
  | case2 c cs hc text rest heq ih => simp [scanPath_part hc, ih, heq]
  | case3 =>
      exact scanPath_stop (stops_cons (by decide) _)
        fun d ds' heq => hstart d ds' (List.cons.inj heq).2
  | case4 d cs hd text rest heq hdot ih => simp [scanPath_point hd, ih, heq]
  | case5 d cs hd =>
      refine scanPath_stop (stops_cons (by decide) _) fun d' ds' heq => ?_
      obtain ⟨rfl, -⟩ := List.cons.inj (List.cons.inj heq).2
      simpa using hd
  | case6 c cs hc hne =>
      exact scanPath_stop (stops_cons (by simpa using hc) _)
        fun d ds' heq => absurd (List.cons.inj heq).1 hne

theorem ignores_scanDate (h : Delimited ds) : Ignores scanDate ds := by
  have hhyphen : Stops (· == '-') ds :=
    stops_of_forall ['-'] (by simp) (by decide) h
  apply ignores_sequence
  simp [ignores_digits (stops_isDigit h), ignores_one hhyphen]

/-- What a delimiter stops wherever it stands: every shape without white space inside
it, except for quoted text. -/
theorem ignores_scan {rule : Rule} (h : Delimited ds) (htime : rule ≠ time)
    (hdateTime : rule ≠ dateTime) (hstring : rule ≠ string) : rule.scan.Ignores ds := by
  cases rule with
  | actionKey =>
      have hcolon : Stops (· == ':') ds :=
        stops_of_forall [':'] (by simp) (by decide) h
      have hname : Stops (fun c => c.isAlpha || c.isDigit) ds := fun c hc => by
        simp [not_isAlpha_of_isDelimiter (h c hc), not_isDigit_of_isDelimiter (h c hc)]
      apply ignores_sequence
      simp [ignores_one hcolon, ignores_many1 hname]
  | operator =>
      have hword : ∀ ws : List Char, ws.all (fun c => !isDelimiter c) = true →
          (word ws).Ignores ds := fun ws hws =>
        ignores_word (stops_of_forall ws (by simp) hws h)
      have hend := ignores_wordEnd (endsWord_of_delimited h)
      apply ignores_firstOf
      simp only [List.forall_mem_cons, List.not_mem_nil, false_implies, implies_true, and_true]
      refine ⟨hword _ (by decide), hword _ (by decide), hword _ (by decide), hword _ (by decide),
        hword _ (by decide), hword _ (by decide), ignores_sequence ?_, ignores_sequence ?_⟩
      · simp [hword ['!', 'i', 'n'] (by decide), hend]
      · simp [hword ['!', 'c', 'o', 'n', 't', 'a', 'i', 'n', 's'] (by decide), hend]
  | identifier =>
      apply ignores_sequence
      simp only [List.forall_mem_cons, List.not_mem_nil, false_implies, implies_true, and_true]
      refine ⟨ignores_one (stops_isNameStart h), fun cs => ?_⟩
      show some (scanPath (cs ++ ds)) = _
      rw [scanPath_delimited h]
      rfl
  | date => exact ignores_scanDate h
  | number =>
      have hsign : Stops (fun c => c == '+' || c == '-') ds :=
        stops_of_forall ['+', '-'] (by simp) (by decide) h
      have hpoint : Stops (· == '.') ds :=
        stops_of_forall ['.'] (by simp) (by decide) h
      apply ignores_sequence
      simp only [List.forall_mem_cons, List.not_mem_nil, false_implies, implies_true, and_true]
      refine ⟨ignores_optional (ignores_one hsign), ignores_many1 (stops_isDigit h),
        ignores_optional (ignores_sequence ?_)⟩
      simp [ignores_one hpoint, ignores_many1 (stops_isDigit h)]
  | time => exact absurd rfl htime
  | dateTime => exact absurd rfl hdateTime
  | string => exact absurd rfl hstring

/-! ## Shapes with white space inside them -/

theorem ignores_scanClock (h : Delimited ds) : Ignores scanClock ds := by
  have hcolon : Stops (· == ':') ds := stops_of_forall [':'] (by simp) (by decide) h
  apply ignores_sequence
  simp [ignores_digits (stops_isDigit h), ignores_one hcolon]

theorem scanHalf_extend (h : Delimited ds) {cs text rest : List Char}
    (hscan : scanHalf cs = some (text, rest)) : scanHalf (cs ++ ds) = some (text, rest ++ ds) := by
  obtain ⟨gap, word, hgap, hword, rfl, rfl, hend⟩ := scanHalf_eq_some.mp hscan
  refine scanHalf_eq_some.mpr ⟨gap, word, hgap, hword, rfl, by simp, ?_⟩
  cases rest with
  | nil => exact endsWord_of_delimited h
  | cons c rest => exact hend

/-- No half of the day starts with a character that is neither white space nor a letter. -/
theorem scanHalf_cons_none {c : Char} (hblank : Text.isBlank c = false)
    (halpha : c.isAlpha = false) (cs : List Char) : scanHalf (c :: cs) = none := by
  rw [Option.eq_none_iff_forall_ne_some]
  rintro ⟨text, rest⟩ hscan
  obtain ⟨gap, word, hgap, hword, rfl, hcs, -⟩ := scanHalf_eq_some.mp hscan
  cases gap with
  | cons d gap =>
      obtain ⟨rfl, -⟩ := List.cons.inj hcs
      rw [hgap c List.mem_cons_self] at hblank
      cases hblank
  | nil =>
      cases word with
      | nil => exact hword.ne_nil rfl
      | cons d word =>
          obtain ⟨rfl, -⟩ := List.cons.inj hcs
          rw [hword.isAlpha c List.mem_cons_self] at halpha
          cases halpha

/-- What is no half of the day does not become one in front of a delimiter. -/
theorem scanHalf_append_none (hds : Delimited ds) {cs : List Char} (hne : cs ≠ [])
    (hstops : Stops Text.isBlank cs) (h : scanHalf cs = none) : scanHalf (cs ++ ds) = none := by
  rw [Option.eq_none_iff_forall_ne_some]
  rintro ⟨text, rest⟩ hscan
  obtain ⟨gap, word, hgap, hword, rfl, hsplit, hend⟩ := scanHalf_eq_some.mp hscan
  have hgap' : gap = [] := by
    cases gap with
    | nil => rfl
    | cons c gap =>
        cases cs with
        | nil => exact absurd rfl hne
        | cons d cs =>
            obtain ⟨rfl, -⟩ := List.cons.inj hsplit
            have hstop := hstops d rfl
            rw [hgap d List.mem_cons_self] at hstop
            cases hstop
  subst hgap'
  rw [List.nil_append] at hsplit
  have hfound : ∀ more, cs = word ++ more → Text.endsWord more = true → False := by
    intro more hcs hmore
    have hsome := scanHalf_eq_some.mpr ⟨[], word, by simp, hword, rfl, hcs, hmore⟩
    rw [h] at hsome
    cases hsome
  -- the word ends in the text or with it: a delimiter is no part of a word
  rcases List.append_eq_append_iff.mp hsplit with ⟨more, hcs, hds'⟩ | ⟨more, hcs, hrest⟩
  · cases more with
    | nil => exact hfound [] (by simpa using hcs.symm) rfl
    | cons c more =>
        have halpha := hword.isAlpha c (by rw [hcs]; simp)
        rw [not_isAlpha_of_isDelimiter (hds c (by rw [hds']; rfl))] at halpha
        cases halpha
  · refine hfound more hcs ?_
    cases more with
    | nil => rfl
    | cons c more => rwa [hrest] at hend

/-- A time is taken in front of a delimiter, if what it could take besides is not there. -/
theorem scanTime_extend (h : Delimited ds) {cs text rest : List Char}
    (hscan : scanTime cs = some (text, rest))
    (hhalf : EndsInDigit text → scanHalf (rest ++ ds) = none) :
    scanTime (cs ++ ds) = some (text, rest ++ ds) := by
  obtain ⟨clock, left, hclock, hleft⟩ := scanTime_eq_some.mp hscan
  have hclock' := (ignores_scanClock h).extends cs clock left hclock
  -- only the half of the day looks past the delimiter
  rcases hleft with ⟨half, hhalf', htext⟩ | ⟨-, rfl, rfl⟩
  · exact scanTime_eq_some.mpr
      ⟨clock, left ++ ds, hclock', Or.inl ⟨half, scanHalf_extend h hhalf', htext⟩⟩
  · exact scanTime_eq_some.mpr ⟨text, left ++ ds, hclock',
      Or.inr ⟨hhalf (endsInDigit_of_scanClock hclock), rfl, rfl⟩⟩

theorem scanTime_none {cs : List Char} (h : scanClock cs = none) : scanTime cs = none := by
  rw [scanTime_eq, h, Option.map_none]

theorem scanClock_none {cs : List Char} (h : scanTime cs = none) : scanClock cs = none := by
  rw [scanTime_eq] at h
  exact Option.map_eq_none_iff.mp h

theorem scanDateTime_none {cs : List Char} (h : scanDate cs = none) : scanDateTime cs = none := by
  simp only [scanDateTime, Scan.sequence, h]

theorem scanDateTime_extend (h : Delimited ds) {cs text rest : List Char}
    (hscan : scanDateTime cs = some (text, rest))
    (hhalf : EndsInDigit text → scanHalf (rest ++ ds) = none) :
    scanDateTime (cs ++ ds) = some (text, rest ++ ds) := by
  obtain ⟨date, gap, time, behind, left, hdate, hgap, htime, htext⟩ := scanDateTime_eq_some.mp hscan
  refine scanDateTime_eq_some.mpr ⟨date, gap, time, behind ++ ds, left ++ ds,
    (ignores_scanDate h).extends cs date behind hdate, ?_, scanTime_extend h htime ?_, htext⟩
  · obtain ⟨hne, hmany⟩ := many1_eq_some.mp hgap
    obtain ⟨hblank, rfl, hstops⟩ := many_eq_some.mp hmany
    have htime' : time ≠ [] := advances_scan .time left time rest htime
    have hsplit := splits_scanTime left time rest htime
    refine many1_eq_some.mpr ⟨hne, many_eq_some.mpr ⟨hblank, by simp, ?_⟩⟩
    cases left with
    | nil => exact absurd (List.append_eq_nil_iff.mp hsplit.symm).1 htime'
    | cons c left => exact hstops
  · intro hdigit
    rw [htext] at hhalf
    exact hhalf (hdigit.append (date ++ gap))

end Rule

end RecordQuery

import RecordQuery.Proofs.Token.Concatenation

/-!
# What is left when the end of a text is cut off

The first words of a text stay what they are when all that stands behind them is cut off,
or when a punctuation mark is put there.  A rule sees of what follows its text only whether
a word ends there, and at the end of a text every word ends.  So the one thing that could
change is a match that a word character stood in the way of, and there is none where
`EndsApart` holds: behind white space, behind a quote or a digit, and wherever a word has
ended anyway.

Two facts are drawn from this.  White space at the two ends of a text changes none of its
tokens (`readsAs_trimBlanks_iff`), and a mark can be put behind any word that ends apart
from what follows (`Lexer.Yields.insert_mark`).
-/

namespace RecordQuery

variable {validate : Bool} {cs ds text rest rest' gap front back : List Char} {token : Token}
  {tokens : List Token}

/-! ## What a pattern sees behind a match -/

namespace Pattern

variable {pattern : Pattern}

/-- Whether a pattern asks somewhere for the end of a word. -/
def asksWordEnd : Pattern → Bool
  | empty | one _ => false
  | .then first second | either first second => first.asksWordEnd || second.asksWordEnd
  | many item => item.asksWordEnd
  | wordEnd => true

theorem endsWord_append_of {more : List Char}
    (h : Text.endsWord rest = true → Text.endsWord rest' = true) :
    Text.endsWord (more ++ rest) = true → Text.endsWord (more ++ rest') = true := by
  intro hmore
  cases more with
  | nil => exact h hmore
  | cons c more => exact hmore

/-- Only the end of a word is seen of what follows. -/
theorem Matches.of_endsWord (h : pattern.Matches text rest)
    (hend : pattern.asksWordEnd = true → Text.endsWord rest = true → Text.endsWord rest' = true) :
    pattern.Matches text rest' := by
  induction h generalizing rest' with
  | empty => exact .empty
  | one hmember => exact .one hmember
  | «then» _ _ ihFirst ihSecond =>
      refine .then (ihFirst fun hasks => ?_) (ihSecond fun hasks => ?_)
      · exact endsWord_append_of (hend (by simp [asksWordEnd, hasks]))
      · exact hend (by simp [asksWordEnd, hasks])
  | left _ ih => exact .left (ih fun hasks => hend (by simp [asksWordEnd, hasks]))
  | right _ ih => exact .right (ih fun hasks => hend (by simp [asksWordEnd, hasks]))
  | none => exact .none
  | more _ _ ihItem ihMore =>
      exact .more (ihItem fun hasks => endsWord_append_of (hend hasks)) (ihMore hend)
  | wordEnd hword => exact .wordEnd (hend rfl hword)

/-- A match stays one when what follows it is cut off. -/
theorem Matches.cut (h : pattern.Matches text (rest ++ ds)) : pattern.Matches text rest := by
  refine h.of_endsWord fun _ hend => ?_
  cases rest with
  | nil => rfl
  | cons c rest => exact hend

end Pattern

/-! ## Cutting a text -/

/-- A text ends in such a way that no word goes on behind it. -/
def EndsApart (cs ds : List Char) : Prop :=
  Text.endsWord ds = true ∨ ∀ c ∈ cs.getLast?, c.isAlpha = false

theorem EndsApart.append (h : EndsApart cs ds) (hne : cs ≠ []) (front : List Char) :
    EndsApart (front ++ cs) ds := by
  rw [EndsApart, List.getLast?_append_of_ne_nil _ hne]
  exact h

theorem endsApart_of_blank (h : ∀ c ∈ ds, Text.isBlank c = true) : EndsApart cs ds := by
  refine Or.inl ?_
  cases ds with
  | nil => rfl
  | cons c ds => simp [Text.endsWord, not_isWordCharacter_of_isBlank (h c List.mem_cons_self)]

namespace Rule

variable {rule : Rule}

/-- A half of the day that is there ends in a letter. -/
theorem exists_isAlpha_of_half (h : halfPattern.Matches text rest) :
    ∃ c ∈ text.getLast?, c.isAlpha = true := by
  obtain ⟨gap, tail, -, htail, htext⟩ := Pattern.matches_sequence_cons_iff.mp h
  obtain ⟨word, nothing, hword, hnothing, htail⟩ := Pattern.matches_sequence_cons_iff.mp htail
  have hhalf := matches_halfWord_iff.mp hword
  obtain ⟨hnil, -⟩ : nothing = [] ∧ Text.endsWord rest = true := by simpa using hnothing
  refine ⟨word.getLast hhalf.ne_nil, ?_, hhalf.isAlpha _ (List.getLast_mem _)⟩
  rw [htext, htail, hnil, List.append_nil, List.getLast?_append_of_ne_nil _ hhalf.ne_nil]
  exact List.getLast?_eq_some_getLast hhalf.ne_nil

/-- A time at the end of a text that does not end in a letter is a time in front of any
text. -/
theorem matches_timePattern_append (h : timePattern.Matches text [])
    (hlast : ∀ c ∈ text.getLast?, c.isAlpha = false) (ds : List Char) :
    timePattern.Matches text ds := by
  obtain ⟨clock, tail, hclock, htail, htext⟩ := Pattern.matches_sequence_cons_iff.mp h
  obtain ⟨half, nothing, hhalf, hnothing, htail⟩ := Pattern.matches_sequence_cons_iff.mp htail
  have hnil : nothing = [] := by simpa using hnothing
  rw [hnil, List.append_nil] at htail
  rcases Pattern.matches_optional_iff.mp hhalf with hhalf | hmissing
  · obtain ⟨c, hc, halpha⟩ := exists_isAlpha_of_half hhalf
    have hends : c ∈ text.getLast? := by
      rw [htext, htail]
      exact List.mem_getLast?_append_of_mem_getLast? hc
    rw [hlast c hends] at halpha
    cases halpha
  · rw [htext, htail, hmissing]
    refine .then (hclock.of_endsWord fun hasks => ?_) (.then (.right .empty) .empty)
    cases hasks

/-- A match stays one in front of anything that the text ends apart from. -/
theorem matches_append (h : rule.pattern.Matches text rest) (hends : EndsApart (text ++ rest) ds) :
    rule.pattern.Matches text (rest ++ ds) := by
  cases rest with
  | cons c rest => exact h.of_endsWord fun _ hend => hend
  | nil =>
      rw [List.append_nil] at hends
      rw [List.nil_append]
      rcases hends with hends | hlast
      · exact h.of_endsWord fun _ _ => hends
      have hplain : rule.pattern.asksWordEnd = false → rule.pattern.Matches text ds := by
        intro hasks
        refine h.of_endsWord fun hasks' => ?_
        rw [hasks] at hasks'
        cases hasks'
      cases rule with
      | operator =>
          rw [matches_operator_iff] at h ⊢
          refine h.imp_right fun hword => ?_
          -- the operators that are words end in a letter
          rcases List.mem_pair.mp hword.1 with htext | htext
          · rw [htext] at hlast
            exact absurd (hlast 'n' rfl) (by decide)
          · rw [htext] at hlast
            exact absurd (hlast 's' rfl) (by decide)
      | time => exact matches_timePattern_append h hlast ds
      | dateTime =>
          obtain ⟨date, tail, hdate, htail, htext⟩ := Pattern.matches_sequence_cons_iff.mp h
          obtain ⟨gap, behind, hgap, hbehind, hsplit⟩ := Pattern.matches_sequence_cons_iff.mp htail
          have htime : timePattern.Matches behind [] := by simpa using hbehind
          have hends : ∀ c ∈ behind.getLast?, c.isAlpha = false := by
            intro c hc
            refine hlast c ?_
            rw [htext, hsplit]
            exact List.mem_getLast?_append_of_mem_getLast?
              (List.mem_getLast?_append_of_mem_getLast? hc)
          have hbehind' : (Pattern.sequence [timePattern]).Matches behind ds := by
            simpa using matches_timePattern_append htime hends ds
          rw [htext, hsplit]
          refine .then (hdate.of_endsWord fun hasks => ?_) (.then ?_ hbehind')
          · cases hasks
          · exact hgap.of_endsWord fun hasks => by cases hasks
      | actionKey | identifier | date | string | number => exact hplain rfl

/-- What a rule takes in front of a cut it takes when the rest is cut off. -/
theorem scan_cut (h : rule.scan (cs ++ ds) = some (text, rest ++ ds)) (hends : EndsApart cs ds) :
    rule.scan cs = some (text, rest) := by
  have hlongest := rule.finds_scan.longest rule.splits_scan h
  have hsplit : cs = text ++ rest := by
    have := rule.splits_scan _ _ _ h
    rw [← List.append_assoc] at this
    exact List.append_cancel_right this
  have hmatch := (rule.finds_scan.isMatch h).cut
  obtain ⟨longer, left, hscan, hlength⟩ := rule.finds_scan.greedy hmatch
  rw [← hsplit] at hscan
  -- nothing longer matches, also not in front of what was cut off
  have hsplit' := rule.splits_scan _ _ _ hscan
  have hmatch' := matches_append (rule.finds_scan.isMatch hscan) (hsplit' ▸ hends)
  have hle := hlongest.length_le longer (left ++ ds) (by rw [hsplit', List.append_assoc]) hmatch'
  obtain ⟨htext, hrest⟩ := List.append_inj (hsplit.symm.trans hsplit') (by omega)
  rw [hscan, htext, hrest]

/-- What a rule does not find in a text it does not find when the end is cut off. -/
theorem scan_cut_none (h : rule.scan (cs ++ ds) = none) (hends : EndsApart cs ds) :
    rule.scan cs = none := by
  rw [Option.eq_none_iff_forall_ne_some]
  intro pair hscan
  obtain ⟨text, rest⟩ := pair
  have hsplit := rule.splits_scan _ _ _ hscan
  have hmatch := matches_append (rule.finds_scan.isMatch hscan) (hsplit ▸ hends)
  obtain ⟨longer, left, hfound, -⟩ := rule.finds_scan.greedy hmatch
  rw [← List.append_assoc, ← hsplit, h] at hfound
  cases hfound

theorem find?_cut (h : find? (cs ++ ds) = some (rule, text, rest ++ ds))
    (hends : EndsApart cs ds) : find? cs = some (rule, text, rest) := by
  obtain ⟨hscan, hbefore⟩ := find?_eq_some.mp h
  refine find?_eq_some.mpr ⟨scan_cut hscan hends, fun earlier hearlier => ?_⟩
  exact scan_cut_none (hbefore earlier hearlier) hends

theorem find?_cut_none (h : find? (cs ++ ds) = none) (hends : EndsApart cs ds) :
    find? cs = none := by
  rw [find?, List.findSome?_eq_none_iff] at h ⊢
  intro rule hrule
  rw [scan_cut_none (Option.map_eq_none_iff.mp (h rule hrule)) hends, Option.map_none]

/-- A rule takes all of what it has taken. -/
theorem scan_text (h : rule.scan cs = some (text, rest)) : rule.scan text = some (text, []) := by
  have hmatch : rule.pattern.Matches text [] := by
    have hmatch := rule.finds_scan.isMatch h
    rw [← List.nil_append rest] at hmatch
    exact hmatch.cut
  obtain ⟨longer, left, hscan, hlength⟩ := rule.finds_scan.greedy hmatch
  rw [List.append_nil] at hscan
  have hsplit := rule.splits_scan _ _ _ hscan
  have hlengths := congrArg List.length hsplit
  rw [List.length_append] at hlengths
  have hleft : left = [] := List.length_eq_zero_iff.mp (by omega)
  rw [hleft, List.append_nil] at hsplit
  rw [hscan, ← hsplit, hleft]

end Rule

/-- A word in front of a cut is read when the rest is cut off. -/
theorem StartsWith.cut (h : StartsWith validate (cs ++ ds) token text (rest ++ ds))
    (hends : EndsApart cs ds) : StartsWith validate cs token text rest := by
  rcases readToken_cases (h .start) with ⟨mark, hmark, htext, hcs⟩ | ⟨rule, hfind, hconvert⟩
  · rw [← List.cons_append] at hcs
    rw [List.append_cancel_right hcs, hmark, htext]
    exact startsWith_mark mark rest
  · exact startsWith_of_find? (Rule.find?_cut hfind hends) hconvert

/-- No word ends in white space. -/
theorem StartsWith.not_isBlank_getLast (h : StartsWith validate cs token text rest) :
    ∀ c ∈ text.getLast?, Text.isBlank c = false := by
  rcases readToken_cases (h .start) with ⟨mark, -, htext, -⟩ | ⟨rule, hfind, -⟩
  · rw [htext]
    intro c hc
    cases hc
    cases mark <;> decide
  · exact Rule.not_isBlank_getLast (Rule.scan_text (Rule.scan_of_find? hfind))

/-! ## White space at the ends -/

theorem readsAs_congr_dropBlanks (h : Text.dropBlanks cs = Text.dropBlanks ds) :
    ReadsAs validate cs tokens ↔ ReadsAs validate ds tokens := by
  cases tokens with
  | nil => rw [readsAs_nil_iff, readsAs_nil_iff, h]
  | cons token tokens =>
      constructor
      · intro hreads
        obtain ⟨text, rest, hword, hrest⟩ := hreads.exists_startsWith
        exact (readsAs_cons_iff (h ▸ hword)).mpr hrest
      · intro hreads
        obtain ⟨text, rest, hword, hrest⟩ := hreads.exists_startsWith
        exact (readsAs_cons_iff (h ▸ hword)).mpr hrest

/-- A text is read as the tokens that it yields at any place. -/
theorem readsAs_iff_yields (place : Text.Place) : ReadsAs validate cs tokens ↔
    ∃ read : List Spanned, Lexer.Yields validate place cs (read.map .ok) ∧
      read.map Spanned.token = tokens := by
  constructor
  · intro h
    obtain ⟨words, hwords, htokens⟩ := h
    rw [← htokens]
    exact exists_yields_of_words hwords place
  · intro h
    obtain ⟨read, hyields, htokens⟩ := h
    rw [← htokens]
    exact exists_words_of_yields hyields

/-- Two texts with white space between them are read one behind the other, where neither a
time nor a half of the day starts the second. -/
theorem ReadsAs.append {tokens' : List Token} (h : ReadsAs validate front tokens)
    (hback : ReadsAs validate back tokens') (hgap : ∀ c ∈ gap, Text.isBlank c = true)
    (hne : gap ≠ []) (hclock : ¬ Rule.StartsClock (Text.dropBlanks back))
    (hhalf : ¬ Rule.StartsHalf (Text.dropBlanks back)) :
    ReadsAs validate (front ++ (gap ++ back)) (tokens ++ tokens') := by
  obtain ⟨read, hread, htokens⟩ := (readsAs_iff_yields .start).mp h
  obtain ⟨read', hread', htokens'⟩ :=
    (readsAs_iff_yields (Text.Place.start.advance (front ++ gap))).mp hback
  have hapart : ¬ Lexer.DateThenTime read back ∧ ¬ Lexer.TimeThenHalf read back := by
    refine ⟨fun hdate => ?_, fun htime => ?_⟩
    · obtain ⟨last, -, -, hstarts⟩ := hdate
      exact hclock hstarts
    · obtain ⟨last, -, -, hstarts⟩ := htime
      exact hhalf hstarts
  have hyields := (hread.append_iff hgap hne hread').mpr hapart
  rw [← List.map_append] at hyields
  exact (readsAs_iff_yields .start).mpr ⟨_, hyields, by rw [List.map_append, htokens, htokens']⟩

/-- What does not end in white space does not reach into that at the end of a text. -/
theorem exists_left_of_append_blanks (hsplit : cs ++ gap = text ++ rest)
    (hlast : ∀ c ∈ text.getLast?, Text.isBlank c = false)
    (hgap : ∀ c ∈ gap, Text.isBlank c = true) : ∃ left, cs = text ++ left ∧ rest = left ++ gap := by
  rcases List.append_eq_append_iff.mp hsplit with ⟨more, htext, hmore⟩ | ⟨more, hcs, hrest⟩
  · have hnil : more = [] := by
      by_contra hmore'
      have hmem : more.getLast hmore' ∈ text.getLast? := by
        rw [htext]
        refine List.mem_getLast?_append_of_mem_getLast? ?_
        exact List.getLast?_eq_some_getLast hmore'
      have hblank := hgap _ (by rw [hmore]; exact List.mem_append_left _ (List.getLast_mem hmore'))
      rw [hlast _ hmem] at hblank
      cases hblank
    rw [hnil, List.append_nil] at htext
    rw [hnil, List.nil_append] at hmore
    exact ⟨[], by rw [htext, List.append_nil], hmore.symm⟩
  · exact ⟨more, hcs, hrest⟩

/-- No word reaches into the white space at the end of a text. -/
theorem StartsWith.exists_of_append_blanks (h : StartsWith validate (cs ++ gap) token text rest)
    (hgap : ∀ c ∈ gap, Text.isBlank c = true) :
    ∃ left, rest = left ++ gap ∧ StartsWith validate cs token text left := by
  have hsplit := (Lexer.readToken_splits (h .start)).1
  obtain ⟨left, -, hrest⟩ := exists_left_of_append_blanks hsplit h.not_isBlank_getLast hgap
  rw [hrest] at h
  exact ⟨left, hrest, h.cut (endsApart_of_blank hgap)⟩

theorem readsAs_append_blanks_iff (hgap : ∀ c ∈ gap, Text.isBlank c = true) :
    ReadsAs validate (cs ++ gap) tokens ↔ ReadsAs validate cs tokens := by
  constructor
  · intro h
    induction tokens generalizing cs with
    | nil =>
        rw [readsAs_nil_iff, Text.dropBlanks_eq_nil_iff] at h ⊢
        exact fun c hc => h c (List.mem_append_left _ hc)
    | cons token tokens ih =>
        obtain ⟨text, rest, hword, hrest⟩ := h.exists_startsWith
        have hcs : Text.dropBlanks cs ≠ [] := by
          intro hnil
          have hall := Text.dropBlanks_eq_nil_iff.mp hnil
          refine hword.ne_nil (Text.dropBlanks_eq_nil_iff.mpr ?_)
          exact List.forall_mem_append.mpr ⟨hall, hgap⟩
        rw [(dropBlanks_append_of_ne_nil hcs gap).1] at hword
        obtain ⟨left, hleft, hword⟩ := hword.exists_of_append_blanks hgap
        rw [hleft] at hrest
        exact (readsAs_cons_iff hword).mpr (ih hrest)
  · intro h
    by_cases hne : gap = []
    · rwa [hne, List.append_nil]
    · have hnothing : ReadsAs validate [] [] := readsAs_nil_iff.mpr rfl
      have hclock : ¬ Rule.StartsClock [] := Rule.scanTime_eq_none_iff.mp rfl
      have hhalf : ¬ Rule.StartsHalf (Text.dropBlanks []) := Rule.scanHalf_eq_none_iff.mp rfl
      simpa using h.append hnothing hgap hne hclock hhalf

/-- Behind a trimmed text there is only white space. -/
theorem exists_dropBlanks_eq_trimBlanks (cs : List Char) :
    ∃ gap, (∀ c ∈ gap, Text.isBlank c = true) ∧ Text.dropBlanks cs = Text.trimBlanks cs ++ gap := by
  refine ⟨((Text.dropBlanks cs).reverse.takeWhile Text.isBlank).reverse, fun c hc => ?_, ?_⟩
  · exact List.mem_takeWhile_imp (List.mem_reverse.mp hc)
  · rw [Text.trimBlanks, ← List.reverse_append, Text.takeWhile_append_dropBlanks,
      List.reverse_reverse]

/-- White space at both ends of a text is no part of its tokens. -/
theorem readsAs_trimBlanks_iff :
    ReadsAs validate (Text.trimBlanks cs) tokens ↔ ReadsAs validate cs tokens := by
  obtain ⟨gap, hgap, hsplit⟩ := exists_dropBlanks_eq_trimBlanks cs
  rw [← readsAs_append_blanks_iff hgap, ← hsplit]
  exact readsAs_congr_dropBlanks (Text.dropBlanks_dropBlanks cs)

/-! ## Where a value ends -/

/-- A mark or a literal. -/
def Token.EndsValue (token : Token) : Prop :=
  (∃ mark, token = .mark mark) ∨ ∃ literal, token = .literal literal

namespace Rule

variable {rule : Rule}

theorem EndsInDigit.endsApart (h : EndsInDigit text) (rest : List Char) : EndsApart text rest := by
  obtain ⟨c, hc, hdigit⟩ := h
  refine Or.inr fun d hd => ?_
  rw [Option.mem_unique hd hc]
  refine Bool.eq_false_iff.mpr fun halpha => ?_
  rw [not_isDigit_of_isAlpha halpha] at hdigit
  cases hdigit

theorem endsInDigit_of_forall (h : ∀ c ∈ text, c.isDigit = true) (hne : text ≠ []) :
    EndsInDigit text :=
  ⟨text.getLast hne, List.getLast?_eq_some_getLast hne, h _ (List.getLast_mem hne)⟩

/-- A time ends in a digit, or in a half of the day where a word ends. -/
theorem endsApart_of_scanTime (h : scanTime cs = some (text, rest)) : EndsApart text rest := by
  obtain ⟨clock, left, hclock, hleft⟩ := scanTime_eq_some.mp h
  rcases hleft with ⟨half, hhalf, -⟩ | ⟨-, -, htext⟩
  · obtain ⟨gap, word, -, -, -, -, hend⟩ := scanHalf_eq_some.mp hhalf
    exact Or.inl hend
  · rw [htext]
    exact (endsInDigit_of_scanClock hclock).endsApart rest

theorem endsInDigit_of_scanDate (h : scanDate cs = some (text, rest)) : EndsInDigit text := by
  obtain ⟨year, month, day, -, -, hday, htext, -⟩ := scanDate_eq_some.mp h
  have hne : day ≠ [] := List.length_pos_iff.mp hday.least_le
  rw [htext, List.append_cons]
  exact (endsInDigit_of_forall hday.isDigit hne).append _

theorem endsInDigit_of_scanNumber (h : scanNumber cs = some (text, rest)) : EndsInDigit text := by
  obtain ⟨sign, digits, behind, -, hne, hdigits, hbehind, htext⟩ := exists_of_scanNumber h
  rw [htext]
  refine EndsInDigit.append ?_ sign
  rcases hbehind with hbehind | ⟨fraction, hne', hfraction, hbehind⟩
  · rw [hbehind, List.append_nil]
    exact endsInDigit_of_forall hdigits hne
  · rw [hbehind, List.append_cons]
    exact (endsInDigit_of_forall hfraction hne').append _

theorem endsApart_of_scanString (h : scanString cs = some (text, rest)) : EndsApart text rest := by
  obtain ⟨quote, behind, more, hquote, hmore, htext, -⟩ := scanString_eq_some.mp h
  refine Or.inr fun c hc => ?_
  rw [htext, List.getLast?_cons, getLast?_of_scanToQuote hmore] at hc
  cases hc
  rcases Bool.or_eq_true_iff.mp hquote with hquote | hquote
  · rw [eq_of_beq hquote]
    decide
  · rw [eq_of_beq hquote]
    decide

/-- The text of a literal ends apart from anything that follows it. -/
theorem endsApart_of_convert (hscan : rule.scan cs = some (text, rest))
    (h : rule.convert validate text = .ok token) (htoken : token.EndsValue) :
    EndsApart text rest := by
  have hmade := convert_ok h
  cases rule with
  | actionKey =>
      rw [hmade] at htoken
      simp [Token.EndsValue] at htoken
  | operator =>
      obtain ⟨operator, hmade⟩ := hmade
      rw [hmade] at htoken
      simp [Token.EndsValue] at htoken
  | identifier =>
      replace hmade : token = nameOrKeyword (String.ofList text) := hmade
      rw [hmade] at htoken
      rcases nameOrKeyword_cases (String.ofList text) with hname | ⟨_, hname⟩ | ⟨_, hname⟩
      all_goals
        rw [hname] at htoken
        simp [Token.EndsValue] at htoken
  | dateTime =>
      obtain ⟨date, gap, time, behind, left, -, -, htime, htext⟩ := scanDateTime_eq_some.mp hscan
      rw [htext]
      exact (endsApart_of_scanTime htime).append (advances_scan .time left time rest htime) _
  | date => exact (endsInDigit_of_scanDate hscan).endsApart rest
  | time => exact endsApart_of_scanTime hscan
  | string => exact endsApart_of_scanString hscan
  | number => exact (endsInDigit_of_scanNumber hscan).endsApart rest

end Rule

theorem StartsWith.endsApart (h : StartsWith validate cs token text rest)
    (htoken : token.EndsValue) : EndsApart text rest := by
  rcases readToken_cases (h .start) with ⟨mark, -, htext, -⟩ | ⟨rule, hfind, hconvert⟩
  · rw [htext]
    refine Or.inr fun c hc => ?_
    cases hc
    cases mark <;> decide
  · exact Rule.endsApart_of_convert (Rule.scan_of_find? hfind) hconvert htoken

/-! ## Putting a mark into a text -/

/-- A word in front of a place where a mark is put is still read. -/
theorem StartsWith.insert_mark {between tail : List Char}
    (h : StartsWith validate (text ++ (between ++ tail)) token text (between ++ tail))
    (hends : EndsApart (text ++ between) tail) (mark : Mark) :
    StartsWith validate (text ++ (between ++ mark.char :: tail)) token text
      (between ++ mark.char :: tail) := by
  have hds : Delimited (mark.char :: tail) := delimited_mark mark tail
  have hword : StartsWith validate (text ++ between) token text between := by
    rw [← List.append_assoc] at h
    exact h.cut hends
  rw [← List.append_assoc]
  by_cases hbetween : Text.dropBlanks between = []
  · -- in front of the mark there is nothing that the word could take
    have hsolid : Text.isBlank mark.char = false := by cases mark <;> decide
    have hdrop : Text.dropBlanks (between ++ mark.char :: tail) = mark.char :: tail := by
      rw [Text.dropBlanks_append_of_blank (Text.dropBlanks_eq_nil_iff.mp hbetween)]
      exact Scan.dropBlanks_of_stops (Scan.stops_cons hsolid tail)
    refine (hword.append_iff hds).mpr ⟨fun hdate => ?_, fun _ => ?_⟩
    · have hscan := (Rule.ignores_scanDate hds).extends _ text between
        (scanDate_of_startsWith hword hdate)
      refine (Rule.scanDateTime_eq_none_iff hscan).mpr (Or.inr ?_)
      rw [hdrop, ← Scan.dropBlanks_of_stops (Scan.stops_cons hsolid tail)]
      exact Rule.scanTime_mark mark tail
    · rw [← Rule.scanHalf_dropBlanks, hdrop]
      exact Rule.scanHalf_mark mark tail
  · exact hword.append hds hbetween

namespace Lexer

variable {place : Text.Place} {before after : List Spanned} {last : Spanned}

/-- A mark can be put right behind a token that ends a value: behind `front`, where the
text up to the end of that token is the white space at the start and `front`. -/
theorem Yields.insert_mark (h : Yields validate place cs ((before ++ last :: after).map .ok))
    (hlast : last.token.EndsValue) (mark : Mark) :
    ∃ front back, Text.dropBlanks cs = front ++ back ∧ front ≠ [] ∧ EndsApart front back ∧
      place.offset + Text.byteLength (cs.takeWhile Text.isBlank ++ front) =
        last.place.offset + last.length ∧
      ReadsAs validate (front ++ mark.char :: back)
        (before.map Spanned.token ++ last.token :: .mark mark :: after.map Spanned.token) := by
  induction before generalizing place cs with
  | nil =>
      cases h with
      | @reads _ _ text rest token _ hword hrest =>
          obtain ⟨hsplit, htext⟩ := readToken_splits (hword .start)
          have hends := hword.endsApart hlast
          refine ⟨text, rest, hsplit, htext, hends, ?_, ?_⟩
          · rw [Text.byteLength_append, Text.offset_advance, Nat.add_assoc]
          · rw [hsplit, ← List.nil_append rest] at hword
            have hmarked := hword.insert_mark (by rwa [List.append_nil]) mark
            refine hmarked.readsAs_iff.mpr ((startsWith_mark mark rest).readsAs_iff.mpr ?_)
            exact (readsAs_iff_yields _).mpr ⟨after, hrest, rfl⟩
  | cons first before ih =>
      cases h with
      | @reads _ _ text rest token _ hword hrest =>
          obtain ⟨front, back, hdrop, hne, hends, hoffset, hreads⟩ := ih hrest
          have hsplit := (readToken_splits (hword .start)).1
          have hrest' : rest = rest.takeWhile Text.isBlank ++ front ++ back := by
            rw [List.append_assoc, ← hdrop, Text.takeWhile_append_dropBlanks]
          refine ⟨text ++ (rest.takeWhile Text.isBlank ++ front), back, ?_, by simp [hne],
            (hends.append hne _).append (by simp [hne]) text, ?_, ?_⟩
          · rw [hsplit, List.append_assoc, ← hrest']
          · rw [← hoffset, Text.offset_advance, Text.offset_advance, Text.byteLength_append,
              Text.byteLength_append]
            omega
          · rw [hsplit, hrest'] at hword
            have hmarked :=
              hword.insert_mark ((hends.append hne _).append (by simp [hne]) text) mark
            have hblank : ∀ c ∈ rest.takeWhile Text.isBlank, Text.isBlank c = true :=
              fun c hc => List.mem_takeWhile_imp hc
            rw [List.append_assoc]
            refine hmarked.readsAs_iff.mpr ?_
            rw [List.append_assoc,
              readsAs_congr_dropBlanks (Text.dropBlanks_append_of_blank hblank _)]
            exact hreads

end Lexer

end RecordQuery

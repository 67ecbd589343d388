import RecordQuery.Proofs.Token.Boundary
import RecordQuery.Proofs.Token.Pattern

/-!
# Rules take the longest match

A scanner takes what it can, piece by piece, and never gives anything back.  That this
finds the longest match of a pattern is no matter of course: a piece that has taken too
much could leave too little for the next one.  `Scan.Finds` says that a scanner finds a
longest match wherever there is a match, and nothing else.  It passes on to sequences
whose pieces end by themselves in front of the next one (`Scan.EndsBefore`), as digits do
in front of a colon.

In the end every rule finds its pattern (`Rule.finds_scan`).
-/

namespace RecordQuery

namespace Scan

/-- A scanner takes a match of a pattern, and a longest one, wherever there is one. -/
structure Finds (scan : Scan) (pattern : Pattern) : Prop where
  isMatch : ∀ {cs text rest : List Char}, scan cs = some (text, rest) →
    pattern.Matches text rest
  greedy : ∀ {text rest : List Char}, pattern.Matches text rest →
    ∃ longer left, scan (text ++ rest) = some (longer, left) ∧ text.length ≤ longer.length

/-- In front of a match of the next pattern a scanner takes what is there, and no more. -/
def EndsBefore (scan : Scan) (pattern next : Pattern) : Prop :=
  ∀ head more rest, pattern.Matches head (more ++ rest) → next.Matches more rest →
    scan (head ++ (more ++ rest)) = some (head, more ++ rest)

variable {scan : Scan} {scans : List Scan} {pattern next : Pattern} {patterns : List Pattern}
  {isMember : Char → Bool} {cs text rest : List Char}

/-! ## Longest matches -/

theorem Finds.longest (h : scan.Finds pattern) (hsplits : scan.Splits)
    (hscan : scan cs = some (text, rest)) : pattern.Longest cs text where
  isMatch := ⟨rest, hsplits cs text rest hscan, h.isMatch hscan⟩
  length_le := by
    intro other left hcs hmatch
    obtain ⟨longer, left', hlonger, hlength⟩ := h.greedy hmatch
    rw [← hcs, hscan, Option.some.injEq, Prod.mk.injEq] at hlonger
    rw [hlonger.1]
    exact hlength

theorem Finds.matchesStart_iff (h : scan.Finds pattern) (hsplits : scan.Splits) :
    pattern.MatchesStart cs ↔ ∃ text rest, scan cs = some (text, rest) := by
  constructor
  · intro hstart
    obtain ⟨text, rest, hcs, hmatch⟩ := hstart
    obtain ⟨longer, left, hlonger, -⟩ := h.greedy hmatch
    exact ⟨longer, left, hcs ▸ hlonger⟩
  · intro hscan
    obtain ⟨text, rest, hscan⟩ := hscan
    exact ⟨text, rest, hsplits cs text rest hscan, h.isMatch hscan⟩

/-! ## Pieces -/

theorem finds_one : (one isMember).Finds (.one isMember) where
  isMatch := by
    intro cs text rest h
    obtain ⟨c, hc, htext, -⟩ := one_eq_some.mp h
    exact Pattern.matches_one_iff.mpr ⟨c, hc, htext⟩
  greedy := by
    intro text rest h
    obtain ⟨c, hc, htext⟩ := Pattern.matches_one_iff.mp h
    exact ⟨text, rest, one_eq_some.mpr ⟨c, hc, htext, by rw [htext]; rfl⟩, le_rfl⟩

/-- A text is at most as long as the run that it starts. -/
theorem length_le_takeWhile (h : ∀ c ∈ text, isMember c = true) (rest : List Char) :
    text.length ≤ ((text ++ rest).takeWhile isMember).length := by
  rw [List.takeWhile_append_of_pos h, List.length_append]
  exact Nat.le_add_right _ _

theorem finds_many : (many isMember).Finds (Pattern.one isMember).many where
  isMatch := by
    intro cs text rest h
    exact Pattern.matches_many_one_iff.mpr (many_eq_some.mp h).1
  greedy := by
    intro text rest h
    have hmembers := Pattern.matches_many_one_iff.mp h
    exact ⟨_, _, rfl, length_le_takeWhile hmembers rest⟩

theorem finds_many1 : (many1 isMember).Finds (Pattern.one isMember).many1 where
  isMatch := by
    intro cs text rest h
    obtain ⟨hne, hmany⟩ := many1_eq_some.mp h
    exact Pattern.matches_many1_one_iff.mpr ⟨hne, (many_eq_some.mp hmany).1⟩
  greedy := by
    intro text rest h
    obtain ⟨hne, hmembers⟩ := Pattern.matches_many1_one_iff.mp h
    have hlonger := length_le_takeWhile hmembers rest
    have hpos := List.length_pos_iff.mpr hne
    refine ⟨_, _, many1_eq_some.mpr ⟨?_, rfl⟩, hlonger⟩
    exact List.length_pos_iff.mp (by omega)

theorem finds_digits {least most : Nat} (hle : least ≤ most) :
    (digits least most).Finds (.digits least most) where
  isMatch := by
    intro cs text rest h
    exact (Pattern.matches_digits_iff hle).mpr (digits_eq_some.mp h).1
  greedy := by
    intro text rest h
    have hdigits := (Pattern.matches_digits_iff hle).mp h
    -- the run goes on behind the text, up to the most digits that are taken
    have hrun : ((text ++ rest).take most).takeWhile Char.isDigit =
        text ++ (rest.take (most - text.length)).takeWhile Char.isDigit := by
      rw [List.take_append, List.take_of_length_le hdigits.le_most,
        List.takeWhile_append_of_pos hdigits.isDigit]
    have hlonger := congrArg List.length hrun
    rw [List.length_append] at hlonger
    have hleast := hdigits.least_le
    refine ⟨_, _, if_neg (by omega), by omega⟩

theorem finds_wordEnd : wordEnd.Finds .wordEnd where
  isMatch := by
    intro cs text rest h
    obtain ⟨htext, -, hend⟩ := wordEnd_eq_some.mp h
    exact Pattern.matches_wordEnd_iff.mpr ⟨htext, hend⟩
  greedy := by
    intro text rest h
    obtain ⟨htext, hend⟩ := Pattern.matches_wordEnd_iff.mp h
    rw [htext]
    exact ⟨[], rest, wordEnd_eq_some.mpr ⟨rfl, rfl, hend⟩, le_rfl⟩

theorem finds_optional (h : scan.Finds pattern) : (optional scan).Finds pattern.optional where
  isMatch := by
    intro cs text rest hscan
    rcases optional_eq_some.mp hscan with hscan | ⟨-, htext, -⟩
    · exact Pattern.matches_optional_iff.mpr (Or.inl (h.isMatch hscan))
    · exact Pattern.matches_optional_iff.mpr (Or.inr htext)
  greedy := by
    intro text rest hmatch
    rcases Pattern.matches_optional_iff.mp hmatch with hmatch | htext
    · obtain ⟨longer, left, hlonger, hlength⟩ := h.greedy hmatch
      exact ⟨longer, left, optional_eq_some.mpr (Or.inl hlonger), hlength⟩
    · rw [htext]
      exact ⟨_, _, rfl, Nat.zero_le _⟩

/-! ## Pieces one behind the other -/

theorem finds_sequence_singleton (h : scan.Finds pattern) :
    (sequence [scan]).Finds (.sequence [pattern]) where
  isMatch := by
    intro cs text rest hscan
    obtain ⟨head, middle, more, hhead, hmore, htext⟩ := sequence_cons_eq_some.mp hscan
    obtain ⟨hnil, hmiddle⟩ := sequence_nil_eq_some.mp hmore
    rw [htext, hnil]
    exact .then (hmiddle ▸ h.isMatch hhead) .empty
  greedy := by
    intro text rest hmatch
    obtain ⟨head, more, hhead, hmore, htext⟩ := Pattern.matches_sequence_cons_iff.mp hmatch
    have hnil := Pattern.matches_sequence_nil_iff.mp hmore
    rw [hnil, List.append_nil] at htext
    rw [hnil, List.nil_append, ← htext] at hhead
    obtain ⟨longer, left, hlonger, hlength⟩ := h.greedy hhead
    refine ⟨longer, left, sequence_cons_eq_some.mpr ⟨longer, left, [], hlonger, ?_, ?_⟩, hlength⟩
    · exact sequence_nil_eq_some.mpr ⟨rfl, rfl⟩
    · exact (List.append_nil longer).symm

/-- A piece that ends in front of the others leaves them what they need. -/
theorem finds_sequence_cons (h : scan.Finds pattern) (hsplits : (sequence scans).Splits)
    (hends : scan.EndsBefore pattern (.sequence patterns))
    (hothers : (sequence scans).Finds (.sequence patterns)) :
    (sequence (scan :: scans)).Finds (.sequence (pattern :: patterns)) where
  isMatch := by
    intro cs text rest hscan
    obtain ⟨head, middle, more, hhead, hmore, htext⟩ := sequence_cons_eq_some.mp hscan
    have hmiddle := hsplits middle more rest hmore
    rw [htext]
    exact .then (hmiddle ▸ h.isMatch hhead) (hothers.isMatch hmore)
  greedy := by
    intro text rest hmatch
    obtain ⟨head, more, hhead, hmore, htext⟩ := Pattern.matches_sequence_cons_iff.mp hmatch
    have htaken := hends head more rest hhead hmore
    obtain ⟨longer, left, hlonger, hlength⟩ := hothers.greedy hmore
    refine ⟨head ++ longer, left, ?_, ?_⟩
    · rw [htext, List.append_assoc]
      exact sequence_cons_eq_some.mpr ⟨head, more ++ rest, longer, htaken, hlonger, rfl⟩
    · rw [htext, List.length_append, List.length_append]
      omega

/-- Where the last piece may be missing, the one before it has to end by itself only if the
last one is there. -/
theorem finds_sequence_optional {last : Scan} (h : scan.Finds pattern) (hsplits : last.Splits)
    (hends : scan.EndsBefore pattern next) (hlast : last.Finds next) :
    (sequence [scan, optional last]).Finds (.sequence [pattern, next.optional]) where
  isMatch := by
    intro cs text rest hscan
    obtain ⟨head, middle, more, hhead, hmore, htext⟩ := sequence_cons_eq_some.mp hscan
    have hmiddle : middle = more ++ rest := by
      refine splits_sequence ?_ middle more rest hmore
      simpa using splits_optional hsplits
    rw [htext]
    exact .then (hmiddle ▸ h.isMatch hhead)
      ((finds_sequence_singleton (finds_optional hlast)).isMatch hmore)
  greedy := by
    intro text rest hmatch
    obtain ⟨head, more, hhead, hmore, htext⟩ := Pattern.matches_sequence_cons_iff.mp hmatch
    obtain ⟨back, tail, hback, htail, hsplit⟩ := Pattern.matches_sequence_cons_iff.mp hmore
    rw [Pattern.matches_sequence_nil_iff.mp htail, List.append_nil] at hsplit
    rw [Pattern.matches_sequence_nil_iff.mp htail, List.nil_append, ← hsplit,
      Pattern.matches_optional_iff] at hback
    by_cases hmissing : more = []
    · rw [hmissing, List.append_nil] at htext
      rw [hmissing, List.nil_append, ← htext] at hhead
      obtain ⟨longer, left, hlonger, hlength⟩ := h.greedy hhead
      refine ⟨_, _, sequence_cons_eq_some.mpr ⟨longer, left, _, hlonger, rfl, rfl⟩, ?_⟩
      rw [List.length_append]
      omega
    · have hback := hback.resolve_right hmissing
      have htaken := hends head more rest hhead hback
      obtain ⟨longer, left, hlonger, hlength⟩ := hlast.greedy hback
      refine ⟨head ++ longer, left, ?_, ?_⟩
      · rw [htext, List.append_assoc]
        refine sequence_cons_eq_some.mpr ⟨head, more ++ rest, longer, htaken, ?_, rfl⟩
        refine sequence_cons_eq_some.mpr ⟨longer, left, [], ?_, rfl, (List.append_nil _).symm⟩
        exact optional_eq_some.mpr (Or.inl hlonger)
      · rw [htext, List.length_append, List.length_append]
        omega

/-! ## Pieces that end in front of the next one -/

/-- No match of a pattern starts with a character of a class. -/
def NeverStarts (isMember : Char → Bool) (next : Pattern) : Prop :=
  ∀ more rest, next.Matches more rest → Stops isMember (more ++ rest)

theorem neverStarts_one {isStart : Char → Bool} (h : ∀ c, isStart c = true → isMember c = false) :
    NeverStarts isMember (.one isStart) := by
  intro more rest hmore
  obtain ⟨c, hc, hmore⟩ := Pattern.matches_one_iff.mp hmore
  rw [hmore]
  exact stops_cons (h c hc) rest

theorem neverStarts_char {c : Char} (h : isMember c = false) : NeverStarts isMember (.char c) := by
  refine neverStarts_one fun d hd => ?_
  rw [eq_of_beq hd]
  exact h

theorem neverStarts_then {first second : Pattern} (h : NeverStarts isMember first) :
    NeverStarts isMember (first.then second) := by
  intro text rest htext
  obtain ⟨head, more, hhead, -, htext⟩ := Pattern.matches_then_iff.mp htext
  rw [htext, List.append_assoc]
  exact h head (more ++ rest) hhead

/-- What may be missing gives way to what stands behind it. -/
theorem neverStarts_many_then {isStart : Char → Bool}
    (h : ∀ c, isStart c = true → isMember c = false) (hnext : NeverStarts isMember next) :
    NeverStarts isMember ((Pattern.one isStart).many.then next) := by
  intro text rest htext
  obtain ⟨head, more, hhead, hmore, htext⟩ := Pattern.matches_then_iff.mp htext
  have hmembers := Pattern.matches_many_one_iff.mp hhead
  rw [htext, List.append_assoc]
  cases head with
  | nil => exact hnext more rest hmore
  | cons c head => exact stops_cons (h c (hmembers c List.mem_cons_self)) _

theorem endsBefore_one : (one isMember).EndsBefore (.one isMember) next := by
  intro head more rest hhead hmore
  obtain ⟨c, hc, hhead⟩ := Pattern.matches_one_iff.mp hhead
  exact one_eq_some.mpr ⟨c, hc, hhead, by rw [hhead]; rfl⟩

theorem endsBefore_many (h : NeverStarts isMember next) :
    (many isMember).EndsBefore (Pattern.one isMember).many next := by
  intro head more rest hhead hmore
  have hmembers := Pattern.matches_many_one_iff.mp hhead
  exact many_eq_some.mpr ⟨hmembers, rfl, h more rest hmore⟩

theorem endsBefore_many1 (h : NeverStarts isMember next) :
    (many1 isMember).EndsBefore (Pattern.one isMember).many1 next := by
  intro head more rest hhead hmore
  obtain ⟨hne, hmembers⟩ := Pattern.matches_many1_one_iff.mp hhead
  exact many1_eq_some.mpr ⟨hne, many_eq_some.mpr ⟨hmembers, rfl, h more rest hmore⟩⟩

theorem endsBefore_digits {least most : Nat} (hle : least ≤ most)
    (h : NeverStarts Char.isDigit next) :
    (digits least most).EndsBefore (.digits least most) next := by
  intro head more rest hhead hmore
  have hdigits := (Pattern.matches_digits_iff hle).mp hhead
  exact digits_eq_some.mpr ⟨hdigits, rfl, Or.inr (h more rest hmore)⟩

theorem endsBefore_optional_one (h : NeverStarts isMember next) :
    (optional (one isMember)).EndsBefore (Pattern.one isMember).optional next := by
  intro head more rest hhead hmore
  rcases Pattern.matches_optional_iff.mp hhead with hhead | hhead
  · exact optional_eq_some.mpr (Or.inl (endsBefore_one head more rest hhead hmore))
  · refine optional_eq_some.mpr (Or.inr ⟨?_, hhead, by rw [hhead]; rfl⟩)
    have hstops := h more rest hmore
    rw [hhead, List.nil_append, Option.eq_none_iff_forall_ne_some]
    intro pair hpair
    obtain ⟨c, hc, -, hcs⟩ := one_eq_some.mp hpair
    rw [hcs] at hstops
    rw [hstops c rfl] at hc
    cases hc

theorem endsBefore_sequence_singleton (h : scan.EndsBefore pattern next) :
    (sequence [scan]).EndsBefore (.sequence [pattern]) next := by
  intro text more rest htext hmore
  obtain ⟨head, tail, hhead, htail, htext⟩ := Pattern.matches_sequence_cons_iff.mp htext
  have hnil := Pattern.matches_sequence_nil_iff.mp htail
  rw [hnil, List.append_nil] at htext
  rw [hnil, List.nil_append, ← htext] at hhead
  refine sequence_cons_eq_some.mpr ⟨text, more ++ rest, [], h text more rest hhead hmore, ?_, ?_⟩
  · exact sequence_nil_eq_some.mpr ⟨rfl, rfl⟩
  · exact (List.append_nil text).symm

theorem endsBefore_sequence_cons
    (h : scan.EndsBefore pattern ((Pattern.sequence patterns).then next))
    (hothers : (sequence scans).EndsBefore (.sequence patterns) next) :
    (sequence (scan :: scans)).EndsBefore (.sequence (pattern :: patterns)) next := by
  intro text more rest htext hmore
  obtain ⟨head, tail, hhead, htail, htext⟩ := Pattern.matches_sequence_cons_iff.mp htext
  have htaken := h head (tail ++ more) rest (by rwa [List.append_assoc]) (.then htail hmore)
  rw [List.append_assoc] at htaken
  rw [htext, List.append_assoc]
  exact sequence_cons_eq_some.mpr
    ⟨head, tail ++ (more ++ rest), tail, htaken, hothers tail more rest htail hmore, rfl⟩

end Scan

namespace Rule

open Scan

variable {cs text rest : List Char} {next : Pattern}

/-! ## Dates and times -/

theorem not_isDigit_of_isBlank {c : Char} (h : Text.isBlank c = true) : c.isDigit = false :=
  not_isDigit_of_isDelimiter (by simp [isDelimiter, h])

theorem not_isBlank_of_isDigit {c : Char} (h : c.isDigit = true) : Text.isBlank c = false := by
  refine Bool.eq_false_iff.mpr fun hblank => ?_
  rw [not_isDigit_of_isBlank hblank] at h
  cases h

theorem finds_date : Finds scanDate datePattern := by
  have hhyphen : ∀ others, NeverStarts Char.isDigit (.sequence (.char '-' :: others)) :=
    fun others => neverStarts_then (neverStarts_char (by decide))
  refine finds_sequence_cons (finds_digits (by omega)) (splits_sequence ?_)
    (endsBefore_digits (by omega) (hhyphen _)) ?_
  · simp [splits_one, splits_digits]
  refine finds_sequence_cons finds_one (splits_sequence ?_) endsBefore_one ?_
  · simp [splits_one, splits_digits]
  refine finds_sequence_cons (finds_digits (by omega)) (splits_sequence ?_)
    (endsBefore_digits (by omega) (hhyphen _)) ?_
  · simp [splits_one, splits_digits]
  refine finds_sequence_cons finds_one (splits_sequence ?_) endsBefore_one ?_
  · simp [splits_digits]
  exact finds_sequence_singleton (finds_digits (by omega))

/-- A date ends where no digit follows. -/
theorem endsBefore_date (h : NeverStarts Char.isDigit next) :
    EndsBefore scanDate datePattern next := by
  have hhyphen : ∀ others, NeverStarts Char.isDigit
      ((Pattern.sequence (.char '-' :: others)).then next) :=
    fun others => neverStarts_then (neverStarts_then (neverStarts_char (by decide)))
  refine endsBefore_sequence_cons (endsBefore_digits (by omega) (hhyphen _)) ?_
  refine endsBefore_sequence_cons endsBefore_one ?_
  refine endsBefore_sequence_cons (endsBefore_digits (by omega) (hhyphen _)) ?_
  refine endsBefore_sequence_cons endsBefore_one ?_
  exact endsBefore_sequence_singleton (endsBefore_digits (by omega) h)

theorem finds_clock : Finds scanClock clockPattern := by
  have hcolon : NeverStarts Char.isDigit (.sequence [.char ':', .digits 1 2]) :=
    neverStarts_then (neverStarts_char (by decide))
  refine finds_sequence_cons (finds_digits (by omega)) (splits_sequence ?_)
    (endsBefore_digits (by omega) hcolon) ?_
  · simp [splits_one, splits_digits]
  refine finds_sequence_cons finds_one (splits_sequence ?_) endsBefore_one ?_
  · simp [splits_digits]
  exact finds_sequence_singleton (finds_digits (by omega))

theorem endsBefore_clock (h : NeverStarts Char.isDigit next) :
    EndsBefore scanClock clockPattern next := by
  have hcolon : NeverStarts Char.isDigit
      ((Pattern.sequence [.char ':', .digits 1 2]).then next) :=
    neverStarts_then (neverStarts_then (neverStarts_char (by decide)))
  refine endsBefore_sequence_cons (endsBefore_digits (by omega) hcolon) ?_
  refine endsBefore_sequence_cons endsBefore_one ?_
  exact endsBefore_sequence_singleton (endsBefore_digits (by omega) h)

/-- The words for the halves of the day. -/
def halfWord : Pattern := (Pattern.wordAnyCase ['a', 'm']).either (.wordAnyCase ['p', 'm'])

theorem matches_halfWord_iff : halfWord.Matches text rest ↔ IsHalf text := by
  rw [halfWord, Pattern.matches_either_iff, Pattern.matches_wordAnyCase_iff,
    Pattern.matches_wordAnyCase_iff, IsHalf]

theorem neverStarts_halfWord {isMember : Char → Bool}
    (h : ∀ c, c.isAlpha = true → isMember c = false) : NeverStarts isMember halfWord := by
  intro word rest hword
  have hhalf := matches_halfWord_iff.mp hword
  cases word with
  | nil => exact absurd rfl hhalf.ne_nil
  | cons c word => exact stops_cons (h c (hhalf.isAlpha c List.mem_cons_self)) _

theorem finds_half : Finds scanHalf halfPattern := by
  have hword : Finds (firstOf [.wordAnyCase ['a', 'm'], .wordAnyCase ['p', 'm']]) halfWord := by
    constructor
    · intro cs text rest hscan
      exact matches_halfWord_iff.mpr (firstOf_half_eq_some.mp hscan).1
    · intro text rest hmatch
      have hhalf := matches_halfWord_iff.mp hmatch
      exact ⟨text, rest, firstOf_half_eq_some.mpr ⟨hhalf, rfl⟩, le_rfl⟩
  have hsplits : Splits (firstOf [.wordAnyCase ['a', 'm'], .wordAnyCase ['p', 'm']]) :=
    splits_firstOf (by simp [splits_wordAnyCase])
  refine finds_sequence_cons finds_many (splits_sequence ?_) (endsBefore_many ?_) ?_
  · simp [hsplits, splits_wordEnd]
  · exact neverStarts_then (neverStarts_halfWord fun c hc => not_isBlank_of_isAlpha hc)
  refine finds_sequence_cons hword (splits_sequence ?_) ?_ ?_
  · simp [splits_wordEnd]
  · intro word more rest hmatch hmore
    exact firstOf_half_eq_some.mpr ⟨matches_halfWord_iff.mp hmatch, rfl⟩
  exact finds_sequence_singleton finds_wordEnd

theorem scanTime_eq_sequence : scanTime = .sequence [scanClock, Scan.optional scanHalf] := by
  funext cs
  rw [scanTime_eq]
  simp only [Scan.sequence]
  cases scanClock cs with
  | none => rfl
  | some pair => simp [Scan.optional]

theorem finds_time : Finds scanTime timePattern := by
  have hhalf : NeverStarts Char.isDigit halfPattern :=
    neverStarts_many_then (fun c hc => not_isDigit_of_isBlank hc)
      (neverStarts_then (neverStarts_halfWord fun c hc => not_isDigit_of_isAlpha hc))
  rw [scanTime_eq_sequence]
  exact finds_sequence_optional finds_clock splits_scanHalf (endsBefore_clock hhalf) finds_half

theorem finds_dateTime : Finds scanDateTime dateTime.pattern := by
  have hblanks : NeverStarts Char.isDigit
      (.sequence [(Pattern.one Text.isBlank).many1, timePattern]) :=
    neverStarts_then (neverStarts_then (neverStarts_one fun c hc => not_isDigit_of_isBlank hc))
  have htime : NeverStarts Text.isBlank (.sequence [timePattern]) := by
    refine neverStarts_then (neverStarts_then (neverStarts_then (neverStarts_then
      (neverStarts_then ?_))))
    exact neverStarts_one fun c hc => not_isBlank_of_isDigit hc
  refine finds_sequence_cons finds_date (splits_sequence ?_) (endsBefore_date hblanks) ?_
  · simp [splits_many1, splits_scanTime]
  refine finds_sequence_cons finds_many1 (splits_sequence ?_) (endsBefore_many1 htime) ?_
  · simp [splits_scanTime]
  exact finds_sequence_singleton finds_time

/-! ## Numbers and action keys -/

theorem finds_number : Finds scanNumber number.pattern := by
  have hdigit : NeverStarts (fun c => c == '+' || c == '-')
      (.sequence [(Pattern.one Char.isDigit).many1,
        (Pattern.sequence [.char '.', (Pattern.one Char.isDigit).many1]).optional]) := by
    refine neverStarts_then (neverStarts_then (neverStarts_one fun c hc => ?_))
    refine Bool.eq_false_iff.mpr fun hsign => ?_
    rcases Bool.or_eq_true_iff.mp hsign with hsign | hsign
    · rw [eq_of_beq hsign] at hc
      cases hc
    · rw [eq_of_beq hsign] at hc
      cases hc
  have hpoint : NeverStarts Char.isDigit
      (.sequence [.char '.', (Pattern.one Char.isDigit).many1]) :=
    neverStarts_then (neverStarts_char (by decide))
  have hfraction : Finds (.sequence [.one (· == '.'), .many1 Char.isDigit])
      (.sequence [.char '.', (Pattern.one Char.isDigit).many1]) :=
    finds_sequence_cons finds_one (splits_sequence (by simp [splits_many1])) endsBefore_one
      (finds_sequence_singleton finds_many1)
  have hsplits : Splits (.sequence [.one (· == '.'), .many1 Char.isDigit]) :=
    splits_sequence (by simp [splits_one, splits_many1])
  refine finds_sequence_cons (finds_optional finds_one) (splits_sequence ?_)
    (endsBefore_optional_one hdigit) ?_
  · simp [splits_many1, splits_optional hsplits]
  exact finds_sequence_optional finds_many1 hsplits (endsBefore_many1 hpoint) hfraction

theorem finds_actionKey : Finds scanActionKey actionKey.pattern :=
  finds_sequence_cons finds_one (splits_sequence (by simp [splits_many1])) endsBefore_one
    (finds_sequence_singleton finds_many1)

/-! ## Operators -/

theorem matches_operator_iff : operator.pattern.Matches text rest ↔
    text ∈ [['=', '='], ['!', '='], ['>', '='], ['<', '='], ['>'], ['<']] ∨
      (text ∈ [['!', 'i', 'n'], ['!', 'c', 'o', 'n', 't', 'a', 'i', 'n', 's']] ∧
        Text.endsWord rest = true) := by
  have hend : ∀ word, ((Pattern.word word).then .wordEnd).Matches text rest ↔
      text = word ∧ Text.endsWord rest = true := by
    intro word
    rw [Pattern.matches_then_iff]
    simp only [Pattern.matches_word_iff, Pattern.matches_wordEnd_iff]
    constructor
    · intro h
      obtain ⟨head, more, hhead, hmore, htext⟩ := h
      rw [htext, hhead, hmore.1, List.append_nil]
      exact ⟨rfl, hmore.2⟩
    · intro h
      exact ⟨word, [], rfl, ⟨rfl, h.2⟩, by rw [h.1, List.append_nil]⟩
  simp only [pattern, Pattern.matches_oneOf_iff, List.mem_cons, List.not_mem_nil, or_false,
    exists_eq_or_imp, exists_eq_left]
  simp only [hend, Pattern.matches_word_iff, or_and_right, or_assoc]

theorem finds_operator : Finds scanOperator operator.pattern := by
  constructor
  · intro cs text rest hscan
    obtain ⟨choice, hchoice, hfound⟩ := List.exists_of_findSome?_eq_some hscan
    simp only [List.mem_cons, List.not_mem_nil, or_false] at hchoice
    rw [matches_operator_iff]
    rcases hchoice with rfl | rfl | rfl | rfl | rfl | rfl | rfl | rfl
    case inr.inr.inr.inr.inr.inr.inl | inr.inr.inr.inr.inr.inr.inr =>
      obtain ⟨word, middle, more, hword, hmore, htext⟩ := sequence_cons_eq_some.mp hfound
      obtain ⟨nothing, left, tail, hnothing, htail, hmore⟩ := sequence_cons_eq_some.mp hmore
      obtain ⟨hnil, -, hend⟩ := wordEnd_eq_some.mp hnothing
      obtain ⟨htail, hleft⟩ := sequence_nil_eq_some.mp htail
      rw [htext, hmore, hnil, htail, text_of_word hword, ← hleft]
      exact Or.inr ⟨by simp, hend⟩
    all_goals
      rw [text_of_word hfound]
      exact Or.inl (by simp)
  · intro text rest hmatch
    -- an angle bracket may be the start of a longer operator
    have hangle : ∀ c, c = '>' ∨ c = '<' →
        ∃ longer left, scanOperator (c :: rest) = some (longer, left) ∧ 1 ≤ longer.length := by
      intro c hc
      by_cases hequals : rest.head? = some '='
      · obtain ⟨more, hmore⟩ := List.head?_eq_some_iff.mp hequals
        refine ⟨[c, '='], more, ?_, by simp⟩
        rcases hc with rfl | rfl <;> simp [scanOperator, firstOf, word, hmore]
      · refine ⟨[c], rest, ?_, le_rfl⟩
        cases rest with
        | nil => rcases hc with rfl | rfl <;> rfl
        | cons d rest =>
            have hd : d ≠ '=' := fun h => hequals (by rw [h]; rfl)
            rcases hc with rfl | rfl <;> simp [scanOperator, firstOf, word, hd]
    rw [matches_operator_iff] at hmatch
    simp only [List.mem_cons, List.not_mem_nil, or_false] at hmatch
    rcases hmatch with (rfl | rfl | rfl | rfl | rfl | rfl) | ⟨rfl | rfl, hend⟩
    · exact ⟨['=', '='], rest, by simp [scanOperator, firstOf, word], le_rfl⟩
    · exact ⟨['!', '='], rest, by simp [scanOperator, firstOf, word], le_rfl⟩
    · exact ⟨['>', '='], rest, by simp [scanOperator, firstOf, word], le_rfl⟩
    · exact ⟨['<', '='], rest, by simp [scanOperator, firstOf, word], le_rfl⟩
    · exact hangle '>' (Or.inl rfl)
    · exact hangle '<' (Or.inr rfl)
    · exact ⟨['!', 'i', 'n'], rest,
        by simp [scanOperator, firstOf, word, Scan.sequence, wordEnd, hend], le_rfl⟩
    · exact ⟨['!', 'c', 'o', 'n', 't', 'a', 'i', 'n', 's'], rest,
        by simp [scanOperator, firstOf, word, Scan.sequence, wordEnd, hend], le_rfl⟩

/-! ## Names -/

/-- What follows the first character of a path. -/
def pathPattern : Pattern := (Pattern.one isNamePart).many.then ((Pattern.char '.').then name).many

theorem matches_name_iff : name.Matches text rest ↔ ∃ c more, isNameStart c = true ∧
    (∀ d ∈ more, isNamePart d = true) ∧ text = c :: more := by
  simp only [name, Pattern.matches_sequence_cons_iff, Pattern.matches_sequence_nil_iff,
    Pattern.matches_one_iff, Pattern.matches_many_one_iff]
  constructor
  · intro h
    obtain ⟨head, tail, ⟨c, hc, hhead⟩, ⟨more, nothing, hmore, hnil, htail⟩, htext⟩ := h
    refine ⟨c, more, hc, hmore, ?_⟩
    rw [htext, hhead, htail, hnil, List.append_nil, List.singleton_append]
  · intro h
    obtain ⟨c, more, hc, hmore, htext⟩ := h
    exact ⟨[c], more, ⟨c, hc, rfl⟩, ⟨more, [], hmore, rfl, (List.append_nil more).symm⟩, htext⟩

theorem matches_identifier_iff : identifier.pattern.Matches text rest ↔ ∃ c more,
    isNameStart c = true ∧ pathPattern.Matches more rest ∧ text = c :: more := by
  simp only [pattern, pathPattern, Pattern.matches_then_iff, matches_name_iff]
  constructor
  · intro h
    obtain ⟨head, groups, ⟨c, parts, hc, hparts, hhead⟩, hgroups, htext⟩ := h
    refine ⟨c, parts ++ groups, hc, ⟨parts, groups, ?_, hgroups, rfl⟩, by rw [htext, hhead]; rfl⟩
    exact Pattern.matches_many_one_iff.mpr hparts
  · intro h
    obtain ⟨c, more, hc, ⟨parts, groups, hparts, hgroups, hmore⟩, htext⟩ := h
    have hparts := Pattern.matches_many_one_iff.mp hparts
    exact ⟨c :: parts, groups, ⟨c, parts, hc, hparts, rfl⟩, hgroups, by rw [htext, hmore]; rfl⟩

theorem matches_scanPath (cs rest : List Char) : pathPattern.Matches (scanPath cs).1 rest := by
  have hnil : pathPattern.Matches [] rest :=
    Pattern.matches_then_iff.mpr ⟨[], [], .none, .none, rfl⟩
  fun_induction scanPath cs with
  | case2 c cs hc text left heq ih =>
      rw [heq] at ih
      obtain ⟨parts, groups, hparts, hgroups, htext⟩ := Pattern.matches_then_iff.mp ih
      have hparts := Pattern.matches_many_one_iff.mp hparts
      refine Pattern.matches_then_iff.mpr
        ⟨c :: parts, groups, ?_, hgroups, congrArg (c :: ·) htext⟩
      exact Pattern.matches_many_one_iff.mpr (List.forall_mem_cons.mpr ⟨hc, hparts⟩)
  | case4 d cs hd text left heq hdot ih =>
      rw [heq] at ih
      obtain ⟨parts, groups, hparts, hgroups, htext⟩ := Pattern.matches_then_iff.mp ih
      have hparts := Pattern.matches_many_one_iff.mp hparts
      -- a point opens a new group, and the parts behind it belong to its name
      refine Pattern.matches_then_iff.mpr
        ⟨[], '.' :: d :: (parts ++ groups), .none, ?_, congrArg ('.' :: d :: ·) htext⟩
      have hgroup : ((Pattern.char '.').then name).Matches ('.' :: d :: parts) (groups ++ rest) :=
        Pattern.matches_then_iff.mpr ⟨['.'], d :: parts, Pattern.matches_char_iff.mpr rfl,
          matches_name_iff.mpr ⟨d, parts, hd, hparts, rfl⟩, rfl⟩
      exact .more hgroup hgroups
  | _ => exact hnil

theorem scanPath_parts {parts : List Char} (h : ∀ c ∈ parts, isNamePart c = true) (cs : List Char) :
    scanPath (parts ++ cs) = (parts ++ (scanPath cs).1, (scanPath cs).2) := by
  induction parts with
  | nil => rfl
  | cons c parts ih =>
      rw [List.forall_mem_cons] at h
      rw [List.cons_append, scanPath_part h.1, ih h.2]
      rfl

theorem scanPath_groups (h : ((Pattern.char '.').then name).many.Matches text rest) :
    ∃ more, (scanPath (text ++ rest)).1 = text ++ more := by
  refine Pattern.many_induction
    (fun text rest => ∃ more, (scanPath (text ++ rest)).1 = text ++ more)
    (fun rest => ⟨_, rfl⟩) ?_ h
  intro group others rest hgroup ih
  obtain ⟨more, hmore⟩ := ih
  obtain ⟨point, tail, hpoint, htail, hsplit⟩ := Pattern.matches_then_iff.mp hgroup
  obtain ⟨c, parts, hc, hparts, htail⟩ := matches_name_iff.mp htail
  rw [hsplit, Pattern.matches_char_iff.mp hpoint, htail]
  refine ⟨more, ?_⟩
  calc (scanPath (['.'] ++ c :: parts ++ others ++ rest)).1
      = (scanPath ('.' :: c :: (parts ++ (others ++ rest)))).1 := by simp
    _ = '.' :: c :: (parts ++ (scanPath (others ++ rest)).1) := by
        rw [scanPath_point hc, scanPath_parts hparts]
    _ = ['.'] ++ c :: parts ++ others ++ more := by simp [hmore]

theorem finds_identifier : Finds scanIdentifier identifier.pattern := by
  constructor
  · intro cs text rest hscan
    obtain ⟨c, more, hc, -, htext, -⟩ := scanIdentifier_eq_some.mp hscan
    exact matches_identifier_iff.mpr ⟨c, _, hc, matches_scanPath more rest, htext⟩
  · intro text rest hmatch
    obtain ⟨c, more, hc, hmore, htext⟩ := matches_identifier_iff.mp hmatch
    obtain ⟨parts, groups, hparts, hgroups, hmore⟩ := Pattern.matches_then_iff.mp hmore
    obtain ⟨longer, hlonger⟩ := scanPath_groups hgroups
    have hpath : (scanPath (more ++ rest)).1 = more ++ longer := by
      rw [hmore, List.append_assoc, scanPath_parts (Pattern.matches_many_one_iff.mp hparts),
        hlonger, List.append_assoc]
    refine ⟨_, _, scanIdentifier_eq_some.mpr ⟨c, more ++ rest, hc, ?_, rfl, rfl⟩, ?_⟩
    · rw [htext]
      rfl
    · rw [htext, hpath, List.length_cons, List.length_cons, List.length_append]
      omega

/-! ## Quoted text -/

theorem matches_quotedItem_iff {quote : Char} : (quotedItem quote).Matches text rest ↔
    (∃ c, text = ['\\', c]) ∨ ∃ c, c ≠ quote ∧ c ≠ '\\' ∧ text = [c] := by
  simp only [quotedItem, Pattern.matches_either_iff, Pattern.matches_sequence_cons_iff,
    Pattern.matches_sequence_nil_iff, Pattern.matches_char_iff, Pattern.matches_one_iff,
    Bool.and_eq_true, bne_iff_ne, true_and, and_assoc]
  refine or_congr_left ⟨fun h => ?_, fun h => ?_⟩
  · obtain ⟨slash, tail, hslash, ⟨escaped, nothing, ⟨c, hc⟩, hnil, htail⟩, htext⟩ := h
    exact ⟨c, by rw [htext, hslash, htail, hc, hnil]; rfl⟩
  · obtain ⟨c, htext⟩ := h
    exact ⟨['\\'], [c], rfl, ⟨[c], [], ⟨c, rfl⟩, rfl, rfl⟩, htext⟩

theorem matches_quotedPattern_iff {quote : Char} : (quotedPattern quote).Matches text rest ↔
    ∃ body, (quotedItem quote).many.Matches body (quote :: rest) ∧
      text = quote :: (body ++ [quote]) := by
  simp only [quotedPattern, Pattern.matches_sequence_cons_iff,
    Pattern.matches_sequence_nil_iff, Pattern.matches_char_iff]
  constructor
  · intro h
    obtain ⟨front, tail, hfront, ⟨body, back, hbody, ⟨last, nothing, hlast, hnil, hback⟩, htail⟩,
      htext⟩ := h
    rw [hback, hlast, hnil] at hbody
    exact ⟨body, hbody, by rw [htext, hfront, htail, hback, hlast, hnil]; rfl⟩
  · intro h
    obtain ⟨body, hbody, htext⟩ := h
    exact ⟨[quote], body ++ [quote], rfl,
      ⟨body, [quote], hbody, ⟨[quote], [], rfl, rfl, rfl⟩, rfl⟩, htext⟩

/-- The scanner takes the items one by one, up to the quote behind them. -/
theorem scanToQuote_items {quote : Char} (hslash : quote ≠ '\\') {body : List Char}
    (h : (quotedItem quote).many.Matches body (quote :: rest)) :
    scanToQuote quote (body ++ quote :: rest) = some (body ++ [quote], rest) := by
  refine Pattern.many_induction (fun body behind => behind = quote :: rest →
    scanToQuote quote (body ++ behind) = some (body ++ [quote], rest)) ?_ ?_ h rfl
  · intro behind hbehind
    rw [hbehind]
    exact scanToQuote_quote quote rest
  · intro item others behind hitem ih hbehind
    have hothers := ih hbehind
    rw [List.append_assoc]
    rcases matches_quotedItem_iff.mp hitem with ⟨c, hitem⟩ | ⟨c, hquote, hplain, hitem⟩
    · rw [hitem, List.cons_append, List.singleton_append, scanToQuote_escaped hslash, hothers]
      rfl
    · rw [hitem, List.singleton_append, scanToQuote_plain hquote hplain, hothers]
      rfl

theorem items_of_scanToQuote {quote : Char} (h : scanToQuote quote cs = some (text, rest)) :
    ∃ body, (quotedItem quote).many.Matches body (quote :: rest) ∧ text = body ++ [quote] := by
  fun_induction scanToQuote quote cs generalizing text with
  | case1 => cases h
  | case2 cs =>
      cases h
      exact ⟨[], .none, rfl⟩
  | case3 => cases h
  | case4 c cs hquote ih =>
      obtain ⟨⟨more, left⟩, hmore, hpair⟩ := Option.map_eq_some_iff.mp h
      cases hpair
      obtain ⟨body, hbody, hsplit⟩ := ih hmore
      have hitem : (quotedItem quote).Matches ['\\', c] (body ++ quote :: rest) :=
        matches_quotedItem_iff.mpr (Or.inl ⟨c, rfl⟩)
      exact ⟨['\\', c] ++ body, .more hitem hbody, by rw [hsplit]; rfl⟩
  | case5 c cs hquote hslash ih =>
      obtain ⟨⟨more, left⟩, hmore, hpair⟩ := Option.map_eq_some_iff.mp h
      cases hpair
      obtain ⟨body, hbody, hsplit⟩ := ih hmore
      have hitem : (quotedItem quote).Matches [c] (body ++ quote :: rest) :=
        matches_quotedItem_iff.mpr (Or.inr ⟨c, hquote, hslash, rfl⟩)
      exact ⟨[c] ++ body, .more hitem hbody, by rw [hsplit]; rfl⟩

theorem matches_string_iff : string.pattern.Matches text rest ↔ ∃ quote body,
    isQuote quote = true ∧ (quotedItem quote).many.Matches body (quote :: rest) ∧
      text = quote :: (body ++ [quote]) := by
  simp only [pattern, Pattern.matches_either_iff, matches_quotedPattern_iff]
  constructor
  · intro h
    rcases h with ⟨body, hbody, htext⟩ | ⟨body, hbody, htext⟩
    · exact ⟨'"', body, rfl, hbody, htext⟩
    · exact ⟨'\'', body, rfl, hbody, htext⟩
  · intro h
    obtain ⟨quote, body, hquote, hbody, htext⟩ := h
    rcases Bool.or_eq_true_iff.mp hquote with hquote | hquote
    · rw [eq_of_beq hquote] at hbody htext
      exact Or.inl ⟨body, hbody, htext⟩
    · rw [eq_of_beq hquote] at hbody htext
      exact Or.inr ⟨body, hbody, htext⟩

theorem finds_string : Finds scanString string.pattern := by
  constructor
  · intro cs text rest hscan
    obtain ⟨quote, behind, more, hquote, hmore, htext, -⟩ := scanString_eq_some.mp hscan
    obtain ⟨body, hbody, hsplit⟩ := items_of_scanToQuote hmore
    exact matches_string_iff.mpr ⟨quote, body, hquote, hbody, by rw [htext, hsplit]⟩
  · intro text rest hmatch
    obtain ⟨quote, body, hquote, hbody, htext⟩ := matches_string_iff.mp hmatch
    have hslash : quote ≠ '\\' := by
      intro h
      rw [h] at hquote
      cases hquote
    have hread := scanToQuote_items hslash hbody
    refine ⟨text, rest, scanString_eq_some.mpr ⟨quote, _, _, hquote, hread, htext, ?_⟩, le_rfl⟩
    rw [htext]
    simp

/-! ## All rules -/

/-- Every rule takes a longest match of its pattern, wherever there is a match. -/
theorem finds_scan (rule : Rule) : rule.scan.Finds rule.pattern := by
  cases rule with
  | actionKey => exact finds_actionKey
  | operator => exact finds_operator
  | identifier => exact finds_identifier
  | dateTime => exact finds_dateTime
  | date => exact finds_date
  | time => exact finds_time
  | string => exact finds_string
  | number => exact finds_number

end Rule

end RecordQuery

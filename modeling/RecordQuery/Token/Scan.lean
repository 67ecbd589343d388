import RecordQuery.Text.Blank
import RecordQuery.Text.Word

/-!
# Scanners

A scanner looks at the start of a text.  If it finds there what it looks for, it splits
the text behind it.  The scanners below are the pieces that the shapes of tokens are
put together from.  Each of them takes as much as it can and never gives anything back:
no shape needs that, since what follows a piece never continues it.
-/

namespace RecordQuery

/-- Splits a text behind what it looks for, or fails. -/
abbrev Scan := List Char → Option (List Char × List Char)

namespace Scan

/-! ## Pieces -/

/-- One character of a class. -/
def one (isMember : Char → Bool) : Scan
  | c :: cs => if isMember c then some ([c], cs) else none
  | [] => none

/-- All characters of a class that follow one another, if there are any. -/
def many (isMember : Char → Bool) : Scan := fun cs =>
  some (cs.takeWhile isMember, cs.dropWhile isMember)

/-- At least one character of a class, and all that follow it. -/
def many1 (isMember : Char → Bool) : Scan := fun cs =>
  match cs.takeWhile isMember with
  | [] => none
  | run => some (run, cs.dropWhile isMember)

/-- Decimal digits, at least `least` and at most `most` of them. -/
def digits (least most : Nat) : Scan := fun cs =>
  let run := (cs.take most).takeWhile Char.isDigit
  if run.length < least then none else some (run, cs.drop run.length)

/-- A word, letter by letter. -/
def word : List Char → Scan
  | [], cs => some ([], cs)
  | w :: ws, c :: cs =>
    if c = w then (word ws cs).map fun (text, rest) => (c :: text, rest) else none
  | _ :: _, [] => none

/-- A word, its letters in either case. -/
def wordAnyCase : List Char → Scan
  | [], cs => some ([], cs)
  | w :: ws, c :: cs =>
    if c.toLower = w then (wordAnyCase ws cs).map fun (text, rest) => (c :: text, rest) else none
  | _ :: _, [] => none

/-- Nothing at all, where a word ends. -/
def wordEnd : Scan := fun cs =>
  if Text.endsWord cs then some ([], cs) else none

/-! ## Putting pieces together -/

/-- One piece after another. -/
def sequence : List Scan → Scan
  | [], cs => some ([], cs)
  | first :: others, cs =>
    match first cs with
    | none => none
    | some (text, rest) =>
      (sequence others rest).map fun (more, rest) => (text ++ more, rest)

/-- The first of several pieces that is there. -/
def firstOf (choices : List Scan) : Scan := fun cs =>
  choices.findSome? fun choice => choice cs

/-- A piece that may be missing. -/
def optional (piece : Scan) : Scan := fun cs =>
  some ((piece cs).getD ([], cs))

/-! ## A scanner splits the text it is given -/

/-- What a scanner takes, followed by what it leaves, is the text it was given. -/
def Splits (scan : Scan) : Prop :=
  ∀ cs text rest, scan cs = some (text, rest) → cs = text ++ rest

/-- A scanner never takes nothing. -/
def Advances (scan : Scan) : Prop :=
  ∀ cs text rest, scan cs = some (text, rest) → text ≠ []

theorem splits_one (isMember : Char → Bool) : (one isMember).Splits := by
  intro cs text rest h
  cases cs with
  | nil => simp [one] at h
  | cons c cs =>
      simp only [one] at h
      split at h
      · cases h; simp
      · cases h

theorem advances_one (isMember : Char → Bool) : (one isMember).Advances := by
  intro cs text rest h
  cases cs with
  | nil => simp [one] at h
  | cons c cs =>
      simp only [one] at h
      split at h
      · cases h; simp
      · cases h

theorem splits_many (isMember : Char → Bool) : (many isMember).Splits := by
  intro cs text rest h
  simp only [many, Option.some.injEq, Prod.mk.injEq] at h
  rw [← h.1, ← h.2, List.takeWhile_append_dropWhile]

theorem splits_many1 (isMember : Char → Bool) : (many1 isMember).Splits := by
  intro cs text rest h
  unfold many1 at h
  split at h
  · cases h
  · simp only [Option.some.injEq, Prod.mk.injEq] at h
    rw [← h.1, ← h.2, List.takeWhile_append_dropWhile]

theorem advances_many1 (isMember : Char → Bool) : (many1 isMember).Advances := by
  intro cs text rest h
  unfold many1 at h
  split at h
  · cases h
  · next hne => cases h; exact hne

theorem splits_digits (least most : Nat) : (digits least most).Splits := by
  intro cs text rest h
  simp only [digits] at h
  split at h
  · cases h
  · simp only [Option.some.injEq, Prod.mk.injEq] at h
    obtain ⟨htext, hrest⟩ := h
    have hrun : text ++ (cs.take most).dropWhile Char.isDigit = cs.take most := by
      rw [← htext, List.takeWhile_append_dropWhile]
    have hcs : cs = text ++ ((cs.take most).dropWhile Char.isDigit ++ cs.drop most) := by
      rw [← List.append_assoc, hrun, List.take_append_drop]
    rw [htext] at hrest
    rw [← hrest]
    conv => rhs; rw [hcs]
    rw [List.drop_left, ← hcs]

theorem advances_digits {least most : Nat} (h : 0 < least) : (digits least most).Advances := by
  intro cs text rest hscan
  simp only [digits] at hscan
  split at hscan
  · cases hscan
  · next hlong =>
      simp only [Option.some.injEq, Prod.mk.injEq] at hscan
      intro hnil
      rw [← hscan.1] at hnil
      rw [hnil] at hlong
      exact hlong h

theorem splits_word (ws : List Char) : (word ws).Splits := by
  induction ws with
  | nil => intro cs text rest h; simp [word] at h; simp [h]
  | cons w ws ih =>
      intro cs text rest h
      cases cs with
      | nil => simp [word] at h
      | cons c cs =>
          simp only [word] at h
          split at h
          · obtain ⟨⟨more, left⟩, hmore, hpair⟩ := Option.map_eq_some_iff.mp h
            cases hpair
            simp [ih cs more left hmore]
          · cases h

theorem text_of_word {ws cs text rest : List Char} (h : word ws cs = some (text, rest)) :
    text = ws := by
  induction ws generalizing cs text with
  | nil => simp [word] at h; simp [h]
  | cons w ws ih =>
      cases cs with
      | nil => simp [word] at h
      | cons c cs =>
          simp only [word] at h
          split at h
          · next hc =>
              obtain ⟨⟨more, left⟩, hmore, hpair⟩ := Option.map_eq_some_iff.mp h
              cases hpair
              rw [ih hmore, hc]
          · cases h

theorem advances_word {ws : List Char} (h : ws ≠ []) : (word ws).Advances := by
  intro cs text rest hscan
  rw [text_of_word hscan]
  exact h

theorem splits_wordAnyCase (ws : List Char) : (wordAnyCase ws).Splits := by
  induction ws with
  | nil => intro cs text rest h; simp [wordAnyCase] at h; simp [h]
  | cons w ws ih =>
      intro cs text rest h
      cases cs with
      | nil => simp [wordAnyCase] at h
      | cons c cs =>
          simp only [wordAnyCase] at h
          split at h
          · obtain ⟨⟨more, left⟩, hmore, hpair⟩ := Option.map_eq_some_iff.mp h
            cases hpair
            simp [ih cs more left hmore]
          · cases h

theorem splits_wordEnd : wordEnd.Splits := by
  intro cs text rest h
  unfold wordEnd at h
  split at h
  · cases h; simp
  · cases h

theorem splits_sequence {pieces : List Scan} (h : ∀ piece ∈ pieces, piece.Splits) :
    (sequence pieces).Splits := by
  induction pieces with
  | nil => intro cs text rest hscan; simp [sequence] at hscan; simp [hscan]
  | cons first others ih =>
      intro cs text rest hscan
      simp only [sequence] at hscan
      split at hscan
      · cases hscan
      · next head middle hfirst =>
          obtain ⟨⟨more, left⟩, hmore, hpair⟩ := Option.map_eq_some_iff.mp hscan
          cases hpair
          rw [h first List.mem_cons_self cs head middle hfirst,
            ih (fun piece hmem => h piece (List.mem_cons_of_mem _ hmem)) middle more left hmore,
            List.append_assoc]

theorem advances_sequence {pieces : List Scan} (h : ∃ piece ∈ pieces, piece.Advances) :
    (sequence pieces).Advances := by
  induction pieces with
  | nil => obtain ⟨piece, hmem, _⟩ := h; cases hmem
  | cons first others ih =>
      intro cs text rest hscan
      simp only [sequence] at hscan
      split at hscan
      · cases hscan
      · next head middle hfirst =>
          obtain ⟨⟨more, left⟩, hmore, hpair⟩ := Option.map_eq_some_iff.mp hscan
          cases hpair
          obtain ⟨piece, hmem, hadvances⟩ := h
          intro hnil
          obtain ⟨hhead, hmorenil⟩ := List.append_eq_nil_iff.mp hnil
          rcases List.mem_cons.mp hmem with rfl | hother
          · exact hadvances cs head middle hfirst hhead
          · exact ih ⟨piece, hother, hadvances⟩ middle more left hmore hmorenil

theorem splits_firstOf {choices : List Scan} (h : ∀ choice ∈ choices, choice.Splits) :
    (firstOf choices).Splits := by
  intro cs text rest hscan
  obtain ⟨choice, hmem, hchoice⟩ := List.exists_of_findSome?_eq_some hscan
  exact h choice hmem cs text rest hchoice

theorem advances_firstOf {choices : List Scan} (h : ∀ choice ∈ choices, choice.Advances) :
    (firstOf choices).Advances := by
  intro cs text rest hscan
  obtain ⟨choice, hmem, hchoice⟩ := List.exists_of_findSome?_eq_some hscan
  exact h choice hmem cs text rest hchoice

theorem splits_optional {piece : Scan} (h : piece.Splits) : (optional piece).Splits := by
  intro cs text rest hscan
  simp only [optional, Option.some.injEq] at hscan
  cases hpiece : piece cs with
  | none => rw [hpiece] at hscan; cases hscan; simp
  | some pair =>
      rw [hpiece] at hscan
      subst hscan
      exact h cs text rest hpiece

end Scan

end RecordQuery

import RecordQuery.Proofs.Token.Shape

/-!
# The languages of the token rules

A scanner says how a token is found.  Here it is said what a token may look like, without
a word on how it is found: each rule has a pattern (`Rule.pattern`), and a text either
matches the pattern or does not.  A match may depend on what follows the text, since a word
has to end where a pattern says so.  Patterns know no order of attempts and no greed; of
several matches at the start of a text none is preferred.

The lemmas below tell the shape of what the pieces match.
-/

namespace RecordQuery

/-- A pattern for texts. -/
inductive Pattern where
  /-- Nothing. -/
  | empty
  /-- One character of a class. -/
  | one (isMember : Char → Bool)
  /-- One pattern behind the other. -/
  | then (first second : Pattern)
  /-- One of two patterns. -/
  | either (first second : Pattern)
  /-- One pattern any number of times. -/
  | many (item : Pattern)
  /-- Nothing, where a word ends. -/
  | wordEnd

namespace Pattern

/-- A text matches a pattern where `rest` follows the text. -/
inductive Matches : Pattern → List Char → List Char → Prop where
  | empty {rest : List Char} : Matches .empty [] rest
  | one {isMember : Char → Bool} {c : Char} {rest : List Char} (h : isMember c = true) :
      Matches (.one isMember) [c] rest
  | then {first second : Pattern} {text more rest : List Char}
      (hfirst : Matches first text (more ++ rest)) (hsecond : Matches second more rest) :
      Matches (.then first second) (text ++ more) rest
  | left {first second : Pattern} {text rest : List Char} (h : Matches first text rest) :
      Matches (.either first second) text rest
  | right {first second : Pattern} {text rest : List Char} (h : Matches second text rest) :
      Matches (.either first second) text rest
  | none {item : Pattern} {rest : List Char} : Matches (.many item) [] rest
  | more {item : Pattern} {text more rest : List Char}
      (hitem : Matches item text (more ++ rest)) (hmore : Matches (.many item) more rest) :
      Matches (.many item) (text ++ more) rest
  | wordEnd {rest : List Char} (h : Text.endsWord rest = true) : Matches .wordEnd [] rest

/-- Some text at the start of an input matches. -/
def MatchesStart (pattern : Pattern) (cs : List Char) : Prop :=
  ∃ text rest, cs = text ++ rest ∧ pattern.Matches text rest

/-- A text is the longest one at the start of an input that matches. -/
structure Longest (pattern : Pattern) (cs text : List Char) : Prop where
  isMatch : ∃ rest, cs = text ++ rest ∧ pattern.Matches text rest
  length_le : ∀ other rest, cs = other ++ rest → pattern.Matches other rest →
    other.length ≤ text.length

/-! ## Patterns made of others -/

/-- Patterns one behind the other. -/
def sequence : List Pattern → Pattern
  | [] => empty
  | first :: others => first.then (sequence others)

/-- One of several patterns. -/
def oneOf : List Pattern → Pattern
  | [] => .one fun _ => false
  | first :: others => first.either (oneOf others)

/-- A pattern that may be missing. -/
def optional (item : Pattern) : Pattern := item.either empty

/-- One pattern at least once. -/
def many1 (item : Pattern) : Pattern := item.then item.many

/-- One pattern a number of times. -/
def times (item : Pattern) : Nat → Pattern
  | 0 => empty
  | n + 1 => item.then (item.times n)

/-- One pattern at most a number of times. -/
def atMost (item : Pattern) : Nat → Pattern
  | 0 => empty
  | n + 1 => (item.then (item.atMost n)).optional

/-- Between `least` and `most` digits. -/
def digits (least most : Nat) : Pattern :=
  ((one Char.isDigit).times least).then ((one Char.isDigit).atMost (most - least))

/-- One given character. -/
def char (c : Char) : Pattern := one fun d => d == c

/-- A word, letter by letter. -/
def word (cs : List Char) : Pattern := sequence (cs.map char)

/-- A word in any letter case. -/
def wordAnyCase (cs : List Char) : Pattern :=
  sequence (cs.map fun c => one fun d => d.toLower == c)

end Pattern

/-! ## The patterns of the rules -/

namespace Rule

open Pattern

/-- A letter of ASCII or a low line, and then such letters, low lines and digits. -/
def name : Pattern := sequence [one isNameStart, (one isNamePart).many]

/-- Four digits, and twice a hyphen and one or two digits. -/
def datePattern : Pattern :=
  sequence [digits 4 4, char '-', digits 1 2, char '-', digits 1 2]

/-- One half of the day as a word of its own, perhaps behind white space. -/
def halfPattern : Pattern :=
  sequence [(one Text.isBlank).many, (wordAnyCase ['a', 'm']).either (wordAnyCase ['p', 'm']),
    wordEnd]

/-- One or two digits on both sides of a colon. -/
def clockPattern : Pattern := sequence [digits 1 2, char ':', digits 1 2]

/-- A clock, perhaps with a half of the day. -/
def timePattern : Pattern := sequence [clockPattern, halfPattern.optional]

/-- A character between quotes, or a backslash with any character behind it. -/
def quotedItem (quote : Char) : Pattern :=
  (sequence [char '\\', one fun _ => true]).either (one fun c => c != quote && c != '\\')

/-- A text between quotes. -/
def quotedPattern (quote : Char) : Pattern :=
  sequence [char quote, (quotedItem quote).many, char quote]

/-- The pattern of a rule. -/
def pattern : Rule → Pattern
  | actionKey => sequence [char ':', (one fun c => c.isAlpha || c.isDigit).many1]
  | operator => oneOf [word ['=', '='], word ['!', '='], word ['>', '='], word ['<', '='],
      word ['>'], word ['<'], (word ['!', 'i', 'n']).then wordEnd,
      (word ['!', 'c', 'o', 'n', 't', 'a', 'i', 'n', 's']).then wordEnd]
  | identifier => name.then ((char '.').then name).many
  | dateTime => sequence [datePattern, (one Text.isBlank).many1, timePattern]
  | date => datePattern
  | time => timePattern
  | string => (quotedPattern '"').either (quotedPattern '\'')
  | number => sequence [(one fun c => c == '+' || c == '-').optional,
      (one Char.isDigit).many1,
      (sequence [char '.', (one Char.isDigit).many1]).optional]

end Rule

/-! ## What pieces match -/

namespace Pattern

variable {isMember : Char → Bool} {item first second : Pattern} {others : List Pattern}
  {text rest : List Char} {c : Char}

@[simp] theorem matches_empty_iff : empty.Matches text rest ↔ text = [] := by
  constructor
  · intro h
    cases h
    rfl
  · intro h
    rw [h]
    exact .empty

@[simp] theorem matches_one_iff :
    (one isMember).Matches text rest ↔ ∃ c, isMember c = true ∧ text = [c] := by
  constructor
  · intro h
    cases h with
    | one h => exact ⟨_, h, rfl⟩
  · intro h
    obtain ⟨c, hc, htext⟩ := h
    rw [htext]
    exact .one hc

@[simp] theorem matches_char_iff : (char c).Matches text rest ↔ text = [c] := by
  simp [char]

@[simp] theorem matches_then_iff : (first.then second).Matches text rest ↔
    ∃ head more, first.Matches head (more ++ rest) ∧ second.Matches more rest ∧
      text = head ++ more := by
  constructor
  · intro h
    cases h with
    | «then» hfirst hsecond => exact ⟨_, _, hfirst, hsecond, rfl⟩
  · intro h
    obtain ⟨head, more, hfirst, hsecond, htext⟩ := h
    rw [htext]
    exact .then hfirst hsecond

@[simp] theorem matches_either_iff : (first.either second).Matches text rest ↔
    first.Matches text rest ∨ second.Matches text rest := by
  constructor
  · intro h
    cases h with
    | left h => exact Or.inl h
    | right h => exact Or.inr h
  · intro h
    rcases h with h | h
    · exact .left h
    · exact .right h

@[simp] theorem matches_wordEnd_iff :
    wordEnd.Matches text rest ↔ text = [] ∧ Text.endsWord rest = true := by
  constructor
  · intro h
    cases h with
    | wordEnd h => exact ⟨rfl, h⟩
  · intro h
    rw [h.1]
    exact .wordEnd h.2

@[simp] theorem matches_sequence_nil_iff : (sequence []).Matches text rest ↔ text = [] :=
  matches_empty_iff

@[simp] theorem matches_sequence_cons_iff : (sequence (first :: others)).Matches text rest ↔
    ∃ head more, first.Matches head (more ++ rest) ∧ (sequence others).Matches more rest ∧
      text = head ++ more :=
  matches_then_iff

@[simp] theorem matches_optional_iff :
    item.optional.Matches text rest ↔ item.Matches text rest ∨ text = [] := by
  simp [optional]

theorem matches_many_iff : item.many.Matches text rest ↔ text = [] ∨
    ∃ head more, item.Matches head (more ++ rest) ∧ item.many.Matches more rest ∧
      text = head ++ more := by
  constructor
  · intro h
    cases h with
    | none => exact Or.inl rfl
    | more hitem hmore => exact Or.inr ⟨_, _, hitem, hmore, rfl⟩
  · intro h
    rcases h with h | ⟨head, more, hitem, hmore, htext⟩
    · rw [h]
      exact .none
    · rw [htext]
      exact .more hitem hmore

/-- Induction over the repetitions of a pattern. -/
theorem many_induction (holds : List Char → List Char → Prop) (hnone : ∀ rest, holds [] rest)
    (hmore : ∀ head more rest, item.Matches head (more ++ rest) → holds more rest →
      holds (head ++ more) rest) (h : item.many.Matches text rest) : holds text rest := by
  generalize hpattern : item.many = pattern at h
  induction h with
  | none => exact hnone _
  | more hitem _ _ ih =>
      cases hpattern
      exact hmore _ _ _ hitem (ih rfl)
  | _ => cases hpattern

@[simp] theorem matches_many_one_iff :
    (one isMember).many.Matches text rest ↔ ∀ c ∈ text, isMember c = true := by
  induction text with
  | nil => exact ⟨fun _ c hc => absurd hc List.not_mem_nil, fun _ => .none⟩
  | cons c text ih =>
      rw [matches_many_iff, List.forall_mem_cons, ← ih]
      constructor
      · intro h
        rcases h with h | ⟨head, more, hitem, hmore, htext⟩
        · cases h
        · obtain ⟨d, hd, hhead⟩ := matches_one_iff.mp hitem
          rw [hhead, List.singleton_append, List.cons.injEq] at htext
          rw [htext.1, htext.2]
          exact ⟨hd, hmore⟩
      · intro h
        exact Or.inr ⟨[c], text, .one h.1, h.2, rfl⟩

@[simp] theorem matches_many1_one_iff : (one isMember).many1.Matches text rest ↔
    text ≠ [] ∧ ∀ c ∈ text, isMember c = true := by
  rw [many1, matches_then_iff]
  constructor
  · intro h
    obtain ⟨head, more, hhead, hmore, htext⟩ := h
    obtain ⟨c, hc, hhead⟩ := matches_one_iff.mp hhead
    rw [htext, hhead, List.singleton_append]
    exact ⟨List.cons_ne_nil c more,
      List.forall_mem_cons.mpr ⟨hc, matches_many_one_iff.mp hmore⟩⟩
  · intro h
    obtain ⟨hne, hmembers⟩ := h
    cases text with
    | nil => exact absurd rfl hne
    | cons c text =>
        rw [List.forall_mem_cons] at hmembers
        exact ⟨[c], text, .one hmembers.1, matches_many_one_iff.mpr hmembers.2, rfl⟩

theorem matches_times_iff {n : Nat} : ((one isMember).times n).Matches text rest ↔
    (∀ c ∈ text, isMember c = true) ∧ text.length = n := by
  induction n generalizing text with
  | zero =>
      rw [times, matches_empty_iff, List.length_eq_zero_iff]
      exact ⟨fun h => ⟨by simp [h], h⟩, fun h => h.2⟩
  | succ n ih =>
      rw [times, matches_then_iff]
      constructor
      · intro h
        obtain ⟨head, more, hhead, hmore, htext⟩ := h
        obtain ⟨c, hc, hhead⟩ := matches_one_iff.mp hhead
        obtain ⟨hmembers, hlength⟩ := ih.mp hmore
        rw [htext, hhead, List.singleton_append, List.length_cons, hlength]
        exact ⟨List.forall_mem_cons.mpr ⟨hc, hmembers⟩, rfl⟩
      · intro h
        obtain ⟨hmembers, hlength⟩ := h
        cases text with
        | nil => cases hlength
        | cons c text =>
            rw [List.forall_mem_cons] at hmembers
            exact ⟨[c], text, .one hmembers.1, ih.mpr ⟨hmembers.2, Nat.succ.inj hlength⟩, rfl⟩

theorem matches_atMost_iff {n : Nat} : ((one isMember).atMost n).Matches text rest ↔
    (∀ c ∈ text, isMember c = true) ∧ text.length ≤ n := by
  induction n generalizing text with
  | zero =>
      rw [atMost, matches_empty_iff, Nat.le_zero, List.length_eq_zero_iff]
      exact ⟨fun h => ⟨by simp [h], h⟩, fun h => h.2⟩
  | succ n ih =>
      rw [atMost, matches_optional_iff, matches_then_iff]
      constructor
      · intro h
        rcases h with ⟨head, more, hhead, hmore, htext⟩ | h
        · obtain ⟨c, hc, hhead⟩ := matches_one_iff.mp hhead
          obtain ⟨hmembers, hlength⟩ := ih.mp hmore
          rw [htext, hhead, List.singleton_append, List.length_cons]
          exact ⟨List.forall_mem_cons.mpr ⟨hc, hmembers⟩, Nat.succ_le_succ hlength⟩
        · simp [h]
      · intro h
        obtain ⟨hmembers, hlength⟩ := h
        cases text with
        | nil => exact Or.inr rfl
        | cons c text =>
            rw [List.forall_mem_cons] at hmembers
            exact Or.inl ⟨[c], text, .one hmembers.1,
              ih.mpr ⟨hmembers.2, Nat.le_of_succ_le_succ hlength⟩, rfl⟩

theorem matches_digits_iff {least most : Nat} (h : least ≤ most) :
    (digits least most).Matches text rest ↔ Scan.IsDigits least most text := by
  rw [digits, matches_then_iff]
  constructor
  · intro hmatch
    obtain ⟨front, back, hfront, hback, htext⟩ := hmatch
    obtain ⟨hfront, hleast⟩ := matches_times_iff.mp hfront
    obtain ⟨hback, hmost⟩ := matches_atMost_iff.mp hback
    have hlength : text.length = front.length + back.length := by rw [htext, List.length_append]
    refine ⟨?_, by omega, by omega⟩
    rw [htext]
    exact List.forall_mem_append.mpr ⟨hfront, hback⟩
  · intro hdigits
    have hleast := hdigits.least_le
    have hmost := hdigits.le_most
    refine ⟨text.take least, text.drop least, ?_, ?_, (List.take_append_drop least text).symm⟩
    · refine matches_times_iff.mpr ⟨fun c hc => hdigits.isDigit c (List.mem_of_mem_take hc), ?_⟩
      rw [List.length_take]
      omega
    · refine matches_atMost_iff.mpr ⟨fun c hc => hdigits.isDigit c (List.mem_of_mem_drop hc), ?_⟩
      rw [List.length_drop]
      omega

theorem matches_word_iff {cs : List Char} : (word cs).Matches text rest ↔ text = cs := by
  induction cs generalizing text with
  | nil => exact matches_empty_iff
  | cons c cs ih =>
      rw [word, List.map_cons, matches_sequence_cons_iff, ← word]
      constructor
      · intro h
        obtain ⟨head, more, hhead, hmore, htext⟩ := h
        rw [htext, matches_char_iff.mp hhead, ih.mp hmore, List.singleton_append]
      · intro h
        exact ⟨[c], cs, matches_char_iff.mpr rfl, ih.mpr rfl, h⟩

theorem matches_wordAnyCase_iff {cs : List Char} :
    (wordAnyCase cs).Matches text rest ↔ text.map Char.toLower = cs := by
  induction cs generalizing text with
  | nil => simp [wordAnyCase]
  | cons c cs ih =>
      rw [wordAnyCase, List.map_cons, matches_sequence_cons_iff, ← wordAnyCase]
      constructor
      · intro h
        obtain ⟨head, more, hhead, hmore, htext⟩ := h
        obtain ⟨d, hd, hhead⟩ := matches_one_iff.mp hhead
        rw [htext, hhead, List.singleton_append, List.map_cons, eq_of_beq hd, ih.mp hmore]
      · intro h
        cases text with
        | nil => cases h
        | cons d text =>
            obtain ⟨hd, hmore⟩ := List.cons.inj h
            exact ⟨[d], text, .one (beq_iff_eq.mpr hd), ih.mpr hmore, rfl⟩

theorem matches_oneOf_iff {choices : List Pattern} : (oneOf choices).Matches text rest ↔
    ∃ choice ∈ choices, choice.Matches text rest := by
  induction choices with
  | nil => simp [oneOf]
  | cons choice choices ih => simp [oneOf, ih]

end Pattern

end RecordQuery

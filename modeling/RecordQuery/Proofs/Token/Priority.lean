import RecordQuery.Proofs.Token.Longest
import RecordQuery.Proofs.Token.Session
import RecordQuery.Proofs.Token.Words

/-!
# The first rule and its longest match

What a lexer answers can be told from patterns alone.  In front of a text it asks for
punctuation and then for each rule in turn; the first pattern that matches some start of
the text decides, and the longest match is the text of the token.  Where no pattern
matches, the text is unreadable.

Any lexer that has come from a text by requests and clones does so
(`Session.answers_rest`), and its answer names the place where the match starts.
-/

namespace RecordQuery

/-- What a lexer asks for in front of a text: a punctuation mark, or what a rule finds. -/
inductive Shape where
  | mark
  | rule (sought : Rule)
  deriving DecidableEq

namespace Shape

/-- All shapes in the order in which they are asked for. -/
def all : List Shape := mark :: Rule.all.map rule

/-- The pattern of a shape. -/
def pattern : Shape → Pattern
  | mark => .oneOf (Mark.all.map fun mark => .char mark.char)
  | rule sought => sought.pattern

/-- The shapes that are asked for before a shape. -/
def before (shape : Shape) : List Shape := all.takeWhile (· ≠ shape)

/-- A shape is the first one in its order that matches at the start of a text. -/
structure IsFirst (shape : Shape) (cs : List Char) : Prop where
  matchesStart : shape.pattern.MatchesStart cs
  before : ∀ other ∈ shape.before, ¬ other.pattern.MatchesStart cs

/-- No shape matches at the start of a text. -/
def NoneMatches (cs : List Char) : Prop := ∀ shape ∈ all, ¬ shape.pattern.MatchesStart cs

/-- What a text of some shape stands for: a token, unless it is a literal without a
value. -/
inductive Makes (validate : Bool) : Shape → List Char → Except LiteralFault Token → Prop where
  | mark (mark : Mark) : Makes validate .mark [mark.char] (.ok (.mark mark))
  | actionKey (text : List Char) :
      Makes validate (.rule .actionKey) text (.ok (.actionKey (String.ofList text)))
  | operator (operator : Comparison) :
      Makes validate (.rule .operator) operator.spelling.toList (.ok (.comparison operator))
  /-- All of the text is a keyword. -/
  | keyword {text : List Char} {token : Token} (h : (String.ofList text, token) ∈ Rule.keywords) :
      Makes validate (.rule .identifier) text (.ok token)
  | key {text : List Char} (h : ∀ token, (String.ofList text, token) ∉ Rule.keywords) :
      Makes validate (.rule .identifier) text (.ok (.key (String.ofList text)))
  | dateTime (text : List Char) : Makes validate (.rule .dateTime) text
      ((Literal.readDateTime validate text).map .literal)
  | date (text : List Char) : Makes validate (.rule .date) text
      ((Literal.readDate validate text).map .literal)
  | time (text : List Char) : Makes validate (.rule .time) text
      ((Literal.readTime validate text).map .literal)
  | string (text : List Char) : Makes validate (.rule .string) text
      (.ok (.literal (.string (String.ofList (Literal.unquote text)))))
  | number (text : List Char) : Makes validate (.rule .number) text
      ((Literal.readNumber text).map .literal)

variable {validate : Bool} {shape : Shape} {cs text rest : List Char} {place : Text.Place}

/-! ## Shapes and scanners -/

/-- The scanner of a shape. -/
def scan : Shape → Scan
  | mark => .one fun c => (Mark.ofChar? c).isSome
  | rule sought => sought.scan

theorem splits_scan (shape : Shape) : shape.scan.Splits := by
  cases shape with
  | mark => exact Scan.splits_one _
  | rule sought => exact sought.splits_scan

theorem matches_mark_iff : mark.pattern.Matches text rest ↔ ∃ m : Mark, text = [m.char] := by
  simp only [pattern, Pattern.matches_oneOf_iff, List.mem_map]
  constructor
  · intro h
    obtain ⟨choice, ⟨m, -, hchoice⟩, hmatch⟩ := h
    rw [← hchoice] at hmatch
    exact ⟨m, Pattern.matches_char_iff.mp hmatch⟩
  · intro h
    obtain ⟨m, htext⟩ := h
    exact ⟨_, ⟨m, by cases m <;> decide, rfl⟩, Pattern.matches_char_iff.mpr htext⟩

theorem finds_scan (shape : Shape) : shape.scan.Finds shape.pattern := by
  cases shape with
  | rule sought => exact sought.finds_scan
  | mark =>
      constructor
      · intro cs text rest hscan
        obtain ⟨c, hc, htext, -⟩ := Scan.one_eq_some.mp hscan
        obtain ⟨m, hm⟩ := Option.isSome_iff_exists.mp hc
        exact matches_mark_iff.mpr ⟨m, by rw [htext, char_of_ofChar? hm]⟩
      · intro text rest hmatch
        obtain ⟨m, htext⟩ := matches_mark_iff.mp hmatch
        refine ⟨text, rest, Scan.one_eq_some.mpr ⟨m.char, ?_, htext, by rw [htext]; rfl⟩, le_rfl⟩
        rw [ofChar?_char]
        rfl

theorem matchesStart_iff : shape.pattern.MatchesStart cs ↔
    ∃ text rest, shape.scan cs = some (text, rest) :=
  shape.finds_scan.matchesStart_iff shape.splits_scan

theorem scan_eq_none_iff : shape.scan cs = none ↔ ¬ shape.pattern.MatchesStart cs := by
  rw [matchesStart_iff, Option.eq_none_iff_forall_ne_some]
  simp

theorem longest_of_scan (h : shape.scan cs = some (text, rest)) :
    shape.pattern.Longest cs text :=
  shape.finds_scan.longest shape.splits_scan h

/-! ## What a shape makes -/

theorem exists_spelling (h : Rule.operator.pattern.Matches text rest) :
    ∃ operator : Comparison, text = operator.spelling.toList := by
  rw [Rule.matches_operator_iff] at h
  simp only [List.mem_cons, List.not_mem_nil, or_false] at h
  rcases h with (h | h | h | h | h | h) | ⟨h | h, -⟩
  · exact ⟨.equal, h⟩
  · exact ⟨.notEqual, h⟩
  · exact ⟨.greaterEqual, h⟩
  · exact ⟨.lessEqual, h⟩
  · exact ⟨.greater, h⟩
  · exact ⟨.less, h⟩
  · exact ⟨.isNotIn, h⟩
  · exact ⟨.notContains, h⟩

/-- The conversion of a rule makes what its pattern says. -/
theorem makes_convert {rule : Rule} (h : rule.pattern.Matches text rest) :
    (Shape.rule rule).Makes validate text (rule.convert validate text) := by
  cases rule with
  | actionKey => exact .actionKey text
  | operator =>
      obtain ⟨operator, htext⟩ := exists_spelling h
      have hread : Rule.operator.convert validate text = .ok (.comparison operator) := by
        simp only [Rule.convert, htext, String.ofList_toList, Comparison.ofSpelling?_spelling]
      rw [hread, htext]
      exact .operator operator
  | identifier =>
      show Makes validate _ text (.ok (Rule.nameOrKeyword (String.ofList text)))
      unfold Rule.nameOrKeyword
      cases hlookup : Rule.keywords.lookup (String.ofList text) with
      | some token =>
          obtain ⟨front, back, hkeywords, -⟩ := List.lookup_eq_some_iff.mp hlookup
          refine .keyword ?_
          rw [hkeywords]
          simp
      | none =>
          refine .key fun token hmem => ?_
          have hnone := List.lookup_eq_none_iff.mp hlookup (String.ofList text, token) hmem
          simp at hnone
  | dateTime => exact .dateTime text
  | date => exact .date text
  | time => exact .time text
  | string => exact .string text
  | number => exact .number text

/-! ## The first shape -/

theorem before_rule (rule : Rule) :
    (Shape.rule rule).before = mark :: rule.before.map Shape.rule := by
  cases rule <;> rfl

theorem exists_isFirst_or_noneMatches (cs : List Char) :
    (∃ shape : Shape, shape.IsFirst cs) ∨ NoneMatches cs := by
  cases hfind : all.find? fun shape => (shape.scan cs).isSome with
  | none =>
      refine Or.inr fun shape hshape => scan_eq_none_iff.mp ?_
      have hnone := List.find?_eq_none.mp hfind shape hshape
      simpa using hnone
  | some shape =>
      obtain ⟨hsome, front, back, hall, hfront⟩ := List.find?_eq_some_iff_append.mp hfind
      obtain ⟨⟨text, rest⟩, hscan⟩ := Option.isSome_iff_exists.mp hsome
      refine Or.inl ⟨shape, matchesStart_iff.mpr ⟨text, rest, hscan⟩, fun other hother => ?_⟩
      rw [before, hall] at hother
      have hnone := hfront other (Rule.mem_of_mem_takeWhile_ne hother)
      exact scan_eq_none_iff.mp (by simpa using hnone)

/-- The answer of a lexer that has found a text: the token that the text stands for, or
what is wrong with it. -/
def answer (place : Text.Place) (text : List Char) :
    Except LiteralFault Token → Except LexError (Option Spanned)
  | .ok token => .ok (some ⟨token, place, Text.byteLength text⟩)
  | .error fault => .error (.invalidLiteral place (String.ofList text) fault)

theorem readToken_of_scan_mark (h : mark.scan cs = some (text, rest)) : ∃ m : Mark,
    text = [m.char] ∧ Lexer.readToken validate place cs = .ok (.mark m, text, rest) := by
  obtain ⟨c, hc, htext, hcs⟩ := Scan.one_eq_some.mp h
  obtain ⟨m, hm⟩ := Option.isSome_iff_exists.mp hc
  rw [← char_of_ofChar? hm] at htext hcs
  refine ⟨m, htext, ?_⟩
  rw [htext, hcs]
  exact startsWith_mark m rest place

theorem head_of_scan_mark (h : mark.scan cs = none) : cs.head?.bind Mark.ofChar? = none := by
  cases cs with
  | nil => rfl
  | cons c cs =>
      cases hc : Mark.ofChar? c with
      | none => exact hc
      | some m => simp [scan, Scan.one, hc] at h

theorem readToken_of_fault {rule : Rule} {fault : LiteralFault}
    (h : Rule.find? cs = some (rule, text, rest))
    (hconvert : rule.convert validate text = .error fault) :
    Lexer.readToken validate place cs =
      .error (.invalidLiteral place (String.ofList text) fault) := by
  obtain ⟨c, more, htext, hc⟩ := Rule.starts_of_scan (Rule.scan_of_find? h)
  have hsplit := Rule.splits_scan rule cs text rest (Rule.scan_of_find? h)
  have hmark : cs.head?.bind Mark.ofChar? = none := by
    rw [hsplit, htext]
    exact ofChar?_of_starts hc
  simp only [Lexer.readToken, hmark, h, hconvert]

theorem find?_of_isFirst {rule : Rule} (h : (Shape.rule rule).IsFirst cs)
    (hscan : rule.scan cs = some (text, rest)) : Rule.find? cs = some (rule, text, rest) := by
  refine Rule.find?_eq_some.mpr ⟨hscan, fun earlier hearlier => ?_⟩
  have hbefore : Shape.rule earlier ∈ (Shape.rule rule).before := by
    rw [before_rule]
    exact List.mem_cons_of_mem _ (List.mem_map_of_mem hearlier)
  exact scan_eq_none_iff.mpr (h.before _ hbefore)

/-- The first shape that matches decides, and its longest match is the text. -/
theorem IsFirst.nextToken {lexer : Lexer} (h : shape.IsFirst (Text.dropBlanks lexer.rest)) :
    ∃ text outcome, shape.pattern.Longest (Text.dropBlanks lexer.rest) text ∧
      shape.Makes lexer.validate text outcome ∧
      lexer.nextToken.1 = answer lexer.skipBlanks.place text outcome := by
  obtain ⟨text, rest, hscan⟩ := matchesStart_iff.mp h.matchesStart
  have hlongest := longest_of_scan hscan
  cases shape with
  | mark =>
      obtain ⟨m, htext, hread⟩ := readToken_of_scan_mark hscan
      refine ⟨text, .ok (.mark m), hlongest, htext ▸ .mark m, ?_⟩
      rw [Lexer.nextToken_of_read hread]
      rfl
  | rule rule =>
      have hfind := find?_of_isFirst h hscan
      refine ⟨text, _, hlongest, makes_convert (rule.finds_scan.isMatch hscan), ?_⟩
      cases hconvert : rule.convert lexer.validate text with
      | ok token =>
          rw [Lexer.nextToken_of_read (startsWith_of_find? hfind hconvert lexer.skipBlanks.place)]
          rfl
      | error fault =>
          have hne : Text.dropBlanks lexer.rest ≠ [] := by
            intro hnil
            rw [hnil] at hfind
            cases hfind
          rw [Lexer.nextToken_of_refused hne (readToken_of_fault hfind hconvert)]
          rfl

/-- Where no shape matches, the text is unreadable. -/
theorem NoneMatches.nextToken {lexer : Lexer} (h : NoneMatches (Text.dropBlanks lexer.rest))
    (hne : Text.dropBlanks lexer.rest ≠ []) : lexer.nextToken.1 =
      .error (Lexer.unreadable lexer.skipBlanks.place (Text.dropBlanks lexer.rest)) := by
  have hmark := scan_eq_none_iff.mpr (h mark List.mem_cons_self)
  have hfind : Rule.find? (Text.dropBlanks lexer.rest) = none := by
    refine List.findSome?_eq_none_iff.mpr fun rule hrule => Option.map_eq_none_iff.mpr ?_
    have hmem : Shape.rule rule ∈ all := List.mem_cons_of_mem _ (List.mem_map_of_mem hrule)
    exact scan_eq_none_iff.mpr (h _ hmem)
  have hread : Lexer.readToken lexer.validate lexer.skipBlanks.place lexer.skipBlanks.rest =
      .error (Lexer.unreadable lexer.skipBlanks.place (Text.dropBlanks lexer.rest)) := by
    simp only [Lexer.readToken, Lexer.skipBlanks, head_of_scan_mark hmark, hfind]
  rw [Lexer.nextToken_of_refused hne hread]

end Shape

namespace Lexer

variable {lexer : Lexer} {place : Text.Place} {rest : List Char}

/-- What a lexer answers where a text starts at a place. -/
structure Answers (lexer : Lexer) (place : Text.Place) (rest : List Char) : Prop where
  /-- Some shape is the first that matches, or none matches. -/
  covered : (∃ shape : Shape, shape.IsFirst rest) ∨ Shape.NoneMatches rest
  /-- The first shape that matches decides, and its longest match is the text. -/
  found : ∀ shape : Shape, shape.IsFirst rest → ∃ text outcome,
    shape.pattern.Longest rest text ∧ shape.Makes lexer.validate text outcome ∧
      lexer.nextToken.1 = Shape.answer place text outcome
  /-- An opened quote runs to the end of the text. -/
  unterminated : Shape.NoneMatches rest → rest.head? = some '"' ∨ rest.head? = some '\'' →
    lexer.nextToken.1 = .error (.unterminatedString place (String.ofList rest))
  /-- Anything else runs to the next white space. -/
  unrecognized : Shape.NoneMatches rest → rest.head? ≠ some '"' → rest.head? ≠ some '\'' →
    rest.takeWhile (fun c => !Text.isBlank c) ≠ [] ∧ lexer.nextToken.1 =
      .error (.unrecognized place (String.ofList (rest.takeWhile fun c => !Text.isBlank c)))

theorem answers (hne : Text.dropBlanks lexer.rest ≠ []) :
    lexer.Answers lexer.skipBlanks.place (Text.dropBlanks lexer.rest) where
  covered := Shape.exists_isFirst_or_noneMatches _
  found := fun shape h => h.nextToken
  unterminated := by
    intro hnone hquote
    have hisQuote : (Text.dropBlanks lexer.rest).head?.any Rule.isQuote = true := by
      rcases hquote with hquote | hquote <;> simp [hquote, Rule.isQuote]
    rw [hnone.nextToken hne, unreadable, if_pos hisQuote]
  unrecognized := by
    intro hnone hdouble hsingle
    obtain ⟨c, more, hrest⟩ := List.exists_cons_of_ne_nil hne
    have hstops := Scan.stops_dropWhile Text.isBlank lexer.rest
    rw [← Text.dropBlanks, hrest] at hstops
    rw [hnone.nextToken hne, unreadable]
    rw [hrest] at hdouble hsingle ⊢
    have hisQuote : ¬ (c :: more).head?.any Rule.isQuote = true := by
      simpa [Rule.isQuote] using
        ⟨fun h => hdouble (by rw [h]; rfl), fun h => hsingle (by rw [h]; rfl)⟩
    rw [if_neg hisQuote]
    exact ⟨by simp [hstops c rfl], rfl⟩

end Lexer

namespace Session

open Lexer

/-- Take any lexer that has come from a text by requests and clones, and that has not
read all but white space.  It skips the white space in front of it, and answers for the
rest of the text behind that. -/
theorem answers_rest (source : String) (commands : List Command) (handle : Handle)
    (hmem : handle ∈ run source commands) (hne : Text.dropBlanks handle.lexer.rest ≠ []) :
    ∃ front gap rest, source.toList = front ++ gap ++ rest ∧
      handle.lexer.place = .behind front ∧ (∀ c ∈ gap, Text.isBlank c = true) ∧
      rest ≠ [] ∧ Scan.Stops Text.isBlank rest ∧
      handle.lexer.Answers (.behind (front ++ gap)) rest := by
  obtain ⟨pieces, gap, htiles⟩ := exists_tiles commands handle hmem
  have hsplit := Text.takeWhile_append_dropBlanks handle.lexer.rest
  have hplace : handle.lexer.skipBlanks.place =
      .behind (Piece.cover pieces ++ gap ++ handle.lexer.rest.takeWhile Text.isBlank) := by
    show handle.lexer.place.advance _ = _
    rw [htiles.place_eq, Text.Place.advance_behind]
  refine ⟨Piece.cover pieces ++ gap, handle.lexer.rest.takeWhile Text.isBlank,
    Text.dropBlanks handle.lexer.rest, ?_, htiles.place_eq, ?_, hne, ?_, ?_⟩
  · rw [List.append_assoc _ _ (Text.dropBlanks _), hsplit, htiles.source_eq]
  · exact fun c hc => List.mem_takeWhile_imp hc
  · exact Scan.stops_dropWhile Text.isBlank handle.lexer.rest
  · rw [← hplace]
    exact answers hne

/-- A clone that checks times answers in front of one that has none. -/
theorem answers_rest_clone : ∃ handle ∈ run "at >=\n 24:00 PM" [.ask 0 .next, .clone 0,
      .ask 1 (.validation true), .ask 1 .nextToken],
    handle.tokens.length = 2 ∧ Text.dropBlanks handle.lexer.rest ≠ [] ∧
      ∃ front gap rest, "at >=\n 24:00 PM".toList = front ++ gap ++ rest ∧ rest ≠ [] ∧
        handle.lexer.Answers (.behind (front ++ gap)) rest := by
  have hread : (run "at >=\n 24:00 PM" [.ask 0 .next, .clone 0, .ask 1 (.validation true),
      .ask 1 .nextToken]).any (fun handle => handle.tokens.length == 2 &&
        !(Text.dropBlanks handle.lexer.rest).isEmpty) = true := by
    decide +kernel
  obtain ⟨handle, hmem, hfound⟩ := List.any_eq_true.mp hread
  simp only [Bool.and_eq_true, beq_iff_eq, Bool.not_eq_true', List.isEmpty_eq_false_iff] at hfound
  obtain ⟨front, gap, rest, hsource, -, -, hne, -, hanswers⟩ :=
    answers_rest _ _ handle hmem hfound.2
  exact ⟨handle, hmem, hfound.1, hfound.2, front, gap, rest, hsource, hne, hanswers⟩

end Session

end RecordQuery

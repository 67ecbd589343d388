import RecordQuery.Proofs.Query.Parse

/-!
# What could have stood there

An error of the grammar names what was expected where a query went wrong.  Its wording is
read here as a list of token kinds (`Token.Kind.namedIn`), and compared with the grammar: a
kind goes on some tokens when they and some token of that kind begin a sentence
(`Grammar.Continues`).

Which kinds go on what has been read is a matter of the progress (`Progress.step_ne_none_iff`),
and the expectation of a progress names them all, with one exception.  Behind an opening
bracket a list may close at once, but the error there asks for a value only.  So the kinds
that an error names are those that go on, except for the closing bracket in that one place
(`Query.namedIn_iff_continues`).
-/

namespace RecordQuery

variable {tokens : List Token} {progress : Progress}

/-! ## Kinds of tokens -/

/-- What a token is, without what it carries.  Marks and joiners carry nothing else. -/
inductive Token.Kind where
  | mark (mark : Mark)
  | actionKey
  | comparison
  | joiner (joiner : Joiner)
  | key
  | string
  | integer
  | decimal
  | time
  | date
  | dateTime
  deriving DecidableEq, Repr

/-- The kind of the token that a literal is. -/
def Literal.tokenKind : Literal → Token.Kind
  | string _ => .string
  | integer _ => .integer
  | decimal _ => .decimal
  | time _ => .time
  | date _ => .date
  | dateTime _ => .dateTime

namespace Token

/-- The kind of a token. -/
def kind : Token → Kind
  | mark m => .mark m
  | actionKey _ => .actionKey
  | comparison _ => .comparison
  | joiner j => .joiner j
  | key _ => .key
  | literal value => value.tokenKind

namespace Kind

/-- The kinds of literals. -/
def values : List Kind :=
  [string, integer, decimal, time, date, dateTime]

/-! ## Reading an expectation -/

/-- The alternatives that a phrase lists, with commas between them and `or` before the
last. -/
def alternatives : List Char → List (List Char)
  | [] => [[]]
  | ',' :: ' ' :: cs => [] :: alternatives cs
  | ' ' :: 'o' :: 'r' :: ' ' :: cs => [] :: alternatives cs
  | c :: cs => (alternatives cs).modifyHead (c :: ·)

/-- What an alternative can be, with the kinds of tokens it stands for. -/
def wordings : List (String × List Kind) :=
  [("a filter", [key]), ("a key", [key]), ("a comparison operator", [comparison]),
    ("a value", values), ("array", [mark .openBracket]), ("an action key", [actionKey]),
    ("an action parameter", key :: values)] ++
  [Joiner.and, .or].map (fun j => ("'" ++ j.spelling ++ "'", [joiner j])) ++
  Mark.all.map fun m => ((Token.mark m).describe, [mark m])

/-- The kinds of tokens that a phrase names.  The end of the text is no token. -/
def namedIn (phrase : String) : List Kind :=
  (alternatives phrase.toList).flatMap fun alternative =>
    (wordings.lookup (String.ofList alternative)).getD []

end Kind

end Token

open Token (Kind)

/-- The kinds that an expectation stands for. -/
def Expectation.kinds : Expectation → List Kind
  | filterOrParen => [.key, .mark .openParen]
  | key => [.key]
  | comparison => [.comparison]
  | valueOrArray => Kind.values ++ [.mark .openBracket]
  | value => Kind.values
  | commaOrBracket => [.mark .comma, .mark .closeBracket]
  | joinerOrParen => [.joiner .and, .joiner .or, .mark .closeParen]
  | actionKey => [.actionKey]
  | actionParameter => .key :: Kind.values
  | endOfAction => .key :: Kind.values ++ [.mark .semicolon]
  | endOfFilters => [.joiner .and, .joiner .or, .mark .pipe]
  | queryStart => [.key, .mark .openParen, .mark .pipe]
  | other phrase => Kind.namedIn phrase

/-- The wording of an expectation names what it stands for. -/
theorem Expectation.namedIn_phrase (expectation : Expectation) :
    Kind.namedIn expectation.phrase = expectation.kinds := by
  cases expectation with
  | other phrase => rfl
  | _ => decide +kernel

/-! ## What goes on a query -/

namespace Progress

/-- A list has been opened and has no item yet. -/
def IsOpened : Progress → Prop
  | opened _ _ _ => True
  | _ => False

/-- Whether a token goes on a query is a matter of its kind: the expectation names it, or it
closes a list that has just been opened. -/
theorem step_ne_none_iff (progress : Progress) (token : Token) :
    progress.step token ≠ none ↔ token.kind ∈ progress.expectation.kinds ∨
      (progress.IsOpened ∧ token.kind = .mark .closeBracket) := by
  -- a table with a row for each kind of token and a column for each sort of progress
  rcases token with (_ | _ | _ | _ | _ | _ | _) | _ | _ | (_ | _) | _ |
    (_ | _ | _ | _ | _ | _) <;>
  rcases progress with ⟨_ | _, _ | _⟩ | _ | _ | _ | _ | _ | ⟨_ | _, _⟩ | _ | ⟨_, _, _, _ | _⟩ <;>
  simp [step, expectation, Expectation.kinds, Token.kind, Literal.tokenKind, Kind.values, IsOpened]

/-- The expectation where a list has just been opened leaves the closing bracket out. -/
theorem closeBracket_notMem_of_isOpened (h : progress.IsOpened) :
    .mark .closeBracket ∉ progress.expectation.kinds := by
  cases progress with
  | opened slot key operator =>
      show Kind.mark .closeBracket ∉ Kind.values
      decide
  | _ => exact h.elim

/-- An opening bracket does nothing but open a list. -/
theorem isOpened_of_step {next : Progress} (h : progress.step (.mark .openBracket) = some next) :
    next.IsOpened := by
  cases progress with
  | compared slot key operator =>
      cases h
      trivial
  | before slot => obtain ⟨_ | outer, _ | _⟩ := slot <;> cases h
  | behind group tree => cases group <;> cases h
  | invoked filter actions key params => cases params <;> cases h
  | _ => cases h

/-- A list has just been opened where an opening bracket was the last token. -/
theorem isOpened_iff_getLast? (h : start.run tokens = some progress) :
    progress.IsOpened ↔ tokens.getLast? = some (.mark .openBracket) := by
  constructor
  · intro hopened
    cases progress with
    | opened slot key operator =>
        have htokens := tokens_run h
        have hstart : start.tokens = [] := rfl
        rw [hstart, List.nil_append] at htokens
        rw [← htokens]
        simp [Progress.tokens]
    | _ => exact hopened.elim
  · intro hlast
    obtain ⟨front, rfl⟩ := List.getLast?_eq_some_iff.mp hlast
    rw [run_append] at h
    obtain ⟨middle, -, hstep⟩ := Option.bind_eq_some_iff.mp h
    rw [run_cons] at hstep
    obtain ⟨next, hnext, hrun⟩ := Option.bind_eq_some_iff.mp hstep
    cases hrun
    exact isOpened_of_step hnext

end Progress

/-! ## Kinds that go on a sentence -/

/-- Behind these tokens a sentence can go on with some token of the kind. -/
def Grammar.Continues (tokens : List Token) (kind : Kind) : Prop :=
  ∃ token : Token, token.kind = kind ∧ Viable (tokens ++ [token])

/-- A mark is told by its kind. -/
theorem Token.eq_mark_of_kind {token : Token} {m : Mark} (h : token.kind = .mark m) :
    token = .mark m := by
  cases token with
  | mark found => exact congrArg Token.mark (Kind.mark.inj h)
  | literal value => cases value <;> cases h
  | _ => cases h

/-- There are tokens of every kind. -/
theorem Token.exists_kind (kind : Kind) : ∃ token : Token, token.kind = kind := by
  cases kind with
  | mark m => exact ⟨.mark m, rfl⟩
  | actionKey => exact ⟨.actionKey ":a", rfl⟩
  | comparison => exact ⟨.comparison .equal, rfl⟩
  | joiner j => exact ⟨.joiner j, rfl⟩
  | key => exact ⟨.key "a", rfl⟩
  | string => exact ⟨.literal (.string ""), rfl⟩
  | integer => exact ⟨.literal (.integer 0), rfl⟩
  | decimal => exact ⟨.literal (.decimal ⟨0, 1, by decide, by decide⟩), rfl⟩
  | time => exact ⟨.literal (.time "0:00"), rfl⟩
  | date => exact ⟨.literal (.date "1-1-1"), rfl⟩
  | dateTime => exact ⟨.literal (.dateTime "1-1-1 0:00"), rfl⟩

namespace Grammar

open Progress

/-- Behind tokens that have a run, a sentence goes on with what its last progress expects,
and with a bracket that closes a list which has just been opened. -/
theorem continues_iff (h : start.run tokens = some progress) (kind : Kind) :
    Continues tokens kind ↔ kind ∈ progress.expectation.kinds ∨
      (tokens.getLast? = some (.mark .openBracket) ∧ kind = .mark .closeBracket) := by
  rw [← isOpened_iff_getLast? h]
  constructor
  · rintro ⟨token, rfl, htoken⟩
    exact (step_ne_none_iff progress token).mp ((viable_concat_iff h token).mp htoken)
  · intro hkind
    obtain ⟨token, rfl⟩ := Token.exists_kind kind
    have hstep := (step_ne_none_iff progress token).mpr hkind
    exact ⟨token, rfl, (viable_concat_iff h token).mpr hstep⟩

end Grammar

/-! ## What an error names -/

namespace Query

/-- The tokens of a text in front of the place where an error is. -/
def tokensInFront (options : Options) (input : String) (error : ParseError) : List Token :=
  ((Lexer.start (options.textOf input)).withValidation options.validate).tokensBefore
    error.place.offset

/-- The tokens in front of an error have a run, and the error is about what its last progress
expects. -/
theorem exists_run_of_parse {options : Options} {input : String} {error : ParseError}
    (h : parse options input = .error (.syntactic error)) :
    ∃ progress, Progress.start.run (tokensInFront options input error) = some progress ∧
      error.expected = progress.expectation := by
  have hgoing : ((Lexer.start (options.textOf input)).withValidation options.validate).finished =
    false := rfl
  generalize hfound : Error.syntactic error = found at h
  cases refused_of_parse h with
  | lexical hreads hruns hnext => cases hfound
  | @unexpected tokens progress cursor hat hrefuses =>
      refine ⟨progress, ?_⟩
      cases hcurrent : cursor.current with
      | some spanned =>
          rw [Cursor.unexpected, hcurrent] at hfound
          cases hfound
          have hitems := hat.stands.items_of_some hgoing hcurrent
          refine ⟨?_, rfl⟩
          rw [← hat.runs, ← Lexer.tokensBefore_item hgoing hitems]
          rfl
      | none =>
          obtain ⟨last, hreads, hlast, hsource⟩ := hat.stands.reads_of_none hcurrent
          rw [Cursor.unexpected, hcurrent, hsource] at hfound
          cases hfound
          refine ⟨?_, rfl⟩
          rw [← hat.runs, ← Lexer.tokensBefore_extent hgoing hreads hlast, Lexer.extent_start]
          rfl

/-- What an error of the grammar names as expected is what could have stood there: exactly the
kinds of tokens that go on what stands in front of the error.  There is one exception.  Behind
an opening bracket the closing bracket could stand as well, and no error names it there. -/
theorem namedIn_iff_continues (options : Options) (input : String) (error : ParseError)
    (h : parse options input = .error (.syntactic error)) :
    (∀ kind, kind ∈ Kind.namedIn error.expected.phrase ↔
      Grammar.Continues (tokensInFront options input error) kind ∧
        ¬ ((tokensInFront options input error).getLast? = some (.mark .openBracket) ∧
          kind = .mark .closeBracket)) ∧
    ((tokensInFront options input error).getLast? = some (.mark .openBracket) →
      Grammar.Continues (tokensInFront options input error) (.mark .closeBracket)) := by
  obtain ⟨progress, hrun, hexpected⟩ := exists_run_of_parse h
  have hcontinues := Grammar.continues_iff hrun
  refine ⟨fun kind => ?_, fun hlast => (hcontinues _).mpr (Or.inr ⟨hlast, rfl⟩)⟩
  rw [hexpected, Expectation.namedIn_phrase, hcontinues]
  constructor
  · intro hnamed
    refine ⟨Or.inl hnamed, ?_⟩
    rintro ⟨hlast, rfl⟩
    exact Progress.closeBracket_notMem_of_isOpened
      ((Progress.isOpened_iff_getLast? hrun).mpr hlast) hnamed
  · rintro ⟨hnamed | hclose, hother⟩
    · exact hnamed
    · exact absurd hclose hother

/-- A comma between the parameters of an action. -/
theorem namedIn_iff_continues_comma : ∃ error : ParseError,
    parse ⟨true, false⟩ " (a == 1) | :b c, 2" = .error (.syntactic error) ∧
      error.expected.phrase = "an action parameter, ';' or end of input" ∧
      (∀ kind, kind ∈ Kind.namedIn error.expected.phrase ↔
        Grammar.Continues (tokensInFront ⟨true, false⟩ " (a == 1) | :b c, 2" error) kind ∧
          ¬ ((tokensInFront ⟨true, false⟩ " (a == 1) | :b c, 2" error).getLast? =
            some (.mark .openBracket) ∧ kind = .mark .closeBracket)) ∧
      ((tokensInFront ⟨true, false⟩ " (a == 1) | :b c, 2" error).getLast? =
          some (.mark .openBracket) →
        Grammar.Continues (tokensInFront ⟨true, false⟩ " (a == 1) | :b c, 2" error)
          (.mark .closeBracket)) := by
  have hmessage : ((parse ⟨true, false⟩ " (a == 1) | :b c, 2").map fun _ => ()).mapError
      (fun | .syntactic error => error.expected | .lexical _ => .other "") =
        .error .endOfAction := by
    decide +kernel
  cases hparse : parse ⟨true, false⟩ " (a == 1) | :b c, 2" with
  | ok q => rw [hparse] at hmessage; cases hmessage
  | error error =>
      rw [hparse] at hmessage
      cases error with
      | lexical error => cases hmessage
      | syntactic error =>
          have hexpected : error.expected = .endOfAction := Except.error.inj hmessage
          exact ⟨error, rfl, by rw [hexpected]; rfl, namedIn_iff_continues _ _ error hparse⟩

/-- A list that is opened at the end of a text could be closed, and the error names values
only. -/
theorem closeBracket_notMem_namedIn : ∃ error : ParseError,
    parse ⟨true, false⟩ "x == [" = .error (.syntactic error) ∧
      error.place = ⟨6, 1⟩ ∧ error.expected.phrase = "a value" ∧
      Grammar.Continues (tokensInFront ⟨true, false⟩ "x == [" error) (.mark .closeBracket) ∧
      .mark .closeBracket ∉ Kind.namedIn error.expected.phrase := by
  have hresult : ((parse ⟨true, false⟩ "x == [").map fun _ => ()).mapError
      (fun | .syntactic error => some (error.place, error.expected) | .lexical _ => none) =
        .error (some (⟨6, 1⟩, .value)) := by
    decide +kernel
  have hkind : (((Lexer.start ((Options.mk true false).textOf "x == [")).withValidation
      false).tokensBefore 6).getLast?.map Token.kind = some (.mark .openBracket) := by
    decide +kernel
  cases hparse : parse ⟨true, false⟩ "x == [" with
  | ok q => rw [hparse] at hresult; cases hresult
  | error error =>
      rw [hparse] at hresult
      cases error with
      | lexical error => cases hresult
      | syntactic error =>
          obtain ⟨hplace, hexpected⟩ := Prod.mk.inj (Option.some.inj (Except.error.inj hresult))
          obtain ⟨progress, hrun, -⟩ := exists_run_of_parse hparse
          have hlast : (tokensInFront ⟨true, false⟩ "x == [" error).getLast? =
              some (.mark .openBracket) := by
            obtain ⟨token, htoken, hmark⟩ := Option.map_eq_some_iff.mp hkind
            rw [tokensInFront, hplace, ← Token.eq_mark_of_kind hmark]
            exact htoken
          refine ⟨error, rfl, hplace, by rw [hexpected]; rfl, ?_, ?_⟩
          · exact (Grammar.continues_iff hrun _).mpr (Or.inr ⟨hlast, rfl⟩)
          · rw [hexpected, Expectation.namedIn_phrase]
            decide

end Query

end RecordQuery

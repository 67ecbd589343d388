import RecordQuery.Proofs.Query.Parse

/-!
# Reading a query is one pass over the items of its text

The readers of the grammar look at one token at a time and never go back.  So all that a
text comes to can be told by going through its items once (`Progress.conclude`): each token
is a step of the progress or is refused, an error of the lexer ends the pass, and where the
items end the query has to be complete.

`Query.ofLexer_eq_conclude` says that this is what the readers do.  It settles at once in
which order errors are found: nothing is said of an item before all items in front of it
have been stepped over.  An error is always that of an item, or something is missing at the
end (`Progress.isOf_of_conclude`).
-/

namespace RecordQuery

variable {origin : Lexer} {tokens : List Spanned} {progress next : Progress} {place : Text.Place}
  {items : List (Except LexError Spanned)} {error : Error}

/-- The place where a text ends. -/
def Lexer.endPlace (lexer : Lexer) : Text.Place :=
  ⟨lexer.source.utf8ByteSize, (lexer.place.advance lexer.rest).line⟩

namespace Progress

/-- What the items of a text come to, where the text ends at the given place. -/
def conclude (endPlace : Text.Place) : Progress → List (Except LexError Spanned) →
    Except Error Query
  | progress, [] =>
    match progress.finish with
    | some query => .ok query
    | none => .error (.syntactic (.unexpectedEnd endPlace progress.expectation))
  | _, .error error :: _ => .error (.lexical error)
  | progress, .ok spanned :: items =>
    match progress.step spanned.token with
    | some next => next.conclude endPlace items
    | none => .error (.syntactic
        (.unexpectedToken spanned.place spanned.token.describe progress.expectation))

/-- Tokens that make a progress are stepped over. -/
theorem conclude_of_run (h : progress.run (tokens.map Spanned.token) = some next)
    (items : List (Except LexError Spanned)) :
    progress.conclude place (tokens.map .ok ++ items) = next.conclude place items := by
  induction tokens generalizing progress with
  | nil =>
      cases h
      rfl
  | cons spanned tokens ih =>
      obtain ⟨middle, hstep, hrun⟩ := Option.bind_eq_some_iff.mp h
      rw [List.map_cons, List.cons_append, conclude, hstep]
      exact ih hrun

/-- Tokens that a query does not go on with end the pass, whatever follows them. -/
theorem conclude_of_stuck (h : progress.run (tokens.map Spanned.token) = none)
    (items items' : List (Except LexError Spanned)) :
    progress.conclude place (tokens.map .ok ++ items) =
      progress.conclude place (tokens.map .ok ++ items') := by
  induction tokens generalizing progress with
  | nil => cases h
  | cons spanned tokens ih =>
      rw [List.map_cons, List.cons_append, List.cons_append, conclude, conclude]
      cases hstep : progress.step spanned.token with
      | none => rfl
      | some next =>
          rw [List.map_cons, run_cons, hstep] at h
          exact ih h

end Progress

/-! ## Errors and items -/

/-- An error is that of an item, or something is missing at the end. -/
inductive Error.IsOf (endPlace : Text.Place) (items : List (Except LexError Spanned)) :
    Error → Prop where
  | lexical {error : LexError} (hmem : .error error ∈ items) : IsOf endPlace items (.lexical error)
  | unexpectedToken {spanned : Spanned} (hmem : .ok spanned ∈ items) (expected : Expectation) :
      IsOf endPlace items (.syntactic
        (.unexpectedToken spanned.place spanned.token.describe expected))
  | unexpectedEnd (expected : Expectation) :
      IsOf endPlace items (.syntactic (.unexpectedEnd endPlace expected))

theorem Error.IsOf.cons (h : error.IsOf place items) (item : Except LexError Spanned) :
    error.IsOf place (item :: items) := by
  cases h with
  | lexical hmem => exact .lexical (List.mem_cons_of_mem _ hmem)
  | unexpectedToken hmem expected => exact .unexpectedToken (List.mem_cons_of_mem _ hmem) expected
  | unexpectedEnd expected => exact .unexpectedEnd expected

/-- A pass over items fails with the error of one of them, or at the end. -/
theorem Progress.isOf_of_conclude (h : progress.conclude place items = .error error) :
    error.IsOf place items := by
  induction items generalizing progress with
  | nil =>
      unfold conclude at h
      split at h
      · cases h
      · cases h
        exact .unexpectedEnd _
  | cons item items ih =>
      cases item with
      | error found =>
          cases h
          exact .lexical List.mem_cons_self
      | ok spanned =>
          unfold conclude at h
          split at h
          · exact (ih h).cons _
          · cases h
            exact .unexpectedToken List.mem_cons_self _

/-! ## Where the text ends -/

namespace Lexer

theorem Reads.endPlace {last : Lexer} (h : origin.Reads tokens last) :
    last.endPlace = origin.endPlace := by
  induction h with
  | nil lexer => rfl
  | @cons lexer middle last spanned tokens hnext _ ih =>
      rw [ih]
      cases call_of_eq hnext with
      | @reads token text rest hread =>
          have hsplit : Text.dropBlanks lexer.rest = text ++ rest := (readToken_splits hread).1
          have hrest : lexer.rest = lexer.rest.takeWhile Text.isBlank ++ (text ++ rest) := by
            rw [← hsplit, Text.takeWhile_append_dropBlanks]
          have hplace : lexer.place.advance lexer.rest =
              (lexer.skipBlanks.place.advance text).advance rest := by
            conv_lhs => rw [hrest]
            rw [Text.Place.advance_append, Text.Place.advance_append]
            rfl
          rw [Lexer.endPlace, Lexer.endPlace, hplace]
          rfl

end Lexer

/-- Behind all tokens of a text, what is missing is missing at its end. -/
theorem Cursor.Stands.unexpected_of_none {cursor : Cursor} (h : cursor.Stands origin tokens)
    (hcurrent : cursor.current = none) (expected : Expectation) :
    cursor.unexpected expected = .syntactic (.unexpectedEnd origin.endPlace expected) := by
  cases h with
  | inFront hreads => cases hcurrent
  | @atEnd last lexer log hreads hnext =>
      rw [← hreads.endPlace]
      cases Lexer.call_of_eq hnext with
      | atEnd hrest =>
          have hblank : last.rest = last.rest.takeWhile Text.isBlank := by
            conv_lhs => rw [← Text.takeWhile_append_dropBlanks last.rest]
            rw [show Text.dropBlanks last.rest = [] from hrest, List.append_nil]
          rw [Cursor.unexpected, Lexer.endPlace, hblank]
          rfl

/-! ## The readers -/

/-- A reason for an error is met by the pass. -/
theorem Refused.conclude_eq (h : Refused origin error)
    (hgoing : origin.finished = false) :
    Progress.start.conclude origin.endPlace origin.items = .error error := by
  cases h with
  | @unexpected tokens progress cursor hat hrefuses =>
      cases hcurrent : cursor.current with
      | some spanned =>
          rw [Cursor.token?, hcurrent] at hrefuses
          have hstep : progress.step spanned.token = none := hrefuses
          rw [hat.stands.items_of_some hgoing hcurrent, Progress.conclude_of_run hat.runs,
            Progress.conclude, hstep, Cursor.unexpected, hcurrent]
      | none =>
          obtain ⟨last, hreads, hlast, -⟩ := hat.stands.reads_of_none hcurrent
          rw [Cursor.token?, hcurrent] at hrefuses
          have hfinish : progress.finish = none := hrefuses
          rw [Lexer.items_of_reads hreads hgoing, hlast, Progress.conclude_of_run hat.runs,
            Progress.conclude, hfinish, hat.stands.unexpected_of_none hcurrent]
  | @lexical tokens last error hreads hruns hnext =>
      have hlast : last.items = [.error error] :=
        Lexer.items_of_error (hreads.kept.2.2.trans hgoing) (Prod.ext hnext rfl)
      obtain ⟨progress, hrun⟩ := Option.ne_none_iff_exists'.mp hruns
      rw [Lexer.items_of_reads hreads hgoing, hlast, Progress.conclude_of_run hrun,
        Progress.conclude]

namespace Reader

/-- The result of a reading, without the cursor that it leaves behind. -/
def resultOf {α : Type} : EStateM.Result Error Cursor α → Except Error α
  | .ok value _ => .ok value
  | .error error _ => .error error

/-- In front of a text, the query reader comes to what the items of the text do. -/
theorem resultOf_query {cursor : Cursor} (h : cursor.Stands origin [])
    (hgoing : origin.finished = false) :
    resultOf (query cursor) = Progress.start.conclude origin.endPlace origin.items := by
  have hquery := triple_query [] _ _ ⟨h, rfl⟩ ⟨rfl, trivial⟩
  cases hread : query cursor with
  | error error after =>
      rw [hread] at hquery
      exact (Refused.conclude_eq hquery hgoing).symm
  | ok q after =>
      rw [hread] at hquery
      obtain ⟨tokens, progress, hafter, hlook, hfinish⟩ := hquery
      obtain ⟨last, hreads, hlast, -⟩ :=
        hafter.stands.reads_of_none (Option.map_eq_none_iff.mp hlook)
      rw [Lexer.items_of_reads hreads hgoing, hlast, Progress.conclude_of_run hafter.runs,
        Progress.conclude, hfinish]
      rfl

end Reader

/-- A cursor in front of the first token of a text has passed none. -/
theorem Cursor.stands_of_start {cursor : Cursor} (h : Cursor.start origin = .ok cursor) :
    cursor.Stands origin [] := by
  unfold Cursor.start at h
  split at h
  · next current lexer hnext =>
      cases h
      cases current with
      | none => exact .atEnd (.nil origin) hnext
      | some spanned => exact .inFront (.cons hnext (.nil lexer))
  · cases h

/-- Where there is no cursor, not even the first token can be read. -/
theorem Cursor.nextToken_of_start (h : Cursor.start origin = .error error) :
    ∃ lexError after, error = .lexical lexError ∧ origin.nextToken = (.error lexError, after) := by
  unfold Cursor.start at h
  split at h
  · cases h
  · next lexError after hnext =>
      cases h
      exact ⟨lexError, after, rfl, hnext⟩

/-- Reading a lexer as a query is a pass over its items. -/
theorem Query.ofLexer_eq_conclude (hgoing : origin.finished = false) :
    (ofLexer origin).1 = Progress.start.conclude origin.endPlace origin.items := by
  unfold ofLexer
  cases hstart : Cursor.start origin with
  | error error =>
      obtain ⟨lexError, after, rfl, hnext⟩ := Cursor.nextToken_of_start hstart
      rw [Lexer.items_of_error hgoing hnext, Progress.conclude]
  | ok cursor =>
      rw [← Reader.resultOf_query (Cursor.stands_of_start hstart) hgoing]
      cases hread : Reader.query cursor with
      | ok q after => simp only [hread, Reader.resultOf]
      | error error after => simp only [hread, Reader.resultOf]

/-- What a text comes to as a query. -/
def Lexer.concludes (text : String) (validate : Bool) : Except Error Query :=
  Progress.start.conclude (start text).endPlace ((start text).withValidation validate).items

theorem Query.parse_eq_concludes (options : Options) (input : String) :
    parse options input = Lexer.concludes (options.textOf input) options.validate := by
  rw [parse_eq_ofLexer, ofLexer_eq_conclude rfl]
  rfl

end RecordQuery

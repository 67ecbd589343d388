import RecordQuery.Token.Lexer

/-!
# Reading with one token in view

The grammar of queries is decided by one token at a time.  A cursor stands in front of
that token, which has been read from the text already; moving on reads the next one.
Where the next one cannot be read the cursor stays, so the token in view is never lost.
After an error a cursor can be used again: it goes on from the token that was in view.

What is read of a query is a step on cursors that either yields a result or fails, and
in both cases leaves a cursor behind.  The cursor keeps a log of what has happened on the
way.
-/

namespace RecordQuery

/-- What happens while a text is read. -/
inductive Event where
  /-- A token was read. -/
  | token (spanned : Spanned)
  /-- The query is complete. -/
  | parsed (hasFilter : Bool) (actionCount : Nat)
  /-- The text is no query. -/
  | rejected (error : Error)

/-- A position in front of a token. -/
structure Cursor where
  /-- What follows the token in view. -/
  lexer : Lexer
  /-- The token in view, if the text has not ended. -/
  current : Option Spanned
  /-- What has happened, the latest first. -/
  log : List Event

/-- Reads part of a query. -/
abbrev Reader := EStateM Error Cursor

namespace Cursor

/-- A cursor in front of the first token that a lexer reads. -/
def start (lexer : Lexer) : Except Error Cursor :=
  match lexer.nextToken with
  | (.ok current, lexer) => .ok ⟨lexer, current, current.toList.map .token⟩
  | (.error error, _) => .error (.lexical error)

/-- The token in view. -/
def token? (cursor : Cursor) : Option Token :=
  cursor.current.map Spanned.token

/-- The error that something else should have stood where the cursor is. -/
def unexpected (cursor : Cursor) (expected : Expectation) : Error :=
  match cursor.current with
  | some spanned => .syntactic (.unexpectedToken spanned.place spanned.token.describe expected)
  | none =>
    .syntactic (.unexpectedEnd ⟨cursor.lexer.source.utf8ByteSize, cursor.lexer.place.line⟩ expected)

/-- No fewer than the tokens that follow the token in view. -/
def tokenBound (cursor : Cursor) : Nat :=
  cursor.lexer.rest.length + 1

end Cursor

namespace Reader

/-- The token in view. -/
def peek : Reader (Option Token) := fun cursor =>
  .ok cursor.token? cursor

/-- Moves on to the next token. -/
def advance : Reader Unit := fun cursor =>
  match cursor.lexer.nextToken with
  | (.ok current, lexer) => .ok () ⟨lexer, current, current.toList.map .token ++ cursor.log⟩
  | (.error error, lexer) => .error (.lexical error) { cursor with lexer }

/-- Fails because something else should have stood here. -/
def fail {α : Type} (expected : Expectation) : Reader α := fun cursor =>
  .error (cursor.unexpected expected) cursor

/-- Logs an event. -/
def tell (event : Event) : Reader Unit := fun cursor =>
  .ok () { cursor with log := event :: cursor.log }

/-- Moves past the token in view if it is of the wanted kind, and yields what that kind
of token carries. -/
def accept? {α : Type} (wanted : Token → Option α) : Reader (Option α) := do
  match (← peek).bind wanted with
  | some content =>
    advance
    pure (some content)
  | none => pure none

/-- Moves past the token in view, which has to be of the wanted kind. -/
def accept {α : Type} (wanted : Token → Option α) (expected : Expectation) : Reader α := do
  match ← accept? wanted with
  | some content => pure content
  | none => fail expected

/-- Reads the same thing as often as it is there, but at most `bound` times. -/
def manyUpTo {α : Type} (item? : Reader (Option α)) : Nat → Reader (List α)
  | 0 => pure []
  | bound + 1 => do
    match ← item? with
    | none => pure []
    | some item =>
      let items ← manyUpTo item? bound
      pure (item :: items)

/-- Reads the same thing as often as it is there.  Each time at least one token is
read, so there are no more times than tokens that can follow. -/
def many {α : Type} (item? : Reader (Option α)) : Reader (List α) := do
  let cursor ← get
  manyUpTo item? (cursor.tokenBound + 1)

end Reader

end RecordQuery

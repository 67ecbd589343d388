import RecordQuery.Diagnostic
import RecordQuery.Token.Rule

/-!
# Reading a text token by token

A lexer walks through a text.  It stands between what it has read and what it has not,
and each call reads one token further, skipping the white space before it.  Where no
token can be read it stays in front of the offending text.

There are two ways to go on.  `nextToken` looks at the text anew on each call, so it
meets an error as often as it is called.  `next` yields a stream that ends for good
with the first error or with the end of the text.
-/

namespace RecordQuery

/-- A position in a text that is read token by token. -/
structure Lexer where
  /-- The whole text. -/
  source : String
  /-- What has not been read. -/
  rest : List Char
  /-- The place of the first unread character. -/
  place : Text.Place
  /-- Whether times and dates have to be real ones. -/
  validate : Bool
  /-- Whether the stream of `next` has ended. -/
  finished : Bool

namespace Lexer

/-- A lexer at the start of a text, which leaves times and dates unchecked. -/
def start (source : String) : Lexer where
  source := source
  rest := source.toList
  place := .start
  validate := false
  finished := false

/-- The same lexer, which checks times and dates from here on or ceases to. -/
def withValidation (validate : Bool) (lexer : Lexer) : Lexer :=
  { lexer with validate }

/-- The lexer behind the white space that it stands in front of. -/
def skipBlanks (lexer : Lexer) : Lexer :=
  { lexer with
    rest := Text.dropBlanks lexer.rest
    place := lexer.place.advance (lexer.rest.takeWhile Text.isBlank) }

/-- What is wrong in front of an unread text at which no token starts.  An opened quote
runs to the end of the text, anything else to the next white space. -/
def unreadable (place : Text.Place) (cs : List Char) : LexError :=
  if cs.head?.any Rule.isQuote then
    .unterminatedString place (String.ofList cs)
  else
    .unrecognized place (String.ofList (cs.takeWhile fun c => !Text.isBlank c))

/-- The token at the start of a text that does not start with white space: the token,
its text, and what follows. -/
def readToken (validate : Bool) (place : Text.Place) (cs : List Char) :
    Except LexError (Token × List Char × List Char) :=
  match cs.head?.bind Mark.ofChar? with
  | some mark => .ok (.mark mark, cs.take 1, cs.drop 1)
  | none =>
    match Rule.find? cs with
    | none => .error (unreadable place cs)
    | some (rule, text, rest) =>
      match rule.convert validate text with
      | .ok token => .ok (token, text, rest)
      | .error fault => .error (.invalidLiteral place (String.ofList text) fault)

/-- Reads the next token; there is none at the end of the text. -/
def nextToken (lexer : Lexer) : Except LexError (Option Spanned) × Lexer :=
  let lexer := lexer.skipBlanks
  if lexer.rest.isEmpty then
    (.ok none, lexer)
  else
    match readToken lexer.validate lexer.place lexer.rest with
    | .error error => (.error error, lexer)
    | .ok (token, text, rest) =>
      (.ok (some ⟨token, lexer.place, Text.byteLength text⟩),
        { lexer with rest, place := lexer.place.advance text })

/-- Yields the next item of the stream: a token or, once, an error. -/
def next (lexer : Lexer) : Option (Except LexError Spanned) × Lexer :=
  if lexer.finished then
    (none, lexer)
  else
    match lexer.nextToken with
    | (.ok (some token), lexer) => (some (.ok token), lexer)
    | (.ok none, lexer) => (none, { lexer with finished := true })
    | (.error error, lexer) => (some (.error error), { lexer with finished := true })

/-! ## Reading moves on -/

theorem readToken_splits {validate : Bool} {place : Text.Place} {cs text rest : List Char}
    {token : Token} (h : readToken validate place cs = .ok (token, text, rest)) :
    cs = text ++ rest ∧ text ≠ [] := by
  unfold readToken at h
  split at h
  · next mark hmark =>
      cases cs with
      | nil => cases hmark
      | cons c cs => cases h; simp
  · split at h
    · cases h
    · next rule found left hfind =>
        have hscan := Rule.scan_of_find? hfind
        split at h
        · cases h
          exact ⟨rule.splits_scan cs text rest hscan, rule.advances_scan cs text rest hscan⟩
        · cases h

theorem length_dropBlanks_le (cs : List Char) : (Text.dropBlanks cs).length ≤ cs.length :=
  (List.dropWhile_sublist _).length_le

/-- A token that was read is no longer unread. -/
theorem length_rest_nextToken {lexer : Lexer} {token : Spanned}
    (h : lexer.nextToken.1 = .ok (some token)) :
    lexer.nextToken.2.rest.length < lexer.rest.length := by
  have hskip := length_dropBlanks_le lexer.rest
  unfold nextToken at h ⊢
  simp only at h ⊢
  split at h
  · cases h
  · next hne =>
      rw [if_neg hne]
      split at h
      · cases h
      · next read text rest hread =>
          obtain ⟨hsplit, htext⟩ := readToken_splits hread
          have hlength := congrArg List.length hsplit
          have hpos := List.length_pos_iff.mpr htext
          simp only [List.length_append, skipBlanks] at hlength
          show rest.length < lexer.rest.length
          omega

/-- How many characters are unread, and whether the stream goes on at all: what becomes
smaller with every item of the stream. -/
def unread (lexer : Lexer) : Nat :=
  if lexer.finished then 0 else lexer.rest.length + 1

theorem unread_next {lexer : Lexer} {item : Except LexError Spanned}
    (h : lexer.next.1 = some item) : lexer.next.2.unread < lexer.unread := by
  unfold next at h ⊢
  split at h
  · cases h
  · next hgoing =>
      rw [if_neg hgoing]
      have hmoves := @length_rest_nextToken lexer
      have hkept : lexer.nextToken.2.finished = lexer.finished := by
        unfold nextToken
        simp only
        split
        · rfl
        · split <;> rfl
      rcases hread : lexer.nextToken with ⟨result, after⟩
      rw [hread] at h hmoves hkept
      rcases result with error | _ | token
      · simp [unread, hgoing]
      · cases h
      · have := hmoves rfl
        simp only at this hkept
        simp [unread, hgoing, hkept, this]

/-- All items that the stream still yields: tokens, and an error if it ends in one. -/
def items (lexer : Lexer) : List (Except LexError Spanned) :=
  match _ : lexer.next with
  | (none, _) => []
  | (some item, lexer) => item :: lexer.items
termination_by lexer.unread
decreasing_by
  next hnext => simpa [hnext] using unread_next (congrArg Prod.fst hnext)

end Lexer

end RecordQuery

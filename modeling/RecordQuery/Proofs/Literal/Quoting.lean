import RecordQuery.Proofs.Literal.Unique
import RecordQuery.Proofs.Token.Quotation

/-!
# Strings between quotes

A string is written between double quotes, with a backslash in front of each double quote
inside it.  It is read by dropping its quotes and every backslash.  So what is read has no
backslashes, and a string without backslashes is read as it was written: the backslashes
that go are those that were put in.  Its own last quote ends it, since each quote before
that has exactly one backslash in front of it, so what stands behind it does not matter.

The strings without backslashes are all the strings that any lexer ever returns, and exactly
those that are read back (`Session.returns_string_iff`).
-/

namespace RecordQuery

/-! ## Tokens that lexers return -/

/-- A token stands at the start of some text. -/
def Token.IsRead (token : Token) : Prop :=
  ∃ validate cs text rest, StartsWith validate cs token text rest

/-- A string that was read has no backslashes. -/
theorem Token.IsRead.backslash_not_mem {text : String}
    (h : (Token.literal (.string text)).IsRead) : '\\' ∉ text.toList := by
  obtain ⟨validate, cs, word, rest, hword⟩ := h
  exact Literal.isReadable_of_startsWith hword

namespace Lexer.Handle

variable {handle : Handle}

/-- What a call adds to the tokens stands at the start of the text in front of the lexer. -/
theorem isRead_nextToken (h : ∀ spanned ∈ handle.tokens, spanned.token.IsRead) :
    ∀ spanned ∈ (handle.ask .nextToken).tokens, spanned.token.IsRead := by
  intro spanned hmem
  rcases hnext : handle.lexer.nextToken with ⟨error | found, after⟩
  · simp only [ask, hnext, note, Option.toList_none, List.append_nil] at hmem
    exact h spanned hmem
  · simp only [ask, hnext, note, List.mem_append, Option.mem_toList] at hmem
    rcases hmem with hmem | rfl
    · exact h spanned hmem
    · cases call_of_eq hnext with
      | reads hread => exact ⟨_, _, _, _, startsWith_of_readToken hread⟩

/-- No request adds anything else. -/
theorem isRead_ask (request : Request) (h : ∀ spanned ∈ handle.tokens, spanned.token.IsRead) :
    ∀ spanned ∈ (handle.ask request).tokens, spanned.token.IsRead := by
  cases request with
  | nextToken => exact isRead_nextToken h
  | next =>
      by_cases hfinished : handle.lexer.finished = true
      · rw [ask_next_of_finished hfinished]
        exact h
      · obtain ⟨finished, hnext⟩ := ask_next (Bool.eq_false_iff.mpr hfinished)
        rw [hnext]
        exact isRead_nextToken h
  | validation validate =>
      intro spanned hmem
      simp only [ask, note, Option.toList_none, List.append_nil] at hmem
      exact h spanned hmem

end Lexer.Handle

namespace Session

open Lexer

/-- Some lexer returns the token, for some text and after some requests and clones. -/
def Returns (token : Token) : Prop :=
  ∃ source commands, ∃ handle ∈ run source commands, ∃ spanned ∈ handle.tokens,
    spanned.token = token

theorem Returns.isRead {token : Token} (h : Returns token) : token.IsRead := by
  obtain ⟨source, commands, handle, hhandle, spanned, hspanned, rfl⟩ := h
  have hread := @forall_mem_run source
    (fun handle => ∀ spanned ∈ handle.tokens, spanned.token.IsRead) (by simp)
    (fun handle request => Handle.isRead_ask request) commands
  exact hread handle hhandle spanned hspanned

end Session

/-! ## Written strings -/

namespace Literal

variable {validate : Bool} {text : String} {lexer : Lexer} {behind : List Char}

/-- A written string is one word, whatever stands behind it. -/
theorem startsWith_writeString (h : '\\' ∉ text.toList) (behind : List Char) :
    StartsWith validate ((string text).write ++ behind) (.literal (string text))
      (string text).write behind := by
  have hconvert := (@lexeme_string validate text.toList h).convert
  rw [String.ofList_toList] at hconvert
  exact startsWith_of_find? (find?_writeString h behind) hconvert

/-- A lexer that is given a written string, with some text behind it, stands in front of it. -/
theorem dropBlanks_display (text following : String) (validate : Bool) :
    Text.dropBlanks
        ((Lexer.start ((string text).display ++ following)).withValidation validate).rest =
      (string text).write ++ following.toList := by
  have hrest (source : String) :
      ((Lexer.start source).withValidation validate).rest = source.toList := rfl
  rw [hrest, String.toList_append, display, String.toList_ofList]
  exact Scan.dropBlanks_of_stops (Scan.stops_cons (by decide) _)

/-- A lexer in front of a written string reads it and goes on behind it. -/
theorem nextToken_writeString (h : '\\' ∉ text.toList)
    (hrest : Text.dropBlanks lexer.rest = (string text).write ++ behind) :
    lexer.nextToken =
      (.ok (some ⟨.literal (.string text), lexer.skipBlanks.place,
          (string text).display.utf8ByteSize⟩),
        lexer.movedTo behind (lexer.skipBlanks.place.advance (string text).write)) := by
  have hread := @startsWith_writeString lexer.validate text h behind lexer.skipBlanks.place
  rw [← hrest] at hread
  rw [Lexer.nextToken_of_read hread, display, Text.utf8ByteSize_ofList]
  rfl

end Literal

namespace Session

open Lexer

/-- The first token that a text is asked for is returned. -/
theorem returns_of_nextToken {source : String} {validate : Bool} {spanned : Spanned}
    {after : Lexer}
    (h : ((Lexer.start source).withValidation validate).nextToken = (.ok (some spanned), after)) :
    Returns spanned.token := by
  have htokens : (Handle.ask ⟨(Lexer.start source).withValidation validate, []⟩ .nextToken).tokens =
      [spanned] := by
    simp [Handle.ask, Handle.note, h]
  refine ⟨source, [.ask 0 (.validation validate), .ask 0 .nextToken], _,
    List.mem_singleton_self _, spanned, ?_, rfl⟩
  show spanned ∈ (Handle.ask ⟨(Lexer.start source).withValidation validate, []⟩ .nextToken).tokens
  rw [htokens]
  exact List.mem_singleton_self spanned

/-- Take any string.

* Some lexer returns it as a token, for some text, exactly if it has no backslash.
* The written string, with any text behind it, is first read as a token of this string that is
  as long as the written string, exactly if it has no backslash.
* So what is returned as a string and written again is read as that string wherever it stands,
  by a lexer that then stands in front of what follows. -/
theorem returns_string_iff (text : String) :
    (Returns (.literal (.string text)) ↔ '\\' ∉ text.toList) ∧
    (∀ (following : String) (validate : Bool),
      (∃ spanned, ((Lexer.start ((Literal.string text).display ++ following)).withValidation
            validate).items.head? = some (.ok spanned) ∧
          spanned.token = .literal (.string text) ∧
          spanned.length = (Literal.string text).display.utf8ByteSize) ↔
        '\\' ∉ text.toList) ∧
    (Returns (.literal (.string text)) → ∀ (lexer : Lexer) (behind : List Char),
      Text.dropBlanks lexer.rest = (Literal.string text).write ++ behind →
      lexer.nextToken =
        (.ok (some ⟨.literal (.string text), lexer.skipBlanks.place,
            (Literal.string text).display.utf8ByteSize⟩),
          lexer.movedTo behind
            (lexer.skipBlanks.place.advance (Literal.string text).write))) := by
  refine ⟨⟨fun h => h.isRead.backslash_not_mem, fun h => ?_⟩, ?_, ?_⟩
  · have hnext := Literal.nextToken_writeString h (Literal.dropBlanks_display text "" false)
    exact returns_of_nextToken hnext
  · intro following validate
    constructor
    · rintro ⟨spanned, hhead, htoken, -⟩
      obtain ⟨cs, word, rest, hword⟩ :=
        exists_startsWith_of_mem_items rfl (List.mem_of_mem_head? hhead)
      rw [htoken] at hword
      exact Token.IsRead.backslash_not_mem ⟨_, cs, word, rest, hword⟩
    · intro h
      have hnext := Literal.nextToken_writeString h
        (Literal.dropBlanks_display text following validate)
      have hhead := congrArg List.head? (items_of_token rfl hnext)
      rw [List.head?_cons] at hhead
      refine ⟨_, hhead, ?_, ?_⟩
      · rfl
      · rfl
  · intro h lexer behind hrest
    exact Literal.nextToken_writeString h.isRead.backslash_not_mem hrest

/-- The string has both kinds of quotes inside it.  In both texts a backslash and one more
quote follow, and in the second one a name and a line end stand in front. -/
theorem returns_string_quotes :
    Returns (.literal (.string "'\"")) ∧
      (∃ spanned, ((Lexer.start ((Literal.string "'\"").display ++ "\\\"")).withValidation
            true).items.head? = some (.ok spanned) ∧
          spanned.token = .literal (.string "'\"") ∧
          spanned.length = (Literal.string "'\"").display.utf8ByteSize) ∧
      ((Lexer.start "k\n\"'\\\"\"\\\"").nextToken.2.nextToken).2.rest = "\\\"".toList := by
  have hplain : '\\' ∉ "'\"".toList := by decide
  obtain ⟨hreturns, hfirst, hanywhere⟩ := returns_string_iff "'\""
  have hrest : Text.dropBlanks (Lexer.start "k\n\"'\\\"\"\\\"").nextToken.2.rest =
      (Literal.string "'\"").write ++ "\\\"".toList := by
    decide +kernel
  refine ⟨hreturns.mpr hplain, (hfirst "\\\"" true).mpr hplain, ?_⟩
  rw [hanywhere (hreturns.mpr hplain) _ _ hrest]
  rfl

end Session

end RecordQuery

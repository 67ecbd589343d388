import Mathlib.Data.List.Induction
import Mathlib.Data.List.TakeWhile
import RecordQuery.Proofs.Token.Stream

/-!
# Lexers in use

A lexer is asked for the items of its stream or for single tokens, its validation is
switched on and off, and it is cloned; all this in any order.  A session keeps all lexers
that have come from one text this way, each with the tokens that it and those it was
cloned from have returned (`Session.run`).

What one request preserves, every lexer of every session has (`Session.forall_mem_run`).
The invariant here is that tokens tile the text: white space and tokens follow one another
without anything between them, the place of each is told by what stands before it, and
what has not been read is the rest of the text (`Session.tiles`).
-/

namespace RecordQuery

/-! ## Places -/

namespace Text.Place

/-- The place behind a text: as many bytes as the text has, and a line more than it has
line ends. -/
def behind (cs : List Char) : Place := ⟨byteLength cs, 1 + cs.count '\n'⟩

theorem step_behind (front : List Char) (c : Char) :
    (behind front).step c = behind (front ++ [c]) := by
  have hbytes : byteLength (front ++ [c]) = byteLength front + c.utf8Size := by
    rw [byteLength_append, byteLength_cons, byteLength_nil, Nat.add_zero]
  by_cases hc : c = '\n'
  · rw [behind, behind, step, hbytes, if_pos hc, List.count_append, hc]
    rfl
  · rw [behind, behind, step, hbytes, if_neg hc, List.count_append]
    simp [hc]

theorem advance_behind (front cs : List Char) :
    (behind front).advance cs = behind (front ++ cs) := by
  induction cs generalizing front with
  | nil => simp
  | cons c cs ih => rw [advance_cons, step_behind, ih, List.append_assoc, List.singleton_append]

theorem advance_start (cs : List Char) : start.advance cs = behind cs :=
  advance_behind [] cs

end Text.Place

/-! ## Requests and sessions -/

namespace Lexer

/-- What can be asked of a lexer. -/
inductive Request where
  /-- The next item of the stream. -/
  | next
  /-- The next token. -/
  | nextToken
  /-- To check times and dates from here on, or to cease to. -/
  | validation (validate : Bool)

/-- A lexer, and the tokens that it has returned so far. -/
structure Handle where
  lexer : Lexer
  tokens : List Spanned

namespace Handle

/-- Notes what a lexer has returned, if that is a token. -/
def note (handle : Handle) (found : Option Spanned) (lexer : Lexer) : Handle :=
  ⟨lexer, handle.tokens ++ found.toList⟩

/-- Makes one request. -/
def ask (handle : Handle) : Request → Handle
  | .next =>
    match handle.lexer.next with
    | (some (.ok spanned), lexer) => handle.note (some spanned) lexer
    | (_, lexer) => handle.note none lexer
  | .nextToken =>
    match handle.lexer.nextToken with
    | (.ok found, lexer) => handle.note found lexer
    | (.error _, lexer) => handle.note none lexer
  | .validation validate => handle.note none (handle.lexer.withValidation validate)

end Handle

end Lexer

/-- All lexers that have come from one text. -/
abbrev Session := List Lexer.Handle

namespace Session

open Lexer

/-- What can be done in a session: a request to one of its lexers, or a clone of one. -/
inductive Command where
  | ask (index : Nat) (request : Request)
  | clone (index : Nat)

/-- Carries out one command.  Clones come last; where there is no such lexer, nothing
happens. -/
def step (session : Session) : Command → Session
  | .ask index request => session.modify index fun handle => handle.ask request
  | .clone index => session ++ session[index]?.toList

/-- The session of a text, after some commands. -/
def run (source : String) (commands : List Command) : Session :=
  commands.foldl step [⟨Lexer.start source, []⟩]

variable {source : String} {session : Session} {holds : Handle → Prop}

theorem run_concat (source : String) (commands : List Command) (command : Command) :
    run source (commands ++ [command]) = (run source commands).step command := by
  simp [run]

/-- A command preserves what every request preserves. -/
theorem forall_mem_step (hask : ∀ handle request, holds handle → holds (handle.ask request))
    (h : ∀ handle ∈ session, holds handle) (command : Command) :
    ∀ handle ∈ session.step command, holds handle := by
  intro handle hmem
  cases command with
  | ask index request =>
      obtain ⟨position, hposition⟩ := List.mem_iff_getElem?.mp hmem
      rw [step, List.getElem?_modify] at hposition
      obtain ⟨before, hbefore, hafter⟩ := Option.map_eq_some_iff.mp hposition
      have hholds := h before (List.mem_of_getElem? hbefore)
      by_cases hindex : index = position
      · rw [if_pos hindex] at hafter
        exact hafter ▸ hask before request hholds
      · rw [if_neg hindex] at hafter
        exact hafter ▸ hholds
  | clone index =>
      rcases List.mem_append.mp hmem with hmem | hmem
      · exact h handle hmem
      · exact h handle (List.mem_of_getElem? (Option.mem_toList.mp hmem))

/-- What holds at the start of a text, and is preserved by every request, holds of all
lexers of every session. -/
theorem forall_mem_run (hstart : holds ⟨Lexer.start source, []⟩)
    (hask : ∀ handle request, holds handle → holds (handle.ask request))
    (commands : List Command) : ∀ handle ∈ run source commands, holds handle := by
  induction commands using List.reverseRecOn with
  | nil =>
      intro handle hmem
      rw [List.mem_singleton.mp hmem]
      exact hstart
  | append_singleton commands command ih =>
      rw [run_concat]
      exact forall_mem_step hask ih command

end Session

/-! ## Tilings -/

namespace Lexer

/-- A token with the white space before it. -/
structure Piece where
  gap : List Char
  text : List Char
  token : Spanned

namespace Piece

/-- The text that pieces cover one after another. -/
def cover (pieces : List Piece) : List Char :=
  pieces.flatMap fun piece => piece.gap ++ piece.text

theorem cover_concat (pieces : List Piece) (piece : Piece) :
    cover (pieces ++ [piece]) = cover pieces ++ piece.gap ++ piece.text := by
  simp [cover]

/-- A piece stands behind some text: its gap is white space, its token is not empty, and
the token knows its place and its length. -/
structure Stands (piece : Piece) (front : List Char) : Prop where
  blank : ∀ c ∈ piece.gap, Text.isBlank c = true
  length_pos : 1 ≤ piece.token.length
  length_eq : piece.token.length = Text.byteLength piece.text
  place_eq : piece.token.place = .behind (front ++ piece.gap)

end Piece

/-- The tokens of a handle tile its text: these pieces, then white space that has been
skipped already, then what has not been read. -/
structure Handle.Tiles (handle : Handle) (source : String) (pieces : List Piece)
    (gap : List Char) : Prop where
  tokens_eq : handle.tokens = pieces.map Piece.token
  source_eq : source.toList = Piece.cover pieces ++ gap ++ handle.lexer.rest
  place_eq : handle.lexer.place = .behind (Piece.cover pieces ++ gap)
  blank : ∀ c ∈ gap, Text.isBlank c = true
  stands : ∀ before piece after, pieces = before ++ piece :: after →
    piece.Stands (Piece.cover before)

variable {source : String} {lexer after : Lexer} {handle : Handle} {pieces : List Piece}
  {gap : List Char}

theorem Handle.tiles_start (source : String) :
    Handle.Tiles ⟨Lexer.start source, []⟩ source [] [] where
  tokens_eq := rfl
  source_eq := rfl
  place_eq := rfl
  blank := by simp
  stands := by
    intro before piece after h
    simp at h

namespace Handle.Tiles

/-- Nothing but the unread text and the place matters of a lexer. -/
theorem congr (h : handle.Tiles source pieces gap) (hrest : after.rest = handle.lexer.rest)
    (hplace : after.place = handle.lexer.place) :
    (handle.note none after).Tiles source pieces gap where
  tokens_eq := by simpa [note] using h.tokens_eq
  source_eq := by simpa [note, hrest] using h.source_eq
  place_eq := hplace.trans h.place_eq
  blank := h.blank
  stands := h.stands

/-- White space that is skipped is added to the gap. -/
theorem skipBlanks (h : handle.Tiles source pieces gap) :
    (handle.note none handle.lexer.skipBlanks).Tiles source pieces
      (gap ++ handle.lexer.rest.takeWhile Text.isBlank) where
  tokens_eq := by simpa [note] using h.tokens_eq
  source_eq := by
    have hsplit := Text.takeWhile_append_dropBlanks handle.lexer.rest
    calc source.toList
        = Piece.cover pieces ++ gap ++ (handle.lexer.rest.takeWhile Text.isBlank ++
            Text.dropBlanks handle.lexer.rest) := by rw [hsplit, h.source_eq]
      _ = Piece.cover pieces ++ (gap ++ handle.lexer.rest.takeWhile Text.isBlank) ++
            Text.dropBlanks handle.lexer.rest := by simp only [List.append_assoc]
  place_eq := by
    show handle.lexer.place.advance (handle.lexer.rest.takeWhile Text.isBlank) = _
    rw [h.place_eq, Text.Place.advance_behind, List.append_assoc]
  blank := by
    intro c hc
    rcases List.mem_append.mp hc with hc | hc
    · exact h.blank c hc
    · exact List.mem_takeWhile_imp hc
  stands := h.stands

/-- A token that is read closes the gap before it. -/
theorem read (h : handle.Tiles source pieces gap) (token : Token) {text rest : List Char}
    (hrest : handle.lexer.rest = text ++ rest) (htext : text ≠ []) :
    (handle.note (some ⟨token, handle.lexer.place, Text.byteLength text⟩)
      { handle.lexer with rest, place := handle.lexer.place.advance text }).Tiles source
      (pieces ++ [⟨gap, text, ⟨token, handle.lexer.place, Text.byteLength text⟩⟩]) [] where
  tokens_eq := by simp [note, h.tokens_eq]
  source_eq := by
    rw [h.source_eq, hrest, Piece.cover_concat]
    simp [note]
  place_eq := by
    show handle.lexer.place.advance text = _
    rw [h.place_eq, Text.Place.advance_behind, Piece.cover_concat, List.append_nil]
  blank := by simp
  stands := by
    intro before piece behind hsplit
    -- the piece is the new one or stood there before
    rcases List.eq_nil_or_concat behind with rfl | ⟨others, last, rfl⟩
    · obtain ⟨rfl, hpiece⟩ := List.append_inj' hsplit rfl
      cases hpiece
      exact ⟨h.blank, Text.byteLength_pos htext, rfl, h.place_eq⟩
    · rw [List.concat_eq_append, ← List.cons_append, ← List.append_assoc] at hsplit
      obtain ⟨hpieces, -⟩ := List.append_inj' hsplit rfl
      exact h.stands before piece others hpieces

/-- A call of `nextToken` skips white space and reads a token if there is one. -/
theorem ask_nextToken (h : handle.Tiles source pieces gap) :
    ∃ pieces gap, (handle.ask .nextToken).Tiles source pieces gap := by
  cases hnext : handle.lexer.nextToken with
  | mk result after =>
      have hask : handle.ask .nextToken =
          handle.note (result.toOption.bind id) after := by
        simp only [ask, hnext]
        cases result <;> rfl
      rw [hask]
      cases call_of_eq hnext with
      | atEnd hrest => exact ⟨pieces, _, h.skipBlanks⟩
      | fails hrest hread => exact ⟨pieces, _, h.skipBlanks⟩
      | @reads token text rest hread =>
          obtain ⟨hsplit, htext⟩ := readToken_splits hread
          have hread := h.skipBlanks.read token hsplit htext
          simp only [note, Option.toList_none, List.append_nil] at hread
          exact ⟨_, [], hread⟩

end Handle.Tiles

theorem Handle.ask_next_of_finished (h : handle.lexer.finished = true) :
    handle.ask .next = handle := by
  simp [ask, next, h, note]

/-- A stream that has not ended goes on as `nextToken` does. -/
theorem Handle.ask_next (h : handle.lexer.finished = false) :
    ∃ finished, handle.ask .next =
      ⟨{ (handle.ask .nextToken).lexer with finished }, (handle.ask .nextToken).tokens⟩ := by
  rcases hcall : handle.lexer.nextToken with ⟨error | found, after⟩
  · exact ⟨true, by simp [ask, next, h, hcall, note]⟩
  · cases found with
    | none => exact ⟨true, by simp [ask, next, h, hcall, note]⟩
    | some spanned => exact ⟨after.finished, by simp [ask, next, h, hcall, note]⟩

/-- Every request leaves the text tiled. -/
theorem Handle.Tiles.ask (h : handle.Tiles source pieces gap) (request : Request) :
    ∃ pieces gap, (handle.ask request).Tiles source pieces gap := by
  cases request with
  | next =>
      by_cases hfinished : handle.lexer.finished = true
      · rw [Handle.ask_next_of_finished hfinished]
        exact ⟨pieces, gap, h⟩
      · obtain ⟨finished, hnext⟩ := Handle.ask_next (Bool.eq_false_iff.mpr hfinished)
        obtain ⟨pieces, gap, htiles⟩ := h.ask_nextToken
        rw [hnext]
        -- whether the stream has ended tells nothing about the text
        exact ⟨pieces, gap, htiles.tokens_eq, htiles.source_eq, htiles.place_eq, htiles.blank,
          htiles.stands⟩
  | nextToken => exact h.ask_nextToken
  | validation validate => exact ⟨pieces, gap, h.congr rfl rfl⟩

end Lexer

namespace Session

open Lexer

variable {source : String} {handle : Handle}

theorem exists_tiles (commands : List Command) :
    ∀ handle ∈ run source commands, ∃ pieces gap, handle.Tiles source pieces gap := by
  refine forall_mem_run ⟨[], [], Handle.tiles_start source⟩ ?_ commands
  intro handle request htiles
  obtain ⟨pieces, gap, htiles⟩ := htiles
  exact htiles.ask request

/-- The white space that a lexer skips, and what it has read before, are the text in front
of what it reads next. -/
theorem exists_front (commands : List Command) (hmem : handle ∈ run source commands) :
    ∃ front, source.toList = front ++ Text.dropBlanks handle.lexer.rest ∧
      handle.lexer.skipBlanks.place = .behind front := by
  obtain ⟨pieces, gap, htiles⟩ := exists_tiles commands handle hmem
  exact ⟨_, htiles.skipBlanks.source_eq, htiles.skipBlanks.place_eq⟩

/-- The place behind a part of a text is at most its end, and between two characters. -/
theorem offset_behind {front back : List Char} (h : source.toList = front ++ back) :
    (Text.Place.behind front).offset ≤ source.utf8ByteSize ∧
      String.Pos.Raw.IsValid source ⟨(Text.Place.behind front).offset⟩ := by
  have hsize : source.utf8ByteSize = Text.byteLength front + Text.byteLength back := by
    rw [← Text.byteLength_toList, h, Text.byteLength_append]
  constructor
  · rw [hsize]
    exact Nat.le_add_right _ _
  · exact Text.isValid_iff.mpr ⟨front, back, h, rfl⟩

/-- A lexer that finds no token any more has come to the end of the text. -/
theorem offset_of_end {pieces : List Piece} {gap : List Char}
    (h : handle.Tiles source pieces gap) (hend : handle.lexer.nextToken.1 = .ok none) :
    handle.lexer.nextToken.2.place.offset = source.utf8ByteSize := by
  cases hnext : handle.lexer.nextToken with
  | mk result after =>
      rw [hnext] at hend
      have hskip := h.skipBlanks
      cases call_of_eq hnext with
      | fails hrest hread => cases hend
      | reads hread => cases hend
      | atEnd hrest =>
          have hsource := hskip.source_eq
          rw [show (handle.note none handle.lexer.skipBlanks).lexer.rest = [] from hrest,
            List.append_nil] at hsource
          show (handle.note none handle.lexer.skipBlanks).lexer.place.offset = _
          rw [hskip.place_eq, ← Text.byteLength_toList, hsource]
          rfl

/-- Take any lexer that has come from a text by requests and clones.  The tokens that it
has returned tile the text up to where it stands, with white space and nothing else
between them; where it stands is between two characters; and it finds no token any more
only at the end of the text. -/
theorem tiles (source : String) (commands : List Command) (handle : Handle)
    (h : handle ∈ run source commands) :
    (∃ pieces gap, handle.Tiles source pieces gap) ∧
      handle.lexer.place.offset ≤ source.utf8ByteSize ∧
      String.Pos.Raw.IsValid source ⟨handle.lexer.place.offset⟩ ∧
      (handle.lexer.nextToken.1 = .ok none →
        handle.lexer.nextToken.2.place.offset = source.utf8ByteSize) := by
  obtain ⟨pieces, gap, htiles⟩ := exists_tiles commands handle h
  have hplace := offset_behind htiles.source_eq
  rw [← htiles.place_eq] at hplace
  exact ⟨⟨pieces, gap, htiles⟩, hplace.1, hplace.2, offset_of_end htiles⟩

/-- A clone goes on with checks behind a token of two lines, and meets an error. -/
theorem tiles_clone_error : ∃ handle ∈ run "k == '\né' 99:99"
      [.ask 0 .next, .ask 0 .nextToken, .clone 0, .ask 1 .next, .ask 1 (.validation true),
        .ask 1 .next, .ask 1 .nextToken],
    handle.tokens.length = 3 ∧ handle.lexer.finished = true ∧
    (∃ pieces gap, handle.Tiles "k == '\né' 99:99" pieces gap) ∧
      String.Pos.Raw.IsValid "k == '\né' 99:99" ⟨handle.lexer.place.offset⟩ := by
  have hread : (run "k == '\né' 99:99"
      [.ask 0 .next, .ask 0 .nextToken, .clone 0, .ask 1 .next, .ask 1 (.validation true),
        .ask 1 .next, .ask 1 .nextToken]).any
      (fun handle => handle.tokens.length == 3 && handle.lexer.finished) = true := by
    decide +kernel
  obtain ⟨handle, hmem, hfound⟩ := List.any_eq_true.mp hread
  rw [Bool.and_eq_true, beq_iff_eq] at hfound
  have htiles := tiles _ _ handle hmem
  exact ⟨handle, hmem, hfound.1, hfound.2, htiles.1, htiles.2.2.1⟩

end Session

end RecordQuery

import RecordQuery.Proofs.Token.Session
import RecordQuery.Proofs.Token.Words

/-!
# Lexers that go no further

A lexer in front of a text that it cannot read does not move.  It has skipped the white
space before that text and nothing of the text itself, so it stands at the place of its
error, and until the setting is changed every request leads back to the same error
(`Lexer.Handle.Stuck`).

The stream ends there, or at the end of the text, and it ends for good: a stream that has
yielded its error or nothing yields nothing ever after, whatever else the lexer is asked
(`Lexer.Handle.finished_askAll`).  So the stream is some tokens and at most one error
behind them (`Lexer.nextResults_eq`).
-/

namespace RecordQuery

namespace Lexer

variable {lexer after : Lexer} {handle : Handle} {error : LexError} {request : Request}

/-! ## Requests one after the other -/

/-- A request leaves the setting as it is. -/
def Request.Keeps (validate : Bool) : Request → Prop
  | .validation setting => setting = validate
  | .next | .nextToken => True

/-- Makes some requests. -/
def Handle.askAll (handle : Handle) (requests : List Request) : Handle :=
  requests.foldl Handle.ask handle

/-- The same lexer, its stream ended or not. -/
def withFinished (finished : Bool) (lexer : Lexer) : Lexer :=
  { lexer with finished }

/-- Whether the stream has ended has no part in what is read. -/
theorem nextToken_withFinished (finished : Bool) (lexer : Lexer) :
    (lexer.withFinished finished).nextToken =
      (lexer.nextToken.1, lexer.nextToken.2.withFinished finished) := by
  by_cases hend : lexer.skipBlanks.rest = []
  · have hend' : (lexer.withFinished finished).skipBlanks.rest = [] := hend
    rw [nextToken_of_blank hend', nextToken_of_blank hend]
    rfl
  · cases hread : readToken lexer.validate lexer.skipBlanks.place lexer.skipBlanks.rest with
    | error error =>
        rw [nextToken_of_refused hend hread]
        exact nextToken_of_refused hend hread
    | ok read =>
        rw [nextToken_of_read hread]
        exact nextToken_of_read hread

/-! ## In front of an error -/

/-- Skipped white space stays skipped, and what could not be read cannot be read. -/
theorem nextToken_of_error (h : lexer.nextToken.1 = .error error) :
    lexer.nextToken = (.error error, lexer.skipBlanks) ∧
      lexer.skipBlanks.nextToken = (.error error, lexer.skipBlanks) := by
  have hnext : lexer.nextToken = (.error error, lexer.nextToken.2) := Prod.ext h rfl
  rw [eq_skipBlanks_of_error hnext] at hnext
  exact ⟨hnext, (nextToken_skipBlanks lexer).trans hnext⟩

/-- An error names the place behind the white space, and a text that stands there. -/
theorem place_and_text_of_error (h : lexer.nextToken.1 = .error error) :
    error.place = lexer.skipBlanks.place ∧ error.text ≠ "" ∧
      error.text.toList <+: Text.dropBlanks lexer.rest := by
  cases call_of_eq (nextToken_of_error h).1 with
  | fails hrest hread =>
      exact ⟨place_of_readToken_error hread, text_of_readToken_error hrest hread⟩

/-- A lexer stands in front of an error: it is there already, and asking for a token leads
to that error and nowhere else. -/
structure Handle.Stuck (handle : Handle) (error : LexError) : Prop where
  place_eq : handle.lexer.place = error.place
  nextToken_eq : handle.lexer.nextToken = (.error error, handle.lexer)

namespace Handle

/-- The same handle, the stream of its lexer ended or not. -/
def withFinished (finished : Bool) (handle : Handle) : Handle :=
  { handle with lexer := handle.lexer.withFinished finished }

theorem Stuck.withFinished (h : handle.Stuck error) (finished : Bool) :
    (handle.withFinished finished).Stuck error where
  place_eq := h.place_eq
  nextToken_eq := by
    show (handle.lexer.withFinished finished).nextToken = _
    rw [nextToken_withFinished, h.nextToken_eq]
    rfl

/-- A lexer that meets an error is stuck in front of it. -/
theorem stuck_of_error (h : handle.lexer.nextToken.1 = .error error) :
    handle.ask .nextToken = ⟨handle.lexer.skipBlanks, handle.tokens⟩ ∧
      (handle.ask .nextToken).Stuck error := by
  obtain ⟨hnext, hagain⟩ := nextToken_of_error h
  have hask : handle.ask .nextToken = ⟨handle.lexer.skipBlanks, handle.tokens⟩ := by
    simp [ask, hnext, note]
  rw [hask]
  exact ⟨rfl, (place_and_text_of_error h).1.symm, hagain⟩

/-- While the setting stays, a request changes nothing but whether the stream has ended, and
only a request for the next item of the stream changes that. -/
theorem Stuck.ask_eq (h : handle.Stuck error) (hkeeps : request.Keeps handle.lexer.validate) :
    ∃ finished, handle.ask request = handle.withFinished finished ∧
      (request ≠ .next → finished = handle.lexer.finished) := by
  have hsame : handle.withFinished handle.lexer.finished = handle := rfl
  cases request with
  | nextToken =>
      refine ⟨handle.lexer.finished, ?_, fun _ => rfl⟩
      simp [ask, h.nextToken_eq, note, hsame]
  | validation setting =>
      obtain rfl : setting = handle.lexer.validate := hkeeps
      refine ⟨handle.lexer.finished, ?_, fun _ => rfl⟩
      simp [ask, note, withValidation, hsame]
  | next =>
      refine ⟨true, ?_, fun hnext => absurd rfl hnext⟩
      by_cases hfinished : handle.lexer.finished = true
      · rw [ask_next_of_finished hfinished, ← hfinished, hsame]
      · simp only [ask, next, hfinished, h.nextToken_eq, note, Bool.false_eq_true, if_false,
          Option.toList_none, List.append_nil]
        rfl

/-- Any number of requests, too, leaves a lexer in front of its error. -/
theorem Stuck.askAll_eq (h : handle.Stuck error) {requests : List Request}
    (hkeeps : ∀ request ∈ requests, request.Keeps handle.lexer.validate) :
    ∃ finished, handle.askAll requests = handle.withFinished finished ∧
      (.next ∉ requests → finished = handle.lexer.finished) := by
  induction requests generalizing handle with
  | nil => exact ⟨handle.lexer.finished, rfl, fun _ => rfl⟩
  | cons request requests ih =>
      rw [List.forall_mem_cons] at hkeeps
      obtain ⟨middle, hask, hmiddle⟩ := h.ask_eq hkeeps.1
      obtain ⟨finished, hall, hfinished⟩ := ih (h.withFinished middle) hkeeps.2
      refine ⟨finished, ?_, fun hnext => ?_⟩
      · rw [askAll, List.foldl_cons, hask]
        exact hall
      · rw [List.mem_cons, not_or] at hnext
        rw [hfinished hnext.2]
        exact hmiddle (Ne.symm hnext.1)

/-! ## Behind the end of a stream -/

/-- A stream that yields no token has ended. -/
theorem finished_ask_next (h : ∀ spanned, handle.lexer.next.1 ≠ some (.ok spanned)) :
    (handle.ask .next).lexer.finished = true := by
  by_cases hfinished : handle.lexer.finished = true
  · rw [ask_next_of_finished hfinished, hfinished]
  · rcases hnext : handle.lexer.nextToken with ⟨error | _ | spanned, after⟩
    · simp [ask, next, hfinished, hnext, note]
    · simp [ask, next, hfinished, hnext, note]
    · exact absurd (by simp [next, hfinished, hnext]) (h spanned)

/-- No request starts a stream anew. -/
theorem finished_ask (h : handle.lexer.finished = true) (request : Request) :
    (handle.ask request).lexer.finished = true := by
  cases request with
  | next => rw [ask_next_of_finished h, h]
  | validation validate => exact h
  | nextToken =>
      rcases hnext : handle.lexer.nextToken with ⟨error | found, after⟩
      · simp [ask, hnext, note, (kept_nextToken hnext).2.2, h]
      · simp [ask, hnext, note, (kept_nextToken hnext).2.2, h]

theorem finished_askAll (h : handle.lexer.finished = true) (requests : List Request) :
    (handle.askAll requests).lexer.finished = true := by
  induction requests generalizing handle with
  | nil => exact h
  | cons request requests ih => exact ih (finished_ask h request)

end Handle

theorem next_of_finished (h : lexer.finished = true) : lexer.next = (none, lexer) := by
  rw [next, if_pos h]

theorem items_of_finished (h : lexer.finished = true) : lexer.items = [] := by
  rw [items]
  split
  · rfl
  · next item last heq =>
      rw [next_of_finished h] at heq
      cases heq

/-! ## The stream, call by call -/

/-- What a number of calls of `next` return, one after the other. -/
def nextResults (lexer : Lexer) : Nat → List (Option (Except LexError Spanned))
  | 0 => []
  | calls + 1 => lexer.next.1 :: lexer.next.2.nextResults calls

theorem nextResults_of_finished (h : lexer.finished = true) (calls : Nat) :
    lexer.nextResults calls = List.replicate calls none := by
  induction calls with
  | zero => rfl
  | succ calls ih => rw [nextResults, next_of_finished h, ih, List.replicate_succ]

/-- The calls return the items of the stream, and nothing behind them. -/
theorem nextResults_eq (lexer : Lexer) (calls : Nat) :
    lexer.nextResults calls = (lexer.items.map some ++ List.replicate calls none).take calls := by
  induction calls generalizing lexer with
  | zero => rfl
  | succ calls ih =>
      by_cases hfinished : lexer.finished = true
      · rw [nextResults_of_finished hfinished, items_of_finished hfinished]
        simp
      · have hgoing : lexer.finished = false := Bool.eq_false_iff.mpr hfinished
        rcases hnext : lexer.nextToken with ⟨error | _ | spanned, after⟩
        · have hlast : lexer.next = (some (.error error), after.withFinished true) := by
            simp [next, hgoing, hnext, withFinished]
          rw [nextResults, hlast, nextResults_of_finished rfl, items_of_error hgoing hnext]
          simp [List.take_replicate]
        · have hlast : lexer.next = (none, after.withFinished true) := by
            simp [next, hgoing, hnext, withFinished]
          rw [nextResults, hlast, nextResults_of_finished rfl, items_of_end hnext]
          simp [List.replicate_succ]
        · have hfirst : lexer.next = (some (.ok spanned), after) := by
            simp [next, hgoing, hnext]
          rw [nextResults, hfirst, ih, items_of_token hgoing hnext]
          simp only [List.map_cons, List.cons_append, List.take_succ_cons, List.take_append,
            List.take_replicate]
          congr 3
          omega

end Lexer

namespace Session

open Lexer

/-- Take any lexer that has come from a text by requests and clones.

* If it finds an error, white space was all that it has skipped, and it stands at the place of
  the error, in front of the text that the error names.  While the setting stays, requests
  change nothing but whether the stream has ended, and only those for the next item of the
  stream change that; the next token is always the same error.
* If its stream yields an error or nothing, then the stream yields nothing any more, whatever
  is asked in between and whatever the setting is.
* Its stream alone yields some tokens, then at most one error, and then nothing. -/
theorem ends_once (source : String) (commands : List Command) (handle : Handle)
    (hmem : handle ∈ run source commands) :
    (∀ error, handle.lexer.nextToken.1 = .error error →
      (∃ front gap rest, source.toList = front ++ gap ++ rest ∧
        handle.lexer.place = .behind front ∧ (∀ c ∈ gap, Text.isBlank c = true) ∧
        error.place = .behind (front ++ gap) ∧ error.text ≠ "" ∧ error.text.toList <+: rest ∧
        handle.ask .nextToken = ⟨{ handle.lexer with rest, place := error.place }, handle.tokens⟩) ∧
      ∀ requests, (∀ request ∈ requests, request.Keeps handle.lexer.validate) →
        ∃ finished, (handle.ask .nextToken).askAll requests =
            (handle.ask .nextToken).withFinished finished ∧
          (.next ∉ requests → finished = handle.lexer.finished) ∧
          ((handle.ask .nextToken).withFinished finished).lexer.nextToken =
            (.error error, ((handle.ask .nextToken).withFinished finished).lexer)) ∧
    ((∀ spanned, handle.lexer.next.1 ≠ some (.ok spanned)) → ∀ requests,
      ((handle.ask .next).askAll requests).lexer.next =
        (none, ((handle.ask .next).askAll requests).lexer)) ∧
    ∃ (tokens : List Spanned) (ending : Option LexError), ∀ calls,
      handle.lexer.nextResults calls =
        ((tokens.map Except.ok ++ ending.toList.map Except.error).map some ++
          List.replicate calls none).take calls := by
  refine ⟨fun error herror => ?_, fun hends requests => ?_, ?_⟩
  · obtain ⟨pieces, skipped, htiles⟩ := exists_tiles commands handle hmem
    obtain ⟨hplace, htext⟩ := place_and_text_of_error herror
    obtain ⟨hask, hstuck⟩ := Handle.stuck_of_error herror
    have hskip := htiles.skipBlanks
    constructor
    · refine ⟨Lexer.Piece.cover pieces ++ skipped, handle.lexer.rest.takeWhile Text.isBlank,
        Text.dropBlanks handle.lexer.rest, ?_, htiles.place_eq,
        fun c hc => List.mem_takeWhile_imp hc, ?_, htext.1, htext.2, ?_⟩
      · rw [List.append_assoc _ skipped]
        exact hskip.source_eq
      · rw [hplace, List.append_assoc]
        exact hskip.place_eq
      · rw [hask, hplace]
        rfl
    · intro requests hkeeps
      rw [hask] at hstuck ⊢
      obtain ⟨finished, hall, hsame⟩ := hstuck.askAll_eq hkeeps
      exact ⟨finished, hall, hsame, (hstuck.withFinished finished).nextToken_eq⟩
  · exact next_of_finished (Handle.finished_askAll (Handle.finished_ask_next hends) requests)
  · by_cases hfinished : handle.lexer.finished = true
    · refine ⟨[], none, fun calls => ?_⟩
      rw [nextResults_eq, items_of_finished hfinished]
      rfl
    · obtain ⟨tokens, ending, hitems⟩ := exists_items_eq (Bool.eq_false_iff.mpr hfinished)
      exact ⟨tokens, ending, fun calls => by rw [nextResults_eq, hitems]⟩

/-- A clone that checks times stops in front of one that there is not.  Once its stream has
ended it may give up the checks and read that token, but the stream does not go on. -/
theorem ends_once_clone : ∃ handle ∈ run "at >=\n 24:00 @" [.ask 0 .next, .clone 0,
      .ask 1 (.validation true), .ask 1 .nextToken],
    ∃ error, handle.lexer.nextToken.1 = .error error ∧
      (∃ finished, (handle.ask .nextToken).askAll [.next, .nextToken] =
        (handle.ask .nextToken).withFinished finished) ∧
      ((handle.ask .next).askAll [.validation false, .nextToken]).tokens.length = 3 ∧
      ((handle.ask .next).askAll [.validation false, .nextToken]).lexer.next.1 = none := by
  have hread : (run "at >=\n 24:00 @" [.ask 0 .next, .clone 0, .ask 1 (.validation true),
      .ask 1 .nextToken]).any (fun handle => !handle.lexer.nextToken.1.isOk &&
        !handle.lexer.next.1.any Except.isOk &&
        ((handle.ask .next).askAll [.validation false, .nextToken]).tokens.length == 3) = true := by
    decide +kernel
  obtain ⟨handle, hmem, hfound⟩ := List.any_eq_true.mp hread
  simp only [Bool.and_eq_true, beq_iff_eq, Bool.not_eq_true'] at hfound
  obtain ⟨⟨herror, hnext⟩, hlength⟩ := hfound
  obtain ⟨hstays, hended, -⟩ := ends_once _ _ handle hmem
  have hends : ∀ spanned, handle.lexer.next.1 ≠ some (.ok spanned) := by
    intro spanned heq
    rw [heq] at hnext
    cases hnext
  cases hresult : handle.lexer.nextToken.1 with
  | ok found =>
      rw [hresult] at herror
      cases herror
  | error error =>
      obtain ⟨-, hall⟩ := hstays error hresult
      obtain ⟨finished, hsame, -⟩ := hall [.next, .nextToken] (by simp [Request.Keeps])
      refine ⟨handle, hmem, error, hresult, ⟨finished, hsame⟩, hlength, ?_⟩
      rw [hended hends]

end Session

end RecordQuery

import RecordQuery.Proofs.Query.Calls

/-!
# The trace of a reading

A reading leaves one event for each token that was read, and at the end one for what the
text came to (`Query.Traces`).  The tokens are the first ones of the text, in order and
each of them once.  How many they are depends on the result only (`Query.KnownAfter`): a
query has been read up to the end of its text, and an unexpected token is told before
anything behind it is read.

That the log holds nothing else follows from how the readers are put together
(`Reader.Silent.logged`): the parts of a query log the tokens that are read, and only where
the whole of it has been read is this logged too.  Which tokens they are follows from where
the reader leaves the cursor.  What it has read by then is what it has passed and what is
in view (`Cursor.Waits.seen_eq`).
-/

namespace RecordQuery

variable {origin : Lexer} {passed tokens : List Spanned} {ending : Option LexError}
  {cursor : Cursor} {result : Except Error Query}

/-- The event that a trace ends with. -/
def Event.ofResult : Except Error Query → Event
  | .ok q => .parsed q.filter.isSome q.actions.length
  | .error error => .rejected error

namespace Query

/-- After how many of the tokens of a text its result is known.  The tokens come with the
error that the text ends in, if it ends in one. -/
inductive KnownAfter (tokens : List Spanned) :
    Option LexError → Except Error Query → Nat → Prop where
  | ok (q : Query) : KnownAfter tokens none (.ok q) tokens.length
  /-- The unexpected token is the last one that was read. -/
  | unexpectedToken {ending : Option LexError} {count : Nat} {spanned : Spanned}
      (hspanned : tokens[count]? = some spanned) (expected : Expectation) :
      KnownAfter tokens ending (.error (.syntactic
        (.unexpectedToken spanned.place spanned.token.describe expected))) (count + 1)
  | unexpectedEnd (place : Text.Place) (expected : Expectation) :
      KnownAfter tokens none (.error (.syntactic (.unexpectedEnd place expected))) tokens.length
  | lexical (error : LexError) :
      KnownAfter tokens (some error) (.error (.lexical error)) tokens.length

/-- What a text comes to, with the events that reading it leaves. -/
inductive Traces (text : String) (validate : Bool) : Except Error Query → List Event → Prop where
  | empty (htext : text = "") : Traces text validate (.ok .empty) []
  | read {tokens : List Spanned} {ending : Option LexError} {result : Except Error Query}
      {count : Nat} (htext : text ≠ "")
      (hitems : ((Lexer.start text).withValidation validate).items =
        tokens.map .ok ++ ending.toList.map .error)
      (hknown : KnownAfter tokens ending result count) :
      Traces text validate result ((tokens.take count).map .token ++ [.ofResult result])

/-- The log of a call that read the given tokens, the latest first.  A call that fails has
logged them and nothing else. -/
inductive Logs (seen : List Spanned) : Except Error Query → List Event → Prop where
  | ok (q : Query) :
      Logs seen (.ok q) (.parsed q.filter.isSome q.actions.length :: seen.map .token)
  | error (error : Error) : Logs seen (.error error) (seen.map .token)

end Query

/-! ## What readers log -/

namespace Reader

variable {α β : Type} {reader : Reader α}

/-- Some tokens have been logged, and what the reader tells of its result if it has one. -/
def Logged (told : α → List Event) (before : List Event) : EStateM.Result Error Cursor α → Prop
  | .ok result after =>
    ∃ tokens : List Spanned, after.log = told result ++ (tokens.map .token ++ before)
  | .error _ after => ∃ tokens : List Spanned, after.log = tokens.map .token ++ before

theorem Logged.behind {told : α → List Event} {before : List Event} {tokens : List Spanned}
    {result : EStateM.Result Error Cursor α}
    (h : Logged told (tokens.map .token ++ before) result) : Logged told before result := by
  cases result with
  | ok result after =>
      obtain ⟨more, hlog⟩ := h
      exact ⟨more ++ tokens, by rw [hlog, List.map_append, List.append_assoc]⟩
  | error error after =>
      obtain ⟨more, hlog⟩ := h
      exact ⟨more ++ tokens, by rw [hlog, List.map_append, List.append_assoc]⟩

/-- Behind a reader that logs tokens only, the log goes on as it does without that reader. -/
theorem Logged.bind {next : α → Reader β} {told : β → List Event}
    (h : Logged (fun _ => []) cursor.log (reader cursor))
    (hnext : ∀ result after, Logged told after.log (next result after)) :
    Logged told cursor.log ((reader >>= next) cursor) := by
  rcases bind_cases reader next cursor with
    ⟨error, after, hread, hbind⟩ | ⟨result, after, hread, hbind⟩
  · rw [hread] at h
    rw [hbind]
    exact h
  · rw [hread] at h
    obtain ⟨tokens, hlog⟩ := h
    have hlast := hnext result after
    rw [hlog, List.nil_append] at hlast
    rw [hbind]
    exact hlast.behind

/-- A silent reader logs the tokens that it reads, and nothing else. -/
theorem Silent.logged (h : Silent reader) (cursor : Cursor) :
    Logged (fun _ => []) cursor.log (reader cursor) := by
  induction h generalizing cursor with
  | look view => exact ⟨[], rfl⟩
  | fail expected => exact ⟨[], rfl⟩
  | advance =>
      unfold Reader.advance
      rcases cursor.lexer.nextToken with ⟨error | current, lexer⟩
      · exact ⟨[], rfl⟩
      · exact ⟨current.toList, rfl⟩
  | bind h hnext ih ihnext => exact .bind (ih cursor) ihnext

/-- A query is logged when it is complete, behind its tokens. -/
theorem logged_query (cursor : Cursor) :
    Logged (fun q : Query => [.parsed q.filter.isSome q.actions.length]) cursor.log
      (query cursor) := by
  refine .bind (Silent.filters?.logged cursor) fun filter middle =>
    .bind (Silent.actions.logged middle) fun actions last =>
      .bind (Silent.peek.logged last) fun look after => ?_
  cases look with
  | none => exact ⟨[], rfl⟩
  | some token => exact ⟨[], rfl⟩

end Reader

/-! ## What has been read where a cursor waits -/

namespace Cursor

/-- The tokens that have been read are the first ones of the text. -/
theorem Waits.reverse_seen_eq (h : cursor.Waits origin passed) (hgoing : origin.finished = false)
    (hitems : origin.items = tokens.map .ok ++ ending.toList.map .error) :
    cursor.seen.reverse = tokens.take (passed.length + cursor.current.toList.length) := by
  obtain ⟨more, htokens, hcurrent⟩ := h.exists_tokens_eq hgoing hitems
  rw [h.seen_eq, hcurrent, htokens, List.take_length_add_append]
  cases more with
  | nil => simp
  | cons spanned more => simp

/-- Where no token is in view, all of them have been passed and the text has ended. -/
theorem Waits.eq_of_none (h : cursor.Waits origin passed) (hgoing : origin.finished = false)
    (hitems : origin.items = tokens.map .ok ++ ending.toList.map .error)
    (hcurrent : cursor.current = none) : tokens = passed ∧ ending = none := by
  cases h with
  | halts h =>
      cases h with
      | behind hreads hnext => cases hcurrent
  | follows h =>
      obtain ⟨last, hreads, hlast, -⟩ := h.stands.reads_of_none hcurrent
      rw [Lexer.items_of_reads hreads hgoing, hlast] at hitems
      obtain ⟨more, htokens, hmore⟩ := Lexer.exists_tokens_eq hitems
      obtain ⟨hmore, hending⟩ := List.append_eq_nil_iff.mp hmore.symm
      rw [List.map_eq_nil_iff] at hmore hending
      exact ⟨by rw [htokens, hmore, List.append_nil], Option.toList_eq_nil_iff.mp hending⟩

/-- A call ends as soon as its result is known. -/
theorem Leaves.knownAfter (h : cursor.Leaves origin passed result)
    (hgoing : origin.finished = false)
    (hitems : origin.items = tokens.map .ok ++ ending.toList.map .error) :
    Query.KnownAfter tokens ending result (passed.length + cursor.current.toList.length) := by
  have hwaits := h.waits
  cases h with
  | ok h hcurrent =>
      obtain ⟨rfl, rfl⟩ := hwaits.eq_of_none hgoing hitems hcurrent
      rw [hcurrent]
      exact .ok _
  | error h =>
      cases h with
      | unexpected h expected =>
          cases hcurrent : cursor.current with
          | some spanned =>
              rw [h.current_eq hgoing hitems] at hcurrent
              rw [Cursor.unexpected, h.current_eq hgoing hitems, hcurrent]
              exact .unexpectedToken hcurrent expected
          | none =>
              obtain ⟨rfl, rfl⟩ := h.eq_of_none hgoing hitems hcurrent
              rw [Cursor.unexpected, hcurrent]
              exact .unexpectedEnd _ expected
      | lexical h =>
          obtain ⟨rfl, hlength⟩ := h.ending_eq hgoing hitems
          cases h with
          | behind hreads hnext =>
              show Query.KnownAfter tokens _ _ (passed.length + 1)
              rw [hlength]
              exact .lexical _

/-- In front of a text, only the token in view has been logged. -/
theorem log_of_start (h : Cursor.start origin = .ok cursor) :
    cursor.log = cursor.current.toList.map .token := by
  unfold Cursor.start at h
  split at h
  · cases h
    rfl
  · cases h

/-- A call that starts with nothing but tokens in the log adds the tokens that it reads, and
the query if it comes to one. -/
theorem logs_call {before : List Spanned} (h : cursor.log = before.map .token) :
    Query.Logs cursor.call.2.seen cursor.call.1 cursor.call.2.log := by
  have hlogged := Reader.logged_query cursor
  rw [h, ← List.append_nil (before.map Event.token)] at hlogged
  have hall := hlogged.behind
  rw [call]
  cases hread : Reader.query cursor with
  | ok q after =>
      rw [hread] at hall
      obtain ⟨tokens, hlog⟩ := hall
      rw [List.append_nil, List.singleton_append] at hlog
      have hseen : after.seen = tokens := by
        rw [seen, hlog, List.filterMap_cons_none rfl, Event.filterMap_token?]
      simp only [hseen, hlog]
      exact .ok q
  | error error after =>
      rw [hread] at hall
      obtain ⟨tokens, hlog⟩ := hall
      rw [List.append_nil] at hlog
      have hseen : after.seen = tokens := by rw [seen, hlog, Event.filterMap_token?]
      simp only [hseen, hlog]
      exact .error error

end Cursor

/-! ## Readings -/

namespace Query

/-- A reading is the first call of a cursor. -/
theorem ofLexer_eq_call (hstart : Cursor.start origin = .ok cursor) :
    ofLexer origin = (cursor.call.1, cursor.call.2.log) := by
  simp only [ofLexer, hstart, Cursor.call]
  cases Reader.query cursor <;> rfl

/-- A reading of some tokens ends as soon as its result is known, and logs the tokens that
were read by then. -/
theorem exists_knownAfter (hgoing : origin.finished = false)
    (hitems : origin.items = tokens.map .ok ++ ending.toList.map .error) :
    ∃ count, Logs (tokens.take count).reverse (ofLexer origin).1 (ofLexer origin).2 ∧
      KnownAfter tokens ending (ofLexer origin).1 count := by
  cases hstart : Cursor.start origin with
  | error error =>
      obtain ⟨lexError, after, rfl, hnext⟩ := Cursor.nextToken_of_start hstart
      rw [Lexer.items_of_error hgoing hnext] at hitems
      cases tokens with
      | cons spanned tokens => cases hitems
      | nil =>
          cases ending with
          | none => cases hitems
          | some error =>
              cases hitems
              rw [ofLexer, hstart]
              exact ⟨0, .error _, .lexical lexError⟩
  | ok cursor =>
      obtain ⟨passed, hleaves⟩ :=
        (Cursor.Waits.follows (Cursor.follows_of_start hstart)).leaves_call hgoing
      rw [ofLexer_eq_call hstart]
      refine ⟨_, ?_, hleaves.knownAfter hgoing hitems⟩
      rw [← hleaves.waits.reverse_seen_eq hgoing hitems, List.reverse_reverse]
      exact Cursor.logs_call (Cursor.log_of_start hstart)

/-- Reading a text leaves exactly these events.

* An empty text leaves none.
* Any other text leaves one for each of its tokens, in order, up to the one with which the
  result is known, and then a single one for the result: the parts of the query, or the
  error. -/
theorem parseTraced_traces (options : Options) (input : String) :
    Traces (options.textOf input) options.validate (parseTraced options input).1
      (parseTraced options input).2 := by
  unfold parseTraced
  simp only
  split
  · next hempty => exact .empty (String.isEmpty_iff.mp hempty)
  · next hne =>
      have hgoing : ((Lexer.start (options.textOf input)).withValidation
        options.validate).finished = false := rfl
      obtain ⟨tokens, ending, hitems⟩ := Lexer.exists_items_eq hgoing
      have htext : options.textOf input ≠ "" := fun h => hne (String.isEmpty_iff.mpr h)
      obtain ⟨count, hlogs, hknown⟩ := exists_knownAfter hgoing hitems
      generalize ofLexer _ = reading at hlogs hknown
      obtain ⟨result, log⟩ := reading
      have hread := Traces.read htext hitems hknown
      cases hlogs with
      | ok q => simpa [Event.ofResult] using hread
      | error error => simpa [Event.ofResult] using hread

end Query

end RecordQuery

import Mathlib.Order.Monotone.Basic
import RecordQuery.Proofs.Query.Trail

/-!
# One cursor, call after call

A cursor can be used again after a query was read or refused.  The calls share the tokens
of the text: each call starts where the one before has left the cursor, and its result is
that of a new reading which starts there.  No token is passed twice and none is left out.

Two things that can happen settle all later calls.  Behind the end of the text each call
reads the empty query.  In front of the last token, when what follows it cannot be read,
each call fails without moving on.
-/

namespace RecordQuery

variable {origin : Lexer} {tokens : List Spanned} {ending : Option LexError}
  {cursor : Cursor} {result : Except Error Query} {error : LexError} {spanned : Spanned}

/-! ## What a query starts with -/

namespace Reader

/-- At the end of the text there is the empty query, and this is logged. -/
theorem query_of_none (h : cursor.current = none) :
    query cursor = .ok .empty { cursor with log := .parsed false 0 :: cursor.log } := by
  obtain ⟨lexer, current, log⟩ := cursor
  cases h
  rfl

/-- A token that no query starts with is refused. -/
theorem query_of_refused (hcurrent : cursor.current = some spanned)
    (h : Progress.start.step spanned.token = none) :
    query cursor = .error (cursor.unexpected .queryStart) cursor := by
  obtain ⟨lexer, current, log⟩ := cursor
  obtain ⟨token, place, length⟩ := spanned
  cases hcurrent
  cases token with
  | key name => cases h
  | mark mark => cases mark <;> first | rfl | cases h
  | _ => rfl

/-- The first token that a query starts with is passed before anything else is decided. -/
theorem query_of_advance {after : Cursor} {error : Error}
    (hcurrent : cursor.current = some spanned) (h : Progress.start.step spanned.token ≠ none)
    (hadvance : advance cursor = .error error after) : query cursor = .error error after := by
  obtain ⟨lexer, current, log⟩ := cursor
  obtain ⟨token, place, length⟩ := spanned
  cases hcurrent
  cases token with
  | key name =>
      simp [query, filters?, chainOf, filterOrGroup, filter, accept, accept?, peek, Cursor.token?,
        keyOf?, startsFilters, bind, EStateM.bind, Functor.map, EStateM.map, hadvance]
  | mark mark =>
      cases mark with
      | openParen =>
          simp [query, filters?, chainOf, filterOrGroup, peek, Cursor.token?,
            startsFilters, bind, EStateM.bind, Functor.map, EStateM.map, hadvance]
      | pipe =>
          simp [query, filters?, actions, accept?, peek, Cursor.token?, isMark?,
            startsFilters, bind, EStateM.bind, pure, EStateM.pure, hadvance]
      | _ => exact absurd rfl h
  | _ => exact absurd rfl h

end Reader

/-! ## Calls -/

namespace Cursor

/-- A call: the result, and where it leaves the cursor. -/
def call (cursor : Cursor) : Except Error Query × Cursor :=
  match Reader.query cursor with
  | .ok query after => (.ok query, after)
  | .error error after => (.error error, after)

/-- Where a number of calls leave the cursor. -/
def afterCalls (cursor : Cursor) : Nat → Cursor
  | 0 => cursor
  | calls + 1 => (cursor.afterCalls calls).call.2

/-- The result of the call that follows a number of calls. -/
def answer (cursor : Cursor) (calls : Nat) : Except Error Query :=
  (cursor.afterCalls calls).call.1

/-- The tokens that have been passed, in the order of the text. -/
def passed (cursor : Cursor) : List Spanned :=
  (cursor.seen.drop cursor.current.toList.length).reverse

theorem call_fst (cursor : Cursor) : cursor.call.1 = Reader.resultOf (Reader.query cursor) := by
  unfold call
  cases Reader.query cursor with
  | ok query after => rfl
  | error error after => rfl

/-- A call that does not move the cursor is repeated by all later ones. -/
theorem afterCalls_of_fixed {calls later : Nat}
    (h : (cursor.afterCalls calls).call.2 = cursor.afterCalls calls) (hle : calls ≤ later) :
    cursor.afterCalls later = cursor.afterCalls calls := by
  induction hle with
  | refl => rfl
  | step hle ih => rw [afterCalls, ih, h]

theorem call_of_none (h : cursor.current = none) :
    cursor.call = (.ok .empty, { cursor with log := .parsed false 0 :: cursor.log }) := by
  rw [call, Reader.query_of_none h]

/-- Where the text has ended, it has ended for all later calls. -/
theorem current_afterCalls_of_none {calls later : Nat}
    (h : (cursor.afterCalls calls).current = none) (hle : calls ≤ later) :
    (cursor.afterCalls later).current = none := by
  induction hle with
  | refl => exact h
  | step hle ih =>
      rw [afterCalls, call_of_none ih]
      exact ih

section

variable {passed : List Spanned}

/-- Reading from where the cursor stands leaves all that it has passed aside. -/
theorem Stands.exists_rest (h : cursor.Stands origin passed) :
    ∃ rest, origin.Reads passed rest ∧ cursor.Stands rest [] := by
  cases h with
  | inFront hreads =>
      obtain ⟨rest, hpassed, hlast⟩ := hreads.exists_middle
      exact ⟨rest, hpassed, .inFront hlast⟩
  | @atEnd last lexer log hreads hnext => exact ⟨last, hreads, .atEnd (.nil last) hnext⟩

/-- Where what follows the last token cannot be read, each call fails and leaves the cursor
where it is. -/
theorem Halts.call_eq (h : cursor.Halts origin passed error) (hgoing : origin.finished = false) :
    ∃ rest error', origin.Reads passed rest ∧ (Query.ofLexer rest).1 = .error error' ∧
      cursor.call = (.error error', cursor) ∧ cursor.Fails origin passed error' := by
  have hhalts := h
  cases h with
  | @behind last spanned log hreads hnext hseen =>
      obtain ⟨rest, hpassed, hlast⟩ := hreads.exists_middle
      have hfirst : rest.finished = false := hpassed.kept.2.2.trans hgoing
      have hitems : rest.items = [.ok spanned, .error error] := by
        rw [Lexer.items_of_reads hlast hfirst,
          Lexer.items_of_error (hlast.kept.2.2.trans hfirst) (Prod.ext hnext rfl)]
        rfl
      have hfresh := Query.ofLexer_eq_conclude hfirst
      rw [hitems, Progress.conclude] at hfresh
      cases hstep : Progress.start.step spanned.token with
      | none =>
          rw [hstep] at hfresh
          refine ⟨rest, _, hpassed, hfresh, ?_, .unexpected (.halts hhalts) .queryStart⟩
          rw [call, Reader.query_of_refused rfl hstep]
          rfl
      | some next =>
          rw [hstep] at hfresh
          refine ⟨rest, _, hpassed, hfresh, ?_, .lexical hhalts⟩
          have hstarts : Progress.start.step spanned.token ≠ none := by
            rw [hstep]
            exact Option.some_ne_none next
          rw [call, Reader.query_of_advance rfl hstarts hhalts.advance_eq]

/-! ## Where a cursor is between two calls -/

/-- What a call leaves behind with its result. -/
inductive Leaves (origin : Lexer) (passed : List Spanned) : Except Error Query → Cursor → Prop where
  | ok {cursor : Cursor} {query : Query} (h : cursor.Follows origin passed)
      (hcurrent : cursor.current = none) : Leaves origin passed (.ok query) cursor
  | error {cursor : Cursor} {error : Error} (h : cursor.Fails origin passed error) :
      Leaves origin passed (.error error) cursor

theorem Leaves.waits (h : cursor.Leaves origin passed result) : cursor.Waits origin passed := by
  cases h with
  | ok h hcurrent => exact .follows h
  | error h =>
      cases h with
      | unexpected h expected => exact h
      | lexical h => exact .halts h

/-- A cursor has seen what it has passed and what is in view. -/
theorem Waits.seen_eq (h : cursor.Waits origin passed) :
    cursor.seen = cursor.current.toList ++ passed.reverse := by
  cases h with
  | follows h => exact h.seen_eq
  | halts h =>
      cases h with
      | behind hreads hnext hseen => exact hseen

theorem Waits.passed_eq (h : cursor.Waits origin passed) : cursor.passed = passed := by
  rw [Cursor.passed, h.seen_eq, List.drop_left, List.reverse_reverse]

/-- A call has the result of a new reading that starts where the cursor is. -/
theorem Waits.exists_result (h : cursor.Waits origin passed) (hgoing : origin.finished = false) :
    ∃ rest, origin.Reads passed rest ∧ cursor.call.1 = (Query.ofLexer rest).1 := by
  cases h with
  | follows h =>
      obtain ⟨rest, hpassed, hstands⟩ := h.stands.exists_rest
      have hfirst : rest.finished = false := hpassed.kept.2.2.trans hgoing
      refine ⟨rest, hpassed, ?_⟩
      rw [call_fst, Reader.resultOf_query hstands hfirst, Query.ofLexer_eq_conclude hfirst]
  | halts h =>
      obtain ⟨rest, error', hpassed, hfresh, hcall, -⟩ := h.call_eq hgoing
      exact ⟨rest, hpassed, by rw [hcall, hfresh]⟩

/-- A query that was read takes all of the text. -/
theorem Stands.current_of_query {after : Cursor} {q : Query} (h : cursor.Stands origin [])
    (hread : Reader.query cursor = .ok q after) : after.current = none := by
  have hquery := Reader.triple_query [] _ _ ⟨h, rfl⟩ ⟨rfl, trivial⟩
  rw [hread] at hquery
  obtain ⟨tokens, progress, -, hlook, -⟩ := hquery
  exact Option.map_eq_none_iff.mp hlook

/-- A call leaves the cursor in the text, no further back than it was. -/
theorem Waits.leaves_call (h : cursor.Waits origin passed) (hgoing : origin.finished = false) :
    ∃ more, cursor.call.2.Leaves origin (passed ++ more) cursor.call.1 := by
  cases h with
  | follows h =>
      have hkept := Reader.steady_query origin passed cursor h
      obtain ⟨rest, -, hstands⟩ := h.stands.exists_rest
      rw [call]
      cases hread : Reader.query cursor with
      | ok q after =>
          rw [hread] at hkept
          obtain ⟨more, hafter⟩ := hkept
          exact ⟨more, .ok hafter (hstands.current_of_query hread)⟩
      | error error after =>
          rw [hread] at hkept
          obtain ⟨more, hafter⟩ := hkept
          exact ⟨more, .error hafter⟩
  | halts h =>
      obtain ⟨rest, error', -, -, hcall, hfails⟩ := h.call_eq hgoing
      rw [hcall]
      exact ⟨[], by rw [List.append_nil]; exact .error hfails⟩

/-! ## The tokens that are left -/

/-- What is in view is the first token that has not been passed. -/
theorem Waits.exists_tokens_eq (h : cursor.Waits origin passed) (hgoing : origin.finished = false)
    (hitems : origin.items = tokens.map .ok ++ ending.toList.map .error) :
    ∃ more, tokens = passed ++ more ∧ cursor.current = more.head? := by
  have hnext : ∀ {last : Lexer} {spanned : Spanned}, origin.Reads (passed ++ [spanned]) last →
      ∃ more, tokens = passed ++ more ∧ some spanned = more.head? := by
    intro last spanned hreads
    rw [Lexer.items_of_reads hreads hgoing] at hitems
    obtain ⟨more, htokens, -⟩ := Lexer.exists_tokens_eq hitems
    exact ⟨spanned :: more, by rw [htokens, List.append_assoc]; rfl, rfl⟩
  cases h with
  | follows h =>
      cases h.stands with
      | inFront hreads => exact hnext hreads
      | atEnd hreads hend =>
          rw [Lexer.items_of_reads hreads hgoing, Lexer.items_of_end hend] at hitems
          obtain ⟨more, htokens, hmore⟩ := Lexer.exists_tokens_eq hitems
          cases more with
          | nil => exact ⟨[], htokens, rfl⟩
          | cons first more => cases hmore
  | halts h =>
      cases h with
      | behind hreads hnext' hseen => exact hnext hreads

theorem Waits.prefix_tokens (h : cursor.Waits origin passed) (hgoing : origin.finished = false)
    (hitems : origin.items = tokens.map .ok ++ ending.toList.map .error) : passed <+: tokens := by
  obtain ⟨more, htokens, -⟩ := h.exists_tokens_eq hgoing hitems
  exact ⟨more, htokens.symm⟩

theorem Waits.current_eq (h : cursor.Waits origin passed) (hgoing : origin.finished = false)
    (hitems : origin.items = tokens.map .ok ++ ending.toList.map .error) :
    cursor.current = tokens[passed.length]? := by
  obtain ⟨more, htokens, hcurrent⟩ := h.exists_tokens_eq hgoing hitems
  rw [hcurrent, htokens, List.getElem?_append_right le_rfl, Nat.sub_self, List.head?_eq_getElem?]

/-- The text ends with the error that the cursor was left with. -/
theorem Halts.ending_eq (h : cursor.Halts origin passed error) (hgoing : origin.finished = false)
    (hitems : origin.items = tokens.map .ok ++ ending.toList.map .error) :
    ending = some error ∧ passed.length + 1 = tokens.length := by
  cases h with
  | @behind last spanned log hreads hnext hseen =>
      rw [Lexer.items_of_reads hreads hgoing,
        Lexer.items_of_error (hreads.kept.2.2.trans hgoing) (Prod.ext hnext rfl)] at hitems
      obtain ⟨more, htokens, hmore⟩ := Lexer.exists_tokens_eq hitems
      cases more with
      | cons first more => cases hmore
      | nil =>
          cases ending with
          | none => cases hmore
          | some error' =>
              cases hmore
              exact ⟨rfl, by rw [htokens]; simp⟩

end

/-! ## The run -/

section

variable {calls later : Nat}

theorem waits_afterCalls (h : cursor.Waits origin []) (hgoing : origin.finished = false)
    (calls : Nat) :
    (cursor.afterCalls calls).Waits origin (cursor.afterCalls calls).passed := by
  induction calls with
  | zero =>
      rw [afterCalls, h.passed_eq]
      exact h
  | succ calls ih =>
      obtain ⟨more, hleaves⟩ := ih.leaves_call hgoing
      rw [afterCalls, hleaves.waits.passed_eq]
      exact hleaves.waits

/-- Each call passes some more tokens, and leaves what its result says. -/
theorem leaves_afterCalls (h : cursor.Waits origin []) (hgoing : origin.finished = false)
    (calls : Nat) :
    (cursor.afterCalls calls).passed <+: (cursor.afterCalls (calls + 1)).passed ∧
      (cursor.afterCalls (calls + 1)).Leaves origin (cursor.afterCalls (calls + 1)).passed
        (cursor.answer calls) := by
  obtain ⟨more, hleaves⟩ := (waits_afterCalls h hgoing calls).leaves_call hgoing
  rw [afterCalls, hleaves.waits.passed_eq]
  exact ⟨List.prefix_append _ _, hleaves⟩

/-- A call that fails leaves what its error says. -/
theorem fails_afterCalls (h : cursor.Waits origin []) (hgoing : origin.finished = false)
    {error : Error} (herror : cursor.answer calls = .error error) :
    (cursor.afterCalls (calls + 1)).Fails origin (cursor.afterCalls (calls + 1)).passed error := by
  have hleaves := (leaves_afterCalls h hgoing calls).2
  rw [herror] at hleaves
  cases hleaves with
  | error hfails => exact hfails

/-- Behind the end of the text there is nothing but the empty query. -/
theorem answer_of_none (h : (cursor.afterCalls calls).current = none) (hle : calls ≤ later) :
    cursor.answer later = .ok .empty := by
  rw [answer, call_of_none (current_afterCalls_of_none h hle)]

/-- Where the text cannot be read on, there is nothing but errors. -/
theorem Halts.answer_eq {passed : List Spanned}
    (h : (cursor.afterCalls calls).Halts origin passed error) (hgoing : origin.finished = false)
    (hle : calls ≤ later) : ∃ error', cursor.answer later = .error error' := by
  obtain ⟨rest, error', -, -, hcall, -⟩ := h.call_eq hgoing
  refine ⟨error', ?_⟩
  rw [answer, afterCalls_of_fixed (by rw [hcall]) hle, hcall]

end

/-- What becomes of the tokens of a text over any number of calls.  The first `consumed n`
tokens are those that `n` calls have passed; `ending` is the error that the stream of tokens
ends in, if it ends in one. -/
structure Tally (origin : Lexer) (tokens : List Spanned) (ending : Option LexError)
    (consumed : Nat → Nat) (cursor : Cursor) : Prop where
  zero : consumed 0 = 0
  mono : Monotone consumed
  le : ∀ calls, consumed calls ≤ tokens.length
  /-- Between two calls the first token that was not passed is in view. -/
  current : ∀ calls, (cursor.afterCalls calls).current = tokens[consumed calls]?
  /-- A call has the result of a new reading from behind the tokens that were passed. -/
  fresh : ∀ calls, ∃ rest, origin.Reads (tokens.take (consumed calls)) rest ∧
    cursor.answer calls = (Query.ofLexer rest).1
  ok : ∀ calls q, cursor.answer calls = .ok q →
    ∀ later, calls < later → cursor.answer later = .ok .empty
  unexpectedEnd : ∀ calls place expected,
    cursor.answer calls = .error (.syntactic (.unexpectedEnd place expected)) →
      ∀ later, calls < later → cursor.answer later = .ok .empty
  /-- The next call starts at the unexpected token. -/
  unexpectedToken : ∀ calls place found expected,
    cursor.answer calls = .error (.syntactic (.unexpectedToken place found expected)) →
      ∃ spanned, tokens[consumed (calls + 1)]? = some spanned ∧ spanned.place = place ∧
        spanned.token.describe = found
  /-- The last token in front of the error is not passed, and no query is read any more. -/
  lexical : ∀ calls error, cursor.answer calls = .error (.lexical error) →
    ending = some error ∧ consumed (calls + 1) + 1 = tokens.length ∧
      ∀ later, calls < later → ∃ error', cursor.answer later = .error error'

/-- Calls on one cursor neither lose a token of the text nor pass one twice. -/
theorem exists_tally (text : String) (validate : Bool) (cursor : Cursor)
    (hstart : Cursor.start ((Lexer.start text).withValidation validate) = .ok cursor) :
    ∃ (tokens : List Spanned) (ending : Option LexError) (consumed : Nat → Nat),
      ((Lexer.start text).withValidation validate).items =
        tokens.map .ok ++ ending.toList.map .error ∧
      cursor.Tally ((Lexer.start text).withValidation validate) tokens ending consumed := by
  have hgoing : ((Lexer.start text).withValidation validate).finished = false := rfl
  have hwaits := Waits.follows (follows_of_start hstart)
  obtain ⟨tokens, ending, hitems⟩ := Lexer.exists_items_eq hgoing
  have hbetween := waits_afterCalls hwaits hgoing
  have hcurrent := fun calls => (hbetween calls).current_eq hgoing hitems
  refine ⟨tokens, ending, fun calls => (cursor.afterCalls calls).passed.length, hitems, ?_⟩
  constructor
  case zero => rw [afterCalls, hwaits.passed_eq, List.length_nil]
  case mono =>
    exact monotone_nat_of_le_succ fun calls =>
      (leaves_afterCalls hwaits hgoing calls).1.length_le
  case le => exact fun calls => ((hbetween calls).prefix_tokens hgoing hitems).length_le
  case current => exact hcurrent
  case fresh =>
    intro calls
    obtain ⟨rest, hreads, hresult⟩ := (hbetween calls).exists_result hgoing
    have hpassed := List.prefix_iff_eq_take.mp ((hbetween calls).prefix_tokens hgoing hitems)
    exact ⟨rest, by rwa [← hpassed], hresult⟩
  case ok =>
    intro calls q hok later hlater
    have hleaves := (leaves_afterCalls hwaits hgoing calls).2
    rw [hok] at hleaves
    cases hleaves with
    | ok h hnone => exact answer_of_none hnone hlater
  case unexpectedEnd =>
    intro calls place expected herror later hlater
    exact answer_of_none ((fails_afterCalls hwaits hgoing herror).current_of_end rfl) hlater
  case unexpectedToken =>
    intro calls place found expected herror
    obtain ⟨spanned, hspanned, hplace, hfound⟩ :=
      (fails_afterCalls hwaits hgoing herror).current_of_token rfl
    exact ⟨spanned, by rw [← hcurrent, hspanned], hplace, hfound⟩
  case lexical =>
    intro calls error herror
    have hhalts := (fails_afterCalls hwaits hgoing herror).halts rfl
    obtain ⟨hending, hlength⟩ := hhalts.ending_eq hgoing hitems
    exact ⟨hending, hlength, fun later hlater => hhalts.answer_eq hgoing hlater⟩

/-- The first call refuses the key `b`.  The second one starts there and comes to the open
quote, so the comparison in front of it stays in view. -/
theorem exists_tally_quote : ∃ cursor tokens ending consumed place found expected error,
    Cursor.start ((Lexer.start "a == b == 'c").withValidation false) = .ok cursor ∧
    cursor.Tally ((Lexer.start "a == b == 'c").withValidation false) tokens ending consumed ∧
    cursor.answer 0 = .error (.syntactic (.unexpectedToken place found expected)) ∧
    place.offset = 5 ∧
    (∃ spanned, tokens[consumed 1]? = some spanned ∧ spanned.place = place) ∧
    cursor.answer 1 = .error (.lexical error) ∧ ending = some error ∧
    consumed 2 + 1 = tokens.length := by
  have hcheck : (Cursor.start ((Lexer.start "a == b == 'c").withValidation false)).toOption.any
      (fun cursor => match cursor.answer 0, cursor.answer 1 with
        | .error (.syntactic (.unexpectedToken place _ _)), .error (.lexical _) => place.offset == 5
        | _, _ => false) = true := by
    decide +kernel
  cases hstart : Cursor.start ((Lexer.start "a == b == 'c").withValidation false) with
  | error error =>
      rw [hstart] at hcheck
      cases hcheck
  | ok cursor =>
      rw [hstart, Except.toOption, Option.any_some] at hcheck
      obtain ⟨tokens, ending, consumed, -, htally⟩ := exists_tally _ false cursor hstart
      split at hcheck
      · next place found expected error hfirst hsecond =>
          obtain ⟨spanned, hspanned, hplace, -⟩ := htally.unexpectedToken 0 _ _ _ hfirst
          obtain ⟨hending, hlength, -⟩ := htally.lexical 1 _ hsecond
          exact ⟨cursor, tokens, ending, consumed, place, found, expected, error, rfl, htally,
            hfirst, eq_of_beq hcheck, ⟨spanned, hspanned, hplace⟩, hsecond, hending, hlength⟩
      · cases hcheck

end Cursor

end RecordQuery

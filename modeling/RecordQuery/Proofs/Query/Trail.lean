import RecordQuery.Proofs.Query.Conclusion

/-!
# Where a reader leaves the cursor

Whether it fails or not, a reader leaves the cursor at a token of the text or at the end,
no further back than it was, and with all tokens that it has read in the log
(`Reader.Steady`).  An error comes with more than that.

* If something else should have stood where the cursor was left, the error is about that
  very token or about the end of the text.
* If the text could not be read, the cursor was left in front of the last token of the
  text, and what follows that token is what could not be read.

The readers of the parts of a query are put together from four steps only, and log nothing
of their own (`Reader.Silent`).  What holds of these steps holds of all of them.
-/

namespace RecordQuery

variable {origin : Lexer} {passed : List Spanned} {cursor : Cursor}

/-! ## Cursors in a text -/

/-- The token that was read, if the event is that one was read. -/
def Event.token? : Event → Option Spanned
  | .token spanned => some spanned
  | _ => none

theorem Event.filterMap_token? (tokens : List Spanned) :
    (tokens.map Event.token).filterMap Event.token? = tokens := by
  rw [List.filterMap_map]
  exact List.filterMap_some

namespace Cursor

/-- The tokens that have been read, the latest first. -/
def seen (cursor : Cursor) : List Spanned :=
  cursor.log.filterMap Event.token?

/-- The cursor has passed these first tokens of a text, and has seen them and what is in
view. -/
structure Follows (origin : Lexer) (passed : List Spanned) (cursor : Cursor) : Prop where
  stands : cursor.Stands origin passed
  seen_eq : cursor.seen = cursor.current.toList ++ passed.reverse

/-- The cursor has passed these first tokens of a text and was left in front of the next
one, which is the last: what follows it cannot be read. -/
inductive Halts (origin : Lexer) (passed : List Spanned) (error : LexError) : Cursor → Prop where
  | behind {last : Lexer} {spanned : Spanned} {log : List Event}
      (hreads : origin.Reads (passed ++ [spanned]) last)
      (hnext : last.nextToken.1 = .error error)
      (hseen : log.filterMap Event.token? = spanned :: passed.reverse) :
      Halts origin passed error ⟨last.skipBlanks, some spanned, log⟩

/-- The cursor is at a token of a text or at the end, and all tokens before have been
passed. -/
inductive Waits (origin : Lexer) (passed : List Spanned) (cursor : Cursor) : Prop where
  | follows (h : cursor.Follows origin passed)
  | halts {error : LexError} (h : cursor.Halts origin passed error)

/-- Where the cursor is left with an error. -/
inductive Fails (origin : Lexer) (passed : List Spanned) : Error → Cursor → Prop where
  | unexpected {cursor : Cursor} (h : cursor.Waits origin passed) (expected : Expectation) :
      Fails origin passed (cursor.unexpected expected) cursor
  | lexical {cursor : Cursor} {error : LexError} (h : cursor.Halts origin passed error) :
      Fails origin passed (.lexical error) cursor

section

variable {error : Error}

/-- An unexpected token is the one in view. -/
theorem Fails.current_of_token {place : Text.Place} {found : String} {expected : Expectation}
    (h : cursor.Fails origin passed error)
    (herror : error = .syntactic (.unexpectedToken place found expected)) : ∃ spanned,
      cursor.current = some spanned ∧ spanned.place = place ∧ spanned.token.describe = found := by
  cases h with
  | lexical h => cases herror
  | unexpected h expected =>
      unfold Cursor.unexpected at herror
      split at herror
      · next spanned hcurrent =>
          cases herror
          exact ⟨spanned, hcurrent, rfl, rfl⟩
      · cases herror

/-- An unexpected end has been reached. -/
theorem Fails.current_of_end {place : Text.Place} {expected : Expectation}
    (h : cursor.Fails origin passed error)
    (herror : error = .syntactic (.unexpectedEnd place expected)) : cursor.current = none := by
  cases h with
  | lexical h => cases herror
  | unexpected h expected =>
      unfold Cursor.unexpected at herror
      split at herror
      · cases herror
      · next hcurrent => exact hcurrent

theorem Fails.halts {lexError : LexError} (h : cursor.Fails origin passed error)
    (herror : error = .lexical lexError) : cursor.Halts origin passed lexError := by
  cases h with
  | lexical h =>
      cases herror
      exact h
  | unexpected h expected =>
      unfold Cursor.unexpected at herror
      split at herror <;> cases herror

end

/-- Moving on fails as before. -/
theorem Halts.advance_eq {error : LexError} (h : cursor.Halts origin passed error) :
    Reader.advance cursor = .error (.lexical error) cursor := by
  cases h with
  | @behind last spanned log hreads hnext hseen =>
      have hcall : last.nextToken = (.error error, last.skipBlanks) :=
        Prod.ext hnext (Lexer.eq_skipBlanks_of_error (Prod.ext hnext rfl))
      simp only [Reader.advance, Lexer.nextToken_skipBlanks, hcall]

theorem follows_of_start (h : Cursor.start origin = .ok cursor) : cursor.Follows origin [] := by
  refine ⟨stands_of_start h, ?_⟩
  unfold Cursor.start at h
  split at h
  · cases h
    rw [seen, Event.filterMap_token?, List.reverse_nil, List.append_nil]
  · cases h

end Cursor

/-! ## Steady readers -/

namespace Reader

variable {α β : Type} {reader : Reader α}

/-- The cursor has been left in the text, no further back than it was. -/
def Kept (origin : Lexer) (passed : List Spanned) : EStateM.Result Error Cursor α → Prop
  | .ok _ after => ∃ more, after.Follows origin (passed ++ more)
  | .error error after => ∃ more, after.Fails origin (passed ++ more) error

theorem Kept.behind {more : List Spanned} {result : EStateM.Result Error Cursor α}
    (h : Kept origin (passed ++ more) result) : Kept origin passed result := by
  cases result with
  | ok result after =>
      obtain ⟨further, hafter⟩ := h
      exact ⟨more ++ further, by rwa [← List.append_assoc]⟩
  | error error after =>
      obtain ⟨further, hafter⟩ := h
      exact ⟨more ++ further, by rwa [← List.append_assoc]⟩

/-- Wherever the cursor is in a text, the reader leaves it in the text. -/
def Steady (reader : Reader α) : Prop :=
  ∀ origin passed cursor, Cursor.Follows origin passed cursor → Kept origin passed (reader cursor)

namespace Steady

theorem look (view : Cursor → α) : Steady fun cursor => .ok (view cursor) cursor :=
  fun _ passed _ hfollows => ⟨[], by rwa [List.append_nil]⟩

theorem fail (expected : Expectation) : Steady (fail expected : Reader α) :=
  fun _ passed _ hfollows =>
    ⟨[], by rw [List.append_nil]; exact .unexpected (.follows hfollows) expected⟩

theorem tell {event : Event} (h : event.token? = none) : Steady (tell event) := by
  intro origin passed cursor hfollows
  have hseen : ({ cursor with log := event :: cursor.log } : Cursor).seen = cursor.seen :=
    List.filterMap_cons_none h
  refine ⟨[], ?_⟩
  rw [List.append_nil]
  exact ⟨hfollows.stands.withLog _, hseen.trans hfollows.seen_eq⟩

theorem advance : Steady advance := by
  intro origin passed cursor hfollows
  obtain ⟨hstands, hseen⟩ := hfollows
  unfold Reader.advance
  cases hstands with
  | @inFront lexer spanned log hreads =>
      have hseen : log.filterMap Event.token? = spanned :: passed.reverse := hseen
      rcases hnext : lexer.nextToken with ⟨error | _ | following, after⟩
      · -- the token in view stays in view
        obtain rfl := Lexer.eq_skipBlanks_of_error hnext
        exact ⟨[], by rw [List.append_nil]; exact .lexical (.behind hreads (by rw [hnext]) hseen)⟩
      · exact ⟨[spanned], .atEnd hreads hnext, by simp [Cursor.seen, hseen]⟩
      · exact ⟨[spanned], .inFront (hreads.concat hnext),
          by simp [Cursor.seen, Event.token?, hseen]⟩
  | @atEnd last lexer log hreads hnext =>
      -- the end is met again, and nothing changes
      obtain rfl := Lexer.eq_skipBlanks_of_end hnext
      simp only [Lexer.nextToken_skipBlanks, hnext]
      exact ⟨[], by rw [List.append_nil]; exact ⟨.atEnd hreads hnext, hseen⟩⟩

theorem bind {next : α → Reader β} (h : Steady reader) (hnext : ∀ result, Steady (next result)) :
    Steady (reader >>= next) := by
  intro origin passed cursor hfollows
  have hkept := h origin passed cursor hfollows
  rcases bind_cases reader next cursor with
    ⟨error, after, hread, hbind⟩ | ⟨result, after, hread, hbind⟩
  · rw [hread] at hkept
    rw [hbind]
    exact hkept
  · rw [hread] at hkept
    obtain ⟨more, hafter⟩ := hkept
    rw [hbind]
    exact (hnext result origin (passed ++ more) after hafter).behind

end Steady

/-! ## Silent readers -/

/-- The reader does nothing but look at the cursor, move on and fail. -/
inductive Silent : {α : Type} → Reader α → Prop where
  | look {α : Type} (view : Cursor → α) : Silent fun cursor => .ok (view cursor) cursor
  | fail {α : Type} (expected : Expectation) : Silent (fail expected : Reader α)
  | advance : Silent advance
  | bind {α β : Type} {reader : Reader α} {next : α → Reader β} (h : Silent reader)
      (hnext : ∀ result, Silent (next result)) : Silent (reader >>= next)

namespace Silent

/-- A silent reader leaves the cursor in the text. -/
theorem steady (h : Silent reader) : Steady reader := by
  induction h with
  | look view => exact .look view
  | fail expected => exact .fail expected
  | advance => exact .advance
  | bind h hnext ih ihnext => exact ih.bind ihnext

theorem pure (result : α) : Silent (Pure.pure result : Reader α) :=
  look fun _ => result

theorem peek : Silent peek :=
  look Cursor.token?

theorem map {f : α → β} (h : Silent reader) : Silent (f <$> reader) := by
  rw [map_eq_pure_bind]
  exact bind h fun result => pure (f result)

theorem accept? (wanted : Token → Option α) : Silent (accept? wanted) := by
  refine bind peek fun look => ?_
  cases look.bind wanted with
  | none => exact pure none
  | some content => exact bind advance fun _ => pure (some content)

theorem accept (wanted : Token → Option α) (expected : Expectation) :
    Silent (accept wanted expected) := by
  refine bind (accept? wanted) fun content? => ?_
  cases content? with
  | none => exact fail expected
  | some content => exact pure content

theorem many {item? : Reader (Option α)} (h : Silent item?) : Silent (many item?) := by
  have hupTo : ∀ bound, Silent (manyUpTo item? bound) := by
    intro bound
    induction bound with
    | zero => exact pure []
    | succ bound ih =>
        refine bind h fun item? => ?_
        cases item? with
        | none => exact pure []
        | some item => exact bind ih fun items => pure (item :: items)
  exact bind (look id) fun cursor => hupTo _

/-! ## The readers of the grammar -/

theorem nextItem? : Silent nextItem? := by
  refine bind (accept? (isMark? .comma)) fun comma? => ?_
  cases comma? with
  | none => exact pure none
  | some comma => exact map (accept literalOf? .value)

theorem listItems : Silent listItems := by
  refine bind (accept? (isMark? .closeBracket)) fun close? => ?_
  cases close? with
  | none =>
      exact bind (accept literalOf? .value) fun first => bind (many nextItem?) fun others =>
        bind (accept (isMark? .closeBracket) .commaOrBracket) fun _ => pure (first :: others)
  | some close => exact pure []

theorem operand : Silent operand := by
  refine bind (accept? (isMark? .openBracket)) fun open? => ?_
  cases open? with
  | none => exact map (accept literalOf? .valueOrArray)
  | some opened => exact map listItems

theorem filter : Silent filter :=
  bind (accept keyOf? .key) fun key => bind (accept comparisonOf? .comparison) fun operator =>
    bind operand fun operand => pure (Filter.mk key operator operand)

theorem chainOf {part : Reader FilterTree} (h : Silent part) : Silent (chainOf part) := by
  have hlink : Silent (link? part) := by
    refine bind (accept? joinerOf?) fun joiner? => ?_
    cases joiner? with
    | none => exact pure none
    | some joiner => exact bind h fun tree => pure (some (joiner, tree))
  exact bind h fun first => bind (many hlink) fun links => pure (first.chain links)

theorem filterOrGroup : Silent filterOrGroup := by
  refine bind peek fun look => ?_
  split
  · exact map filter
  · exact bind advance fun _ => bind (chainOf (map filter)) fun inner =>
      bind (accept (isMark? .closeParen) .joinerOrParen) fun _ => pure (FilterTree.group inner)
  · exact fail .filterOrParen

theorem filters? : Silent filters? := by
  refine bind peek fun look => ?_
  split
  · exact map (chainOf filterOrGroup)
  · exact pure none

theorem action : Silent action := by
  refine bind (accept actionKeyOf? .actionKey) fun key =>
    bind (many (accept? paramOf?)) fun params => ?_
  cases params with
  | nil => exact fail .actionParameter
  | cons param params => exact pure (Action.mk key (param :: params))

theorem actions : Silent actions := by
  have hnext : Silent nextAction? := by
    refine bind (accept? (isMark? .semicolon)) fun semicolon? => ?_
    cases semicolon? with
    | none => exact pure none
    | some semicolon => exact map action
  refine bind (accept? (isMark? .pipe)) fun pipe? => ?_
  cases pipe? with
  | none => exact pure []
  | some pipe =>
      exact bind action fun first => bind (many hnext) fun others => pure (first :: others)

end Silent

/-- Reading a query leaves the cursor in the text. -/
theorem steady_query : Steady query := by
  refine Silent.filters?.steady.bind fun filter => Silent.actions.steady.bind fun actions =>
    Silent.peek.steady.bind fun look => ?_
  cases look with
  | none => exact (Steady.tell rfl).bind fun _ => (Silent.pure (Query.mk filter actions)).steady
  | some token => exact .fail (expectedBehind filter actions)

end Reader

end RecordQuery

import RecordQuery.Proofs.Query.Progress
import RecordQuery.Proofs.Token.Stream
import RecordQuery.Query.Grammar

/-!
# Readers that follow the progress of a query

A reader is specified by what it makes of the progress.  `Reader.Triple pre reader post`
says of a reader, wherever it starts with `pre`: if it yields a result then it has gone
on along the tokens of the text, as `Progress.step` goes on, and `post` holds; and if it
fails then it is `Refused`, that is, it failed for a reason that the progress knows:

* the token in view cannot go on the query, or the text ends where the query cannot, and
  the error names what the progress expects; or
* the token in view does go on the query, and what follows it is no token.

There is one rule for each way to build readers.
-/

namespace RecordQuery

variable {origin : Lexer} {tokens : List Spanned} {progress : Progress} {cursor : Cursor}

/-- The cursor has passed these first tokens of a text, and is in front of the next one
or at the end. -/
inductive Cursor.Stands (origin : Lexer) (tokens : List Spanned) : Cursor → Prop where
  | inFront {lexer : Lexer} {spanned : Spanned} {log : List Event}
      (hreads : origin.Reads (tokens ++ [spanned]) lexer) :
      Stands origin tokens ⟨lexer, some spanned, log⟩
  | atEnd {last lexer : Lexer} {log : List Event} (hreads : origin.Reads tokens last)
      (hnext : last.nextToken = (.ok none, lexer)) : Stands origin tokens ⟨lexer, none, log⟩

/-- Where a cursor is does not depend on what it has logged. -/
theorem Cursor.Stands.withLog (h : cursor.Stands origin tokens) (log : List Event) :
    Cursor.Stands origin tokens { cursor with log } := by
  cases h with
  | inFront hreads => exact .inFront hreads
  | atEnd hreads hnext => exact .atEnd hreads hnext

/-- The cursor has passed these first tokens of a text, and they make this progress. -/
structure Cursor.At (origin : Lexer) (tokens : List Spanned) (progress : Progress)
    (cursor : Cursor) : Prop where
  stands : cursor.Stands origin tokens
  runs : Progress.start.run (tokens.map Spanned.token) = some progress

/-- The query cannot go on with what is in view: a token, or the end of the text. -/
def Progress.Refuses (progress : Progress) : Option Token → Prop
  | some token => progress.step token = none
  | none => progress.finish = none

/-- An error with the reason that there is for it. -/
inductive Refused (origin : Lexer) : Error → Prop where
  | unexpected {tokens : List Spanned} {progress : Progress} {cursor : Cursor}
      (hat : cursor.At origin tokens progress) (hrefuses : progress.Refuses cursor.token?) :
      Refused origin (cursor.unexpected progress.expectation)
  | lexical {tokens : List Spanned} {last : Lexer} {error : LexError}
      (hreads : origin.Reads tokens last)
      (hruns : Progress.start.run (tokens.map Spanned.token) ≠ none)
      (hnext : last.nextToken.1 = .error error) : Refused origin (.lexical error)

/-! ## A cursor that has passed more has less left -/

/-- How many more tokens a cursor can pass at most. -/
def Cursor.left (cursor : Cursor) : Nat :=
  cursor.lexer.rest.length + cursor.current.toList.length

theorem Cursor.Stands.left_lt {more : List Spanned} {after : Cursor}
    (h : cursor.Stands origin tokens) (hafter : after.Stands origin more)
    (hlonger : tokens.length < more.length) : after.left < cursor.left := by
  -- what `after` has read, it has read behind what `cursor` had in view
  obtain ⟨last, hlast, hrest⟩ : ∃ last, origin.Reads (more ++ after.current.toList) last ∧
      after.lexer.rest.length ≤ last.rest.length := by
    cases hafter with
    | inFront hreads => exact ⟨_, hreads, le_rfl⟩
    | atEnd hreads hnext =>
        cases Lexer.call_of_eq hnext with
        | atEnd hrest => exact ⟨_, by simpa using hreads, by simp [hrest]⟩
  cases h with
  | @inFront lexer spanned log hreads =>
      obtain ⟨back, hback, htokens⟩ := hreads.split hlast (by simp; omega)
      have hlength := congrArg List.length hback
      have := htokens.length_rest_le
      simp [left] at hlength ⊢
      omega
  | @atEnd middle lexer log hreads hnext =>
      obtain ⟨back, hback, htokens⟩ := hreads.split hlast (by simp; omega)
      cases htokens with
      | nil =>
          have := congrArg List.length hback
          simp at this
          omega
      | cons hsome => rw [hnext] at hsome; cases hsome

/-- The progress holds as many tokens as the cursor has passed. -/
theorem Cursor.At.length_tokens (h : cursor.At origin tokens progress) :
    progress.tokens.length = tokens.length := by
  rw [Progress.tokens_run h.runs]
  simp [Progress.start, Progress.tokens, Slot.tokens]

namespace Reader

/-- Of two readers in a row the second one starts where the first one has left the cursor,
unless the first one fails. -/
theorem bind_cases {α β : Type} (reader : Reader α) (next : α → Reader β) (cursor : Cursor) :
    (∃ error after, reader cursor = .error error after ∧
      (reader >>= next) cursor = .error error after) ∨
    ∃ result after, reader cursor = .ok result after ∧
      (reader >>= next) cursor = next result after := by
  have hbind : (reader >>= next) cursor = EStateM.bind reader next cursor := rfl
  rw [hbind, EStateM.bind]
  cases reader cursor with
  | error error after => exact Or.inl ⟨error, after, rfl, rfl⟩
  | ok result after => exact Or.inr ⟨result, after, rfl, rfl⟩

/-- The progress is the given one, and what is in view fulfils the condition. -/
def Facing (here : Progress) (sees : Option Token → Prop) (progress : Progress)
    (look : Option Token) : Prop :=
  progress = here ∧ sees look

/-- What is in view is no token that is wanted. -/
def Lacks {α : Type} (wanted : Token → Option α) (look : Option Token) : Prop :=
  look.bind wanted = none

/-- What is said of a thing that was read, or of there being none. -/
def IfAny {α : Type} (some : α → Progress → Option Token → Prop)
    (none : Progress → Option Token → Prop) : Option α → Progress → Option Token → Prop
  | .some value => some value
  | .none => none

/-- The cursor has gone on to a progress with `post`, or there is a reason for the error. -/
def Outcome {α : Type} (origin : Lexer) (post : α → Progress → Option Token → Prop) :
    EStateM.Result Error Cursor α → Prop
  | .ok result after => ∃ tokens next, after.At origin tokens next ∧ post result next after.token?
  | .error error _ => Refused origin error

/-- What a reader makes of a progress with `pre`. -/
def Triple {α : Type} (origin : Lexer) (pre : Progress → Option Token → Prop)
    (reader : Reader α) (post : α → Progress → Option Token → Prop) : Prop :=
  ∀ tokens progress cursor, cursor.At origin tokens progress → pre progress cursor.token? →
    Outcome origin post (reader cursor)

theorem Outcome.weaken {α : Type} {result : EStateM.Result Error Cursor α}
    {post post' : α → Progress → Option Token → Prop} (h : Outcome origin post' result)
    (hpost : ∀ value progress look, post' value progress look → post value progress look) :
    Outcome origin post result := by
  cases result with
  | ok value after =>
      obtain ⟨tokens, next, hafter, hend⟩ := h
      exact ⟨tokens, next, hafter, hpost _ _ _ hend⟩
  | error error after => exact h

theorem Outcome.bind {α β : Type} {reader : Reader α} {next : α → Reader β} {cursor : Cursor}
    {middle : α → Progress → Option Token → Prop} {post : β → Progress → Option Token → Prop}
    (h : Outcome origin middle (reader cursor))
    (hnext : ∀ value tokens progress after, after.At origin tokens progress →
      middle value progress after.token? → Outcome origin post (next value after)) :
    Outcome origin post ((reader >>= next) cursor) := by
  rcases bind_cases reader next cursor with
    ⟨error, after, hread, hbind⟩ | ⟨value, after, hread, hbind⟩
  · rw [hread] at h
    rw [hbind]
    exact h
  · rw [hread] at h
    obtain ⟨tokens, progress, hafter, hmiddle⟩ := h
    rw [hbind]
    exact hnext value tokens progress after hafter hmiddle

variable {α β : Type} {pre : Progress → Option Token → Prop} {reader : Reader α}
  {post : α → Progress → Option Token → Prop}

namespace Triple

/-! ## Rules for every reader -/

theorem weaken {pre' : Progress → Option Token → Prop}
    {post' : α → Progress → Option Token → Prop} (h : Triple origin pre' reader post')
    (hpre : ∀ progress look, pre progress look → pre' progress look)
    (hpost : ∀ result progress look, post' result progress look → post result progress look) :
    Triple origin pre reader post :=
  fun tokens progress cursor hat hstart =>
    (h tokens progress cursor hat (hpre _ _ hstart)).weaken hpost

/-- What the start says of the surroundings can be used throughout. -/
theorem assume {fact : Prop} (hfact : ∀ progress look, pre progress look → fact)
    (h : fact → Triple origin pre reader post) : Triple origin pre reader post :=
  fun tokens progress cursor hat hstart =>
    h (hfact _ _ hstart) tokens progress cursor hat hstart

theorem pure {result : α} (h : ∀ progress look, pre progress look → post result progress look) :
    Triple origin pre (Pure.pure result) post :=
  fun tokens progress _ hat hstart => ⟨tokens, progress, hat, h _ _ hstart⟩

theorem bind {next : α → Reader β} {middle : α → Progress → Option Token → Prop}
    {post : β → Progress → Option Token → Prop} (h : Triple origin pre reader middle)
    (hnext : ∀ result, Triple origin (middle result) (next result) post) :
    Triple origin pre (reader >>= next) post :=
  fun tokens progress cursor hat hstart => (h tokens progress cursor hat hstart).bind hnext

theorem map {f : α → β} {post : β → Progress → Option Token → Prop}
    (h : Triple origin pre reader fun result => post (f result)) :
    Triple origin pre (f <$> reader) post := by
  rw [map_eq_pure_bind]
  exact bind h fun result => pure fun _ _ hend => hend

theorem peek : Triple origin pre peek fun look progress look' => look' = look ∧ pre progress look :=
  fun tokens progress _ hat hstart => ⟨tokens, progress, hat, rfl, hstart⟩

theorem fail {expected : Expectation}
    (h : ∀ progress look, pre progress look → progress.Refuses look ∧
      progress.expectation = expected) :
    Triple origin pre (fail expected : Reader α) post := by
  intro tokens progress cursor hat hstart
  obtain ⟨hrefuses, rfl⟩ := h _ _ hstart
  exact .unexpected hat hrefuses

theorem tell {event : Event} : Triple origin pre (tell event) fun _ => pre :=
  fun tokens progress _ hat hstart => ⟨tokens, progress, ⟨hat.stands.withLog _, hat.runs⟩, hstart⟩

/-- Moving on is a step of the progress. -/
theorem advance {post : Unit → Progress → Option Token → Prop}
    (h : ∀ progress look, pre progress look → ∃ token next, look = some token ∧
      progress.step token = some next ∧ ∀ look', post () next look') :
    Triple origin pre advance post := by
  intro tokens progress cursor hat hstart
  obtain ⟨token, next, hlook, hstep, hpost⟩ := h _ _ hstart
  obtain ⟨spanned, hcurrent, rfl⟩ := Option.map_eq_some_iff.mp hlook
  have hreads : origin.Reads (tokens ++ [spanned]) cursor.lexer := by
    cases hat.stands with
    | inFront hreads => cases hcurrent; exact hreads
    | atEnd hreads hnext => cases hcurrent
  have hruns : Progress.start.run ((tokens ++ [spanned]).map Spanned.token) = some next := by
    rw [List.map_append, Progress.run_append, hat.runs]
    simp [hstep]
  -- the token in view is passed before the next one is read, so an error there comes later
  unfold Reader.advance
  rcases hread : cursor.lexer.nextToken with ⟨error | _ | following, lexer⟩
  · exact .lexical hreads (by rw [hruns]; exact Option.some_ne_none _) (by rw [hread])
  · exact ⟨_, next, ⟨.atEnd hreads hread, hruns⟩, hpost _⟩
  · exact ⟨_, next, ⟨.inFront (hreads.concat hread), hruns⟩, hpost _⟩

/-! ## Rules for accepting -/

/-- Accepting is a step of the progress for a token that is wanted, and leaves any other
token in view. -/
theorem accept? {here : Progress} {sees : Option Token → Prop} {wanted : Token → Option α}
    (next : α → Progress)
    (hwanted : ∀ token content, wanted token = some content →
      here.step token = some (next content)) :
    Triple origin (Facing here sees) (accept? wanted)
      (IfAny (fun content => Facing (next content) fun _ => True)
        (Facing here fun look => sees look ∧ Lacks wanted look)) := by
  refine bind peek fun look => ?_
  cases hlook : look.bind wanted with
  | none =>
      refine pure ?_
      rintro progress _ ⟨rfl, hhere, hsees⟩
      exact ⟨hhere, hsees, hlook⟩
  | some content =>
      obtain ⟨token, rfl, htoken⟩ := Option.bind_eq_some_iff.mp hlook
      have hadvance : Triple origin (fun progress look' => look' = some token ∧
          Facing here sees progress (some token)) Reader.advance
          fun _ => Facing (next content) fun _ => True := by
        refine advance ?_
        rintro progress _ ⟨rfl, rfl, _⟩
        exact ⟨token, next content, rfl, hwanted token content htoken, fun _ => ⟨rfl, trivial⟩⟩
      exact bind hadvance fun _ => pure fun _ _ h => h

/-- Where only a token that is wanted can go on the query, any other is refused. -/
theorem accept {here : Progress} {sees : Option Token → Prop} {wanted : Token → Option α}
    {expected : Expectation} (next : α → Progress)
    (hwanted : ∀ token content, wanted token = some content →
      here.step token = some (next content))
    (hother : ∀ look, sees look → Lacks wanted look →
      here.Refuses look ∧ here.expectation = expected) :
    Triple origin (Facing here sees) (accept wanted expected) fun content =>
      Facing (next content) fun _ => True := by
  refine bind (accept? next hwanted) ?_
  rintro (_ | content)
  · refine fail ?_
    rintro progress look ⟨rfl, hsees, hlacks⟩
    exact hother look hsees hlacks
  · exact pure fun _ _ h => h

/-! ## A rule for repeating -/

/-- An item that leaves the progress with more tokens can be read as often as it is
there; the bound on the number of times is never reached. -/
theorem many {item? : Reader (Option α)} {stops : List α → Option Token → Prop}
    (here : List α → Progress) (sees : List α → Option Token → Prop)
    (hgrows : ∀ items item, (here items).tokens.length < (here (items ++ [item])).tokens.length)
    (hitem : ∀ items, Triple origin (Facing (here items) (sees items)) item?
      (IfAny (fun item => Facing (here (items ++ [item])) (sees (items ++ [item])))
        (Facing (here items) (stops items)))) :
    Triple origin (Facing (here []) (sees [])) (many item?) fun items =>
      Facing (here items) (stops items) := by
  have hupTo : ∀ bound items tokens cursor, cursor.At origin tokens (here items) →
      cursor.left < bound → sees items cursor.token? →
      Outcome origin (fun more => Facing (here (items ++ more)) (stops (items ++ more)))
        (manyUpTo item? bound cursor) := by
    intro bound
    induction bound with
    | zero => intro items tokens cursor _ hleft; omega
    | succ bound ih =>
        intro items tokens cursor hat hleft hsees
        refine (hitem items tokens _ cursor hat ⟨rfl, hsees⟩).bind ?_
        rintro (_ | item) more next after hafter hmiddle
        · exact ⟨more, next, hafter, by simpa [IfAny] using hmiddle⟩
        · obtain ⟨rfl, hsees'⟩ := hmiddle
          -- an item takes tokens, so less is left for the next round
          have hlonger : tokens.length < more.length := by
            rw [← hat.length_tokens, ← hafter.length_tokens]
            exact hgrows items item
          have hless := hat.stands.left_lt hafter.stands hlonger
          refine (ih (items ++ [item]) more after hafter (by omega) hsees').bind ?_
          intro others tokens' next' last hlast hend
          exact ⟨tokens', next', hlast, by simpa using hend⟩
  rintro tokens _ cursor hat ⟨rfl, hsees⟩
  have hbound : cursor.left < cursor.tokenBound + 1 := by
    have : cursor.current.toList.length ≤ 1 := by cases cursor.current <;> simp
    simp only [Cursor.left, Cursor.tokenBound]
    omega
  exact hupTo _ [] tokens cursor hat hbound hsees

end Triple

end Reader

end RecordQuery

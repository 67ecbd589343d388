import RecordQuery.Proofs.Query.Readers
import RecordQuery.Query.Trace

/-!
# What reading a query yields

The readers have been followed token by token (`Reader.triple_query`); here the tokens
are those of a text.  Where the text can be read as tokens, exactly the sentences of the
grammar are queries, and the query is the one that is written as those tokens.  Where it
cannot be read, the error is at the first place at which no sentence goes on as the text
does.
-/

namespace RecordQuery

namespace Lexer

/-- Whether a stream has met nothing but tokens. -/
def readsAll (lexer : Lexer) : Bool :=
  lexer.items.all Except.isOk

/-- The token that an item of a stream is, if it starts in front of a place. -/
def startingBefore (offset : Nat) : Except LexError Spanned → Option Token
  | .ok spanned => if spanned.place.offset < offset then some spanned.token else none
  | .error _ => none

/-- The tokens of a stream that start in front of a place. -/
def tokensBefore (lexer : Lexer) (offset : Nat) : List Token :=
  lexer.items.filterMap (startingBefore offset)

theorem eq_of_map_ok {first second : List Spanned}
    (h : first.map (Except.ok : Spanned → Except LexError Spanned) = second.map .ok) :
    first = second :=
  List.map_injective_iff.mpr (fun _ _ => Except.ok.inj) h

theorem exists_items_of_readsAll {lexer : Lexer} (h : lexer.readsAll = true) :
    ∃ tokens : List Spanned, lexer.items = tokens.map .ok := by
  unfold readsAll at h
  generalize lexer.items = items at h
  induction items with
  | nil => exact ⟨[], rfl⟩
  | cons item items ih =>
      rw [List.all_cons, Bool.and_eq_true] at h
      obtain ⟨tokens, rfl⟩ := ih h.2
      cases item with
      | ok spanned => exact ⟨spanned :: tokens, rfl⟩
      | error error => cases h.1

/-- Behind the tokens that start in front of a place there is nothing that does. -/
theorem tokensBefore_eq {lexer : Lexer} {tokens : List Spanned} {offset : Nat}
    {rest : List (Except LexError Spanned)} (h : lexer.items = tokens.map .ok ++ rest)
    (hbefore : ∀ spanned ∈ tokens, spanned.place.offset < offset)
    (hrest : ∀ item ∈ rest, offset ≤ offsetOf item) :
    lexer.tokensBefore offset = tokens.map Spanned.token := by
  have hfront : ∀ tokens : List Spanned, (∀ spanned ∈ tokens, spanned.place.offset < offset) →
      (tokens.map Except.ok).filterMap (startingBefore offset) = tokens.map Spanned.token := by
    intro tokens hbefore
    induction tokens with
    | nil => rfl
    | cons spanned tokens ih =>
        have hspanned := hbefore spanned List.mem_cons_self
        have htokens := ih fun other hother => hbefore other (List.mem_cons_of_mem _ hother)
        simp [startingBefore, hspanned, htokens]
  have hback : rest.filterMap (startingBefore offset) = [] := by
    rw [List.filterMap_eq_nil_iff]
    intro item hitem
    have hle := hrest item hitem
    cases item with
    | ok spanned => exact if_neg (Nat.not_lt.mpr hle)
    | error error => rfl
  rw [tokensBefore, h, List.filterMap_append, hfront tokens hbefore, hback, List.append_nil]

/-- What stands in front of an item of the stream starts in front of it. -/
theorem tokensBefore_item {lexer : Lexer} (hgoing : lexer.finished = false)
    {tokens : List Spanned} {item : Except LexError Spanned}
    {rest : List (Except LexError Spanned)}
    (h : lexer.items = tokens.map .ok ++ item :: rest) :
    lexer.tokensBefore (offsetOf item) = tokens.map Spanned.token := by
  have hpairwise := pairwise_offset_items hgoing
  rw [h, List.pairwise_append, List.pairwise_cons] at hpairwise
  obtain ⟨-, ⟨hitem, -⟩, hfront⟩ := hpairwise
  refine tokensBefore_eq h (fun spanned hspanned => ?_) fun other hother => ?_
  · exact hfront (.ok spanned) (List.mem_map_of_mem hspanned) item List.mem_cons_self
  · rcases List.mem_cons.mp hother with rfl | hother
    · exact le_rfl
    · exact (hitem other hother).le

/-- All tokens start in front of the end of the text. -/
theorem tokensBefore_extent {lexer last : Lexer} {tokens : List Spanned}
    (hgoing : lexer.finished = false) (hreads : lexer.Reads tokens last)
    (hlast : last.items = []) : lexer.tokensBefore lexer.extent = tokens.map Spanned.token := by
  have hitems := items_of_reads hreads hgoing
  refine tokensBefore_eq hitems (fun spanned hspanned => ?_) (by simp [hlast])
  have := hreads.offset_add_length_le hspanned
  omega

end Lexer

/-! ## Cursors and the stream -/

variable {origin : Lexer} {tokens : List Spanned} {progress : Progress} {cursor : Cursor}

theorem Cursor.Stands.items_of_some {spanned : Spanned} (h : cursor.Stands origin tokens)
    (hgoing : origin.finished = false) (hcurrent : cursor.current = some spanned) :
    origin.items = tokens.map .ok ++ .ok spanned :: cursor.lexer.items := by
  cases h with
  | inFront hreads =>
      cases hcurrent
      simpa using Lexer.items_of_reads hreads hgoing
  | atEnd hreads hnext => cases hcurrent

theorem Cursor.Stands.reads_of_none (h : cursor.Stands origin tokens)
    (hcurrent : cursor.current = none) :
    ∃ last, origin.Reads tokens last ∧ last.items = [] ∧
      cursor.lexer.source = origin.source := by
  cases h with
  | inFront hreads => cases hcurrent
  | @atEnd last lexer log hreads hnext =>
      exact ⟨last, hreads, Lexer.items_of_end hnext,
        (Lexer.kept_nextToken hnext).1.trans hreads.kept.1⟩

/-! ## Results have a run, errors have a reason -/

namespace Query

theorem ofLexer_cases (origin : Lexer) :
    (∃ q tokens last progress, (ofLexer origin).1 = .ok q ∧ origin.Reads tokens last ∧
      last.items = [] ∧ Progress.start.run (tokens.map Spanned.token) = some progress ∧
      progress.finish = some q) ∨
    ∃ error, (ofLexer origin).1 = .error error ∧ Refused origin error := by
  unfold ofLexer Cursor.start
  rcases hfirst : origin.nextToken with ⟨error | current, lexer⟩
  · exact Or.inr ⟨_, rfl, .lexical (.nil origin) (Option.some_ne_none _) (by rw [hfirst])⟩
  -- nothing has been passed, and the first token is in view if there is one
  have hstands : Cursor.Stands origin [] ⟨lexer, current, current.toList.map .token⟩ := by
    cases current with
    | none => exact .atEnd (.nil origin) hfirst
    | some spanned => exact .inFront (.cons hfirst (.nil lexer))
  have hquery := Reader.triple_query [] _ _ ⟨hstands, rfl⟩ ⟨rfl, trivial⟩
  simp only
  cases hread : Reader.query ⟨lexer, current, current.toList.map .token⟩ with
  | error error after =>
      rw [hread] at hquery
      exact Or.inr ⟨error, rfl, hquery⟩
  | ok q after =>
      rw [hread] at hquery
      obtain ⟨tokens, progress, hafter, hlook, hfinish⟩ := hquery
      obtain ⟨last, hreads, hend, -⟩ :=
        hafter.stands.reads_of_none (Option.map_eq_none_iff.mp hlook)
      exact Or.inl ⟨q, tokens, last, progress, rfl, hreads, hend, hafter.runs, hfinish⟩

end Query

/-- Tokens that are refused in the middle of a text are no beginning of a sentence. -/
theorem not_viable_of_step {spanned : Spanned}
    (hruns : Progress.start.run (tokens.map Spanned.token) = some progress)
    (hstep : progress.step spanned.token = none) :
    ¬ Grammar.Viable (tokens.map Spanned.token ++ [spanned.token]) := by
  rw [Grammar.viable_concat_iff hruns, not_not]
  exact hstep

/-- Tokens that cannot end where they do are no sentence. -/
theorem not_mem_query_of_finish
    (hruns : Progress.start.run (tokens.map Spanned.token) = some progress)
    (hfinish : progress.finish = none) : tokens.map Spanned.token ∉ Grammar.query := by
  rw [Grammar.mem_query_iff_run]
  rintro ⟨last, hlast, hends⟩
  rw [hruns] at hlast
  cases hlast
  exact hends hfinish

theorem Cursor.At.viable {cursor : Cursor} (h : cursor.At origin tokens progress) :
    Grammar.Viable (tokens.map Spanned.token) := by
  rw [Grammar.viable_iff_run, h.runs]
  exact Option.some_ne_none progress

/-- No text that is refused is a sentence. -/
theorem Refused.not_mem_query {error : Error} (h : Refused origin error)
    (hgoing : origin.finished = false) (hitems : origin.items = tokens.map .ok) :
    tokens.map Spanned.token ∉ Grammar.query := by
  intro hmem
  cases h with
  | @unexpected before progress cursor hat hrefuses =>
      cases hcurrent : cursor.current with
      | some spanned =>
          -- the sentence would go on with the token in view
          rw [hat.stands.items_of_some hgoing hcurrent] at hitems
          obtain ⟨front, back, rfl, hfront, hback⟩ := List.map_eq_append_iff.mp hitems.symm
          obtain ⟨head, rest, rfl, hhead, -⟩ := List.map_eq_cons_iff.mp hback
          obtain rfl := Except.ok.inj hhead
          obtain rfl := Lexer.eq_of_map_ok hfront
          rw [Cursor.token?, hcurrent] at hrefuses
          refine not_viable_of_step hat.runs hrefuses ⟨rest.map Spanned.token, ?_⟩
          simpa using hmem
      | none =>
          -- all tokens have been passed
          obtain ⟨last, hreads, hlast, -⟩ := hat.stands.reads_of_none hcurrent
          rw [Lexer.items_of_reads hreads hgoing, hlast, List.append_nil] at hitems
          obtain rfl := Lexer.eq_of_map_ok hitems
          rw [Cursor.token?, hcurrent] at hrefuses
          exact not_mem_query_of_finish hat.runs hrefuses hmem
  | @lexical before last error hreads hruns hnext =>
      have hlast : last.items = [.error error] :=
        Lexer.items_of_error (hreads.kept.2.2.trans hgoing) (Prod.ext hnext rfl)
      have herror : .error error ∈ origin.items := by
        rw [Lexer.items_of_reads hreads hgoing, hlast]
        simp
      rw [hitems] at herror
      obtain ⟨spanned, -, hspanned⟩ := List.mem_map.mp herror
      cases hspanned

namespace Query

/-- A query that was read is written as the tokens of its text. -/
theorem tokens_of_ofLexer {q : Query} (hgoing : origin.finished = false)
    (h : (ofLexer origin).1 = .ok q) : q.WellFormed ∧
      ∃ tokens : List Spanned, origin.items = tokens.map .ok ∧
        q.tokens = tokens.map Spanned.token := by
  rcases ofLexer_cases origin with
    ⟨q', read, last, progress, hok, hreads, hlast, hrun, hfinish⟩ | ⟨error, herror, -⟩
  · rw [h] at hok
    cases hok
    have hwell := Progress.wellFormed_run Progress.wellFormed_start hrun
    refine ⟨Progress.wellFormed_finish hwell hfinish, read, ?_, ?_⟩
    · rw [Lexer.items_of_reads hreads hgoing, hlast, List.append_nil]
    · rw [Progress.tokens_finish hfinish, Progress.tokens_run hrun]
      rfl
  · rw [h] at herror
    cases herror

/-- Sentences are not refused. -/
theorem exists_ofLexer (hgoing : origin.finished = false) (hitems : origin.items = tokens.map .ok)
    (hmem : tokens.map Spanned.token ∈ Grammar.query) : ∃ q, (ofLexer origin).1 = .ok q := by
  rcases ofLexer_cases origin with ⟨q, _, _, _, hok, -⟩ | ⟨error, -, hrefused⟩
  · exact ⟨q, hok⟩
  · exact absurd hmem (hrefused.not_mem_query hgoing hitems)

/-- A query is read from its tokens. -/
theorem ofLexer_of_tokens {q : Query} (hgoing : origin.finished = false)
    (hitems : origin.items = tokens.map .ok) (hq : q.WellFormed)
    (htokens : q.tokens = tokens.map Spanned.token) : (ofLexer origin).1 = .ok q := by
  have hmem := (Grammar.mem_query _).mpr ⟨q, hq, htokens.symm⟩
  obtain ⟨q', hq'⟩ := exists_ofLexer hgoing hitems hmem
  obtain ⟨hwell, read, hread, htokens'⟩ := tokens_of_ofLexer hgoing hq'
  rw [hitems] at hread
  obtain rfl := Lexer.eq_of_map_ok hread
  rw [hq', Query.eq_of_tokens_eq hwell hq (htokens'.trans htokens.symm)]

/-- Where a text is read to its end without an error, reading it as a query yields a
query exactly for the sentences of the grammar, and yields the one well-formed query
that is written as the tokens of the text. -/
theorem ofLexer_eq_ok_iff (text : String) (validate : Bool) (tokens : List Spanned)
    (h : ((Lexer.start text).withValidation validate).items = tokens.map .ok) :
    ((∃ q, (ofLexer ((Lexer.start text).withValidation validate)).1 = .ok q) ↔
      tokens.map Spanned.token ∈ Grammar.query) ∧
    ∀ q, (ofLexer ((Lexer.start text).withValidation validate)).1 = .ok q ↔
      q.WellFormed ∧ q.tokens = tokens.map Spanned.token := by
  have hsound : ∀ q, (ofLexer ((Lexer.start text).withValidation validate)).1 = .ok q →
      q.WellFormed ∧ q.tokens = tokens.map Spanned.token := by
    intro q hq
    obtain ⟨hwell, read, hread, htokens⟩ := tokens_of_ofLexer rfl hq
    rw [h] at hread
    obtain rfl := Lexer.eq_of_map_ok hread
    exact ⟨hwell, htokens⟩
  refine ⟨⟨fun ⟨q, hq⟩ => ?_, exists_ofLexer rfl h⟩, fun q => ⟨hsound q, ?_⟩⟩
  · obtain ⟨hwell, htokens⟩ := hsound q hq
    exact (Grammar.mem_query _).mpr ⟨q, hwell, htokens.symm⟩
  · rintro ⟨hwell, htokens⟩
    exact ofLexer_of_tokens rfl h hwell htokens

theorem ofLexer_group_list_actions :
    ∃ tokens : List Spanned,
      ((Lexer.start "(a == 1 or b in [2, 'x']) and c != 4 | :do d 5; :stop e").withValidation
        true).items = tokens.map .ok ∧
      tokens.map Spanned.token ∈ Grammar.query := by
  obtain ⟨tokens, hitems⟩ := Lexer.exists_items_of_readsAll
    (show ((Lexer.start "(a == 1 or b in [2, 'x']) and c != 4 | :do d 5; :stop e").withValidation
      true).readsAll = true by decide +kernel)
  have hok : (ofLexer ((Lexer.start
      "(a == 1 or b in [2, 'x']) and c != 4 | :do d 5; :stop e").withValidation true)).1.isOk =
        true := by
    decide +kernel
  refine ⟨tokens, hitems, (ofLexer_eq_ok_iff _ _ tokens hitems).1.mp ?_⟩
  cases hq : (ofLexer ((Lexer.start
      "(a == 1 or b in [2, 'x']) and c != 4 | :do d 5; :stop e").withValidation true)).1 with
  | ok q => exact ⟨q, rfl⟩
  | error error => rw [hq] at hok; cases hok

/-- An empty text is read like any other. -/
theorem parse_eq_ofLexer (options : Options) (input : String) : parse options input =
    (ofLexer ((Lexer.start (options.textOf input)).withValidation options.validate)).1 := by
  unfold parse parseTraced
  simp only
  split
  · next hempty =>
      have hrest : (options.textOf input).toList = [] := by
        rw [String.toList_eq_nil_iff]
        exact String.isEmpty_iff.mp hempty
      have hblank : Text.dropBlanks (options.textOf input).toList = [] := by
        rw [hrest]
        rfl
      have hitems : ((Lexer.start (options.textOf input)).withValidation options.validate).items =
          ([] : List Spanned).map .ok := Lexer.items_of_end (Lexer.nextToken_of_blank hblank)
      exact (ofLexer_of_tokens rfl hitems ⟨by simp [empty], by simp [empty]⟩ rfl).symm
  · generalize ofLexer _ = reading
    rcases reading with ⟨error | q, log⟩ <;> rfl

/-- A parse that is checked to yield a query of some kind does so. -/
theorem exists_of_any {options : Options} {input : String} {check : Query → Bool}
    (h : (parse options input).toOption.any check = true) :
    ∃ q, parse options input = .ok q ∧ check q = true := by
  cases hparse : parse options input with
  | error error =>
      rw [hparse] at h
      cases h
  | ok q =>
      rw [hparse] at h
      exact ⟨q, rfl, h⟩

theorem refused_of_parse {options : Options} {input : String} {error : Error}
    (h : parse options input = .error error) :
    Refused ((Lexer.start (options.textOf input)).withValidation options.validate) error := by
  rw [parse_eq_ofLexer] at h
  rcases ofLexer_cases ((Lexer.start (options.textOf input)).withValidation options.validate)
    with ⟨_, _, _, _, hok, -⟩ | ⟨found, herror, hrefused⟩
  · rw [h] at hok
    cases hok
  · rw [h] at herror
    cases herror
    exact hrefused

/-- A text is refused at the first place at which no sentence goes on as the text does:
the tokens in front of that place are the beginning of a sentence, and

* a token there is one that no sentence has next;
* at the end of the text, all of its tokens are the beginning of a sentence, and are none;
* an error of the lexer is the one that its stream ends with. -/
theorem parse_eq_error (options : Options) (input : String) (error : Error) :
    parse options input = .error error →
    let lexer := (Lexer.start (options.textOf input)).withValidation options.validate
    let before := lexer.tokensBefore error.place.offset
    Grammar.Viable before ∧
      match error with
      | .syntactic (.unexpectedToken place found _) =>
        ∃ spanned, .ok spanned ∈ lexer.items ∧ spanned.place = place ∧
          spanned.token.describe = found ∧ ¬ Grammar.Viable (before ++ [spanned.token])
      | .syntactic (.unexpectedEnd place _) =>
        place.offset = (options.textOf input).utf8ByteSize ∧
          ∃ tokens : List Spanned, lexer.items = tokens.map .ok ∧
            before = tokens.map Spanned.token ∧ before ∉ Grammar.query
      | .lexical error => lexer.items.getLast? = some (.error error) := by
  intro h
  have hgoing : ((Lexer.start (options.textOf input)).withValidation options.validate).finished =
    false := rfl
  cases refused_of_parse h with
  | @unexpected tokens progress cursor hat hrefuses =>
      cases hcurrent : cursor.current with
      | some spanned =>
          have herror : cursor.unexpected progress.expectation = .syntactic
              (.unexpectedToken spanned.place spanned.token.describe progress.expectation) := by
            rw [Cursor.unexpected, hcurrent]
          rw [herror]
          intro lexer before
          have hitems := hat.stands.items_of_some hgoing hcurrent
          have hbefore : before = tokens.map Spanned.token := Lexer.tokensBefore_item hgoing hitems
          rw [Cursor.token?, hcurrent] at hrefuses
          refine ⟨by rw [hbefore]; exact hat.viable, spanned, ?_, rfl, rfl, ?_⟩
          · rw [show lexer.items = _ from hitems]
            simp
          · rw [hbefore]
            exact not_viable_of_step hat.runs hrefuses
      | none =>
          have herror : cursor.unexpected progress.expectation = .syntactic (.unexpectedEnd
              ⟨cursor.lexer.source.utf8ByteSize, cursor.lexer.place.line⟩
              progress.expectation) := by
            rw [Cursor.unexpected, hcurrent]
          obtain ⟨last, hreads, hlast, hsource⟩ := hat.stands.reads_of_none hcurrent
          rw [herror, hsource]
          intro lexer before
          have hitems := Lexer.items_of_reads hreads hgoing
          rw [hlast, List.append_nil] at hitems
          have hbefore : before = tokens.map Spanned.token := by
            rw [← Lexer.tokensBefore_extent hgoing hreads hlast, Lexer.extent_start]
            rfl
          rw [Cursor.token?, hcurrent] at hrefuses
          refine ⟨by rw [hbefore]; exact hat.viable, rfl, tokens, hitems, hbefore, ?_⟩
          rw [hbefore]
          exact not_mem_query_of_finish hat.runs hrefuses
  | @lexical tokens last error hreads hruns hnext =>
      intro lexer before
      have hlast : last.items = [.error error] :=
        Lexer.items_of_error (hreads.kept.2.2.trans hgoing) (Prod.ext hnext rfl)
      have hitems := Lexer.items_of_reads hreads hgoing
      rw [hlast] at hitems
      have hbefore : before = tokens.map Spanned.token := Lexer.tokensBefore_item hgoing hitems
      refine ⟨?_, ?_⟩
      · rw [hbefore, Grammar.viable_iff_run]
        exact hruns
      · rw [show lexer.items = _ from hitems]
        simp

theorem parse_eq_error_at_bar :
    ∃ error, parse ⟨true, false⟩ " a == 1 or | :b $ " = .error error ∧
      Grammar.Viable (((Lexer.start ((Options.mk true false).textOf " a == 1 or | :b $ ")
        ).withValidation false).tokensBefore error.place.offset) := by
  have hfails : (parse ⟨true, false⟩ " a == 1 or | :b $ ").isOk = false := by decide +kernel
  cases hparse : parse ⟨true, false⟩ " a == 1 or | :b $ " with
  | ok q => rw [hparse] at hfails; cases hfails
  | error error => exact ⟨error, rfl, (parse_eq_error ⟨true, false⟩ _ error hparse).1⟩

end Query

end RecordQuery

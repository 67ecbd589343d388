import RecordQuery.Diagnostic
import RecordQuery.Proofs.Query.Sentence

/-!
# Queries that are read token by token

A query can be read without looking ahead: what the tokens so far have settled is a
value of `Progress`, and `step` says what one more token makes of it, or that no query
goes on with that token.  Two invariants hold along every run.

* Nothing is lost: what the progress holds is written as the tokens that were read
  (`tokens_step`).
* It has the shape of the beginning of a query (`wellFormed_step`).

Together with `run_tokens`, that the tokens of a well-formed query lead to that query,
and `exists_completion`, that no progress is a dead end, they tie the runs to the
grammar: a sequence is a sentence when its run can stop (`mem_query_iff_run`), and it
is viable when it has a run at all (`viable_iff_run`).
-/

namespace RecordQuery

/-! ## What has been read -/

/-- The left side of a join whose right side is to come, if there is one. -/
inductive Pending where
  | nothing
  | join (left : FilterTree) (joiner : Joiner)

/-- The place of a filter: what it will be joined to, and for a filter of a group what
that group will be joined to. -/
structure Slot where
  group : Option Pending
  chain : Pending

/-- How far a query has been read: in front of a filter, and behind each of its parts,
where a list is followed item by item and comma by comma; behind a chain, which stands
in a group if there is one; in front of an action, which is wanted behind the bar and
behind a semicolon; and behind its name and the parameters that it was given so far. -/
inductive Progress where
  | before (slot : Slot)
  | named (slot : Slot) (key : String)
  | compared (slot : Slot) (key : String) (operator : Comparison)
  | opened (slot : Slot) (key : String) (operator : Comparison)
  | listed (slot : Slot) (key : String) (operator : Comparison) (first : Literal)
      (others : List Literal)
  | separated (slot : Slot) (key : String) (operator : Comparison) (first : Literal)
      (others : List Literal)
  | behind (group : Option Pending) (tree : FilterTree)
  | wanting (filter : Option FilterTree) (actions : List Action)
  | invoked (filter : Option FilterTree) (actions : List Action) (key : String)
      (params : List Param)

/-- The tree that a pending join and its right side make. -/
def Pending.fill : Pending → FilterTree → FilterTree
  | nothing, tree => tree
  | join left joiner, tree => .join left joiner tree

namespace Progress

/-- Nothing has been read. -/
def start : Progress := before ⟨none, .nothing⟩

/-- Behind a complete filter. -/
def filled (slot : Slot) (key : String) (operator : Comparison) (operand : Operand) :
    Progress :=
  behind slot.group (slot.chain.fill (.leaf ⟨key, operator, operand⟩))

/-- What one more token makes of the progress, if a query can go on with it. -/
def step : Progress → Token → Option Progress
  | before slot, .key name => some (named slot name)
  | before ⟨none, chain⟩, .mark .openParen => some (before ⟨some chain, .nothing⟩)
  | before ⟨none, .nothing⟩, .mark .pipe => some (wanting none [])
  | named slot key, .comparison operator => some (compared slot key operator)
  | compared slot key operator, .literal value => some (filled slot key operator (.scalar value))
  | compared slot key operator, .mark .openBracket => some (opened slot key operator)
  | opened slot key operator, .literal value => some (listed slot key operator value [])
  | opened slot key operator, .mark .closeBracket => some (filled slot key operator (.list []))
  | listed slot key operator first others, .mark .comma =>
    some (separated slot key operator first others)
  | listed slot key operator first others, .mark .closeBracket =>
    some (filled slot key operator (.list (first :: others)))
  | separated slot key operator first others, .literal value =>
    some (listed slot key operator first (others ++ [value]))
  | behind group tree, .joiner joiner => some (before ⟨group, .join tree joiner⟩)
  | behind (some outer) tree, .mark .closeParen => some (behind none (outer.fill (.group tree)))
  | behind none tree, .mark .pipe => some (wanting (some tree) [])
  | wanting filter actions, .actionKey key => some (invoked filter actions key [])
  | invoked filter actions key params, .key name =>
    some (invoked filter actions key (params ++ [.key name]))
  | invoked filter actions key params, .literal value =>
    some (invoked filter actions key (params ++ [.literal value]))
  | invoked filter actions key (param :: params), .mark .semicolon =>
    some (wanting filter (actions ++ [⟨key, param :: params⟩]))
  | _, _ => none

/-- The query that has been read, if it can end here. -/
def finish : Progress → Option Query
  | before ⟨none, .nothing⟩ => some .empty
  | behind none tree => some ⟨some tree, []⟩
  | invoked filter actions key (param :: params) =>
    some ⟨filter, actions ++ [⟨key, param :: params⟩]⟩
  | _ => none

/-- The progress that a sequence of tokens makes. -/
def run : Progress → List Token → Option Progress
  | progress, [] => some progress
  | progress, token :: tokens => (progress.step token).bind fun next => next.run tokens

/-- What is expected where a query cannot go on. -/
def expectation : Progress → Expectation
  | before ⟨none, .nothing⟩ => .queryStart
  | before ⟨none, .join _ _⟩ => .filterOrParen
  | before ⟨some _, _⟩ => .key
  | named _ _ => .comparison
  | compared _ _ _ => .valueOrArray
  | opened _ _ _ => .value
  | listed _ _ _ _ _ => .commaOrBracket
  | separated _ _ _ _ _ => .value
  | behind none _ => .endOfFilters
  | behind (some _) _ => .joinerOrParen
  | wanting _ _ => .actionKey
  | invoked _ _ _ [] => .actionParameter
  | invoked _ _ _ (_ :: _) => .endOfAction

@[simp] theorem run_nil (progress : Progress) : progress.run [] = some progress := rfl

@[simp] theorem run_cons (progress : Progress) (token : Token) (tokens : List Token) :
    progress.run (token :: tokens) = (progress.step token).bind fun next => next.run tokens :=
  rfl

theorem run_append (progress : Progress) (front back : List Token) :
    progress.run (front ++ back) = (progress.run front).bind fun next => next.run back := by
  induction front generalizing progress with
  | nil => rfl
  | cons token front ih =>
      cases hstep : progress.step token with
      | none => simp [hstep]
      | some next => simp [hstep, ih]

/-- A run along a sequence has a run along each of its beginnings. -/
theorem run_ne_none_of_append {progress : Progress} {front back : List Token}
    (h : progress.run (front ++ back) ≠ none) : progress.run front ≠ none := by
  intro hfront
  rw [run_append, hfront] at h
  exact h rfl

end Progress

/-! ## Nothing is lost -/

/-- A pending join as tokens. -/
def Pending.tokens : Pending → List Token
  | nothing => []
  | join left joiner => left.tokens ++ [.joiner joiner]

@[simp] theorem Pending.tokens_nothing : nothing.tokens = [] := rfl

@[simp] theorem Pending.tokens_join (left : FilterTree) (joiner : Joiner) :
    (join left joiner).tokens = left.tokens ++ [.joiner joiner] := rfl

theorem Pending.tokens_fill (pending : Pending) (tree : FilterTree) :
    (pending.fill tree).tokens = pending.tokens ++ tree.tokens := by
  cases pending with
  | nothing => rfl
  | join left joiner => simp [fill, tokens, FilterTree.tokens]

/-- What stands before a group, with its parenthesis. -/
def Slot.groupTokens : Option Pending → List Token
  | none => []
  | some outer => outer.tokens ++ [.mark .openParen]

@[simp] theorem Slot.groupTokens_none : groupTokens none = [] := rfl

@[simp] theorem Slot.groupTokens_some (outer : Pending) :
    groupTokens (some outer) = outer.tokens ++ [.mark .openParen] := rfl

/-- What stands before a filter. -/
def Slot.tokens (slot : Slot) : List Token :=
  Slot.groupTokens slot.group ++ slot.chain.tokens

namespace Progress

/-- What stands before an action: the actions so far, and a bar or a semicolon. -/
def wantingTokens : List Action → List Token
  | [] => [.mark .pipe]
  | actions => Query.actionTokens actions ++ [.mark .semicolon]

theorem actionTokens_concat (actions : List Action) (action : Action) :
    Query.actionTokens (actions ++ [action]) = wantingTokens actions ++ action.tokens := by
  cases actions with
  | nil => simp [Query.actionTokens, writeSeparated, wantingTokens]
  | cons first others => simp [Query.actionTokens, writeSeparated, wantingTokens]

theorem wantingTokens_concat (actions : List Action) (action : Action) :
    wantingTokens (actions ++ [action]) =
      wantingTokens actions ++ action.tokens ++ [.mark .semicolon] := by
  rw [← actionTokens_concat]
  cases actions <;> rfl

/-- The items of a list as tokens. -/
def itemTokens (items : List Literal) : List Token :=
  writeSeparated (.mark .comma) (fun literal => [.literal literal]) items

/-- What has been read as tokens. -/
def tokens : Progress → List Token
  | before slot => slot.tokens
  | named slot key => slot.tokens ++ [.key key]
  | compared slot key operator => slot.tokens ++ [.key key, .comparison operator]
  | opened slot key operator =>
    slot.tokens ++ [.key key, .comparison operator, .mark .openBracket]
  | listed slot key operator first others =>
    slot.tokens ++ .key key :: .comparison operator :: .mark .openBracket ::
      itemTokens (first :: others)
  | separated slot key operator first others =>
    slot.tokens ++ .key key :: .comparison operator :: .mark .openBracket ::
      (itemTokens (first :: others) ++ [.mark .comma])
  | behind group tree => Slot.groupTokens group ++ tree.tokens
  | wanting filter actions => Query.filterTokens filter ++ wantingTokens actions
  | invoked filter actions key params =>
    Query.filterTokens filter ++ wantingTokens actions ++ Action.tokens ⟨key, params⟩

theorem tokens_filled (slot : Slot) (key : String) (operator : Comparison) (operand : Operand) :
    (filled slot key operator operand).tokens =
      slot.tokens ++ .key key :: .comparison operator :: operand.tokens := by
  simp [filled, tokens, Pending.tokens_fill, Slot.tokens, FilterTree.tokens, Filter.tokens]

/-- One more token is written behind what was read before. -/
theorem tokens_step {progress next : Progress} {token : Token}
    (h : progress.step token = some next) : next.tokens = progress.tokens ++ [token] := by
  fun_cases step progress token
  case case5 | case8 | case10 =>
    -- the filter is complete with this token
    cases h
    rw [tokens_filled]
    simp [tokens, Operand.tokens, itemTokens, writeSeparated]
  case case13 =>
    -- the group is complete with this token
    cases h
    simp [tokens, Pending.tokens_fill, FilterTree.tokens]
  case case18 =>
    -- the action is complete with this token
    cases h
    simp [tokens, wantingTokens_concat]
  case case19 => simp_all [step]
  all_goals
    cases h
    simp [tokens, Slot.tokens, itemTokens, writeSeparated, Query.filterTokens, wantingTokens,
      Action.tokens, Param.token]

theorem tokens_run {progress last : Progress} {tokens : List Token}
    (h : progress.run tokens = some last) : last.tokens = progress.tokens ++ tokens := by
  induction tokens generalizing progress with
  | nil => cases h; simp
  | cons token tokens ih =>
      obtain ⟨next, hstep, hrun⟩ := Option.bind_eq_some_iff.mp h
      rw [ih hrun, tokens_step hstep]
      simp

theorem tokens_finish {progress : Progress} {query : Query}
    (h : progress.finish = some query) : query.tokens = progress.tokens := by
  fun_cases finish progress
  case case1 => cases h; rfl
  case case2 => cases h; simp [Query.tokens, Query.filterTokens, Query.actionTokens, tokens]
  case case3 => cases h; simp [Query.tokens, tokens, actionTokens_concat]
  case case4 => simp_all [finish]

end Progress

/-! ## What has been read has the right shape -/

/-- Whether the left side of a pending join is a chain. -/
def Pending.Holds (isPart : FilterTree → Prop) : Pending → Prop
  | nothing => True
  | join left _ => left.IsChain isPart

theorem Pending.isChain_fill {isPart : FilterTree → Prop} {pending : Pending}
    {tree : FilterTree} (h : pending.Holds isPart) (htree : isPart tree) :
    (pending.fill tree).IsChain isPart := by
  cases pending with
  | nothing => exact .part htree
  | join left joiner => exact .join joiner h htree

/-- What can be joined: plain filters in a group, and operands outside. -/
def Slot.IsPart : Option Pending → FilterTree → Prop
  | none => FilterTree.IsOperand
  | some _ => FilterTree.IsFilter

theorem Slot.isPart_leaf (group : Option Pending) (filter : Filter) :
    IsPart group (.leaf filter) := by
  cases group with
  | none => exact .leaf filter
  | some outer => exact .leaf filter

/-- Both pending joins of a slot are the beginning of a chain. -/
structure Slot.WellFormed (slot : Slot) : Prop where
  group : ∀ outer ∈ slot.group, outer.Holds FilterTree.IsOperand
  chain : slot.chain.Holds (IsPart slot.group)

namespace Progress

/-- What has been read has the shape of the beginning of a query. -/
def WellFormed : Progress → Prop
  | before slot | named slot _ | compared slot _ _ | opened slot _ _ | listed slot _ _ _ _
  | separated slot _ _ _ _ => slot.WellFormed
  | behind group tree =>
    (∀ outer ∈ group, outer.Holds FilterTree.IsOperand) ∧ tree.IsChain (Slot.IsPart group)
  | wanting filter actions | invoked filter actions _ _ => Query.WellFormed ⟨filter, actions⟩

theorem wellFormed_start : start.WellFormed := ⟨by simp, trivial⟩

theorem wellFormed_filled {slot : Slot} (h : slot.WellFormed) (key : String)
    (operator : Comparison) (operand : Operand) :
    (filled slot key operator operand).WellFormed :=
  ⟨h.group, Pending.isChain_fill h.chain (Slot.isPart_leaf _ _)⟩

theorem wellFormed_concat {filter : Option FilterTree} {actions : List Action}
    (h : Query.WellFormed ⟨filter, actions⟩) (key : String) (param : Param)
    (params : List Param) :
    Query.WellFormed ⟨filter, actions ++ [⟨key, param :: params⟩]⟩ := by
  refine ⟨h.filter, fun action haction => ?_⟩
  rcases List.mem_append.mp haction with haction | haction
  · exact h.actions action haction
  · rw [List.mem_singleton.mp haction]
    simp

theorem wellFormed_step {progress next : Progress} {token : Token} (h : progress.WellFormed)
    (hstep : progress.step token = some next) : next.WellFormed := by
  fun_cases step progress token
  case case2 => cases hstep; exact ⟨by rintro _ ⟨⟩; exact h.chain, trivial⟩
  case case3 => cases hstep; exact ⟨by simp, by simp⟩
  case case5 | case8 | case10 => cases hstep; exact wellFormed_filled h _ _ _
  case case12 => cases hstep; exact ⟨h.1, h.2⟩
  case case13 => cases hstep; exact ⟨by simp, Pending.isChain_fill (h.1 _ rfl) (.group h.2)⟩
  case case14 => cases hstep; exact ⟨by rintro _ ⟨⟩; exact h.2, by simp⟩
  case case18 => cases hstep; exact wellFormed_concat h _ _ _
  case case19 => simp_all [step]
  all_goals cases hstep; exact h

theorem wellFormed_run {progress last : Progress} {tokens : List Token}
    (h : progress.WellFormed) (hrun : progress.run tokens = some last) : last.WellFormed := by
  induction tokens generalizing progress with
  | nil => cases hrun; exact h
  | cons token tokens ih =>
      obtain ⟨next, hstep, hnext⟩ := Option.bind_eq_some_iff.mp hrun
      exact ih (wellFormed_step h hstep) hnext

theorem wellFormed_finish {progress : Progress} {query : Query} (h : progress.WellFormed)
    (hfinish : progress.finish = some query) : query.WellFormed := by
  fun_cases finish progress
  case case1 => cases hfinish; exact ⟨by simp [Query.empty], by simp [Query.empty]⟩
  case case2 => cases hfinish; exact ⟨by rintro _ ⟨⟩; exact h.2, by simp⟩
  case case3 => cases hfinish; exact wellFormed_concat h _ _ _
  case case4 => simp_all [finish]

end Progress

/-! ## The tokens of a well-formed query lead to that query -/

namespace Progress

theorem run_operand (slot : Slot) (key : String) (operator : Comparison) (operand : Operand) :
    (compared slot key operator).run operand.tokens = some (filled slot key operator operand) := by
  cases operand with
  | scalar literal => rfl
  | list items =>
      cases items with
      | nil => rfl
      | cons first others =>
          -- item by item, what has been read of the list grows at its end
          have hitems : ∀ read, (listed slot key operator first read).run
              ((others.flatMap fun item => [.mark .comma, .literal item]) ++ [.mark .closeBracket])
                = some (filled slot key operator (.list (first :: (read ++ others)))) := by
            induction others with
            | nil => intro read; simp [step]
            | cons item others ih =>
                intro read
                simpa [step] using ih (read ++ [item])
          simpa [Operand.tokens, writeSeparated, step] using hitems []

theorem run_filter (slot : Slot) (filter : Filter) :
    (before slot).run filter.tokens =
      some (behind slot.group (slot.chain.fill (.leaf filter))) :=
  run_operand slot filter.key filter.operator filter.operand

/-- A chain leads behind that chain, if each of its parts is read as the next part. -/
theorem run_chain {isPart : FilterTree → Prop} {group : Option Pending}
    (hpart : ∀ tree, isPart tree → ∀ chain,
      (before ⟨group, chain⟩).run tree.tokens = some (behind group (chain.fill tree)))
    {tree : FilterTree} (h : tree.IsChain isPart) :
    (before ⟨group, .nothing⟩).run tree.tokens = some (behind group tree) := by
  induction h with
  | part h => exact hpart _ h .nothing
  | join joiner _ hright ih =>
      rw [FilterTree.tokens, run_append, ih]
      exact hpart _ hright (.join _ joiner)

theorem run_filterOrGroup {tree : FilterTree} (h : tree.IsOperand) (chain : Pending) :
    (before ⟨none, chain⟩).run tree.tokens = some (behind none (chain.fill tree)) := by
  cases h with
  | leaf filter => exact run_filter ⟨none, chain⟩ filter
  | @group inner hinner =>
      have hleaf : ∀ tree : FilterTree, tree.IsFilter → ∀ pending,
          (before ⟨some chain, pending⟩).run tree.tokens =
            some (behind (some chain) (pending.fill tree)) := by
        rintro _ ⟨filter⟩ pending
        exact run_filter ⟨some chain, pending⟩ filter
      have hopen : (before ⟨none, chain⟩).step (.mark .openParen) =
          some (before ⟨some chain, .nothing⟩) := rfl
      rw [FilterTree.tokens, run_cons, hopen, Option.bind_some, run_append,
        run_chain hleaf hinner]
      rfl

theorem run_params (filter : Option FilterTree) (actions : List Action) (key : String)
    (given params : List Param) :
    (invoked filter actions key given).run (params.map Param.token) =
      some (invoked filter actions key (given ++ params)) := by
  induction params generalizing given with
  | nil => simp
  | cons param params ih =>
      have hparam : (invoked filter actions key given).step param.token =
          some (invoked filter actions key (given ++ [param])) := by
        cases param <;> rfl
      rw [List.map_cons, run_cons, hparam, Option.bind_some, ih, List.append_assoc]
      rfl

theorem run_action (filter : Option FilterTree) (actions : List Action) (action : Action) :
    (wanting filter actions).run action.tokens =
      some (invoked filter actions action.key action.params) := by
  simpa [Action.tokens, step] using run_params filter actions action.key [] action.params

/-- Further actions are read behind an action that has a parameter. -/
theorem run_actions (filter : Option FilterTree) (before : List Action) (action : Action)
    (others : List Action) (haction : action.params ≠ [])
    (hothers : ∀ other ∈ others, other.params ≠ []) :
    ∃ last, (invoked filter before action.key action.params).run
        (others.flatMap fun other => .mark .semicolon :: other.tokens) = some last ∧
      last.finish = some ⟨filter, before ++ action :: others⟩ := by
  induction others generalizing before action with
  | nil =>
      obtain ⟨key, params⟩ := action
      cases params with
      | nil => exact absurd rfl haction
      | cons param params => exact ⟨_, rfl, rfl⟩
  | cons next others ih =>
      obtain ⟨last, hrun, hlast⟩ := ih (before ++ [action]) next (hothers next List.mem_cons_self)
        fun other hother => hothers other (List.mem_cons_of_mem _ hother)
      refine ⟨last, ?_, by simpa using hlast⟩
      obtain ⟨key, params⟩ := action
      cases params with
      | nil => exact absurd rfl haction
      | cons param params =>
          -- the semicolon closes this action and wants the next one
          have hnext : (invoked filter before key (param :: params)).step (.mark .semicolon) =
              some (wanting filter (before ++ [⟨key, param :: params⟩])) := rfl
          rw [List.flatMap_cons, List.cons_append, run_cons, hnext, Option.bind_some, run_append,
            run_action]
          exact hrun

theorem run_tokens {query : Query} (h : query.WellFormed) :
    ∃ last, start.run query.tokens = some last ∧ last.finish = some query := by
  obtain ⟨filter, actions⟩ := query
  -- behind the filters, if there are any, the bar or the end can follow
  have hfilter : ∃ middle, start.run (Query.filterTokens filter) = some middle ∧
      middle.finish = some ⟨filter, []⟩ ∧
      middle.step (.mark .pipe) = some (wanting filter []) := by
    cases filter with
    | none => exact ⟨start, rfl, rfl, rfl⟩
    | some tree =>
        exact ⟨_, run_chain (fun _ => run_filterOrGroup) (h.filter tree rfl), rfl, rfl⟩
  obtain ⟨middle, hrun, hfinish, hpipe⟩ := hfilter
  rw [Query.tokens, run_append, hrun, Option.bind_some]
  cases actions with
  | nil => exact ⟨middle, rfl, hfinish⟩
  | cons action others =>
      obtain ⟨last, hlast, hquery⟩ := run_actions filter [] action others
        (h.actions action List.mem_cons_self)
        fun other hother => h.actions other (List.mem_cons_of_mem _ hother)
      refine ⟨last, ?_, hquery⟩
      show middle.run (.mark .pipe :: writeSeparated _ Action.tokens (action :: others)) = some last
      rw [run_cons, hpipe, Option.bind_some, writeSeparated, run_append, run_action]
      exact hlast

end Progress

/-! ## No progress is a dead end -/

namespace Progress

/-- Tokens that complete the filter, the group, and the query. -/
def closing : Option Pending → List Token
  | none => []
  | some _ => [.mark .closeParen]

/-- Tokens that complete a query. -/
def completion : Progress → List Token
  | before ⟨none, .nothing⟩ => []
  | before ⟨none, .join _ _⟩ => [.key "", .comparison .equal, .literal (.integer 0)]
  | before ⟨some _, _⟩ =>
    [.key "", .comparison .equal, .literal (.integer 0), .mark .closeParen]
  | named slot _ => .comparison .equal :: .literal (.integer 0) :: closing slot.group
  | compared slot _ _ => .literal (.integer 0) :: closing slot.group
  | opened slot _ _ | listed slot _ _ _ _ => .mark .closeBracket :: closing slot.group
  | separated slot _ _ _ _ =>
    .literal (.integer 0) :: .mark .closeBracket :: closing slot.group
  | behind group _ => closing group
  | wanting _ _ => [.actionKey "", .key ""]
  | invoked _ _ _ [] => [.key ""]
  | invoked _ _ _ (_ :: _) => []

theorem run_closing (group : Option Pending) (tree : FilterTree) :
    ∃ last, (behind group tree).run (closing group) = some last ∧ last.finish ≠ none := by
  cases group with
  | none => exact ⟨_, rfl, Option.some_ne_none _⟩
  | some outer => exact ⟨_, rfl, Option.some_ne_none _⟩

theorem exists_completion (progress : Progress) :
    ∃ last, progress.run progress.completion = some last ∧ last.finish ≠ none := by
  fun_cases completion progress
  case case4 | case5 | case6 | case7 | case8 | case9 => exact run_closing _ _
  all_goals exact ⟨_, rfl, Option.some_ne_none _⟩

end Progress

/-! ## Runs and sentences -/

namespace Grammar

open Progress

/-- A sequence is a sentence when its run can end there. -/
theorem mem_query_iff_run (tokens : List Token) :
    tokens ∈ query ↔ ∃ last, start.run tokens = some last ∧ last.finish ≠ none := by
  rw [mem_query]
  constructor
  · rintro ⟨q, hq, rfl⟩
    obtain ⟨last, hrun, hlast⟩ := run_tokens hq
    exact ⟨last, hrun, by simp [hlast]⟩
  · rintro ⟨last, hrun, hlast⟩
    obtain ⟨q, hq⟩ := Option.ne_none_iff_exists'.mp hlast
    refine ⟨q, wellFormed_finish (wellFormed_run wellFormed_start hrun) hq, ?_⟩
    rw [tokens_finish hq, tokens_run hrun]
    rfl

/-- A sequence can be continued to a sentence when it has a run at all. -/
theorem viable_iff_run (tokens : List Token) : Viable tokens ↔ start.run tokens ≠ none := by
  constructor
  · rintro ⟨more, hmore⟩
    obtain ⟨last, hrun, _⟩ := (mem_query_iff_run _).mp hmore
    have hne : start.run (tokens ++ more) ≠ none := by simp [hrun]
    exact run_ne_none_of_append hne
  · intro h
    obtain ⟨progress, hrun⟩ := Option.ne_none_iff_exists'.mp h
    obtain ⟨last, hlast, hfinish⟩ := exists_completion progress
    refine ⟨progress.completion, (mem_query_iff_run _).mpr ⟨last, ?_, hfinish⟩⟩
    rw [run_append, hrun]
    exact hlast

/-- A sequence that has a run can be continued with each token that its progress goes on
with. -/
theorem viable_concat_iff {tokens : List Token} {progress : Progress}
    (h : start.run tokens = some progress) (token : Token) :
    Viable (tokens ++ [token]) ↔ progress.step token ≠ none := by
  rw [viable_iff_run, run_append, h, Option.bind_some, run_cons]
  cases progress.step token with
  | none => rfl
  | some next => simp

end Grammar

/-- No two well-formed queries are written as the same tokens. -/
theorem Query.eq_of_tokens_eq {first second : Query} (hfirst : first.WellFormed)
    (hsecond : second.WellFormed) (h : first.tokens = second.tokens) : first = second := by
  obtain ⟨last, hrun, hlast⟩ := Progress.run_tokens hfirst
  obtain ⟨last', hrun', hlast'⟩ := Progress.run_tokens hsecond
  rw [h, hrun'] at hrun
  cases hrun
  exact Option.some.inj (hlast.symm.trans hlast')

end RecordQuery

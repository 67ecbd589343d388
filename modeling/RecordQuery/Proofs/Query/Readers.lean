import RecordQuery.Proofs.Query.Triple

/-!
# Each reader of the grammar makes its part of the progress

One triple for each reader: where it starts, and where it has led when it yields a
result.  That it fails only for a reason is part of every triple; the reason is that what
is in view lacks everything that could go on the query, and each progress has a lemma for
that (`refuses_named` and its like).  The last triple, `triple_query`, starts in front of
the whole text.
-/

namespace RecordQuery.Reader

open Progress

variable {origin : Lexer} {sees : Option Token → Prop}

/-! ## Marks and literals -/

theorem step_of_isMark? {here next : Progress} {mark : Mark}
    (h : here.step (.mark mark) = some next) (token : Token) (content : Unit)
    (htoken : isMark? mark token = some content) : here.step token = some next := by
  cases token with
  | mark found =>
      by_cases hfound : found = mark
      · rw [hfound]
        exact h
      · simp [isMark?, hfound] at htoken
  | _ => cases htoken

theorem step_of_literalOf? {here : Progress} {next : Literal → Progress}
    (h : ∀ literal, here.step (.literal literal) = some (next literal)) (token : Token)
    (literal : Literal) (htoken : literalOf? token = some literal) :
    here.step token = some (next literal) := by
  cases token with
  | literal written =>
      cases htoken
      exact h literal
  | _ => cases htoken

/-- A mark that is lacked is not the one in view. -/
theorem ne_of_isMark? {mark found : Mark} (h : isMark? mark (.mark found) = none) :
    found ≠ mark := by
  rintro rfl
  simp [isMark?] at h

theorem lacks_isMark? {mark : Mark} {look : Option Token} (h : look ≠ some (.mark mark)) :
    Lacks (isMark? mark) look := by
  rcases look with _ | token
  · rfl
  · cases token with
    | mark found =>
        have hne : found ≠ mark := fun heq => h (by rw [heq])
        simp [Lacks, isMark?, hne]
    | _ => rfl

theorem lacks_keyOf? {look : Option Token} (h : ∀ name, look ≠ some (.key name)) :
    Lacks keyOf? look := by
  rcases look with _ | token
  · rfl
  · cases token with
    | key name => exact absurd rfl (h name)
    | _ => rfl

/-! ## What each progress refuses -/

section Refusals

variable {slot : Slot} {key : String} {operator : Comparison} {first : Literal}
  {others : List Literal} {filter : Option FilterTree} {before : List Action}
  {look : Option Token}

/-- The end is refused and so is each token that lacks what could go on the query. -/
theorem refuses_of_step {here : Progress} (hfinish : here.finish = none)
    (hstep : ∀ token, look = some token → here.step token = none) : here.Refuses look := by
  cases look with
  | none => exact hfinish
  | some token => exact hstep token rfl

theorem refuses_named (hcomparison : Lacks comparisonOf? look) :
    (named slot key).Refuses look := by
  refine refuses_of_step rfl ?_
  rintro token rfl
  cases token with
  | comparison operator => cases hcomparison
  | _ => rfl

theorem refuses_compared (hopen : Lacks (isMark? .openBracket) look)
    (hliteral : Lacks literalOf? look) : (compared slot key operator).Refuses look := by
  refine refuses_of_step rfl ?_
  rintro token rfl
  cases token with
  | literal literal => cases hliteral
  | mark mark =>
      have hmark := ne_of_isMark? hopen
      cases mark <;> first | rfl | exact absurd rfl hmark
  | _ => rfl

theorem refuses_opened (hclose : Lacks (isMark? .closeBracket) look)
    (hliteral : Lacks literalOf? look) : (opened slot key operator).Refuses look := by
  refine refuses_of_step rfl ?_
  rintro token rfl
  cases token with
  | literal literal => cases hliteral
  | mark mark =>
      have hmark := ne_of_isMark? hclose
      cases mark <;> first | rfl | exact absurd rfl hmark
  | _ => rfl

theorem refuses_listed (hcomma : Lacks (isMark? .comma) look)
    (hclose : Lacks (isMark? .closeBracket) look) :
    (listed slot key operator first others).Refuses look := by
  refine refuses_of_step rfl ?_
  rintro token rfl
  cases token with
  | mark mark =>
      have hcomma := ne_of_isMark? hcomma
      have hclose := ne_of_isMark? hclose
      cases mark <;> first | rfl | exact absurd rfl hcomma | exact absurd rfl hclose
  | _ => rfl

theorem refuses_separated (hliteral : Lacks literalOf? look) :
    (separated slot key operator first others).Refuses look := by
  refine refuses_of_step rfl ?_
  rintro token rfl
  cases token with
  | literal literal => cases hliteral
  | _ => rfl

/-- Only a filter can stand in a group. -/
theorem refuses_before_group {outer chain : Pending} (hkey : Lacks keyOf? look) :
    (Progress.before ⟨some outer, chain⟩).Refuses look := by
  refine refuses_of_step rfl ?_
  rintro token rfl
  cases token with
  | key name => cases hkey
  | mark mark => cases mark <;> rfl
  | _ => rfl

/-- Behind a joiner, a filter or a group has to follow. -/
theorem refuses_before_join {left : FilterTree} {joiner : Joiner} (hkey : Lacks keyOf? look)
    (hopen : Lacks (isMark? .openParen) look) :
    (Progress.before ⟨none, .join left joiner⟩).Refuses look := by
  refine refuses_of_step rfl ?_
  rintro token rfl
  cases token with
  | key name => cases hkey
  | mark mark =>
      have hmark := ne_of_isMark? hopen
      cases mark <;> first | rfl | exact absurd rfl hmark
  | _ => rfl

theorem refuses_behind_group {outer : Pending} {tree : FilterTree}
    (hjoiner : Lacks joinerOf? look) (hclose : Lacks (isMark? .closeParen) look) :
    (behind (some outer) tree).Refuses look := by
  refine refuses_of_step rfl ?_
  rintro token rfl
  cases token with
  | joiner joiner => cases hjoiner
  | mark mark =>
      have hmark := ne_of_isMark? hclose
      cases mark <;> first | rfl | exact absurd rfl hmark
  | _ => rfl

theorem refuses_wanting (hkey : Lacks actionKeyOf? look) :
    (wanting filter before).Refuses look := by
  refine refuses_of_step rfl ?_
  rintro token rfl
  cases token with
  | actionKey key => cases hkey
  | _ => rfl

/-- An action needs a parameter. -/
theorem refuses_invoked (hparam : Lacks paramOf? look) :
    (invoked filter before key []).Refuses look := by
  refine refuses_of_step rfl ?_
  rintro token rfl
  cases token with
  | key name => cases hparam
  | literal literal => cases hparam
  | mark mark => cases mark <;> rfl
  | _ => rfl

end Refusals

/-! ## Operands -/

theorem triple_nextItem? (slot : Slot) (key : String) (operator : Comparison) (first : Literal)
    (others : List Literal) :
    Triple origin (Facing (listed slot key operator first others) sees) nextItem?
      (IfAny (fun item => Facing (listed slot key operator first (others ++ [item])) fun _ => True)
        (Facing (listed slot key operator first others) fun look =>
          sees look ∧ Lacks (isMark? .comma) look)) := by
  refine Triple.bind (Triple.accept? (fun _ => separated slot key operator first others)
    (step_of_isMark? rfl)) ?_
  rintro (_ | ⟨⟩)
  · exact Triple.pure fun _ _ h => h
  · exact Triple.map (Triple.accept
      (fun item => listed slot key operator first (others ++ [item]))
      (step_of_literalOf? fun _ => rfl)
      fun _ _ hliteral => ⟨refuses_separated hliteral, rfl⟩)

theorem triple_listItems (slot : Slot) (key : String) (operator : Comparison) :
    Triple origin (Facing (opened slot key operator) sees) listItems fun items =>
      Facing (filled slot key operator (.list items)) fun _ => True := by
  refine Triple.bind (Triple.accept? (fun _ => filled slot key operator (.list []))
    (step_of_isMark? rfl)) ?_
  rintro (_ | ⟨⟩)
  · refine Triple.bind (Triple.accept (fun first => listed slot key operator first [])
      (step_of_literalOf? fun _ => rfl)
      fun _ hclose hliteral => ⟨refuses_opened hclose.2 hliteral, rfl⟩) fun first => ?_
    have hothers : Triple origin (Facing (listed slot key operator first []) fun _ => True)
        (many nextItem?) fun others => Facing (listed slot key operator first others) fun look =>
          True ∧ Lacks (isMark? .comma) look :=
      Triple.many (listed slot key operator first) (fun _ _ => True)
        (by simp [tokens, itemTokens, writeSeparated])
        (triple_nextItem? slot key operator first)
    refine Triple.bind hothers fun others => ?_
    exact Triple.bind (Triple.accept
      (fun _ => filled slot key operator (.list (first :: others))) (step_of_isMark? rfl)
      fun _ hcomma hclose => ⟨refuses_listed hcomma.2 hclose, rfl⟩)
      fun _ => Triple.pure fun _ _ h => h
  · exact Triple.pure fun _ _ h => h

theorem triple_operand (slot : Slot) (key : String) (operator : Comparison) :
    Triple origin (Facing (compared slot key operator) sees) operand fun operand =>
      Facing (filled slot key operator operand) fun _ => True := by
  refine Triple.bind (Triple.accept? (fun _ => opened slot key operator)
    (step_of_isMark? rfl)) ?_
  rintro (_ | ⟨⟩)
  · exact Triple.map (Triple.accept
      (fun literal => filled slot key operator (.scalar literal))
      (step_of_literalOf? fun _ => rfl)
      fun _ hopen hliteral => ⟨refuses_compared hopen.2 hliteral, rfl⟩)
  · exact Triple.map (triple_listItems slot key operator)

/-! ## Filters -/

/-- Filters fill any place; what is in view there has to be a key. -/
theorem triple_filter (slot : Slot)
    (hkey : ∀ look, sees look → Lacks keyOf? look →
      (before slot).Refuses look ∧ (before slot).expectation = .key) :
    Triple origin (Facing (before slot) sees) filter fun filter =>
      Facing (behind slot.group (slot.chain.fill (.leaf filter))) fun _ => True := by
  refine Triple.bind (Triple.accept (named slot) ?_ hkey) fun key => ?_
  · intro token name h
    cases token <;> cases h
    cases slot with
    | mk group chain => cases group <;> cases chain <;> rfl
  refine Triple.bind (Triple.accept (compared slot key) ?_
    fun _ _ hcomparison => ⟨refuses_named hcomparison, rfl⟩) fun operator => ?_
  · intro token operator h
    cases token <;> cases h
    rfl
  · exact Triple.bind (triple_operand slot key operator) fun operand => Triple.pure fun _ _ h => h

theorem triple_link? {part : Reader FilterTree} (group : Option Pending) (tree : FilterTree)
    (hpart : ∀ left joiner,
      Triple origin (Facing (before ⟨group, .join left joiner⟩) fun _ => True) part fun right =>
        Facing (behind group (.join left joiner right)) fun _ => True) :
    Triple origin (Facing (behind group tree) sees) (link? part)
      (IfAny (fun (joiner, right) =>
          Facing (behind group (.join tree joiner right)) fun _ => True)
        (Facing (behind group tree) fun look => sees look ∧ Lacks joinerOf? look)) := by
  refine Triple.bind (Triple.accept?
    (fun joiner => before ⟨group, .join tree joiner⟩) ?_) ?_
  · intro token joiner h
    cases token <;> cases h
    rfl
  · rintro (_ | joiner)
    · exact Triple.pure fun _ _ h => h
    · exact Triple.bind (hpart tree joiner) fun right => Triple.pure fun _ _ h => h

theorem triple_chainOf {part : Reader FilterTree} (group : Option Pending)
    (hfirst : Triple origin (Facing (before ⟨group, .nothing⟩) sees) part fun tree =>
      Facing (behind group tree) fun _ => True)
    (hpart : ∀ left joiner,
      Triple origin (Facing (before ⟨group, .join left joiner⟩) fun _ => True) part fun right =>
        Facing (behind group (.join left joiner right)) fun _ => True) :
    Triple origin (Facing (before ⟨group, .nothing⟩) sees) (chainOf part) fun tree =>
      Facing (behind group tree) (Lacks joinerOf?) := by
  refine Triple.bind hfirst fun first => ?_
  -- the chain so far is the left side of the next link
  have hlinks : Triple origin (Facing (behind group first) fun _ => True) (many (link? part))
      fun links => Facing (behind group (first.chain links)) (Lacks joinerOf?) := by
    refine Triple.many (fun links => behind group (first.chain links)) (fun _ _ => True) ?_ ?_
    · rintro links ⟨joiner, right⟩
      simp [FilterTree.chain, tokens, FilterTree.tokens]
    · intro links
      refine (triple_link? group (first.chain links) hpart).weaken (fun _ _ h => h) ?_
      rintro (_ | ⟨joiner, right⟩) progress look h
      · exact ⟨h.1, h.2.2⟩
      · simpa [FilterTree.chain, IfAny] using h
  exact Triple.bind hlinks fun links => Triple.pure fun _ _ h => h

/-- Filters of a group are joined to each other. -/
theorem triple_groupChain (outer : Pending) :
    Triple origin (Facing (before ⟨some outer, .nothing⟩) sees) (chainOf (.leaf <$> filter))
      fun tree => Facing (behind (some outer) tree) (Lacks joinerOf?) := by
  refine triple_chainOf (some outer) (Triple.map ?_) fun left joiner => Triple.map ?_
  · exact triple_filter ⟨some outer, .nothing⟩ fun _ _ hkey => ⟨refuses_before_group hkey, rfl⟩
  · exact triple_filter ⟨some outer, .join left joiner⟩
      fun _ _ hkey => ⟨refuses_before_group hkey, rfl⟩

theorem triple_filterOrGroup (chain : Pending) :
    Triple origin (Facing (before ⟨none, chain⟩) fun look =>
        chain = .nothing → startsFilters look = true) filterOrGroup fun tree =>
      Facing (behind none (chain.fill tree)) fun _ => True := by
  refine Triple.bind Triple.peek fun look => ?_
  split
  · -- a plain filter
    next name =>
      have hfilter : Triple origin (Facing (before ⟨none, chain⟩) fun look =>
          look = some (.key name)) filter fun filter =>
            Facing (behind none (chain.fill (.leaf filter))) fun _ => True := by
        refine triple_filter ⟨none, chain⟩ ?_
        rintro _ rfl hlacks
        cases hlacks
      refine Triple.map (hfilter.weaken ?_ fun _ _ _ h => h)
      rintro progress look ⟨rfl, rfl, _⟩
      exact ⟨rfl, rfl⟩
  · -- a group, which puts the chain so far aside until it is closed
    have hopen : Triple origin (fun progress look => look = some (.mark .openParen) ∧
        Facing (before ⟨none, chain⟩) (fun look => chain = .nothing → startsFilters look = true)
          progress (some (.mark .openParen))) advance
        fun _ => Facing (before ⟨some chain, .nothing⟩) fun _ => True := by
      refine Triple.advance ?_
      rintro progress look ⟨rfl, rfl, _⟩
      cases chain <;> exact ⟨_, _, rfl, rfl, fun _ => ⟨rfl, trivial⟩⟩
    refine Triple.bind hopen fun _ => ?_
    refine Triple.bind (triple_groupChain chain) fun inner => ?_
    exact Triple.bind (Triple.accept (fun _ => behind none (chain.fill (.group inner)))
      (step_of_isMark? rfl)
      fun _ hjoiner hclose => ⟨refuses_behind_group hjoiner hclose, rfl⟩)
      fun _ => Triple.pure fun _ _ h => h
  · -- neither
    next hkey hopen =>
      refine Triple.fail ?_
      rintro progress look ⟨rfl, rfl, hstarts⟩
      cases chain with
      | nothing =>
          have := hstarts rfl
          unfold startsFilters at this
          split at this
          · exact absurd rfl (hkey _)
          · exact absurd rfl hopen
          · cases this
      | join left joiner =>
          exact ⟨refuses_before_join (lacks_keyOf? hkey) (lacks_isMark? hopen), rfl⟩

/-- What has been read where the filters have been. -/
def filtersRead : Option FilterTree → Progress
  | none => start
  | some tree => behind none tree

/-- What is in view could not have belonged to the filters. -/
def EndsFilters (filter : Option FilterTree) (look : Option Token) : Prop :=
  match filter with
  | none => startsFilters look = false
  | some _ => Lacks joinerOf? look

theorem triple_filters? :
    Triple origin (Facing start sees) filters? fun filter =>
      Facing (filtersRead filter) (EndsFilters filter) := by
  refine Triple.bind Triple.peek fun look => ?_
  split
  · next hstarts =>
      have hchain : Triple origin (Facing start fun look =>
          Pending.nothing = .nothing → startsFilters look = true) (chainOf filterOrGroup)
          fun tree => Facing (behind none tree) (Lacks joinerOf?) :=
        triple_chainOf none (triple_filterOrGroup .nothing) fun left joiner =>
          (triple_filterOrGroup (.join left joiner)).weaken
            (fun _ _ h => ⟨h.1, fun hnothing => nomatch hnothing⟩) fun _ _ _ h => h
      refine Triple.map (hchain.weaken ?_ fun _ _ _ h => h)
      rintro progress _ ⟨rfl, rfl, _⟩
      exact ⟨rfl, fun _ => hstarts⟩
  · next hstarts =>
      refine Triple.pure ?_
      rintro progress _ ⟨rfl, rfl, _⟩
      exact ⟨rfl, Bool.eq_false_iff.mpr hstarts⟩

/-! ## Actions -/

theorem triple_action (filter : Option FilterTree) (before : List Action) :
    Triple origin (Facing (wanting filter before) sees) action fun action =>
      Facing (invoked filter before action.key action.params) fun look =>
        action.params ≠ [] ∧ Lacks paramOf? look := by
  refine Triple.bind (Triple.accept (fun key => invoked filter before key []) ?_
    fun _ _ hkey => ⟨refuses_wanting hkey, rfl⟩) fun key => ?_
  · intro token name h
    cases token <;> cases h
    rfl
  have hparams : Triple origin (Facing (invoked filter before key []) fun _ => True)
      (many (accept? paramOf?)) fun params =>
        Facing (invoked filter before key params) (Lacks paramOf?) := by
    refine Triple.many (invoked filter before key) (fun _ _ => True) ?_ fun params => ?_
    · simp [tokens, Action.tokens]
    · refine (Triple.accept? (fun param => invoked filter before key (params ++ [param]))
        ?_).weaken (fun _ _ h => h) ?_
      · intro token param h
        cases token <;> cases h <;> rfl
      · rintro (_ | param) progress look h
        · exact ⟨h.1, h.2.2⟩
        · exact h
  refine Triple.bind hparams fun params => ?_
  cases params with
  | nil =>
      refine Triple.fail ?_
      rintro progress look ⟨rfl, hlacks⟩
      exact ⟨refuses_invoked hlacks, rfl⟩
  | cons param params =>
      refine Triple.pure ?_
      rintro progress look ⟨rfl, hlacks⟩
      exact ⟨rfl, by simp, hlacks⟩

theorem step_invoked (filter : Option FilterTree) (before : List Action) {action : Action}
    (h : action.params ≠ []) : (invoked filter before action.key action.params).step
      (.mark .semicolon) = some (wanting filter (before ++ [action])) := by
  obtain ⟨key, _ | ⟨param, params⟩⟩ := action
  · exact absurd rfl h
  · rfl

theorem finish_invoked (filter : Option FilterTree) (before : List Action) {action : Action}
    (h : action.params ≠ []) : (invoked filter before action.key action.params).finish =
      some ⟨filter, before ++ [action]⟩ := by
  obtain ⟨key, _ | ⟨param, params⟩⟩ := action
  · exact absurd rfl h
  · rfl

/-- The last of some actions. -/
def lastAction (first : Action) (others : List Action) : Action :=
  (first :: others).getLast (List.cons_ne_nil first others)

/-- What has been read behind actions, the last of which is still open. -/
def actionsRead (filter : Option FilterTree) (first : Action) (others : List Action) : Progress :=
  invoked filter (first :: others).dropLast (lastAction first others).key
    (lastAction first others).params

/-- The last action has a parameter, and what is in view is none. -/
def EndsAction (first : Action) (others : List Action) (look : Option Token) : Prop :=
  (lastAction first others).params ≠ [] ∧ Lacks paramOf? look

theorem lastAction_concat (first : Action) (others : List Action) (action : Action) :
    lastAction first (others ++ [action]) = action :=
  List.getLast_append_singleton (first :: others)

theorem dropLast_append_lastAction (first : Action) (others : List Action) :
    (first :: others).dropLast ++ [lastAction first others] = first :: others :=
  List.dropLast_append_getLast _

theorem actionsRead_concat (filter : Option FilterTree) (first : Action) (others : List Action)
    (action : Action) : actionsRead filter first (others ++ [action]) =
      invoked filter (first :: others) action.key action.params := by
  rw [actionsRead, lastAction_concat, ← List.cons_append, List.dropLast_concat]

theorem tokens_actionsRead (filter : Option FilterTree) (first : Action) (others : List Action) :
    (actionsRead filter first others).tokens = Query.tokens ⟨filter, first :: others⟩ := by
  rw [Query.tokens, ← dropLast_append_lastAction, actionTokens_concat]
  simp [actionsRead, tokens]

theorem triple_nextAction? (filter : Option FilterTree) (first : Action) (others : List Action) :
    Triple origin (Facing (actionsRead filter first others) (EndsAction first others)) nextAction?
      (IfAny (fun action => Facing (actionsRead filter first (others ++ [action]))
          (EndsAction first (others ++ [action])))
        (Facing (actionsRead filter first others) fun look =>
          EndsAction first others look ∧ Lacks (isMark? .semicolon) look)) := by
  refine Triple.assume (fun _ _ h => h.2.1) fun hparams => ?_
  refine Triple.bind (Triple.accept? (fun _ => wanting filter (first :: others))
    (step_of_isMark? ?_)) ?_
  · rw [actionsRead, step_invoked filter _ hparams, dropLast_append_lastAction]
  rintro (_ | ⟨⟩)
  · exact Triple.pure fun _ _ h => h
  · refine Triple.map ((triple_action filter (first :: others)).weaken (fun _ _ h => h) ?_)
    rintro action progress look ⟨rfl, hends⟩
    refine ⟨(actionsRead_concat filter first others action).symm, ?_⟩
    rwa [EndsAction, lastAction_concat]

/-- What has been read where the filters and the actions have been. -/
def queryRead (filter : Option FilterTree) : List Action → Progress
  | [] => filtersRead filter
  | first :: others => actionsRead filter first others

/-- What is in view could not have belonged to the query. -/
def EndsQuery (filter : Option FilterTree) (actions : List Action) (look : Option Token) : Prop :=
  match actions with
  | [] => EndsFilters filter look ∧ Lacks (isMark? .pipe) look
  | first :: others => EndsAction first others look ∧ Lacks (isMark? .semicolon) look

theorem triple_actions (filter : Option FilterTree) :
    Triple origin (Facing (filtersRead filter) (EndsFilters filter)) actions fun actions =>
      Facing (queryRead filter actions) (EndsQuery filter actions) := by
  refine Triple.bind (Triple.accept? (fun _ => wanting filter []) (step_of_isMark? ?_)) ?_
  · cases filter <;> rfl
  rintro (_ | ⟨⟩)
  · exact Triple.pure fun _ _ h => h
  · refine Triple.bind (triple_action filter []) fun first => ?_
    have hothers : Triple origin (Facing (actionsRead filter first []) (EndsAction first []))
        (many nextAction?) fun others => Facing (actionsRead filter first others) fun look =>
          EndsAction first others look ∧ Lacks (isMark? .semicolon) look := by
      refine Triple.many (actionsRead filter first) (EndsAction first) (fun others action => ?_)
        (triple_nextAction? filter first)
      simp [tokens_actionsRead, Query.tokens, Query.actionTokens, writeSeparated]
    exact Triple.bind hothers fun others => Triple.pure fun _ _ h => h

/-! ## Queries -/

theorem finish_queryRead {filter : Option FilterTree} {actions : List Action}
    {look : Option Token} (h : EndsQuery filter actions look) :
    (queryRead filter actions).finish = some ⟨filter, actions⟩ := by
  cases actions with
  | nil => cases filter <;> rfl
  | cons first others =>
      rw [queryRead, actionsRead, finish_invoked filter _ h.1.1, dropLast_append_lastAction]

theorem expectation_queryRead {filter : Option FilterTree} {actions : List Action}
    {look : Option Token} (h : EndsQuery filter actions look) :
    (queryRead filter actions).expectation = expectedBehind filter actions := by
  cases actions with
  | nil => cases filter <;> rfl
  | cons first others =>
      have hparams := h.1.1
      rw [queryRead, actionsRead]
      cases hlast : (lastAction first others).params with
      | nil => exact absurd hlast hparams
      | cons param params => rfl

/-- Nothing in view goes on a query behind which nothing that is in view could belong. -/
theorem step_queryRead {filter : Option FilterTree} {actions : List Action} {token : Token}
    (h : EndsQuery filter actions (some token)) :
    (queryRead filter actions).step token = none := by
  match actions, filter with
  | [], none =>
      obtain ⟨hstarts, hpipe⟩ := h
      cases token with
      | key name => cases hstarts
      | mark mark =>
          have hmark := ne_of_isMark? hpipe
          cases mark <;> first | rfl | exact absurd rfl hmark | cases hstarts
      | _ => rfl
  | [], some tree =>
      obtain ⟨hjoiner, hpipe⟩ := h
      cases token with
      | joiner joiner => cases hjoiner
      | mark mark =>
          have hmark := ne_of_isMark? hpipe
          cases mark <;> first | rfl | exact absurd rfl hmark
      | _ => rfl
  | first :: others, filter =>
      obtain ⟨⟨_, hparam⟩, hsemicolon⟩ := h
      rw [queryRead, actionsRead]
      cases token with
      | key name => cases hparam
      | literal literal => cases hparam
      | mark mark =>
          have hmark := ne_of_isMark? hsemicolon
          cases mark <;> cases (lastAction first others).params <;>
            first | rfl | exact absurd rfl hmark
      | _ => rfl

theorem triple_query :
    Triple origin (Facing start fun _ => True) query fun query progress look =>
      look = none ∧ progress.finish = some query := by
  refine Triple.bind triple_filters? fun filter => Triple.bind (triple_actions filter)
    fun actions => Triple.bind Triple.peek fun look => ?_
  cases look with
  | some token =>
      refine Triple.fail ?_
      rintro progress _ ⟨rfl, rfl, hends⟩
      exact ⟨step_queryRead hends, expectation_queryRead hends⟩
  | none =>
      refine Triple.bind Triple.tell fun _ => Triple.pure ?_
      rintro progress _ ⟨rfl, rfl, hends⟩
      exact ⟨rfl, finish_queryRead hends⟩

end RecordQuery.Reader

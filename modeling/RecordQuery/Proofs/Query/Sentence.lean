import Mathlib.Computability.Language
import RecordQuery.Query.Basic
import RecordQuery.Token.Basic

/-!
# Sentences of the query grammar

The grammar of queries is written down here twice, and the two are proved to be the
same thing.

* As a grammar: `Grammar.query` is the language of all token sequences that are a query,
  built from the languages of its parts.
* As the way back: `Query.tokens` writes a query out as tokens, and `Query.WellFormed`
  says which queries have a text at all.  Filters are joined from the left, a group
  holds a chain of plain filters, and every action has a parameter.

`Grammar.mem_query` says that a sentence is what a well-formed query is written as.
-/

namespace RecordQuery

open Computability

/-! ## The grammar -/

namespace Grammar

/-- One punctuation mark. -/
def mark (mark : Mark) : Language Token := {[.mark mark]}

/-- One key. -/
def key : Language Token := {tokens | ∃ name, tokens = [.key name]}

/-- One comparison operator. -/
def comparison : Language Token := {tokens | ∃ operator, tokens = [.comparison operator]}

/-- One joiner. -/
def joiner : Language Token := {tokens | ∃ joiner, tokens = [.joiner joiner]}

/-- One action name. -/
def actionKey : Language Token := {tokens | ∃ name, tokens = [.actionKey name]}

/-- One literal, of any kind. -/
def value : Language Token := {tokens | ∃ literal, tokens = [.literal literal]}

/-- Items with separators between them, at least one item. -/
def separated (item separator : Language Token) : Language Token :=
  item * (separator * item)∗

/-- Any number of values between brackets, with commas between them. -/
def array : Language Token :=
  mark .openBracket * (1 + separated value (mark .comma)) * mark .closeBracket

/-- A key, a comparison, and a value or an array. -/
def filter : Language Token := key * comparison * (value + array)

/-- A filter, or filters with joiners between them in parentheses. -/
def filterGroup : Language Token :=
  filter + mark .openParen * separated filter joiner * mark .closeParen

/-- Filters and groups with joiners between them. -/
def filters : Language Token := separated filterGroup joiner

/-- An action name and at least one parameter, each of them a key or a value. -/
def action : Language Token := actionKey * ((key + value) * (key + value)∗)

/-- A bar, and actions with semicolons between them. -/
def actions : Language Token := mark .pipe * separated action (mark .semicolon)

/-- Optional filters, and then optional actions. -/
def query : Language Token := (1 + filters) * (1 + actions)

/-- A token sequence that can be continued to a sentence. -/
def Viable (tokens : List Token) : Prop := ∃ more, tokens ++ more ∈ query

/-! ## Separated items, one after the other -/

variable {item separator : Language Token}

theorem mem_separated_of_mem {tokens : List Token} (h : tokens ∈ item) :
    tokens ∈ separated item separator := by
  rw [← List.append_nil tokens]
  exact Language.append_mem_mul h (Language.nil_mem_kstar _)

theorem append_mem_separated {tokens gap more : List Token}
    (h : tokens ∈ separated item separator) (hgap : gap ∈ separator) (hmore : more ∈ item) :
    tokens ++ (gap ++ more) ∈ separated item separator := by
  obtain ⟨first, hfirst, others, hothers, rfl⟩ := Language.mem_mul.mp h
  obtain ⟨parts, rfl, hparts⟩ := Language.mem_kstar.mp hothers
  rw [List.append_assoc]
  refine Language.append_mem_mul hfirst (Language.mem_kstar.mpr ⟨parts ++ [gap ++ more], ?_, ?_⟩)
  · simp
  · intro part hpart
    rcases List.mem_append.mp hpart with hpart | hpart
    · exact hparts part hpart
    · rw [List.mem_singleton.mp hpart]
      exact Language.append_mem_mul hgap hmore

/-- What holds of every item, and goes on to hold when one more item is put behind it,
holds of all separated items. -/
@[elab_as_elim]
theorem separated_induction
    {motive : (tokens : List Token) → tokens ∈ separated item separator → Prop}
    (first : ∀ tokens (h : tokens ∈ item), motive tokens (mem_separated_of_mem h))
    (further : ∀ tokens (h : tokens ∈ separated item separator), motive tokens h →
      ∀ gap (hgap : gap ∈ separator) more (hmore : more ∈ item),
        motive (tokens ++ (gap ++ more)) (append_mem_separated h hgap hmore))
    {tokens : List Token} (h : tokens ∈ separated item separator) : motive tokens h := by
  obtain ⟨head, hhead, others, hothers, rfl⟩ := Language.mem_mul.mp h
  obtain ⟨parts, rfl, hparts⟩ := Language.mem_kstar.mp hothers
  clear hothers
  induction parts using List.reverseRecOn with
  | nil => simpa using first head hhead
  | append_singleton parts last ih =>
      have hinit : ∀ part ∈ parts, part ∈ separator * item :=
        fun part hpart => hparts part (List.mem_append_left _ hpart)
      have hfront : head ++ parts.flatten ∈ separated item separator :=
        Language.append_mem_mul hhead (Language.join_mem_kstar hinit)
      obtain ⟨gap, hgap, more, hmore, rfl⟩ := Language.mem_mul.mp
        (hparts last (List.mem_append_right _ (List.mem_singleton_self last)))
      simpa [List.append_assoc] using further _ hfront (ih hinit hfront) gap hgap more hmore

end Grammar

/-! ## Queries as tokens -/

/-- Items as tokens, with a separator between them. -/
def writeSeparated {α : Type} (separator : Token) (write : α → List Token) :
    List α → List Token
  | [] => []
  | first :: others => write first ++ others.flatMap fun item => separator :: write item

theorem writeSeparated_concat {α : Type} (separator : Token) (write : α → List Token)
    {items : List α} (h : items ≠ []) (item : α) :
    writeSeparated separator write (items ++ [item]) =
      writeSeparated separator write items ++ separator :: write item := by
  cases items with
  | nil => exact absurd rfl h
  | cons first others => simp [writeSeparated]

/-- An operand as tokens. -/
def Operand.tokens : Operand → List Token
  | scalar literal => [.literal literal]
  | list items =>
    .mark .openBracket ::
      (writeSeparated (.mark .comma) (fun literal => [.literal literal]) items ++
        [.mark .closeBracket])

/-- A filter as tokens. -/
def Filter.tokens (filter : Filter) : List Token :=
  .key filter.key :: .comparison filter.operator :: filter.operand.tokens

/-- A filter tree as tokens. -/
def FilterTree.tokens : FilterTree → List Token
  | leaf filter => filter.tokens
  | group inner => .mark .openParen :: (inner.tokens ++ [.mark .closeParen])
  | join left joiner right => left.tokens ++ .joiner joiner :: right.tokens

/-- A parameter as a token. -/
def Param.token : Param → Token
  | key name => .key name
  | literal value => .literal value

/-- An action as tokens. -/
def Action.tokens (action : Action) : List Token :=
  .actionKey action.key :: action.params.map Param.token

/-- The actions of a query as tokens: none without actions, else the actions behind a
bar. -/
def Query.actionTokens : List Action → List Token
  | [] => []
  | actions => .mark .pipe :: writeSeparated (.mark .semicolon) Action.tokens actions

/-- The filters of a query as tokens. -/
def Query.filterTokens : Option FilterTree → List Token
  | none => []
  | some tree => tree.tokens

/-- A query as tokens. -/
def Query.tokens (query : Query) : List Token :=
  Query.filterTokens query.filter ++ Query.actionTokens query.actions

/-! ## The shape of what is written -/

namespace FilterTree

/-- Parts that are joined one after the other from the left. -/
inductive IsChain (isPart : FilterTree → Prop) : FilterTree → Prop where
  | part {tree : FilterTree} (h : isPart tree) : IsChain isPart tree
  | join {left right : FilterTree} (joiner : Joiner) (hleft : IsChain isPart left)
      (hright : isPart right) : IsChain isPart (join left joiner right)

/-- A plain filter. -/
inductive IsFilter : FilterTree → Prop where
  | leaf (filter : Filter) : IsFilter (leaf filter)

/-- A filter, or a group around a chain of plain filters. -/
inductive IsOperand : FilterTree → Prop where
  | leaf (filter : Filter) : IsOperand (leaf filter)
  | group {inner : FilterTree} (h : inner.IsChain IsFilter) : IsOperand (group inner)

end FilterTree

/-- A query of the shape that the grammar has: its tree is a chain of operands, and each
of its actions has a parameter. -/
structure Query.WellFormed (query : Query) : Prop where
  filter : ∀ tree ∈ query.filter, tree.IsChain FilterTree.IsOperand
  actions : ∀ action ∈ query.actions, action.params ≠ []

/-! ## A sentence is what a well-formed query is written as -/

namespace Grammar

/-- Separated items are what a list of things is written as, when one item is what one
such thing is written as. -/
theorem mem_separated_write {α : Type} {item : Language Token} {separator : Token}
    {write : α → List Token} {isItem : α → Prop}
    (hitem : ∀ tokens, tokens ∈ item ↔ ∃ x, isItem x ∧ tokens = write x)
    (tokens : List Token) :
    tokens ∈ separated item {[separator]} ↔
      ∃ items, items ≠ [] ∧ (∀ x ∈ items, isItem x) ∧
        tokens = writeSeparated separator write items := by
  constructor
  · intro h
    induction h using separated_induction with
    | first tokens htokens =>
        obtain ⟨x, hx, rfl⟩ := (hitem tokens).mp htokens
        exact ⟨[x], by simp, by simpa using hx, by simp [writeSeparated]⟩
    | further tokens _ ih gap hgap more hmore =>
        obtain ⟨items, hne, hitems, rfl⟩ := ih
        obtain ⟨x, hx, rfl⟩ := (hitem more).mp hmore
        refine ⟨items ++ [x], by simp, ?_, ?_⟩
        · intro y hy
          rcases List.mem_append.mp hy with hy | hy
          · exact hitems y hy
          · rw [List.mem_singleton.mp hy]
            exact hx
        · rw [writeSeparated_concat separator write hne, show gap = [separator] from hgap]
          rfl
  · rintro ⟨items, hne, hitems, rfl⟩
    induction items using List.reverseRecOn with
    | nil => exact absurd rfl hne
    | append_singleton items x ih =>
        have hx : write x ∈ item := (hitem _).mpr ⟨x, hitems x (by simp), rfl⟩
        rcases eq_or_ne items [] with rfl | hitemsne
        · simpa [writeSeparated] using mem_separated_of_mem hx
        · rw [writeSeparated_concat separator write hitemsne]
          have hgap : [separator] ∈ ({[separator]} : Language Token) := rfl
          exact append_mem_separated
            (ih hitemsne fun y hy => hitems y (List.mem_append_left _ hy)) hgap hx

theorem mem_array (tokens : List Token) :
    tokens ∈ array ↔ ∃ items, tokens = (Operand.list items).tokens := by
  have hvalue : ∀ tokens, tokens ∈ value ↔ ∃ literal, True ∧ tokens = [Token.literal literal] :=
    fun tokens => ⟨fun ⟨l, hl⟩ => ⟨l, trivial, hl⟩, fun ⟨l, _, hl⟩ => ⟨l, hl⟩⟩
  constructor
  · intro h
    obtain ⟨front, ⟨_, rfl, inner, hinner, rfl⟩, _, rfl, rfl⟩ := h
    rcases hinner with hnone | hsome
    · obtain rfl : inner = [] := hnone
      exact ⟨[], by simp [Operand.tokens, writeSeparated]⟩
    · obtain ⟨items, _, _, rfl⟩ := (mem_separated_write hvalue inner).mp hsome
      exact ⟨items, by simp [Operand.tokens]⟩
  · rintro ⟨items, rfl⟩
    refine ⟨_, ⟨_, rfl, writeSeparated (.mark .comma) (fun l => [.literal l]) items, ?_, rfl⟩,
      _, rfl, rfl⟩
    rcases eq_or_ne items [] with rfl | hne
    · exact Or.inl rfl
    · exact Or.inr ((mem_separated_write hvalue _).mpr ⟨items, hne, fun _ _ => trivial, rfl⟩)

theorem mem_filter (tokens : List Token) :
    tokens ∈ filter ↔ ∃ f : Filter, tokens = f.tokens := by
  constructor
  · rintro ⟨_, ⟨_, ⟨name, rfl⟩, _, ⟨operator, rfl⟩, rfl⟩, operand, hoperand, rfl⟩
    rcases hoperand with ⟨literal, rfl⟩ | harray
    · exact ⟨⟨name, operator, .scalar literal⟩, rfl⟩
    · obtain ⟨items, rfl⟩ := (mem_array operand).mp harray
      exact ⟨⟨name, operator, .list items⟩, rfl⟩
  · rintro ⟨⟨name, operator, operand⟩, rfl⟩
    refine ⟨_, ⟨_, ⟨name, rfl⟩, _, ⟨operator, rfl⟩, rfl⟩, operand.tokens, ?_, rfl⟩
    cases operand with
    | scalar literal => exact Or.inl ⟨literal, rfl⟩
    | list items => exact Or.inr ((mem_array _).mpr ⟨items, rfl⟩)

/-- Separated parts are what a chain of trees is written as, when one part is what one
such tree is written as. -/
theorem mem_separated_joiner {part : Language Token} {isPart : FilterTree → Prop}
    (hpart : ∀ tokens, tokens ∈ part ↔ ∃ tree, isPart tree ∧ tokens = tree.tokens)
    (tokens : List Token) :
    tokens ∈ separated part joiner ↔
      ∃ tree, FilterTree.IsChain isPart tree ∧ tokens = tree.tokens := by
  constructor
  · intro h
    induction h using separated_induction with
    | first tokens htokens =>
        obtain ⟨tree, htree, rfl⟩ := (hpart tokens).mp htokens
        exact ⟨tree, .part htree, rfl⟩
    | further tokens _ ih gap hgap more hmore =>
        obtain ⟨left, hleft, rfl⟩ := ih
        obtain ⟨joiner, rfl⟩ := hgap
        obtain ⟨right, hright, rfl⟩ := (hpart more).mp hmore
        exact ⟨.join left joiner right, .join joiner hleft hright, rfl⟩
  · rintro ⟨tree, htree, rfl⟩
    induction htree with
    | part h => exact mem_separated_of_mem ((hpart _).mpr ⟨_, h, rfl⟩)
    | join joiner _ hright ih =>
        have hgap : [Token.joiner joiner] ∈ Grammar.joiner := ⟨joiner, rfl⟩
        exact append_mem_separated ih hgap ((hpart _).mpr ⟨_, hright, rfl⟩)

theorem mem_filterGroup (tokens : List Token) :
    tokens ∈ filterGroup ↔ ∃ tree : FilterTree, tree.IsOperand ∧ tokens = tree.tokens := by
  have hfilter : ∀ tokens, tokens ∈ filter ↔
      ∃ tree : FilterTree, tree.IsFilter ∧ tokens = tree.tokens := by
    intro tokens
    rw [mem_filter]
    constructor
    · rintro ⟨f, rfl⟩
      exact ⟨.leaf f, .leaf f, rfl⟩
    · rintro ⟨_, ⟨f⟩, rfl⟩
      exact ⟨f, rfl⟩
  constructor
  · rintro (hplain | ⟨_, ⟨_, rfl, inner, hinner, rfl⟩, _, rfl, rfl⟩)
    · obtain ⟨f, rfl⟩ := (mem_filter tokens).mp hplain
      exact ⟨.leaf f, .leaf f, rfl⟩
    · obtain ⟨tree, htree, rfl⟩ := (mem_separated_joiner hfilter inner).mp hinner
      exact ⟨.group tree, .group htree, by simp [FilterTree.tokens]⟩
  · rintro ⟨tree, htree, rfl⟩
    cases htree with
    | leaf f => exact Or.inl ((mem_filter _).mpr ⟨f, rfl⟩)
    | group h =>
        exact Or.inr ⟨_, ⟨_, rfl, _, (mem_separated_joiner hfilter _).mpr ⟨_, h, rfl⟩, rfl⟩,
          _, rfl, rfl⟩

theorem mem_filters (tokens : List Token) :
    tokens ∈ filters ↔
      ∃ tree : FilterTree, tree.IsChain FilterTree.IsOperand ∧ tokens = tree.tokens :=
  mem_separated_joiner mem_filterGroup tokens

theorem mem_param (tokens : List Token) :
    tokens ∈ key + value ↔ ∃ param : Param, tokens = [param.token] := by
  constructor
  · rintro (⟨name, rfl⟩ | ⟨literal, rfl⟩)
    · exact ⟨.key name, rfl⟩
    · exact ⟨.literal literal, rfl⟩
  · rintro ⟨param, rfl⟩
    cases param with
    | key name => exact Or.inl ⟨name, rfl⟩
    | literal literal => exact Or.inr ⟨literal, rfl⟩

theorem mem_params (tokens : List Token) :
    tokens ∈ (key + value)∗ ↔ ∃ params : List Param, tokens = params.map Param.token := by
  constructor
  · intro h
    obtain ⟨parts, rfl, hparts⟩ := Language.mem_kstar.mp h
    clear h
    induction parts with
    | nil => exact ⟨[], rfl⟩
    | cons part parts ih =>
        obtain ⟨params, hparams⟩ := ih fun part hpart => hparts part (List.mem_cons_of_mem _ hpart)
        obtain ⟨param, rfl⟩ := (mem_param part).mp (hparts part List.mem_cons_self)
        exact ⟨param :: params, by simp [hparams]⟩
  · rintro ⟨params, rfl⟩
    refine Language.mem_kstar.mpr ⟨params.map fun param => [param.token], ?_, ?_⟩
    · rw [← List.flatMap_def, List.map_eq_flatMap]
    · intro part hpart
      obtain ⟨param, _, rfl⟩ := List.mem_map.mp hpart
      exact (mem_param _).mpr ⟨param, rfl⟩

theorem mem_action (tokens : List Token) :
    tokens ∈ action ↔ ∃ a : Action, a.params ≠ [] ∧ tokens = a.tokens := by
  constructor
  · rintro ⟨_, ⟨name, rfl⟩, _, ⟨first, hfirst, others, hothers, rfl⟩, rfl⟩
    obtain ⟨param, rfl⟩ := (mem_param first).mp hfirst
    obtain ⟨params, rfl⟩ := (mem_params others).mp hothers
    exact ⟨⟨name, param :: params⟩, by simp, rfl⟩
  · rintro ⟨⟨name, params⟩, hparams, rfl⟩
    cases params with
    | nil => exact absurd rfl hparams
    | cons param params =>
        exact ⟨_, ⟨name, rfl⟩, _, ⟨_, (mem_param _).mpr ⟨param, rfl⟩, _,
          (mem_params _).mpr ⟨params, rfl⟩, rfl⟩, rfl⟩

theorem mem_optional_actions (tokens : List Token) :
    tokens ∈ 1 + actions ↔ ∃ as : List Action, (∀ a ∈ as, a.params ≠ []) ∧
      tokens = Query.actionTokens as := by
  constructor
  · rintro (hnone | ⟨_, rfl, front, hfront, rfl⟩)
    · exact ⟨[], by simp, hnone⟩
    · obtain ⟨as, hne, has, rfl⟩ := (mem_separated_write mem_action front).mp hfront
      cases as with
      | nil => exact absurd rfl hne
      | cons a as => exact ⟨a :: as, has, rfl⟩
  · rintro ⟨as, has, rfl⟩
    cases as with
    | nil => exact Or.inl rfl
    | cons a as =>
        exact Or.inr ⟨_, rfl, _, (mem_separated_write mem_action _).mpr
          ⟨a :: as, by simp, has, rfl⟩, rfl⟩

/-- A sentence is what some well-formed query is written as. -/
theorem mem_query (tokens : List Token) :
    tokens ∈ query ↔ ∃ q : Query, q.WellFormed ∧ tokens = q.tokens := by
  constructor
  · rintro ⟨front, hfront, back, hback, rfl⟩
    obtain ⟨as, has, rfl⟩ := (mem_optional_actions back).mp hback
    rcases hfront with hnone | hfilters
    · obtain rfl : front = [] := hnone
      exact ⟨⟨none, as⟩, ⟨by simp, has⟩, rfl⟩
    · obtain ⟨tree, htree, rfl⟩ := (mem_filters front).mp hfilters
      exact ⟨⟨some tree, as⟩, ⟨by simpa using htree, has⟩, rfl⟩
  · rintro ⟨⟨filter, as⟩, hq, rfl⟩
    refine ⟨Query.filterTokens filter, ?_, _, (mem_optional_actions _).mpr ⟨as, hq.actions, rfl⟩,
      rfl⟩
    cases filter with
    | none => exact Or.inl rfl
    | some tree => exact Or.inr ((mem_filters _).mpr ⟨tree, hq.filter tree rfl, rfl⟩)

end Grammar

end RecordQuery

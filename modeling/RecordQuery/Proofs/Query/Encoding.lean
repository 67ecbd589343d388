import RecordQuery.Proofs.Filter.Effects
import RecordQuery.Proofs.Json.Same
import RecordQuery.Proofs.Query.PrintedFilter
import RecordQuery.Query.Json

/-!
# What the JSON form of a query keeps

A query as JSON has no groups, and of its literals only whole numbers keep their kind: all
others become strings.  `Query.plain` is the query with just this left out, so that groups
are gone and every literal that is no whole number is a string with the same text.

It has the same JSON form (`Query.toJson_plain`).  And nothing else is lost: leaves, joined
trees and parameters are objects with different names, lists are arrays, and an absent
filter is the only null.  The name of an action stands there without its colon, but every
key that was read has one.  So queries that were read have the same JSON form exactly if
they are the same when they are plain (`Query.same_toJson_iff`).
-/

namespace RecordQuery

open Json (Same)

-- equality of what was written, while `==` compares decimals by value
deriving instance DecidableEq for Decimal, Literal, Operand, Filter, FilterTree, Param, Action,
  Query

/-! ## Literals and operands -/

namespace Literal

/-- A literal that keeps its kind only if it is a whole number. -/
def plain : Literal → Literal
  | integer value => integer value
  | decimal value => string value.display
  | string text | time text | date text | dateTime text => string text

theorem toJson_plain (literal : Literal) : literal.plain.toJson = literal.toJson := by
  cases literal <;> rfl

/-- A literal is a number in JSON, or a string, and that is all there is to it. -/
theorem toJson_cases (literal : Literal) :
    (∃ value, literal.plain = integer value ∧ literal.toJson = .integer value.toInt) ∨
      ∃ text, literal.plain = string text ∧ literal.toJson = .string text := by
  cases literal with
  | integer value => exact Or.inl ⟨value, rfl, rfl⟩
  | _ => exact Or.inr ⟨_, rfl, rfl⟩

theorem plain_of_same {literal literal' : Literal} (h : Same literal.toJson literal'.toJson) :
    literal.plain = literal'.plain := by
  rcases toJson_cases literal with ⟨value, hplain, hjson⟩ | ⟨text, hplain, hjson⟩
  · rcases toJson_cases literal' with ⟨value', hplain', hjson'⟩ | ⟨text', -, hjson'⟩
    · rw [hjson, hjson'] at h
      rw [hplain, hplain', Int64.toInt_inj.mp h.eq_of_integer]
    · rw [hjson, hjson'] at h
      cases h
  · rcases toJson_cases literal' with ⟨value', -, hjson'⟩ | ⟨text', hplain', hjson'⟩
    · rw [hjson, hjson'] at h
      cases h
    · rw [hjson, hjson'] at h
      rw [hplain, hplain', h.eq_of_string]

/-- A literal is no array and no object. -/
theorem not_same_array (literal : Literal) (items : List Json) :
    ¬ Same literal.toJson (.array items) ∧ ¬ Same (.array items) literal.toJson := by
  rcases toJson_cases literal with ⟨value, -, hjson⟩ | ⟨text, -, hjson⟩ <;> rw [hjson] <;>
    exact ⟨nofun, nofun⟩

theorem not_same_object (literal : Literal) (fields : List (String × Json)) :
    ¬ Same literal.toJson (.object fields) ∧ ¬ Same (.object fields) literal.toJson := by
  rcases toJson_cases literal with ⟨value, -, hjson⟩ | ⟨text, -, hjson⟩ <;> rw [hjson] <;>
    exact ⟨nofun, nofun⟩

end Literal

namespace Operand

/-- An operand with plain literals. -/
def plain : Operand → Operand
  | scalar literal => scalar literal.plain
  | list items => list (items.map Literal.plain)

theorem toJson_plain (operand : Operand) : operand.plain.toJson = operand.toJson := by
  cases operand with
  | scalar literal => exact literal.toJson_plain
  | list items =>
      rw [plain, toJson, toJson, List.map_map]
      congr 2
      exact funext Literal.toJson_plain

theorem plain_of_same {operand operand' : Operand} (h : Same operand.toJson operand'.toJson) :
    operand.plain = operand'.plain := by
  cases operand with
  | scalar literal =>
      cases operand' with
      | scalar literal' => rw [plain, plain, Literal.plain_of_same h]
      | list items' => exact absurd h (literal.not_same_array _).1
  | list items =>
      cases operand' with
      | scalar literal' => exact absurd h (literal'.not_same_array _).2
      | list items' =>
          have hitems := Same.map_eq h Literal.plain fun _ _ _ _ hsame =>
            Literal.plain_of_same hsame
          rw [plain, plain, hitems]

end Operand

/-! ## Filters and trees -/

namespace Filter

/-- A filter with plain literals. -/
def plain (filter : Filter) : Filter :=
  { filter with operand := filter.operand.plain }

theorem toJson_plain (filter : Filter) : filter.plain.toJson = filter.toJson := by
  rw [toJson, toJson, plain, Operand.toJson_plain]

theorem plain_of_same {filter filter' : Filter} (h : Same filter.toJson filter'.toJson) :
    filter.plain = filter'.plain := by
  have hkey : filter.key = filter'.key := (h.value "key" rfl rfl).eq_of_string
  have hoperator : filter.operator = filter'.operator :=
    Comparison.eq_of_spelling (h.value "op" rfl rfl).eq_of_string
  have hoperand := Operand.plain_of_same (h.value "value" rfl rfl)
  rw [plain, plain, hkey, hoperator, hoperand]

end Filter

namespace FilterTree

/-- A tree without groups and with plain literals. -/
def plain : FilterTree → FilterTree
  | leaf filter => leaf filter.plain
  | group inner => inner.plain
  | join left joiner right => join left.plain joiner right.plain

theorem toJson_leaf (filter : Filter) : (leaf filter).toJson = filter.toJson := by
  rw [toJson, reduce, walk_eq_compute]
  rfl

theorem toJson_group (inner : FilterTree) : (group inner).toJson = inner.toJson := by
  rw [toJson, reduce, walk_eq_compute, toJson, reduce, walk_eq_compute]
  rfl

theorem toJson_join (left : FilterTree) (joiner : Joiner) (right : FilterTree) :
    (join left joiner right).toJson =
      .object [(joiner.spelling, .array [left.toJson, right.toJson])] := by
  simp only [toJson, reduce, walk_eq_compute]
  rfl

theorem toJson_plain (tree : FilterTree) : tree.plain.toJson = tree.toJson := by
  induction tree with
  | leaf filter => rw [plain, toJson_leaf, toJson_leaf, Filter.toJson_plain]
  | group inner ih => rw [plain, toJson_group, ih]
  | join left joiner right ihLeft ihRight =>
      rw [plain, toJson_join, toJson_join, ihLeft, ihRight]

theorem exists_object (tree : FilterTree) : ∃ fields, tree.toJson = .object fields := by
  induction tree with
  | leaf filter => exact ⟨_, toJson_leaf filter⟩
  | group inner ih =>
      rw [toJson_group]
      exact ih
  | join left joiner right => exact ⟨_, toJson_join left joiner right⟩

/-- A filter has a key, and a joiner is not called that. -/
theorem not_same_join (filter : Filter) (left right : FilterTree) (joiner : Joiner) :
    ¬ Same (leaf filter).toJson (join left joiner right).toJson ∧
      ¬ Same (join left joiner right).toJson (leaf filter).toJson := by
  have hkey : [(joiner.spelling, Json.array [left.toJson, right.toJson])].lookup "key" = none := by
    cases joiner <;> rfl
  rw [toJson_leaf, toJson_join]
  constructor
  · intro h
    have hsome := h.isSome_lookup "key"
    rw [hkey] at hsome
    cases hsome
  · intro h
    have hsome := h.isSome_lookup "key"
    rw [hkey] at hsome
    cases hsome

/-- A joined tree tells its joiner and both its sides. -/
theorem join_of_same {left right left' right' : FilterTree} {joiner joiner' : Joiner}
    (h : Same (join left joiner right).toJson (join left' joiner' right').toJson) :
    joiner = joiner' ∧ Same left.toJson left'.toJson ∧ Same right.toJson right'.toJson := by
  rw [toJson_join, toJson_join] at h
  have hjoiner : joiner = joiner' := by
    have hsome := h.isSome_lookup "and"
    cases joiner with
    | and =>
        cases joiner' with
        | and => rfl
        | or => cases hsome
    | or =>
        cases joiner' with
        | and => cases hsome
        | or => rfl
  subst hjoiner
  have hsides : Same (.array [left.toJson, right.toJson]) (.array [left'.toJson, right'.toJson]) :=
    h.value joiner.spelling List.lookup_cons_self List.lookup_cons_self
  cases hsides with
  | array hsides =>
      obtain ⟨hleft, hothers⟩ := List.forall₂_cons.mp hsides
      exact ⟨rfl, hleft, (List.forall₂_cons.mp hothers).1⟩

theorem plain_of_same {tree tree' : FilterTree} (h : Same tree.toJson tree'.toJson) :
    tree.plain = tree'.plain := by
  induction tree generalizing tree' with
  | group inner ih =>
      rw [toJson_group] at h
      exact ih h
  | leaf filter =>
      -- groups of the other tree are passed through
      induction tree' with
      | leaf filter' =>
          rw [toJson_leaf, toJson_leaf] at h
          rw [plain, plain, Filter.plain_of_same h]
      | group inner' ih =>
          rw [toJson_group inner'] at h
          exact ih h
      | join left' joiner' right' => exact absurd h (not_same_join filter left' right' joiner').1
  | join left joiner right ihLeft ihRight =>
      induction tree' with
      | leaf filter' => exact absurd h (not_same_join filter' left right joiner).2
      | group inner' ih =>
          rw [toJson_group inner'] at h
          exact ih h
      | join left' joiner' right' =>
          obtain ⟨rfl, hleft, hright⟩ := join_of_same h
          rw [plain, plain, ihLeft hleft, ihRight hright]

end FilterTree

/-! ## Actions -/

namespace Param

/-- A parameter with a plain literal. -/
def plain : Param → Param
  | key name => key name
  | literal value => literal value.plain

theorem toJson_plain (param : Param) : param.plain.toJson = param.toJson := by
  cases param with
  | key name => rfl
  | literal value => exact value.toJson_plain

theorem plain_of_same {param param' : Param} (h : Same param.toJson param'.toJson) :
    param.plain = param'.plain := by
  cases param with
  | key name =>
      cases param' with
      | key name' => rw [(h.value "key" rfl rfl).eq_of_string]
      | literal value' => exact absurd h (value'.not_same_object _).2
  | literal value =>
      cases param' with
      | key name' => exact absurd h (value.not_same_object _).1
      | literal value' => rw [plain, plain, Literal.plain_of_same h]

end Param

namespace Action

/-- An action with plain parameters. -/
def plain (action : Action) : Action :=
  { action with params := action.params.map Param.plain }

theorem toJson_plain (action : Action) : action.plain.toJson = action.toJson := by
  have hparams : action.plain.params.map Param.toJson = action.params.map Param.toJson := by
    rw [plain, List.map_map]
    exact congrArg (fun write => action.params.map write) (funext Param.toJson_plain)
  rw [toJson, hparams]
  rfl

/-- The key of an action starts with a colon. -/
def HasColon (action : Action) : Prop :=
  ∃ name, action.key.toList = ':' :: name

theorem HasColon.toList_key {action : Action} (h : action.HasColon) :
    action.key.toList = ':' :: action.name.toList := by
  obtain ⟨name, hkey⟩ := h
  simp only [Action.name, hkey, String.toList_ofList]

theorem plain_of_same {action action' : Action} (hcolon : action.HasColon)
    (hcolon' : action'.HasColon) (h : Same action.toJson action'.toJson) :
    action.plain = action'.plain := by
  have hname : action.name = action'.name := (h.value "action" rfl rfl).eq_of_string
  have hkey : action.key = action'.key := by
    rw [← String.toList_inj, hcolon.toList_key, hcolon'.toList_key, hname]
  have hparams := (h.value "params" rfl rfl).map_eq Param.plain fun _ _ _ _ hsame =>
    Param.plain_of_same hsame
  rw [plain, plain, hkey, hparams]

end Action

/-! ## Queries -/

namespace Query

/-- A query without groups and with plain literals. -/
def plain (query : Query) : Query :=
  ⟨query.filter.map FilterTree.plain, query.actions.map Action.plain⟩

theorem toJson_plain (query : Query) : query.plain.toJson = query.toJson := by
  have hactions : query.plain.actions.map Action.toJson = query.actions.map Action.toJson := by
    rw [plain, List.map_map]
    exact congrArg (fun write => query.actions.map write) (funext Action.toJson_plain)
  rw [toJson, toJson, hactions]
  cases hfilter : query.filter with
  | none => simp only [plain, hfilter, Option.map_none]
  | some tree => simp only [plain, hfilter, Option.map_some, FilterTree.toJson_plain]

theorem plain_of_same {q q' : Query} (hcolon : ∀ action ∈ q.actions, action.HasColon)
    (hcolon' : ∀ action ∈ q'.actions, action.HasColon) (h : Same q.toJson q'.toJson) :
    q.plain = q'.plain := by
  have hactions := (h.value "actions" rfl rfl).map_eq Action.plain
    fun action haction action' haction' hsame =>
      Action.plain_of_same (hcolon action haction) (hcolon' action' haction') hsame
  have hfilter := h.value "filter" rfl rfl
  cases htree : q.filter with
  | none =>
      cases htree' : q'.filter with
      | none => rw [plain, plain, htree, htree', hactions]
      | some tree' =>
          obtain ⟨fields, hfields⟩ := tree'.exists_object
          simp only [htree, htree', hfields] at hfilter
          cases hfilter
  | some tree =>
      cases htree' : q'.filter with
      | none =>
          obtain ⟨fields, hfields⟩ := tree.exists_object
          simp only [htree, htree', hfields] at hfilter
          cases hfilter
      | some tree' =>
          simp only [htree, htree'] at hfilter
          rw [plain, plain, htree, htree', hactions, Option.map_some, Option.map_some,
            FilterTree.plain_of_same hfilter]

theorem hasColon_actions {validate : Bool} {q : Query} {cs : List Char}
    (h : ReadsAs validate cs q.tokens) : ∀ action ∈ q.actions, action.HasColon := by
  intro action haction
  have htoken : Token.actionKey action.key ∈ action.tokens := List.mem_cons_self
  obtain ⟨cs, text, rest, hkey⟩ := exists_startsWith_of_action h haction htoken
  obtain ⟨name, -, -, htext, -, -⟩ :=
    Rule.scanActionKey_eq_some.mp (Rule.scan_of_find? hkey.lexeme_actionKey.find)
  exact ⟨name, htext⟩

/-- Take two texts that are read as queries.  As JSON the queries are the same, whatever the
order of the fields of objects, exactly if they are the same apart from groups and from the
kinds of literals that are no whole numbers. -/
theorem same_toJson_iff (options options' : Options) (input input' : String) (q q' : Query)
    (hparse : parse options input = .ok q) (hparse' : parse options' input' = .ok q') :
    Same q.toJson q'.toJson ↔ q.plain = q'.plain := by
  have hreads := ((parse_eq_ok_iff options input q).mp hparse).2
  have hreads' := ((parse_eq_ok_iff options' input' q').mp hparse').2
  constructor
  · exact plain_of_same (hasColon_actions hreads) (hasColon_actions hreads')
  · intro hplain
    rw [← q.toJson_plain, ← q'.toJson_plain, hplain]
    exact Same.refl _

/-- One of the trees has a group, and where one text has a time and a decimal, the other has
strings. -/
theorem same_toJson_group : ∃ q q',
    parse {} "(a == 9:30 or b in [1, 2.50]) and c == 'x' | :s k 1" = .ok q ∧
    parse {} "a == '9:30' or b in [1, '2.50'] and c == 'x' | :s k 1" = .ok q' ∧
    q.plain = q'.plain ∧ Same q.toJson q'.toJson := by
  have hread : (parse {} "(a == 9:30 or b in [1, 2.50]) and c == 'x' | :s k 1").toOption.any
      (fun q => (parse {} "a == '9:30' or b in [1, '2.50'] and c == 'x' | :s k 1").toOption.any
        fun q' => q.plain = q'.plain) = true := by decide +kernel
  obtain ⟨q, hparse, hread⟩ := exists_of_any hread
  obtain ⟨q', hparse', hread⟩ := exists_of_any hread
  have hplain : q.plain = q'.plain := of_decide_eq_true hread
  exact ⟨q, q', hparse, hparse', hplain,
    (same_toJson_iff {} {} _ _ q q' hparse hparse').mpr hplain⟩

end Query

end RecordQuery

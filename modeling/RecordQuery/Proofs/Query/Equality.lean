import RecordQuery.Proofs.Filter.Alike
import RecordQuery.Query.Basic

/-!
# When queries are equal

Queries are alike if their filter trees are, or neither has one, and their actions are alike
one by one: actions with the same name, and with the same keys and alike literals as their
parameters.  Equality `==` decides this, as it does for trees.

So it is an equivalence, on trees and on queries, and it sees how a tree is put together
(`FilterTree.equal_iff_alike`).
-/

namespace RecordQuery

namespace Param

/-- The same keys, or literals that are alike. -/
inductive Alike : Param → Param → Prop where
  | key (name : String) : Alike (key name) (key name)
  | literal {value value' : Literal} (h : value.Alike value') :
      Alike (literal value) (literal value')

theorem equivalence_alike : Equivalence Alike where
  refl param := by
    cases param with
    | key name => exact .key name
    | literal value => exact .literal (Literal.equivalence_alike.refl value)
  symm h := by
    cases h with
    | key name => exact .key name
    | literal h => exact .literal (Literal.equivalence_alike.symm h)
  trans h h' := by
    cases h with
    | key name => exact h'
    | literal h =>
        cases h' with
        | literal h' => exact .literal (Literal.equivalence_alike.trans h h')

theorem beq_iff_alike (param param' : Param) : (param == param') = true ↔ param.Alike param' := by
  cases param with
  | key name =>
      cases param' with
      | key name' =>
          have hname : (key name == key name') = (name == name') := rfl
          rw [hname, beq_iff_eq]
          refine ⟨fun h => h ▸ .key name, fun h => ?_⟩
          cases h with
          | key => rfl
      | literal value' => exact ⟨nofun, nofun⟩
  | literal value =>
      cases param' with
      | key name' => exact ⟨nofun, nofun⟩
      | literal value' =>
          refine (value.beq_iff_alike value').trans ⟨.literal, fun h => ?_⟩
          cases h with
          | literal h => exact h

end Param

namespace Action

/-- Actions with the same name and parameters that are alike one by one. -/
structure Alike (action action' : Action) : Prop where
  key : action.key = action'.key
  params : List.Forall₂ Param.Alike action.params action'.params

theorem equivalence_alike : Equivalence Alike where
  refl action := ⟨rfl, (equivalence_forall₂ Param.equivalence_alike).refl action.params⟩
  symm h := ⟨h.key.symm, (equivalence_forall₂ Param.equivalence_alike).symm h.params⟩
  trans h h' :=
    ⟨h.key.trans h'.key, (equivalence_forall₂ Param.equivalence_alike).trans h.params h'.params⟩

theorem beq_iff_alike (action action' : Action) :
    (action == action') = true ↔ action.Alike action' := by
  have hparts : (action == action') =
      (action.key == action'.key && action.params == action'.params) := rfl
  rw [hparts, Bool.and_eq_true, beq_iff_eq, beq_iff_forall₂ Param.beq_iff_alike]
  exact ⟨fun h => ⟨h.1, h.2⟩, fun h => ⟨h.key, h.params⟩⟩

end Action

namespace Query

/-- Queries with filter trees that are alike, or without any, and with actions that are alike
one by one. -/
structure Alike (q q' : Query) : Prop where
  filter : Option.Rel FilterTree.Alike q.filter q'.filter
  actions : List.Forall₂ Action.Alike q.actions q'.actions

theorem equivalence_alike : Equivalence Alike where
  refl q := ⟨(equivalence_optionRel FilterTree.equivalence_alike).refl q.filter,
    (equivalence_forall₂ Action.equivalence_alike).refl q.actions⟩
  symm h := ⟨(equivalence_optionRel FilterTree.equivalence_alike).symm h.filter,
    (equivalence_forall₂ Action.equivalence_alike).symm h.actions⟩
  trans h h' := ⟨(equivalence_optionRel FilterTree.equivalence_alike).trans h.filter h'.filter,
    (equivalence_forall₂ Action.equivalence_alike).trans h.actions h'.actions⟩

theorem beq_iff_alike (q q' : Query) : (q == q') = true ↔ q.Alike q' := by
  have hparts : (q == q') = (q.filter == q'.filter && q.actions == q'.actions) := rfl
  rw [hparts, Bool.and_eq_true, beq_iff_optionRel FilterTree.beq_iff_alike,
    beq_iff_forall₂ Action.beq_iff_alike]
  exact ⟨fun h => ⟨h.1, h.2⟩, fun h => ⟨h.filter, h.actions⟩⟩

end Query

/-! ## What equality sees -/

/-- A test that decides an equivalence is one. -/
theorem equivalence_beq {α : Type} [BEq α] {r : α → α → Prop} (hr : Equivalence r)
    (h : ∀ item item' : α, (item == item') = true ↔ r item item') :
    Equivalence fun item item' : α => (item == item') = true := by
  have heq : (fun item item' : α => (item == item') = true) = r :=
    funext fun item => funext fun item' => propext (h item item')
  rwa [heq]

namespace FilterTree

theorem join_beq_swap (left right : FilterTree) (joiner : Joiner) :
    (join left joiner right == join right joiner left) = (left == right) := by
  rw [Bool.eq_iff_iff, beq_iff_alike, beq_iff_alike, alike_join_iff]
  exact ⟨fun h => h.2.1, fun h => ⟨rfl, h, equivalence_alike.symm h⟩⟩

/-- The left sides would have to be equal, and one of them is a part of the other. -/
theorem join_beq_reassociated (first second third : FilterTree) (joiner joiner' : Joiner) :
    (join (join first joiner second) joiner' third ==
      join first joiner (join second joiner' third)) = false := by
  rw [Bool.eq_false_iff, ne_eq, beq_iff_alike, alike_join_iff]
  rintro ⟨-, hleft, -⟩
  have hcount := hleft.nodeCount_eq
  rw [nodeCount] at hcount
  omega

/-- Equality of trees and queries.

* Two trees are equal exactly if they are alike node by node: groups with groups, joined trees
  with trees that have the same joiner, and leaves with leaves, which have the same key, the same
  comparison and operands that stand for the same.
* So equality is an equivalence, on trees and on queries.
* A group is not equal to what it holds.  Sides that change places are seen, unless they are
  equal, and so is a change in which of two joiners comes first.
* In general, equal trees have pairwise equal filters from left to right, and trees with the
  same filters from left to right are equal only if they are put together in the same way. -/
theorem equal_iff_alike :
    (∀ tree tree' : FilterTree, (tree == tree') = true ↔ tree.Alike tree') ∧
    (Equivalence fun tree tree' : FilterTree => (tree == tree') = true) ∧
    (Equivalence fun q q' : Query => (q == q') = true) ∧
    (∀ tree : FilterTree, (group tree == tree) = false) ∧
    (∀ (left right : FilterTree) (joiner : Joiner),
      (join left joiner right == join right joiner left) = (left == right)) ∧
    (∀ (first second third : FilterTree) (joiner joiner' : Joiner),
      (join (join first joiner second) joiner' third ==
        join first joiner (join second joiner' third)) = false) ∧
    (∀ tree tree' : FilterTree, (tree == tree') = true →
      List.Forall₂ Filter.Alike tree.filters tree'.filters) ∧
    (∀ tree tree' : FilterTree, tree.filters = tree'.filters →
      ((tree == tree') = true ↔ tree = tree')) := by
  refine ⟨beq_iff_alike, equivalence_beq equivalence_alike beq_iff_alike,
    equivalence_beq Query.equivalence_alike Query.beq_iff_alike, ?_, join_beq_swap,
    join_beq_reassociated, ?_, ?_⟩
  · intro tree
    exact beq_eq_false_of_nodeCount (Nat.succ_ne_self tree.nodeCount)
  · intro tree tree' hequal
    rw [filters_eq_leaves, filters_eq_leaves]
    exact ((beq_iff_alike tree tree').mp hequal).leaves
  · intro tree tree' hfilters
    rw [filters_eq_leaves, filters_eq_leaves] at hfilters
    rw [beq_iff_alike]
    exact ⟨fun h => h.eq_of_leaves hfilters, fun h => h ▸ equivalence_alike.refl tree⟩

/-- One decimal at two scales makes two trees that are equal.  And the same three filters, joined
from the left and from the right, make two that are not. -/
theorem equal_iff_alike_scale :
    (∃ tree tree' : FilterTree, tree ≠ tree' ∧ (tree == tree') = true ∧
      List.Forall₂ Filter.Alike tree.filters tree'.filters) ∧
    ∃ tree tree' : FilterTree, tree.filters = tree'.filters ∧ (tree == tree') = false := by
  obtain ⟨-, -, -, -, -, -, hequal, hsame⟩ := equal_iff_alike
  constructor
  · have hdecimals : (leaf ⟨"a", .isIn, .list [.decimal ⟨10, 1, by decide, by decide⟩]⟩ ==
        leaf ⟨"a", .isIn, .list [.decimal ⟨100, 2, by decide, by decide⟩]⟩) = true := by
      decide +kernel
    exact ⟨_, _, by simp, hdecimals, hequal _ _ hdecimals⟩
  · let one : FilterTree := leaf ⟨"a", .equal, .scalar (.integer 1)⟩
    have hfilters : (join (join one .and one) .or one).filters =
        (join one .and (join one .or one)).filters := by
      rw [filters_eq_leaves, filters_eq_leaves]
      rfl
    refine ⟨_, _, hfilters, Bool.eq_false_iff.mpr fun h => ?_⟩
    cases (hsame _ _ hfilters).mp h

end FilterTree

end RecordQuery

import RecordQuery.Filter.Walk

/-!
# Walks by recursion

A walk keeps the work that is left in a list.  What it computes is said here by recursion
on the tree instead: `visit` evaluates the left subtree, then the right one, and then
combines the two.  A walk that stands in front of a tree does what `visit` does with the
tree, and goes on behind it (`walkFrom_visit`), whatever is pending.

The filters of a tree are its leaves from left to right (`filters_eq_leaves`).
-/

namespace RecordQuery.FilterTree

section

variable {ε σ α : Type}

/-- Evaluates a tree, each subtree before what it is combined with. -/
def visit (evaluate : Filter → EStateM ε σ α) (combine : α → Joiner → α → EStateM ε σ α) :
    FilterTree → EStateM ε σ α
  | leaf filter => evaluate filter
  | group inner => inner.visit evaluate combine
  | join left joiner right => do
    let leftValue ← left.visit evaluate combine
    let rightValue ← right.visit evaluate combine
    combine leftValue joiner rightValue

/-- A walk in front of a tree visits it, and goes on behind it with the value of the tree
or ends with the failure. -/
theorem walkFrom_visit (evaluate : Filter → EStateM ε σ α)
    (combine : α → Joiner → α → EStateM ε σ α) (tree : FilterTree)
    (pending : List (Pending α)) (state : σ) :
    walkFrom evaluate combine (.visit tree) pending state =
      match tree.visit evaluate combine state with
      | .ok value state => walkFrom evaluate combine (.resume value) pending state
      | .error error state => .error error state := by
  induction tree generalizing pending state with
  | leaf filter =>
      cases hfound : evaluate filter state with
      | error error state => simp only [walkFrom, visit, hfound]
      | ok value state => simp only [walkFrom, visit, hfound]
  | group inner ih => rw [walkFrom, visit, ih]
  | join left joiner right ihLeft ihRight =>
      rw [walkFrom, ihLeft, visit]
      simp only [bind, EStateM.bind]
      cases left.visit evaluate combine state with
      | error error state => rfl
      | ok leftValue state =>
          simp only
          rw [walkFrom, ihRight]
          cases right.visit evaluate combine state with
          | error error state => rfl
          | ok rightValue state =>
              cases hcombined : combine leftValue joiner rightValue state with
              | error error state => simp only [walkFrom, hcombined]
              | ok value state => simp only [walkFrom, hcombined]

/-- A walk visits its tree. -/
theorem tryWalk_eq_visit (evaluate : Filter → EStateM ε σ α)
    (combine : α → Joiner → α → EStateM ε σ α) (tree : FilterTree) :
    tree.tryWalk evaluate combine = tree.visit evaluate combine := by
  funext state
  rw [tryWalk, walkFrom_visit]
  cases tree.visit evaluate combine state with
  | ok value state => simp only [walkFrom]
  | error error state => rfl

end

/-! ## The filters of a tree -/

/-- The filters at the leaves of a tree, from left to right. -/
def leaves : FilterTree → List Filter
  | leaf filter => [filter]
  | group inner => inner.leaves
  | join left _ right => left.leaves ++ right.leaves

/-- A visit that notes each filter and combines nothing has noted the leaves, the latest
first. -/
theorem visit_note (tree : FilterTree) (seen : List Filter) :
    tree.visit (ε := Empty) (fun filter => neverFailing fun seen => ((), filter :: seen))
      (fun _ _ _ => neverFailing fun seen => ((), seen)) seen =
      .ok () (tree.leaves.reverse ++ seen) := by
  induction tree generalizing seen with
  | leaf filter => rfl
  | group inner ih => exact ih seen
  | join left joiner right ihLeft ihRight =>
      simp only [visit, bind, EStateM.bind, ihLeft, ihRight, leaves]
      simp [neverFailing]

theorem filters_eq_leaves (tree : FilterTree) : tree.filters = tree.leaves := by
  rw [filters, walk, tryWalk_eq_visit, visit_note, outcome, List.append_nil, List.reverse_reverse]

end RecordQuery.FilterTree

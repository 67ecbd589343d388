import RecordQuery.Filter.Printer
import RecordQuery.Proofs.Filter.Alike
import RecordQuery.Query.Json

/-!
# What a group changes

A group is a node of its own, so a tree with one more group is another tree.  But nothing
that reads a tree as a whole sees it: a walk goes through it, and so do all that are made
of walks, and the printer writes nothing for it.  Two trees that are the same without their
groups cannot be told apart by any of them (`indistinguishable_of_ungrouped`).

A chain can be given a group around any number of its first filters (`groupFirst`).  That
is the same chain without its groups, and it has one node more.
-/

namespace RecordQuery.FilterTree

/-! ## Trees without their groups -/

/-- A tree without its groups. -/
def ungrouped : FilterTree → FilterTree
  | leaf filter => leaf filter
  | group inner => inner.ungrouped
  | join left joiner right => join left.ungrouped joiner right.ungrouped

/-- Nothing that reads two trees as a whole tells one from the other.  A walk may keep a
state of any kind and may fail, so the two walks also call the same functions in the same
order. -/
structure Indistinguishable (tree tree' : FilterTree) : Prop where
  tryWalk : ∀ {ε σ α : Type} (evaluate : Filter → EStateM ε σ α)
    (combine : α → Joiner → α → EStateM ε σ α),
    tree.tryWalk evaluate combine = tree'.tryWalk evaluate combine
  walk : ∀ {σ α : Type} (evaluate : Filter → StateM σ α) (combine : α → Joiner → α → StateM σ α),
    tree.walk evaluate combine = tree'.walk evaluate combine
  fold : ∀ {σ α : Type} (visitor : Visitor σ α), tree.fold visitor = tree'.fold visitor
  display : tree.display = tree'.display
  filters : tree.filters = tree'.filters
  toJson : tree.toJson = tree'.toJson

theorem visit_ungrouped {ε σ α : Type} (evaluate : Filter → EStateM ε σ α)
    (combine : α → Joiner → α → EStateM ε σ α) (tree : FilterTree) :
    tree.ungrouped.visit evaluate combine = tree.visit evaluate combine := by
  induction tree with
  | leaf filter => rfl
  | group inner ih => exact ih
  | join left joiner right ihLeft ihRight => rw [ungrouped, visit, visit, ihLeft, ihRight]

/-! ## Printing by recursion -/

/-- What a tree is printed as. -/
def render : FilterTree → String
  | leaf filter => filter.display
  | group inner => inner.render
  | join left joiner right =>
    "\x7b " ++ left.render ++ " " ++ joiner.spelling ++ " " ++ right.render ++ " \x7d"

/-- A printer in front of a tree prints it and goes on behind it. -/
theorem printOnto_tree (tree : FilterTree) (printed : String) (pieces : List Piece) :
    printOnto printed (.tree tree :: pieces) = printOnto (printed ++ tree.render) pieces := by
  induction tree generalizing printed pieces with
  | leaf filter => rw [printOnto, render]
  | group inner ih => rw [printOnto, ih, render]
  | join left joiner right ihLeft ihRight =>
      rw [printOnto, ihLeft, printOnto, ihRight, printOnto, render]
      simp only [String.append_assoc]

theorem display_eq_render (tree : FilterTree) : tree.display = tree.render := by
  rw [FilterTree.display, printOnto_tree, printOnto, String.empty_append]

theorem render_ungrouped (tree : FilterTree) : tree.ungrouped.render = tree.render := by
  induction tree with
  | leaf filter => rfl
  | group inner ih => exact ih
  | join left joiner right ihLeft ihRight => rw [ungrouped, render, render, ihLeft, ihRight]

/-! ## Groups are not seen -/

/-- Trees that are the same without their groups cannot be told apart. -/
theorem indistinguishable_of_ungrouped {tree tree' : FilterTree}
    (h : tree.ungrouped = tree'.ungrouped) : tree.Indistinguishable tree' := by
  have htryWalk : ∀ {ε σ α : Type} (evaluate : Filter → EStateM ε σ α)
      (combine : α → Joiner → α → EStateM ε σ α),
      tree.tryWalk evaluate combine = tree'.tryWalk evaluate combine := by
    intro ε σ α evaluate combine
    rw [tryWalk_eq_visit, tryWalk_eq_visit, ← visit_ungrouped, h, visit_ungrouped]
  have hwalk : ∀ {σ α : Type} (evaluate : Filter → StateM σ α)
      (combine : α → Joiner → α → StateM σ α),
      tree.walk evaluate combine = tree'.walk evaluate combine := by
    intro σ α evaluate combine
    funext state
    rw [FilterTree.walk, htryWalk, FilterTree.walk]
  constructor
  case tryWalk => exact htryWalk
  case walk => exact hwalk
  case fold =>
    intro σ α visitor
    funext state
    rw [FilterTree.fold, htryWalk, FilterTree.fold]
  case display =>
    rw [display_eq_render, display_eq_render, ← render_ungrouped, h, render_ungrouped]
  case filters => rw [FilterTree.filters, hwalk, FilterTree.filters]
  case toJson =>
    rw [FilterTree.toJson, FilterTree.reduce, hwalk, FilterTree.toJson, FilterTree.reduce]

/-! ## A group around the first filters of a chain -/

/-- There is no group in a tree. -/
def GroupFree : FilterTree → Prop
  | leaf _ => True
  | group _ => False
  | join left _ right => left.GroupFree ∧ right.GroupFree

instance decidableGroupFree : DecidablePred GroupFree
  | leaf _ => .isTrue trivial
  | group _ => .isFalse not_false
  | join left _ right =>
    haveI := decidableGroupFree left
    haveI := decidableGroupFree right
    inferInstanceAs (Decidable (left.GroupFree ∧ right.GroupFree))

/-- The part of a chain that has its first filters. -/
def first (count : Nat) : FilterTree → FilterTree
  | leaf filter => leaf filter
  | group inner => group inner
  | join left joiner right =>
    if count ≤ left.leaves.length then left.first count else join left joiner right

/-- A chain with a group around its first filters. -/
def groupFirst (count : Nat) : FilterTree → FilterTree
  | leaf filter => group (leaf filter)
  | group inner => group (group inner)
  | join left joiner right =>
    if count ≤ left.leaves.length then join (left.groupFirst count) joiner right
    else group (join left joiner right)

theorem ungrouped_groupFirst (count : Nat) (tree : FilterTree) :
    (tree.groupFirst count).ungrouped = tree.ungrouped := by
  induction tree with
  | leaf filter => rfl
  | group inner ih => rfl
  | join left joiner right ihLeft ihRight =>
      rw [groupFirst]
      split
      · rw [ungrouped, ihLeft, ungrouped]
      · rfl

theorem nodeCount_groupFirst (count : Nat) (tree : FilterTree) :
    (tree.groupFirst count).nodeCount = tree.nodeCount + 1 := by
  induction tree with
  | leaf filter => rfl
  | group inner ih => rfl
  | join left joiner right ihLeft ihRight =>
      rw [groupFirst]
      split
      · rw [nodeCount, ihLeft, nodeCount]
        omega
      · rfl

/-- The group is the only thing that changes. -/
theorem indistinguishable_groupFirst (count : Nat) (tree : FilterTree) :
    (tree.groupFirst count).Indistinguishable tree :=
  indistinguishable_of_ungrouped (ungrouped_groupFirst count tree)

theorem groupFirst_beq (count : Nat) (tree : FilterTree) :
    (tree.groupFirst count == tree) = false := by
  refine beq_eq_false_of_nodeCount ?_
  rw [nodeCount_groupFirst]
  omega

end RecordQuery.FilterTree

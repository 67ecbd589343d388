import RecordQuery.Filter.Copy
import RecordQuery.Proofs.Filter.Groups

/-!
# Copies are what they are copied from

A copy is made in steps, and between two of them there is a tree in front of which the copying
stands or behind which it has a copy, and a list of what is left to do.  Together they stand for
one tree (`Building.whole`): what is left to do says, from the inside out, in which groups and
joined trees the tree at hand is to stand, and on which side.  No step changes that tree
(`copyFrom_eq_whole`), at the start it is the tree that is copied, and at the end it is the copy.
-/

namespace RecordQuery.FilterTree

/-- The tree that unfinished work makes of a tree. -/
def Unbuilt.finish (tree : FilterTree) : Unbuilt → FilterTree
  | group => .group tree
  | right joiner other => .join tree joiner other
  | join left joiner => .join left joiner tree

namespace Building

/-- The tree that copying stands in front of, or has a copy of. -/
def tree : Building → FilterTree
  | visit tree => tree
  | built copy => copy

/-- The whole tree that is being copied. -/
def whole (building : Building) (unbuilt : List Unbuilt) : FilterTree :=
  unbuilt.foldl Unbuilt.finish building.tree

end Building

/-- Whatever is left to do, copying comes to the tree that it stands for. -/
theorem copyFrom_eq_whole (building : Building) (unbuilt : List Unbuilt) :
    copyFrom building unbuilt = building.whole unbuilt := by
  -- the work that a step adds or takes away is the node that the step leaves or makes
  fun_induction copyFrom building unbuilt with
  | case1 filter unbuilt ih => exact ih
  | case2 inner unbuilt ih => exact ih
  | case3 left joiner right unbuilt ih => exact ih
  | case4 copy => rfl
  | case5 copy unbuilt ih => exact ih
  | case6 copy joiner tree unbuilt ih => exact ih
  | case7 copy left joiner unbuilt ih => exact ih

/-- A copy is the same tree, node by node and with the same filters.  So nothing tells it from
the tree that it was made from: not how it is printed or written as JSON, nor any walk. -/
theorem copy_eq_self (tree : FilterTree) :
    tree.copy = tree ∧ tree.copy.Indistinguishable tree := by
  have hcopy : tree.copy = tree := copyFrom_eq_whole (.visit tree) []
  exact ⟨hcopy, indistinguishable_of_ungrouped (congrArg ungrouped hcopy)⟩

end RecordQuery.FilterTree

import RecordQuery.Filter.Tree

/-!
# Equality of filter trees

Two trees are equal if they have the same shape and equal filters and joiners in the
same places.  A group is never equal to what it holds.
-/

namespace RecordQuery.FilterTree

/-- Whether the two trees of each pair are equal. -/
def allEqual (pairs : List (FilterTree × FilterTree)) : Bool :=
  match pairs with
  | [] => true
  | (leaf filter, leaf filter') :: pairs =>
    if filter == filter' then allEqual pairs else false
  | (group inner, group inner') :: pairs => allEqual ((inner, inner') :: pairs)
  | (join left joiner right, join left' joiner' right') :: pairs =>
    if joiner = joiner' then allEqual ((left, left') :: (right, right') :: pairs) else false
  | _ :: _ => false
termination_by total (fun pair => pair.1.nodeCount) pairs
decreasing_by all_goals simp only [total, nodeCount]; omega

instance : BEq FilterTree := ⟨fun tree tree' => allEqual [(tree, tree')]⟩

end RecordQuery.FilterTree

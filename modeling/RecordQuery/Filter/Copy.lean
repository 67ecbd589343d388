import RecordQuery.Filter.Tree

/-!
# Copies of filter trees

A copy is built anew from the leaves up, node by node, and shares no node with the
tree it was made from.
-/

namespace RecordQuery.FilterTree

/-- What is left to do once a subtree has been copied. -/
inductive Unbuilt where
  /-- Put the copy into a group. -/
  | group
  /-- Copy the right subtree that belongs to this copy. -/
  | right (joiner : Joiner) (tree : FilterTree)
  /-- Join a copied left subtree to this copy. -/
  | join (left : FilterTree) (joiner : Joiner)

/-- Where copying stands. -/
inductive Building where
  /-- In front of a subtree. -/
  | visit (tree : FilterTree)
  /-- Behind a subtree, with its copy. -/
  | built (copy : FilterTree)

/-- The steps that copying a tree takes, and one more. -/
def copyCost : FilterTree → Nat
  | leaf _ => 2
  | group inner => inner.copyCost + 2
  | join left _ right => left.copyCost + right.copyCost + 3

/-- The steps that unfinished work takes. -/
def Unbuilt.cost : Unbuilt → Nat
  | group => 1
  | right _ tree => tree.copyCost + 2
  | join _ _ => 1

/-- The steps from where copying stands up to the next unfinished work. -/
def Building.cost : Building → Nat
  | visit tree => tree.copyCost
  | built _ => 1

/-- Goes on with copying until nothing is unfinished. -/
def copyFrom (building : Building) (unbuilt : List Unbuilt) : FilterTree :=
  match building, unbuilt with
  | .visit (leaf filter), unbuilt => copyFrom (.built (leaf filter)) unbuilt
  | .visit (group inner), unbuilt => copyFrom (.visit inner) (.group :: unbuilt)
  | .visit (join left joiner right), unbuilt =>
    copyFrom (.visit left) (.right joiner right :: unbuilt)
  | .built copy, [] => copy
  | .built copy, .group :: unbuilt => copyFrom (.built (group copy)) unbuilt
  | .built copy, .right joiner tree :: unbuilt =>
    copyFrom (.visit tree) (.join copy joiner :: unbuilt)
  | .built copy, .join left joiner :: unbuilt =>
    copyFrom (.built (join left joiner copy)) unbuilt
termination_by building.cost + total Unbuilt.cost unbuilt
decreasing_by all_goals simp only [Building.cost, Unbuilt.cost, total, copyCost]; omega

/-- A copy of a tree. -/
def copy (tree : FilterTree) : FilterTree :=
  copyFrom (.visit tree) []

end RecordQuery.FilterTree

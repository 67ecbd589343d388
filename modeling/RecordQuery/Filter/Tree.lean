import RecordQuery.Filter.Basic

/-!
# Filter trees

Filters are combined by joiners into a tree.  A group in parentheses is a node of its
own: it holds one tree and means what that tree means.  A joiner belongs to a node
with two subtrees, so there is none without them.

Trees can be very deep, so what runs on them keeps the work that is left in a list and
does not recurse into subtrees.  What a node weighs is used to show that such work
comes to an end.
-/

namespace RecordQuery

/-- Filters, groups in parentheses, and what joiners make of them. -/
inductive FilterTree where
  | leaf (filter : Filter)
  | group (inner : FilterTree)
  | join (left : FilterTree) (joiner : Joiner) (right : FilterTree)

namespace FilterTree

/-! ## The parts of a node -/

/-- Whether a node is a single filter. -/
def isLeaf : FilterTree → Bool
  | leaf _ => true
  | _ => false

/-- The filter of a leaf. -/
def filter? : FilterTree → Option Filter
  | leaf filter => some filter
  | _ => none

/-- The left subtree, which is the only one of a group. -/
def left? : FilterTree → Option FilterTree
  | leaf _ => none
  | group inner => some inner
  | join left _ _ => some left

/-- The right subtree. -/
def right? : FilterTree → Option FilterTree
  | join _ _ right => some right
  | _ => none

/-- The joiner between the two subtrees. -/
def joiner? : FilterTree → Option Joiner
  | join _ joiner _ => some joiner
  | _ => none

/-- A tree joined to further trees one after the other, each time on the right. -/
def chain (first : FilterTree) (links : List (Joiner × FilterTree)) : FilterTree :=
  links.foldl (fun tree (joiner, next) => join tree joiner next) first

/-- The number of nodes of a tree. -/
def nodeCount : FilterTree → Nat
  | leaf _ => 1
  | group inner => inner.nodeCount + 1
  | join left _ right => left.nodeCount + right.nodeCount + 1

/-- What the items of a list weigh together. -/
def total {α : Type} (weight : α → Nat) : List α → Nat
  | [] => 0
  | item :: items => weight item + total weight items

/-! ## Nodes in preorder -/

/-- A node without its subtrees. -/
inductive Node where
  | leaf (filter : Filter)
  | group
  | join (joiner : Joiner)

/-- Lists the nodes of some trees, one tree after another and each node before its
subtrees, in front of which `seen` holds the nodes listed before, the latest first. -/
def listNodes (seen : List Node) : List FilterTree → List Node
  | [] => seen.reverse
  | leaf filter :: trees => listNodes (.leaf filter :: seen) trees
  | group inner :: trees => listNodes (.group :: seen) (inner :: trees)
  | join left joiner right :: trees => listNodes (.join joiner :: seen) (left :: right :: trees)
termination_by trees => total nodeCount trees
decreasing_by all_goals simp only [total, nodeCount]; omega

/-- The nodes of a tree: each one before its subtrees, the left before the right. -/
def preorder (tree : FilterTree) : List Node :=
  listNodes [] [tree]

end FilterTree

end RecordQuery

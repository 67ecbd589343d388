import RecordQuery.Filter.Tree

/-!
# Filter trees as text

A filter is written between brackets, and what a joiner makes of two trees between
braces, so the text shows how the tree is put together.  Groups leave no trace.
-/

namespace RecordQuery.FilterTree

/-- What is left to print. -/
inductive Piece where
  | tree (tree : FilterTree)
  /-- The joiner between two subtrees. -/
  | joiner (joiner : Joiner)
  /-- The brace that closes a joined tree. -/
  | close

/-- The steps that it takes to print a tree. -/
def printCost : FilterTree → Nat
  | leaf _ => 1
  | group inner => inner.printCost + 1
  | join left _ right => left.printCost + right.printCost + 3

/-- The steps that it takes to print a piece. -/
def Piece.cost : Piece → Nat
  | .tree subtree => subtree.printCost
  | .joiner _ => 1
  | .close => 1

/-- Prints some pieces behind what has been printed. -/
def printOnto (printed : String) (pieces : List Piece) : String :=
  match pieces with
  | [] => printed
  | .tree (leaf filter) :: pieces => printOnto (printed ++ filter.display) pieces
  | .tree (group inner) :: pieces => printOnto printed (.tree inner :: pieces)
  | .tree (join left joiner right) :: pieces =>
    printOnto (printed ++ "\x7b ") (.tree left :: .joiner joiner :: .tree right :: .close :: pieces)
  | .joiner joiner :: pieces => printOnto (printed ++ " " ++ joiner.spelling ++ " ") pieces
  | .close :: pieces => printOnto (printed ++ " \x7d") pieces
termination_by total Piece.cost pieces
decreasing_by all_goals simp only [total, Piece.cost, printCost]; omega

/-- A tree as text. -/
def display (tree : FilterTree) : String :=
  printOnto "" [.tree tree]

/-- A tree as text for inspection, which says what it shows. -/
def inspect (tree : FilterTree) : String :=
  "JoinerNode(" ++ tree.display ++ ")"

end RecordQuery.FilterTree

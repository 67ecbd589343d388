/-!
# Sets of characters given by ranges of code points

A class of characters that a standard defines by properties is written down here as
the list of its ranges.  Membership looks at the ranges in turn, so a table needs no
order to be right.
-/

namespace RecordQuery.Text

/-- A set of characters: the ranges of its code points, both ends included. -/
abbrev CodeSet := List (Nat × Nat)

namespace CodeSet

/-- Whether a character lies in one of the ranges. -/
def contains (set : CodeSet) (c : Char) : Bool :=
  set.any fun (first, last) => first ≤ c.toNat && c.toNat ≤ last

/-- A character is in two tables put together if it is in either of them. -/
theorem contains_append (left right : CodeSet) (c : Char) :
    contains (left ++ right) c = (left.contains c || right.contains c) := by
  simp [contains]

end CodeSet

end RecordQuery.Text

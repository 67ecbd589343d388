/-!
# Operators

A comparison relates the value of a field to an operand.  Comparisons are joined by
`and` and `or`.  Both kinds of operator are kept as they were written: what they mean
is up to whoever evaluates the query.
-/

namespace RecordQuery

/-! ## Comparisons -/

/-- A comparison operator. -/
inductive Comparison where
  /-- The field holds the operand, as an element or as a part of its text. -/
  | contains
  | notContains
  /-- The field is held by the operand. -/
  | isIn
  | isNotIn
  | equal
  | notEqual
  | greaterEqual
  | lessEqual
  | greater
  | less
  deriving DecidableEq, Repr

namespace Comparison

/-- All comparison operators. -/
def all : List Comparison :=
  [contains, notContains, isIn, isNotIn, equal, notEqual, greaterEqual, lessEqual, greater, less]

/-- The operator as it is written in a query. -/
def spelling : Comparison → String
  | contains => "contains"
  | notContains => "!contains"
  | isIn => "in"
  | isNotIn => "!in"
  | equal => "=="
  | notEqual => "!="
  | greaterEqual => ">="
  | lessEqual => "<="
  | greater => ">"
  | less => "<"

/-- The operator with the given spelling, if there is one. -/
def ofSpelling? (text : String) : Option Comparison :=
  all.find? fun operator => operator.spelling == text

/-- Whether the operator denies what another one states. -/
def isNegated : Comparison → Bool
  | notContains | isNotIn | notEqual => true
  | _ => false

/-- Whether the operator asks for an element or a part. -/
def isMembership : Comparison → Bool
  | contains | notContains | isIn | isNotIn => true
  | _ => false

/-- What is wrong with a text that spells no comparison operator. -/
def unknownMessage (text : String) : String :=
  "unknown comparison operator '" ++ text ++ "'"

theorem ofSpelling?_spelling (operator : Comparison) :
    ofSpelling? operator.spelling = some operator := by
  cases operator <;> decide

theorem eq_of_spelling {operator operator' : Comparison}
    (h : operator.spelling = operator'.spelling) : operator = operator' := by
  have hfound := ofSpelling?_spelling operator
  rw [h, ofSpelling?_spelling, Option.some.injEq] at hfound
  exact hfound.symm

end Comparison

/-! ## Joiners -/

/-- How two filters are combined. -/
inductive Joiner where
  | and
  | or
  deriving DecidableEq, Repr

namespace Joiner

/-- The joiner as it is written in a query. -/
def spelling : Joiner → String
  | and => "and"
  | or => "or"

/-- The joiner with the given spelling, if there is one. -/
def ofSpelling? (text : String) : Option Joiner :=
  [and, or].find? fun joiner => joiner.spelling == text

theorem eq_of_spelling {joiner joiner' : Joiner} (h : joiner.spelling = joiner'.spelling) :
    joiner = joiner' := by
  revert h
  cases joiner <;> cases joiner' <;> decide

end Joiner

end RecordQuery

import RecordQuery.Literal.Basic
import RecordQuery.Operator

/-!
# Filters

A filter compares one field of a record with an operand.
-/

namespace RecordQuery

/-- A single comparison. -/
structure Filter where
  /-- The field, possibly a path with points. -/
  key : String
  operator : Comparison
  operand : Operand
  deriving BEq

namespace Filter

/-- The names that the key is a path of. -/
def path (filter : Filter) : List String :=
  filter.key.splitOn "."

/-- A filter as it is written in a query. -/
def write (filter : Filter) : List Char :=
  filter.key.toList ++ ' ' :: (filter.operator.spelling.toList ++ ' ' :: filter.operand.write)

/-- A filter as text, between brackets. -/
def display (filter : Filter) : String :=
  String.ofList ('[' :: (filter.write ++ [']']))

end Filter

end RecordQuery

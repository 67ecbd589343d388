import RecordQuery.Number.Decimal

/-!
# Literals and operands

A literal is a value written in a query.  Times and dates keep the text they were
written with, so that whoever evaluates the query can decide what they mean.  Equality
`==` compares literals of one kind, decimals by value and times and dates by text;
literals of different kinds are never equal.
-/

namespace RecordQuery

/-- A value written in a query. -/
inductive Literal where
  /-- A quoted string, without its quotes and backslashes. -/
  | string (text : String)
  /-- A whole number. -/
  | integer (value : Int64)
  /-- A number with digits behind a point. -/
  | decimal (value : Decimal)
  /-- A time of day, as written. -/
  | time (text : String)
  /-- A date, as written. -/
  | date (text : String)
  /-- A date and a time of day, as written. -/
  | dateTime (text : String)
  deriving BEq

namespace Literal

/-- The value of a whole number. -/
def integer? : Literal → Option Int64
  | integer value => some value
  | _ => none

/-- A string between double quotes, the quotes inside it behind backslashes. -/
def writeString (cs : List Char) : List Char :=
  '"' :: (cs.flatMap fun c => if c = '"' then ['\\', '"'] else [c]) ++ ['"']

/-- A literal as it is written in a query. -/
def write : Literal → List Char
  | string text => writeString text.toList
  | integer value => Numeral.writeInt value.toInt
  | decimal value => value.write
  | time text | date text | dateTime text => text.toList

/-- A literal as text. -/
def display (literal : Literal) : String :=
  String.ofList literal.write

end Literal

/-- What a field is compared with. -/
inductive Operand where
  /-- A single literal. -/
  | scalar (literal : Literal)
  /-- Any number of literals, in order. -/
  | list (items : List Literal)
  deriving BEq

namespace Operand

/-- The literals of a list. -/
def items? : Operand → Option (List Literal)
  | list items => some items
  | scalar _ => none

/-- An operand as it is written in a query: a list stands between brackets, with
commas between its items. -/
def write : Operand → List Char
  | scalar literal => literal.write
  | list items => '[' :: ([',', ' '].intercalate (items.map Literal.write) ++ [']'])

/-- An operand as text. -/
def display (operand : Operand) : String :=
  String.ofList operand.write

end Operand

end RecordQuery

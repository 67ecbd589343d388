import RecordQuery.Literal.Basic

/-!
# Actions

An action says what to do with the records that a query has selected.  It is known by
its name and carries parameters; what they mean is up to whoever carries it out.
-/

namespace RecordQuery

/-- A parameter of an action. -/
inductive Param where
  /-- A field, possibly a path with points. -/
  | key (name : String)
  | literal (literal : Literal)
  deriving BEq

namespace Param

/-- A parameter as it is written in a query. -/
def write : Param → List Char
  | key name => name.toList
  | literal value => value.write

/-- A parameter as text. -/
def display (param : Param) : String :=
  String.ofList param.write

end Param

/-- Something to do with the selected records. -/
structure Action where
  /-- The name with its colon. -/
  key : String
  params : List Param
  deriving BEq

namespace Action

/-- The name without its colon. -/
def name (action : Action) : String :=
  match action.key.toList with
  | ':' :: name => String.ofList name
  | name => String.ofList name

/-- An action as it is written in a query, with a space before each parameter. -/
def write (action : Action) : List Char :=
  action.key.toList ++ action.params.flatMap fun param => ' ' :: param.write

/-- An action as text. -/
def display (action : Action) : String :=
  String.ofList action.write

end Action

end RecordQuery

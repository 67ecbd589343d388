import RecordQuery.Filter.Walk
import RecordQuery.Json.Printer
import RecordQuery.Query.Basic

/-!
# Queries as JSON

Hosts that do not share the types of this library take a query as JSON.  A joined tree
becomes an object with one field, named for the joiner, that holds both sides; groups
leave no trace.  Whole numbers stay numbers.  Decimals become strings, which keeps
their digits, and times and dates become the strings they were written as.  The fields
of every object come in ascending order of their names.
-/

namespace RecordQuery

/-- A literal as JSON. -/
def Literal.toJson : Literal → Json
  | integer value => .integer value.toInt
  | decimal value => .string value.display
  | string text | time text | date text | dateTime text => .string text

/-- An operand as JSON. -/
def Operand.toJson : Operand → Json
  | scalar literal => literal.toJson
  | list items => .array (items.map Literal.toJson)

/-- A filter as JSON. -/
def Filter.toJson (filter : Filter) : Json :=
  .object [("key", .string filter.key), ("op", .string filter.operator.spelling),
    ("value", filter.operand.toJson)]

/-- A filter tree as JSON. -/
def FilterTree.toJson (tree : FilterTree) : Json :=
  tree.reduce Filter.toJson fun left joiner right =>
    .object [(joiner.spelling, .array [left, right])]

/-- A parameter as JSON. -/
def Param.toJson : Param → Json
  | key name => .object [("key", .string name)]
  | literal value => value.toJson

/-- An action as JSON. -/
def Action.toJson (action : Action) : Json :=
  .object [("action", .string action.name), ("params", .array (action.params.map Param.toJson))]

/-- A query as JSON. -/
def Query.toJson (query : Query) : Json :=
  .object [("actions", .array (query.actions.map Action.toJson)),
    ("filter", match query.filter with
      | some tree => tree.toJson
      | none => .null)]

end RecordQuery

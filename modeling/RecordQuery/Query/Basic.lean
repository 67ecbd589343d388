import RecordQuery.Action
import RecordQuery.Filter.Equality
import RecordQuery.Filter.Printer

/-!
# Queries

A query selects records by its filters and then applies its actions to them, in order.
Without filters it selects every record, and without actions it does nothing to them.
-/

namespace RecordQuery

/-- A query. -/
structure Query where
  filter : Option FilterTree
  actions : List Action
  deriving BEq

namespace Query

/-- The query that selects everything and does nothing. -/
def empty : Query := ⟨none, []⟩

/-- Whether a query has neither filters nor actions. -/
def isEmpty (query : Query) : Bool :=
  query.filter.isNone && query.actions.isEmpty

/-- Actions as they are written in a query, with what separates them. -/
def writeActions (actions : List Action) : List Char :=
  '|' :: ' ' :: [';', ' '].intercalate (actions.map Action.write)

/-- A query as text: its filter tree and its actions. -/
def display (query : Query) : String :=
  match query.filter, query.actions with
  | none, [] => ""
  | none, actions => String.ofList (writeActions actions)
  | some tree, [] => tree.display
  | some tree, actions => tree.display ++ " " ++ String.ofList (writeActions actions)

end Query

end RecordQuery

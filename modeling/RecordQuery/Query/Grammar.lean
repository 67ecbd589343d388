import RecordQuery.Query.Basic
import RecordQuery.Query.Cursor

/-!
# The grammar of queries

A query is read along its grammar:

* a query is an optional chain of operands, and then optional actions behind a bar;
* an operand is a filter, or a chain of filters in parentheses;
* a chain is joined from the left, and both joiners bind alike;
* a filter is a key, a comparison, and a literal or a list of literals;
* an action is a name and at least one parameter, and semicolons stand between actions.

Groups do not nest.  Each reader looks at the token in view only, and fails in front of
the first token that no query could have there.
-/

namespace RecordQuery.Reader

/-! ## What tokens carry -/

/-- The literal that a token is. -/
def literalOf? : Token → Option Literal
  | .literal literal => some literal
  | _ => none

/-- The key that a token is. -/
def keyOf? : Token → Option String
  | .key name => some name
  | _ => none

/-- The comparison that a token is. -/
def comparisonOf? : Token → Option Comparison
  | .comparison operator => some operator
  | _ => none

/-- The joiner that a token is. -/
def joinerOf? : Token → Option Joiner
  | .joiner joiner => some joiner
  | _ => none

/-- The action name that a token is. -/
def actionKeyOf? : Token → Option String
  | .actionKey name => some name
  | _ => none

/-- The parameter that a token is. -/
def paramOf? : Token → Option Param
  | .key name => some (.key name)
  | .literal literal => some (.literal literal)
  | _ => none

/-- Whether a token is the given punctuation mark. -/
def isMark? (mark : Mark) : Token → Option Unit
  | .mark found => if found = mark then some () else none
  | _ => none

/-! ## Operands of a comparison -/

/-- One more item of a list, if a comma is in view. -/
def nextItem? : Reader (Option Literal) := do
  match ← accept? (isMark? .comma) with
  | none => pure none
  | some () => some <$> accept literalOf? .value

/-- The rest of a list, behind its opening bracket. -/
def listItems : Reader (List Literal) := do
  match ← accept? (isMark? .closeBracket) with
  | some () => pure []
  | none =>
    let first ← accept literalOf? .value
    let others ← many nextItem?
    accept (isMark? .closeBracket) .commaOrBracket
    pure (first :: others)

/-- A literal or a list of literals. -/
def operand : Reader Operand := do
  match ← accept? (isMark? .openBracket) with
  | some () => .list <$> listItems
  | none => .scalar <$> accept literalOf? .valueOrArray

/-! ## Filters -/

/-- A filter. -/
def filter : Reader Filter := do
  let key ← accept keyOf? .key
  let operator ← accept comparisonOf? .comparison
  let operand ← operand
  pure ⟨key, operator, operand⟩

/-- A joiner and what it joins, if a joiner is in view. -/
def link? (part : Reader FilterTree) : Reader (Option (Joiner × FilterTree)) := do
  match ← accept? joinerOf? with
  | none => pure none
  | some joiner =>
    let tree ← part
    pure (some (joiner, tree))

/-- Parts with joiners between them, joined from the left. -/
def chainOf (part : Reader FilterTree) : Reader FilterTree := do
  let first ← part
  let links ← many (link? part)
  pure (first.chain links)

/-- A filter, or a group of filters in parentheses. -/
def filterOrGroup : Reader FilterTree := do
  match ← peek with
  | some (.key _) => .leaf <$> filter
  | some (.mark .openParen) =>
    advance
    let inner ← chainOf (.leaf <$> filter)
    accept (isMark? .closeParen) .joinerOrParen
    pure (.group inner)
  | _ => fail .filterOrParen

/-- Whether filters start with this token. -/
def startsFilters : Option Token → Bool
  | some (.key _) | some (.mark .openParen) => true
  | _ => false

/-- The filters of a query, if it has any. -/
def filters? : Reader (Option FilterTree) := do
  if startsFilters (← peek) then
    some <$> chainOf filterOrGroup
  else
    pure none

/-! ## Actions -/

/-- An action. -/
def action : Reader Action := do
  let key ← accept actionKeyOf? .actionKey
  match ← many (accept? paramOf?) with
  | [] => fail .actionParameter
  | params => pure ⟨key, params⟩

/-- One more action, if a semicolon is in view. -/
def nextAction? : Reader (Option Action) := do
  match ← accept? (isMark? .semicolon) with
  | none => pure none
  | some () => some <$> action

/-- The actions of a query, if a bar is in view. -/
def actions : Reader (List Action) := do
  match ← accept? (isMark? .pipe) with
  | none => pure []
  | some () =>
    let first ← action
    let others ← many nextAction?
    pure (first :: others)

/-! ## Queries -/

/-- What could stand where a query is complete so far. -/
def expectedBehind (filter : Option FilterTree) (actions : List Action) : Expectation :=
  if !actions.isEmpty then .endOfAction
  else if filter.isSome then .endOfFilters
  else .queryStart

/-- A query, up to the end of the text. -/
def query : Reader Query := do
  let filter ← filters?
  let actions ← actions
  match ← peek with
  | some _ => fail (expectedBehind filter actions)
  | none =>
    tell (.parsed filter.isSome actions.length)
    pure ⟨filter, actions⟩

end RecordQuery.Reader

import RecordQuery.Literal.Fault
import RecordQuery.Text.Marker
import RecordQuery.Text.Place
import RecordQuery.Text.Quoted

/-!
# Diagnostics

A query is refused either because its text cannot be read as tokens, or because its
tokens do not form a query.  Each error knows its place, and its cause is a value: the
wording is in `message`, and `render` shows the error under the line it occurred on.
-/

namespace RecordQuery

/-! ## Errors in the text -/

/-- Why a text cannot be read as tokens. -/
inductive LexError where
  /-- No token starts like this. -/
  | unrecognized (place : Text.Place) (text : String)
  /-- A quote is opened and never closed. -/
  | unterminatedString (place : Text.Place) (text : String)
  /-- A token has the right shape and stands for no value. -/
  | invalidLiteral (place : Text.Place) (text : String) (fault : LiteralFault)
  deriving DecidableEq, Repr

namespace LexError

/-- Where the offending text starts. -/
def place : LexError → Text.Place
  | unrecognized place _ | unterminatedString place _ | invalidLiteral place _ _ => place

/-- The offending text. -/
def text : LexError → String
  | unrecognized _ text | unterminatedString _ text | invalidLiteral _ text _ => text

/-- The wording of an error. -/
def message : LexError → String
  | unrecognized place text =>
    "unrecognized input " ++ Text.quoted text ++ " on line " ++ toString place.line
  | unterminatedString place _ =>
    "unterminated string literal on line " ++ toString place.line
  | invalidLiteral place text fault =>
    "invalid " ++ fault.kind.name ++ " literal " ++ Text.quoted text ++ " on line " ++
      toString place.line ++ ": " ++ fault.reason.message

end LexError

/-! ## Errors in the order of tokens -/

/-- What could have stood where a query went wrong.  `other` lets a host that reads
queries of its own word its expectations. -/
inductive Expectation where
  /-- At the start of an operand of `and` and `or`. -/
  | filterOrParen
  /-- At the start of a filter. -/
  | key
  /-- Behind the key of a filter. -/
  | comparison
  /-- Behind the comparison of a filter. -/
  | valueOrArray
  /-- Where a list needs an item. -/
  | value
  /-- Behind an item of a list. -/
  | commaOrBracket
  /-- Behind a filter of a group. -/
  | joinerOrParen
  /-- Where an action has to start. -/
  | actionKey
  /-- Behind the name of an action. -/
  | actionParameter
  /-- Behind a complete action. -/
  | endOfAction
  /-- Behind complete filters. -/
  | endOfFilters
  /-- At the start of a query. -/
  | queryStart
  | other (phrase : String)
  deriving DecidableEq, Repr

/-- The wording of an expectation. -/
def Expectation.phrase : Expectation → String
  | filterOrParen => "a filter or '('"
  | key => "a key"
  | comparison => "a comparison operator"
  | valueOrArray => "a value or array"
  | value => "a value"
  | commaOrBracket => "',' or ']'"
  | joinerOrParen => "'and', 'or' or ')'"
  | actionKey => "an action key"
  | actionParameter => "an action parameter"
  | endOfAction => "an action parameter, ';' or end of input"
  | endOfFilters => "'and', 'or', '|' or end of input"
  | queryStart => "a filter, '(' or '|'"
  | other phrase => phrase

/-- Why tokens do not form a query. -/
inductive ParseError where
  /-- A token that cannot stand where it does, as `Token.describe` names it. -/
  | unexpectedToken (place : Text.Place) (found : String) (expected : Expectation)
  /-- The input ends in the middle of something. -/
  | unexpectedEnd (place : Text.Place) (expected : Expectation)
  deriving DecidableEq, Repr

namespace ParseError

/-- Where the query went wrong. -/
def place : ParseError → Text.Place
  | unexpectedToken place _ _ | unexpectedEnd place _ => place

/-- What could have stood there. -/
def expected : ParseError → Expectation
  | unexpectedToken _ _ expected | unexpectedEnd _ expected => expected

/-- The wording of an error. -/
def message : ParseError → String
  | unexpectedToken place found expected =>
    "unexpected " ++ found ++ " on line " ++ toString place.line ++ ", expected " ++
      expected.phrase
  | unexpectedEnd place expected =>
    "unexpected end of input on line " ++ toString place.line ++ ", expected " ++
      expected.phrase

end ParseError

/-! ## Errors of either sort -/

/-- Why a query is refused. -/
inductive Error where
  | lexical (error : LexError)
  | syntactic (error : ParseError)
  deriving DecidableEq, Repr

namespace Error

/-- Where the query went wrong. -/
def place : Error → Text.Place
  | lexical error => error.place
  | syntactic error => error.place

/-- The wording of an error. -/
def message : Error → String
  | lexical error => "lexical error: " ++ error.message
  | syntactic error => "parse error: " ++ error.message

/-- The wording of an error, the line of the text it occurred on, and a row of markers
under that line. -/
def render (error : Error) (source : String) : String :=
  error.message ++ "\n" ++ Text.underline source error.place.offset

end Error

end RecordQuery

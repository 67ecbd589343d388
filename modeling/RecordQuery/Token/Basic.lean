import RecordQuery.Literal.Basic
import RecordQuery.Operator
import RecordQuery.Text.Place
import RecordQuery.Text.Quoted

/-!
# Tokens

The words of the language.  A token that was read from a query also knows where it
stands and how many bytes it covers.
-/

namespace RecordQuery

/-- A punctuation mark. -/
inductive Mark where
  /-- Opens a group of filters. -/
  | openParen
  | closeParen
  /-- Opens a list of literals. -/
  | openBracket
  | closeBracket
  /-- Introduces the actions. -/
  | pipe
  /-- Stands between the items of a list. -/
  | comma
  /-- Stands between actions. -/
  | semicolon
  deriving DecidableEq, Repr

namespace Mark

/-- All punctuation marks. -/
def all : List Mark :=
  [openParen, closeParen, openBracket, closeBracket, pipe, comma, semicolon]

/-- The character of a mark. -/
def char : Mark → Char
  | openParen => '('
  | closeParen => ')'
  | openBracket => '['
  | closeBracket => ']'
  | pipe => '|'
  | comma => ','
  | semicolon => ';'

/-- The mark that a character is, if it is one. -/
def ofChar? (c : Char) : Option Mark :=
  all.find? fun mark => mark.char == c

end Mark

/-- A word of the language. -/
inductive Token where
  | mark (mark : Mark)
  /-- The name of an action, with its colon. -/
  | actionKey (name : String)
  | comparison (operator : Comparison)
  | joiner (joiner : Joiner)
  /-- The name of a field, possibly a path with points. -/
  | key (name : String)
  | literal (literal : Literal)
  deriving BEq

namespace Token

/-- A token as a message names it. -/
def describe : Token → String
  | mark m => "'" ++ m.char.toString ++ "'"
  | actionKey name => "action key '" ++ name ++ "'"
  | comparison operator => "operator '" ++ operator.spelling ++ "'"
  | joiner j => "joining operator '" ++ j.spelling ++ "'"
  | key name => "key '" ++ name ++ "'"
  | literal (.time text) => "time " ++ text
  | literal (.date text) => "date " ++ text
  | literal (.dateTime text) => "datetime " ++ text
  | literal (.string text) => "string " ++ Text.quoted text
  | literal number => "number " ++ number.display

end Token

/-- A token and where it stands. -/
structure Spanned where
  token : Token
  /-- The place of its first character. -/
  place : Text.Place
  /-- The number of bytes of the text it was read from. -/
  length : Nat
  deriving BEq

end RecordQuery

import RecordQuery.Query.Grammar

/-!
# Reading queries from text

A text is read with options, and the reading can be followed in a trace: what the readers
have logged, in order, and an error that they come to.  An empty text is the empty query
and leaves no trace.
-/

namespace RecordQuery

/-- How a text is read. -/
structure Options where
  /-- Whether white space at both ends of the text is left out. -/
  trim : Bool := true
  /-- Whether times and dates have to be real ones. -/
  validate : Bool := false
  deriving DecidableEq, Repr

/-- The text that is read. -/
def Options.textOf (options : Options) (input : String) : String :=
  if options.trim then Text.trim input else input

namespace Query

/-- Reads the tokens of a lexer as a query.  The result comes with what has happened, the
latest first. -/
def ofLexer (lexer : Lexer) : Except Error Query × List Event :=
  match Cursor.start lexer with
  | .error error => (.error error, [])
  | .ok cursor =>
    match Reader.query cursor with
    | .ok query cursor => (.ok query, cursor.log)
    | .error error cursor => (.error error, cursor.log)

/-- Reads a text as a query, with a trace. -/
def parseTraced (options : Options) (input : String) : Except Error Query × List Event :=
  let text := options.textOf input
  if text.isEmpty then
    (.ok empty, [])
  else
    match ofLexer ((Lexer.start text).withValidation options.validate) with
    | (.ok query, log) => (.ok query, log.reverse)
    | (.error error, log) => (.error error, (.rejected error :: log).reverse)

/-- Reads a text as a query. -/
def parse (options : Options) (input : String) : Except Error Query :=
  (parseTraced options input).1

end Query

end RecordQuery

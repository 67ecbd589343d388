import RecordQuery.Text.Unprintable

/-!
# Quoted text in messages

A message that shows a piece of the input puts it between double quotes.  Inside
them a backslash introduces an escape: the usual ones for NUL, tab, line feed,
carriage return, the quote and the backslash, and the code point in lower case
hexadecimal for any other character that would not show.
-/

namespace RecordQuery.Text

/-- The escape of a character by its code point, in braces and without padding. -/
def codeEscape (c : Char) : List Char :=
  ['\\', 'u', '\x7b'] ++ Nat.toDigits 16 c.toNat ++ ['\x7d']

/-- A character as it stands between the quotes. -/
def quotedChar (c : Char) : List Char :=
  match c with
  | '\x00' => ['\\', '0']
  | '\t' => ['\\', 't']
  | '\n' => ['\\', 'n']
  | '\r' => ['\\', 'r']
  | '"' => ['\\', '"']
  | '\\' => ['\\', '\\']
  | c => if isUnprintable c then codeEscape c else [c]

/-- A text between double quotes, with its escapes. -/
def quoted (text : String) : String :=
  String.ofList ('"' :: (text.toList.flatMap quotedChar ++ ['"']))

end RecordQuery.Text

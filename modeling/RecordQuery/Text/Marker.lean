/-!
# Marking a place in a text

A diagnostic shows the line that holds the offending place, and under it a row of
markers: a low line under each character before the place, a caret under each
character from the place to the end of the line.  At the end of a line there is
still one caret to see.
-/

namespace RecordQuery.Text

/-- Splits a text at a byte offset.  An offset inside a character is moved back to
the start of that character, and one beyond the text to its end. -/
def splitAtOffset : Nat → List Char → List Char × List Char
  | _, [] => ([], [])
  | offset, c :: cs =>
    if c.utf8Size ≤ offset then
      let (before, after) := splitAtOffset (offset - c.utf8Size) cs
      (c :: before, after)
    else
      ([], c :: cs)

/-- What a text holds behind its last line feed. -/
def lastLine (cs : List Char) : List Char :=
  (cs.reverse.takeWhile (· ≠ '\n')).reverse

/-- What a text holds before its first line feed. -/
def firstLine (cs : List Char) : List Char :=
  cs.takeWhile (· ≠ '\n')

/-- The line that holds the given place, and the row of markers under it. -/
def underline (source : String) (offset : Nat) : String :=
  let (before, after) := splitAtOffset offset source.toList
  let consumed := lastLine before
  let remaining := firstLine after
  String.ofList
    (consumed ++ remaining ++ ['\n'] ++ List.replicate consumed.length '_' ++
      List.replicate (max 1 remaining.length) '^')

end RecordQuery.Text

import RecordQuery.Json.Basic
import RecordQuery.Number.Integer

/-!
# JSON as text

A value is written in one of two layouts, on one line without any spaces or with one
item or field to a line.  Values can be very deep, so the printer keeps the pieces that
are left in a list.
-/

namespace RecordQuery.Json

/-! ## Strings -/

/-- A character as it stands in a string. -/
def escapedChar (c : Char) : List Char :=
  match c with
  | '"' => ['\\', '"']
  | '\\' => ['\\', '\\']
  | '\x08' => ['\\', 'b']
  | '\x0c' => ['\\', 'f']
  | '\n' => ['\\', 'n']
  | '\r' => ['\\', 'r']
  | '\t' => ['\\', 't']
  | c =>
    if c.toNat < 0x20 then
      ['\\', 'u', '0', '0', Nat.digitChar (c.toNat / 16), Nat.digitChar (c.toNat % 16)]
    else
      [c]

/-- A string between its quotes. -/
def quote (text : String) : String :=
  String.ofList ('"' :: (text.toList.flatMap escapedChar ++ ['"']))

/-! ## Layouts -/

/-- How values are laid out. -/
structure Layout where
  /-- What stands before an item, a field or a closing bracket of the given depth. -/
  lineStart : Nat → String
  /-- What stands between the name of a field and its value. -/
  colon : String

namespace Layout

/-- Everything on one line and nothing between. -/
def compact : Layout := ⟨fun _ => "", ":"⟩

/-- A line for each item and each field, two spaces further in with each depth. -/
def pretty : Layout :=
  ⟨fun depth => String.ofList ('\n' :: List.replicate (2 * depth) ' '), ": "⟩

end Layout

/-! ## The printer -/

/-- What is left to print. -/
inductive Piece where
  /-- A value. -/
  | value (value : Json)
  /-- The items of an array that follow an item, and its closing bracket. -/
  | items (items : List Json)
  /-- The fields of an object that follow a field, and its closing brace. -/
  | fields (fields : List (String × Json))

mutual

/-- The steps that it takes to print a value. -/
def printCost : Json → Nat
  | .array (item :: others) => printCost item + itemsCost others + 1
  | .object ((_, value) :: others) => printCost value + fieldsCost others + 1
  | _ => 1

/-- The steps that it takes to print the items that follow an item. -/
def itemsCost : List Json → Nat
  | [] => 1
  | item :: others => printCost item + itemsCost others + 1

/-- The steps that it takes to print the fields that follow a field. -/
def fieldsCost : List (String × Json) → Nat
  | [] => 1
  | (_, value) :: others => printCost value + fieldsCost others + 1

end

/-- The steps that it takes to print a piece. -/
def Piece.cost : Piece → Nat
  | .value subject => subject.printCost
  | .items others => itemsCost others
  | .fields others => fieldsCost others

/-- The steps that it takes to print some pieces. -/
def piecesCost : List (Nat × Piece) → Nat
  | [] => 0
  | (_, piece) :: pieces => piece.cost + piecesCost pieces

/-- Prints some pieces, each with its depth, behind what has been printed. -/
def printOnto (layout : Layout) (printed : String) (pieces : List (Nat × Piece)) : String :=
  match pieces with
  | [] => printed
  | (depth, .value subject) :: pieces =>
    match subject with
    | .null => printOnto layout (printed ++ "null") pieces
    | .integer value => printOnto layout (printed ++ String.ofList (Numeral.writeInt value)) pieces
    | .string text => printOnto layout (printed ++ quote text) pieces
    | .array [] => printOnto layout (printed ++ "[]") pieces
    | .array (item :: others) =>
      printOnto layout (printed ++ "[" ++ layout.lineStart (depth + 1))
        ((depth + 1, .value item) :: (depth, .items others) :: pieces)
    | .object [] => printOnto layout (printed ++ "\x7b\x7d") pieces
    | .object ((name, value) :: others) =>
      printOnto layout
        (printed ++ "\x7b" ++ layout.lineStart (depth + 1) ++ quote name ++ layout.colon)
        ((depth + 1, .value value) :: (depth, .fields others) :: pieces)
  | (depth, .items []) :: pieces =>
    printOnto layout (printed ++ layout.lineStart depth ++ "]") pieces
  | (depth, .items (item :: others)) :: pieces =>
    printOnto layout (printed ++ "," ++ layout.lineStart (depth + 1))
      ((depth + 1, .value item) :: (depth, .items others) :: pieces)
  | (depth, .fields []) :: pieces =>
    printOnto layout (printed ++ layout.lineStart depth ++ "\x7d") pieces
  | (depth, .fields ((name, value) :: others)) :: pieces =>
    printOnto layout
      (printed ++ "," ++ layout.lineStart (depth + 1) ++ quote name ++ layout.colon)
      ((depth + 1, .value value) :: (depth, .fields others) :: pieces)
termination_by piecesCost pieces
decreasing_by
  all_goals simp only [piecesCost, Piece.cost, printCost, itemsCost, fieldsCost]; omega

/-- A value as text. -/
def print (layout : Layout) (value : Json) : String :=
  printOnto layout "" [(0, .value value)]

end RecordQuery.Json

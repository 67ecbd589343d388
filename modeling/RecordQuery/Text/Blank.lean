import RecordQuery.Text.CodeSet

/-!
# Blank characters

White space separates the tokens of a query and is otherwise ignored.  The same set
serves between tokens, inside date and time literals, and at the two ends of a
query that is trimmed.
-/

namespace RecordQuery.Text

/-- The white space of the Unicode standard. -/
def blankCharacters : CodeSet :=
  [(0x09, 0x0D), (0x20, 0x20), (0x85, 0x85), (0xA0, 0xA0), (0x1680, 0x1680), (0x2000, 0x200A),
   (0x2028, 0x2029), (0x202F, 0x202F), (0x205F, 0x205F), (0x3000, 0x3000)]

/-- Whether a character is white space. -/
def isBlank (c : Char) : Bool :=
  blankCharacters.contains c

/-- A text without the white space at its start. -/
def dropBlanks (cs : List Char) : List Char :=
  cs.dropWhile isBlank

theorem takeWhile_append_dropBlanks (cs : List Char) :
    cs.takeWhile isBlank ++ dropBlanks cs = cs :=
  List.takeWhile_append_dropWhile

theorem dropBlanks_append_of_blank {gap : List Char} (h : ∀ c ∈ gap, isBlank c = true)
    (cs : List Char) : dropBlanks (gap ++ cs) = dropBlanks cs :=
  List.dropWhile_append_of_pos h

theorem dropBlanks_dropBlanks (cs : List Char) : dropBlanks (dropBlanks cs) = dropBlanks cs := by
  induction cs with
  | nil => rfl
  | cons c cs ih =>
      by_cases hblank : isBlank c = true
      · rw [show dropBlanks (c :: cs) = dropBlanks cs from List.dropWhile_cons_of_pos hblank, ih]
      · have hstays : dropBlanks (c :: cs) = c :: cs := List.dropWhile_cons_of_neg hblank
        rw [hstays, hstays]

theorem takeWhile_of_dropBlanks {cs : List Char} (h : dropBlanks cs = cs) :
    cs.takeWhile isBlank = [] := by
  have hsplit := takeWhile_append_dropBlanks cs
  rw [h] at hsplit
  exact List.append_left_eq_self.mp hsplit

/-- A text without the white space at both ends. -/
def trimBlanks (cs : List Char) : List Char :=
  (dropBlanks (dropBlanks cs).reverse).reverse

/-- A string without the white space at both ends. -/
def trim (text : String) : String :=
  String.ofList (trimBlanks text.toList)

end RecordQuery.Text

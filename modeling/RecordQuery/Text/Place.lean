/-!
# Places in a text

A place is told by two numbers: how many bytes of UTF-8 stand before it, and the
line it is on, where lines are counted from one and only `'\n'` ends a line.
-/

namespace RecordQuery.Text

/-- A place in a text. -/
structure Place where
  /-- The number of bytes before the place. -/
  offset : Nat
  /-- The line of the place, the first line being line one. -/
  line : Nat
  deriving DecidableEq, Repr

namespace Place

/-- The start of a text. -/
def start : Place := ⟨0, 1⟩

/-- The place behind one more character. -/
def step (place : Place) (c : Char) : Place :=
  ⟨place.offset + c.utf8Size, if c = '\n' then place.line + 1 else place.line⟩

/-- The place behind a text that starts at the given place. -/
def advance (place : Place) (cs : List Char) : Place :=
  cs.foldl step place

@[simp] theorem advance_nil (place : Place) : place.advance [] = place := rfl

@[simp] theorem advance_cons (place : Place) (c : Char) (cs : List Char) :
    place.advance (c :: cs) = (place.step c).advance cs := rfl

theorem advance_append (place : Place) (cs ds : List Char) :
    place.advance (cs ++ ds) = (place.advance cs).advance ds := by
  simp [advance]

end Place

/-- The number of bytes that a text takes in UTF-8. -/
def byteLength : List Char → Nat
  | [] => 0
  | c :: cs => c.utf8Size + byteLength cs

@[simp] theorem byteLength_nil : byteLength [] = 0 := rfl

@[simp] theorem byteLength_cons (c : Char) (cs : List Char) :
    byteLength (c :: cs) = c.utf8Size + byteLength cs := rfl

theorem offset_advance (place : Place) (cs : List Char) :
    (place.advance cs).offset = place.offset + byteLength cs := by
  induction cs generalizing place with
  | nil => rfl
  | cons c cs ih =>
      rw [Place.advance_cons, ih, byteLength_cons]
      simp only [Place.step]
      omega

end RecordQuery.Text

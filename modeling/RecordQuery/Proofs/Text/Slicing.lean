import Mathlib.Order.Bounds.Basic
import RecordQuery.Diagnostic
import RecordQuery.Proofs.Text.Marker
import RecordQuery.Proofs.Token.Stream

/-!
# Marking any offset

A diagnostic can be asked for at any byte offset, between two characters or inside of one,
on a line feed, or far beyond the end.  Where an error stands between two characters of its
text `underline_byteLength` says what is shown; here the offset and the text have nothing to
do with each other.

The diagnostic is written down once more as it is cut out of the bytes of a text
(`underlineBySlices?`): the offset is moved back to a boundary between characters, line
feeds are looked for on both sides, and the line and its parts are slices.  A slice is there
only between boundaries (`slice?`), so it could fail.  It never does and comes to the
diagnostic of `underline`, which shows the one line that the boundary is on
(`exists_marks`).
-/

namespace RecordQuery.Text

variable {source : String} {cs front middle back : List Char} {offset place : Nat}

/-! ## The diagnostic in bytes -/

/-- The text between two byte offsets.  There is none unless both offsets are boundaries
between characters, and in order. -/
def slice? (source : String) (first last : Nat) : Option String :=
  if h : String.Pos.Raw.IsValid source ⟨first⟩ ∧ String.Pos.Raw.IsValid source ⟨last⟩ then
    if first ≤ last then
      some (source.extract (source.pos ⟨first⟩ h.1) (source.pos ⟨last⟩ h.2))
    else
      none
  else
    none

/-- The last boundary that is not behind the given offset. -/
def boundaryAt (source : String) : Nat → Nat
  | 0 => 0
  | offset + 1 =>
    if String.Pos.Raw.IsValid source ⟨offset + 1⟩ then offset + 1 else boundaryAt source offset

/-- The byte offsets of the line feeds in a text. -/
def feedOffsets : List Char → List Nat
  | [] => []
  | c :: cs =>
    let later := (feedOffsets cs).map (c.utf8Size + ·)
    if c = '\n' then 0 :: later else later

/-- The row of markers under a line: low lines under what stands before a place, and carets
from there on, at least one. -/
def markers (consumed remaining : List Char) : List Char :=
  List.replicate consumed.length '_' ++ List.replicate (max 1 remaining.length) '^'

/-- The line that holds an offset, and the markers under it, cut out of the bytes of a
text. -/
def underlineBySlices? (source : String) (offset : Nat) : Option String := do
  let place := boundaryAt source (min offset source.utf8ByteSize)
  let front ← slice? source 0 place
  let back ← slice? source place source.utf8ByteSize
  let lineStart := (feedOffsets front.toList).getLast?.elim 0 (· + 1)
  let lineEnd := (feedOffsets back.toList).head?.elim source.utf8ByteSize (place + ·)
  let line ← slice? source lineStart lineEnd
  let consumed ← slice? source lineStart place
  let remaining ← slice? source place lineEnd
  some (line ++ "\n" ++ String.ofList (markers consumed.toList remaining.toList))

/-! ## Boundaries and slices -/

/-- Between two boundaries there is a slice. -/
theorem slice?_byteLength (h : source.toList = front ++ (middle ++ back)) :
    slice? source (byteLength front) (byteLength (front ++ middle)) =
      some (String.ofList middle) := by
  have hfirst : String.Pos.Raw.IsValid source ⟨byteLength front⟩ :=
    isValid_iff.mpr ⟨front, middle ++ back, h, rfl⟩
  have hlast : String.Pos.Raw.IsValid source ⟨byteLength (front ++ middle)⟩ :=
    isValid_iff.mpr ⟨front ++ middle, back, by rw [h, List.append_assoc], rfl⟩
  have hle : byteLength front ≤ byteLength (front ++ middle) := by
    rw [byteLength_append]
    exact Nat.le_add_right _ _
  rw [slice?, dif_pos ⟨hfirst, hlast⟩, if_pos hle, Option.some_inj, ← String.toByteArray_inj,
    String.toByteArray_extract, String.offset_pos, String.offset_pos]
  have hbytes : source.toByteArray = (String.ofList front).toByteArray ++
      ((String.ofList middle).toByteArray ++ (String.ofList back).toByteArray) := by
    rw [← String.toByteArray_append, ← String.toByteArray_append, ← String.ofList_append,
      ← String.ofList_append, ← h, String.ofList_toList]
  have hsize : ∀ cs : List Char, byteLength cs = (String.ofList cs).toByteArray.size := by
    intro cs
    rw [String.size_toByteArray, utf8ByteSize_ofList]
  rw [hbytes, byteLength_append]
  calc ((String.ofList front).toByteArray ++
        ((String.ofList middle).toByteArray ++ (String.ofList back).toByteArray)).extract
          (byteLength front + 0) (byteLength front + byteLength middle)
      = ((String.ofList middle).toByteArray ++ (String.ofList back).toByteArray).extract 0
          (byteLength middle) := ByteArray.extract_append_size_add' (hsize front)
    _ = (String.ofList middle).toByteArray := ByteArray.extract_append_eq_left (hsize middle)

/-- Stepping back from an offset stops at the greatest boundary up to it. -/
theorem isGreatest_boundaryAt (source : String) (offset : Nat) :
    IsGreatest {place | String.Pos.Raw.IsValid source ⟨place⟩ ∧ place ≤ offset}
      (boundaryAt source offset) := by
  induction offset with
  | zero => exact ⟨⟨isValid_iff.mpr ⟨[], _, rfl, rfl⟩, le_rfl⟩, fun place hplace => hplace.2⟩
  | succ offset ih =>
      rw [boundaryAt]
      split
      · next hvalid => exact ⟨⟨hvalid, le_rfl⟩, fun place hplace => hplace.2⟩
      · next hinside =>
          refine ⟨⟨ih.1.1, ih.1.2.trans (Nat.le_succ offset)⟩, fun place hplace => ?_⟩
          -- the offset itself is no boundary
          have hne : place ≠ offset + 1 := by
            rintro rfl
            exact hinside hplace.1
          have hle := hplace.2
          exact ih.2 ⟨hplace.1, by omega⟩

theorem splitAtOffset_append (offset : Nat) (cs : List Char) :
    (splitAtOffset offset cs).1 ++ (splitAtOffset offset cs).2 = cs := by
  induction cs generalizing offset with
  | nil => rfl
  | cons c cs ih =>
      rw [splitAtOffset]
      split
      · exact congrArg (c :: ·) (ih _)
      · rfl

theorem byteLength_splitAtOffset_le (offset : Nat) (cs : List Char) :
    byteLength (splitAtOffset offset cs).1 ≤ offset := by
  induction cs generalizing offset with
  | nil => exact Nat.zero_le _
  | cons c cs ih =>
      rw [splitAtOffset]
      split
      · next hfits =>
          have := ih (offset - c.utf8Size)
          simp only [byteLength_cons]
          omega
      · exact Nat.zero_le _

/-- No beginning of a text that ends up to an offset is longer than what is split off. -/
theorem byteLength_le_splitAtOffset (front back : List Char) (h : byteLength front ≤ offset) :
    byteLength front ≤ byteLength (splitAtOffset offset (front ++ back)).1 := by
  induction front generalizing offset with
  | nil => exact Nat.zero_le _
  | cons c front ih =>
      rw [byteLength_cons] at h
      rw [List.cons_append, splitAtOffset, if_pos (Nat.le_of_add_right_le h)]
      have := ih (show byteLength front ≤ offset - c.utf8Size by omega)
      simp only [byteLength_cons]
      omega

theorem isGreatest_splitAtOffset (source : String) (offset : Nat) :
    IsGreatest {place | String.Pos.Raw.IsValid source ⟨place⟩ ∧ place ≤ offset ∧
        place ≤ source.utf8ByteSize} (byteLength (splitAtOffset offset source.toList).1) := by
  have hsource := splitAtOffset_append offset source.toList
  have hsize := congrArg byteLength hsource
  rw [byteLength_append, byteLength_toList] at hsize
  have hvalid : String.Pos.Raw.IsValid source ⟨byteLength (splitAtOffset offset source.toList).1⟩ :=
    isValid_iff.mpr ⟨_, _, hsource.symm, rfl⟩
  refine ⟨⟨hvalid, byteLength_splitAtOffset_le _ _, by omega⟩, ?_⟩
  rintro place ⟨hvalid, hle, -⟩
  obtain ⟨front, back, hfront, rfl⟩ := isValid_iff.mp hvalid
  rw [hfront]
  exact byteLength_le_splitAtOffset front back hle

theorem boundaryAt_eq (source : String) (offset : Nat) :
    boundaryAt source (min offset source.utf8ByteSize) =
      byteLength (splitAtOffset offset source.toList).1 := by
  have hgreatest := isGreatest_boundaryAt source (min offset source.utf8ByteSize)
  simp only [Nat.le_min] at hgreatest
  exact hgreatest.unique (isGreatest_splitAtOffset source offset)

/-! ## Line feeds -/

theorem feedOffsets_append (front back : List Char) : feedOffsets (front ++ back) =
    feedOffsets front ++ (feedOffsets back).map (byteLength front + ·) := by
  induction front with
  | nil => simp [feedOffsets]
  | cons c front ih =>
      simp only [List.cons_append, feedOffsets, ih, List.map_append, List.map_map,
        byteLength_cons]
      split <;> simp [Function.comp_def, Nat.add_assoc]

theorem feedOffsets_of_notMem (h : '\n' ∉ cs) : feedOffsets cs = [] := by
  induction cs with
  | nil => rfl
  | cons c cs ih =>
      rw [List.mem_cons, not_or] at h
      rw [feedOffsets, ih h.2, if_neg (Ne.symm h.1), List.map_nil]

theorem notMem_firstLine (cs : List Char) : '\n' ∉ firstLine cs := by
  intro h
  have hne := List.mem_takeWhile_imp h
  simp at hne

theorem notMem_lastLine (cs : List Char) : '\n' ∉ lastLine cs :=
  fun h => notMem_firstLine cs.reverse (List.mem_reverse.mp h)

/-- The first line is all there is, or ends in front of a line feed. -/
theorem firstLine_cases (cs : List Char) :
    ('\n' ∉ cs ∧ firstLine cs = cs) ∨ ∃ rest, cs = firstLine cs ++ '\n' :: rest := by
  induction cs with
  | nil => exact Or.inl ⟨List.not_mem_nil, rfl⟩
  | cons c cs ih =>
      by_cases hc : c = '\n'
      · exact Or.inr ⟨cs, by simp [firstLine, hc]⟩
      · have hcons : firstLine (c :: cs) = c :: firstLine cs := by simp [firstLine, hc]
        rw [hcons]
        rcases ih with ⟨hnone, hall⟩ | ⟨rest, hrest⟩
        · exact Or.inl ⟨by simp [hnone, Ne.symm hc], by rw [hall]⟩
        · exact Or.inr ⟨rest, congrArg (c :: ·) hrest⟩

/-- The last line is all there is, or starts behind a line feed. -/
theorem lastLine_cases (cs : List Char) :
    ('\n' ∉ cs ∧ lastLine cs = cs) ∨ ∃ top, cs = top ++ '\n' :: lastLine cs := by
  rcases firstLine_cases cs.reverse with ⟨hnone, -⟩ | ⟨rest, hrest⟩
  · rw [List.mem_reverse] at hnone
    exact Or.inl ⟨hnone, lastLine_of_notMem hnone⟩
  · refine Or.inr ⟨rest.reverse, ?_⟩
    rw [← List.reverse_inj, hrest]
    simp [lastLine, firstLine]

/-! ## The lines above and below -/

/-- Lines with the line feeds that end them. -/
def closed (lines : List (List Char)) : List Char :=
  lines.flatMap (· ++ ['\n'])

theorem byteLength_lineFeed : byteLength ['\n'] = 1 := rfl

theorem closed_cons (line : List Char) (lines : List (List Char)) :
    closed (line :: lines) = line ++ '\n' :: closed lines := by
  simp [closed]

theorem closed_eq_intercalate {lines : List (List Char)} (h : lines ≠ []) :
    closed lines = ['\n'].intercalate lines ++ ['\n'] := by
  induction lines with
  | nil => exact absurd rfl h
  | cons line lines ih =>
      cases lines with
      | nil => simp [closed]
      | cons next lines =>
          rw [closed_cons, ih (List.cons_ne_nil next lines), List.intercalate_cons_cons]
          simp

theorem closed_splitOn (cs : List Char) : closed (cs.splitOn '\n') = cs ++ ['\n'] := by
  rw [closed_eq_intercalate (List.splitOn_ne_nil _ _), List.intercalate_splitOn]

/-- How many bytes stand in front of a line, when these lines are above it. -/
def lineStart (above : List (List Char)) : Nat :=
  byteLength (closed above)

/-- The lines above the last line of what stands in front: the last line starts behind them,
and where the last line feed tells that it does. -/
theorem exists_above (front : List Char) : ∃ above, front = closed above ++ lastLine front ∧
    (feedOffsets front).getLast?.elim 0 (· + 1) = lineStart above ∧
      ∀ back, (front ++ back).splitOn '\n' = above ++ (lastLine front ++ back).splitOn '\n' := by
  rcases lastLine_cases front with ⟨hnone, hall⟩ | ⟨top, htop⟩
  · refine ⟨[], by simp [closed, hall], ?_, fun back => by simp [hall]⟩
    rw [feedOffsets_of_notMem hnone]
    rfl
  · have hclosed : front = closed (top.splitOn '\n') ++ lastLine front := by
      rw [closed_splitOn, List.append_assoc]
      exact htop
    refine ⟨top.splitOn '\n', hclosed, ?_, fun back => ?_⟩
    · conv_lhs => rw [htop]
      rw [feedOffsets_append, feedOffsets, feedOffsets_of_notMem (notMem_lastLine front),
        lineStart, closed_splitOn, byteLength_append, byteLength_lineFeed]
      simp
    · conv_lhs => rw [htop, List.append_assoc, List.cons_append]
      exact List.splitOn_append_cons_self top _

/-- The lines below the first line of what follows. -/
theorem exists_below {line : List Char} (hline : '\n' ∉ line) (back : List Char) :
    ∃ below, (line ++ back).splitOn '\n' = (line ++ firstLine back) :: below := by
  have hfirst : '\n' ∉ line ++ firstLine back := by simp [hline, notMem_firstLine]
  rcases firstLine_cases back with ⟨-, hall⟩ | ⟨rest, hrest⟩
  · rw [hall] at hfirst ⊢
    exact ⟨[], List.splitOn_eq_singleton hfirst⟩
  · refine ⟨rest.splitOn '\n', ?_⟩
    conv_lhs => rw [hrest, ← List.append_assoc]
    rw [List.splitOn_append_cons_self, List.splitOn_eq_singleton hfirst]
    rfl

/-- The first line feed tells where the first line of what follows ends. -/
theorem head?_feedOffsets (front back : List Char) :
    (feedOffsets back).head?.elim (byteLength (front ++ back)) (byteLength front + ·) =
      byteLength (front ++ firstLine back) := by
  rcases firstLine_cases back with ⟨hnone, hall⟩ | ⟨rest, hrest⟩
  · rw [feedOffsets_of_notMem hnone, hall]
    rfl
  · conv_lhs => rw [hrest, feedOffsets_append, feedOffsets_of_notMem (notMem_firstLine back)]
    simp [feedOffsets, byteLength_append]

/-! ## The line of a place -/

/-- A place is on a line of a text: not in front of it, and not behind the line feed or the
end of the text that ends it. -/
structure OnLine (source : String) (place : Nat) (above : List (List Char)) (line : List Char)
    (below : List (List Char)) : Prop where
  lines_eq : source.toList.splitOn '\n' = above ++ line :: below
  start_le : lineStart above ≤ place
  le_end : place ≤ lineStart above + byteLength line

/-- A later line starts behind the line feed that ends a line. -/
theorem lt_lineStart (above between : List (List Char)) (line : List Char) :
    lineStart above + byteLength line < lineStart (above ++ line :: between) := by
  simp only [lineStart, closed, List.flatMap_append, List.flatMap_cons, byteLength_append,
    byteLength_lineFeed]
  omega

/-- No place is on two lines. -/
theorem OnLine.unique {above above' below below' : List (List Char)} {line line' : List Char}
    (h : OnLine source place above line below) (h' : OnLine source place above' line' below') :
    above' = above ∧ line' = line ∧ below' = below := by
  have hlines : above ++ line :: below = above' ++ line' :: below' := by
    rw [← h.lines_eq, h'.lines_eq]
  rcases List.append_eq_append_iff.mp hlines with ⟨between, rfl, hrest⟩ | ⟨between, rfl, hrest⟩
  · cases between with
    | nil =>
        obtain ⟨rfl, rfl⟩ := List.cons.inj hrest
        exact ⟨List.append_nil above, rfl, rfl⟩
    | cons next between =>
        obtain ⟨rfl, -⟩ := List.cons.inj hrest
        exact absurd (h'.start_le.trans h.le_end) (lt_lineStart above between line).not_ge
  · cases between with
    | nil =>
        obtain ⟨rfl, rfl⟩ := List.cons.inj hrest
        exact ⟨(List.append_nil above').symm, rfl, rfl⟩
    | cons next between =>
        obtain ⟨rfl, -⟩ := List.cons.inj hrest
        exact absurd (h.start_le.trans h'.le_end) (lt_lineStart above' between line').not_ge

/-! ## The diagnostic -/

theorem length_markers (consumed remaining : List Char) : (markers consumed remaining).length =
    (consumed ++ remaining).length + if remaining = [] then 1 else 0 := by
  cases remaining with
  | nil => simp [markers]
  | cons c remaining => simp [markers]

/-- What a diagnostic shows for an offset: a line in two parts, what stands before the marked
place and what follows, and the lines above and below it. -/
structure Marks (source : String) (offset : Nat) (above : List (List Char))
    (consumed remaining : List Char) (below : List (List Char)) : Prop where
  /-- The marked place is the last boundary up to the offset and up to the end. -/
  isGreatest : IsGreatest {place | String.Pos.Raw.IsValid source ⟨place⟩ ∧ place ≤ offset ∧
    place ≤ source.utf8ByteSize} (lineStart above + byteLength consumed)
  onLine : OnLine source (lineStart above + byteLength consumed) above (consumed ++ remaining)
    below
  /-- It is on no other line. -/
  onLine_unique : ∀ above' line' below',
    OnLine source (lineStart above + byteLength consumed) above' line' below' →
      above' = above ∧ line' = consumed ++ remaining ∧ below' = below
  notMem_line : '\n' ∉ consumed ++ remaining
  /-- All slices are there, and the diagnostic is what they come to. -/
  slices_eq : underlineBySlices? source offset = some (underline source offset)
  underline_eq : underline source offset = String.ofList (consumed ++ remaining) ++ "\n" ++
    String.ofList (markers consumed remaining)
  /-- That is what an error shows below its message, wherever it claims to be. -/
  render_eq : ∀ error : Error, error.place.offset = offset → error.render source =
    error.message ++ "\n" ++ (String.ofList (consumed ++ remaining) ++ "\n" ++
      String.ofList (markers consumed remaining))
  /-- The row of markers is longer than the line only behind the end of the line. -/
  length_markers : (markers consumed remaining).length =
    (consumed ++ remaining).length + if remaining = [] then 1 else 0

/-- What is shown for an offset is what is shown for the last boundary up to it. -/
theorem underline_boundary (source : String) (offset : Nat) : underline source offset =
    underline source (byteLength (splitAtOffset offset source.toList).1) := by
  have hsame := splitAtOffset_byteLength (splitAtOffset offset source.toList).1
    (splitAtOffset offset source.toList).2
  rw [splitAtOffset_append] at hsame
  rw [underline, underline, hsame]

/-- At a boundary all slices are there. -/
theorem underlineBySlices?_of_boundary (h : source.toList = front ++ back)
    (hplace : boundaryAt source (min offset source.utf8ByteSize) = byteLength front) :
    underlineBySlices? source offset =
      some (String.ofList (lastLine front ++ firstLine back) ++ "\n" ++
        String.ofList (markers (lastLine front) (firstLine back))) := by
  obtain ⟨above, hfront, hstart, -⟩ := exists_above front
  obtain ⟨rest, hrest⟩ := firstLine_prefix back
  have hsize : source.utf8ByteSize = byteLength (front ++ back) := by
    rw [← h, byteLength_toList]
  rw [hsize] at hplace
  have hends := head?_feedOffsets front back
  have hwhole : source.toList = closed above ++ ((lastLine front ++ firstLine back) ++ rest) := by
    rw [h, List.append_assoc, hrest, ← List.append_assoc, ← hfront]
  have hbefore : slice? source 0 (byteLength front) = some (String.ofList front) :=
    @slice?_byteLength source [] front back h
  have hafter : slice? source (byteLength front) (byteLength (front ++ back)) =
      some (String.ofList back) :=
    @slice?_byteLength source front back [] (by rw [List.append_nil, h])
  have hline : slice? source (lineStart above) (byteLength (front ++ firstLine back)) =
      some (String.ofList (lastLine front ++ firstLine back)) := by
    have := slice?_byteLength hwhole
    rwa [← List.append_assoc, ← hfront] at this
  have hconsumed : slice? source (lineStart above) (byteLength front) =
      some (String.ofList (lastLine front)) := by
    have := slice?_byteLength (by rwa [List.append_assoc] at hwhole)
    rwa [← hfront] at this
  have hremaining : slice? source (byteLength front) (byteLength (front ++ firstLine back)) =
      some (String.ofList (firstLine back)) :=
    slice?_byteLength (by rw [h, hrest])
  simp only [underlineBySlices?, hplace, hsize, hbefore, hafter, Option.bind_eq_bind,
    Option.bind_some, String.toList_ofList, hstart, hends, hline, hconsumed, hremaining]

/-- For any text and any offset, the diagnostic shows the line of the last boundary up to
that offset, and marks the line there. -/
theorem exists_marks (source : String) (offset : Nat) :
    ∃ above consumed remaining below, Marks source offset above consumed remaining below := by
  have hgreatest := isGreatest_splitAtOffset source offset
  have hplace := boundaryAt_eq source offset
  have hboundary := underline_boundary source offset
  have hsource := (splitAtOffset_append offset source.toList).symm
  generalize (splitAtOffset offset source.toList).1 = front at *
  generalize (splitAtOffset offset source.toList).2 = back at *
  obtain ⟨above, hfront, -, habove⟩ := exists_above front
  obtain ⟨below, hbelow⟩ := exists_below (notMem_lastLine front) back
  have hunderline := hboundary.trans (underline_byteLength hsource)
  have hlength : lineStart above + byteLength (lastLine front) = byteLength front := by
    rw [lineStart, ← byteLength_append, ← hfront]
  have honLine : OnLine source (lineStart above + byteLength (lastLine front)) above
      (lastLine front ++ firstLine back) below := by
    constructor
    case lines_eq => rw [hsource, habove, hbelow]
    case start_le => exact Nat.le_add_right _ _
    case le_end =>
      rw [byteLength_append]
      omega
  refine ⟨above, lastLine front, firstLine back, below, ?_⟩
  constructor
  case isGreatest => rwa [hlength]
  case onLine => exact honLine
  case onLine_unique => exact fun above' line' below' h' => honLine.unique h'
  case notMem_line => simp [notMem_lastLine, notMem_firstLine]
  case slices_eq => rw [underlineBySlices?_of_boundary hsource hplace, hunderline, markers]
  case underline_eq => exact hunderline
  case render_eq =>
    rintro error rfl
    rw [Error.render, hunderline, markers]
  case length_markers => exact length_markers _ _

/-- An offset inside of a character, on the second line. -/
example : underlineBySlices? "é\nü = x" 4 = some "ü = x\n^^^^^" := by decide +kernel

end RecordQuery.Text

import Mathlib.Data.List.TakeWhile
import RecordQuery.Text.Marker
import RecordQuery.Text.Place

/-!
# The line of a place

A diagnostic finds its line by looking for line feeds on both sides of a place, and the
number of a line comes from counting the line feeds in front of it.  The two agree: behind
`n` line feeds a place is on the line that has `n` lines before it, and this line is what
was found on both sides (`getElem?_splitOn_count`).
-/

namespace RecordQuery.Text

variable {cs : List Char}

/-! ## The two parts of a line -/

theorem forall_mem_reverse_ne (h : '\n' ∉ cs) : ∀ c ∈ cs.reverse, decide (c ≠ '\n') = true := by
  intro c hc
  rw [List.mem_reverse] at hc
  exact decide_eq_true fun hfeed => h (hfeed ▸ hc)

theorem lastLine_of_notMem (h : '\n' ∉ cs) : lastLine cs = cs := by
  rw [lastLine, List.takeWhile_eq_self_iff.mpr (forall_mem_reverse_ne h), List.reverse_reverse]

theorem lastLine_cons_of_mem (c : Char) (h : '\n' ∈ cs) : lastLine (c :: cs) = lastLine cs := by
  have hstops : (cs.reverse.takeWhile (· ≠ '\n')).length ≠ cs.reverse.length := by
    intro hlength
    have hall := (List.takeWhile_prefix (l := cs.reverse) (· ≠ '\n')).eq_of_length hlength
    have hfeed := List.takeWhile_eq_self_iff.mp hall '\n' (List.mem_reverse.mpr h)
    exact of_decide_eq_true hfeed rfl
  rw [lastLine, List.reverse_cons, List.takeWhile_append, if_neg hstops]
  rfl

theorem lastLine_lineFeed (cs : List Char) : lastLine ('\n' :: cs) = lastLine cs := by
  by_cases h : '\n' ∈ cs
  · exact lastLine_cons_of_mem '\n' h
  · rw [lastLine_of_notMem h, lastLine, List.reverse_cons,
      List.takeWhile_append_of_pos (forall_mem_reverse_ne h)]
    simp

theorem lastLine_suffix (cs : List Char) : lastLine cs <:+ cs := by
  rw [← List.reverse_prefix, lastLine, List.reverse_reverse]
  exact List.takeWhile_prefix _

theorem firstLine_prefix (cs : List Char) : firstLine cs <+: cs :=
  List.takeWhile_prefix _

/-! ## Lines -/

theorem getElem?_splitOn_zero (cs : List Char) : (cs.splitOn '\n')[0]? = some (firstLine cs) := by
  induction cs with
  | nil => rfl
  | cons c cs ih =>
      rw [List.splitOn_cons_eq_if_modifyHead]
      by_cases hc : c = '\n'
      · simp [hc, firstLine]
      · rw [if_neg (by simpa using hc), List.getElem?_modifyHead, if_pos rfl, ih]
        simp [hc, firstLine]

/-- A place is on the line that has as many lines before it as there are line feeds in
front of the place. -/
theorem getElem?_splitOn_count (front back : List Char) :
    ((front ++ back).splitOn '\n')[front.count '\n']? =
      some (lastLine front ++ firstLine back) := by
  induction front with
  | nil => exact getElem?_splitOn_zero back
  | cons c front ih =>
      rw [List.cons_append, List.splitOn_cons_eq_if_modifyHead]
      by_cases hc : c = '\n'
      · -- a line more stands before the place
        rw [if_pos (by simpa using hc), hc, lastLine_lineFeed, List.count_cons_self,
          List.getElem?_cons_succ, ih]
      · rw [if_neg (by simpa using hc), List.count_cons_of_ne hc, List.getElem?_modifyHead, ih]
        by_cases hmem : '\n' ∈ front
        · rw [if_neg (List.count_pos_iff.mpr hmem).ne', lastLine_cons_of_mem c hmem]
        · -- the place is on the first line, which is a character longer
          have hmem' : '\n' ∉ c :: front := by simpa using ⟨Ne.symm hc, hmem⟩
          rw [if_pos (List.count_eq_zero.mpr hmem), lastLine_of_notMem hmem,
            lastLine_of_notMem hmem']
          rfl

/-! ## Markers -/

theorem splitAtOffset_byteLength (front back : List Char) :
    splitAtOffset (byteLength front) (front ++ back) = (front, back) := by
  induction front with
  | nil =>
      cases back with
      | nil => rfl
      | cons c back =>
          have hpos := c.utf8Size_pos
          simp only [byteLength_nil, List.nil_append, splitAtOffset]
          rw [if_neg (by omega)]
  | cons c front ih =>
      simp only [byteLength_cons, List.cons_append, splitAtOffset]
      rw [if_pos (Nat.le_add_right _ _), Nat.add_sub_cancel_left, ih]

/-- The diagnostic for a place between two characters. -/
theorem underline_byteLength {source : String} {front back : List Char}
    (h : source.toList = front ++ back) : underline source (byteLength front) =
      String.ofList (lastLine front ++ firstLine back) ++ "\n" ++
        String.ofList (List.replicate (lastLine front).length '_' ++
          List.replicate (max 1 (firstLine back).length) '^') := by
  rw [underline, h, splitAtOffset_byteLength]
  simp [String.append_assoc]

end RecordQuery.Text

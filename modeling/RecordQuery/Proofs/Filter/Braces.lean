import Mathlib.Combinatorics.Enumerative.DyckWord
import RecordQuery.Proofs.Filter.Effects
import RecordQuery.Proofs.Filter.Groups

/-!
# The text of a tree

The printer and a walk both keep what is left to do in a list, and both come to what recursion
over the tree says.  So a tree is printed as the text that a walk computes if it is given the
texts of the filters, and puts what it combines between braces with the joiner in the middle
(`display_eq_walk`).

The text is made of fragments: filters, joiners, and the braces around joined trees.  Without
the others the filters are those of the tree in their order, and the braces are a Dyck word,
which is to say that they are balanced.  There is one pair for each joined tree, around the
pairs of its left side and those of its right side.  A filter may have braces of its own, in a
key or in a string; where none has, the braces are all that the text has.
-/

namespace RecordQuery.FilterTree

variable {tree : FilterTree}

/-! ## Printing as a walk -/

theorem compute_render {σ : Type} (tree : FilterTree) (state : σ) :
    tree.compute (fun filter => pure filter.display)
        (fun left joiner right =>
          pure ("\x7b " ++ left ++ " " ++ joiner.spelling ++ " " ++ right ++ " \x7d")) state =
      (tree.render, state) := by
  induction tree generalizing state with
  | leaf filter => rfl
  | group inner ih => exact ih state
  | join left joiner right ihLeft ihRight =>
      simp only [compute, bind, StateT.bind, ihLeft, ihRight]
      rfl

/-! ## Fragments -/

/-- What a printed tree is made of. -/
inductive Fragment where
  /-- The brace in front of a joined tree. -/
  | opening
  /-- The brace behind it. -/
  | closing
  | joiner (between : Joiner)
  | filter (printed : Filter)

namespace Fragment

/-- A fragment as it is printed. -/
def text : Fragment → List Char
  | opening => ['\x7b', ' ']
  | closing => [' ', '\x7d']
  | joiner between => ' ' :: (between.spelling.toList ++ [' '])
  | filter printed => printed.display.toList

/-- A brace, as a step up or down. -/
def brace? : Fragment → Option DyckStep
  | opening => some .U
  | closing => some .D
  | joiner _ => none
  | filter _ => none

/-- A filter. -/
def filter? : Fragment → Option Filter
  | filter printed => some printed
  | opening => none
  | closing => none
  | joiner _ => none

end Fragment

/-- The fragments of a tree, in the order in which they are printed. -/
def fragments : FilterTree → List Fragment
  | leaf filter => [.filter filter]
  | group inner => inner.fragments
  | join left joiner right =>
    .opening :: (left.fragments ++ .joiner joiner :: (right.fragments ++ [.closing]))

/-- The braces of a tree: those of both sides of a joined tree, between a pair of its own. -/
def braces : FilterTree → DyckWord
  | leaf _ => 0
  | group inner => inner.braces
  | join left _ right => (left.braces + right.braces).nest

/-- The number of joined trees in a tree. -/
def joinCount : FilterTree → Nat
  | leaf _ => 0
  | group inner => inner.joinCount
  | join left _ right => left.joinCount + right.joinCount + 1

theorem toList_render (tree : FilterTree) :
    tree.render.toList = tree.fragments.flatMap Fragment.text := by
  induction tree with
  | leaf filter => simp [render, fragments, Fragment.text]
  | group inner ih => exact ih
  | join left joiner right ihLeft ihRight =>
      simp [render, fragments, Fragment.text, ihLeft, ihRight]

theorem filterMap_filter? (tree : FilterTree) :
    tree.fragments.filterMap Fragment.filter? = tree.leaves := by
  induction tree with
  | leaf filter => rfl
  | group inner ih => exact ih
  | join left joiner right ihLeft ihRight =>
      simp [fragments, leaves, List.filterMap_cons, Fragment.filter?, ihLeft, ihRight]

theorem filterMap_brace? (tree : FilterTree) :
    tree.fragments.filterMap Fragment.brace? = tree.braces.toList := by
  induction tree with
  | leaf filter => rfl
  | group inner ih => exact ih
  | join left joiner right ihLeft ihRight =>
      have hsum : (left.braces + right.braces).toList = left.braces.toList ++ right.braces.toList :=
        rfl
      simp [fragments, braces, List.filterMap_cons, Fragment.brace?, DyckWord.nest, ihLeft, ihRight,
        hsum]

theorem semilength_braces (tree : FilterTree) : tree.braces.semilength = tree.joinCount := by
  induction tree with
  | leaf filter => rfl
  | group inner ih => exact ih
  | join left joiner right ihLeft ihRight =>
      rw [braces, DyckWord.semilength_nest, DyckWord.semilength_add, ihLeft, ihRight, joinCount]

/-! ## The braces of a text -/

/-- A character that is a brace, as a step up or down. -/
def braceOf? (c : Char) : Option DyckStep :=
  if c = '\x7b' then some .U else if c = '\x7d' then some .D else none

/-- A text has no braces. -/
def BraceFree (cs : List Char) : Prop :=
  '\x7b' ∉ cs ∧ '\x7d' ∉ cs

theorem BraceFree.filterMap_braceOf? {cs : List Char} (h : BraceFree cs) :
    cs.filterMap braceOf? = [] := by
  rw [List.filterMap_eq_nil_iff]
  intro c hc
  have hopening : c ≠ '\x7b' := fun heq => h.1 (heq ▸ hc)
  have hclosing : c ≠ '\x7d' := fun heq => h.2 (heq ▸ hc)
  rw [braceOf?, if_neg hopening, if_neg hclosing]

/-- A fragment has no braces in its text but the one that it is. -/
theorem Fragment.filterMap_braceOf? (fragment : Fragment)
    (h : ∀ filter ∈ fragment.filter?, BraceFree filter.display.toList) :
    fragment.text.filterMap braceOf? = fragment.brace?.toList := by
  cases fragment with
  | opening => rfl
  | closing => rfl
  | joiner between => cases between <;> decide
  | filter printed => exact (h printed rfl).filterMap_braceOf?

theorem filterMap_braceOf? (h : ∀ filter ∈ tree.leaves, BraceFree filter.display.toList) :
    (tree.fragments.flatMap Fragment.text).filterMap braceOf? = tree.braces.toList := by
  have hfragment : ∀ fragment ∈ tree.fragments,
      fragment.text.filterMap braceOf? = fragment.brace?.toList := by
    intro fragment hmem
    refine fragment.filterMap_braceOf? fun filter hfilter => h filter ?_
    rw [← filterMap_filter?, List.mem_filterMap]
    exact ⟨fragment, hmem, hfilter⟩
  rw [← filterMap_brace?, List.filterMap_flatMap, List.filterMap_eq_flatMap_toList]
  exact List.flatMap_congr hfragment

/-- The printed tree.

* It is what a walk computes that is given the printed filters and puts what it combines
  between braces, whatever state the walk keeps.
* It is made of fragments.  The filters among them are those of the tree, in the same order.
* The braces among them are those of the tree, which are balanced, and are one pair for each
  joined tree.
* Where no filter has a brace of its own, these are all the braces in the text. -/
theorem display_eq_walk (tree : FilterTree) :
    (∀ {σ : Type} (state : σ),
      tree.walk (fun filter => pure filter.display)
          (fun left joiner right =>
            pure ("\x7b " ++ left ++ " " ++ joiner.spelling ++ " " ++ right ++ " \x7d")) state =
        (tree.display, state)) ∧
    tree.display.toList = tree.fragments.flatMap Fragment.text ∧
    tree.fragments.filterMap Fragment.filter? = tree.filters ∧
    tree.fragments.filterMap Fragment.brace? = tree.braces.toList ∧
    tree.braces.semilength = tree.joinCount ∧
    ((∀ filter ∈ tree.filters, BraceFree filter.display.toList) →
      tree.display.toList.filterMap braceOf? = tree.braces.toList) := by
  refine ⟨?_, ?_, ?_, filterMap_brace? tree, semilength_braces tree, ?_⟩
  · intro σ state
    rw [walk_eq_compute, compute_render, display_eq_render]
  · rw [display_eq_render, toList_render]
  · rw [filterMap_filter?, filters_eq_leaves]
  · intro h
    rw [filters_eq_leaves] at h
    rw [display_eq_render, toList_render, filterMap_braceOf? h]

/-- A joined tree in a group, on the left side of another one. -/
theorem display_eq_walk_group :
    ∃ tree : FilterTree, (∀ filter ∈ tree.filters, BraceFree filter.display.toList) ∧
      tree.display.toList.filterMap braceOf? = [.U, .U, .D, .D] := by
  let one : Filter := ⟨"a", .isIn, .list [.string "b c", .integer 1]⟩
  let whole : FilterTree := join (group (join (leaf one) .and (leaf one))) .or (leaf one)
  have hfree : ∀ filter ∈ whole.filters, BraceFree filter.display.toList := by
    intro filter hmem
    have hone : filter = one := by simpa [whole, filters_eq_leaves, leaves] using hmem
    rw [hone]
    exact ⟨by decide, by decide⟩
  obtain ⟨-, -, -, -, -, hbraces⟩ := display_eq_walk whole
  exact ⟨whole, hfree, (hbraces hfree).trans (by rfl)⟩

end RecordQuery.FilterTree

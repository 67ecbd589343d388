import Mathlib.Data.List.Forall2
import RecordQuery.Filter.Equality
import RecordQuery.Proofs.Filter.Recursion
import RecordQuery.Proofs.Number.Nearest

/-!
# Trees that are alike

Equality of trees is decided by a loop over pairs of subtrees that are still to be compared.
What it decides is said here by rules, one for each kind of node: leaves are alike if their
filters are, groups if what they hold is, and joined trees if they have the same joiner and
their left and right sides are alike.  The loop answers yes exactly if all pairs that are left
are alike (`FilterTree.allEqual_iff`), in whatever order it comes to them.

Filters are alike if they have the same key, the same comparison and operands that are alike,
which is to say single literals or lists of them that are alike one by one.  Literals of
different kinds never are.  Decimals are if they have the same value, all others only if they
are the same.  So to be alike is an equivalence on each level, since it is one on decimals.

Trees that are alike have the same shape, and pairwise alike filters from left to right
(`FilterTree.Alike.leaves`).  If even the filters are the same, the trees are
(`FilterTree.Alike.eq_of_leaves`).
-/

namespace RecordQuery

/-! ## Lists and options -/

section

variable {α : Type} {r : α → α → Prop}

theorem equivalence_forall₂ (h : Equivalence r) : Equivalence (List.Forall₂ r) where
  refl items := List.forall₂_same.mpr fun item _ => h.refl item
  symm hitems := (hitems.imp fun _ _ => h.symm).flip
  trans := by
    intro first second third hfirst hsecond
    induction hfirst generalizing third with
    | nil => exact hsecond
    | cons hitem _ ih =>
        cases hsecond with
        | cons hitem' hitems' => exact .cons (h.trans hitem hitem') (ih hitems')

theorem beq_iff_forall₂ [BEq α] (h : ∀ item item' : α, (item == item') = true ↔ r item item')
    (items items' : List α) : (items == items') = true ↔ List.Forall₂ r items items' := by
  induction items generalizing items' with
  | nil => cases items' <;> simp
  | cons item items ih =>
      cases items' with
      | nil => simp
      | cons item' items' =>
          rw [List.cons_beq_cons, Bool.and_eq_true, h, ih, List.forall₂_cons]

theorem equivalence_optionRel (h : Equivalence r) : Equivalence (Option.Rel r) where
  refl found := by
    cases found with
    | none => exact .none
    | some item => exact .some (h.refl item)
  symm hfound := by
    cases hfound with
    | none => exact .none
    | some hitem => exact .some (h.symm hitem)
  trans hfound hfound' := by
    cases hfound with
    | none => exact hfound'
    | some hitem =>
        cases hfound' with
        | some hitem' => exact .some (h.trans hitem hitem')

theorem beq_iff_optionRel [BEq α] (h : ∀ item item' : α, (item == item') = true ↔ r item item')
    (found found' : Option α) : (found == found') = true ↔ Option.Rel r found found' := by
  cases found with
  | none => cases found' <;> simp
  | some item =>
      cases found' with
      | none => simp
      | some item' => rw [Option.some_beq_some, h, Option.rel_some_some]

end

/-! ## Literals and operands -/

theorem Decimal.beq_iff_value (d d' : Decimal) : (d == d') = true ↔ d.value = d'.value := by
  have hpow : (10 : ℚ) ^ d.scale ≠ 0 := by positivity
  have hpow' : (10 : ℚ) ^ d'.scale ≠ 0 := by positivity
  rw [value, value, div_eq_div_iff hpow hpow']
  show (d.coefficient * (Nat.pow 10 d'.scale : Nat) ==
    d'.coefficient * (Nat.pow 10 d.scale : Nat)) = true ↔ _
  rw [beq_iff_eq, Nat.pow_eq, Nat.pow_eq]
  norm_cast

namespace Literal

/-- What a literal stands for: its kind, and its text or its number. -/
inductive Meaning where
  | string (text : String)
  | integer (value : Int64)
  | decimal (value : ℚ)
  | time (text : String)
  | date (text : String)
  | dateTime (text : String)

/-- Decimals lose their scale, and nothing else is lost. -/
def meaning : Literal → Meaning
  | string text => .string text
  | integer value => .integer value
  | decimal value => .decimal value.value
  | time text => .time text
  | date text => .date text
  | dateTime text => .dateTime text

/-- Literals that stand for the same. -/
def Alike (literal literal' : Literal) : Prop :=
  literal.meaning = literal'.meaning

theorem equivalence_alike : Equivalence Alike where
  refl _ := rfl
  symm := Eq.symm
  trans := Eq.trans

theorem beq_iff_alike (literal literal' : Literal) :
    (literal == literal') = true ↔ literal.Alike literal' := by
  have htext : ∀ text text' : String, (text == text') = true ↔ text = text' :=
    fun _ _ => beq_iff_eq
  have hnumber : ∀ value value' : Int64, (value == value') = true ↔ value = value' :=
    fun _ _ => beq_iff_eq
  cases literal <;> cases literal' <;> simp only [Alike, meaning, reduceCtorEq, iff_false,
    Bool.not_eq_true, Meaning.string.injEq, Meaning.integer.injEq, Meaning.decimal.injEq,
    Meaning.time.injEq, Meaning.date.injEq, Meaning.dateTime.injEq]
  case string.string => exact htext _ _
  case integer.integer => exact hnumber _ _
  case decimal.decimal => exact Decimal.beq_iff_value _ _
  case time.time => exact htext _ _
  case date.date => exact htext _ _
  case dateTime.dateTime => exact htext _ _
  -- literals of different kinds
  all_goals rfl

end Literal

namespace Operand

/-- Single literals that are alike, or lists of literals that are alike one by one. -/
inductive Alike : Operand → Operand → Prop where
  | scalar {literal literal' : Literal} (h : literal.Alike literal') :
      Alike (scalar literal) (scalar literal')
  | list {items items' : List Literal} (h : List.Forall₂ Literal.Alike items items') :
      Alike (list items) (list items')

theorem alike_scalar_iff {literal literal' : Literal} :
    (scalar literal).Alike (scalar literal') ↔ literal.Alike literal' := by
  refine ⟨fun h => ?_, .scalar⟩
  cases h with
  | scalar h => exact h

theorem alike_list_iff {items items' : List Literal} :
    (list items).Alike (list items') ↔ List.Forall₂ Literal.Alike items items' := by
  refine ⟨fun h => ?_, .list⟩
  cases h with
  | list h => exact h

theorem equivalence_alike : Equivalence Alike where
  refl operand := by
    cases operand with
    | scalar literal => exact .scalar (Literal.equivalence_alike.refl literal)
    | list items => exact .list ((equivalence_forall₂ Literal.equivalence_alike).refl items)
  symm h := by
    cases h with
    | scalar h => exact .scalar (Literal.equivalence_alike.symm h)
    | list h => exact .list ((equivalence_forall₂ Literal.equivalence_alike).symm h)
  trans h h' := by
    cases h with
    | scalar h =>
        cases h' with
        | scalar h' => exact .scalar (Literal.equivalence_alike.trans h h')
    | list h =>
        cases h' with
        | list h' => exact .list ((equivalence_forall₂ Literal.equivalence_alike).trans h h')

theorem beq_iff_alike (operand operand' : Operand) :
    (operand == operand') = true ↔ operand.Alike operand' := by
  cases operand with
  | scalar literal =>
      cases operand' with
      | scalar literal' => exact (literal.beq_iff_alike literal').trans alike_scalar_iff.symm
      | list items' => exact ⟨nofun, nofun⟩
  | list items =>
      cases operand' with
      | scalar literal' => exact ⟨nofun, nofun⟩
      | list items' =>
          exact (beq_iff_forall₂ Literal.beq_iff_alike items items').trans alike_list_iff.symm

end Operand

/-! ## Filters -/

namespace Filter

/-- Filters with the same key, the same comparison and operands that are alike. -/
structure Alike (filter filter' : Filter) : Prop where
  key : filter.key = filter'.key
  operator : filter.operator = filter'.operator
  operand : filter.operand.Alike filter'.operand

theorem equivalence_alike : Equivalence Alike where
  refl filter := ⟨rfl, rfl, Operand.equivalence_alike.refl filter.operand⟩
  symm h := ⟨h.key.symm, h.operator.symm, Operand.equivalence_alike.symm h.operand⟩
  trans h h' := ⟨h.key.trans h'.key, h.operator.trans h'.operator,
    Operand.equivalence_alike.trans h.operand h'.operand⟩

theorem beq_iff_alike (filter filter' : Filter) :
    (filter == filter') = true ↔ filter.Alike filter' := by
  have hparts : (filter == filter') = (filter.key == filter'.key &&
      (filter.operator == filter'.operator && filter.operand == filter'.operand)) := rfl
  rw [hparts, Bool.and_eq_true, Bool.and_eq_true, beq_iff_eq, beq_iff_eq, Operand.beq_iff_alike]
  exact ⟨fun h => ⟨h.1, h.2.1, h.2.2⟩, fun h => ⟨h.key, h.operator, h.operand⟩⟩

end Filter

/-! ## Trees -/

namespace FilterTree

/-- Trees that are alike node by node. -/
inductive Alike : FilterTree → FilterTree → Prop where
  | leaf {filter filter' : Filter} (h : filter.Alike filter') : Alike (leaf filter) (leaf filter')
  | group {inner inner' : FilterTree} (h : Alike inner inner') : Alike (group inner) (group inner')
  | join {left right left' right' : FilterTree} (joiner : Joiner) (hleft : Alike left left')
      (hright : Alike right right') : Alike (join left joiner right) (join left' joiner right')

variable {left right left' right' tree tree' : FilterTree} {joiner joiner' : Joiner}

theorem alike_leaf_iff {filter filter' : Filter} :
    (leaf filter).Alike (leaf filter') ↔ filter.Alike filter' := by
  refine ⟨fun h => ?_, .leaf⟩
  cases h with
  | leaf h => exact h

theorem alike_group_iff : (group tree).Alike (group tree') ↔ tree.Alike tree' := by
  refine ⟨fun h => ?_, .group⟩
  cases h with
  | group h => exact h

theorem alike_join_iff : (join left joiner right).Alike (join left' joiner' right') ↔
    joiner = joiner' ∧ left.Alike left' ∧ right.Alike right' := by
  constructor
  · intro h
    cases h with
    | join joiner hleft hright => exact ⟨rfl, hleft, hright⟩
  · rintro ⟨rfl, hleft, hright⟩
    exact .join joiner hleft hright

theorem equivalence_alike : Equivalence Alike where
  refl tree := by
    induction tree with
    | leaf filter => exact .leaf (Filter.equivalence_alike.refl filter)
    | group inner ih => exact .group ih
    | join left joiner right ihLeft ihRight => exact .join joiner ihLeft ihRight
  symm h := by
    induction h with
    | leaf h => exact .leaf (Filter.equivalence_alike.symm h)
    | group _ ih => exact .group ih
    | join joiner _ _ ihLeft ihRight => exact .join joiner ihLeft ihRight
  trans := by
    intro first second third h h'
    induction h generalizing third with
    | leaf h =>
        cases h' with
        | leaf h' => exact .leaf (Filter.equivalence_alike.trans h h')
    | group _ ih =>
        cases h' with
        | group h' => exact .group (ih h')
    | join joiner _ _ ihLeft ihRight =>
        cases h' with
        | join _ hleft' hright' => exact .join joiner (ihLeft hleft') (ihRight hright')

/-- The loop finds all pairs equal exactly if they are alike.  One step takes the first pair
apart, and that pair is alike if its parts are. -/
theorem allEqual_iff (pairs : List (FilterTree × FilterTree)) :
    allEqual pairs = true ↔ ∀ pair ∈ pairs, pair.1.Alike pair.2 := by
  fun_induction allEqual pairs with
  | case1 => simp
  | case2 filter filter' pairs hsame ih =>
      have hfilter := (filter.beq_iff_alike filter').mp hsame
      rw [ih, List.forall_mem_cons, alike_leaf_iff]
      exact (and_iff_right hfilter).symm
  | case3 filter filter' pairs hdiffers =>
      have hfilter := mt (filter.beq_iff_alike filter').mpr hdiffers
      rw [List.forall_mem_cons, alike_leaf_iff]
      exact ⟨nofun, fun h => absurd h.1 hfilter⟩
  | case4 inner inner' pairs ih =>
      rw [ih, List.forall_mem_cons, List.forall_mem_cons, alike_group_iff]
  | case5 left right left' joiner right' pairs ih =>
      rw [ih, List.forall_mem_cons, List.forall_mem_cons, List.forall_mem_cons, alike_join_iff]
      exact ⟨fun h => ⟨⟨rfl, h.1, h.2.1⟩, h.2.2⟩, fun h => ⟨h.1.2.1, h.1.2.2, h.2⟩⟩
  | case6 left joiner right left' joiner' right' pairs hdiffers =>
      rw [List.forall_mem_cons, alike_join_iff]
      exact ⟨nofun, fun h => absurd h.1.1 hdiffers⟩
  | case7 pair pairs hleaf hgroup hjoin =>
      -- nodes of different kinds
      obtain ⟨tree, tree'⟩ := pair
      refine ⟨nofun, fun h => ?_⟩
      cases (List.forall_mem_cons.mp h).1 with
      | leaf => exact (hleaf _ _ rfl).elim
      | group => exact (hgroup _ _ rfl).elim
      | join => exact (hjoin _ _ _ _ _ _ rfl).elim

theorem beq_iff_alike (tree tree' : FilterTree) :
    (tree == tree') = true ↔ tree.Alike tree' :=
  (allEqual_iff [(tree, tree')]).trans List.forall_mem_singleton

/-! ## Shape and filters -/

/-- Trees that are alike have as many nodes. -/
theorem Alike.nodeCount_eq {tree tree' : FilterTree} (h : tree.Alike tree') :
    tree.nodeCount = tree'.nodeCount := by
  induction h with
  | leaf h => rfl
  | group _ ih => rw [nodeCount, nodeCount, ih]
  | join joiner _ _ ihLeft ihRight => rw [nodeCount, nodeCount, ihLeft, ihRight]

theorem beq_eq_false_of_nodeCount {tree tree' : FilterTree}
    (h : tree.nodeCount ≠ tree'.nodeCount) : (tree == tree') = false :=
  Bool.eq_false_iff.mpr fun hequal => h ((beq_iff_alike tree tree').mp hequal).nodeCount_eq

/-- Trees that are alike have alike filters in the same order. -/
theorem Alike.leaves {tree tree' : FilterTree} (h : tree.Alike tree') :
    List.Forall₂ Filter.Alike tree.leaves tree'.leaves := by
  induction h with
  | leaf h => exact .cons h .nil
  | group _ ih => exact ih
  | join joiner _ _ ihLeft ihRight => exact List.rel_append ihLeft ihRight

/-- Trees that are alike and have the same filters are the same. -/
theorem Alike.eq_of_leaves {tree tree' : FilterTree} (h : tree.Alike tree')
    (hleaves : tree.leaves = tree'.leaves) : tree = tree' := by
  induction h with
  | leaf h => rw [List.singleton_inj.mp hleaves]
  | group _ ih => rw [ih hleaves]
  | join joiner hleft _ ihLeft ihRight =>
      obtain ⟨hleaves, hleaves'⟩ := List.append_inj hleaves hleft.leaves.length_eq
      rw [ihLeft hleaves, ihRight hleaves']

end FilterTree

end RecordQuery

import RecordQuery.Filter.Tree

/-!
# Walking a filter tree

A walk computes one value from a tree: an evaluation turns each filter into a value,
and a combination makes one value of the values of two joined subtrees.  A group has
the value of what it holds.  Subtrees are visited left before right, and both before
they are combined.

Evaluation and combination may keep a state and may fail, and the walk ends with the
first failure.  The simpler walks are this one with less to do.
-/

namespace RecordQuery.FilterTree

/-- What is left to do once the value of a subtree is known. -/
inductive Pending (α : Type) where
  /-- Visit the right subtree that belongs to this left value. -/
  | right (joiner : Joiner) (tree : FilterTree)
  /-- Combine a left value with this right value. -/
  | combine (left : α) (joiner : Joiner)

/-- Where a walk stands. -/
inductive Focus (α : Type) where
  /-- In front of a subtree. -/
  | visit (tree : FilterTree)
  /-- Behind a subtree, with its value. -/
  | resume (value : α)

/-! ## How much is left to do -/

/-- The steps that the walk of a tree takes, and one more. -/
def walkCost : FilterTree → Nat
  | leaf _ => 2
  | group inner => inner.walkCost + 1
  | join left _ right => left.walkCost + right.walkCost + 3

/-- The steps that pending work takes. -/
def Pending.cost {α : Type} : Pending α → Nat
  | right _ tree => tree.walkCost + 2
  | combine _ _ => 1

/-- The steps that a walk takes from where it stands up to the next pending work. -/
def Focus.cost {α : Type} : Focus α → Nat
  | visit tree => tree.walkCost
  | resume _ => 1

/-! ## The walk -/

section

variable {ε σ α : Type}

/-- Goes on with a walk until nothing is pending. -/
def walkFrom (evaluate : Filter → EStateM ε σ α) (combine : α → Joiner → α → EStateM ε σ α)
    (focus : Focus α) (pending : List (Pending α)) (state : σ) : EStateM.Result ε σ α :=
  match focus, pending with
  | .visit (leaf filter), pending =>
    match evaluate filter state with
    | .ok value state => walkFrom evaluate combine (.resume value) pending state
    | .error error state => .error error state
  | .visit (group inner), pending => walkFrom evaluate combine (.visit inner) pending state
  | .visit (join left joiner right), pending =>
    walkFrom evaluate combine (.visit left) (.right joiner right :: pending) state
  | .resume value, [] => .ok value state
  | .resume value, .right joiner tree :: pending =>
    walkFrom evaluate combine (.visit tree) (.combine value joiner :: pending) state
  | .resume value, .combine left joiner :: pending =>
    match combine left joiner value state with
    | .ok value state => walkFrom evaluate combine (.resume value) pending state
    | .error error state => .error error state
termination_by focus.cost + total Pending.cost pending
decreasing_by all_goals simp only [Focus.cost, Pending.cost, total, walkCost]; omega

/-- Walks a tree with an evaluation and a combination that keep a state and may fail. -/
def tryWalk (evaluate : Filter → EStateM ε σ α) (combine : α → Joiner → α → EStateM ε σ α)
    (tree : FilterTree) : EStateM ε σ α :=
  fun state => walkFrom evaluate combine (.visit tree) [] state

/-- An action that cannot fail, among those that may. -/
def neverFailing {β : Type} (action : StateM σ β) : EStateM Empty σ β := fun state =>
  let (value, state) := action state
  .ok value state

/-- The outcome of an action that cannot fail. -/
def outcome {β : Type} : EStateM.Result Empty σ β → β × σ
  | .ok value state => (value, state)

/-- Walks a tree with an evaluation and a combination that keep a state. -/
def walk (evaluate : Filter → StateM σ α) (combine : α → Joiner → α → StateM σ α)
    (tree : FilterTree) : StateM σ α := fun state =>
  outcome (tryWalk (fun filter => neverFailing (evaluate filter))
    (fun left joiner right => neverFailing (combine left joiner right)) tree state)

end

/-- An evaluation and a combination that share the state of one visitor. -/
structure Visitor (σ α : Type) where
  /-- What the visitor makes of a filter. -/
  visitFilter : σ → Filter → α × σ
  /-- What the visitor makes of two joined values. -/
  combine : σ → α → Joiner → α → α × σ

/-- Sends a visitor through a tree. -/
def fold {σ α : Type} (visitor : Visitor σ α) (tree : FilterTree) (state : σ) : α × σ :=
  outcome (tryWalk (fun filter => neverFailing (visitor.visitFilter · filter))
    (fun left joiner right => neverFailing (visitor.combine · left joiner right)) tree state)

/-- Reduces a tree to one value, by an evaluation and a combination without state. -/
def reduce {α : Type} (evaluate : Filter → α) (combine : α → Joiner → α → α)
    (tree : FilterTree) : α :=
  (walk (σ := Unit) (fun filter => pure (evaluate filter))
    (fun left joiner right => pure (combine left joiner right)) tree ()).1

/-- The filters of a tree, from left to right. -/
def filters (tree : FilterTree) : List Filter :=
  (walk (fun filter seen => ((), filter :: seen)) (fun _ _ _ seen => ((), seen)) tree []).2.reverse

end RecordQuery.FilterTree

import RecordQuery.Proofs.Filter.Recursion

/-!
# What a walk calls, and when

A walk is given two functions that may change a state and may fail.  So it matters how
often it calls them, in which order, and where it stops.  `course` says so by recursion on
the tree: it lists the calls along with what they come to.  A leaf is one call.  A group is
what it holds.  Of a joined tree the left side comes first, then the right one, then the
call that combines the two, and nothing comes behind a failure.

A walk comes to what the course does, and makes its calls (`walks_eq_recursion`).  The calls
are made visible by functions that note them in the state, behind what they are for
(`noting`).  Where the functions cannot fail, all walks are one computation (`compute`).
-/

namespace RecordQuery.FilterTree

/-! ## Calls -/

/-- A call of one of the two functions that a walk is given. -/
inductive Call (α : Type) where
  | evaluate (filter : Filter)
  | combine (left : α) (joiner : Joiner) (right : α)

/-- The calls of a computation, in order, and what it comes to: a value or a failure, and the
state that is left behind. -/
structure Course (ε σ α : Type) where
  calls : List (Call α)
  result : EStateM.Result ε σ α

section

variable {ε σ α : Type}

namespace Course

/-- The course of a single call. -/
def single (call : Call α) (action : EStateM ε σ α) (state : σ) : Course ε σ α :=
  ⟨[call], action state⟩

/-- A course, and what follows it with its value.  Nothing follows a failure. -/
def andThen (first : Course ε σ α) (next : α → σ → Course ε σ α) : Course ε σ α :=
  match first.result with
  | .ok value state => ⟨first.calls ++ (next value state).calls, (next value state).result⟩
  | .error _ _ => first

/-- What a course comes to, with its calls noted behind those that were noted before. -/
def noted (course : Course ε σ α) (before : List (Call α)) :
    EStateM.Result ε (σ × List (Call α)) α :=
  match course.result with
  | .ok value state => .ok value (state, before ++ course.calls)
  | .error error state => .error error (state, before ++ course.calls)

end Course

/-- An action that also notes its call in the state. -/
def noting (call : Call α) (action : EStateM ε σ α) : EStateM ε (σ × List (Call α)) α :=
  fun (state, calls) => (Course.single call action state).noted calls

variable (evaluate : Filter → EStateM ε σ α) (combine : α → Joiner → α → EStateM ε σ α)

/-- The calls for a tree and what they come to, each subtree before what it is combined
with. -/
def course : FilterTree → σ → Course ε σ α
  | leaf filter => .single (.evaluate filter) (evaluate filter)
  | group inner => inner.course
  | join left joiner right => fun state =>
    (left.course state).andThen fun leftValue state =>
      (right.course state).andThen fun rightValue =>
        .single (.combine leftValue joiner rightValue) (combine leftValue joiner rightValue)

/-- A visit comes to what the course does. -/
theorem result_course (tree : FilterTree) (state : σ) :
    (tree.course evaluate combine state).result = tree.visit evaluate combine state := by
  induction tree generalizing state with
  | leaf filter => rfl
  | group inner ih => exact ih state
  | join left joiner right ihLeft ihRight =>
      simp only [course, visit, bind, EStateM.bind, Course.andThen, ihLeft]
      cases hleft : left.visit evaluate combine state with
      | error error state => rw [ihLeft, hleft]
      | ok leftValue state =>
          simp only [ihRight]
          cases hright : right.visit evaluate combine state with
          | error error state => rw [ihRight, hright]
          | ok rightValue state => rfl

/-- Functions that note their calls have noted those of the course, wherever it stops. -/
theorem visit_noting (tree : FilterTree) (state : σ) (before : List (Call α)) :
    tree.visit (fun filter => noting (.evaluate filter) (evaluate filter))
        (fun left joiner right => noting (.combine left joiner right) (combine left joiner right))
        (state, before) =
      (tree.course evaluate combine state).noted before := by
  induction tree generalizing state before with
  | leaf filter => rfl
  | group inner ih => exact ih state before
  | join left joiner right ihLeft ihRight =>
      simp only [visit, bind, EStateM.bind, ihLeft, course, Course.andThen, Course.noted]
      cases hleft : (left.course evaluate combine state).result with
      | error error state => simp only [hleft]
      | ok leftValue state =>
          simp only [ihRight, Course.noted]
          cases hright : (right.course evaluate combine state).result with
          | error error state => simp only [hright, List.append_assoc]
          | ok rightValue state =>
              simp only [noting, Course.noted, Course.single, List.append_assoc]

end

/-! ## Functions that cannot fail -/

section

variable {ε σ α : Type}

/-- An action that cannot fail, among those that may fail in some way. -/
def succeeding {β : Type} (action : StateM σ β) : EStateM ε σ β := fun state =>
  .ok (action state).1 (action state).2

variable (evaluate : Filter → StateM σ α) (combine : α → Joiner → α → StateM σ α)

/-- The value of a tree, each subtree before what it is combined with. -/
def compute : FilterTree → StateM σ α
  | leaf filter => evaluate filter
  | group inner => inner.compute
  | join left joiner right => do
    let leftValue ← left.compute
    let rightValue ← right.compute
    combine leftValue joiner rightValue

theorem visit_succeeding (tree : FilterTree) (state : σ) :
    tree.visit (ε := ε) (fun filter => succeeding (evaluate filter))
        (fun left joiner right => succeeding (combine left joiner right)) state =
      succeeding (tree.compute evaluate combine) state := by
  induction tree generalizing state with
  | leaf filter => rfl
  | group inner ih => exact ih state
  | join left joiner right ihLeft ihRight =>
      simp only [visit, bind, EStateM.bind, ihLeft, ihRight, succeeding]
      rfl

theorem walk_eq_compute (tree : FilterTree) (state : σ) :
    tree.walk evaluate combine state = tree.compute evaluate combine state := by
  have hvisit := visit_succeeding (ε := Empty) evaluate combine tree state
  rw [walk, tryWalk_eq_visit]
  exact congrArg outcome hvisit

end

/-! ## All walks -/

/-- A walk is the recursion over its tree.

* With functions that may change a state and may fail, a walk comes to the value or the
  failure of the recursion and to its state, and it makes the same calls in the same order.
* With functions that cannot fail, the walk that allows for failures, the one that does not,
  and the one of a visitor are the same.
* The filters are the leaves from left to right. -/
theorem walks_eq_recursion (tree : FilterTree) :
    (∀ {ε σ α : Type} (evaluate : Filter → EStateM ε σ α)
      (combine : α → Joiner → α → EStateM ε σ α) (state : σ),
      tree.tryWalk evaluate combine state = (tree.course evaluate combine state).result ∧
      tree.tryWalk (fun filter => noting (.evaluate filter) (evaluate filter))
          (fun left joiner right => noting (.combine left joiner right) (combine left joiner right))
          (state, []) =
        (tree.course evaluate combine state).noted []) ∧
    (∀ {ε σ α : Type} (evaluate : Filter → StateM σ α) (combine : α → Joiner → α → StateM σ α)
      (state : σ),
      tree.walk evaluate combine state = tree.compute evaluate combine state ∧
      tree.tryWalk (ε := ε) (fun filter => succeeding (evaluate filter))
          (fun left joiner right => succeeding (combine left joiner right)) state =
        succeeding (tree.walk evaluate combine) state ∧
      tree.fold ⟨fun state filter => evaluate filter state,
          fun state left joiner right => combine left joiner right state⟩ state =
        tree.walk evaluate combine state) ∧
    tree.filters = tree.leaves := by
  refine ⟨?_, ?_, filters_eq_leaves tree⟩
  · intro ε σ α evaluate combine state
    rw [tryWalk_eq_visit, tryWalk_eq_visit]
    exact ⟨(result_course evaluate combine tree state).symm,
      visit_noting evaluate combine tree state []⟩
  · intro ε σ α evaluate combine state
    refine ⟨walk_eq_compute evaluate combine tree state, ?_, rfl⟩
    have hwalk : tree.walk evaluate combine = tree.compute evaluate combine :=
      funext (walk_eq_compute evaluate combine tree)
    rw [tryWalk_eq_visit, hwalk, visit_succeeding]

end RecordQuery.FilterTree

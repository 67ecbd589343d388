import Mathlib.Data.List.Forall2
import Mathlib.Data.Option.Basic
import RecordQuery.Json.Basic

/-!
# When JSON values are the same

An object is what its names stand for: the order in which its fields are written does not
count.  So two objects are the same if under each name both have the same value, or neither
has one.  Everything else is the same if it is equal piece by piece.
-/

namespace RecordQuery.Json

variable {items items' : List Json} {fields fields' : List (String × Json)}

/-- Two values are the same, whatever the order of the fields of their objects. -/
inductive Same : Json → Json → Prop where
  | null : Same null null
  | integer (value : Int) : Same (integer value) (integer value)
  | string (text : String) : Same (string text) (string text)
  | array {items items' : List Json} (h : List.Forall₂ Same items items') :
      Same (array items) (array items')
  | object {fields fields' : List (String × Json)}
      (h : ∀ name, Option.Rel Same (fields.lookup name) (fields'.lookup name)) :
      Same (object fields) (object fields')

theorem sizeOf_of_lookup {name : String} {value : Json} (h : fields.lookup name = some value) :
    sizeOf value < sizeOf fields := by
  obtain ⟨front, back, rfl, -⟩ := List.lookup_eq_some_iff.mp h
  have hpair := List.sizeOf_lt_of_mem (List.mem_append_right front
    (List.mem_cons_self (a := (name, value)) (l := back)))
  rw [Prod.mk.sizeOf_spec] at hpair
  omega

theorem Same.refl (value : Json) : Same value value :=
  match value with
  | .null => .null
  | .integer value => .integer value
  | .string text => .string text
  | .array items => .array (List.forall₂_same.mpr fun item hitem =>
      have := List.sizeOf_lt_of_mem hitem
      Same.refl item)
  | .object fields => .object fun name =>
      match hfound : fields.lookup name with
      | none => .none
      | some value =>
          have := sizeOf_of_lookup hfound
          .some (Same.refl value)

/-! ## The pieces of values that are the same -/

theorem Same.eq_of_integer {value value' : Int} (h : Same (.integer value) (.integer value')) :
    value = value' := by
  cases h
  rfl

theorem Same.eq_of_string {text text' : String} (h : Same (.string text) (.string text')) :
    text = text' := by
  cases h
  rfl

theorem Same.rel_lookup (h : Same (.object fields) (.object fields')) (name : String) :
    Option.Rel Same (fields.lookup name) (fields'.lookup name) := by
  cases h with
  | object h => exact h name

/-- What stands under a name is the same. -/
theorem Same.value {value value' : Json} (h : Same (.object fields) (.object fields'))
    (name : String) (hvalue : fields.lookup name = some value)
    (hvalue' : fields'.lookup name = some value') : Same value value' := by
  have hrel := h.rel_lookup name
  rw [hvalue, hvalue'] at hrel
  cases hrel with
  | some hsame => exact hsame

/-- Both objects have the name, or neither has. -/
theorem Same.isSome_lookup (h : Same (.object fields) (.object fields')) (name : String) :
    (fields.lookup name).isSome = (fields'.lookup name).isSome := by
  have hrel := h.rel_lookup name
  generalize fields.lookup name = value at hrel ⊢
  generalize fields'.lookup name = value' at hrel ⊢
  cases hrel with
  | none => rfl
  | some hsame => rfl

/-- If the items of two arrays tell what they were made from, then the arrays tell it. -/
theorem Same.map_eq {α β : Type} {write : α → Json} {subjects subjects' : List α}
    (h : Same (.array (subjects.map write)) (.array (subjects'.map write))) (keep : α → β)
    (hkeep : ∀ subject ∈ subjects, ∀ subject' ∈ subjects', Same (write subject) (write subject') →
      keep subject = keep subject') :
    subjects.map keep = subjects'.map keep := by
  cases h with
  | array h =>
      induction subjects generalizing subjects' with
      | nil =>
          cases subjects' with
          | nil => rfl
          | cons subject' subjects' => cases h
      | cons subject subjects ih =>
          cases subjects' with
          | nil => cases h
          | cons subject' subjects' =>
              obtain ⟨hfirst, hothers⟩ := List.forall₂_cons.mp h
              have hhead := hkeep subject List.mem_cons_self subject' List.mem_cons_self hfirst
              have htail := ih (fun other hother other' hother' =>
                hkeep other (List.mem_cons_of_mem _ hother) other'
                  (List.mem_cons_of_mem _ hother')) hothers
              rw [List.map_cons, List.map_cons, hhead, htail]

end RecordQuery.Json

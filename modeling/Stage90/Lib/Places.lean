import Mathlib.Init

/-!
# The places of a list

An element of a list together with what stands before it and behind it.
-/

set_option autoImplicit false

namespace Stage90.Lib
variable {α : Type}

theorem forall_places_nil {P : List α → α → List α → Prop} :
    ∀ before x after, ([] : List α) = before ++ x :: after → P before x after := by
  intro before x after split
  exact absurd split.symm (List.append_ne_nil_of_right_ne_nil _ (List.cons_ne_nil _ _))

theorem forall_places_cons {P : List α → α → List α → Prop} {first : α} {rest : List α} :
    (∀ before x after, first :: rest = before ++ x :: after → P before x after) ↔
      P [] first rest ∧ ∀ before x after, rest = before ++ x :: after → P (first :: before) x after := by
  constructor
  · intro every
    refine ⟨every [] first rest rfl, fun before x after split => ?_⟩
    exact every (first :: before) x after (congrArg (List.cons first) split)
  · intro both before x after split
    cases before with
    | nil =>
        obtain ⟨head, tail⟩ := List.cons.inj split
        exact head ▸ tail ▸ both.1
    | cons y before =>
        obtain ⟨head, tail⟩ := List.cons.inj split
        exact head ▸ both.2 before x after tail

theorem forall_places_mem {P : α → Prop} {xs : List α} :
    (∀ before x after, xs = before ++ x :: after → P x) ↔ ∀ x ∈ xs, P x := by
  constructor
  · intro every x member
    obtain ⟨before, after, split⟩ := List.append_of_mem member
    exact every before x after split
  · intro every before x after split
    apply every
    rw [split]
    exact List.mem_append_right before List.mem_cons_self

end Stage90.Lib

import Mathlib.Data.List.Induction
import Mathlib.Order.Defs.LinearOrder
import Mathlib.Order.Lattice

/-!
# The first of the largest

`FirstMax score xs a` says that `a` is the first element of `xs` with the largest score.
-/

set_option autoImplicit false

namespace Stage90.Lib

variable {α β : Type} [LinearOrder β]

structure FirstMax (score : α → β) (xs : List α) (a : α) : Prop where
  split : ∃ before after, xs = before ++ a :: after ∧ (∀ x ∈ before, score x < score a) ∧
    ∀ x ∈ after, score x ≤ score a

variable {score : α → β} {xs : List α} {a : α}

theorem FirstMax.mem (largest : FirstMax score xs a) : a ∈ xs := by
  obtain ⟨before, after, rfl, _⟩ := largest.split
  exact List.mem_append_right before List.mem_cons_self

theorem FirstMax.le (largest : FirstMax score xs a) {x : α} (member : x ∈ xs) :
    score x ≤ score a := by
  obtain ⟨before, after, rfl, smaller, others⟩ := largest.split
  rcases List.mem_append.mp member with early | late
  · exact le_of_lt (smaller x early)
  · rcases List.mem_cons.mp late with rfl | late
    · exact le_refl _
    · exact others x late

theorem FirstMax.unique {b : α} (first : FirstMax score xs a) (second : FirstMax score xs b) : a = b := by
  have above := first.le second.mem
  have below := second.le first.mem
  obtain ⟨before, after, rfl, smaller, -⟩ := first.split
  obtain ⟨before', after', same, smaller', -⟩ := second.split
  rcases List.append_eq_append_iff.mp same with ⟨between, rfl, rest⟩ | ⟨between, rfl, rest⟩
  · cases between with
    | nil => exact (List.cons.inj rest).1
    | cons x between =>
        obtain rfl := (List.cons.inj rest).1
        exact absurd (smaller' a (List.mem_append_right before List.mem_cons_self)) (not_lt.mpr above)
  · cases between with
    | nil => exact (List.cons.inj rest).1.symm
    | cons x between =>
        obtain rfl := (List.cons.inj rest).1
        exact absurd (smaller b (List.mem_append_right before' List.mem_cons_self)) (not_lt.mpr below)

/-- One more element at the end takes over only when it is larger. -/
theorem FirstMax.snoc (largest : FirstMax score xs a) (x : α) :
    FirstMax score (xs ++ [x]) (if score a < score x then x else a) := by
  by_cases larger : score a < score x
  · rw [if_pos larger]
    refine ⟨xs, [], rfl, ?_, ?_⟩
    · intro y member
      exact lt_of_le_of_lt (largest.le member) larger
    · intro y member
      exact absurd member List.not_mem_nil
  · rw [if_neg larger]
    obtain ⟨before, after, rfl, smaller, others⟩ := largest.split
    refine ⟨before, after ++ [x], by rw [List.append_assoc, List.cons_append], smaller, ?_⟩
    intro y member
    rcases List.mem_append.mp member with old | new
    · exact others y old
    · rw [List.mem_singleton.mp new]
      exact not_lt.mp larger

theorem exists_firstMax (score : α → β) {xs : List α} (nonempty : xs ≠ []) :
    ∃ a, FirstMax score xs a := by
  induction xs using List.reverseRecOn with
  | nil => exact absurd rfl nonempty
  | append_singleton xs x ih =>
      by_cases empty : xs = []
      · subst empty
        refine ⟨x, [], [], rfl, ?_, ?_⟩
        · exact fun y member => absurd member List.not_mem_nil
        · exact fun y member => absurd member List.not_mem_nil
      · obtain ⟨a, largest⟩ := ih empty
        exact ⟨_, largest.snoc x⟩

end Stage90.Lib

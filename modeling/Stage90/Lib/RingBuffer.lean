import Mathlib.Data.List.Rotate
import Mathlib.Logic.Function.Basic

/-!
# Ring buffers

A ring of `size` slots takes what is stored in turn and so holds the last `size` values.  Read from
slot 0 it gives them in order until it has wrapped, and rotated from then on.
-/

set_option autoImplicit false

namespace Stage90.Lib

variable {α : Type} {size : Nat}

/-- The newest `size` of the values stored, oldest first. -/
def recent (size : Nat) (xs : List α) : List α := xs.drop (xs.length - size)

def RingHolds (size : Nat) (slots : Nat → α) (xs : List α) : Prop :=
  ∀ (k : Nat) (inside : k < xs.length), xs.length ≤ k + size → slots (k % size) = xs[k]

theorem length_recent (size : Nat) (xs : List α) : (recent size xs).length = min xs.length size := by
  rw [recent, List.length_drop]
  omega

theorem ringHolds_nil (slots : Nat → α) : RingHolds size slots [] := by
  intro k inside
  exact absurd inside (Nat.not_lt_zero k)

theorem ringHolds_snoc {slots : Nat → α} {xs : List α} (holds : RingHolds size slots xs) (x : α) :
    RingHolds size (Function.update slots (xs.length % size) x) (xs ++ [x]) := by
  intro k inside newest
  rw [List.length_append, List.length_singleton] at inside newest
  rcases Nat.lt_or_eq_of_le (Nat.le_of_lt_succ inside) with earlier | last
  · have apart : k % size ≠ xs.length % size := by
      intro same
      have gap := Nat.sub_mod_eq_zero_of_mod_eq same.symm
      rw [Nat.mod_eq_of_lt (by omega)] at gap
      omega
    rw [Function.update_of_ne apart, holds k earlier (by omega), List.getElem_append_left earlier]
  · subst last
    rw [Function.update_self, List.getElem_append_right (Nat.le_refl _)]
    simp only [Nat.sub_self, List.getElem_cons_zero]

section Read
variable {slots : Nat → α} {xs : List α}

/-- Before it has wrapped, the slots are in order. -/
theorem map_range_of_le (holds : RingHolds size slots xs) (few : xs.length ≤ size) :
    (List.range xs.length).map slots = recent size xs := by
  have whole : recent size xs = xs := by rw [recent, Nat.sub_eq_zero_of_le few, List.drop_zero]
  rw [whole]
  apply List.ext_getElem
  · rw [List.length_map, List.length_range]
  · intro k inside inside'
    rw [List.getElem_map, List.getElem_range]
    have same := holds k inside' (by omega)
    rwa [Nat.mod_eq_of_lt (by omega)] at same

/-- From then on the oldest value is in the slot after the newest. -/
theorem rotate_map_range (holds : RingHolds size slots xs) (full : size ≤ xs.length) :
    ((List.range size).map slots).rotate xs.length = recent size xs := by
  apply List.ext_getElem
  · rw [List.length_rotate, List.length_map, List.length_range, length_recent, Nat.min_eq_right full]
  · intro k inside inside'
    have below : k < size := by
      rwa [List.length_rotate, List.length_map, List.length_range] at inside
    have slot : (xs.length - size + k) % size = (k + xs.length) % size := by
      have lap : k + xs.length = xs.length - size + k + size := by omega
      rw [lap, Nat.add_mod_right]
    have value := holds (xs.length - size + k) (by omega) (by omega)
    simp only [List.getElem_rotate, List.length_map, List.length_range, List.getElem_map,
      List.getElem_range, recent, List.getElem_drop]
    rw [← slot, value]

/-- A full ring read from slot 0 gives its values in order if they are the same rotated. -/
theorem map_range_eq_iff (holds : RingHolds size slots xs) (full : size ≤ xs.length) :
    (List.range size).map slots = recent size xs ↔
      (recent size xs).rotate xs.length = recent size xs := by
  have rotated := rotate_map_range holds full
  constructor
  · intro same
    rwa [same] at rotated
  · intro periodic
    exact List.rotate_injective xs.length (rotated.trans periodic.symm)

end Read

end Stage90.Lib

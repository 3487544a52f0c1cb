import Mathlib.Data.Finset.Card

/-!
# Changes of value along a list

A change is either to a value that was not there before or back to one that was.
-/

set_option autoImplicit false

namespace Stage90.Lib

variable {α : Type} [DecidableEq α]

def changesFrom : α → List α → Nat
  | _, [] => 0
  | last, x :: xs => (if x = last then 0 else 1) + changesFrom x xs

/-- How often the value differs from the one before it and has been there earlier. -/
def returnsFrom : List α → α → List α → Nat
  | _, _, [] => 0
  | seen, last, x :: xs =>
      (if x ≠ last ∧ x ∈ seen then 1 else 0) + returnsFrom (x :: seen) x xs

def changes : List α → Nat
  | [] => 0
  | x :: xs => changesFrom x xs

def returns : List α → Nat
  | [] => 0
  | x :: xs => returnsFrom [x] x xs

def distinct (xs : List α) : Nat := xs.toFinset.card

theorem changesFrom_add (seen : List α) {last : α} (member : last ∈ seen) (xs : List α) :
    changesFrom last xs + seen.toFinset.card =
      (seen.toFinset ∪ xs.toFinset).card + returnsFrom seen last xs := by
  induction xs generalizing seen last with
  | nil => simp [changesFrom, returnsFrom]
  | cons x xs ih =>
      have next := ih (x :: seen) List.mem_cons_self
      have grown : (x :: seen).toFinset ∪ xs.toFinset = seen.toFinset ∪ (x :: xs).toFinset := by
        rw [List.toFinset_cons, List.toFinset_cons, Finset.insert_union, Finset.union_insert]
      rw [grown, List.toFinset_cons] at next
      rw [changesFrom, returnsFrom]
      by_cases before : x ∈ seen
      · rw [Finset.insert_eq_of_mem (List.mem_toFinset.mpr before)] at next
        by_cases same : x = last
        · rw [if_pos same, if_neg fun both => both.1 same]
          omega
        · rw [if_neg same, if_pos ⟨same, before⟩]
          omega
      · have other : x ≠ last := fun same => before (same ▸ member)
        rw [Finset.card_insert_of_notMem fun inSeen => before (List.mem_toFinset.mp inSeen)] at next
        rw [if_neg other, if_neg fun both => before both.2]
        omega

/-- Every change is to a new value or a return. -/
theorem changes_add_one {xs : List α} (some_ : xs ≠ []) :
    changes xs + 1 = distinct xs + returns xs := by
  cases xs with
  | nil => exact absurd rfl some_
  | cons x xs =>
      have total := changesFrom_add [x] (List.mem_singleton_self x) xs
      rw [changes, returns, distinct, List.toFinset_cons]
      simpa using total

theorem changes_le_distinct_iff (xs : List α) : changes xs ≤ distinct xs ↔ returns xs ≤ 1 := by
  cases xs with
  | nil => simp [changes, returns]
  | cons x xs =>
      have total := changes_add_one (List.cons_ne_nil x xs)
      omega

end Stage90.Lib

import Stage90.Lib.Places
import Mathlib.Logic.Basic
import Mathlib.Data.List.Basic

/-!
# The first of each key

What is left of a list when an element whose key came before is dropped.
-/

set_option autoImplicit false

namespace Stage90.Lib
variable {α β κ : Type} [DecidableEq κ] (key : α → κ)

def firstsFrom : List κ → List α → List α
  | _, [] => []
  | seen, x :: xs =>
      if key x ∈ seen then firstsFrom seen xs else x :: firstsFrom (key x :: seen) xs

def firsts (xs : List α) : List α := firstsFrom key [] xs

attribute [local simp] firstsFrom

theorem firstsFrom_sublist (xs : List α) : ∀ seen, (firstsFrom key seen xs).Sublist xs := by
  induction xs with
  | nil => exact fun seen => List.Sublist.refl []
  | cons x xs ih =>
      intro seen
      rw [firstsFrom]
      split
      · exact (ih seen).cons x
      · exact (ih (key x :: seen)).cons_cons x

theorem find?_firstsFrom {k : κ} (xs : List α) : ∀ {seen}, k ∉ seen →
    (firstsFrom key seen xs).find? (key · = k) = xs.find? (key · = k) := by
  induction xs with
  | nil => exact fun _ => rfl
  | cons x xs ih =>
      intro seen fresh
      rw [firstsFrom]
      by_cases here : key x = k
      · rw [if_neg (here ▸ fresh), List.find?_cons_of_pos (by simpa using here),
          List.find?_cons_of_pos (by simpa using here)]
      · rw [List.find?_cons_of_neg (l := xs) (by simpa using here)]
        split
        · exact ih fresh
        · rw [List.find?_cons_of_neg (by simpa using here)]
          exact ih (by simpa using ⟨Ne.symm here, fresh⟩)

theorem not_mem_of_mem_firstsFrom (xs : List α) :
    ∀ {seen}, ∀ x ∈ firstsFrom key seen xs, key x ∉ seen := by
  induction xs with
  | nil => exact fun x member => absurd member List.not_mem_nil
  | cons y xs ih =>
      intro seen x member
      rw [firstsFrom] at member
      split at member
      case isTrue => exact ih x member
      case isFalse fresh =>
          obtain rfl | later := List.mem_cons.mp member
          · exact fresh
          · exact fun old => ih x later (List.mem_cons_of_mem _ old)

theorem find?_of_mem_firstsFrom {x : α} (xs : List α) : ∀ {seen}, x ∈ firstsFrom key seen xs →
    xs.find? (key · = key x) = some x := by
  induction xs with
  | nil => exact fun member => absurd member List.not_mem_nil
  | cons y xs ih =>
      intro seen member
      have fresh := not_mem_of_mem_firstsFrom key _ x member
      rw [firstsFrom] at member
      split at member
      case isTrue seen_y =>
          have other : key y ≠ key x := fun same => fresh (same ▸ seen_y)
          rw [List.find?_cons_of_neg (by simpa using other)]
          exact ih member
      case isFalse =>
          obtain rfl | later := List.mem_cons.mp member
          · exact List.find?_cons_of_pos (by simp)
          · have other := not_mem_of_mem_firstsFrom key _ x later
            have apart : key y ≠ key x := fun same => other (same ▸ List.mem_cons_self)
            rw [List.find?_cons_of_neg (by simpa using apart)]
            exact ih later

theorem mem_firsts_iff {x : α} {xs : List α} :
    x ∈ firsts key xs ↔ xs.find? (key · = key x) = some x := by
  constructor
  · exact find?_of_mem_firstsFrom key xs
  · intro first
    rw [← find?_firstsFrom key xs List.not_mem_nil] at first
    exact List.mem_of_find?_eq_some first

/-- What is made of a list is made of the firsts of it alone when nothing is made of the rest. -/
theorem filterMap_firstsFrom_iff (f : α → Option β) (xs : List α) : ∀ {seen},
    (firstsFrom key seen xs).filterMap f = xs.filterMap f ↔
      ∀ before x after, xs = before ++ x :: after → (f x).isSome = true →
        key x ∉ seen ∧ ∀ y ∈ before, key y ≠ key x := by
  induction xs with
  | nil => exact fun {seen} => iff_of_true rfl forall_places_nil
  | cons x xs ih =>
      intro seen
      rw [firstsFrom, forall_places_cons]
      split
      case isTrue old =>
          cases made : f x with
          | none =>
              rw [List.filterMap_cons_none made, ih]
              constructor
              · intro first
                refine ⟨fun some => absurd some (by simp), fun before z after split some => ?_⟩
                obtain ⟨fresh, apart⟩ := first before z after split some
                exact ⟨fresh, List.forall_mem_cons.mpr ⟨fun same => fresh (same ▸ old), apart⟩⟩
              · intro ⟨_, first⟩ before z after split some
                obtain ⟨fresh, apart⟩ := first before z after split some
                exact ⟨fresh, (List.forall_mem_cons.mp apart).2⟩
          | some b =>
              constructor
              · intro same
                have shorter := ((firstsFrom_sublist key xs seen).filterMap f).length_le
                rw [same, List.filterMap_cons_some made, List.length_cons] at shorter
                omega
              · intro ⟨first, _⟩
                exact absurd old (first rfl).1
      case isFalse fresh =>
          have tail : (x :: firstsFrom key (key x :: seen) xs).filterMap f = (x :: xs).filterMap f ↔
              (firstsFrom key (key x :: seen) xs).filterMap f = xs.filterMap f := by
            rw [List.filterMap_cons, List.filterMap_cons]
            cases f x <;> simp
          rw [tail, ih]
          constructor
          · intro first
            refine ⟨fun _ => ⟨fresh, fun y none => absurd none List.not_mem_nil⟩, ?_⟩
            intro before z after split some
            obtain ⟨fresh, apart⟩ := first before z after split some
            have other : key x ≠ key z := fun same => fresh (same ▸ List.mem_cons_self)
            exact ⟨fun old => fresh (List.mem_cons_of_mem _ old),
              List.forall_mem_cons.mpr ⟨other, apart⟩⟩
          · intro ⟨_, first⟩ before z after split some
            obtain ⟨fresh, apart⟩ := first before z after split some
            obtain ⟨other, apart⟩ := List.forall_mem_cons.mp apart
            refine ⟨fun old => ?_, apart⟩
            obtain same | old := List.mem_cons.mp old
            · exact other same.symm
            · exact fresh old

theorem filterMap_firsts_iff (f : α → Option β) (xs : List α) :
    (firsts key xs).filterMap f = xs.filterMap f ↔
      ∀ before x after, xs = before ++ x :: after → (f x).isSome = true →
        ∀ y ∈ before, key y ≠ key x := by
  rw [firsts, filterMap_firstsFrom_iff]
  simp only [List.not_mem_nil, not_false_eq_true, true_and]

/-! ## Adding what is new -/

variable {key}

/-- A list to which what it does not have yet is added, in order. -/
def addNew (xs ys : List κ) : List κ := ys.foldl (fun xs y => if y ∈ xs then xs else xs ++ [y]) xs

theorem mem_addNew {k : κ} (ys : List κ) : ∀ {xs}, k ∈ addNew xs ys ↔ k ∈ xs ∨ k ∈ ys := by
  induction ys with
  | nil => exact fun {xs} => by simp [addNew]
  | cons y ys ih =>
      intro xs
      have step : addNew xs (y :: ys) = addNew (if y ∈ xs then xs else xs ++ [y]) ys := rfl
      rw [step, ih, List.mem_cons]
      split
      case isTrue there =>
          constructor
          · exact Or.imp_right Or.inr
          · rintro (old | rfl | new)
            · exact .inl old
            · exact .inl there
            · exact .inr new
      case isFalse =>
          rw [List.mem_append, List.mem_singleton, or_assoc]

end Stage90.Lib

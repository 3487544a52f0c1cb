import Mathlib.Algebra.GroupWithZero.Nat
import Mathlib.Data.List.Flatten
import Mathlib.Data.List.Pairwise

/-!
# Strings of cells in a flat memory

`overlay` writes a string of cells over a memory and `Holds` says that one stands at a
position.  `placed` gives the positions of a list of elements that are laid out end to
end, each taking up its `size`.
-/

set_option autoImplicit false

namespace Stage90.Lib

section Overlay
variable {α : Type} (memory : Nat → α)

def overlay (p : Nat) (cells : List α) : Nat → α :=
  fun a => if p ≤ a then cells[a - p]?.getD (memory a) else memory a

def Holds (p : Nat) (cells : List α) : Prop :=
  ∀ i c, cells[i]? = some c → memory (p + i) = c

@[simp] theorem overlay_nil (p : Nat) : overlay memory p [] = memory := by
  funext a
  simp [overlay]

theorem overlay_of_lt {p a : Nat} (cells : List α) (before : a < p) :
    overlay memory p cells a = memory a := if_neg (Nat.not_le.mpr before)

theorem overlay_cons (p : Nat) (c : α) (cells : List α) :
    overlay (overlay memory p [c]) (p + 1) cells = overlay memory p (c :: cells) := by
  funext a
  simp only [overlay]
  by_cases before : a < p
  · rw [if_neg (by omega), if_neg (by omega), if_neg (by omega)]
  · by_cases first : a = p
    · subst first
      rw [if_neg (by omega)]
      simp
    · obtain ⟨i, rfl⟩ : ∃ i, a = p + 1 + i := ⟨a - (p + 1), by omega⟩
      rw [if_pos (by omega), if_pos (by omega), if_pos (by omega),
        show p + 1 + i - p = i + 1 by omega, show p + 1 + i - (p + 1) = i by omega]
      rfl

theorem overlay_overlay (p : Nat) (xs ys : List α) :
    overlay (overlay memory p xs) (p + xs.length) ys = overlay memory p (xs ++ ys) := by
  induction xs generalizing memory p with
  | nil => simp
  | cons x xs ih =>
      have next : p + (x :: xs).length = p + 1 + xs.length := by
        simp only [List.length_cons]
        omega
      rw [List.cons_append, ← overlay_cons memory p x xs, ← overlay_cons memory p x (xs ++ ys),
        next, ih]

theorem holds_overlay (p : Nat) (cells : List α) : Holds (overlay memory p cells) p cells := by
  intro i c at_i
  have within : p ≤ p + i := Nat.le_add_right p i
  rw [overlay, if_pos within, Nat.add_sub_cancel_left, at_i, Option.getD_some]

variable {memory}

theorem Holds.frame {memory' : Nat → α} {p n : Nat} {cells : List α}
    (there : Holds memory p cells) (within : p + cells.length ≤ n)
    (same : ∀ a < n, memory' a = memory a) : Holds memory' p cells := by
  intro i c at_i
  have inside : i < cells.length := (List.getElem?_eq_some_iff.mp at_i).1
  rw [same (p + i) (by omega)]
  exact there i c at_i

@[simp] theorem holds_nil (p : Nat) : Holds memory p [] := by
  intro i c at_i
  simp at at_i

theorem holds_append {p : Nat} {xs ys : List α} :
    Holds memory p (xs ++ ys) ↔ Holds memory p xs ∧ Holds memory (p + xs.length) ys := by
  constructor
  · intro both
    constructor
    · intro i c at_i
      have inside : i < xs.length := (List.getElem?_eq_some_iff.mp at_i).1
      exact both i c ((List.getElem?_append_left inside).trans at_i)
    · intro i c at_i
      rw [Nat.add_assoc]
      apply both
      rw [List.getElem?_append_right (Nat.le_add_right _ _), Nat.add_sub_cancel_left, at_i]
  · intro ⟨first, second⟩ i c at_i
    by_cases inside : i < xs.length
    · exact first i c ((List.getElem?_append_left inside).symm.trans at_i)
    · have beyond : xs.length ≤ i := Nat.le_of_not_lt inside
      rw [List.getElem?_append_right beyond] at at_i
      have there := second _ c at_i
      rwa [Nat.add_assoc, Nat.add_sub_of_le beyond] at there

theorem holds_cons {p : Nat} {c : α} {cells : List α} :
    Holds memory p (c :: cells) ↔ memory p = c ∧ Holds memory (p + 1) cells := by
  have split : Holds memory p ([c] ++ cells) ↔
      Holds memory p [c] ∧ Holds memory (p + 1) cells := holds_append
  rw [List.singleton_append] at split
  rw [split]
  apply and_congr_left'
  constructor
  · intro single
    exact single 0 c rfl
  · intro here i d at_i
    cases i with
    | zero =>
        cases at_i
        exact here
    | succ i => simp at at_i

end Overlay

section Placed
variable {β : Type} (size : β → Nat)

def placed : Nat → List β → List (Nat × β)
  | _, [] => []
  | p, x :: xs => (p, x) :: placed (p + size x) xs

def extent (xs : List β) : Nat := (xs.map size).sum

@[simp] theorem extent_cons (x : β) (xs : List β) :
    extent size (x :: xs) = size x + extent size xs := by
  simp [extent]

theorem length_le_extent {xs : List β} (room : ∀ x ∈ xs, 0 < size x) :
    xs.length ≤ extent size xs := by
  induction xs with
  | nil => exact Nat.le_refl 0
  | cons x xs ih =>
      have first := room x List.mem_cons_self
      have rest := ih fun y member => room y (List.mem_cons_of_mem x member)
      rw [List.length_cons, extent_cons]
      omega

theorem map_snd_placed (p : Nat) (xs : List β) : (placed size p xs).map Prod.snd = xs := by
  induction xs generalizing p with
  | nil => rfl
  | cons x xs ih => simp [placed, ih]

variable {size}

theorem placed_within {p q : Nat} {x : β} {xs : List β} (there : (q, x) ∈ placed size p xs) :
    p ≤ q ∧ q + size x ≤ p + extent size xs := by
  induction xs generalizing p with
  | nil => simp [placed] at there
  | cons y ys ih =>
      rw [extent_cons]
      rcases List.mem_cons.mp there with here | later
      · cases here
        omega
      · have := ih later
        omega

theorem mem_of_placed {p q : Nat} {x : β} {xs : List β} (there : (q, x) ∈ placed size p xs) :
    x ∈ xs := by
  rw [← map_snd_placed size p xs]
  exact List.mem_map_of_mem there

/-- Elements that take up room have different positions. -/
theorem placed_ascending {p : Nat} {xs : List β} (room : ∀ x ∈ xs, 0 < size x) :
    (placed size p xs).Pairwise fun a b => a.1 < b.1 := by
  induction xs generalizing p with
  | nil => exact List.Pairwise.nil
  | cons x xs ih =>
      apply List.Pairwise.cons
      · intro b later
        have here := room x List.mem_cons_self
        have := (placed_within (x := b.2) later).1
        omega
      · apply ih
        intro y member
        exact room y (List.mem_cons_of_mem x member)

theorem placed_injective {p : Nat} {xs : List β} (room : ∀ x ∈ xs, 0 < size x) {a b : Nat × β}
    (first : a ∈ placed size p xs) (second : b ∈ placed size p xs) (same : a.1 = b.1) : a = b := by
  have apart : (placed size p xs).Pairwise fun a b => a.1 ≠ b.1 :=
    (placed_ascending room).imp fun lt => Nat.ne_of_lt lt
  have symmetric : Std.Symm fun a b : Nat × β => a.1 ≠ b.1 := ⟨fun _ _ ne => ne.symm⟩
  by_contra different
  exact apart.forall first second different same

theorem holds_placed {α : Type} {memory : Nat → α} {encode : β → List α} {p q : Nat} {x : β}
    {xs : List β} (sized : ∀ x, (encode x).length = size x)
    (all : Holds memory p (xs.flatMap encode)) (there : (q, x) ∈ placed size p xs) :
    Holds memory q (encode x) := by
  induction xs generalizing p with
  | nil => simp [placed] at there
  | cons y ys ih =>
      rw [List.flatMap_cons, holds_append, sized] at all
      rcases List.mem_cons.mp there with here | later
      · cases here
        exact all.1
      · exact ih all.2 later

end Placed

/-! ## Searching a list with two tests -/

section Find
variable {β : Type} {loose strict : β → Bool}

/-- The first elements that pass the two tests are the same one, exactly when every element that
passes the looser test has one up to it that passes the stricter. -/
theorem find?_eq_find?_iff {xs : List β} (weaker : ∀ x ∈ xs, strict x = true → loose x = true) :
    xs.find? loose = xs.find? strict ↔
      ∀ before x after, xs = before ++ x :: after → loose x = true →
        ∃ y ∈ before ++ [x], strict y = true := by
  constructor
  · intro same before x after split passes
    have found : (xs.find? loose).isSome := by
      rw [List.find?_isSome]
      exact ⟨x, split ▸ List.mem_append_right _ List.mem_cons_self, passes⟩
    obtain ⟨y, first⟩ := Option.isSome_iff_exists.mp found
    have strictly : strict y = true := List.find?_some (same.symm.trans first)
    refine ⟨y, ?_, strictly⟩
    by_contra missing
    rw [split, List.find?_append, Option.or_eq_some_iff] at first
    rcases first with early | ⟨_, late⟩
    · exact missing (List.mem_append_left _ (List.mem_of_find?_eq_some early))
    · rw [List.find?_cons_of_pos passes] at late
      cases late
      exact missing (List.mem_append_right _ (List.mem_singleton_self x))
  · intro covered
    cases first : xs.find? loose with
    | none =>
        symm
        rw [List.find?_eq_none] at first ⊢
        intro x member passes
        exact first x member (weaker x member passes)
    | some x =>
        obtain ⟨passes, before, after, split, none⟩ := List.find?_eq_some_iff_append.mp first
        obtain ⟨y, member, strictly⟩ := covered before x after split passes
        have earlier : ∀ z ∈ before, strict z ≠ true := by
          intro z here strictly
          have loosely := weaker z (split ▸ List.mem_append_left _ here) strictly
          simpa [loosely] using none z here
        have here : strict x = true := by
          rcases List.mem_append.mp member with early | last
          · exact absurd strictly (earlier y early)
          · rwa [List.mem_singleton.mp last] at strictly
        symm
        apply List.find?_eq_some_iff_append.mpr
        refine ⟨here, before, after, split, ?_⟩
        intro z member
        simpa using earlier z member

theorem findSome?_ite {γ : Type} (test : β → Bool) (found : β → γ) (xs : List β) :
    (xs.findSome? fun x => if test x then some (found x) else none) = (xs.find? test).map found := by
  induction xs with
  | nil => rfl
  | cons x xs ih =>
      rw [List.findSome?_cons, List.find?_cons]
      cases test x with
      | true => rfl
      | false => exact ih

end Find

end Stage90.Lib

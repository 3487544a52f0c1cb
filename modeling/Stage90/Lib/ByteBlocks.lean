import Mathlib.Data.Fintype.Basic
import Mathlib.Tactic.Ring
import Mathlib.Tactic.Linarith

/-!
# Blocks in a flat memory

A memory is a function from offsets to cells.  `blockAt` reads `n` consecutive
cells and `copyBlock` overwrites them.  The two frame facts are all a user needs:
a block reads back as it was written, and a write leaves every disjoint block
alone.  `grid_disjoint` supplies the disjointness for blocks laid out on a
two-level grid, which is how an arena of equal pages addresses its sectors.
-/

set_option autoImplicit false

namespace Stage90.Lib

variable {α : Type} {n : Nat}

def blockAt (n : Nat) (memory : Nat → α) (offset : Nat) : Fin n → α :=
  fun i => memory (offset + i)

def copyBlock (memory : Nat → α) (offset : Nat) (block : Fin n → α) : Nat → α :=
  fun a => if h : offset ≤ a ∧ a < offset + n then block ⟨a - offset, by omega⟩ else memory a

@[simp] theorem blockAt_copyBlock_same (memory : Nat → α) (offset : Nat) (block : Fin n → α) :
    blockAt n (copyBlock memory offset block) offset = block := by
  funext i
  have inside : offset ≤ offset + i ∧ offset + i < offset + n := by omega
  simp [blockAt, copyBlock]

theorem copyBlock_apply_outside (memory : Nat → α) (offset a : Nat) (block : Fin n → α)
    (outside : a < offset ∨ offset + n ≤ a) : copyBlock memory offset block a = memory a := by
  have notInside : ¬ (offset ≤ a ∧ a < offset + n) := by omega
  simp [copyBlock, notInside]

theorem blockAt_copyBlock_disjoint {m : Nat} (memory : Nat → α) (written read : Nat)
    (block : Fin n → α) (apart : read + m ≤ written ∨ written + n ≤ read) :
    blockAt m (copyBlock memory written block) read = blockAt m memory read := by
  funext i
  exact copyBlock_apply_outside memory written (read + i) block (by omega)

theorem blockAt_congr {memory memory' : Nat → α} {offset : Nat}
    (agree : ∀ a, offset ≤ a → a < offset + n → memory a = memory' a) :
    blockAt n memory offset = blockAt n memory' offset := by
  funext i
  exact agree (offset + i) (by omega) (by omega)

/-! ## Grids of equal blocks -/

/-- Row `r` holds `cols` blocks of `size` cells. -/
def gridOffset (size cols r c : Nat) : Nat := r * (cols * size) + c * size

theorem gridOffset_eq (size cols r c : Nat) :
    gridOffset size cols r c = (r * cols + c) * size := by
  unfold gridOffset
  ring

theorem gridOffset_add_le (size : Nat) {cols rows r c : Nat} (hr : r < rows) (hc : c < cols) :
    gridOffset size cols r c + size ≤ rows * (cols * size) := by
  have column : c * size + size ≤ cols * size := by
    have := Nat.mul_le_mul_right size (show c + 1 ≤ cols from hc)
    linarith
  have row : r * (cols * size) + cols * size ≤ rows * (cols * size) := by
    have := Nat.mul_le_mul_right (cols * size) (show r + 1 ≤ rows from hr)
    linarith
  unfold gridOffset
  omega

theorem grid_index_injective {cols r c r' c' : Nat} (hc : c < cols) (hc' : c' < cols)
    (same : r * cols + c = r' * cols + c') : r = r' ∧ c = c' := by
  have positive : 0 < cols := by omega
  have rows : r = r' := by
    have quotient := congrArg (· / cols) same
    simpa [Nat.mul_comm _ cols, Nat.mul_add_div positive, Nat.div_eq_of_lt hc,
      Nat.div_eq_of_lt hc'] using quotient
  subst rows
  exact ⟨rfl, by omega⟩

/-- Two different cells of the grid do not share an offset. -/
theorem grid_disjoint {size cols r c r' c' : Nat} (hc : c < cols) (hc' : c' < cols)
    (different : r ≠ r' ∨ c ≠ c') :
    gridOffset size cols r c + size ≤ gridOffset size cols r' c' ∨
      gridOffset size cols r' c' + size ≤ gridOffset size cols r c := by
  have apart : r * cols + c ≠ r' * cols + c' := by
    intro same
    obtain ⟨rows, columns⟩ := grid_index_injective hc hc' same
    exact different.elim (fun h => h rows) (fun h => h columns)
  rw [gridOffset_eq, gridOffset_eq]
  rcases Nat.lt_or_gt_of_ne apart with before | after
  · left
    have := Nat.mul_le_mul_right size (show r * cols + c + 1 ≤ r' * cols + c' from before)
    linarith
  · right
    have := Nat.mul_le_mul_right size (show r' * cols + c' + 1 ≤ r * cols + c from after)
    linarith

end Stage90.Lib

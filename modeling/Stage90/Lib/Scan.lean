import Mathlib.Data.List.Infix

/-!
# Scanning a text for matches

`scan` collects the leftmost matches of a text that do not overlap.  What is recognised at
a position is a parameter: the match and the number of cells it takes up.
-/

set_option autoImplicit false

namespace Stage90.Lib

variable {α β : Type} (recognise : List α → Option (β × Nat))

/-- The first argument counts the cells that still belong to the last match. -/
def scan : Nat → List α → List β
  | _, [] => []
  | skip + 1, _ :: text => scan skip text
  | 0, c :: text =>
      match recognise (c :: text) with
      | some (m, length) => m :: scan (length - 1) text
      | none => scan 0 text

@[simp] theorem scan_nil (skip : Nat) : scan recognise skip [] = [] := by
  cases skip <;> rfl

theorem scan_skip (cells text : List α) :
    scan recognise cells.length (cells ++ text) = scan recognise 0 text := by
  induction cells with
  | nil => rfl
  | cons c cells ih => exact ih

variable {recognise}

theorem scan_found {c : α} {cells text : List α} {m : β}
    (found : recognise (c :: (cells ++ text)) = some (m, cells.length + 1)) :
    scan recognise 0 (c :: (cells ++ text)) = m :: scan recognise 0 text := by
  rw [scan, found]
  dsimp only
  rw [Nat.add_sub_cancel, scan_skip]

/-- Cells at which no match begins are passed over. -/
theorem scan_silent {cells text : List α}
    (silent : ∀ c s, c :: s <:+ cells → recognise (c :: (s ++ text)) = none) :
    scan recognise 0 (cells ++ text) = scan recognise 0 text := by
  induction cells with
  | nil => rfl
  | cons c cells ih =>
      rw [List.cons_append, scan, silent c cells (List.suffix_refl _)]
      apply ih
      intro d s inside
      exact silent d s (inside.trans (List.suffix_cons c cells))

/-- A cell that no match contains separates the matches before it from the later ones. -/
theorem scan_separated {sep : α}
    (apart : ∀ text rest, recognise (text ++ sep :: rest) = recognise text)
    (within : ∀ text m length, recognise text = some (m, length) → length ≤ text.length)
    (rest : List α) {skip : Nat} {text : List α} (short : skip ≤ text.length) :
    scan recognise skip (text ++ sep :: rest) =
      scan recognise skip text ++ scan recognise 0 (sep :: rest) := by
  induction text generalizing skip with
  | nil =>
      obtain rfl : skip = 0 := Nat.le_zero.mp short
      rfl
  | cons c text ih =>
      cases skip with
      | succ skip =>
          rw [List.length_cons] at short
          rw [List.cons_append, scan, scan, ih (by omega)]
      | zero =>
          have same := apart (c :: text) rest
          rw [List.cons_append] at same
          rw [List.cons_append, scan, scan, same]
          cases found : recognise (c :: text) with
          | none =>
              dsimp only
              rw [ih (Nat.zero_le _)]
          | some match_ =>
              obtain ⟨m, length⟩ := match_
              have fits := within _ _ _ found
              rw [List.length_cons] at fits
              dsimp only
              rw [ih (by omega), List.cons_append]

end Stage90.Lib

import Stage90.Lib.PyText

/-!
# `str.splitlines`

The lines of a text with their ends kept.  A text that begins where a line begins splits apart
from what precedes it, and a part without a line break lies within one line.
-/

set_option autoImplicit false

namespace Stage90.Lib

namespace PyText

/-- The characters at which `splitlines` ends a line. -/
def isBreak (c : Char) : Bool :=
  [0x0A, 0x0B, 0x0C, 0x0D, 0x1C, 0x1D, 0x1E, 0x85, 0x2028, 0x2029].contains c.toNat

/-- Whether a line ends with `c` where `rest` follows: the two characters of `\r\n` are one
break. -/
def endsLine (c : Char) (rest : PyText) : Bool :=
  isBreak c && !(c == '\r' && rest.head? == some '\n')

/-- `text.splitlines(keepends=True)` -/
def splitlines : PyText → List PyText
  | [] => []
  | c :: text =>
      if endsLine c text then [c] :: splitlines text
      else
        match splitlines text with
        | [] => [[c]]
        | line :: lines => (c :: line) :: lines

/-- A line begins behind the text. -/
def AtLineStart (before rest : PyText) : Prop :=
  before = [] ∨ ∃ c, before.getLast? = some c ∧ endsLine c rest = true

theorem flatten_splitlines (text : PyText) : (splitlines text).flatten = text := by
  induction text with
  | nil => rfl
  | cons c text ih =>
      rw [splitlines]
      split_ifs
      · rw [List.flatten_cons, ih, List.singleton_append]
      · cases lines : splitlines text with
        | nil =>
            rw [lines] at ih
            rw [← ih]
            rfl
        | cons line more =>
            rw [lines] at ih
            rw [← ih]
            rfl

theorem splitlines_ne_nil (c : Char) (text : PyText) : splitlines (c :: text) ≠ [] := by
  rw [splitlines]
  split_ifs
  · exact List.cons_ne_nil _ _
  · cases splitlines text <;> exact List.cons_ne_nil _ _

theorem splitlines_append {before rest : PyText} (starts : AtLineStart before rest) :
    splitlines (before ++ rest) = splitlines before ++ splitlines rest := by
  induction before with
  | nil => rfl
  | cons c before ih =>
      rcases starts with empty | ⟨d, last, ends⟩
      · exact absurd empty (List.cons_ne_nil c before)
      cases before with
      | nil =>
          obtain rfl : c = d := Option.some.inj last
          have alone : endsLine c [] = true := by
            rw [endsLine, Bool.and_eq_true] at ends ⊢
            exact ⟨ends.1, by simp⟩
          rw [List.singleton_append, splitlines, if_pos ends, splitlines, if_pos alone]
          rfl
      | cons e before =>
          rw [List.getLast?_cons_cons] at last
          have same : endsLine c (e :: before ++ rest) = endsLine c (e :: before) := rfl
          have later := ih (.inr ⟨d, last, ends⟩)
          rw [List.cons_append, splitlines, splitlines, same, later]
          split_ifs
          · rfl
          · cases lines : splitlines (e :: before) with
            | nil => exact absurd lines (splitlines_ne_nil e before)
            | cons line more => rfl

def Broken (lines : List PyText) : Prop :=
  lines.Pairwise fun line _ => ∃ body c, line = body ++ [c] ∧ isBreak c = true

theorem splitlines_broken (text : PyText) : Broken (splitlines text) := by
  induction text with
  | nil => exact List.Pairwise.nil
  | cons c text ih =>
      rw [splitlines]
      split_ifs with ends
      · rw [endsLine, Bool.and_eq_true] at ends
        exact List.Pairwise.cons (fun _ _ => ⟨[], c, rfl, ends.1⟩) ih
      · cases lines : splitlines text with
        | nil => exact List.pairwise_singleton _ _
        | cons line more =>
            rw [lines] at ih
            obtain ⟨first, rest⟩ := List.pairwise_cons.mp ih
            refine List.Pairwise.cons (fun other member => ?_) rest
            obtain ⟨body, d, same, broken⟩ := first other member
            exact ⟨c :: body, d, by rw [same]; rfl, broken⟩

section Unbroken
variable {part : PyText} (unbroken : ∀ c ∈ part, isBreak c = false) (some_ : part ≠ [])
include unbroken some_

theorem infix_flatten {lines : List PyText} (broken : Broken lines) :
    part <:+: lines.flatten ↔ ∃ line ∈ lines, part <:+: line := by
  induction lines with
  | nil => simp [some_]
  | cons line lines ih =>
      obtain ⟨first, rest⟩ := List.pairwise_cons.mp broken
      rw [List.flatten_cons]
      simp only [List.mem_cons, exists_eq_or_imp]
      rw [← ih rest]
      cases lines with
      | nil => simp [some_]
      | cons next lines =>
          obtain ⟨body, c, rfl, ends⟩ := first next List.mem_cons_self
          have apart : c ∉ part := fun member => by
            rw [unbroken c member] at ends
            exact absurd ends (by decide)
          rw [List.append_assoc, List.singleton_append, infix_separator apart some_,
            infix_separator apart some_]
          simp [some_]

theorem count_flatten {lines : List PyText} (broken : Broken lines) :
    count part lines.flatten = (lines.map (count part)).sum := by
  induction lines with
  | nil => rfl
  | cons line lines ih =>
      obtain ⟨first, rest⟩ := List.pairwise_cons.mp broken
      rw [List.flatten_cons, List.map_cons, List.sum_cons, ← ih rest]
      cases lines with
      | nil => simp [count, countFrom]
      | cons next lines =>
          obtain ⟨body, c, rfl, ends⟩ := first next List.mem_cons_self
          have apart : c ∉ part := fun member => by
            rw [unbroken c member] at ends
            exact absurd ends (by decide)
          rw [List.append_assoc, List.singleton_append, count_separator apart some_,
            count_separator apart some_]
          rfl

end Unbroken

end PyText

end Stage90.Lib

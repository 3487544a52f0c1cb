import Mathlib.Order.Defs.LinearOrder

/-!
# Loops of rounds

A round either ends the loop, with a reason, or leaves the state of the next one.  An
invariant is shown for one round; a measure that every round lowers bounds their number.
-/

set_option autoImplicit false

namespace Stage90.Lib

section Rounds
variable {S E : Type} (round : S → E ⊕ S)

inductive Reached (s : S) : S → Prop
  | start : Reached s s
  | next {t u : S} : Reached s t → round t = .inr u → Reached s u

/-- At most `fuel` rounds; `none` is a loop that has not ended by then. -/
def rounds : Nat → S → Option (E × S)
  | 0, _ => none
  | fuel + 1, s =>
      match round s with
      | .inl ended => some (ended, s)
      | .inr t => rounds fuel t

variable {round}

theorem Reached.invariant {s t : S} (reached : Reached round s t) {Holds : S → Prop}
    (preserved : ∀ t u, Holds t → round t = .inr u → Holds u) (start : Holds s) : Holds t := by
  induction reached with
  | start => exact start
  | next _ step ih => exact preserved _ _ ih step

theorem Reached.of_next {s t u : S} (step : round s = .inr t) (reached : Reached round t u) :
    Reached round s u := by
  induction reached with
  | start => exact .next .start step
  | next _ step ih => exact .next ih step

theorem rounds_ends (lower : S → Nat) {Holds : S → Prop}
    (preserved : ∀ t u, Holds t → round t = .inr u → Holds u ∧ lower u < lower t) :
    ∀ {fuel : Nat} {s : S}, Holds s → lower s < fuel →
      ∃ ended t, rounds round fuel s = some (ended, t) ∧ Reached round s t ∧
        round t = .inl ended := by
  intro fuel
  induction fuel with
  | zero => exact fun _ enough => absurd enough (Nat.not_lt_zero _)
  | succ fuel ih =>
      intro s holds enough
      rcases step : round s with ended | t
      · exact ⟨ended, s, by simp only [rounds, step], .start, step⟩
      · obtain ⟨holds', fewer⟩ := preserved s t holds step
        obtain ⟨ended, u, run, reached, last⟩ := @ih t holds' (by omega)
        exact ⟨ended, u, by simp only [rounds, step]; exact run, reached.of_next step, last⟩

end Rounds

end Stage90.Lib

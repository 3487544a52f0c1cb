import Mathlib.Algebra.GroupWithZero.Nat
import Mathlib.Data.List.Forall2
import Mathlib.Data.Option.Basic

/-!
# Programs with fuel

A program with loops answers `none` where one of them is out of fuel.  `Converges f a` says that from
some fuel on it answers `a`; `Stalls f` that it never answers.  `runAll` runs one step after another.
-/

set_option autoImplicit false

namespace Stage90.Lib

section Fuel
variable {α β : Type}

def Converges (f : Nat → Option α) (a : α) : Prop := ∃ n, ∀ fuel, n ≤ fuel → f fuel = some a

def Stalls (f : Nat → Option α) : Prop := ∀ fuel, f fuel = none

variable {f : Nat → Option α} {g : α → Nat → Option β} {a a' : α} {b : β}

theorem Converges.pure (a : α) : Converges (fun _ => some a) a := ⟨0, fun _ _ => rfl⟩

theorem Converges.bind (first : Converges f a) (second : Converges (g a) b) :
    Converges (fun fuel => (f fuel).bind fun a => g a fuel) b := by
  obtain ⟨n, first⟩ := first
  obtain ⟨m, second⟩ := second
  refine ⟨n + m, fun fuel enough => ?_⟩
  dsimp only
  rw [first fuel (Nat.le_of_add_right_le enough), Option.bind_some,
    second fuel (Nat.le_trans (Nat.le_add_left m n) enough)]

theorem Converges.map (first : Converges f a) (h : α → β) : Converges (fun fuel => (f fuel).map h) (h a) := by
  obtain ⟨n, first⟩ := first
  refine ⟨n, fun fuel enough => ?_⟩
  dsimp only
  rw [first fuel enough, Option.map_some]

theorem Converges.succ {h : Nat → Option α} (rest : Converges f a) (turn : ∀ fuel, h (fuel + 1) = f fuel) :
    Converges h a := by
  obtain ⟨n, answers⟩ := rest
  refine ⟨n + 1, fun fuel enough => ?_⟩
  obtain ⟨m, rfl⟩ := Nat.exists_eq_add_of_le enough
  rw [Nat.add_right_comm, turn, answers _ (Nat.le_add_right n m)]

theorem Converges.last {h : Nat → Option α} (turn : ∀ fuel, h (fuel + 1) = some a) : Converges h a :=
  (Converges.pure a).succ turn

theorem Converges.unique (first : Converges f a) (second : Converges f a') : a = a' := by
  obtain ⟨n, first⟩ := first
  obtain ⟨m, second⟩ := second
  have left := first (n + m) (Nat.le_add_right n m)
  have right := second (n + m) (Nat.le_add_left m n)
  exact Option.some.inj (left.symm.trans right)

theorem Stalls.not_converges (stalls : Stalls f) : ¬ Converges f a := by
  intro ⟨n, answers⟩
  have some_ := answers n (Nat.le_refl n)
  rw [stalls n] at some_
  exact absurd some_ (Option.some_ne_none a).symm

end Fuel

section Steps
variable {S : Type}

def runAll (fuel : Nat) : List (Nat → S → Option S) → S → Option S
  | [], s => some s
  | step :: steps, s => (step fuel s).bind (runAll fuel steps)

/-- The step always converges and adds `gain` to the measure. -/
def Gains (measure : S → Nat) (step : Nat → S → Option S) (gain : Nat) : Prop :=
  ∀ s, ∃ t, Converges (fun fuel => step fuel s) t ∧ measure t = measure s + gain

theorem Gains.pure {measure : S → Nat} {h : S → S} {gain : Nat}
    (gains : ∀ s, measure (h s) = measure s + gain) : Gains measure (fun _ s => some (h s)) gain :=
  fun s => ⟨h s, Converges.pure (h s), gains s⟩

theorem Gains.bind {measure : S → Nat} {first second : Nat → S → Option S} {n m : Nat}
    (one : Gains measure first n) (two : Gains measure second m) :
    Gains measure (fun fuel s => (first fuel s).bind (second fuel)) (n + m) := by
  intro s
  obtain ⟨t, begins, gained⟩ := one s
  obtain ⟨u, rest, more⟩ := two t
  exact ⟨u, begins.bind rest, by rw [more, gained, Nat.add_assoc]⟩

theorem runAll_gains {measure : S → Nat} {steps : List (Nat → S → Option S)} {gains : List Nat}
    (each : List.Forall₂ (Gains measure) steps gains) :
    Gains measure (fun fuel s => runAll fuel steps s) gains.sum := by
  induction each with
  | nil => exact fun s => ⟨s, Converges.pure s, rfl⟩
  | cons one _ ih => exact one.bind ih

theorem runAll_stalls {step : Nat → S → Option S} (stalls : ∀ s, Stalls fun fuel => step fuel s)
    {steps : List (Nat → S → Option S)} (member : step ∈ steps) (s : S) :
    Stalls fun fuel => runAll fuel steps s := by
  intro fuel
  induction steps generalizing s with
  | nil => exact absurd member List.not_mem_nil
  | cons other steps ih =>
      dsimp only [runAll]
      rcases List.mem_cons.mp member with rfl | later
      · have none_ : step fuel s = none := stalls s fuel
        rw [none_, Option.bind_none]
      · cases other fuel s with
        | none => rfl
        | some t => exact ih later t

end Steps

end Stage90.Lib

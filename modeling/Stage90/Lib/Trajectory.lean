import Mathlib.Data.Nat.Find

/-!
# Trajectories of a partial function

`trajectory f s n` is where `n` steps of `f` lead from `s`, as long as there is a next step.  A
function that stops at some places where another goes on covers less, unless the other has
already been where it goes.
-/

set_option autoImplicit false

namespace Stage90.Lib

variable {α : Type}

def trajectory (f : α → Option α) (s : α) : Nat → Option α
  | 0 => some s
  | n + 1 => (trajectory f s n).bind f

def Visits (f : α → Option α) (s a : α) : Prop := ∃ n, trajectory f s n = some a

theorem Visits.start (f : α → Option α) (s : α) : Visits f s s := ⟨0, rfl⟩

theorem Visits.next {f : α → Option α} {s a b : α} (there : Visits f s a) (step : f a = some b) :
    Visits f s b := by
  obtain ⟨n, at_n⟩ := there
  exact ⟨n + 1, by rw [trajectory, at_n, Option.bind_some, step]⟩

theorem Visits.induction {f : α → Option α} {s : α} {Holds : α → Prop} (start : Holds s)
    (step : ∀ a b, Holds a → f a = some b → Holds b) {a : α} (there : Visits f s a) : Holds a := by
  obtain ⟨n, at_n⟩ := there
  induction n generalizing a with
  | zero => exact Option.some.inj at_n ▸ start
  | succ n ih =>
      rw [trajectory] at at_n
      obtain ⟨b, before, last⟩ := Option.bind_eq_some_iff.mp at_n
      exact step b a (ih before) last

section Cut
variable {f g : α → Option α} {stops : α → Prop}

/-- `g` is `f` without the steps from where it stops. -/
def CutAt (f g : α → Option α) (stops : α → Prop) : Prop :=
  ∀ a, (stops a → g a = none) ∧ (¬ stops a → g a = f a)

theorem CutAt.visits (cut : CutAt f g stops) {s a : α} (there : Visits g s a) : Visits f s a := by
  refine there.induction (Visits.start f s) fun a b visited step => ?_
  by_cases stop : stops a
  · exact absurd (((cut a).1 stop).symm.trans step) nofun
  · exact visited.next (((cut a).2 stop) ▸ step)

/-- As long as `f` has not gone on from a stop, `g` is where it is. -/
theorem CutAt.trajectory_eq (cut : CutAt f g stops) {s : α} {k : Nat}
    (free : ∀ n < k, ∀ a, trajectory f s n = some a → ¬ stops a) :
    ∀ n ≤ k, trajectory g s n = trajectory f s n := by
  intro n
  induction n with
  | zero => exact fun _ => rfl
  | succ n ih =>
      intro short
      rw [trajectory, trajectory, ih (by omega)]
      cases here : trajectory f s n with
      | none => rfl
      | some a => exact (cut a).2 (free n (by omega) a here)

/-- The two cover the same exactly where `f` goes on from a stop only to where it has been. -/
theorem CutAt.visits_iff (cut : CutAt f g stops) (s : α) :
    (∀ a, Visits g s a ↔ Visits f s a) ↔
      ∀ n a b, trajectory f s n = some a → stops a → f a = some b →
        ∃ m ≤ n, trajectory f s m = some b := by
  classical
  -- The first place from which `f` goes on and `g` does not.
  have first : (∃ n a, trajectory f s n = some a ∧ stops a) →
      ∃ k a, trajectory f s k = some a ∧ stops a ∧
        ∀ n < k, ∀ a, trajectory f s n = some a → ¬ stops a := by
    intro some_
    obtain ⟨a, at_k, stop⟩ := Nat.find_spec some_
    exact ⟨Nat.find some_, a, at_k, stop, fun n early a at_n stop =>
      Nat.find_min some_ early ⟨a, at_n, stop⟩⟩
  -- From there on `g` has ended.
  have ended : ∀ k a, trajectory f s k = some a → stops a →
      (∀ n < k, ∀ a, trajectory f s n = some a → ¬ stops a) →
      ∀ n b, trajectory g s n = some b → n ≤ k := by
    intro k a at_k stop free n b at_n
    by_contra late
    have dead : ∀ d, trajectory g s (k + 1 + d) = none := by
      intro d
      induction d with
      | zero =>
          rw [Nat.add_zero, trajectory, cut.trajectory_eq free k (Nat.le_refl k), at_k]
          exact (cut a).1 stop
      | succ d ih => rw [← Nat.add_assoc, trajectory, ih]; rfl
    obtain ⟨d, rfl⟩ : ∃ d, n = k + 1 + d := ⟨n - (k + 1), by omega⟩
    exact absurd ((dead d).symm.trans at_n) nofun
  constructor
  · intro same n a b at_n stop step
    obtain ⟨k, a', at_k, stop', free⟩ := first ⟨n, a, at_n, stop⟩
    have early : k ≤ n := by
      by_contra late
      exact free n (by omega) a at_n stop
    have visited : Visits f s b := Visits.next ⟨n, at_n⟩ step
    obtain ⟨m, at_m⟩ := (same b).mpr visited
    have short := ended k a' at_k stop' free m b at_m
    exact ⟨m, Nat.le_trans short early, by rw [← cut.trajectory_eq free m short]; exact at_m⟩
  · intro back a
    refine ⟨cut.visits, fun visited => ?_⟩
    by_cases some_ : ∃ n a, trajectory f s n = some a ∧ stops a
    · obtain ⟨k, c, at_k, stop, free⟩ := first some_
      have covered : ∃ m ≤ k, trajectory f s m = some a := by
        refine @Visits.induction _ f s (fun x => ∃ m ≤ k, trajectory f s m = some x)
          ⟨0, Nat.zero_le k, rfl⟩ (fun x y held step => ?_) a visited
        obtain ⟨m, short, at_m⟩ := held
        rcases Nat.lt_or_eq_of_le short with before | rfl
        · exact ⟨m + 1, before, by rw [trajectory, at_m, Option.bind_some, step]⟩
        · obtain rfl : x = c := Option.some.inj (at_m.symm.trans at_k)
          exact back m x y at_m stop step
      obtain ⟨m, short, at_m⟩ := covered
      exact ⟨m, by rw [cut.trajectory_eq free m short]; exact at_m⟩
    · obtain ⟨n, at_n⟩ := visited
      have free : ∀ m < n, ∀ a, trajectory f s m = some a → ¬ stops a :=
        fun m _ a at_m stop => some_ ⟨m, a, at_m, stop⟩
      exact ⟨n, by rw [cut.trajectory_eq free n (Nat.le_refl n)]; exact at_n⟩

end Cut

end Stage90.Lib

import Mathlib.Algebra.Ring.Divisibility.Basic
import Mathlib.Algebra.Ring.Int.Defs
import Mathlib.Data.List.Induction
import Mathlib.Tactic.Ring

/-!
# What a path does to a register, up to a modulus

An instruction keeps a register, adds a constant to it, rounds it to a multiple of `m`, sets it to a
value that is not known, or leaves the path.  A conditional one may also be skipped.  `residue` follows
the change as far as it is the same on every execution.
-/

set_option autoImplicit false

namespace Stage90.Lib

inductive Effect where
  | keeps
  | adds (n : Int)
  | rounds
  | sets
  | leaves
  deriving DecidableEq

structure Meaning where
  conditional : Bool
  effect : Effect
  deriving DecidableEq

/-- The register, and what it was behind each rounding that was executed. -/
structure Register where
  value : Int
  rounded : List Int

section Paths
variable {I : Type} (m : Int) (meaning : I → Meaning)

def Effect.does : Effect → Register → Register → Prop
  | .keeps, r, s => s = r
  | .adds n, r, s => s = { r with value := r.value + n }
  | .rounds, r, s => ∃ v, m ∣ v ∧ s = ⟨v, v :: r.rounded⟩
  | .sets, r, s => ∃ v, s = { r with value := v }
  | .leaves, _, _ => False

inductive Runs : Register → List I → Register → Prop
  | nil (r : Register) : Runs r [] r
  | skip {r s : Register} {i : I} {path : List I} :
      (meaning i).conditional = true → Runs r path s → Runs r (i :: path) s
  | does {r s t : Register} {i : I} {path : List I} :
      (meaning i).effect.does m r s → Runs s path t → Runs r (i :: path) t

/-- From `value` on the register has changed by a multiple of `m`, or has since a rounding. -/
def Aligned (value : Int) (s : Register) : Prop :=
  m ∣ s.value - value ∨ ∃ v ∈ s.rounded, m ∣ s.value - v

/-- `known n`: on every execution the change is `n` from the start or from the last rounding. -/
inductive Residue where
  | unreached
  | unknown
  | known (n : Int)

def Residue.step (a : Meaning) : Residue → Residue
  | .unreached => .unreached
  | .unknown =>
      if a.conditional then .unknown
      else
        match a.effect with
        | .rounds => .known 0
        | .leaves => .unreached
        | _ => .unknown
  | .known n =>
      match a.effect with
      | .keeps => .known n
      | .adds k => if a.conditional then (if m ∣ k then .known n else .unknown) else .known (n + k)
      | .rounds => if a.conditional then (if m ∣ n then .known n else .unknown) else .known 0
      | .sets => .unknown
      | .leaves => if a.conditional then .known n else .unreached

def residue (path : List I) : Residue := path.foldl (fun r i => r.step m (meaning i)) (.known 0)

/-- Nothing comes to the end of the path, or what does has changed by a multiple of `m`. -/
def Residue.IsAligned : Residue → Prop
  | .unreached => True
  | .unknown => False
  | .known n => m ∣ n

end Paths

section Exact
variable {I : Type} {m : Int} {meaning : I → Meaning} {path : List I} {r s t : Register}

theorem residue_append (path : List I) (i : I) :
    residue m meaning (path ++ [i]) = (residue m meaning path).step m (meaning i) := by
  rw [residue, List.foldl_append]
  rfl

theorem Runs.append {more : List I} (first : Runs m meaning r path s) (second : Runs m meaning s more t) :
    Runs m meaning r (path ++ more) t := by
  induction first with
  | nil => exact second
  | skip conditional _ ih => exact .skip conditional (ih second)
  | does effect _ ih => exact .does effect (ih second)

theorem Effect.does_rounded {e : Effect} (does : e.does m r s) (multiples : ∀ v ∈ r.rounded, m ∣ v) :
    ∀ v ∈ s.rounded, m ∣ v := by
  cases e with
  | keeps =>
      obtain rfl : s = r := does
      exact multiples
  | adds n =>
      obtain rfl : s = { r with value := r.value + n } := does
      exact multiples
  | rounds =>
      obtain ⟨v, multiple, rfl⟩ := does
      intro w member
      rcases List.mem_cons.mp member with rfl | old
      · exact multiple
      · exact multiples w old
  | sets =>
      obtain ⟨v, rfl⟩ := does
      exact multiples
  | leaves => exact does.elim

theorem Runs.rounded (runs : Runs m meaning r path s) (multiples : ∀ v ∈ r.rounded, m ∣ v) :
    ∀ v ∈ s.rounded, m ∣ v := by
  induction runs with
  | nil => exact multiples
  | skip _ _ ih => exact ih multiples
  | does effect _ ih => exact ih (Effect.does_rounded effect multiples)

/-! ## What is known holds -/

/-- The residue says no more than what holds of the register, which started at `value`. -/
def Residue.Holds (m value : Int) (s : Register) : Residue → Prop
  | .unreached => False
  | .unknown => True
  | .known n => m ∣ s.value - value - n ∨ (s.rounded ≠ [] ∧ m ∣ s.value - n)

theorem holds_skip {value : Int} {a : Meaning} (conditional : a.conditional = true) {res : Residue}
    (holds : res.Holds m value s) : (res.step m a).Holds m value s := by
  cases res with
  | unreached => exact holds
  | unknown =>
      rw [Residue.step, if_pos conditional]
      exact holds
  | known n =>
      cases effect : a.effect with
      | keeps =>
          simp only [Residue.step, effect]
          exact holds
      | adds k =>
          simp only [Residue.step, effect, conditional, if_true]
          split
          · exact holds
          · trivial
      | rounds =>
          simp only [Residue.step, effect, conditional, if_true]
          split
          · exact holds
          · trivial
      | sets =>
          simp only [Residue.step, effect]
          trivial
      | leaves =>
          simp only [Residue.step, effect, conditional, if_true]
          exact holds

theorem holds_rounding {value v : Int} (multiple : m ∣ v) (earlier : List Int) {n : Int} (zero : m ∣ n) :
    (Residue.known n).Holds m value ⟨v, v :: earlier⟩ :=
  .inr ⟨List.cons_ne_nil v earlier, dvd_sub multiple zero⟩

theorem holds_does {value : Int} {a : Meaning} (does : a.effect.does m r s) {res : Residue}
    (holds : res.Holds m value r) : (res.step m a).Holds m value s := by
  cases res with
  | unreached => exact holds.elim
  | unknown =>
      rw [Residue.step]
      by_cases conditional : a.conditional = true
      · rw [if_pos conditional]
        trivial
      · rw [if_neg conditional]
        cases effect : a.effect with
        | rounds =>
            rw [effect] at does
            obtain ⟨v, multiple, rfl⟩ := does
            exact holds_rounding multiple r.rounded (dvd_zero m)
        | leaves =>
            rw [effect] at does
            exact does.elim
        | keeps => trivial
        | adds k => trivial
        | sets => trivial
  | known n =>
      cases effect : a.effect with
      | keeps =>
          rw [effect] at does
          obtain rfl : s = r := does
          simp only [Residue.step, effect]
          exact holds
      | adds k =>
          rw [effect] at does
          obtain rfl : s = { r with value := r.value + k } := does
          have behind_ (n' : Int) (same : m ∣ n' - n - k) :
              (Residue.known n').Holds m value { r with value := r.value + k } := by
            rcases holds with start | ⟨behind, rounding⟩
            · left
              have split : r.value + k - value - n' = (r.value - value - n) - (n' - n - k) := by ring
              dsimp only
              rw [split]
              exact dvd_sub start same
            · right
              refine ⟨behind, ?_⟩
              have split : r.value + k - n' = (r.value - n) - (n' - n - k) := by ring
              dsimp only
              rw [split]
              exact dvd_sub rounding same
          simp only [Residue.step, effect]
          split
          · split
            · rename_i multiple
              apply behind_
              rw [sub_self, zero_sub]
              exact (dvd_neg).mpr multiple
            · trivial
          · apply behind_
            rw [add_sub_cancel_left, sub_self]
            exact dvd_zero m
      | rounds =>
          rw [effect] at does
          obtain ⟨v, multiple, rfl⟩ := does
          simp only [Residue.step, effect]
          split
          · split
            · rename_i zero
              exact holds_rounding multiple r.rounded zero
            · trivial
          · exact holds_rounding multiple r.rounded (dvd_zero m)
      | sets =>
          simp only [Residue.step, effect]
          trivial
      | leaves =>
          rw [effect] at does
          exact does.elim

theorem Runs.holds {value : Int} (runs : Runs m meaning r path s) : ∀ {res : Residue},
    res.Holds m value r → (path.foldl (fun res i => res.step m (meaning i)) res).Holds m value s := by
  induction runs with
  | nil => exact fun holds => holds
  | skip conditional _ ih => exact fun holds => ih (holds_skip conditional holds)
  | does effect _ ih => exact fun holds => ih (holds_does effect holds)

/-! ## What is not known differs -/

/-- Registers that a path leads to show that no more is known. -/
def Residue.Shown (m : Int) (leads : Register → Prop) : Residue → Prop
  | .unreached => True
  | .unknown => ∃ s t, leads s ∧ leads t ∧ ¬ m ∣ s.value - t.value
  | .known n => ∃ s, leads s ∧ m ∣ s.value - n

/-- One instruction more. -/
def Next (m : Int) (a : Meaning) (leads : Register → Prop) (t : Register) : Prop :=
  ∃ s, leads s ∧ ((a.conditional = true ∧ t = s) ∨ a.effect.does m s t)

theorem shown_sets (proper : ¬ m ∣ 1) {a : Meaning} (effect : a.effect = .sets) {leads : Register → Prop}
    (some_ : leads s) : (Residue.unknown).Shown m (Next m a leads) := by
  refine ⟨{ s with value := 1 }, { s with value := 0 }, ⟨s, some_, .inr ?_⟩, ⟨s, some_, .inr ?_⟩, proper⟩
  · rw [effect]
    exact ⟨1, rfl⟩
  · rw [effect]
    exact ⟨0, rfl⟩

theorem next_rounds {a : Meaning} (effect : a.effect = .rounds) {leads : Register → Prop} (some_ : leads s) :
    Next m a leads ⟨0, 0 :: s.rounded⟩ := by
  refine ⟨s, some_, .inr ?_⟩
  rw [effect]
  exact ⟨0, dvd_zero m, rfl⟩

theorem next_skip {a : Meaning} (conditional : a.conditional = true) {leads : Register → Prop}
    (some_ : leads s) : Next m a leads s := ⟨s, some_, .inl ⟨conditional, rfl⟩⟩

theorem shown_step (proper : ¬ m ∣ 1) (a : Meaning) {leads : Register → Prop} {res : Residue}
    (shown : res.Shown m leads) : (res.step m a).Shown m (Next m a leads) := by
  cases res with
  | unreached => trivial
  | unknown =>
      obtain ⟨s, t, leadsS, leadsT, differ⟩ := shown
      rw [Residue.step]
      by_cases conditional : a.conditional = true
      · rw [if_pos conditional]
        exact ⟨s, t, next_skip conditional leadsS, next_skip conditional leadsT, differ⟩
      · rw [if_neg conditional]
        cases effect : a.effect with
        | keeps =>
            have stays {s : Register} (there : leads s) : Next m a leads s :=
              ⟨s, there, .inr (by rw [effect]; exact rfl)⟩
            exact ⟨s, t, stays leadsS, stays leadsT, differ⟩
        | adds k =>
            have moves {s : Register} (there : leads s) : Next m a leads { s with value := s.value + k } :=
              ⟨s, there, .inr (by rw [effect]; exact rfl)⟩
            refine ⟨_, _, moves leadsS, moves leadsT, ?_⟩
            dsimp only
            rw [add_sub_add_right_eq_sub]
            exact differ
        | rounds => exact ⟨_, next_rounds effect leadsS, dvd_sub (dvd_zero m) (dvd_zero m)⟩
        | sets => exact shown_sets proper effect leadsS
        | leaves => trivial
  | known n =>
      obtain ⟨s, leadsS, close⟩ := shown
      cases effect : a.effect with
      | keeps =>
          simp only [Residue.step, effect]
          exact ⟨s, ⟨s, leadsS, .inr (by rw [effect]; exact rfl)⟩, close⟩
      | adds k =>
          have moves : Next m a leads { s with value := s.value + k } :=
            ⟨s, leadsS, .inr (by rw [effect]; exact rfl)⟩
          simp only [Residue.step, effect]
          split
          · rename_i conditional
            split
            · exact ⟨s, next_skip conditional leadsS, close⟩
            · rename_i other
              refine ⟨_, s, moves, next_skip conditional leadsS, ?_⟩
              dsimp only
              rw [add_sub_cancel_left]
              exact other
          · refine ⟨_, moves, ?_⟩
            dsimp only
            rw [add_sub_add_right_eq_sub]
            exact close
      | rounds =>
          simp only [Residue.step, effect]
          split
          · rename_i conditional
            split
            · exact ⟨s, next_skip conditional leadsS, close⟩
            · rename_i other
              refine ⟨s, _, next_skip conditional leadsS, next_rounds effect leadsS, ?_⟩
              intro zero
              dsimp only at zero
              rw [sub_zero] at zero
              exact other ((Int.dvd_iff_dvd_of_dvd_sub close).mp zero)
          · exact ⟨_, next_rounds effect leadsS, dvd_sub (dvd_zero m) (dvd_zero m)⟩
      | sets =>
          simp only [Residue.step, effect]
          exact shown_sets proper effect leadsS
      | leaves =>
          simp only [Residue.step, effect]
          split
          · rename_i conditional
            exact ⟨s, next_skip conditional leadsS, close⟩
          · trivial

theorem runs_shown (proper : ¬ m ∣ 1) (start : Register) (zero : m ∣ start.value) (path : List I) :
    (residue m meaning path).Shown m fun s => Runs m meaning start path s := by
  induction path using List.reverseRecOn with
  | nil => exact ⟨start, .nil start, by rwa [sub_zero]⟩
  | append_singleton path i ih =>
      have shown := shown_step proper (meaning i) ih
      have leads (t : Register) (next : Next m (meaning i) (fun s => Runs m meaning start path s) t) :
          Runs m meaning start (path ++ [i]) t := by
        obtain ⟨s, runs, last⟩ := next
        rcases last with ⟨conditional, rfl⟩ | does
        · exact runs.append (.skip conditional (.nil t))
        · exact runs.append (.does does (.nil t))
      rw [residue_append]
      cases res : (residue m meaning path).step m (meaning i) with
      | unreached => trivial
      | unknown =>
          rw [res] at shown
          obtain ⟨s, t, leadsS, leadsT, differ⟩ := shown
          exact ⟨s, t, leads s leadsS, leads t leadsT, differ⟩
      | known n =>
          rw [res] at shown
          obtain ⟨s, leadsS, close⟩ := shown
          exact ⟨s, leads s leadsS, close⟩

/-- Every execution of the path leaves the register aligned exactly if its residue is. -/
theorem aligned_iff (proper : ¬ m ∣ 1) (path : List I) :
    (∀ value s, Runs m meaning ⟨value, []⟩ path s → Aligned m value s) ↔
      (residue m meaning path).IsAligned m := by
  have multiples {value : Int} {s : Register} (runs : Runs m meaning ⟨value, []⟩ path s) :
      ∀ v ∈ s.rounded, m ∣ v :=
    runs.rounded fun v member => absurd member List.not_mem_nil
  constructor
  · intro always
    have divides {s : Register} (runs : Runs m meaning ⟨0, []⟩ path s) : m ∣ s.value := by
      rcases always 0 s runs with start | ⟨v, member, rounding⟩
      · rwa [sub_zero] at start
      · exact (dvd_sub_left (multiples runs v member)).mp rounding
    have shown := @runs_shown _ _ meaning proper ⟨0, []⟩ (dvd_zero m) path
    cases res : residue m meaning path with
    | unreached => trivial
    | unknown =>
        rw [res] at shown
        obtain ⟨s, t, runsS, runsT, differ⟩ := shown
        exact differ (dvd_sub (divides runsS) (divides runsT))
    | known n =>
        rw [res] at shown
        obtain ⟨s, runs, close⟩ := shown
        exact (dvd_sub_right (divides runs)).mp close
  · intro aligned value s runs
    have start : (Residue.known 0).Holds m value ⟨value, []⟩ := by
      left
      rw [sub_self, sub_zero]
      exact dvd_zero m
    have holds : (residue m meaning path).Holds m value s := runs.holds start
    cases res : residue m meaning path with
    | unreached =>
        rw [res] at holds
        exact holds.elim
    | unknown =>
        rw [res] at aligned
        exact aligned.elim
    | known n =>
        rw [res] at holds aligned
        rcases holds with close | ⟨behind, close⟩
        · exact .inl ((dvd_sub_left aligned).mp close)
        · obtain ⟨v, member⟩ := List.exists_mem_of_ne_nil _ behind
          exact .inr ⟨v, member, dvd_sub ((dvd_sub_left aligned).mp close) (multiples runs v member)⟩

end Exact

end Stage90.Lib

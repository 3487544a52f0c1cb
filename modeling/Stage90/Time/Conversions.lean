import Mathlib.Algebra.GroupWithZero.Nat
import Mathlib.Data.Nat.Basic
import Mathlib.Order.Basic

/-!
# Ticks and microseconds

The two conversions of `timebase.c`, at 19.2 ticks a microsecond, and the waits that compare with
them: `delay_us`, and the wait of `gic_sgi_selftest` for an interrupt.
-/

set_option autoImplicit false

namespace Stage90.Time

/-! ## The code -/

/-- The low 32 bits of the difference. -/
def delta (start stop : UInt64) : UInt32 := (stop - start).toUInt32

def timebaseElapsedUs (start stop : UInt64) : UInt32 :=
  let q := delta start stop / 96
  let r := delta start stop % 96
  q * 5 + r * 5 / 96

def timebaseUsecToTicks (usec : UInt32) : UInt32 :=
  let q := usec / 5
  let r := usec % 5
  q * 96 + r * 96 / 5

/-- A loop that reads the counter and goes on while a test of the reading holds.  The readings that
it takes, `none` where it is still going on behind `fuel` of them. -/
def wait (goesOn : Nat → UInt64 → Bool) (ticks : Nat → UInt64) : Nat → Nat → Option Nat
  | 0, _ => none
  | fuel + 1, i => if goesOn i (ticks i) then wait goesOn ticks fuel (i + 1) else some (i + 1)

/-- The loop of `delay_us`. -/
def delayUs (usec : UInt32) (start : UInt64) (ticks : Nat → UInt64) (fuel : Nat) : Option Nat :=
  wait (fun _ now => delta start now < timebaseUsecToTicks usec) ticks fuel 0

/-- `while (flag == 0 && timebase_elapsed_us(start, timebase_ticks()) < deadline)`, where `raised i`
is what the interrupt has left in the flag before the reading. -/
def boundedWait (deadline : UInt32) (start : UInt64) (raised : Nat → Bool) (ticks : Nat → UInt64)
    (fuel : Nat) : Option Nat :=
  wait (fun i now => !raised i && timebaseElapsedUs start now < deadline) ticks fuel 0

/-! ## Exactness -/

theorem toNat_delta {start stop : UInt64} (order : start ≤ stop)
    (short : stop.toNat - start.toNat < 2 ^ 32) :
    (delta start stop).toNat = stop.toNat - start.toNat := by
  rw [delta, UInt64.toNat_toUInt32, UInt64.toNat_sub_of_le _ _ order]
  exact Nat.mod_eq_of_lt short

/-- No step of the conversion to microseconds overflows, whatever the difference. -/
theorem elapsed_steps (d : UInt32) :
    (d / 96 * 5).toNat = d.toNat / 96 * 5 ∧ (d % 96 * 5).toNat = d.toNat % 96 * 5 ∧
      (d / 96 * 5 + d % 96 * 5 / 96).toNat = d.toNat / 96 * 5 + d.toNat % 96 * 5 / 96 := by
  have bound := d.toNat_lt
  have quotient : (d / 96 * 5).toNat = d.toNat / 96 * 5 := by
    rw [UInt32.toNat_mul, UInt32.toNat_div]
    exact Nat.mod_eq_of_lt (by simp only [UInt32.reduceToNat]; omega)
  have rest : (d % 96 * 5).toNat = d.toNat % 96 * 5 := by
    rw [UInt32.toNat_mul, UInt32.toNat_mod]
    exact Nat.mod_eq_of_lt (by simp only [UInt32.reduceToNat]; omega)
  refine ⟨quotient, rest, ?_⟩
  rw [UInt32.toNat_add, UInt32.toNat_div, quotient, rest]
  exact Nat.mod_eq_of_lt (by simp only [UInt32.reduceToNat]; omega)

theorem elapsed_exact {start stop : UInt64} (order : start ≤ stop)
    (short : stop.toNat - start.toNat < 2 ^ 32) :
    (timebaseElapsedUs start stop).toNat = (stop.toNat - start.toNat) * 5 / 96 := by
  refine (elapsed_steps (delta start stop)).2.2.trans ?_
  rw [toNat_delta order short]
  omega

theorem elapsed_mono {start stop stop' : UInt64} (order : start ≤ stop) (later : stop ≤ stop')
    (short : stop'.toNat - start.toNat < 2 ^ 32) :
    timebaseElapsedUs start stop ≤ timebaseElapsedUs start stop' := by
  have longer : stop.toNat ≤ stop'.toNat := UInt64.le_iff_toNat_le.mp later
  rw [UInt32.le_iff_toNat_le, elapsed_exact order (by omega),
    elapsed_exact (UInt64.le_trans order later) short]
  omega

theorem ticks_exact {usec : UInt32} (bound : usec.toNat ≤ 223696213) :
    (timebaseUsecToTicks usec).toNat = usec.toNat * 96 / 5 := by
  have quotient : (usec / 5 * 96).toNat = usec.toNat / 5 * 96 := by
    rw [UInt32.toNat_mul, UInt32.toNat_div]
    exact Nat.mod_eq_of_lt (by simp only [UInt32.reduceToNat]; omega)
  have rest : (usec % 5 * 96).toNat = usec.toNat % 5 * 96 := by
    rw [UInt32.toNat_mul, UInt32.toNat_mod]
    exact Nat.mod_eq_of_lt (by simp only [UInt32.reduceToNat]; omega)
  have joined : usec.toNat / 5 * 96 + usec.toNat % 5 * 96 / 5 = usec.toNat * 96 / 5 := by omega
  rw [timebaseUsecToTicks, UInt32.toNat_add, UInt32.toNat_div, quotient, rest]
  refine (Nat.mod_eq_of_lt ?_).trans joined
  simp only [UInt32.reduceToNat]
  omega

/-- An interval that is measured as long as asked for was as long in ticks. -/
theorem ticks_le_of_elapsed {usec : UInt32} (bound : usec.toNat ≤ 223696213)
    {start stop : UInt64} (order : start ≤ stop) (short : stop.toNat - start.toNat < 2 ^ 32)
    (long : usec ≤ timebaseElapsedUs start stop) :
    (timebaseUsecToTicks usec).toNat ≤ stop.toNat - start.toNat := by
  have long := UInt32.le_iff_toNat_le.mp long
  rw [elapsed_exact order short] at long
  rw [ticks_exact bound]
  omega

/-- The longest difference that is measured is 223696213 microseconds. -/
theorem not_elapsed_lt {deadline : UInt32} (bound : deadline.toNat ≤ 223696213)
    {start stop : UInt64} (order : start ≤ stop) (reached : 2 ^ 32 - 1 ≤ stop.toNat - start.toNat)
    (short : stop.toNat - start.toNat < 2 ^ 32) :
    ¬ timebaseElapsedUs start stop < deadline := by
  rw [UInt32.lt_iff_toNat_lt, elapsed_exact order short]
  omega

/-! ## Waits -/

theorem wait_ends {goesOn : Nat → UInt64 → Bool} {ticks : Nat → UInt64} {j : Nat}
    (stops : goesOn j (ticks j) = false) (fuel : Nat) : ∀ {i}, i ≤ j → j < i + fuel →
      ∃ n, n ≤ j + 1 ∧ wait goesOn ticks fuel i = some n := by
  induction fuel with
  | zero => exact fun before behind => absurd before (by omega)
  | succ fuel ih =>
      intro i before behind
      rw [wait]
      by_cases here : goesOn i (ticks i) = true
      · have apart : i ≠ j := by
          rintro rfl
          rw [stops] at here
          cases here
        rw [if_pos here]
        exact ih (by omega) (by omega)
      · rw [if_neg here]
        exact ⟨i + 1, by omega, rfl⟩

theorem delay_ends {usec : UInt32} (bound : usec.toNat ≤ 223696213) {start : UInt64}
    {ticks : Nat → UInt64} {i : Nat} (order : start ≤ ticks i)
    (long : usec.toNat * 96 / 5 ≤ (ticks i).toNat - start.toNat)
    (short : (ticks i).toNat - start.toNat < 2 ^ 32) :
    ∃ n, n ≤ i + 1 ∧ delayUs usec start ticks (i + 1) = some n := by
  have past : ¬ delta start (ticks i) < timebaseUsecToTicks usec := by
    rw [UInt32.lt_iff_toNat_lt, toNat_delta order short, ticks_exact bound]
    omega
  exact wait_ends (by simp [past]) (i + 1) (Nat.zero_le i) (by omega)

/-- The conversions are exact over the whole range, and every deadline in it can be reached. -/
theorem conversions_exact :
    (∀ start stop : UInt64, start ≤ stop → stop.toNat - start.toNat < 2 ^ 32 →
      (timebaseElapsedUs start stop).toNat = (stop.toNat - start.toNat) * 5 / 96 ∧
        (delta start stop / 96 * 5).toNat = (delta start stop).toNat / 96 * 5 ∧
        (delta start stop % 96 * 5).toNat = (delta start stop).toNat % 96 * 5 ∧
        (timebaseElapsedUs start stop).toNat =
          (delta start stop / 96 * 5).toNat + (delta start stop % 96 * 5 / 96).toNat) ∧
    (∀ start stop stop' : UInt64, start ≤ stop → stop ≤ stop' →
      stop'.toNat - start.toNat < 2 ^ 32 →
        timebaseElapsedUs start stop ≤ timebaseElapsedUs start stop') ∧
    (∀ usec : UInt32, usec.toNat ≤ 223696213 →
      (timebaseUsecToTicks usec).toNat = usec.toNat * 96 / 5 ∧
        ∀ start stop : UInt64, start ≤ stop → stop.toNat - start.toNat < 2 ^ 32 →
          usec ≤ timebaseElapsedUs start stop →
            (timebaseUsecToTicks usec).toNat ≤ stop.toNat - start.toNat) ∧
    ∀ deadline : UInt32, deadline.toNat ≤ 223696213 → ∃ d < 2 ^ 32,
      ∀ (start : UInt64) (raised : Nat → Bool) (ticks : Nat → UInt64) (i : Nat),
        start ≤ ticks i → (ticks i).toNat - start.toNat = d →
          ∃ n, n ≤ i + 1 ∧ boundedWait deadline start raised ticks (i + 1) = some n := by
  refine ⟨fun start stop order short => ?_, fun _ _ _ => elapsed_mono, fun usec bound => ?_,
    fun deadline bound => ⟨2 ^ 32 - 1, by omega, ?_⟩⟩
  · obtain ⟨quotient, rest, sum⟩ := elapsed_steps (delta start stop)
    refine ⟨elapsed_exact order short, quotient, rest, sum.trans ?_⟩
    rw [UInt32.toNat_div, quotient, rest]
    rfl
  · exact ⟨ticks_exact bound, fun _ _ => ticks_le_of_elapsed bound⟩
  · intro start raised ticks i order reached
    have past := not_elapsed_lt bound order (by omega) (by omega)
    exact wait_ends (by simp [past]) (i + 1) (Nat.zero_le i) (by omega)

end Stage90.Time

import Stage90.Irq.Registry

/-!
# The storm cap over whole runs

`g_irq_cli_calls` belongs to a slot and neither call of the registry writes it.  It counts the
calls of the current registration as long as no registration takes a slot with a count.
-/

set_option autoImplicit false

namespace Stage90.Irq

open Stage90.Lib

/-! ## The calls of a registration -/

def noteCall (count : UInt32 → Nat) : Op × Answer → UInt32 → Nat
  | (.register r, .returned true) => Function.update count r.intid 0
  | (.arrival iar, .handled [.eoi _, .client _ _ _]) =>
      Function.update count (acknowledged iar) (count (acknowledged iar) + 1)
  | _ => count

/-- The calls to the client of each line since its registration. -/
def calledSince (history : List (Op × Answer)) : UInt32 → Nat := history.foldl noteCall fun _ => 0

theorem calledSince_snoc (history : List (Op × Answer)) (last : Op × Answer) :
    calledSince (history ++ [last]) = noteCall (calledSince history) last := by
  simp [calledSince]

/-- The cap is compared with the calls of the current registration. -/
structure OwnBudget (history : List (Op × Answer)) (s : State) : Prop where
  counted : s.halted = false → ∀ i, s.table.Live i →
    (s.calls i).toNat = calledSince history (s.table.intid i)
  storm : ∀ iar r, registered history (acknowledged iar) = some r →
    (step s (.arrival iar)).1 = .handled [.eoi iar, .epilogue] →
      irqClientCap.toNat < calledSince history (acknowledged iar) + 1

def TakesFresh (s : State) : Op → Prop
  | .register r => s.halted = false → ∀ slot, registerSlot s.table r = some slot → s.calls slot = 0
  | _ => True

/-! ## One call -/

/-- What the counters of a running machine say, and that they stay at the cap. -/
structure Counting (count : UInt32 → Nat) (s : State) : Prop where
  counted : s.halted = false → ∀ i, s.table.Live i → (s.calls i).toNat = count (s.table.intid i)
  capped : s.halted = false → ∀ i, s.calls i ≤ irqClientCap

section Steps
variable {registry : Registry} {count : UInt32 → Nat} {s : State}

theorem counting_boot : Counting (fun _ => 0) boot where
  counted := fun _ _ live => absurd rfl live
  capped := fun _ _ => UInt32.zero_le

theorem counting_register {r : Registration} {slot : Slot} (counting : Counting count s)
    (accepted : Accepted s.table r slot) (fresh : s.halted = false → s.calls slot = 0) :
    Counting (Function.update count r.intid 0)
      { s with table := applyAll (registerStores slot r) s.table } := by
  refine ⟨?_, counting.capped⟩
  intro running i live
  by_cases here : i = slot
  · subst here
    have line : (applyAll (registerStores i r) s.table).intid i = r.intid :=
      congrArg Registration.intid (entry_registered_same s.table i r)
    rw [line, Function.update_self, fresh running]
    rfl
  · have same := entry_registered_other s.table slot r here
    have line : (applyAll (registerStores slot r) s.table).intid i = s.table.intid i :=
      congrArg Registration.intid same
    have old : s.table.Live i := by
      rw [live_iff_entry, ← same]
      exact live
    rw [line, Function.update_of_ne (accepted.unused i old)]
    exact counting.counted running i old

theorem counting_unregister {slot : Slot} (counting : Counting count s) :
    Counting count { s with table := applyAll (unregisterStores slot) s.table } := by
  refine ⟨?_, counting.capped⟩
  intro running i live
  have other : i ≠ slot := by
    intro equal
    subst equal
    exact live_unregistered_same s.table i live
  have same := entry_unregistered_other s.table slot other
  have line : (applyAll (unregisterStores slot) s.table).intid i = s.table.intid i :=
    congrArg Registration.intid same
  have old : s.table.Live i := by
    rw [live_iff_entry, ← same]
    exact live
  rw [line]
  exact counting.counted running i old

/-- An arrival that the client gets. -/
theorem counting_client (coherent : Coherent registry s.table) (counting : Counting count s)
    {n : UInt32} {slot : Slot} (found : clientSlot s.table n = some slot) (running : s.halted = false)
    (calm : ¬ irqClientCap < s.calls slot + 1) :
    Counting (Function.update count n (count n + 1))
      { s with calls := Function.update s.calls slot (s.calls slot + 1) } := by
  obtain ⟨live, line⟩ := clientSlot_some found
  constructor
  · intro _ i others
    dsimp only
    by_cases here : i = slot
    · subst here
      have below : (s.calls i).toNat ≤ 64 := UInt32.le_iff_toNat_le.mp (counting.capped running i)
      have one : (1 : UInt32).toNat = 1 := rfl
      rw [line, Function.update_self, Function.update_self, UInt32.toNat_add, one, ← line,
        ← counting.counted running i live]
      omega
    · have apart : s.table.intid i ≠ n := by
        intro same
        exact here (coherent.unique i slot others live (same.trans line.symm))
      rw [Function.update_of_ne here, Function.update_of_ne apart]
      exact counting.counted running i others
  · intro _ i
    dsimp only
    by_cases here : i = slot
    · subst here
      rw [Function.update_self]
      exact UInt32.not_lt.mp calm
    · rw [Function.update_of_ne here]
      exact counting.capped running i

theorem counting_halted (stopped : s.halted = true) : Counting count s where
  counted := fun running => absurd (stopped.symm.trans running) Bool.noConfusion
  capped := fun running => absurd (stopped.symm.trans running) Bool.noConfusion

theorem counting_arrival (coherent : Coherent registry s.table) (counting : Counting count s)
    (running : s.halted = false) (iar : UInt32) :
    Counting (noteCall count (.arrival iar, .handled (entryIrqHandler s iar).1))
      (entryIrqHandler s iar).2 := by
  simp only [entryIrqHandler]
  by_cases timer : acknowledged iar = gicTimerIntid
  · rw [if_pos timer]
    exact counting
  rw [if_neg timer]
  cases found : clientSlot s.table (acknowledged iar) with
  | some slot =>
      dsimp only
      rw [Function.update_self]
      by_cases storm : irqClientCap < s.calls slot + 1
      · rw [if_pos storm]
        exact counting_halted rfl
      · rw [if_neg storm]
        exact counting_client coherent counting found running storm
  | none =>
      dsimp only
      by_cases spurious : acknowledged iar = giccSpuriousId
      · rw [if_pos spurious]
        exact counting
      · rw [if_neg spurious]
        exact counting_halted rfl

theorem counting_step (coherent : Coherent registry s.table) (counting : Counting count s) (op : Op)
    (fresh : TakesFresh s op) : Counting (noteCall count (op, (step s op).1)) (step s op).2 := by
  by_cases stopped : s.halted = true
  · have still : step s op = (.halted, s) := if_pos stopped
    rw [still]
    exact counting_halted stopped
  · have running : s.halted = false := Bool.eq_false_iff.mpr stopped
    simp only [step, if_neg stopped]
    cases op with
    | register r =>
        simp only [call, entryIrqRegisterClient]
        cases found : registerSlot s.table r with
        | none => exact counting
        | some slot =>
            exact counting_register counting (registerSlot_some found) fun run => fresh run slot found
    | unregister n =>
        simp only [call, entryIrqUnregisterClient]
        cases found : clientSlot s.table n with
        | none => exact counting
        | some slot => exact counting_unregister counting
    | arrival iar => exact counting_arrival coherent counting running iar

end Steps

/-! ## Runs -/

def AllFresh (ops : List Op) : Prop :=
  ∀ before op after, before ++ op :: after = ops → TakesFresh (execute step boot before).2 op

theorem counting_run (ops : List Op) (fresh : AllFresh ops) :
    Counting (calledSince (execute step boot ops).1) (execute step boot ops).2 := by
  induction ops using List.reverseRecOn with
  | nil => exact counting_boot
  | append_singleton ops op ih =>
      have earlier : AllFresh ops := by
        intro before op' after split
        apply fresh before op' (after ++ [op])
        rw [← List.cons_append, ← List.append_assoc, split]
      rw [execute_snoc, calledSince_snoc]
      exact counting_step (coherent_run ops) (ih earlier) op (fresh ops op [] rfl)

/-- A stop at a line with a client is the guard's. -/
theorem storm_stops {registry : Registry} {s : State} (coherent : Coherent registry s.table)
    {iar : UInt32} {r : Registration} (held : registry (acknowledged iar) = some r)
    (stops : (step s (.arrival iar)).1 = .handled [.eoi iar, .epilogue]) :
    s.halted = false ∧ ∃ i, s.table.Live i ∧ s.table.intid i = acknowledged iar ∧
      irqClientCap < s.calls i + 1 := by
  have running : s.halted = false := by
    by_contra stopped
    rw [step, if_pos (Bool.eq_true_of_not_eq_false stopped)] at stops
    exact Answer.noConfusion stops
  refine ⟨running, ?_⟩
  have running' : ¬ s.halted = true := Bool.eq_false_iff.mp running
  simp only [step, if_neg running', entryIrqHandler, Answer.handled.injEq] at stops
  obtain ⟨j, live, line, _⟩ := coherent.found _ r held
  have timer : acknowledged iar ≠ gicTimerIntid := line ▸ (coherent.reserved j).1
  rw [if_neg timer] at stops
  cases found : clientSlot s.table (acknowledged iar) with
  | none => exact absurd line (clientSlot_none found j live)
  | some i =>
      obtain ⟨live', line'⟩ := clientSlot_some found
      refine ⟨i, live', line', ?_⟩
      rw [found] at stops
      dsimp only at stops
      rw [Function.update_self] at stops
      by_contra calm
      rw [if_neg calm] at stops
      simp at stops

theorem ownBudget_of_counting {ops : List Op}
    (counting : Counting (calledSince (execute step boot ops).1) (execute step boot ops).2) :
    OwnBudget (execute step boot ops).1 (execute step boot ops).2 := by
  refine ⟨counting.counted, ?_⟩
  intro iar r held stops
  obtain ⟨running, i, live, line, storm⟩ := storm_stops (coherent_run ops) held stops
  have below := UInt32.le_iff_toNat_le.mp (counting.capped running i)
  have passed := UInt32.lt_iff_toNat_lt.mp storm
  have one : (1 : UInt32).toNat = 1 := rfl
  have cap : irqClientCap.toNat = 64 := rfl
  rw [UInt32.toNat_add, one] at passed
  rw [← line, ← counting.counted running i live]
  omega

/-- A registration that takes a counted slot shows at once. -/
theorem takesFresh_of_owned {ops : List Op} {op : Op}
    (owned : OwnBudget (execute step boot (ops ++ [op])).1 (execute step boot (ops ++ [op])).2) :
    TakesFresh (execute step boot ops).2 op := by
  cases op with
  | register r =>
      intro running slot found
      have counted := owned.counted
      rw [execute_snoc, calledSince_snoc] at counted
      have running' : ¬ (execute step boot ops).2.halted = true := Bool.eq_false_iff.mp running
      simp only [step, if_neg running', call, entryIrqRegisterClient, found, noteCall] at counted
      have same := entry_registered_same (execute step boot ops).2.table slot r
      have live : (applyAll (registerStores slot r) (execute step boot ops).2.table).Live slot := by
        rw [live_iff_entry, same]
        exact (registerSlot_some found).handler
      have line : (applyAll (registerStores slot r) (execute step boot ops).2.table).intid slot =
          r.intid := congrArg Registration.intid same
      have none_ := counted running slot live
      rw [line, Function.update_self] at none_
      exact UInt32.toNat_inj.mp none_
  | unregister n => trivial
  | arrival iar => trivial

/-- The budgets of a run are those of the current registrations exactly when no registration
takes over a count. -/
theorem storm_budget_iff (ops : List Op) :
    (∀ before after, before ++ after = ops →
        OwnBudget (execute step boot before).1 (execute step boot before).2) ↔ AllFresh ops := by
  constructor
  · intro owned before op after split
    apply takesFresh_of_owned
    apply owned (before ++ [op]) after
    rw [List.append_assoc, ← split]
    rfl
  · intro fresh before after split
    apply ownBudget_of_counting
    apply counting_run before
    intro first op rest earlier
    apply fresh first op (rest ++ after)
    rw [← split, ← earlier, List.append_assoc]
    rfl

/-! ## A slot used twice -/

def reused : List Op :=
  [.register ⟨40, 0x1000, 0⟩] ++ List.replicate 64 (.arrival 40) ++
    [.unregister 40, .register ⟨41, 0x2000, 0⟩]

set_option maxRecDepth 4096 in
/-- The second client is stopped at its first arrival. -/
theorem reused_slot_storms :
    registered (execute step boot reused).1 (acknowledged 41) = some ⟨41, 0x2000, 0⟩ ∧
      (step (execute step boot reused).2 (.arrival 41)).1 = .handled [.eoi 41, .epilogue] ∧
      calledSince (execute step boot reused).1 (acknowledged 41) = 0 ∧
      ¬ OwnBudget (execute step boot reused).1 (execute step boot reused).2 := by
  have held : registered (execute step boot reused).1 (acknowledged 41) =
      some ⟨41, 0x2000, 0⟩ := rfl
  have stops : (step (execute step boot reused).2 (.arrival 41)).1 =
      .handled [.eoi 41, .epilogue] := rfl
  have uncalled : calledSince (execute step boot reused).1 (acknowledged 41) = 0 := by
    decide +kernel
  refine ⟨held, stops, uncalled, ?_⟩
  intro owned
  have many := owned.storm 41 _ held stops
  rw [uncalled] at many
  exact absurd many (by decide)

end Stage90.Irq

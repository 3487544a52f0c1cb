import Stage90.Irq.Clients

/-!
# The registry over whole runs

Calls and arrivals one after another.  What the drivers have asked for so far, read off the
history of answered calls, is a map from lines to registrations, and the table holds that map.
-/

set_option autoImplicit false

namespace Stage90.Irq

open Stage90.Lib

inductive Op where
  | register (r : Registration)
  | unregister (intid : UInt32)
  | arrival (iar : UInt32)

/-- `halted` is what a machine answers that has run `entry_epilogue`. -/
inductive Answer where
  | returned (ok : Bool)
  | handled (effects : List Effect)
  | halted

def call (s : State) (result : Bool × Table) : Answer × State :=
  (.returned result.1, { s with table := result.2 })

def step (s : State) (op : Op) : Answer × State :=
  if s.halted then (.halted, s)
  else
    match op with
    | .register r => call s (entryIrqRegisterClient s.table r)
    | .unregister intid => call s (entryIrqUnregisterClient s.table intid)
    | .arrival iar => ((entryIrqHandler s iar).1 |> Answer.handled, (entryIrqHandler s iar).2)

/-! ## The registry that the answers describe -/

abbrev Registry := UInt32 → Option Registration

def note (registry : Registry) : Op × Answer → Registry
  | (.register r, .returned true) => Function.update registry r.intid (some r)
  | (.unregister intid, .returned true) => Function.update registry intid none
  | _ => registry

def registered (history : List (Op × Answer)) : Registry := history.foldl note fun _ => none

theorem registered_snoc (history : List (Op × Answer)) (last : Op × Answer) :
    registered (history ++ [last]) = note (registered history) last := by
  simp [registered]

/-- The table holds the registry, one slot for a line, and no line of the machine's own. -/
structure Coherent (registry : Registry) (t : Table) : Prop where
  live : ∀ i, t.Live i → registry (t.intid i) = some (t.entry i)
  found : ∀ n r, registry n = some r → ∃ i, t.Live i ∧ t.intid i = n ∧ t.entry i = r
  unique : ∀ i j, t.Live i → t.Live j → t.intid i = t.intid j → i = j
  reserved : ∀ i, t.intid i ≠ gicTimerIntid ∧ t.intid i ≠ giccSpuriousId

section Steps
variable {registry : Registry} {t : Table}

theorem coherent_boot : Coherent (fun _ => none) boot.table := by
  have dead : ∀ i, ¬ boot.table.Live i := fun _ live => live rfl
  refine ⟨?_, nofun, ?_, ?_⟩
  · intro i live
    exact absurd live (dead i)
  · intro i _ live
    exact absurd live (dead i)
  · intro i
    decide +revert

theorem coherent_register {r : Registration} {slot : Slot} (coherent : Coherent registry t)
    (accepted : Accepted t r slot) :
    Coherent (Function.update registry r.intid (some r)) (applyAll (registerStores slot r) t) := by
  let t' := applyAll (registerStores slot r) t
  have same : t'.entry slot = r := entry_registered_same t slot r
  have other : ∀ i, i ≠ slot → t'.entry i = t.entry i := fun i => entry_registered_other t slot r
  have sameIntid : t'.intid slot = r.intid := congrArg Registration.intid same
  have otherIntid : ∀ i, i ≠ slot → t'.intid i = t.intid i := fun i apart =>
    congrArg Registration.intid (other i apart)
  have otherLive : ∀ i, i ≠ slot → t'.Live i → t.Live i := by
    intro i apart live
    rw [live_iff_entry, other i apart] at live
    exact live
  refine ⟨?_, ?_, ?_, ?_⟩
  · intro i live
    by_cases here : i = slot
    · subst here
      rw [sameIntid, Function.update_self, same]
    · have old := otherLive i here live
      rw [otherIntid i here, Function.update_of_ne (accepted.unused i old), other i here]
      exact coherent.live i old
  · intro n r' held
    by_cases line : n = r.intid
    · subst line
      rw [Function.update_self] at held
      cases held
      refine ⟨slot, ?_, sameIntid, same⟩
      rw [live_iff_entry, same]
      exact accepted.handler
    · rw [Function.update_of_ne line] at held
      obtain ⟨i, live, intid, entry⟩ := coherent.found n r' held
      have apart : i ≠ slot := by
        intro equal
        subst equal
        exact accepted.free live
      refine ⟨i, ?_, ?_, ?_⟩
      · rw [live_iff_entry, other i apart]
        exact live
      · rw [otherIntid i apart]
        exact intid
      · rw [other i apart]
        exact entry
  · intro i j first second equal
    by_cases i_new : i = slot
    · by_cases j_new : j = slot
      · exact i_new.trans j_new.symm
      · subst i_new
        rw [sameIntid, otherIntid j j_new] at equal
        exact absurd equal.symm (accepted.unused j (otherLive j j_new second))
    · by_cases j_new : j = slot
      · subst j_new
        rw [sameIntid, otherIntid i i_new] at equal
        exact absurd equal (accepted.unused i (otherLive i i_new first))
      · rw [otherIntid i i_new, otherIntid j j_new] at equal
        exact coherent.unique i j (otherLive i i_new first) (otherLive j j_new second) equal
  · intro i
    by_cases here : i = slot
    · subst here
      rw [sameIntid]
      exact ⟨accepted.timer, accepted.spurious⟩
    · rw [otherIntid i here]
      exact coherent.reserved i

theorem coherent_unregister {n : UInt32} {slot : Slot} (coherent : Coherent registry t)
    (found : clientSlot t n = some slot) :
    Coherent (Function.update registry n none) (applyAll (unregisterStores slot) t) := by
  let t' := applyAll (unregisterStores slot) t
  obtain ⟨live, line⟩ := clientSlot_some found
  have dead : ¬ t'.Live slot := live_unregistered_same t slot
  have other : ∀ i, i ≠ slot → t'.entry i = t.entry i := fun i => entry_unregistered_other t slot
  have otherIntid : ∀ i, i ≠ slot → t'.intid i = t.intid i := fun i apart =>
    congrArg Registration.intid (other i apart)
  have otherLive : ∀ i, t'.Live i → i ≠ slot ∧ t.Live i := by
    intro i live
    have apart : i ≠ slot := by
      intro equal
      subst equal
      exact dead live
    rw [live_iff_entry, other i apart] at live
    exact ⟨apart, live⟩
  refine ⟨?_, ?_, ?_, ?_⟩
  · intro i live'
    obtain ⟨apart, old⟩ := otherLive i live'
    have different : t.intid i ≠ n := by
      intro equal
      exact apart (coherent.unique i slot old live (equal.trans line.symm))
    rw [otherIntid i apart, Function.update_of_ne different, other i apart]
    exact coherent.live i old
  · intro m r held
    by_cases equal : m = n
    · subst equal
      rw [Function.update_self] at held
      cases held
    · rw [Function.update_of_ne equal] at held
      obtain ⟨i, old, intid, entry⟩ := coherent.found m r held
      have apart : i ≠ slot := by
        intro same
        subst same
        exact equal (intid.symm.trans line)
      refine ⟨i, ?_, ?_, ?_⟩
      · rw [live_iff_entry, other i apart]
        exact old
      · rw [otherIntid i apart]
        exact intid
      · rw [other i apart]
        exact entry
  · intro i j first second equal
    obtain ⟨i_old, i_live⟩ := otherLive i first
    obtain ⟨j_old, j_live⟩ := otherLive j second
    rw [otherIntid i i_old, otherIntid j j_old] at equal
    exact coherent.unique i j i_live j_live equal
  · intro i
    by_cases here : i = slot
    · subst here
      rw [show t'.intid i = 0 from intid_unregistered_same t i]
      decide
    · rw [otherIntid i here]
      exact coherent.reserved i

theorem coherent_step {s : State} (coherent : Coherent registry s.table) (op : Op) :
    Coherent (note registry (op, (step s op).1)) (step s op).2.table := by
  by_cases halted : s.halted = true
  · have still : step s op = (.halted, s) := by simp [step, halted]
    rw [still]
    cases op <;> exact coherent
  · simp only [step, if_neg halted]
    cases op with
    | register r =>
        simp only [call, entryIrqRegisterClient]
        cases found : registerSlot s.table r with
        | none => exact coherent
        | some slot => exact coherent_register coherent (registerSlot_some found)
    | unregister n =>
        simp only [call, entryIrqUnregisterClient]
        cases found : clientSlot s.table n with
        | none => exact coherent
        | some slot => exact coherent_unregister coherent found
    | arrival iar =>
        dsimp only
        rw [handler_table]
        exact coherent

theorem coherent_run (ops : List Op) :
    Coherent (registered (execute step boot ops).1) (execute step boot ops).2.table := by
  apply execute_induction fun history (s : State) => Coherent (registered history) s.table
  · exact coherent_boot
  · intro history s op coherent
    rw [registered_snoc]
    exact coherent_step coherent op

end Steps

/-! ## Arrivals -/

/-- What an arrival may do when the drivers hold `registry`. -/
structure Arrival (registry : Registry) (s : State) (iar : UInt32) (effects : List Effect) : Prop where
  client : ∀ r, registry (acknowledged iar) = some r →
    effects = [.eoi iar, .client r.handler r.refCon (acknowledged iar)] ∨
      effects = [.eoi iar, .epilogue] ∧ ∃ i, s.table.entry i = r ∧ irqClientCap < s.calls i + 1
  timer : acknowledged iar = gicTimerIntid → effects = [.eoi iar, .rtclock]
  stranger : registry (acknowledged iar) = none → ∀ handler refCon intid,
    .client handler refCon intid ∉ effects
  spurious : acknowledged iar = giccSpuriousId → effects = []

theorem arrival_coherent {registry : Registry} {s : State} (coherent : Coherent registry s.table)
    (iar : UInt32) : Arrival registry s iar (entryIrqHandler s iar).1 := by
  simp only [entryIrqHandler]
  by_cases timer : acknowledged iar = gicTimerIntid
  · rw [if_pos timer]
    refine ⟨?_, fun _ => rfl, ?_, ?_⟩
    · intro r held
      obtain ⟨i, live, line, _⟩ := coherent.found _ r held
      exact absurd (line.trans timer) (coherent.reserved i).1
    · intro _ handler refCon intid member
      simp at member
    · intro spurious
      exact absurd (timer.symm.trans spurious) (by decide)
  rw [if_neg timer]
  cases found : clientSlot s.table (acknowledged iar) with
  | some i =>
      obtain ⟨live, line⟩ := clientSlot_some found
      have held : registry (acknowledged iar) = some (s.table.entry i) := line ▸ coherent.live i live
      have own : ∀ r, registry (acknowledged iar) = some r → s.table.entry i = r := by
        intro r asked
        exact Option.some.inj (held.symm.trans asked)
      have spurious : acknowledged iar ≠ giccSpuriousId := line ▸ (coherent.reserved i).2
      dsimp only
      rw [Function.update_self]
      split
      · rename_i storm
        refine ⟨?_, fun equal => absurd equal timer, ?_, fun equal => absurd equal spurious⟩
        · intro r asked
          exact Or.inr ⟨rfl, i, own r asked, storm⟩
        · intro none
          rw [held] at none
          cases none
      · refine ⟨?_, fun equal => absurd equal timer, ?_, fun equal => absurd equal spurious⟩
        · intro r asked
          left
          rw [← own r asked]
          rfl
        · intro none
          rw [held] at none
          cases none
  | none =>
      have unheld : ∀ r, registry (acknowledged iar) ≠ some r := by
        intro r held
        obtain ⟨i, live, line, _⟩ := coherent.found _ r held
        exact clientSlot_none found i live line
      dsimp only
      split
      · refine ⟨fun r held => absurd held (unheld r), fun equal => absurd equal timer, ?_,
          fun _ => rfl⟩
        intro _ handler refCon intid member
        simp at member
      · rename_i other
        refine ⟨fun r held => absurd held (unheld r), fun equal => absurd equal timer, ?_,
          fun equal => absurd equal other⟩
        intro _ handler refCon intid member
        simp at member

/-! ## Refusals -/

theorem register_refused {t : Table} {r : Registration}
    (refused : (entryIrqRegisterClient t r).1 = false) : (entryIrqRegisterClient t r).2 = t := by
  simp only [entryIrqRegisterClient] at refused ⊢
  cases found : registerSlot t r with
  | none => rfl
  | some slot =>
      rw [found] at refused
      cases refused

theorem unregister_refused {t : Table} {n : UInt32}
    (refused : (entryIrqUnregisterClient t n).1 = false) :
    (entryIrqUnregisterClient t n).2 = t := by
  simp only [entryIrqUnregisterClient] at refused ⊢
  cases found : clientSlot t n with
  | none => rfl
  | some slot =>
      rw [found] at refused
      cases refused

/-- After any run: one live slot a line, no line of the machine's own in the table, refusals without effect,
and arrivals that reach their own client. -/
theorem registry_safe (ops : List Op) :
    let run := execute step boot ops
    let t := run.2.table
    (∀ i j, t.Live i → t.Live j → t.intid i = t.intid j → i = j) ∧
      (∀ i, t.intid i ≠ gicTimerIntid ∧ t.intid i ≠ giccSpuriousId) ∧
      (∀ r, (entryIrqRegisterClient t r).1 = false → (entryIrqRegisterClient t r).2 = t) ∧
      (∀ n, (entryIrqUnregisterClient t n).1 = false → (entryIrqUnregisterClient t n).2 = t) ∧
      ∀ iar, Arrival (registered run.1) run.2 iar (entryIrqHandler run.2 iar).1 := by
  intro run t
  have coherent : Coherent (registered run.1) t := coherent_run ops
  refine ⟨coherent.unique, coherent.reserved, ?_, ?_, arrival_coherent coherent⟩
  · intro r refused
    exact register_refused refused
  · intro n refused
    exact unregister_refused refused

end Stage90.Irq

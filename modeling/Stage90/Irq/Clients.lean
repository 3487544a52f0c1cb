import Mathlib.Data.Fintype.Basic
import Mathlib.Logic.Function.Basic
import Stage90.Lib.Execute

/-!
# Interrupt clients

The client table of `entry_irq.c`, the two calls that change it and the second-level handler
that scans it.  A call is its list of single-word stores, in the order of the source.  What the
handler does to the world is the list of its effects; `entry_epilogue` does not return.
-/

set_option autoImplicit false

namespace Stage90.Irq

def gicTimerIntid : UInt32 := 20
def giccSpuriousId : UInt32 := 0x3ff
def giccIarIntidMask : UInt32 := 0x3ff
def irqClientCap : UInt32 := 64

/-- An index below `STAGE90_IRQ_CLIENTS`. -/
abbrev Slot := Fin 4

structure Table where
  intid : Slot → UInt32
  refcon : Slot → UInt32
  handler : Slot → UInt32

inductive Store where
  | intid (slot : Slot) (value : UInt32)
  | refcon (slot : Slot) (value : UInt32)
  | handler (slot : Slot) (value : UInt32)

def Store.apply : Store → Table → Table
  | .intid slot value, t => { t with intid := Function.update t.intid slot value }
  | .refcon slot value, t => { t with refcon := Function.update t.refcon slot value }
  | .handler slot value, t => { t with handler := Function.update t.handler slot value }

def applyAll (stores : List Store) (t : Table) : Table := stores.foldl (fun t store => store.apply t) t

/-- What a call of `entry_irq_register_client` asks for. -/
structure Registration where
  intid : UInt32
  handler : UInt32
  refCon : UInt32
  deriving DecidableEq

/-- The loop of `entry_irq_register_client`: the first free slot, or none if the line has a
client or the table is full. -/
def freeSlot (t : Table) (intid : UInt32) : List Slot → Option Slot → Option Slot
  | [], slot => slot
  | i :: rest, slot =>
      if t.handler i = 0 then freeSlot t intid rest (slot.or (some i))
      else if t.intid i = intid then none
      else freeSlot t intid rest slot

def registerSlot (t : Table) (r : Registration) : Option Slot :=
  if r.handler = 0 ∨ r.intid = gicTimerIntid ∨ r.intid = giccSpuriousId then none
  else freeSlot t r.intid (List.finRange 4) none

def registerStores (slot : Slot) (r : Registration) : List Store :=
  [.intid slot r.intid, .refcon slot r.refCon, .handler slot r.handler]

def entryIrqRegisterClient (t : Table) (r : Registration) : Bool × Table :=
  match registerSlot t r with
  | some slot => (true, applyAll (registerStores slot r) t)
  | none => (false, t)

def clientSlot (t : Table) (intid : UInt32) : Option Slot :=
  (List.finRange 4).find? fun i => t.handler i ≠ 0 ∧ t.intid i = intid

def unregisterStores (slot : Slot) : List Store :=
  [.handler slot 0, .intid slot 0, .refcon slot 0]

def entryIrqUnregisterClient (t : Table) (intid : UInt32) : Bool × Table :=
  match clientSlot t intid with
  | some slot => (true, applyAll (unregisterStores slot) t)
  | none => (false, t)

inductive Effect where
  | eoi (iar : UInt32)
  | rtclock
  | client (handler refCon intid : UInt32)
  | epilogue
  deriving DecidableEq

structure State where
  table : Table
  calls : Slot → UInt32
  halted : Bool

def acknowledged (iar : UInt32) : UInt32 := iar &&& giccIarIntidMask

def entryIrqHandler (s : State) (iar : UInt32) : List Effect × State :=
  let intid := acknowledged iar
  if intid = gicTimerIntid then ([.eoi iar, .rtclock], s)
  else
    match clientSlot s.table intid with
    | some i =>
        let calls := Function.update s.calls i (s.calls i + 1)
        if irqClientCap < calls i then
          ([.eoi iar, .epilogue], { s with calls := calls, halted := true })
        else
          ([.eoi iar, .client (s.table.handler i) (s.table.refcon i) intid],
            { s with calls := calls })
    | none =>
        if intid = giccSpuriousId then ([], s)
        else ([.eoi iar, .epilogue], { s with halted := true })

def boot : State where
  table := ⟨fun _ => 0, fun _ => 0, fun _ => 0⟩
  calls := fun _ => 0
  halted := false

/-! ## Slots -/

def Table.Live (t : Table) (i : Slot) : Prop := t.handler i ≠ 0

def Table.entry (t : Table) (i : Slot) : Registration := ⟨t.intid i, t.handler i, t.refcon i⟩

section Slots
variable {t : Table} {intid : UInt32}

theorem clientSlot_some {i : Slot} (found : clientSlot t intid = some i) :
    t.Live i ∧ t.intid i = intid := by
  have passes := List.find?_some found
  simpa [Table.Live] using passes

theorem clientSlot_none (missing : clientSlot t intid = none) (i : Slot) (live : t.Live i) :
    t.intid i ≠ intid := by
  have fails := List.find?_eq_none.mp missing i (List.mem_finRange i)
  intro same
  exact fails (decide_eq_true ⟨live, same⟩)

theorem freeSlot_some {slots : List Slot} {free : Option Slot} {slot : Slot}
    (found : freeSlot t intid slots free = some slot) (free_empty : ∀ i, free = some i → ¬ t.Live i) :
    ¬ t.Live slot ∧ ∀ i ∈ slots, t.Live i → t.intid i ≠ intid := by
  induction slots generalizing free with
  | nil => exact ⟨free_empty slot found, fun i member => by simp at member⟩
  | cons i rest ih =>
      rw [freeSlot] at found
      by_cases empty : t.handler i = 0
      · rw [if_pos empty] at found
        have still : ∀ j, free.or (some i) = some j → ¬ t.Live j := by
          intro j chosen
          cases free with
          | none =>
              cases chosen
              exact not_not_intro empty
          | some k => exact free_empty j chosen
        obtain ⟨dead, others⟩ := ih found still
        refine ⟨dead, ?_⟩
        intro j member live
        rcases List.mem_cons.mp member with here | later
        · subst here
          exact absurd empty live
        · exact others j later live
      · rw [if_neg empty] at found
        by_cases same : t.intid i = intid
        · rw [if_pos same] at found
          cases found
        · rw [if_neg same] at found
          obtain ⟨dead, others⟩ := ih found free_empty
          refine ⟨dead, ?_⟩
          intro j member live
          rcases List.mem_cons.mp member with here | later
          · subst here
            exact same
          · exact others j later live

/-- An accepted registration: a free slot, a handler, and a line of its own. -/
structure Accepted (t : Table) (r : Registration) (slot : Slot) : Prop where
  free : ¬ t.Live slot
  handler : r.handler ≠ 0
  timer : r.intid ≠ gicTimerIntid
  spurious : r.intid ≠ giccSpuriousId
  unused : ∀ i, t.Live i → t.intid i ≠ r.intid

theorem registerSlot_some {r : Registration} {slot : Slot} (found : registerSlot t r = some slot) :
    Accepted t r slot := by
  rw [registerSlot] at found
  split at found
  · cases found
  · rename_i admitted
    obtain ⟨free, unused⟩ := freeSlot_some found nofun
    refine ⟨free, ?_, ?_, ?_, fun i => unused i (List.mem_finRange i)⟩
    · exact fun zero => admitted (Or.inl zero)
    · exact fun same => admitted (Or.inr (Or.inl same))
    · exact fun same => admitted (Or.inr (Or.inr same))

end Slots

/-! ## The stores of a whole call -/

section Stores
variable (t : Table) (slot : Slot) (r : Registration)

@[simp] theorem entry_registered_same :
    (applyAll (registerStores slot r) t).entry slot = r := by
  simp [applyAll, registerStores, Store.apply, Table.entry]

theorem entry_registered_other {i : Slot} (other : i ≠ slot) :
    (applyAll (registerStores slot r) t).entry i = t.entry i := by
  simp [applyAll, registerStores, Store.apply, Table.entry, other]

theorem live_unregistered_same : ¬ (applyAll (unregisterStores slot) t).Live slot := by
  simp [applyAll, unregisterStores, Store.apply, Table.Live]

theorem intid_unregistered_same : (applyAll (unregisterStores slot) t).intid slot = 0 := by
  simp [applyAll, unregisterStores, Store.apply]

theorem entry_unregistered_other {i : Slot} (other : i ≠ slot) :
    (applyAll (unregisterStores slot) t).entry i = t.entry i := by
  simp [applyAll, unregisterStores, Store.apply, Table.entry, other]

theorem live_iff_entry (i : Slot) : t.Live i ↔ (t.entry i).handler ≠ 0 := Iff.rfl

end Stores

theorem handler_table (s : State) (iar : UInt32) : (entryIrqHandler s iar).2.table = s.table := by
  simp only [entryIrqHandler]
  repeat' split
  all_goals rfl

end Stage90.Irq

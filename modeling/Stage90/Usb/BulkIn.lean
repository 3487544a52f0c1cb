import Stage90.Usb.ControlTransfer

/-!
# The magic word

Without the stream, EP1-IN sends the head of `g_usb_in_buf`, which the control endpoint builds its
answers in.  A prime has put the word there, and the core reads the buffer when the host asks.
-/

set_option autoImplicit false

namespace Stage90.Usb

open Stage90.Console

/-! ## EP1-IN at the core -/

/-- The transfer of EP1-IN: none, one that the host has not taken yet, one that it has. -/
inductive In1 where
  | idle
  | primed
  | done
  deriving DecidableEq

def In1.act (in1 : In1) : Action → In1
  | .write .endptFlush bits =>
      if bits &&& epBit 1 true ≠ 0 ∧ in1 = .primed then .idle else in1
  | .write .endptComplete bits =>
      if bits &&& epBit 1 true ≠ 0 ∧ in1 = .done then .idle else in1
  | .prime .in1 _ => .primed
  | _ => in1

def In1.acts (in1 : In1) (actions : List Action) : In1 := actions.foldl In1.act in1

def Action.in1Payload : Action → Option (List UInt8)
  | .prime .in1 payload => some payload
  | _ => none

def in1Payloads (actions : List Action) : List (List UInt8) := actions.filterMap Action.in1Payload

structure Bulk where
  enum : Enum
  in1 : In1

inductive BulkEvent where
  | poll (r : Reading)
  /-- The host reads the transfer. -/
  | accept

def Bulk.step (b : Build) (s : Bulk) : BulkEvent → Bulk
  | .poll r =>
      let poll := entryUsbEnumPoll b s.enum r
      ⟨poll.1, s.in1.acts poll.2.1⟩
  | .accept => if s.in1 = .primed then { s with in1 := .done } else s

def Bulk.run (b : Build) (s : Bulk) (events : List BulkEvent) : Bulk :=
  events.foldl (Bulk.step b) s

def Bulk.boot : Bulk := ⟨.boot, .idle⟩

/-! ## What is promised -/

def Bulk.Sends (s : Bulk) : Prop := s.in1 = .primed → s.enum.inBuf.take 4 = inMagic

def Bulk.Offers (b : Build) (s : Bulk) : BulkEvent → Prop
  | .poll r => ∀ payload ∈ in1Payloads (entryUsbEnumPoll b s.enum r).2.1, payload = inMagic
  | .accept => True

/-- EP1-IN when the poll comes to the packet or to the completions. -/
def Bulk.met (b : Build) (s : Bulk) (r : Reading) : In1 := s.in1.acts (metActions b s.enum r)

/-- `ENDPTCOMPLETE` shows a completion of EP1-IN only behind a transfer that the host took. -/
def Bulk.Shows (b : Build) (s : Bulk) : BulkEvent → Prop
  | .poll r => b.open_ r = true → r.ui = true → ¬ r.hasSetup = true →
      r.complete 2 &&& epBit 1 true ≠ 0 → s.met b r = .done
  | .accept => True

/-- A request whose answer is built in `g_usb_in_buf`. -/
def Fills (setup : Fin 8 → UInt8) : Prop :=
  Standard setup ∧
    (GetsDescriptor setup ∧ (∃ desc, namedDescriptor setup = some (desc, true)) ∨
      GetsStatus setup)

/-- No such request is taken while EP1-IN has a transfer. -/
def Bulk.Spared (b : Build) (s : Bulk) : BulkEvent → Prop
  | .poll r => TakesSetup b r → Fills r.setup → s.met b r = .idle
  | .accept => True

def Along (P : Bulk → BulkEvent → Prop) (b : Build) : Bulk → List BulkEvent → Prop
  | _, [] => True
  | s, event :: events => P s event ∧ Along P b (s.step b event) events

/-! ## Parts of a poll -/

/-- A transfer, outstanding or taken, finds the word in the buffer. -/
def Held (in1 : In1) (e : Enum) : Prop := in1 ≠ .idle → e.inBuf.take 4 = inMagic

structure Keeps (in1 : In1) (out : Enum × List Action) : Prop where
  held : Held (in1.acts out.2) out.1
  payloads : ∀ payload ∈ in1Payloads out.2, payload = inMagic

def Action.bulk : Action → Bool
  | .write .endptFlush bits => bits &&& epBit 1 true ≠ 0
  | .write .endptComplete bits => bits &&& epBit 1 true ≠ 0
  | .prime .in1 _ => true
  | _ => false

section Parts
variable {in1 : In1} {e e' e'' : Enum} {one two : List Action}

theorem acts_append : in1.acts (one ++ two) = (in1.acts one).acts two := List.foldl_append

theorem Keeps.append (first : Keeps in1 (e', one)) (second : Keeps (in1.acts one) (e'', two)) :
    Keeps in1 (e'', one ++ two) := by
  constructor
  · rw [acts_append]
    exact second.held
  · intro payload member
    rw [in1Payloads, List.filterMap_append] at member
    rcases List.mem_append.mp member with early | late
    · exact first.payloads payload early
    · exact second.payloads payload late

theorem act_other {a : Action} (other : a.bulk = false) :
    in1.act a = in1 ∧ a.in1Payload = none := by
  cases a with
  | write reg bits =>
      cases reg with
      | endptFlush =>
          have clear : ¬ bits &&& epBit 1 true ≠ 0 := of_decide_eq_false other
          exact ⟨if_neg fun hits => clear hits.1, rfl⟩
      | endptComplete =>
          have clear : ¬ bits &&& epBit 1 true ≠ 0 := of_decide_eq_false other
          exact ⟨if_neg fun hits => clear hits.1, rfl⟩
      | _ => exact ⟨rfl, rfl⟩
  | nuke qh => exact ⟨rfl, rfl⟩
  | prime qh payload =>
      cases qh with
      | in1 => exact absurd other.symm Bool.false_ne_true
      | _ => exact ⟨rfl, rfl⟩

theorem acts_other {actions : List Action} (other : actions.all fun a => !a.bulk) :
    in1.acts actions = in1 ∧ in1Payloads actions = [] := by
  induction actions with
  | nil => exact ⟨rfl, rfl⟩
  | cons a actions ih =>
      rw [List.all_cons, Bool.and_eq_true, Bool.not_eq_true'] at other
      obtain ⟨same, none_⟩ := @act_other in1 a other.1
      obtain ⟨rest, empty⟩ := ih other.2
      constructor
      · rw [In1.acts, List.foldl_cons, same]
        exact rest
      · rw [in1Payloads, List.filterMap_cons_none none_]
        exact empty

theorem keeps_other (held : Held in1 e) (other : one.all fun a => !a.bulk)
    (buffer : in1 ≠ .idle → e'.inBuf = e.inBuf) : Keeps in1 (e', one) := by
  obtain ⟨same, none_⟩ := @acts_other in1 one other
  constructor
  · intro transfer
    dsimp only at transfer ⊢
    rw [same] at transfer
    rw [buffer transfer]
    exact held transfer
  · intro payload member
    dsimp only at member
    rw [none_] at member
    exact absurd member List.not_mem_nil

theorem keeps_idle (idle : in1.acts one = .idle) (none_ : in1Payloads one = []) :
    Keeps in1 (e', one) := by
  constructor
  · intro transfer
    exact absurd idle transfer
  · intro payload member
    dsimp only at member
    rw [none_] at member
    exact absurd member List.not_mem_nil

theorem arm_keeps (b : Build) (r : Reading) (held : Held in1 e) :
    Keeps in1 ((usbEnumArm b e r).1, (usbEnumArm b e r).2.1) := by
  rw [usbEnumArm]
  split
  · exact keeps_other held rfl fun _ => rfl
  · apply keeps_idle
    · cases in1 with
      | idle => rfl
      | primed => rfl
      | done => rfl
    · rfl

theorem reset_keeps (r : Reading) (held : Held in1 e) :
    Keeps in1 (if r.uri then usbEnumBusReset e else (e, [])) := by
  split
  · apply keeps_idle
    · cases in1 with
      | idle => rfl
      | primed => rfl
      | done => rfl
    · rfl
  · exact keeps_other held rfl fun _ => rfl

theorem clear_keeps (r : Reading) (held : Held in1 e) : Keeps in1 (e, [.write .usbSts r.intr]) :=
  keeps_other held rfl fun _ => rfl

theorem status_keeps (before : Keeps in1 (e', one)) : Keeps in1 (usbEnumStatus e' one) :=
  before.append (keeps_other before.held rfl fun _ => rfl)

theorem armEpIn_offers (b : Build) (off : b.stream = false) (e : Enum) :
    Keeps in1 (usbEnumArmEpIn b e) := by
  rw [usbEnumArmEpIn, off, if_neg Bool.false_ne_true]
  constructor
  · exact fun _ => rfl
  · intro payload member
    exact List.mem_singleton.mp member

theorem configure_keeps (b : Build) (off : b.stream = false) (held : Held in1 e) :
    Keeps in1 (if e.configured ≠ 0 then usbEnumArmEpIn b e else (e, [])) := by
  split
  · exact armEpIn_offers b off e
  · exact keeps_other held rfl fun _ => rfl

def completeIn0 (e : Enum) (complete : Fin 3 → UInt32) : Enum × List Action :=
  if complete 0 &&& epBit 0 true ≠ 0 then
    if e.state = .data then
      ({ e with state := .status }, [.write .endptComplete (epBit 0 true), .prime .out0 []])
    else ({ e with state := .armed }, [.write .endptComplete (epBit 0 true)])
  else (e, [])

def completeOut0 (e : Enum) (complete : Fin 3 → UInt32) : Enum × List Action :=
  if complete 1 &&& epBit 0 false ≠ 0 then
    ({ e with state := .armed }, [.write .endptComplete (epBit 0 false)])
  else (e, [])

def completeIn1 (b : Build) (e : Enum) (complete : Fin 3 → UInt32) : Enum × List Action :=
  if !b.stream ∧ complete 2 &&& epBit 1 true ≠ 0 then
    ({ e with inReads := e.inReads + 1 },
      [.write .endptComplete (epBit 1 true), .prime .in1 (e.inBuf.take 4)])
  else (e, [])

theorem complete_parts (b : Build) (e : Enum) (complete : Fin 3 → UInt32) :
    usbEnumComplete b e complete =
      ((completeIn1 b (completeOut0 (completeIn0 e complete).1 complete).1 complete).1,
        (completeIn0 e complete).2 ++ (completeOut0 (completeIn0 e complete).1 complete).2 ++
          (completeIn1 b (completeOut0 (completeIn0 e complete).1 complete).1 complete).2) := rfl

theorem completeIn0_other (e : Enum) (complete : Fin 3 → UInt32) :
    ((completeIn0 e complete).2.all fun a => !a.bulk) ∧
      (completeIn0 e complete).1.inBuf = e.inBuf := by
  rw [completeIn0]
  split
  · split
    · exact ⟨rfl, rfl⟩
    · exact ⟨rfl, rfl⟩
  · exact ⟨rfl, rfl⟩

theorem completeOut0_other (e : Enum) (complete : Fin 3 → UInt32) :
    ((completeOut0 e complete).2.all fun a => !a.bulk) ∧
      (completeOut0 e complete).1.inBuf = e.inBuf := by
  rw [completeOut0]
  split
  · exact ⟨rfl, rfl⟩
  · exact ⟨rfl, rfl⟩

/-- A completion of EP1-IN offers the buffer again, word and all. -/
theorem completeIn1_keeps (b : Build) (held : Held in1 e) (complete : Fin 3 → UInt32)
    (shown : complete 2 &&& epBit 1 true ≠ 0 → in1 = .done) :
    Keeps in1 (completeIn1 b e complete) := by
  rw [completeIn1]
  split
  · rename_i completes
    have word : e.inBuf.take 4 = inMagic := by
      apply held
      rw [shown completes.2]
      exact In1.noConfusion
    constructor
    · exact fun _ => word
    · intro payload member
      rw [← word]
      exact List.mem_singleton.mp member
  · exact keeps_other held rfl fun _ => rfl

theorem completion_offers (b : Build) (held : Held in1 e) (complete : Fin 3 → UInt32)
    (shown : complete 2 &&& epBit 1 true ≠ 0 → in1 = .done) :
    Keeps in1 (usbEnumComplete b e complete) := by
  obtain ⟨other, same⟩ := completeIn0_other e complete
  have first := keeps_other held other fun _ => same
  obtain ⟨other', same'⟩ := completeOut0_other (completeIn0 e complete).1 complete
  have second := keeps_other first.held other' fun _ => same'
  have untouched : (in1.acts (completeIn0 e complete).2).acts
      (completeOut0 (completeIn0 e complete).1 complete).2 = in1 :=
    (acts_other other').1.trans (acts_other other).1
  have last := second.held
  dsimp only at last
  rw [untouched] at last
  rw [complete_parts]
  apply (first.append second).append
  rw [acts_append, untouched]
  exact completeIn1_keeps b last complete shown

theorem setup_keeps (b : Build) (off : b.stream = false) (held : Held in1 e)
    (setup : Fin 8 → UInt8) (spared : Fills setup → in1 = .idle) :
    Keeps in1 (usbEnumSetup b e setup) := by
  have read : ([.write .endptSetupStat 1, .nuke .out0, .nuke .in0] : List Action).all
      fun a => !a.bulk := rfl
  let configured : Enum := { e with
    requests := e.requests + 1, configured := if wValue setup ≠ 0 then 1 else 0, state := .setup }
  rw [usbEnumSetup]
  dsimp only
  split
  · rename_i standard
    split
    · rename_i gets
      rw [usbEnumGetDescriptor]
      cases named : namedDescriptor setup with
      | none =>
          rw [if_neg (not_not_intro rfl)]
          exact status_keeps (keeps_other held read fun _ => rfl)
      | some pair =>
          obtain ⟨desc, built⟩ := pair
          have buffer (transfer : in1 ≠ .idle) : ¬ built = true := by
            intro fills
            rw [fills] at named
            exact transfer (spared ⟨standard, .inl ⟨gets, desc, named⟩⟩)
          dsimp only
          by_cases some_ : (if (wLength setup).toNat < desc.length then (wLength setup).toNat
            else desc.length) ≠ 0
          · rw [if_pos some_]
            apply keeps_other held rfl
            intro transfer
            rw [if_neg (buffer transfer)]
          · rw [if_neg some_]
            apply status_keeps
            apply keeps_other held rfl
            intro transfer
            rw [if_neg (buffer transfer)]
    · split
      · exact status_keeps (keeps_other held rfl fun _ => rfl)
      · split
        · rename_i status
          apply keeps_other held rfl
          intro transfer
          exact absurd (spared ⟨standard, .inr status⟩) transfer
        · split
          · apply status_keeps
            have before : Keeps in1 (configured, [.write .endptSetupStat 1, .nuke .out0, .nuke .in0]) :=
              keeps_other held read fun _ => rfl
            have arm := before.append (configure_keeps b off before.held)
            exact ⟨arm.held, arm.payloads⟩
          · exact status_keeps (keeps_other held read fun _ => rfl)
  · exact status_keeps (keeps_other held read fun _ => rfl)

theorem ui_keeps (b : Build) (off : b.stream = false) (held : Held in1 e) (r : Reading)
    (shown : r.ui = true → ¬ r.hasSetup = true → r.complete 2 &&& epBit 1 true ≠ 0 → in1 = .done)
    (spared : r.ui = true → r.hasSetup = true → Fills r.setup → in1 = .idle) :
    Keeps in1 (if r.ui then usbEnumUi b e r else (e, [])) := by
  split
  · rename_i ui
    rw [usbEnumUi]
    split
    · rename_i setup
      exact setup_keeps b off held r.setup (spared ui setup)
    · rename_i none_
      exact completion_offers b held r.complete (shown ui none_)
  · exact keeps_other held rfl fun _ => rfl

end Parts

/-! ## Runs -/

section Run
variable {b : Build} (off : b.stream = false) {s : Bulk}
include off

theorem poll_keeps (held : Held s.in1 s.enum) (r : Reading) (shown : s.Shows b (.poll r))
    (spared : s.Spared b (.poll r)) :
    Keeps s.in1 ((entryUsbEnumPoll b s.enum r).1, (entryUsbEnumPoll b s.enum r).2.1) := by
  rw [entryUsbEnumPoll]
  by_cases is_open : b.open_ r = true
  · rw [if_pos is_open]
    have arm := arm_keeps b r held
    have reset := reset_keeps r arm.held
    have met : (s.in1.acts (usbEnumArm b s.enum r).2.1).acts
        (if r.uri then usbEnumBusReset (usbEnumArm b s.enum r).1
          else ((usbEnumArm b s.enum r).1, [])).2 = s.met b r := acts_append.symm
    have ui := ui_keeps b off reset.held r
      (fun ui none_ completes => met.trans (shown is_open ui none_ completes))
      fun ui setup fills => met.trans (spared ⟨is_open, ui, setup⟩ fills)
    exact arm.append ((reset.append ui).append (clear_keeps r (reset.append ui).held))
  · rw [if_neg is_open]
    exact keeps_other held rfl fun _ => rfl

theorem step_held (held : Held s.in1 s.enum) (event : BulkEvent) (shown : s.Shows b event)
    (spared : s.Spared b event) :
    Held (s.step b event).in1 (s.step b event).enum ∧ s.Offers b event := by
  cases event with
  | poll r =>
      have keeps := poll_keeps off held r shown spared
      exact ⟨keeps.held, keeps.payloads⟩
  | accept =>
      refine ⟨?_, trivial⟩
      rw [Bulk.step]
      split
      · rename_i primed
        intro _
        apply held
        rw [primed]
        exact In1.noConfusion
      · exact held

theorem run_held (before : List BulkEvent) {after : List BulkEvent} (held : Held s.in1 s.enum)
    (shown : Along (Bulk.Shows b) b s (before ++ after))
    (spared : Along (Bulk.Spared b) b s (before ++ after)) :
    Held (s.run b before).in1 (s.run b before).enum ∧
      Along (Bulk.Shows b) b (s.run b before) after ∧
        Along (Bulk.Spared b) b (s.run b before) after := by
  induction before generalizing s with
  | nil => exact ⟨held, shown, spared⟩
  | cons event before ih =>
      exact ih (step_held off held event shown.1 spared.1).1 shown.2 spared.2

end Run

/-- In a run from boot in which no answer is built over a transfer, EP1-IN offers the word, and the
buffer keeps it until the host has it. -/
theorem bulk_sends_magic (b : Build) (off : b.stream = false) (events : List BulkEvent)
    (shown : Along (Bulk.Shows b) b .boot events)
    (spared : Along (Bulk.Spared b) b .boot events) :
    (Bulk.boot.run b events).Sends ∧
      ∀ before event after, events = before ++ event :: after →
        (Bulk.boot.run b before).Sends ∧ (Bulk.boot.run b before).Offers b event := by
  have rest : Held Bulk.boot.in1 Bulk.boot.enum := fun transfer => absurd rfl transfer
  have sends {s : Bulk} (held : Held s.in1 s.enum) : s.Sends := by
    intro primed
    apply held
    rw [primed]
    exact In1.noConfusion
  constructor
  · rw [← List.append_nil events] at shown spared
    exact sends (run_held off events rest shown spared).1
  · intro before event after split
    rw [split] at shown spared
    obtain ⟨held, shown', spared'⟩ := run_held off before rest shown spared
    exact ⟨sends held, (step_held off held event shown'.1 spared'.1).2⟩

/-- A device-mode poll that shows a completion of EP1-IN. -/
def bulkCompletion : Reading := ⟨2, 0, 1, 1, 0, fun _ => 0, fun _ => epBit 1 true⟩

/-- A configuration, a transfer that the host takes, and its completion. -/
theorem configured_sends_magic :
    let events : List BulkEvent :=
      [.poll (packet ![0, 9, 1, 0, 0, 0, 0, 0]), .accept, .poll bulkCompletion]
    (Bulk.boot.run ⟨false, false, 0⟩ events).Sends ∧
      ∀ before event after, events = before ++ event :: after →
        (Bulk.boot.run ⟨false, false, 0⟩ before).Sends ∧
          (Bulk.boot.run ⟨false, false, 0⟩ before).Offers ⟨false, false, 0⟩ event := by
  intro events
  apply bulk_sends_magic ⟨false, false, 0⟩ rfl events
  · refine ⟨?_, trivial, ?_, trivial⟩
    · intro _ _ none_
      exact absurd rfl none_
    · intro _ _ _ _
      decide
  · refine ⟨?_, trivial, ?_, trivial⟩
    · intro _ _
      decide
    · intro takes
      exact absurd takes.2.2 Bool.false_ne_true

/-- A status request while EP1-IN waits for the host: half of the word is gone, and the next prime
offers what is left. -/
theorem status_overwrites_magic :
    let configure := packet ![0, 9, 1, 0, 0, 0, 0, 0]
    let status := packet ![0x80, 0, 0, 0, 0, 0, 2, 0]
    let s := Bulk.boot.run ⟨false, false, 0⟩ [.poll configure, .poll status]
    s.in1 = .primed ∧ s.enum.inBuf.take 4 = [0, 0, 0x0b, 0x91] ∧
      in1Payloads (entryUsbEnumPoll ⟨false, false, 0⟩ s.enum bulkCompletion).2.1 =
        [[0, 0, 0x0b, 0x91]] := by
  decide

end Stage90.Usb

import Stage90.Usb.Delivery

/-!
# EP1-IN between the stream and the enumeration

The stream waits for a completion while its static says that a chunk is with the core.  A
flush of the enumeration cancels the chunk and clears the completion, and a configuration
unlinks it; neither touches the static.  A run in which they meet no chunk never wedges.
-/

set_option autoImplicit false

namespace Stage90.Usb

open Stage90.Lib Stage90.Console

/-- The transfer ended, and its completion waits for a poll. -/
def Feed.Waiting (f : Feed) : Prop := f.ep.token.active = false ∧ f.ep.complete

/-- A chunk that is outstanding can complete, or has. -/
def Feed.Live (f : Feed) : Prop := f.stream.active → f.ep.canComplete ∨ f.Waiting

/-- The core holds the bytes of the ring from the cursor on. -/
structure Feed.Offers (f : Feed) : Prop where
  canComplete : f.ep.canComplete
  some_ : 0 < f.stream.last
  total : f.ep.token.total = f.stream.last
  bytes : ∀ i < f.stream.last, f.stream.buf i = f.ring.data (f.stream.cursor + i)

/-- `SET_CONFIGURATION` of a configuration: the request that re-initialises EP1-IN. -/
def Configures (setup : Fin 8 → UInt8) : Prop :=
  (setup 0).toUInt32 &&& typeMask = typeStandard ∧ (setup 1).toUInt32 = reqSetConfiguration ∧
    wValue setup ≠ 0

/-- What keeps the two files apart in one step: a poll that arms EP0 or serves a bus reset
meets no outstanding chunk, a configuration no chunk that is with the core, and a drained
stream nothing new. -/
def Sys.Undisturbed (s : Sys) (b : Build) : Event → Prop
  | .enumPoll r => b.open_ r →
      ((s.enum.done = false ∨ r.uri) → s.feed.stream.active = false) ∧
        (r.ui → r.hasSetup → Configures r.setup → s.feed.ep.token.active = false)
  | .streamPoll g =>
      g.device → g.enabled → s.feed.stream.active = false → s.feed.stream.state = .drained →
        s.feed.available = 0
  | _ => True

def Meets (log : Ring → Record → List UInt8) (b : Build) (s : Sys) : List Event → Prop
  | [] => True
  | event :: events => s.Undisturbed b event ∧ Meets log b (s.step log b event) events

/-! ## The actions of a poll -/

/-- A write that cancels what EP1-IN has primed, or clears its completion. -/
def Action.flushes : Action → Bool
  | .write .endptFlush bits => bits &&& epBit 1 true ≠ 0
  | .write .endptComplete bits => bits &&& epBit 1 true ≠ 0
  | _ => false

def Action.relinks : Action → Bool
  | .nuke .in1 => true
  | .prime .in1 _ => true
  | _ => false

theorem act_complete (ep : Endpoint) {a : Action} (spares : !a.flushes) :
    (ep.act a).complete = ep.complete := by
  cases a with
  | write reg bits =>
      cases reg with
      | endptFlush =>
          rw [act_endptFlush]
          split <;> rfl
      | endptComplete =>
          have other : ¬ bits &&& epBit 1 true ≠ 0 := by
            simpa [Action.flushes] using spares
          rw [act_endptComplete, if_neg other]
      | _ => rfl
  | nuke qh => cases qh <;> rfl
  | prime qh payload => cases qh <;> rfl

theorem act_spares (ep : Endpoint) {a : Action} (spares : !a.flushes) (keeps : !a.relinks) :
    ep.act a = ep := by
  cases a with
  | write reg bits =>
      cases reg with
      | endptFlush =>
          have other : ¬ bits &&& epBit 1 true ≠ 0 := by
            simpa [Action.flushes] using spares
          rw [act_endptFlush, if_neg other]
      | endptComplete =>
          have other : ¬ bits &&& epBit 1 true ≠ 0 := by
            simpa [Action.flushes] using spares
          rw [act_endptComplete, if_neg other]
      | _ => rfl
  | nuke qh =>
      cases qh with
      | in1 => exact absurd keeps Bool.false_ne_true
      | _ => rfl
  | prime qh payload =>
      cases qh with
      | in1 => exact absurd keeps Bool.false_ne_true
      | _ => rfl

theorem acts_complete (ep : Endpoint) {actions : List Action}
    (spares : actions.all fun a => !a.flushes) :
    (actions.foldl Endpoint.act ep).complete = ep.complete := by
  induction actions generalizing ep with
  | nil => rfl
  | cons a actions ih =>
      rw [List.all_cons, Bool.and_eq_true] at spares
      rw [List.foldl_cons, ih _ spares.2]
      exact act_complete ep spares.1

theorem acts_spare (ep : Endpoint) {actions : List Action}
    (spares : actions.all fun a => !a.flushes) (keeps : actions.all fun a => !a.relinks) :
    actions.foldl Endpoint.act ep = ep := by
  induction actions with
  | nil => rfl
  | cons a actions ih =>
      rw [List.all_cons, Bool.and_eq_true] at spares keeps
      rw [List.foldl_cons, act_spares ep spares.1 keeps.1]
      exact ih spares.2 keeps.2

/-- What holds of every write to the control endpoint and of the address. -/
structure Control (p : Action → Bool) : Prop where
  prime : ∀ payload, p (.prime .in0 payload)
  status : p (.prime .out0 [])
  out0 : p (.nuke .out0)
  in0 : p (.nuke .in0)
  setupStat : p (.write .endptSetupStat 1)
  sent : p (.write .endptComplete (epBit 0 true))
  taken : p (.write .endptComplete (epBit 0 false))
  addr : ∀ value, p (.write .deviceAddr value)
  clear : ∀ value, p (.write .usbSts value)

theorem control_flushes : Control fun a => !a.flushes :=
  ⟨fun _ => rfl, rfl, rfl, rfl, rfl, by decide, by decide, fun _ => rfl, fun _ => rfl⟩

theorem control_relinks : Control fun a => !a.relinks :=
  ⟨fun _ => rfl, rfl, rfl, rfl, rfl, rfl, rfl, fun _ => rfl, fun _ => rfl⟩

variable {b : Build} {p : Action → Bool}

theorem setup_actions (control : Control p) {setup : Fin 8 → UInt8}
    (arm : Configures setup → ∀ e, (usbEnumArmEpIn b e).2.all p) (e : Enum) :
    (usbEnumSetup b e setup).2.all p := by
  have descriptor (e : Enum) : (usbEnumGetDescriptor e setup).2.2.all p := by
    rw [usbEnumGetDescriptor]
    split
    · rfl
    · rw [List.all_cons, control.prime]
      rfl
  have read : ([.write .endptSetupStat 1, .nuke .out0, .nuke .in0] : List Action).all p := by
    rw [List.all_cons, List.all_cons, List.all_cons, control.setupStat, control.out0, control.in0]
    rfl
  have status (actions : List Action) (e : Enum) (all : actions.all p) :
      (usbEnumStatus e actions).2.all p := by
    rw [usbEnumStatus, List.all_append, all, List.all_cons, control.prime]
    rfl
  rw [usbEnumSetup]
  dsimp only
  split
  · rename_i standard
    split
    · split
      · rw [List.all_append, read, descriptor]
        rfl
      · apply status
        rw [List.all_append, read, descriptor]
        rfl
    · split
      · apply status
        rw [List.all_append, read, List.all_cons, control.addr]
        rfl
      · split
        · rw [List.all_append, read, List.all_cons, control.prime]
          rfl
        · split
          · rename_i request
            apply status
            rw [List.all_append, read]
            split
            · rename_i configured
              rw [if_pos (by decide), arm ⟨standard, request, configured⟩]
              rfl
            · rw [if_neg (by decide)]
              rfl
          · exact status _ _ read
  · exact status _ _ read

theorem complete_actions (control : Control p) (handed : b.stream) (e : Enum)
    (complete : Fin 3 → UInt32) : (usbEnumComplete b e complete).2.all p := by
  have foreign : ¬ ((!b.stream) = true ∧ complete 2 &&& epBit 1 true ≠ 0) := by
    rw [handed]
    exact fun both => Bool.false_ne_true both.1
  rw [usbEnumComplete]
  dsimp only
  rw [if_neg foreign, List.append_nil, List.all_append, Bool.and_eq_true]
  constructor
  · split
    · split
      · rw [List.all_cons, control.sent, List.all_cons, control.status]
        rfl
      · rw [List.all_cons, control.sent]
        rfl
    · rfl
  · generalize (if complete 0 &&& epBit 0 true ≠ 0 then _ else _ : Enum × List Action) = first
    split
    · rw [List.all_cons, control.taken]
      rfl
    · rfl

theorem poll_actions (control : Control p) (handed : b.stream) {e : Enum} {r : Reading}
    (done : e.done) (noReset : ¬ r.uri)
    (arm : r.ui → r.hasSetup → Configures r.setup → ∀ e, (usbEnumArmEpIn b e).2.all p) :
    (entryUsbEnumPoll b e r).2.1.all p := by
  rw [entryUsbEnumPoll]
  split
  · dsimp only
    rw [usbEnumArm, if_pos done, usbEnumService, if_neg noReset]
    dsimp only
    rw [List.nil_append, List.nil_append, List.all_append, List.all_cons, control.clear]
    split
    · rename_i ui
      rw [usbEnumUi]
      split
      · rename_i waits
        rw [setup_actions control (arm ui waits)]
        rfl
      · rw [complete_actions control handed]
        rfl
    · rfl
  · rfl

/-! ## What a poll of the stream leaves -/

variable (log : Ring → Record → List UInt8) {host : List UInt8} {f f' : Feed}

theorem Feed.Live.appends (live : f.Live) (grown : f.Appends f') : f'.Live := by
  rw [Feed.Live, Feed.Waiting, grown.stream, grown.ep]
  exact live

theorem prime_canComplete (f : Feed) (len : Nat) : (usbStreamPrime f len).ep.canComplete := rfl

theorem offers_of_canComplete (inv : f.Inv host) (can : f.ep.canComplete) : f.Offers := by
  obtain ⟨active, total⟩ := inv.busy (Bool.and_eq_true_iff.mp can).2
  exact ⟨can, (inv.offer active).2.1, total, inv.buffer active⟩

theorem complete_offers (live : f.Live) (active : f.stream.active) :
    (usbStreamComplete f).ep.canComplete ∨
      (usbStreamComplete f).stream.active = false ∧
        usbStreamSize f.ring ≤ (usbStreamComplete f).stream.cursor := by
  by_cases busy : f.ep.token.active
  · rw [usbStreamComplete, if_pos busy]
    cases live active with
    | inl can => exact .inl can
    | inr waits => exact absurd (waits.1.symm.trans busy) Bool.false_ne_true
  · rw [complete_eq busy]
    split
    · rename_i none
      have available := f.retired.available_eq
      have left : usbStreamSize f.ring ≤ f.retired.stream.cursor := by
        rw [none] at available
        exact Nat.sub_eq_zero_iff_le.mp available.symm
      exact .inr ⟨rfl, left⟩
    · exact .inl (prime_canComplete _ _)

/-- An advance leaves a chunk with the core, or it waits for a completion, or nothing is left. -/
theorem advance_offers (live : f.Live)
    (fresh : f.stream.active = false → f.stream.state = .drained → f.available = 0) :
    (usbStreamAdvance log f).ep.canComplete ∨
      (usbStreamAdvance log f).stream.active = false ∧
        usbStreamSize f.ring ≤ (usbStreamAdvance log f).stream.cursor := by
  have left : f.available = 0 → usbStreamSize f.ring ≤ f.stream.cursor := by
    intro none
    rw [f.available_eq] at none
    exact Nat.sub_eq_zero_iff_le.mp none
  rw [usbStreamAdvance]
  split
  · rename_i active
    split
    · exact complete_offers live active
    · rename_i quiet
      cases live active with
      | inl can => exact .inl can
      | inr waits => exact absurd waits.2 quiet
  · rename_i idle
    have rests := Bool.eq_false_iff.mpr idle
    split
    · dsimp only
      split
      · rename_i none
        exact .inr ⟨rests, left none⟩
      · exact .inl (prime_canComplete _ _)
    · rename_i drained
      exact .inr ⟨rests, left (fresh rests (not_not.mp drained))⟩

/-- Without the condition on what is left, an outstanding chunk is still one that can complete. -/
theorem advance_live (live : f.Live) : (usbStreamAdvance log f).Live := by
  by_cases stays : f.stream.active = false ∧ f.stream.state = .drained
  · have same : usbStreamAdvance log f = f := by
      rw [usbStreamAdvance, if_neg (Bool.eq_false_iff.mp stays.1),
        if_neg (not_not.mpr stays.2)]
    rw [same]
    exact live
  · intro active
    cases advance_offers log live fun idle drained => absurd ⟨idle, drained⟩ stays with
    | inl can => exact .inl can
    | inr done => exact absurd (done.1.symm.trans active) Bool.false_ne_true

theorem streamPoll_live (live : f.Live) (g : Gate) : (entryUsbStreamPoll log f g).Live := by
  rw [entryUsbStreamPoll]
  split
  · exact live
  · split
    · split
      · have waiting : Feed.Live { f with stream := { f.stream with state := .waiting } } := live
        exact waiting.appends (live_appends log _ _ _)
      · exact live
    · exact (advance_live log live).appends (publish_appends log _)

/-! ## What the other steps leave -/

theorem transfer_live {s : Sys} (live : s.feed.Live) (remaining : Nat) :
    (s.transfer remaining).feed.Live := by
  rw [Sys.transfer]
  split
  · intro _
    exact .inr ⟨rfl, rfl⟩
  · exact live

theorem enumPoll_live (handed : b.stream) {s : Sys} (live : s.feed.Live) {r : Reading}
    (undisturbed : s.Undisturbed b (.enumPoll r)) : (s.enumPoll log b r).feed.Live := by
  have grown := publishAll_appends log
    { s.feed with ep := (entryUsbEnumPoll b s.enum r).2.1.foldl Endpoint.act s.feed.ep }
    (entryUsbEnumPoll b s.enum r).2.2
  refine Feed.Live.appends ?_ grown
  by_cases opened : b.open_ r
  · obtain ⟨flush, configure⟩ := undisturbed opened
    intro active
    have noFlush : ¬ (s.enum.done = false ∨ r.uri) := by
      intro flushes
      exact Bool.false_ne_true ((flush flushes).symm.trans active)
    have done : s.enum.done := by
      rw [← Bool.not_eq_false]
      exact fun first => noFlush (.inl first)
    have noReset : ¬ r.uri := fun reset => noFlush (.inr reset)
    have spares := poll_actions control_flushes handed done noReset fun _ _ _ e => by
      rw [usbEnumArmEpIn, if_pos handed]
      rfl
    cases live active with
    | inl can =>
        -- a configuration would have found the chunk with the core
        have keeps := poll_actions control_relinks handed done noReset fun ui waits named => by
          have busy := (Bool.and_eq_true_iff.mp can).2
          exact absurd ((configure ui waits named).symm.trans busy) Bool.false_ne_true
        rw [acts_spare s.feed.ep spares keeps]
        exact .inl can
    | inr waits =>
        refine .inr ⟨?_, ?_⟩
        · exact (congrArg Token.active (acts_token s.feed.ep _)).trans waits.1
        · exact (acts_complete s.feed.ep spares).trans waits.2
  · rw [entryUsbEnumPoll, if_neg opened]
    exact live

theorem step_live (handed : b.stream) {s : Sys} (live : s.feed.Live) {event : Event}
    (undisturbed : s.Undisturbed b event) : (s.step log b event).feed.Live := by
  cases event with
  | append text => exact live.appends (append_appends s.feed text)
  | streamPoll gate => exact streamPoll_live log live gate
  | enumPoll reading => exact enumPoll_live log handed live undisturbed
  | transfer remaining => exact transfer_live live remaining

theorem run_live (handed : b.stream) {s : Sys} (live : s.feed.Live) {events : List Event}
    (meets : Meets log b s events) : (s.run log b events).feed.Live := by
  induction events generalizing s with
  | nil => exact live
  | cons event events ih => exact ih (step_live log handed live meets.1) meets.2

/-- In a run whose steps are undisturbed an outstanding chunk can complete or has, and an open
poll offers what lies past the cursor. -/
theorem stream_not_wedged (handed : b.stream) (ring : Ring) {events : List Event}
    (meets : Meets log b (Sys.boot ring) events) :
    let s := (Sys.boot ring).run log b events
    s.feed.Live ∧
      ∀ gate, gate.device → gate.enabled → s.Undisturbed b (.streamPoll gate) →
        (entryUsbStreamPoll log s.feed gate).Offers ∨
          usbStreamSize s.feed.ring ≤ (entryUsbStreamPoll log s.feed gate).stream.cursor := by
  intro s
  have idle : (Sys.boot ring).feed.Live := fun active => absurd active Bool.false_ne_true
  have live : s.feed.Live := run_live log handed idle meets
  have inv : s.Inv := run_inv log b (boot_inv ring) events
  refine ⟨live, ?_⟩
  intro gate device enabled undisturbed
  have polled := streamPoll_inv log inv gate
  have advanced : entryUsbStreamPoll log s.feed gate =
      usbStreamPublish log (usbStreamAdvance log s.feed) := by
    rw [entryUsbStreamPoll, device, enabled]
    rfl
  have grown := publish_appends log (usbStreamAdvance log s.feed)
  cases advance_offers log live (undisturbed device enabled) with
  | inl can =>
      apply Or.inl
      apply offers_of_canComplete polled
      rw [advanced, grown.ep]
      exact can
  | inr done =>
      apply Or.inr
      rw [advanced, grown.stream]
      exact done.2

/-- The controller is armed, reset at rest and configured before the first chunk. -/
theorem quiet_run_not_wedged :
    let build : Build := ⟨true, false, 0⟩
    let device : Reading :=
      ⟨usbModeCmDevice, 0, 0, enumIntrValue, 0, fun _ => 0, fun _ => 0⟩
    let configuration : Fin 8 → UInt8 := fun i => if i = 1 then 9 else if i = 2 then 1 else 0
    let events : List Event :=
      [.enumPoll device, .enumPoll { device with usbSts := stsUri },
        .enumPoll { device with usbSts := stsUi, endptSetupStat := 1, setup := configuration },
        .append [0x41], .streamPoll ⟨usbModeCmDevice, endptCtrlTxe⟩, .transfer 0]
    let s := (Sys.boot ⟨0, 0, fun _ => 0⟩).run (fun _ _ => []) build events
    Meets (fun _ _ => []) build (Sys.boot ⟨0, 0, fun _ => 0⟩) events ∧ s.enum.configured = 1 ∧
      s.feed.stream.active ∧ s.feed.Live := by
  intro build device configuration events s
  have meets : Meets (fun _ _ => []) build (Sys.boot ⟨0, 0, fun _ => 0⟩) events := by
    refine ⟨?_, ?_, ?_, trivial, ?_, trivial, trivial⟩
    · exact fun _ => ⟨fun _ => rfl, fun _ _ _ => rfl⟩
    · exact fun _ => ⟨fun _ => by decide, fun _ _ _ => by decide⟩
    · exact fun _ => ⟨fun _ => by decide, fun _ _ _ => by decide⟩
    · intro _ _ _ drained
      exact absurd drained (by decide)
  exact ⟨meets, by decide, by decide,
    (stream_not_wedged (fun _ _ => []) rfl ⟨0, 0, fun _ => 0⟩ meets).1⟩

/-- A bus reset while a chunk is with the core: the static stays and the chunk does not, also
after the next configuration and poll. -/
theorem reset_wedges :
    let build : Build := ⟨true, false, 0⟩
    let open_ : Gate := ⟨usbModeCmDevice, endptCtrlTxe⟩
    let device : Reading :=
      ⟨usbModeCmDevice, 0, 0, enumIntrValue, 0, fun _ => 0, fun _ => 0⟩
    let configuration : Fin 8 → UInt8 := fun i => if i = 1 then 9 else if i = 2 then 1 else 0
    let s := (Sys.boot ⟨0, 0, fun _ => 0⟩).run (fun _ _ => []) build
      [.append [0x41], .enumPoll device, .streamPoll open_,
        .enumPoll { device with usbSts := stsUri },
        .enumPoll { device with usbSts := stsUi, endptSetupStat := 1, setup := configuration },
        .streamPoll open_]
    s.enum.configured = 1 ∧ s.feed.available = 1 ∧
      s.feed.stream.active ∧ s.feed.ep.canComplete = false ∧ ¬ s.feed.Waiting := by
  refine ⟨by decide, by decide, by decide, by decide, ?_⟩
  intro waits
  exact absurd waits.2 (by decide)

end Stage90.Usb

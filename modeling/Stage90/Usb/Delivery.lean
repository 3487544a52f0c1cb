import Stage90.Usb.Bus

/-!
# The stream delivers the ring in order

What the host has accepted is the ring up to the cursor, and the bytes of a completion that
no poll has seen yet.  This holds of every run, with the enumeration's resets or without.
-/

set_option autoImplicit false

namespace Stage90.Usb

open Stage90.Lib Stage90.Console

def Feed.unseen (f : Feed) : Nat :=
  if f.stream.active ∧ f.ep.token.active = false then f.stream.last - f.ep.token.total else 0

structure Feed.Inv (host : List UInt8) (f : Feed) : Prop where
  cursor : f.stream.cursor ≤ usbStreamSize f.ring
  offer : f.stream.active →
    f.stream.cursor + f.stream.last ≤ usbStreamSize f.ring ∧ 0 < f.stream.last ∧
      f.stream.last ≤ usbStreamChunk ∧ f.ep.token.total ≤ f.stream.last
  buffer : f.stream.active →
    ∀ i < f.stream.last, f.stream.buf i = f.ring.data (f.stream.cursor + i)
  busy : f.ep.token.active → f.stream.active ∧ f.ep.token.total = f.stream.last
  accepted : host = ringBytes f.ring 0 (f.stream.cursor + f.unseen)

theorem ringBytes_frame {r r' : Ring} {cursor len : Nat}
    (same : ∀ p < cursor + len, r'.data p = r.data p) :
    ringBytes r' cursor len = ringBytes r cursor len := by
  apply List.map_congr_left
  intro i inside
  exact same _ (Nat.add_lt_add_left (List.mem_range.mp inside) cursor)

theorem ringBytes_add (r : Ring) (n m : Nat) :
    ringBytes r 0 (n + m) = ringBytes r 0 n ++ ringBytes r n m := by
  rw [ringBytes, List.range_add, List.map_append, List.map_map]
  congr 1
  apply List.map_congr_left
  intro i _
  rw [Function.comp_apply, Nat.zero_add]

variable {host : List UInt8} {f f' : Feed}

theorem Feed.Inv.within (inv : f.Inv host) :
    f.stream.cursor + f.unseen ≤ usbStreamSize f.ring := by
  rw [Feed.unseen]
  split
  · rename_i waits
    have offer := inv.offer waits.1
    omega
  · exact inv.cursor

theorem Feed.Inv.appends (inv : f.Inv host) (grown : f.Appends f') : f'.Inv host := by
  have size := usbStreamSize_mono grown.size
  have small := (usbStreamSize_le f.ring).1
  have unseen : f'.unseen = f.unseen := by rw [Feed.unseen, Feed.unseen, grown.stream, grown.ep]
  constructor
  · rw [grown.stream]
    exact Nat.le_trans inv.cursor size
  · rw [grown.stream, grown.ep]
    intro active
    have offer := inv.offer active
    omega
  · rw [grown.stream]
    intro active i inside
    have offer := inv.offer active
    rw [grown.data _ (by omega)]
    exact inv.buffer active i inside
  · rw [grown.stream, grown.ep]
    exact inv.busy
  · have within := inv.within
    rw [unseen, grown.stream, inv.accepted]
    refine (ringBytes_frame ?_).symm
    intro p below
    exact grown.data p (by omega)

/-! ## The stream's own steps -/

/-- No chunk is with the core. -/
structure Feed.Resting (host : List UInt8) (f : Feed) : Prop where
  cursor : f.stream.cursor ≤ usbStreamSize f.ring
  quiet : f.ep.token.active = false
  accepted : host = ringBytes f.ring 0 f.stream.cursor

theorem Feed.Inv.resting (inv : f.Inv host) (idle : f.stream.active = false) : f.Resting host := by
  have unseen : f.unseen = 0 := if_neg fun waits => Bool.false_ne_true (idle.symm.trans waits.1)
  refine ⟨inv.cursor, ?_, ?_⟩
  · rw [Bool.eq_false_iff]
    intro busy
    exact Bool.false_ne_true (idle.symm.trans (inv.busy busy).1)
  · rw [inv.accepted, unseen, Nat.add_zero]

theorem Feed.Resting.inv (resting : f.Resting host) (idle : f.stream.active = false) :
    f.Inv host := by
  have unseen : f.unseen = 0 := if_neg fun waits => Bool.false_ne_true (idle.symm.trans waits.1)
  refine ⟨resting.cursor, ?_, ?_, ?_, ?_⟩
  · intro active
    exact absurd (idle.symm.trans active) Bool.false_ne_true
  · intro active
    exact absurd (idle.symm.trans active) Bool.false_ne_true
  · intro busy
    exact absurd (resting.quiet.symm.trans busy) Bool.false_ne_true
  · rw [unseen, Nat.add_zero]
    exact resting.accepted

theorem Feed.Resting.appends (resting : f.Resting host) (grown : f.Appends f') :
    f'.Resting host := by
  have small := (usbStreamSize_le f.ring).1
  have cursor := resting.cursor
  refine ⟨?_, ?_, ?_⟩
  · rw [grown.stream]
    exact Nat.le_trans cursor (usbStreamSize_mono grown.size)
  · rw [grown.ep]
    exact resting.quiet
  · rw [grown.stream, resting.accepted]
    refine (ringBytes_frame ?_).symm
    intro p below
    exact grown.data p (by omega)

theorem prime_inv (resting : f.Resting host) {len : Nat} (some_ : 0 < len)
    (there : f.stream.cursor + len ≤ usbStreamSize f.ring) :
    (usbStreamPrime f len).Inv host := by
  have chunk : 0 < usbStreamChunk ∧ usbStreamChunk < 2 ^ 15 := by decide
  obtain ⟨n, is, fits⟩ : ∃ n, (if usbStreamChunk < len then usbStreamChunk else len) = n ∧
      0 < n ∧ n ≤ len ∧ n ≤ usbStreamChunk := by
    refine ⟨_, rfl, ?_⟩
    split <;> omega
  have total : n % 2 ^ 15 = n := Nat.mod_eq_of_lt (by omega)
  rw [usbStreamPrime, is, total]
  constructor
  · exact resting.cursor
  · intro _
    dsimp only
    omega
  · intro _ i inside
    dsimp only at inside ⊢
    rw [overlay, if_pos (Nat.zero_le i), Nat.sub_zero, ringBytes, List.getElem?_map,
      List.getElem?_range inside]
    rfl
  · intro _
    exact ⟨rfl, rfl⟩
  · exact resting.accepted

theorem offer_inv (resting : f.Resting host) (idle : f.stream.active = false) :
    (if f.available = 0 then { f with stream := { f.stream with state := .drained } }
      else usbStreamPrime f f.available).Inv host := by
  split
  · have drained : Feed.Resting host { f with stream := { f.stream with state := .drained } } :=
      ⟨resting.cursor, resting.quiet, resting.accepted⟩
    exact drained.inv idle
  · rename_i left
    have available := f.available_eq
    have cursor := resting.cursor
    apply prime_inv resting
    · exact Nat.pos_of_ne_zero left
    · omega

def Feed.retired (f : Feed) : Feed :=
  let actual := if f.ep.token.total < f.stream.last then f.stream.last - f.ep.token.total else 0
  { f with
    stream := { f.stream with
      actual := actual
      cursor := u32 (f.stream.cursor + actual)
      chunks := f.stream.chunks + 1
      active := false }
    ep := { f.ep with complete := false } }

theorem complete_eq (ended : ¬ f.ep.token.active) :
    usbStreamComplete f =
      if f.retired.available = 0 then
        { f.retired with stream := { f.retired.stream with state := .drained } }
      else usbStreamPrime f.retired f.retired.available :=
  if_neg ended

theorem retired_cursor (inv : f.Inv host) (active : f.stream.active)
    (ended : ¬ f.ep.token.active) :
    f.retired.stream.cursor = f.stream.cursor + f.unseen := by
  have quiet : f.ep.token.active = false := Bool.eq_false_iff.mpr ended
  have unseen : f.unseen = f.stream.last - f.ep.token.total := if_pos ⟨active, quiet⟩
  have actual : (if f.ep.token.total < f.stream.last then f.stream.last - f.ep.token.total
      else 0) = f.unseen := by
    rw [unseen]
    split <;> omega
  have within := inv.within
  have small := (usbStreamSize_le f.ring).2
  have bound : usbStreamSizeMax < 2 ^ 32 := by decide
  rw [Feed.retired, actual]
  exact u32_of_lt (by omega)

theorem retired_resting (inv : f.Inv host) (active : f.stream.active)
    (ended : ¬ f.ep.token.active) : f.retired.Resting host := by
  have cursor := retired_cursor inv active ended
  refine ⟨?_, Bool.eq_false_iff.mpr ended, ?_⟩
  · rw [cursor]
    exact inv.within
  · rw [cursor]
    exact inv.accepted

theorem complete_inv (inv : f.Inv host) (active : f.stream.active) :
    (usbStreamComplete f).Inv host := by
  by_cases busy : f.ep.token.active
  · rw [usbStreamComplete, if_pos busy]
    exact inv
  · rw [complete_eq busy]
    exact offer_inv (retired_resting inv active busy) rfl

theorem advance_inv (log : Ring → Record → List UInt8) (inv : f.Inv host) :
    (usbStreamAdvance log f).Inv host := by
  rw [usbStreamAdvance]
  split
  · rename_i active
    split
    · exact complete_inv inv active
    · exact inv
  · rename_i idle
    have resting := inv.resting (Bool.eq_false_iff.mpr idle)
    split
    · dsimp only
      split
      · have drained : Feed.Resting host { f with stream := { f.stream with state := .drained } } :=
          ⟨resting.cursor, resting.quiet, resting.accepted⟩
        exact drained.inv (Bool.eq_false_iff.mpr idle)
      · rename_i left
        have available := f.available_eq
        have cursor := resting.cursor
        -- the armed record grows the ring, the count was taken before it
        have first : f.Appends
            (if f.stream.chunks = 0 then f.live log "xnu_live_usb_stream_armed" 1 else f) := by
          split
          · exact live_appends log f _ _
          · exact .refl f
        have size := usbStreamSize_mono first.size
        apply prime_inv (resting.appends first)
        · exact Nat.pos_of_ne_zero left
        · rw [first.stream]
          omega
    · exact inv

theorem Feed.Inv.state (inv : f.Inv host) (state : StreamState) :
    ({ f with stream := { f.stream with state := state } } : Feed).Inv host :=
  ⟨inv.cursor, inv.offer, inv.buffer, inv.busy, inv.accepted⟩

theorem streamPoll_inv (log : Ring → Record → List UInt8) (inv : f.Inv host) (g : Gate) :
    (entryUsbStreamPoll log f g).Inv host := by
  rw [entryUsbStreamPoll]
  split
  · exact inv.state .idle
  · split
    · split
      · exact (inv.state .waiting).appends (live_appends log _ _ _)
      · exact inv
    · exact (advance_inv log inv).appends (publish_appends log _)

/-! ## The core and the enumeration -/

theorem Feed.Inv.endpoint (inv : f.Inv host) {ep : Endpoint} (same : ep.token = f.ep.token) :
    ({ f with ep := ep } : Feed).Inv host := by
  have unseen : ({ f with ep := ep } : Feed).unseen = f.unseen := by
    rw [Feed.unseen, Feed.unseen, same]
  constructor
  · exact inv.cursor
  · rw [same]
    exact inv.offer
  · exact inv.buffer
  · rw [same]
    exact inv.busy
  · rw [unseen]
    exact inv.accepted

theorem act_endptFlush (ep : Endpoint) (bits : UInt32) :
    ep.act (.write .endptFlush bits) =
      if bits &&& epBit 1 true ≠ 0 then { ep with primed := false } else ep := rfl

theorem act_endptComplete (ep : Endpoint) (bits : UInt32) :
    ep.act (.write .endptComplete bits) =
      if bits &&& epBit 1 true ≠ 0 then { ep with complete := false } else ep := rfl

theorem act_token (ep : Endpoint) (a : Action) : (ep.act a).token = ep.token := by
  cases a with
  | write reg bits =>
      cases reg with
      | endptFlush =>
          rw [act_endptFlush]
          split <;> rfl
      | endptComplete =>
          rw [act_endptComplete]
          split <;> rfl
      | _ => rfl
  | nuke qh => cases qh <;> rfl
  | prime qh payload => cases qh <;> rfl

theorem acts_token (ep : Endpoint) (actions : List Action) :
    (actions.foldl Endpoint.act ep).token = ep.token := by
  induction actions generalizing ep with
  | nil => rfl
  | cons a actions ih =>
      rw [List.foldl_cons, ih]
      exact act_token ep a

def Sys.Inv (s : Sys) : Prop := s.feed.Inv s.host

variable (log : Ring → Record → List UInt8) (b : Build)

theorem enumPoll_inv {s : Sys} (inv : s.Inv) (r : Reading) : (s.enumPoll log b r).Inv := by
  have acted := Feed.Inv.endpoint inv (acts_token s.feed.ep (entryUsbEnumPoll b s.enum r).2.1)
  exact acted.appends (publishAll_appends log _ _)

theorem transfer_inv {s : Sys} (inv : s.Inv) (remaining : Nat) : (s.transfer remaining).Inv := by
  rw [Sys.transfer]
  split
  · rename_i ends
    obtain ⟨can, within⟩ := ends
    have token : s.feed.ep.token.active := (Bool.and_eq_true_iff.mp can).2
    have cursor : s.feed.stream.cursor ≤ usbStreamSize s.feed.ring := Feed.Inv.cursor inv
    obtain ⟨active, total⟩ := Feed.Inv.busy inv token
    have offer := Feed.Inv.offer inv active
    have buffer := Feed.Inv.buffer inv active
    have before : s.feed.unseen = 0 := if_neg fun waits =>
      Bool.false_ne_true (waits.2.symm.trans token)
    have accepted := Feed.Inv.accepted inv
    rw [before, Nat.add_zero] at accepted
    have sent : (List.range (s.feed.ep.token.total - remaining)).map s.feed.stream.buf =
        ringBytes s.feed.ring s.feed.stream.cursor (s.feed.stream.last - remaining) := by
      rw [total, ringBytes]
      apply List.map_congr_left
      intro i below
      have inside := List.mem_range.mp below
      exact buffer i (by omega)
    constructor
    · exact cursor
    · intro _
      dsimp only
      omega
    · intro _
      exact buffer
    · intro busy
      exact absurd busy Bool.false_ne_true
    · rw [sent, accepted, Feed.unseen, if_pos ⟨active, rfl⟩]
      exact (ringBytes_add s.feed.ring _ _).symm
  · exact inv

/-! ## Runs -/

theorem boot_inv (ring : Ring) : (Sys.boot ring).Inv := by
  have resting : Feed.Resting [] (Sys.boot ring).feed := ⟨Nat.zero_le _, rfl, rfl⟩
  exact resting.inv rfl

theorem step_inv {s : Sys} (inv : s.Inv) (event : Event) : (s.step log b event).Inv := by
  cases event with
  | append text => exact Feed.Inv.appends inv (append_appends s.feed text)
  | streamPoll gate => exact streamPoll_inv log inv gate
  | enumPoll reading => exact enumPoll_inv log b inv reading
  | transfer remaining => exact transfer_inv inv remaining

theorem run_inv {s : Sys} (inv : s.Inv) (events : List Event) : (s.run log b events).Inv := by
  induction events generalizing s with
  | nil => exact inv
  | cons event events ih => exact ih (step_inv log b inv event)

/-! ## The cursor and the buffer -/

/-- The cursor only moves forward, and the buffer of a chunk with the core stays. -/
structure Feed.Moves (f f' : Feed) : Prop where
  cursor : f.stream.cursor ≤ f'.stream.cursor
  buffer : f.ep.token.active → f'.stream.buf = f.stream.buf

theorem Feed.Moves.of_stream (same : f'.stream = f.stream) : f.Moves f' :=
  ⟨Nat.le_of_eq (by rw [same]), fun _ => by rw [same]⟩

theorem complete_moves (inv : f.Inv host) (active : f.stream.active) :
    f.Moves (usbStreamComplete f) := by
  by_cases busy : f.ep.token.active
  · rw [usbStreamComplete, if_pos busy]
    exact .of_stream rfl
  · have moved : f.stream.cursor ≤ f.retired.stream.cursor := by
      rw [retired_cursor inv active busy]
      exact Nat.le_add_right _ _
    rw [complete_eq busy]
    split
    · exact ⟨moved, fun still => absurd still busy⟩
    · exact ⟨moved, fun still => absurd still busy⟩

theorem advance_moves (log : Ring → Record → List UInt8) (inv : f.Inv host) :
    f.Moves (usbStreamAdvance log f) := by
  rw [usbStreamAdvance]
  split
  · rename_i active
    split
    · exact complete_moves inv active
    · exact .of_stream rfl
  · rename_i idle
    have quiet := (inv.resting (Bool.eq_false_iff.mpr idle)).quiet
    have never : ¬ f.ep.token.active := Bool.eq_false_iff.mp quiet
    split
    · dsimp only
      split
      · exact ⟨Nat.le_refl _, fun busy => absurd busy never⟩
      · split
        · exact ⟨Nat.le_refl _, fun busy => absurd busy never⟩
        · exact ⟨Nat.le_refl _, fun busy => absurd busy never⟩
    · exact .of_stream rfl

theorem streamPoll_moves (log : Ring → Record → List UInt8) (inv : f.Inv host) (g : Gate) :
    f.Moves (entryUsbStreamPoll log f g) := by
  rw [entryUsbStreamPoll]
  split
  · exact ⟨Nat.le_refl _, fun _ => rfl⟩
  · split
    · split
      · exact ⟨Nat.le_refl _, fun _ => rfl⟩
      · exact .of_stream rfl
    · have moves := advance_moves log inv
      have published := (publish_appends log (usbStreamAdvance log f)).stream
      constructor
      · rw [published]
        exact moves.cursor
      · rw [published]
        exact moves.buffer

theorem step_moves {s : Sys} (inv : s.Inv) (event : Event) :
    s.feed.Moves (s.step log b event).feed := by
  cases event with
  | append text => exact .of_stream rfl
  | streamPoll gate => exact streamPoll_moves log inv gate
  | enumPoll reading =>
      have published := (publishAll_appends log
        { s.feed with
          ep := (entryUsbEnumPoll b s.enum reading).2.1.foldl Endpoint.act s.feed.ep }
        (entryUsbEnumPoll b s.enum reading).2.2).stream
      exact .of_stream published
  | transfer remaining =>
      rw [Sys.step, Sys.transfer]
      split
      · exact .of_stream rfl
      · exact .of_stream rfl

theorem run_cursor {s : Sys} (inv : s.Inv) (events : List Event) :
    s.feed.stream.cursor ≤ (s.run log b events).feed.stream.cursor := by
  induction events generalizing s with
  | nil => exact Nat.le_refl _
  | cons event events ih =>
      exact Nat.le_trans (step_moves log b inv event).cursor (ih (step_inv log b inv event))

/-- The host holds the ring up to the cursor and the bytes of a completion that waits for its
poll; the cursor stays in the ring and never goes back; the core has a chunk at the most, and
its buffer stays as it is. -/
theorem stream_in_order (ring : Ring) (events more : List Event) :
    let s := (Sys.boot ring).run log b events
    s.host = ringBytes s.feed.ring 0 (s.feed.stream.cursor + s.feed.unseen) ∧
      (s.feed.unseen = 0 ∨ s.feed.stream.active ∧ s.feed.ep.token.active = false) ∧
      s.feed.stream.cursor ≤ s.feed.ring.size ∧
      s.feed.stream.cursor ≤
        ((Sys.boot ring).run log b (events ++ more)).feed.stream.cursor ∧
      (s.feed.ep.token.active → s.feed.ep.token.total ≤ usbStreamChunk ∧
        ∀ event, (s.step log b event).feed.stream.buf = s.feed.stream.buf) := by
  intro s
  have inv : s.Inv := run_inv log b (boot_inv ring) events
  refine ⟨Feed.Inv.accepted inv, ?_, ?_, ?_, ?_⟩
  · rw [Feed.unseen]
    split
    · rename_i waits
      exact .inr waits
    · exact .inl rfl
  · exact Nat.le_trans (Feed.Inv.cursor inv) (usbStreamSize_le s.feed.ring).1
  · rw [Sys.run, List.foldl_append]
    exact run_cursor log b inv more
  · intro busy
    obtain ⟨active, total⟩ := Feed.Inv.busy inv busy
    have offer := Feed.Inv.offer inv active
    constructor
    · omega
    · intro event
      exact (step_moves log b inv event).buffer busy

/-- Between a completion and its poll the host is ahead of the cursor. -/
theorem host_ahead_of_cursor :
    let open_ : Gate := ⟨usbModeCmDevice, endptCtrlTxe⟩
    let build : Build := ⟨true, false, 0⟩
    let s := (Sys.boot ⟨0, 0, fun _ => 0⟩).run (fun _ _ => []) build
      [.append [0x41], .streamPoll open_, .transfer 0]
    s.host ≠ ringBytes s.feed.ring 0 s.feed.stream.cursor := by
  decide

end Stage90.Usb

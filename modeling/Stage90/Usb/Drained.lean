import Stage90.Usb.Handover

/-!
# The stream behind a drained ring

A poll with its gates open and no transfer outstanding primes what lies past the cursor, but in one
state: when the stream has drained.  From there it does not come back while the gates stay open.
-/

set_option autoImplicit false

namespace Stage90.Usb

open Stage90.Lib Stage90.Console

/-- No transfer is outstanding, or the one that was has ended. -/
def Feed.Free (f : Feed) : Prop := f.stream.active = false ∨ f.Waiting

def Feed.taken (f : Feed) : Feed := if f.stream.active then f.retired else f

/-- The core has the next bytes of the ring of `f`, a chunk at the most. -/
structure Primed (f f' : Feed) : Prop where
  active : f'.stream.active = true
  cursor : f'.stream.cursor = f.stream.cursor
  last : f'.stream.last = min usbStreamChunk f.available
  linked : f'.ep.linked = true
  primed : f'.ep.primed = true
  token : f'.ep.token = ⟨min usbStreamChunk f.available, true⟩
  bytes : ∀ i < min usbStreamChunk f.available,
    f'.stream.buf i = f.ring.data (f.stream.cursor + i)

def Resumes (log : Ring → Record → List UInt8) (f : Feed) (g : Gate) : Prop :=
  g.device → g.enabled → f.Free → 0 < f.taken.available →
    Primed f.taken (entryUsbStreamPoll log f g)

/-- The poll finds the stream drained, and bytes past the cursor. -/
structure Stalled (f : Feed) (g : Gate) : Prop where
  device : g.device = true
  enabled : g.enabled = true
  rests : f.stream.active = false
  drained : f.stream.state = .drained
  left : 0 < f.available

section Poll
variable {log : Ring → Record → List UInt8} {f f' : Feed} {g : Gate}

theorem open_poll (device : g.device = true) (enabled : g.enabled = true) :
    entryUsbStreamPoll log f g = usbStreamPublish log (usbStreamAdvance log f) := by
  rw [entryUsbStreamPoll, device, enabled]
  rfl

theorem Primed.appends {h : Feed} (primed : Primed h f) (grown : f.Appends f') : Primed h f' := by
  obtain ⟨active, cursor, last, linked, primed, token, bytes⟩ := primed
  constructor
  · rw [grown.stream, active]
  · rw [grown.stream, cursor]
  · rw [grown.stream, last]
  · rw [grown.ep, linked]
  · rw [grown.ep, primed]
  · rw [grown.ep, token]
  · intro i inside
    rw [grown.stream, bytes i inside]

theorem prime_primed (grown : f.Appends f') : Primed f (usbStreamPrime f' f.available) := by
  have chunk : (if usbStreamChunk < f.available then usbStreamChunk else f.available) =
      min usbStreamChunk f.available := by
    split <;> omega
  have small : min usbStreamChunk f.available % 2 ^ 15 = min usbStreamChunk f.available := by
    apply Nat.mod_eq_of_lt
    exact Nat.lt_of_le_of_lt (Nat.min_le_left _ _) (by decide)
  have available := f.available_eq
  have size := (usbStreamSize_le f.ring).1
  have cursor : f'.stream.cursor = f.stream.cursor := by rw [grown.stream]
  rw [usbStreamPrime]
  dsimp only
  rw [chunk, small]
  constructor
  · rfl
  · exact cursor
  · rfl
  · rfl
  · rfl
  · rfl
  · intro i inside
    have below : f.stream.cursor + i < f.ring.size := by omega
    have cell : (ringBytes f'.ring f'.stream.cursor (min usbStreamChunk f.available))[i]? =
        some (f'.ring.data (f'.stream.cursor + i)) := by
      rw [ringBytes, List.getElem?_map, List.getElem?_range inside]
      rfl
    rw [← grown.data _ below, ← cursor]
    dsimp only
    rw [overlay, if_pos (Nat.zero_le i), Nat.sub_zero, cell]
    rfl

theorem stalled_advance (rests : f.stream.active = false) (drained : f.stream.state = .drained) :
    usbStreamAdvance log f = f := by
  rw [usbStreamAdvance, rests, if_neg Bool.false_ne_true, if_neg (not_not_intro drained)]

theorem advance_primed (free : f.Free) (left : 0 < f.taken.available)
    (fresh : f.stream.active = false → f.stream.state ≠ .drained) :
    Primed f.taken (usbStreamAdvance log f) := by
  rw [usbStreamAdvance]
  cases active : f.stream.active with
  | true =>
      rw [Feed.taken, active, if_pos rfl] at left ⊢
      have waits : f.Waiting := free.resolve_left (by rw [active]; decide)
      rw [if_pos rfl, if_pos waits.2, complete_eq (Bool.eq_false_iff.mp waits.1),
        if_neg (Nat.ne_of_gt left)]
      exact prime_primed (.refl f.retired)
  | false =>
      rw [Feed.taken, active, if_neg Bool.false_ne_true] at left ⊢
      rw [if_neg Bool.false_ne_true, if_pos (fresh active)]
      dsimp only
      rw [if_neg (Nat.ne_of_gt left)]
      apply prime_primed
      split
      · exact live_appends log f _ _
      · exact .refl f

/-- A poll pays what it owes unless it finds the stream drained. -/
theorem resumes_iff : Resumes log f g ↔ ¬ Stalled f g := by
  constructor
  · intro resumes stalled
    have owes : 0 < f.taken.available := by
      rw [Feed.taken, stalled.rests, if_neg Bool.false_ne_true]
      exact stalled.left
    have primed := resumes stalled.device stalled.enabled (.inl stalled.rests) owes
    have active := primed.active
    rw [open_poll stalled.device stalled.enabled, (publish_appends log _).stream,
      stalled_advance stalled.rests stalled.drained, stalled.rests] at active
    exact Bool.false_ne_true active
  · intro fresh device enabled free left
    rw [open_poll device enabled]
    refine (advance_primed free left ?_).appends (publish_appends log _)
    intro rests drained
    rw [Feed.taken, rests, if_neg Bool.false_ne_true] at left
    exact fresh ⟨device, enabled, rests, drained, left⟩

end Poll

/-! ## Runs -/

def Event.keepsOpen : Event → Prop
  | .streamPoll g => g.device = true ∧ g.enabled = true
  | _ => True

variable (log : Ring → Record → List UInt8) (b : Build)

theorem drained_step {s : Sys} (rests : s.feed.stream.active = false)
    (drained : s.feed.stream.state = .drained) {event : Event} (open_ : event.keepsOpen) :
    (s.step log b event).feed.stream = s.feed.stream := by
  cases event with
  | append text => rfl
  | streamPoll g =>
      rw [Sys.step, open_poll open_.1 open_.2, (publish_appends log _).stream,
        stalled_advance rests drained]
  | enumPoll r =>
      exact (publishAll_appends log
        { s.feed with ep := (entryUsbEnumPoll b s.enum r).2.1.foldl Endpoint.act s.feed.ep }
        (entryUsbEnumPoll b s.enum r).2.2).stream
  | transfer remaining =>
      rw [Sys.step, Sys.transfer]
      split
      · rfl
      · rfl

theorem drained_run {s : Sys} (rests : s.feed.stream.active = false)
    (drained : s.feed.stream.state = .drained) {events : List Event}
    (open_ : ∀ event ∈ events, event.keepsOpen) :
    (s.run log b events).feed.stream = s.feed.stream := by
  induction events generalizing s with
  | nil => rfl
  | cons event events ih =>
      rw [List.forall_mem_cons] at open_
      have step := drained_step log b rests drained open_.1
      have rest := ih (by rw [step, rests]) (by rw [step, drained]) open_.2
      exact rest.trans step

/-- In a run every poll pays what it owes exactly when none finds the stream drained with bytes
past the cursor; one that does changes nothing of it, nor does any later event while the gates
stay open. -/
theorem stream_resumes_iff (ring : Ring) (events : List Event) :
    ((∀ before gate after, events = before ++ .streamPoll gate :: after →
        Resumes log ((Sys.boot ring).run log b before).feed gate) ↔
      ∀ before gate after, events = before ++ .streamPoll gate :: after →
        ¬ Stalled ((Sys.boot ring).run log b before).feed gate) ∧
      ∀ before gate, Stalled ((Sys.boot ring).run log b before).feed gate →
        ∀ more, (∀ event ∈ more, event.keepsOpen) →
          ((Sys.boot ring).run log b (before ++ more)).feed.stream =
            ((Sys.boot ring).run log b before).feed.stream := by
  constructor
  · simp only [resumes_iff]
  · intro before gate stalled more open_
    rw [Sys.run, List.foldl_append]
    exact drained_run log b stalled.rests stalled.drained open_

/-- An empty ring drains the stream; a byte that comes later is not primed. -/
theorem drained_then_appended :
    let open_ : Gate := ⟨usbModeCmDevice, endptCtrlTxe⟩
    let s := (Sys.boot ⟨0, 0, fun _ => 0⟩).run (fun _ _ => []) ⟨true, false, 0⟩
      [.streamPoll open_, .append [0x41]]
    s.feed.stream.active = false ∧ s.feed.available = 1 ∧
      (entryUsbStreamPoll (fun _ _ => []) s.feed open_).stream.active = false ∧
      (entryUsbStreamPoll (fun _ _ => []) s.feed open_).ep.primed = false := by
  decide

end Stage90.Usb

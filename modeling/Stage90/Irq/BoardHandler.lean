import Stage90.Irq.Registry

/-!
# The board's handler

`msm8974_handle_interrupt` of the platform expert, which takes the interrupts over from the entry
image's handler and reads the same CPU interface.  It wires no dispatch to the drivers.
-/

set_option autoImplicit false

namespace Stage90.Irq

open Stage90.Lib

def msm8974GicSpurious : UInt32 := 0x3ff
def msm8974GicTimerIntid : UInt32 := 20
def msm8974TickHzDiv : UInt32 := 1000
def msm8974CntfrqHz : UInt64 := 19200000

/-- `gicc` is the address at which the CPU interface is mapped, 0 before it is. -/
structure Board where
  gicc : UInt32
  timebaseFrequencyHz : UInt32
  cntfrq : UInt64

inductive BoardEffect where
  | shared (effect : Effect)
  | cntvTval (ticks : UInt32)
  | cntvCtl (value : UInt32)
  deriving DecidableEq

def msm8974TickTicks (b : Board) : UInt32 :=
  let measured := if b.timebaseFrequencyHz = 0 then b.cntfrq.toUInt32 else b.timebaseFrequencyHz
  let hz := if measured = 0 then msm8974CntfrqHz.toUInt32 else measured
  let ticks := hz / msm8974TickHzDiv
  if ticks ≠ 0 then ticks else 1

def msm8974TickArm (b : Board) : List BoardEffect :=
  [.cntvTval (msm8974TickTicks b), .cntvCtl 1]

/-- The end-of-interrupt register is given the id alone. -/
def msm8974HandleInterrupt (b : Board) (iar : UInt32) : List BoardEffect :=
  if b.gicc = 0 then []
  else
    let id := iar &&& 0x3ff
    if id = msm8974GicSpurious then []
    else if id = msm8974GicTimerIntid then
      [.shared (.eoi id), .shared .rtclock] ++ msm8974TickArm b
    else [.shared (.eoi id)]

/-! ## What an interrupt comes to -/

def Effect.eoi? : Effect → Option UInt32
  | .eoi value => some value
  | _ => none

def Effect.client? : Effect → Option Registration
  | .client handler refCon intid => some ⟨intid, handler, refCon⟩
  | _ => none

/-- What the handlers have in common to do: the writes to the end-of-interrupt register and the
calls of clients. -/
structure Service where
  eois : List UInt32
  clients : List Registration
  deriving DecidableEq

def serviceOf (effects : List Effect) : Service :=
  ⟨effects.filterMap Effect.eoi?, effects.filterMap Effect.client?⟩

def BoardEffect.shared? : BoardEffect → Option Effect
  | .shared effect => some effect
  | _ => none

def entryService (s : State) (iar : UInt32) : Service := serviceOf (entryIrqHandler s iar).1

def boardService (b : Board) (iar : UInt32) : Service :=
  serviceOf ((msm8974HandleInterrupt b iar).filterMap BoardEffect.shared?)

/-- An interrupt is completed with the value that was read, and its client called. -/
structure Serves (registry : Registry) (iar : UInt32) (done : Service) : Prop where
  spurious : acknowledged iar = giccSpuriousId → done.eois = []
  once : acknowledged iar ≠ giccSpuriousId → done.eois = [iar]
  client : ∀ r, registry (acknowledged iar) = some r → done.clients = [r]

/-- What the two handlers do with one acknowledged value, the drivers holding `registry`. -/
structure Completes (registry : Registry) (s : State) (b : Board) (iar : UInt32) : Prop where
  spurious : acknowledged iar = giccSpuriousId →
    (entryIrqHandler s iar).1 = [] ∧ msm8974HandleInterrupt b iar = []
  entry : acknowledged iar ≠ giccSpuriousId → (entryService s iar).eois = [iar]
  board : acknowledged iar ≠ giccSpuriousId → b.gicc ≠ 0 →
    ∃ value, (boardService b iar).eois = [value] ∧ acknowledged value = acknowledged iar
  timer : acknowledged iar = gicTimerIntid → b.gicc ≠ 0 →
    (entryIrqHandler s iar).1 = [.eoi iar, .rtclock] ∧
      ∃ value, msm8974HandleInterrupt b iar =
        [.shared (.eoi value), .shared .rtclock] ++ msm8974TickArm b
  client : ∀ r, registry (acknowledged iar) = some r →
    (entryIrqHandler s iar).1 = [.eoi iar, .client r.handler r.refCon r.intid] ∨
      ((entryIrqHandler s iar).1 = [.eoi iar, .epilogue] ∧
        ∃ i, s.table.entry i = r ∧ irqClientCap < s.calls i + 1)
  undispatched : (boardService b iar).clients = []
  unmapped : b.gicc = 0 → msm8974HandleInterrupt b iar = []

section Handlers
variable {registry : Registry} {s : State} {b : Board} {iar : UInt32}

theorem acknowledged_acknowledged : acknowledged (acknowledged iar) = acknowledged iar := by
  simp [acknowledged, UInt32.and_assoc]

theorem shared_eq : (msm8974HandleInterrupt b iar).filterMap BoardEffect.shared? =
    if b.gicc = 0 ∨ acknowledged iar = giccSpuriousId then []
    else if acknowledged iar = gicTimerIntid then [.eoi (acknowledged iar), .rtclock]
    else [.eoi (acknowledged iar)] := by
  change _ = if b.gicc = 0 ∨ iar &&& 0x3ff = msm8974GicSpurious then []
    else if iar &&& 0x3ff = msm8974GicTimerIntid then [Effect.eoi (iar &&& 0x3ff), Effect.rtclock]
    else [Effect.eoi (iar &&& 0x3ff)]
  unfold msm8974HandleInterrupt
  by_cases unmapped : b.gicc = 0
  · simp [unmapped]
  by_cases spurious : iar &&& 0x3ff = msm8974GicSpurious
  · simp [spurious]
  by_cases timer : iar &&& 0x3ff = msm8974GicTimerIntid
  · simp [unmapped, timer, msm8974TickArm, BoardEffect.shared?, msm8974GicTimerIntid,
      msm8974GicSpurious]
  · simp [unmapped, spurious, timer, BoardEffect.shared?]

theorem boardService_eois (mapped : b.gicc ≠ 0) (other : acknowledged iar ≠ giccSpuriousId) :
    (boardService b iar).eois = [acknowledged iar] := by
  unfold boardService serviceOf
  rw [shared_eq, if_neg (not_or.mpr ⟨mapped, other⟩)]
  split_ifs <;> rfl

theorem boardService_clients : (boardService b iar).clients = [] := by
  unfold boardService serviceOf
  rw [shared_eq]
  split_ifs <;> rfl

theorem msm8974HandleInterrupt_spurious (spurious : acknowledged iar = giccSpuriousId) :
    msm8974HandleInterrupt b iar = [] := by
  have same : iar &&& 0x3ff = msm8974GicSpurious := spurious
  unfold msm8974HandleInterrupt
  split_ifs with unmapped
  · rfl
  · simp [same]

theorem msm8974HandleInterrupt_timer (mapped : b.gicc ≠ 0)
    (timer : acknowledged iar = gicTimerIntid) : msm8974HandleInterrupt b iar =
      [.shared (.eoi (acknowledged iar)), .shared .rtclock] ++ msm8974TickArm b := by
  have same : iar &&& 0x3ff = msm8974GicTimerIntid := timer
  have other : iar &&& 0x3ff ≠ msm8974GicSpurious := by
    rw [same]
    decide
  unfold msm8974HandleInterrupt
  rw [if_neg mapped]
  dsimp only
  rw [if_neg other, if_pos same]
  rfl

theorem entryService_eois (other : acknowledged iar ≠ giccSpuriousId) :
    (entryService s iar).eois = [iar] := by
  unfold entryService entryIrqHandler
  simp only [if_neg other]
  split
  · rfl
  · cases clientSlot s.table (acknowledged iar) with
    | some i =>
        dsimp only
        split <;> rfl
    | none => rfl

end Handlers

/-- Either handler completes the interrupt that it has acknowledged; only the entry image's calls
the line's client. -/
theorem handlers_complete (b : Board) (ops : List Op) (iar : UInt32) :
    Completes (registered (execute step boot ops).1) (execute step boot ops).2 b iar := by
  have coherent := coherent_run ops
  have arrival := arrival_coherent coherent iar
  constructor
  case spurious =>
    exact fun spurious => ⟨arrival.spurious spurious, msm8974HandleInterrupt_spurious spurious⟩
  case entry => exact entryService_eois
  case board =>
    exact fun other mapped => ⟨_, boardService_eois mapped other, acknowledged_acknowledged⟩
  case timer =>
    exact fun timer mapped => ⟨arrival.timer timer, _, msm8974HandleInterrupt_timer mapped timer⟩
  case client =>
    intro r held
    obtain ⟨i, _, line, entry⟩ := coherent.found _ r held
    have own : r.intid = acknowledged iar := by
      rw [← entry]
      exact line
    rw [own]
    exact arrival.client r held
  case undispatched => exact boardService_clients
  case unmapped =>
    intro unmapped
    unfold msm8974HandleInterrupt
    rw [if_pos unmapped]

/-! ## A line with a client -/

def mappedBoard : Board := ⟨0x80002000, 19200000, 19200000⟩

/-- A driver's line, which the board's handler acknowledges and does not serve. -/
theorem board_drops_client :
    ¬ ∀ (b : Board) (ops : List Op) (iar : UInt32), b.gicc ≠ 0 →
      boardService b iar = entryService (execute step boot ops).2 iar ∧
        Serves (registered (execute step boot ops).1) iar (boardService b iar) ∧
        Serves (registered (execute step boot ops).1) iar
          (entryService (execute step boot ops).2 iar) := by
  intro every
  obtain ⟨_, serves, _⟩ := every mappedBoard [.register ⟨40, 0x80001000, 7⟩] 40 (by decide)
  have called := serves.client ⟨40, 0x80001000, 7⟩ (by decide)
  rw [boardService_clients] at called
  cases called

end Stage90.Irq

import Stage90.Irq.EnableLine
import Stage90.Lib.RingBuffer

/-!
# The watchdog that samples the program counter

`stage90_irq_c_handler` of `gic.c` under `stage90_arm_pc_sampling_watchdog`: every interrupt leaves
its PC in a ring, a timer tick also costs budget, and the tick that spends the last of it dumps the
ring and reboots.
-/

set_option autoImplicit false

namespace Stage90.Irq.Sampling

open Stage90.Lib

def giccEoir : UInt32 := 0x010
def giccIarIntidMask : UInt32 := 0x3ff
def giccSpuriousId : UInt32 := 0x3ff
def gicSgi0Id : UInt32 := 0x000
def gicTimerPpi0Id : UInt32 := 18
def gicTimerPpi1Id : UInt32 := 19
def gicTimerPpiMask : UInt32 := (1 <<< gicTimerPpi0Id) ||| (1 <<< gicTimerPpi1Id)
def cntpCtlEnable : UInt32 := 0x1
def cntpCtlImask : UInt32 := 0x2
def stage90IrqSampleRingSize : UInt32 := 16

inductive Effect
  | mmioWrite32 (addr value : UInt32)
  | writeCntpTval (value : UInt32)
  | writeCntpCtl (value : UInt32)
  | disableIrqDelivery
  | enableIrqDelivery
  | xnuLogPuts (text : String)
  | xnuLogKv32 (key : String) (value : UInt32)
  | logPuts (text : String)
  | logHex32 (value : UInt32)
  | platformReboot

/-- `stage90_irq_count` to `stage90_other_irq_count`, `stage90_irq_sample_count` to
`stage90_irq_sample_watchdog_fired`, and the two bases of the snapshot. -/
structure Statics where
  irqCount : UInt32
  lastIar : UInt32
  lastIrqId : UInt32
  sgi0Count : UInt32
  spuriousIrqCount : UInt32
  timerIrqCount : UInt32
  lastTimerIrqId : UInt32
  lastTimerCtl : UInt32
  otherIrqCount : UInt32
  sampleCount : UInt32
  sampleRing : Nat → UInt32
  budgetUsed : UInt32
  lastSampledPc : UInt32
  sampleMode : UInt32
  sampleIntervalTicks : UInt32
  sampleMax : UInt32
  watchdogFired : UInt32
  distBase : UInt32
  cpuBase : UInt32

/-- What `GICC_IAR` acknowledges, the interrupted PC, and what `CNTP_CTL` reads, first in the
handler and again in a shutdown. -/
structure Interrupt where
  iar : UInt32
  pc : UInt32
  ctl : UInt32
  shutdownCtl : UInt32

def Interrupt.intid (i : Interrupt) : UInt32 := i.iar &&& giccIarIntidMask

/-! ## The code -/

def timebaseUsecToTicks (usec : UInt32) : UInt32 :=
  let q := usec / 5
  let r := usec % 5
  q * 96 + r * 96 / 5

def genericTimerShutdown (ctl : UInt32) : List Effect :=
  [.writeCntpCtl ((ctl ||| cntpCtlImask) &&& ~~~cntpCtlEnable)]

def stage90DumpPcSamples (s : Statics) : List Effect :=
  let total := s.sampleCount
  let toPrint := if total < stage90IrqSampleRingSize then total else stage90IrqSampleRingSize
  [.xnuLogPuts "stage90 pc-samples: begin\n",
    .xnuLogKv32 "pc_sample_total" total,
    .xnuLogKv32 "pc_sample_budget_used" s.budgetUsed,
    .xnuLogKv32 "pc_sample_watchdog_fired" s.watchdogFired,
    .xnuLogKv32 "pc_sample_timer_irq_count" s.timerIrqCount,
    .xnuLogKv32 "pc_sample_last_pc" s.lastSampledPc] ++
  (List.range toPrint.toNat).map (fun i => .xnuLogKv32 "pc_sample" (s.sampleRing i)) ++
  [.xnuLogPuts "stage90 pc-samples: end\n"]

/-- What the handler returns.  `rebooted` says that it does not: `platform_reboot` is `noreturn`. -/
structure Answer where
  effects : List Effect
  statics : Statics
  rebooted : Bool

/-- The log line of the first eight interrupts. -/
def irqLine (s : Statics) (i : Interrupt) : List Effect :=
  if s.irqCount ≤ 8 then
    [.logPuts "MI4IOS6_STAGE90 irq handler iar=", .logHex32 i.iar, .logPuts " id=",
      .logHex32 i.intid, .logPuts " count=", .logHex32 s.irqCount, .logPuts " timer_count=",
      .logHex32 s.timerIrqCount, .logPuts "\n"]
  else
    []

def sample (s : Statics) (i : Interrupt) : Statics :=
  { s with
    irqCount := s.irqCount + 1
    lastIar := i.iar
    lastIrqId := i.intid
    lastSampledPc := i.pc
    sampleRing :=
      Function.update s.sampleRing (s.sampleCount % stage90IrqSampleRingSize).toNat i.pc
    sampleCount := s.sampleCount + 1 }

def leave (i : Interrupt) (effects : List Effect) (s : Statics) : Answer where
  effects := effects ++ irqLine s i ++
    if i.intid ≠ giccSpuriousId then [.mmioWrite32 (s.cpuBase + giccEoir) i.iar] else []
  statics := s
  rebooted := false

def stage90IrqCHandler (s : Statics) (i : Interrupt) : Answer :=
  let s := sample s i
  if i.intid = gicSgi0Id then
    leave i [] { s with sgi0Count := s.sgi0Count + 1 }
  else if i.intid = gicTimerPpi0Id ∨ i.intid = gicTimerPpi1Id then
    let s :=
      { s with
        timerIrqCount := s.timerIrqCount + 1
        lastTimerIrqId := i.intid
        lastTimerCtl := i.ctl }
    if s.sampleMode = 1 then
      let s := { s with budgetUsed := s.budgetUsed + 1 }
      if s.budgetUsed < s.sampleMax then
        leave i [.writeCntpTval s.sampleIntervalTicks, .writeCntpCtl cntpCtlEnable] s
      else
        let s := { s with watchdogFired := 1 }
        { effects := genericTimerShutdown i.shutdownCtl ++ [.disableIrqDelivery] ++
            stage90DumpPcSamples s ++
            [.mmioWrite32 (s.cpuBase + giccEoir) i.iar,
              .xnuLogPuts "stage90 pc-sampling watchdog: rebooting after sample dump\n",
              .platformReboot]
          statics := s
          rebooted := true }
    else
      leave i (genericTimerShutdown i.shutdownCtl) s
  else if i.intid = giccSpuriousId then
    leave i [] { s with spuriousIrqCount := s.spuriousIrqCount + 1 }
  else
    leave i [] { s with otherIrqCount := s.otherIrqCount + 1 }

def resetIrqCounters (s : Statics) : Statics :=
  { s with
    irqCount := 0
    lastIar := 0xffffffff
    lastIrqId := 0xffffffff
    sgi0Count := 0
    spuriousIrqCount := 0
    timerIrqCount := 0
    lastTimerIrqId := 0xffffffff
    lastTimerCtl := 0xffffffff
    otherIrqCount := 0
    sampleCount := 0
    budgetUsed := 0
    lastSampledPc := 0xffffffff
    sampleRing := fun slot => if slot < stage90IrqSampleRingSize.toNat then 0 else s.sampleRing slot }

/-- `ctl` and `ctlArmed` are what `CNTP_CTL` reads at the shutdown and at the end. -/
def stage90ArmPcSamplingWatchdog (s : Statics) (ctl ctlArmed intervalUs maxSamples : UInt32) :
    UInt32 × List Effect × Statics :=
  let intervalTicks := timebaseUsecToTicks intervalUs
  let effects := [.xnuLogPuts "stage90 pc-sampling watchdog: arming\n",
    .xnuLogKv32 "watchdog_interval_us" intervalUs,
    .xnuLogKv32 "watchdog_max_samples" maxSamples,
    .xnuLogKv32 "watchdog_interval_ticks" intervalTicks,
    .disableIrqDelivery] ++ genericTimerShutdown ctl
  let s :=
    { resetIrqCounters s with
      watchdogFired := 0
      sampleIntervalTicks := intervalTicks
      sampleMax := maxSamples
      sampleMode := 0 }
  if s.distBase = 0 ∨ s.cpuBase = 0 then
    (0, effects ++ [.xnuLogPuts "stage90 pc-sampling watchdog: ERROR missing GIC bases\n"], s)
  else
    (1, effects ++
      [.mmioWrite32 (s.distBase + gicdIsenabler0) gicTimerPpiMask,
        .writeCntpTval intervalTicks,
        .writeCntpCtl cntpCtlEnable,
        .enableIrqDelivery,
        .xnuLogKv32 "watchdog_cntp_ctl_armed" ctlArmed],
      { s with sampleMode := 1 })

/-! ## Runs -/

structure Ran where
  handled : List (Interrupt × List Effect)
  statics : Statics
  rebooted : Bool

def run : Statics → List Interrupt → Ran
  | s, [] => ⟨[], s, false⟩
  | s, i :: rest =>
      let answer := stage90IrqCHandler s i
      if answer.rebooted then
        ⟨[(i, answer.effects)], answer.statics, true⟩
      else
        let later := run answer.statics rest
        ⟨(i, answer.effects) :: later.handled, later.statics, later.rebooted⟩

/-! ## What the watchdog is for -/

def Interrupt.Timer (i : Interrupt) : Prop := i.intid = gicTimerPpi0Id ∨ i.intid = gicTimerPpi1Id

instance (i : Interrupt) : Decidable i.Timer := inferInstanceAs (Decidable (_ ∨ _))

def Interrupt.Spurious (i : Interrupt) : Prop := i.intid = giccSpuriousId

instance (i : Interrupt) : Decidable i.Spurious := inferInstanceAs (Decidable (_ = _))

def timers (is : List Interrupt) : Nat := is.countP fun i => i.Timer

/-- The interrupts through the `n`-th one of the timer. -/
def upTo : Nat → List Interrupt → List Interrupt
  | _, [] => []
  | n, i :: rest =>
      if i.Timer then if n ≤ 1 then [i] else i :: upTo (n - 1) rest else i :: upTo n rest

/-- The values that are written to `GICC_EOIR`. -/
def eois (cpuBase : UInt32) (effects : List Effect) : List UInt32 :=
  effects.filterMap fun effect =>
    match effect with
    | .mmioWrite32 addr value => if addr = cpuBase + giccEoir then some value else none
    | _ => none

def samples (effects : List Effect) : List UInt32 :=
  effects.filterMap fun effect =>
    match effect with
    | .xnuLogKv32 key value => if key = "pc_sample" then some value else none
    | _ => none

def interrupted (max : Nat) (is : List Interrupt) : List UInt32 := (upTo max is).map Interrupt.pc

structure Watched (max : Nat) (start : Statics) (is : List Interrupt) : Prop where
  fires : (run start is).rebooted = true ↔ max ≤ timers is
  handled : (run start is).handled.map Prod.fst = upTo max is
  flag : (run start is).statics.watchdogFired = if (run start is).rebooted then 1 else 0
  eoi : ∀ answered ∈ (run start is).handled,
    eois start.cpuBase answered.2 = if answered.1.Spurious then [] else [answered.1.iar]
  dump : samples (stage90DumpPcSamples (run start is).statics) = recent 16 (interrupted max is)
  dumped : (run start is).rebooted = true → ∃ last, (run start is).handled.getLast? = some last ∧
    samples last.2 = recent 16 (interrupted max is)

/-- The ring has not wrapped, or its PCs are the same rotated.  `stage90_irq_sample_count` is a
32-bit word. -/
def InOrder (pcs : List UInt32) : Prop :=
  pcs.length < 16 ∨
    16 ≤ pcs.length % 2 ^ 32 ∧ (recent 16 pcs).rotate pcs.length = recent 16 pcs

/-! ## One interrupt -/

section Handler
variable {max base : UInt32} {seen : List Interrupt} {s : Statics} {i : Interrupt}

structure Recorded (seen : List Interrupt) (s : Statics) : Prop where
  count : s.sampleCount = UInt32.ofNat seen.length
  ring : RingHolds 16 s.sampleRing (seen.map Interrupt.pc)

/-- Sampling goes on: less than the budget is spent, and only timer ticks have cost any. -/
structure Armed (max base : UInt32) (seen : List Interrupt) (s : Statics) : Prop where
  recorded : Recorded seen s
  mode : s.sampleMode = 1
  limit : s.sampleMax = max
  cpu : s.cpuBase = base
  flag : s.watchdogFired = 0
  budget : s.budgetUsed.toNat = timers seen
  below : timers seen < max.toNat

theorem timers_snoc (seen : List Interrupt) (i : Interrupt) :
    timers (seen ++ [i]) = timers seen + if i.Timer then 1 else 0 := by
  rw [timers, timers, List.countP_append, List.countP_singleton]
  simp only [decide_eq_true_eq]

/-- The slot is the length of the run, also where the count has wrapped. -/
theorem slot_eq (n : Nat) : (UInt32.ofNat n % stage90IrqSampleRingSize).toNat = n % 16 := by
  rw [UInt32.toNat_mod, UInt32.toNat_ofNat']
  exact Nat.mod_mod_of_dvd n (by decide)

theorem recorded_sample (recorded : Recorded seen s) (i : Interrupt) :
    Recorded (seen ++ [i]) (sample s i) := by
  constructor
  · rw [sample, recorded.count, List.length_append, List.length_singleton, UInt32.ofNat_add]
    rfl
  · have stored := ringHolds_snoc recorded.ring i.pc
    rw [List.length_map, ← slot_eq, ← recorded.count] at stored
    rwa [List.map_append]

theorem recorded_of_eq {s' : Statics} (recorded : Recorded seen s)
    (count : s'.sampleCount = s.sampleCount) (ring : s'.sampleRing = s.sampleRing) :
    Recorded seen s' :=
  ⟨count.trans recorded.count, ring ▸ recorded.ring⟩

theorem eois_append (first second : List Effect) :
    eois base (first ++ second) = eois base first ++ eois base second :=
  List.filterMap_append

theorem samples_append (first second : List Effect) :
    samples (first ++ second) = samples first ++ samples second :=
  List.filterMap_append

theorem eois_dump (s : Statics) : eois base (stage90DumpPcSamples s) = [] := by
  rw [stage90DumpPcSamples, eois_append, eois_append, eois, eois, List.filterMap_map]
  simp [eois]

theorem eois_eoir (value : UInt32) (rest : List Effect) :
    eois base (.mmioWrite32 (base + giccEoir) value :: rest) = value :: eois base rest :=
  List.filterMap_cons_some (if_pos rfl)

theorem eois_irqLine (s : Statics) (i : Interrupt) : eois base (irqLine s i) = [] := by
  rw [irqLine]
  split <;> rfl

theorem eois_leave {effects : List Effect} (none : eois base effects = []) (cpu : s.cpuBase = base) :
    eois base (leave i effects s).effects = if i.Spurious then [] else [i.iar] := by
  simp only [leave, eois_append, none, eois_irqLine, List.nil_append, cpu, ne_eq]
  by_cases spurious : i.Spurious
  · rw [if_pos spurious]
    exact congrArg (eois base) (if_neg (not_not.mpr spurious))
  · rw [if_neg spurious]
    exact (congrArg (eois base) (if_pos spurious)).trans (eois_eoir i.iar [])

theorem handler_other (armed : Armed max base seen s) (other : ¬ i.Timer) :
    (stage90IrqCHandler s i).rebooted = false ∧
      Armed max base (seen ++ [i]) (stage90IrqCHandler s i).statics ∧
      eois base (stage90IrqCHandler s i).effects = if i.Spurious then [] else [i.iar] := by
  have silent : ¬ (i.intid = gicTimerPpi0Id ∨ i.intid = gicTimerPpi1Id) := other
  have recorded := recorded_sample armed.recorded i
  have same : timers (seen ++ [i]) = timers seen := by rw [timers_snoc, if_neg other, Nat.add_zero]
  have budget : s.budgetUsed.toNat = timers (seen ++ [i]) := armed.budget.trans same.symm
  have below : timers (seen ++ [i]) < max.toNat := same.symm ▸ armed.below
  have kept : ∀ s' : Statics, s'.sampleCount = (sample s i).sampleCount →
      s'.sampleRing = (sample s i).sampleRing → s'.sampleMode = s.sampleMode →
      s'.sampleMax = s.sampleMax → s'.cpuBase = s.cpuBase → s'.watchdogFired = s.watchdogFired →
      s'.budgetUsed = s.budgetUsed → Armed max base (seen ++ [i]) s' := by
    intro s' count ring mode limit cpu flag used
    exact ⟨recorded_of_eq recorded count ring, mode.trans armed.mode, limit.trans armed.limit,
      cpu.trans armed.cpu, flag.trans armed.flag, used ▸ budget, below⟩
  rw [stage90IrqCHandler]
  dsimp only
  by_cases sgi : i.intid = gicSgi0Id
  · rw [if_pos sgi]
    exact ⟨rfl, kept _ rfl rfl rfl rfl rfl rfl rfl, eois_leave rfl armed.cpu⟩
  · rw [if_neg sgi, if_neg silent]
    by_cases spurious : i.intid = giccSpuriousId
    · rw [if_pos spurious]
      exact ⟨rfl, kept _ rfl rfl rfl rfl rfl rfl rfl, eois_leave rfl armed.cpu⟩
    · rw [if_neg spurious]
      exact ⟨rfl, kept _ rfl rfl rfl rfl rfl rfl rfl, eois_leave rfl armed.cpu⟩

theorem not_sgi_of_timer (timer : i.Timer) : ¬ i.intid = gicSgi0Id := by
  intro sgi
  rcases timer with first | second
  · exact absurd (sgi.symm.trans first) (by decide)
  · exact absurd (sgi.symm.trans second) (by decide)

theorem not_spurious_of_timer (timer : i.Timer) : ¬ i.Spurious := by
  intro spurious
  rcases timer with first | second
  · exact absurd (spurious.symm.trans first) (by decide)
  · exact absurd (spurious.symm.trans second) (by decide)

theorem toNat_spent (armed : Armed max base seen s) :
    (s.budgetUsed + 1).toNat = timers seen + 1 := by
  have small := max.toNat_lt
  have below := armed.below
  rw [UInt32.toNat_add, UInt32.toNat_one, armed.budget, Nat.mod_eq_of_lt]
  omega

theorem handler_tick (armed : Armed max base seen s) (timer : i.Timer)
    (more : timers seen + 1 < max.toNat) :
    (stage90IrqCHandler s i).rebooted = false ∧
      Armed max base (seen ++ [i]) (stage90IrqCHandler s i).statics ∧
      eois base (stage90IrqCHandler s i).effects = if i.Spurious then [] else [i.iar] := by
  have tick : i.intid = gicTimerPpi0Id ∨ i.intid = gicTimerPpi1Id := timer
  have recorded := recorded_sample armed.recorded i
  have ticked : timers (seen ++ [i]) = timers seen + 1 := by rw [timers_snoc, if_pos timer]
  have spent := toNat_spent armed
  have mode : (sample s i).sampleMode = 1 := armed.mode
  have less : (sample s i).budgetUsed + 1 < (sample s i).sampleMax :=
    UInt32.lt_iff_toNat_lt.mpr (by rw [sample, spent, armed.limit]; exact more)
  rw [stage90IrqCHandler]
  dsimp only
  rw [if_neg (not_sgi_of_timer timer), if_pos tick, if_pos mode, if_pos less]
  refine ⟨rfl, ?_, eois_leave rfl armed.cpu⟩
  exact ⟨recorded_of_eq recorded rfl rfl, armed.mode, armed.limit, armed.cpu, armed.flag,
    spent.trans ticked.symm, ticked.symm ▸ more⟩

/-- The tick that spends the last of the budget dumps and reboots. -/
theorem handler_last (armed : Armed max base seen s) (timer : i.Timer)
    (last : timers seen + 1 = max.toNat) :
    (stage90IrqCHandler s i).rebooted = true ∧
      (stage90IrqCHandler s i).statics.watchdogFired = 1 ∧
      Recorded (seen ++ [i]) (stage90IrqCHandler s i).statics ∧
      eois base (stage90IrqCHandler s i).effects = [i.iar] ∧
      samples (stage90IrqCHandler s i).effects =
        samples (stage90DumpPcSamples (stage90IrqCHandler s i).statics) := by
  have tick : i.intid = gicTimerPpi0Id ∨ i.intid = gicTimerPpi1Id := timer
  have recorded := recorded_sample armed.recorded i
  have spent := toNat_spent armed
  have mode : (sample s i).sampleMode = 1 := armed.mode
  have most : ¬ (sample s i).budgetUsed + 1 < (sample s i).sampleMax := by
    rw [UInt32.lt_iff_toNat_lt, sample, spent, armed.limit]
    exact Nat.not_lt.mpr last.ge
  rw [stage90IrqCHandler]
  dsimp only
  rw [if_neg (not_sgi_of_timer timer), if_pos tick, if_pos mode, if_neg most]
  refine ⟨rfl, rfl, recorded_of_eq recorded rfl rfl, ?_, ?_⟩
  · have cpu : (sample s i).cpuBase = base := armed.cpu
    rw [cpu, eois_append, eois_append, eois_append, eois_dump, eois_eoir]
    rfl
  · rw [samples_append, samples_append, samples_append]
    exact List.append_nil _

theorem handler_returns (armed : Armed max base seen s)
    (early : ¬ (i.Timer ∧ timers seen + 1 = max.toNat)) :
    (stage90IrqCHandler s i).rebooted = false ∧
      Armed max base (seen ++ [i]) (stage90IrqCHandler s i).statics ∧
      eois base (stage90IrqCHandler s i).effects = if i.Spurious then [] else [i.iar] := by
  by_cases timer : i.Timer
  · have below := armed.below
    have more : timers seen + 1 ≠ max.toNat := fun last => early ⟨timer, last⟩
    exact handler_tick armed timer (by omega)
  · exact handler_other armed timer

end Handler

/-! ## A run -/

section Run
variable {max base : UInt32} {seen : List Interrupt} {s : Statics}

structure Outcome (max base : UInt32) (seen is : List Interrupt) (ran : Ran) : Prop where
  fires : ran.rebooted = true ↔ max.toNat ≤ timers seen + timers is
  handled : ran.handled.map Prod.fst = upTo (max.toNat - timers seen) is
  flag : ran.statics.watchdogFired = if ran.rebooted then 1 else 0
  eoi : ∀ answered ∈ ran.handled,
    eois base answered.2 = if answered.1.Spurious then [] else [answered.1.iar]
  recorded : Recorded (seen ++ upTo (max.toNat - timers seen) is) ran.statics
  dumped : ran.rebooted = true → ∃ last, ran.handled.getLast? = some last ∧
    samples last.2 = samples (stage90DumpPcSamples ran.statics)

theorem timers_cons (i : Interrupt) (is : List Interrupt) :
    timers (i :: is) = timers is + if i.Timer then 1 else 0 := by
  rw [timers, timers, List.countP_cons]
  simp only [decide_eq_true_eq]

theorem outcome_nil (armed : Armed max base seen s) : Outcome max base seen [] (run s []) := by
  have below := armed.below
  constructor
  · constructor
    · intro rebooted
      exact nomatch rebooted
    · intro reached
      have none : timers [] = 0 := rfl
      omega
  · rfl
  · exact armed.flag
  · intro answered mem
    exact absurd mem List.not_mem_nil
  · rw [upTo, List.append_nil]
    exact armed.recorded
  · intro rebooted
    exact nomatch rebooted

theorem outcome_last (armed : Armed max base seen s) {i : Interrupt} (rest : List Interrupt)
    (timer : i.Timer) (last : timers seen + 1 = max.toNat) :
    Outcome max base seen (i :: rest) (run s (i :: rest)) := by
  obtain ⟨rebooted, flag, recorded, eoi, dumped⟩ := handler_last armed timer last
  have stop : upTo (max.toNat - timers seen) (i :: rest) = [i] := by
    rw [upTo, if_pos timer, if_pos (by omega)]
  have whole : run s (i :: rest) = ⟨[(i, (stage90IrqCHandler s i).effects)],
      (stage90IrqCHandler s i).statics, true⟩ := if_pos rebooted
  rw [whole]
  constructor
  · rw [timers_cons, if_pos timer]
    exact iff_of_true rfl (by omega)
  · exact stop.symm
  · exact flag
  · intro answered mem
    rw [List.mem_singleton.mp mem, if_neg (not_spurious_of_timer timer)]
    exact eoi
  · rw [stop]
    exact recorded
  · intro _
    exact ⟨_, rfl, dumped⟩

theorem outcome_cons (armed : Armed max base seen s) {i : Interrupt} {rest : List Interrupt}
    (early : ¬ (i.Timer ∧ timers seen + 1 = max.toNat))
    (later : Outcome max base (seen ++ [i]) rest (run (stage90IrqCHandler s i).statics rest)) :
    Outcome max base seen (i :: rest) (run s (i :: rest)) := by
  obtain ⟨returned, _, eoi⟩ := handler_returns armed early
  have below := armed.below
  have goesOn : upTo (max.toNat - timers seen) (i :: rest) =
      i :: upTo (max.toNat - timers (seen ++ [i])) rest := by
    rw [upTo, timers_snoc]
    by_cases timer : i.Timer
    · have more : timers seen + 1 ≠ max.toNat := fun last => early ⟨timer, last⟩
      rw [if_pos timer, if_neg (by omega), if_pos timer, Nat.sub_add_eq]
    · rw [if_neg timer, if_neg timer, Nat.add_zero]
  have whole : run s (i :: rest) =
      ⟨(i, (stage90IrqCHandler s i).effects) :: (run (stage90IrqCHandler s i).statics rest).handled,
        (run (stage90IrqCHandler s i).statics rest).statics,
        (run (stage90IrqCHandler s i).statics rest).rebooted⟩ :=
    if_neg (by rw [returned]; exact Bool.false_ne_true)
  rw [whole]
  constructor
  · rw [later.fires, timers_snoc, timers_cons]
    exact iff_of_eq (congrArg _ (by omega))
  · rw [goesOn, List.map_cons, later.handled]
  · exact later.flag
  · intro answered mem
    rcases List.mem_cons.mp mem with rfl | after
    · exact eoi
    · exact later.eoi answered after
  · have recorded := later.recorded
    rwa [List.append_assoc, List.singleton_append, ← goesOn] at recorded
  · intro rebooted
    obtain ⟨last, there, dumped⟩ := later.dumped rebooted
    refine ⟨last, ?_, dumped⟩
    rw [List.getLast?_cons, there]
    rfl

/-- By induction on the interrupts, with what the watchdog has seen generalized. -/
theorem run_outcome (armed : Armed max base seen s) (is : List Interrupt) :
    Outcome max base seen is (run s is) := by
  induction is generalizing seen s with
  | nil => exact outcome_nil armed
  | cons i rest ih =>
      by_cases last : i.Timer ∧ timers seen + 1 = max.toNat
      · exact outcome_last armed rest last.1 last.2
      · exact outcome_cons armed last (ih (handler_returns armed last).2.1)

/-! ## The dump -/

theorem samples_dump (s : Statics) : samples (stage90DumpPcSamples s) =
    (List.range (min s.sampleCount.toNat 16)).map s.sampleRing := by
  have printed : (if s.sampleCount < stage90IrqSampleRingSize then s.sampleCount
      else stage90IrqSampleRingSize).toNat = min s.sampleCount.toNat 16 := by
    have size : stage90IrqSampleRingSize.toNat = 16 := rfl
    split
    · rename_i few
      rw [UInt32.lt_iff_toNat_lt, size] at few
      omega
    · rename_i many
      rw [UInt32.lt_iff_toNat_lt, size] at many
      omega
  rw [stage90DumpPcSamples, samples_append, samples_append, printed]
  simp [samples, List.filterMap_map, List.filterMap_eq_map']

/-- A dump is in order exactly if the ring is. -/
theorem dump_iff_inOrder (recorded : Recorded seen s) :
    samples (stage90DumpPcSamples s) = recent 16 (seen.map Interrupt.pc) ↔
      InOrder (seen.map Interrupt.pc) := by
  have total : s.sampleCount.toNat = seen.length % 2 ^ 32 := by
    rw [recorded.count, UInt32.toNat_ofNat']
  have length : (seen.map Interrupt.pc).length = seen.length := List.length_map _
  rw [samples_dump, total, InOrder]
  by_cases few : seen.length < 16
  · have whole : min (seen.length % 2 ^ 32) 16 = (seen.map Interrupt.pc).length := by
      rw [length, Nat.mod_eq_of_lt (by omega)]
      omega
    rw [whole]
    exact iff_of_true (map_range_of_le recorded.ring (by omega)) (Or.inl (by omega))
  · by_cases full : 16 ≤ seen.length % 2 ^ 32
    · rw [Nat.min_eq_right full, map_range_eq_iff recorded.ring (by omega), length]
      simp only [few, full, false_or, true_and]
    · apply iff_of_false
      · intro same
        have lengths := congrArg List.length same
        rw [List.length_map, List.length_range, length_recent, length] at lengths
        omega
      · rw [length]
        intro inOrder
        rcases inOrder with short | wrapped
        · exact few short
        · exact full wrapped.1

/-! ## From the arming -/

def armedStatics (s : Statics) (ctl ctlArmed intervalUs maxSamples : UInt32) : Statics :=
  (stage90ArmPcSamplingWatchdog s ctl ctlArmed intervalUs maxSamples).2.2

theorem armed_start {ctl ctlArmed intervalUs : UInt32} (positive : 1 ≤ max)
    (answer : (stage90ArmPcSamplingWatchdog s ctl ctlArmed intervalUs max).1 = 1) :
    Armed max s.cpuBase [] (armedStatics s ctl ctlArmed intervalUs max) ∧
      (armedStatics s ctl ctlArmed intervalUs max).cpuBase = s.cpuBase := by
  rw [armedStatics]
  rw [stage90ArmPcSamplingWatchdog] at answer ⊢
  dsimp only at answer ⊢
  split at answer
  · have refused : (0 : UInt32) = 1 := answer
    exact absurd refused (by decide)
  · rename_i bases
    rw [if_neg bases]
    have below : timers [] < max.toNat := UInt32.le_iff_toNat_le.mp positive
    exact ⟨⟨⟨rfl, ringHolds_nil _⟩, rfl, rfl, rfl, rfl, rfl, below⟩, rfl⟩

/-- Whatever is interrupted by whatever, the watchdog fires at the last tick of its budget and every
interrupt is ended once.  Its dump is the newest samples in order if, and only if, the ring that it
reads from slot 0 is. -/
theorem watched_iff_inOrder (s : Statics) (ctl ctlArmed intervalUs maxSamples : UInt32)
    (positive : 1 ≤ maxSamples)
    (answer : (stage90ArmPcSamplingWatchdog s ctl ctlArmed intervalUs maxSamples).1 = 1)
    (is : List Interrupt) :
    Watched maxSamples.toNat (armedStatics s ctl ctlArmed intervalUs maxSamples) is ↔
      InOrder (interrupted maxSamples.toNat is) := by
  obtain ⟨armed, cpu⟩ := armed_start positive answer
  have outcome := run_outcome armed is
  have none : timers [] = 0 := rfl
  have recorded := outcome.recorded
  rw [none, Nat.sub_zero, List.nil_append] at recorded
  have inOrder := dump_iff_inOrder recorded
  constructor
  · intro watched
    exact inOrder.mp watched.dump
  · intro ordered
    have dump := inOrder.mpr ordered
    constructor
    · rw [outcome.fires, none, Nat.zero_add]
    · rw [outcome.handled, none, Nat.sub_zero]
    · exact outcome.flag
    · rw [cpu]
      exact outcome.eoi
    · exact dump
    · intro rebooted
      obtain ⟨last, there, dumped⟩ := outcome.dumped rebooted
      exact ⟨last, there, dumped.trans dump⟩

end Run

def idle : Statics where
  irqCount := 0
  lastIar := 0
  lastIrqId := 0
  sgi0Count := 0
  spuriousIrqCount := 0
  timerIrqCount := 0
  lastTimerIrqId := 0
  lastTimerCtl := 0
  otherIrqCount := 0
  sampleCount := 0
  sampleRing := fun _ => 0
  budgetUsed := 0
  lastSampledPc := 0
  sampleMode := 0
  sampleIntervalTicks := 0
  sampleMax := 0
  watchdogFired := 0
  distBase := 0xf9000000
  cpuBase := 0xf9002000

/-- A tick, a spurious interrupt and a tick. -/
theorem watched_two_ticks :
    1 ≤ (2 : UInt32) ∧ (stage90ArmPcSamplingWatchdog idle 0 1 500 2).1 = 1 ∧
      Watched 2 (armedStatics idle 0 1 500 2)
        [⟨18, 0x8000, 5, 5⟩, ⟨0x3ff, 0x8004, 5, 5⟩, ⟨19, 0x8008, 5, 5⟩] :=
  ⟨by decide, rfl, (watched_iff_inOrder idle 0 1 500 2 (by decide) rfl _).mpr (Or.inl (by decide))⟩

/-- Ticks at 0, 4, 8 and so on. -/
def ticks (n : Nat) : List Interrupt :=
  (List.range n).map fun k => ⟨18, UInt32.ofNat (4 * k), 5, 5⟩

/-- The seventeenth PC is dumped ahead of the sixteen that are older. -/
theorem seventeenth_first : ¬ Watched 17 (armedStatics idle 0 1 500 17) (ticks 17) := by
  intro watched
  have dump := watched.dump
  revert dump
  decide +kernel

end Stage90.Irq.Sampling

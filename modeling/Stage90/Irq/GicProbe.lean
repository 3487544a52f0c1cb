import Stage90.Irq.EnableLine
import Stage90.Mmu.PteWalk

/-!
# The probe of the timer's line

`entry_gic_probe` of `entry_gic.c`: with the CPU interface off, each of two candidate lines is
enabled, a countdown is run masked and unmasked, and what became pending is taken down again.
The timer drives one fixed line, whichever it is.  The records of the live channel are left out.
-/

set_option autoImplicit false

namespace Stage90.Irq.Probe

open Stage90.Lib Stage90.Mmu

def gicDistBase : UInt32 := 0xf9000000
def gicdTyper : UInt32 := 0x004
def gicdIcenabler0 : UInt32 := 0x180
def giccCtlr : UInt32 := 0x000
def giccPmr : UInt32 := 0x004
def giccCtlrGrp0 : UInt32 := 1
def giccCtlrGrp1 : UInt32 := 2
def giccCtlrAny : UInt32 := giccCtlrGrp0 ||| giccCtlrGrp1
def gicTimerPpi0 : UInt32 := 18
def gicTimerPpi1 : UInt32 := 19
def gicProbeTicks : UInt32 := 0x1000
def gicTvalParked : UInt32 := 0x7fffffff
def cntvCtlEnable : UInt32 := 1
def cntvCtlImask : UInt32 := 2
def cntvArmMask : UInt32 := cntvCtlEnable ||| cntvCtlImask
def gicCpsrI : UInt32 := 0x80
def gicCpsrF : UInt32 := 0x40
def gicCpsrIf : UInt32 := gicCpsrI ||| gicCpsrF

inductive Access
  | distRead (offset : UInt32)
  | distWrite (offset value : UInt32)
  | cpuRead (offset : UInt32)
  | cpuWrite (offset value : UInt32)
  deriving DecidableEq

/-- The controller, the processor's mask, the countdown, the statics of the probe, and each access
so far with `GICC_CTLR` behind it. -/
structure World where
  gicd : Gicd
  ctlr : UInt32
  pmr : UInt32
  cpsr : UInt32
  cntvCtl : UInt32
  cntvTval : UInt32
  probed : UInt32
  distTyper : UInt32
  trace : List (Access × UInt32)

namespace World

def gicdRead (w : World) (offset : UInt32) : World :=
  { w with trace := w.trace ++ [(.distRead offset, w.ctlr)] }

def gicdWrite (w : World) (offset value : UInt32) : World :=
  { w with
    gicd := w.gicd.write offset value
    trace := w.trace ++ [(.distWrite offset value, w.ctlr)] }

def giccRead (w : World) (offset : UInt32) : World :=
  { w with trace := w.trace ++ [(.cpuRead offset, w.ctlr)] }

def writeCtlr (w : World) (value : UInt32) : World :=
  { w with ctlr := value, trace := w.trace ++ [(.cpuWrite giccCtlr value, value)] }

def writePmr (w : World) (value : UInt32) : World :=
  { w with pmr := value, trace := w.trace ++ [(.cpuWrite giccPmr value, w.ctlr)] }

def cntvTvalWrite (w : World) (value : UInt32) : World := { w with cntvTval := value }

def cntvCtlWrite (w : World) (value : UInt32) : World := { w with cntvCtl := value }

def elapse (w : World) (line : UInt32) (zero : Bool) : World :=
  if zero ∧ w.cntvCtl &&& cntvArmMask = cntvCtlEnable then
    { w with gicd := { w.gicd with pending := setWord w.gicd.pending 0 (w.gicd.pending 0 ||| line) } }
  else
    w

end World

/-- When the countdown of one candidate reaches zero: in the masked spin, in the unmasked one, or
between the last reading and the mask. -/
structure Zero where
  masked : Bool
  spun : Bool
  late : Bool
  deriving DecidableEq

section Candidate
variable (line : UInt32)

def gicProbeCandidate (zero : Zero) (intid prePending : UInt32) (w : World) : UInt32 × World :=
  let bit : UInt32 := 1 <<< intid
  let w := w.gicdWrite gicdIcpendr0 bit
  let w := w.gicdWrite gicdIsenabler0 bit
  let w := w.gicdRead gicdIsenabler0
  -- the negative control
  let w := w.cntvTvalWrite gicProbeTicks
  let w := w.cntvCtlWrite cntvArmMask
  let w := w.elapse line zero.masked
  let w := w.gicdRead gicdIspendr0
  -- the measurement
  let w := w.cntvTvalWrite gicProbeTicks
  let w := w.cntvCtlWrite cntvCtlEnable
  let w := w.elapse line zero.spun
  let pendUnmasked := w.gicd.read gicdIspendr0
  let w := w.gicdRead gicdIspendr0
  let added := pendUnmasked &&& ~~~prePending
  let w := w.elapse line zero.late
  let w := w.cntvCtlWrite cntvArmMask
  let w := w.cntvTvalWrite gicTvalParked
  let w := w.gicdWrite gicdIcenabler0 (bit ||| added)
  let w := w.gicdWrite gicdIcpendr0 (bit ||| added)
  (added, w.gicdRead gicdIspendr0)

def gicIrqMask (w : World) : World := { w with cpsr := w.cpsr ||| gicCpsrIf }

/-- `msr cpsr_c` writes the low byte. -/
def gicIrqRestore (w : World) (saved : UInt32) : World :=
  let now := (w.cpsr &&& ~~~gicCpsrIf) ||| (saved &&& gicCpsrIf)
  { w with cpsr := (w.cpsr &&& 0xffffff00) ||| (now &&& 0xff) }

def candidates : UInt32 := (1 <<< gicTimerPpi0) ||| (1 <<< gicTimerPpi1)

def preState (w : World) : World :=
  let w := w.gicdRead gicdCtlr
  let w := w.gicdRead gicdTyper
  let w := w.gicdRead gicdIsenabler0
  let w := w.gicdRead gicdIspendr0
  let w := w.gicdRead gicdIgroupr0
  let w := w.gicdRead (gicdIpriority0 + 16)
  let w := w.gicdRead (gicdItargetsr0 + 16)
  let w := w.giccRead giccCtlr
  let w := w.giccRead giccPmr
  { w with distTyper := w.gicd.read gicdTyper }

/-- The CPU interface off, and read back. -/
def guard (w : World) : World :=
  let w := w.writeCtlr (w.ctlr &&& ~~~giccCtlrAny)
  let w := w.writePmr 0
  let w := w.giccRead giccCtlr
  w.giccRead giccPmr

def restore (cpuCtlr cpuPmr : UInt32) (w : World) : World :=
  let w := w.gicdWrite gicdIcenabler0 candidates
  let w := w.gicdWrite gicdIcpendr0 candidates
  let w := w.gicdRead gicdIsenabler0
  let w := w.gicdRead gicdIspendr0
  let w := w.writePmr cpuPmr
  let w := w.writeCtlr cpuCtlr
  let w := w.giccRead giccPmr
  w.giccRead giccCtlr

/-- `m` is the machine whose tables the section goes into. -/
def entryGicProbe (m : Mmu.Machine) (first second : Zero) (w : World) : World :=
  if w.probed ≠ 0 then w
  else
    let w := { w with probed := 1 }
    match entryMmioSection m gicDistBase gicDistBase with
    | none => w
    | some _ =>
        let cpsr := w.cpsr
        let cpuCtlr := w.ctlr
        let cpuPmr := w.pmr
        let ispendr0 := w.gicd.read gicdIspendr0
        let w := guard (preState (gicIrqMask w))
        let w := (gicProbeCandidate line first gicTimerPpi0 ispendr0 w).2
        let w := (gicProbeCandidate line second gicTimerPpi1 ispendr0 w).2
        gicIrqRestore (restore cpuCtlr cpuPmr w) cpsr

end Candidate

section Effects
variable {line : UInt32} {w : World}

theorem setWord_same (words : Nat → UInt32) (value : UInt32) : setWord words 0 value 0 = value :=
  if_pos rfl

theorem setWord_twice (words : Nat → UInt32) (value last : UInt32) :
    setWord (setWord words 0 value) 0 last = setWord words 0 last := by
  funext j
  by_cases zero : j = 0 <;> simp [setWord, zero]

theorem setWord_self (words : Nat → UInt32) (value : UInt32) :
    setWord words 0 value = words ↔ value = words 0 := by
  constructor
  · intro same
    have here := congrFun same 0
    rwa [setWord_same] at here
  · intro same
    funext j
    by_cases zero : j = 0 <;> simp [setWord, zero, same]

/-- `GICD_ISENABLER0` and `GICD_ISPENDR0`. -/
def World.enable (w : World) : UInt32 := w.gicd.enable 0

def World.pending (w : World) : UInt32 := w.gicd.pending 0

/-- The world with other first words in the two banks, another countdown and another trace. -/
def World.become (w : World) (enable pending cntvCtl cntvTval : UInt32)
    (trace : List (Access × UInt32)) : World :=
  { w with
    gicd :=
      { w.gicd with
        enable := setWord w.gicd.enable 0 enable
        pending := setWord w.gicd.pending 0 pending }
    cntvCtl, cntvTval, trace }

section Become
variable (w : World) (e p c t value : UInt32) (trace : List (Access × UInt32))

theorem become_self : w.become w.enable w.pending w.cntvCtl w.cntvTval w.trace = w := by
  have enable := (setWord_self w.gicd.enable w.enable).mpr rfl
  have pending := (setWord_self w.gicd.pending w.pending).mpr rfl
  rw [World.become, enable, pending]

theorem read_become (offset : UInt32) : (w.become e p c t trace).gicdRead offset =
    w.become e p c t (trace ++ [(.distRead offset, w.ctlr)]) := rfl

theorem tval_become : (w.become e p c t trace).cntvTvalWrite value = w.become e p c value trace := rfl

theorem ctl_become : (w.become e p c t trace).cntvCtlWrite value = w.become e p value t trace := rfl

theorem ispendr0_become : (w.become e p c t trace).gicd.read gicdIspendr0 = p :=
  setWord_same w.gicd.pending p

theorem isenabler0_become : (w.become e p c t trace).gicdWrite gicdIsenabler0 value =
    w.become (e ||| value) p c t (trace ++ [(.distWrite gicdIsenabler0 value, w.ctlr)]) := by
  have bank : ∀ g : Gicd, g.write gicdIsenabler0 value =
      { g with enable := setWord g.enable 0 (g.enable 0 ||| value) } := fun _ => rfl
  simp only [World.gicdWrite, World.become, bank, setWord_same, setWord_twice]

theorem icenabler0_become : (w.become e p c t trace).gicdWrite gicdIcenabler0 value =
    w.become (e &&& ~~~value) p c t (trace ++ [(.distWrite gicdIcenabler0 value, w.ctlr)]) := by
  have bank : ∀ g : Gicd, g.write gicdIcenabler0 value =
      { g with enable := setWord g.enable 0 (g.enable 0 &&& ~~~value) } := fun _ => rfl
  simp only [World.gicdWrite, World.become, bank, setWord_same, setWord_twice]

theorem icpendr0_become : (w.become e p c t trace).gicdWrite gicdIcpendr0 value =
    w.become e (p &&& ~~~value) c t (trace ++ [(.distWrite gicdIcpendr0 value, w.ctlr)]) := by
  have bank : ∀ g : Gicd, g.write gicdIcpendr0 value =
      { g with pending := setWord g.pending 0 (g.pending 0 &&& ~~~value) } := fun _ => rfl
  simp only [World.gicdWrite, World.become, bank, setWord_same, setWord_twice]

theorem elapse_masked (zero : Bool) :
    (w.become e p cntvArmMask t trace).elapse line zero = w.become e p cntvArmMask t trace := by
  have closed : cntvArmMask &&& cntvArmMask ≠ cntvCtlEnable := by decide
  exact if_neg fun both => closed both.2

theorem elapse_unmasked (zero : Bool) : (w.become e p cntvCtlEnable t trace).elapse line zero =
    w.become e (p ||| if zero then line else 0) cntvCtlEnable t trace := by
  cases zero with
  | false => simp [World.elapse]
  | true =>
      have open_ : cntvCtlEnable &&& cntvArmMask = cntvCtlEnable := by decide
      simp [World.elapse, World.become, open_, setWord_same, setWord_twice]

end Become

def risen (line : UInt32) (zero : Bool) : UInt32 := if zero then line else 0

def pendUnmasked (line : UInt32) (zero : Zero) (intid pending : UInt32) : UInt32 :=
  pending &&& ~~~(1 <<< intid) ||| risen line zero.spun

def addedBy (line : UInt32) (zero : Zero) (intid pre pending : UInt32) : UInt32 :=
  pendUnmasked line zero intid pending &&& ~~~pre

def enableBy (intid added enable : UInt32) : UInt32 :=
  (enable ||| 1 <<< intid) &&& ~~~(1 <<< intid ||| added)

def pendingBy (line : UInt32) (zero : Zero) (intid added pending : UInt32) : UInt32 :=
  (pendUnmasked line zero intid pending ||| risen line zero.late) &&& ~~~(1 <<< intid ||| added)

def candidateAccesses (intid added : UInt32) : List Access :=
  [.distWrite gicdIcpendr0 (1 <<< intid), .distWrite gicdIsenabler0 (1 <<< intid),
    .distRead gicdIsenabler0, .distRead gicdIspendr0, .distRead gicdIspendr0,
    .distWrite gicdIcenabler0 (1 <<< intid ||| added),
    .distWrite gicdIcpendr0 (1 <<< intid ||| added), .distRead gicdIspendr0]

theorem candidate_eq (zero : Zero) (intid pre : UInt32) (w : World) :
    let added := addedBy line zero intid pre w.pending
    gicProbeCandidate line zero intid pre w =
      (added,
        w.become (enableBy intid added w.enable) (pendingBy line zero intid added w.pending)
          cntvArmMask gicTvalParked
          (w.trace ++ (candidateAccesses intid added).map fun access => (access, w.ctlr))) := by
  have run : gicProbeCandidate line zero intid pre w = gicProbeCandidate line zero intid pre
      (w.become w.enable w.pending w.cntvCtl w.cntvTval w.trace) := by rw [become_self]
  rw [run]
  simp only [gicProbeCandidate, read_become, tval_become, ctl_become, ispendr0_become,
    isenabler0_become, icenabler0_become, icpendr0_become, elapse_masked, elapse_unmasked,
    addedBy, enableBy, pendingBy, pendUnmasked, risen, candidateAccesses, List.append_assoc, List.map_cons, List.map_nil,
    List.cons_append, List.nil_append]

end Effects

/-! ## One line -/

/-- What the probe makes of one line's enable and pending bits.  `l` is for the timer's line, `x`
and `y` for the two candidates, and the countdown of the first reaches zero in the spin (`s`) or
behind it (`t`), that of the second likewise (`s'` and `t'`). -/
def lineAfter (s t s' t' e p l x y : Bool) : Bool × Bool :=
  let p1 := p && !x || s && l
  let a1 := p1 && !p
  let e1 := (e || x) && !(x || a1)
  let p1 := (p1 || t && l) && !(x || a1)
  let p2 := p1 && !y || s' && l
  let a2 := p2 && !p
  let e2 := (e1 || y) && !(y || a2)
  let p2 := (p2 || t' && l) && !(y || a2)
  (e2 && !(x || y), p2 && !(x || y))

/-- A candidate must be down at the start.  The timer's line, where it is neither a candidate nor
pending, must not be enabled and seen to rise, and must not rise for the first time behind the
last reading, or again there. -/
def Kept (s t s' t' e p l x y : Bool) : Prop :=
  (x || y → !e && !p) ∧
    (l && !x && !y && !p → (e → !(s || t || s')) ∧ !(t' && !s' && (s || !t)))

instance (s t s' t' e p l x y : Bool) : Decidable (Kept s t s' t' e p l x y) :=
  inferInstanceAs (Decidable (_ ∧ _))

theorem lineAfter_eq_iff : ∀ s t s' t' e p l x y : Bool, (x && y) = false →
    (lineAfter s t s' t' e p l x y = (e, p) ↔ Kept s t s' t' e p l x y) := by
  decide +kernel

/-! ## The whole probe -/

section Run
variable {line : UInt32} {m : Mmu.Machine} {first second : Zero} {w : World}

def between (line : UInt32) (first : Zero) (w : World) : World :=
  (gicProbeCandidate line first gicTimerPpi0 w.pending (guard (preState (gicIrqMask w)))).2

def behind (line : UInt32) (first second : Zero) (w : World) : World :=
  (gicProbeCandidate line second gicTimerPpi1 w.pending (between line first w)).2

theorem restore_become (e p c t : UInt32) (trace : List (Access × UInt32)) (cpuCtlr cpuPmr : UInt32) :
    restore cpuCtlr cpuPmr (w.become e p c t trace) =
      { w.become (e &&& ~~~candidates) (p &&& ~~~candidates) c t
          (trace ++
            [(.distWrite gicdIcenabler0 candidates, w.ctlr),
              (.distWrite gicdIcpendr0 candidates, w.ctlr), (.distRead gicdIsenabler0, w.ctlr),
              (.distRead gicdIspendr0, w.ctlr), (.cpuWrite giccPmr cpuPmr, w.ctlr),
              (.cpuWrite giccCtlr cpuCtlr, cpuCtlr), (.cpuRead giccPmr, cpuCtlr),
              (.cpuRead giccCtlr, cpuCtlr)]) with
        ctlr := cpuCtlr
        pmr := cpuPmr } := by
  rw [restore, icenabler0_become, icpendr0_become, read_become, read_become]
  simp only [World.writePmr, World.writeCtlr, World.giccRead, World.become, List.append_assoc,
    List.cons_append, List.nil_append]

theorem installed_eq (fresh : w.probed = 0) {i : Installed}
    (mapped : entryMmioSection m gicDistBase gicDistBase = some i) :
    entryGicProbe line m first second w =
      gicIrqRestore (restore w.ctlr w.pmr (behind line first second { w with probed := 1 })) w.cpsr := by
  rw [entryGicProbe, if_neg (not_not.mpr fresh), mapped]
  rfl

theorem become_become (e p c t e' p' c' t' : UInt32) (trace trace' : List (Access × UInt32)) :
    (w.become e p c t trace).become e' p' c' t' trace' = w.become e' p' c' t' trace' := by
  rw [World.become, World.become, World.become, setWord_twice, setWord_twice]

def firstAdded (line : UInt32) (first : Zero) (w : World) : UInt32 :=
  addedBy line first gicTimerPpi0 w.pending w.pending

def firstPending (line : UInt32) (first : Zero) (w : World) : UInt32 :=
  pendingBy line first gicTimerPpi0 (firstAdded line first w) w.pending

def secondAdded (line : UInt32) (first second : Zero) (w : World) : UInt32 :=
  addedBy line second gicTimerPpi1 w.pending (firstPending line first w)

def finalEnable (line : UInt32) (first second : Zero) (w : World) : UInt32 :=
  enableBy gicTimerPpi1 (secondAdded line first second w)
      (enableBy gicTimerPpi0 (firstAdded line first w) w.enable) &&&
    ~~~candidates

def finalPending (line : UInt32) (first second : Zero) (w : World) : UInt32 :=
  pendingBy line second gicTimerPpi1 (secondAdded line first second w) (firstPending line first w) &&&
    ~~~candidates

section Bits
variable (line : UInt32) (first second : Zero) (w : World) (i : Nat)

theorem bit_risen (z : Bool) : bit (risen line z) i = (z && bit line i) := by
  cases z with
  | false => exact Nat.zero_testBit i
  | true => exact (Bool.true_and _).symm

def afterRun (timer : Bool) : Bool × Bool :=
  lineAfter first.spun first.late second.spun second.late (bit w.enable i) (bit w.pending i) timer
    (decide (i = 18)) (decide (i = 19))

theorem bits_final (inside : i < 32) :
    (bit (finalEnable line first second w) i, bit (finalPending line first second w) i) =
      afterRun first second w i (bit line i) := by
  have zero : bit (1 <<< gicTimerPpi0) i = decide (i = 18) := bit_flag (by decide) i
  have one : bit (1 <<< gicTimerPpi1) i = decide (i = 19) := bit_flag (by decide) i
  simp only [finalEnable, finalPending, secondAdded, firstPending, firstAdded, enableBy, pendingBy,
    addedBy, pendUnmasked, candidates, bit_and, bit_or, bit_not, bit_risen, zero, one, inside,
    decide_true, Bool.true_and, afterRun, lineAfter]

end Bits

/-- `GICC_CTLR` with both groups off. -/
def off (w : World) : UInt32 := w.ctlr &&& ~~~giccCtlrAny

theorem off_any (w : World) : off w &&& giccCtlrAny = 0 := by
  rw [off, UInt32.and_assoc]
  have none : ~~~giccCtlrAny &&& giccCtlrAny = 0 := by decide
  rw [none, UInt32.and_zero]

def ahead (w : World) : List (Access × UInt32) :=
  [(.distRead gicdCtlr, w.ctlr), (.distRead gicdTyper, w.ctlr), (.distRead gicdIsenabler0, w.ctlr),
    (.distRead gicdIspendr0, w.ctlr), (.distRead gicdIgroupr0, w.ctlr),
    (.distRead (gicdIpriority0 + 16), w.ctlr), (.distRead (gicdItargetsr0 + 16), w.ctlr),
    (.cpuRead giccCtlr, w.ctlr), (.cpuRead giccPmr, w.ctlr), (.cpuWrite giccCtlr (off w), off w),
    (.cpuWrite giccPmr 0, off w), (.cpuRead giccCtlr, off w), (.cpuRead giccPmr, off w)]

/-- From that write to the one that takes both candidates down. -/
def window (line : UInt32) (first second : Zero) (w : World) : List Access :=
  candidateAccesses gicTimerPpi0 (firstAdded line first w) ++
    candidateAccesses gicTimerPpi1 (secondAdded line first second w) ++
    [.distWrite gicdIcenabler0 candidates]

def afterwards (w : World) : List (Access × UInt32) :=
  [(.distWrite gicdIcpendr0 candidates, off w), (.distRead gicdIsenabler0, off w),
    (.distRead gicdIspendr0, off w), (.cpuWrite giccPmr w.pmr, off w),
    (.cpuWrite giccCtlr w.ctlr, w.ctlr), (.cpuRead giccPmr, w.ctlr), (.cpuRead giccCtlr, w.ctlr)]

theorem candidates_eq {g : World} (enable : g.enable = w.enable) (pending : g.pending = w.pending) :
    (gicProbeCandidate line second gicTimerPpi1 w.pending
        (gicProbeCandidate line first gicTimerPpi0 w.pending g).2).2 =
      g.become
        (enableBy gicTimerPpi1 (secondAdded line first second w)
          (enableBy gicTimerPpi0 (firstAdded line first w) w.enable))
        (pendingBy line second gicTimerPpi1 (secondAdded line first second w)
          (firstPending line first w))
        cntvArmMask gicTvalParked
        (g.trace ++ (candidateAccesses gicTimerPpi0 (firstAdded line first w)).map (·, g.ctlr) ++
          (candidateAccesses gicTimerPpi1 (secondAdded line first second w)).map (·, g.ctlr)) := by
  have early := @candidate_eq line first gicTimerPpi0 w.pending g
  rw [enable, pending] at early
  have enabled : ∀ e p c t trace, (g.become e p c t trace).enable = e := fun e _ _ _ _ =>
    setWord_same g.gicd.enable e
  have raised : ∀ e p c t trace, (g.become e p c t trace).pending = p := fun _ p _ _ _ =>
    setWord_same g.gicd.pending p
  have late := @candidate_eq line second gicTimerPpi1 w.pending
    (gicProbeCandidate line first gicTimerPpi0 w.pending g).2
  rw [early] at late
  rw [early]
  simp only [enabled, raised] at late
  rw [late, become_become]
  rfl

section Guarded
variable (w : World)

theorem trace_guard : (guard (preState (gicIrqMask w))).trace = w.trace ++ ahead w := by
  simp only [guard, preState, gicIrqMask, World.writeCtlr, World.writePmr, World.giccRead,
    World.gicdRead, ahead, off, List.append_assoc, List.cons_append, List.nil_append]

theorem gicd_guard : (guard (preState (gicIrqMask w))).gicd = w.gicd := by
  simp only [guard, preState, gicIrqMask, World.writeCtlr, World.writePmr, World.giccRead,
    World.gicdRead]

theorem ctlr_guard : (guard (preState (gicIrqMask w))).ctlr = off w := by
  simp only [guard, preState, gicIrqMask, World.writeCtlr, World.writePmr, World.giccRead,
    World.gicdRead, off]

end Guarded

/-- What a run that has its mapping leaves. -/
structure Final (line : UInt32) (first second : Zero) (w final : World) : Prop where
  enable : final.gicd.enable = setWord w.gicd.enable 0 (finalEnable line first second w)
  pending : final.gicd.pending = setWord w.gicd.pending 0 (finalPending line first second w)
  ctlr : final.ctlr = w.ctlr
  pmr : final.pmr = w.pmr
  cpsr : final.cpsr &&& gicCpsrIf = w.cpsr &&& gicCpsrIf
  trace : final.trace =
    w.trace ++ ahead w ++ (window line first second w).map (·, off w) ++ afterwards w

theorem cpsr_restore (w : World) (saved : UInt32) :
    (gicIrqRestore w saved).cpsr &&& gicCpsrIf = saved &&& gicCpsrIf := by
  have high : (0xffffff00 : UInt32) &&& gicCpsrIf = 0 := by decide
  have low : (0xff : UInt32) &&& gicCpsrIf = gicCpsrIf := by decide
  have masked : ~~~gicCpsrIf &&& gicCpsrIf = 0 := by decide
  simp only [gicIrqRestore, or_and, UInt32.and_assoc, high, low, masked,
    UInt32.and_self, UInt32.and_zero, UInt32.zero_or]

theorem final_of_installed (fresh : w.probed = 0) {i : Installed}
    (mapped : entryMmioSection m gicDistBase gicDistBase = some i) :
    Final line first second w (entryGicProbe line m first second w) := by
  obtain ⟨gicd, ctlr, pmr, cpsr, cntvCtl, cntvTval, probed, distTyper, trace⟩ := w
  have whole := @candidates_eq line first second
    ⟨gicd, ctlr, pmr, cpsr, cntvCtl, cntvTval, 1, distTyper, trace⟩
    (guard (preState (gicIrqMask ⟨gicd, ctlr, pmr, cpsr, cntvCtl, cntvTval, 1, distTyper, trace⟩)))
    (congrFun (congrArg Gicd.enable (gicd_guard _)) 0)
    (congrFun (congrArg Gicd.pending (gicd_guard _)) 0)
  rw [installed_eq fresh mapped, behind, between, whole, restore_become, ctlr_guard, trace_guard]
  refine ⟨?_, ?_, rfl, rfl, cpsr_restore _ _, ?_⟩
  · simp only [gicIrqRestore, World.become, gicd_guard, finalEnable]
    rfl
  · simp only [gicIrqRestore, World.become, gicd_guard, finalPending]
    rfl
  · simp only [gicIrqRestore, World.become, window, afterwards, List.map_append, List.append_assoc,
      List.map_cons, List.map_nil, List.cons_append, List.nil_append]
    rfl

end Run

/-! ## As it was found -/

def timerLine (timer : Fin 32) : UInt32 := 1 <<< UInt32.ofNat timer

def slotWord (m : Mmu.Machine) : UInt32 :=
  m.mem (entryLiveTtbBase m + (4 : UInt32) * (gicDistBase >>> 20)).toNat

def Occupied (m : Mmu.Machine) : Prop := slotWord m &&& liveTteTypeMask ≠ 0

def Installs (m : Mmu.Machine) (w : World) : Prop :=
  w.probed = 0 ∧ ∃ i, entryMmioSection m gicDistBase gicDistBase = some i

def Access.Distributes (access : Access) : Prop := ∃ offset value, access = .distWrite offset value

/-- From the first write to the distributor until the candidates are taken down for good, the CPU
interface is off. -/
def Guarded (w final : World) : Prop :=
  ∃ before shielded after, final.trace = w.trace ++ before ++ shielded ++ after ∧
    (∀ access ∈ before, ¬ access.1.Distributes) ∧
    (∃ ctlr, shielded.getLast? = some (.distWrite gicdIcenabler0 candidates, ctlr)) ∧
    (∀ access ∈ shielded, access.2 &&& giccCtlrAny = 0) ∧
    ∀ access ∈ after, ∀ value, access.1 ≠ .distWrite gicdIsenabler0 value

structure LeftAsFound (w final : World) : Prop where
  enable : final.gicd.enable = w.gicd.enable
  pending : final.gicd.pending = w.gicd.pending
  ctlr : final.ctlr = w.ctlr
  pmr : final.pmr = w.pmr
  cpsr : final.cpsr &&& gicCpsrIf = w.cpsr &&& gicCpsrIf

structure Harmless (line : UInt32) (m : Mmu.Machine) (first second : Zero) (w : World) : Prop where
  guarded : Installs m w → Guarded w (entryGicProbe line m first second w)
  restored : Installs m w → LeftAsFound w (entryGicProbe line m first second w)
  silent : Occupied m → (entryGicProbe line m first second w).trace = w.trace

/-- Both candidates are down at the start.  The timer's line, where it is a third one that is not
pending, is not enabled and seen to rise, and does not rise for the first time behind the last
reading, or again there. -/
structure Undisturbed (timer : Fin 32) (first second : Zero) (w : World) : Prop where
  candidates : ∀ i, i = 18 ∨ i = 19 → bit w.enable i = false ∧ bit w.pending i = false
  third : timer ≠ 18 → timer ≠ 19 → bit w.pending timer = false →
    (bit w.enable timer → first.spun = false ∧ first.late = false ∧ second.spun = false) ∧
      ¬ (second.late ∧ second.spun = false ∧ (first.spun ∨ first.late = false))

section Restored
variable {timer : Fin 32} {m : Mmu.Machine} {first second : Zero} {w : World}

theorem bit_timerLine (timer : Fin 32) (i : Nat) :
    bit (timerLine timer) i = decide (i = timer) := by
  have word : (UInt32.ofNat timer).toNat = timer :=
    UInt32.toNat_ofNat_of_lt (timer.isLt.trans (by decide))
  have small : (UInt32.ofNat timer).toNat < 32 := word.symm ▸ timer.isLt
  rw [timerLine, bit_flag small, word]

theorem quiet_iff : ∀ s t s' t' e : Bool,
    ((e → !(s || t || s')) ∧ !(t' && !s' && (s || !t))) ↔
      (e → s = false ∧ t = false ∧ s' = false) ∧ ¬ (t' ∧ s' = false ∧ (s ∨ t = false)) := by
  decide

theorem kept_iff_undisturbed :
    (∀ i < 32, Kept first.spun first.late second.spun second.late (bit w.enable i) (bit w.pending i)
      (decide (i = timer)) (decide (i = 18)) (decide (i = 19))) ↔
      Undisturbed timer first second w := by
  constructor
  · intro kept
    constructor
    · intro i candidate
      have inside : i < 32 := by omega
      have down := (kept i inside).1 (by simpa using candidate)
      simpa using down
    · intro not18 not19 clear
      have apart : (timer : Nat) ≠ 18 ∧ (timer : Nat) ≠ 19 := by omega
      exact (quiet_iff _ _ _ _ _).mp ((kept timer timer.isLt).2 (by simp [apart, clear]))
  · intro ⟨down, third⟩ i inside
    constructor
    · intro candidate
      have both := down i (by simpa using candidate)
      simp [both]
    · intro alone
      simp only [Bool.and_eq_true, decide_eq_true_eq, Bool.not_eq_eq_eq_not, Bool.not_true,
        decide_eq_false_iff_not] at alone
      obtain ⟨⟨⟨here, not18⟩, not19⟩, clear⟩ := alone
      subst here
      exact (quiet_iff _ _ _ _ _).mpr (third (by omega) (by omega) clear)

/-- The two words come back if each line's bits do. -/
theorem words_iff :
    (finalEnable (timerLine timer) first second w = w.enable ∧
        finalPending (timerLine timer) first second w = w.pending) ↔
      Undisturbed timer first second w := by
  rw [← kept_iff_undisturbed]
  have apart : ∀ i, (decide (i = 18) && decide (i = 19)) = false := by
    intro i
    by_cases low : i = 18 <;> simp [low]
  constructor
  · intro ⟨enable, pending⟩ i inside
    have bits := bits_final (timerLine timer) first second w i inside
    rw [enable, pending, bit_timerLine, afterRun] at bits
    exact (lineAfter_eq_iff _ _ _ _ _ _ _ _ _ (apart i)).mp bits.symm
  · intro kept
    have bits : ∀ i, bit (finalEnable (timerLine timer) first second w) i = bit w.enable i ∧
        bit (finalPending (timerLine timer) first second w) i = bit w.pending i := by
      intro i
      by_cases inside : i < 32
      · have bits := bits_final (timerLine timer) first second w i inside
        rw [bit_timerLine, afterRun,
          (lineAfter_eq_iff _ _ _ _ _ _ _ _ _ (apart i)).mpr (kept i inside)] at bits
        exact Prod.mk.inj bits
      · have outside := Nat.le_of_not_lt inside
        rw [bit_of_le _ outside, bit_of_le _ outside, bit_of_le _ outside, bit_of_le _ outside]
        exact ⟨rfl, rfl⟩
    exact ⟨eq_of_bit_eq fun i => (bits i).1, eq_of_bit_eq fun i => (bits i).2⟩

theorem leftAsFound_iff {line : UInt32} {final : World} (run : Final line first second w final) :
    LeftAsFound w final ↔
      finalEnable line first second w = w.enable ∧ finalPending line first second w = w.pending := by
  constructor
  · intro found
    exact ⟨(setWord_self _ _).mp (run.enable.symm.trans found.enable),
      (setWord_self _ _).mp (run.pending.symm.trans found.pending)⟩
  · intro ⟨enable, pending⟩
    exact ⟨run.enable.trans ((setWord_self _ _).mpr enable),
      run.pending.trans ((setWord_self _ _).mpr pending), run.ctlr, run.pmr, run.cpsr⟩

theorem guarded_of_final {line : UInt32} {final : World} (run : Final line first second w final) :
    Guarded w final := by
  refine ⟨ahead w, (window line first second w).map (·, off w), afterwards w, run.trace, ?_, ?_, ?_, ?_⟩
  · intro access mem ⟨offset, value, same⟩
    simp only [ahead, List.mem_cons, List.not_mem_nil, or_false] at mem
    rcases mem with rfl | rfl | rfl | rfl | rfl | rfl | rfl | rfl | rfl | rfl | rfl | rfl | rfl <;>
      exact nomatch same
  · refine ⟨off w, ?_⟩
    rw [window, List.map_append, List.map_singleton, List.getLast?_concat]
  · intro access mem
    obtain ⟨_, _, rfl⟩ := List.mem_map.mp mem
    exact off_any w
  · intro access mem value same
    simp only [afterwards, List.mem_cons, List.not_mem_nil, or_false] at mem
    rcases mem with rfl | rfl | rfl | rfl | rfl | rfl | rfl
    · exact absurd (Access.distWrite.inj same).1 (by decide)
    all_goals exact nomatch same

theorem unmapped_of_occupied (occupied : Occupied m) :
    entryMmioSection m gicDistBase gicDistBase = none := by
  rw [entryMmioSection]
  split
  · rfl
  · dsimp only
    split
    · rfl
    · exact if_pos occupied

theorem silent_of_unmapped {line : UInt32} (none : entryMmioSection m gicDistBase gicDistBase = none) :
    (entryGicProbe line m first second w).trace = w.trace := by
  rw [entryGicProbe]
  split
  · rfl
  · rw [none]

/-- The probe leaves the controller as it found it if, and only if, both candidates are down when it
starts and no third line is enabled or raised behind its back. -/
theorem harmless_iff_undisturbed (timer : Fin 32) (m : Mmu.Machine) (first second : Zero) (w : World) :
    Harmless (timerLine timer) m first second w ↔ (Installs m w → Undisturbed timer first second w) := by
  have run : Installs m w →
      Final (timerLine timer) first second w (entryGicProbe (timerLine timer) m first second w) :=
    fun ⟨fresh, _, mapped⟩ => final_of_installed fresh mapped
  constructor
  · intro harmless installs
    exact words_iff.mp ((leftAsFound_iff (run installs)).mp (harmless.restored installs))
  · intro undisturbed
    exact
      { guarded := fun installs => guarded_of_final (run installs)
        restored := fun installs =>
          (leftAsFound_iff (run installs)).mpr (words_iff.mpr (undisturbed installs))
        silent := fun occupied => silent_of_unmapped (unmapped_of_occupied occupied) }

end Restored

def latched : Mmu.Machine := ⟨fun _ => 0, 0x80004000, ⟨0, by decide⟩, 0, 0x80000000, 0x08000000, 1, 0⟩

/-- INTID 20 is enabled by the code before, and nothing is pending. -/
def enabled20 : World where
  gicd := ⟨fun _ => 0, setWord (fun _ => 0) 0 0x00100000, fun _ => 0, fun _ => 0, fun _ => 0,
    fun _ => 0, fun _ => 0⟩
  ctlr := 3
  pmr := 0xf0
  cpsr := 0x13
  cntvCtl := 0
  cntvTval := 0
  probed := 0
  distTyper := 0
  trace := []

/-- The timer drives INTID 20.  What the first candidate sees it raise, it also disables. -/
theorem third_line_disabled :
    ¬ Harmless (timerLine 20) latched ⟨false, true, false⟩ ⟨false, true, false⟩ enabled20 := by
  intro harmless
  have installs : Installs latched enabled20 := ⟨rfl, _, rfl⟩
  have enable := congrFun (harmless.restored installs).enable 0
  revert enable
  decide +kernel

end Stage90.Irq.Probe

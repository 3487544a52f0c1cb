import Mathlib.Order.Monotone.Basic
import Stage90.Lib.Converges
import Stage90.Lib.Masks
import Stage90.Mmu.PteWalk

/-!
# The bring-up of the device controller

`entry_usb_dev_init` of `entry_usb_dev.c`: the two gates, the PHY, the link reset and the transition to
device mode.  What a register read finds and what the counter says are arbitrary, and every store is
logged.
-/

set_option autoImplicit false

namespace Stage90.Usb.Bringup

open Stage90.Lib Stage90.Mmu

/-! ## The registers -/

def otgBase : UInt32 := 0xf9a55000
def ahbburst : UInt32 := 0x090
def ahbmode : UInt32 := 0x098
def usbcmd : UInt32 := 0x140
def usbsts : UInt32 := 0x144
def ulpiViewport : UInt32 := 0x170
def portsc : UInt32 := 0x184
def otgsc : UInt32 := 0x1a4
def usbmode : UInt32 := 0x1a8
def phyCtrl : UInt32 := 0x240

def usbcmdRs : UInt32 := 0x00000001
def usbcmdRst : UInt32 := 0x00000002
def usbcmdItcMask : UInt32 := 0x00ff0000
def usbmodeCm : UInt32 := 0x00000003
def usbmodeCmIdle : UInt32 := 0x00000000
def usbmodeCmDevice : UInt32 := 0x00000002
def usbmodeSlom : UInt32 := 0x00000008
def otgscBsvie : UInt32 := 0x08000000
def portscPts : UInt32 := 0xc0000000
def portscPtsUlpi : UInt32 := 0xc0000000
def portscRstBit31 : UInt32 := 0x80000000
def ahbmodeAhb2ahbBypass : UInt32 := 0x80000000
def phyPorBitMask : UInt32 := 0x00000001
def phyPorAssert : UInt32 := 0x00000001
def phyPorDeassert : UInt32 := 0x00000000
def ulpiRun : UInt32 := 0x40000000
def ulpiWriteBit : UInt32 := 0x20000000
def ulpiPhyInitVal : UInt32 := 0x63
def ulpiPhyInitReg : UInt32 := 0x81
def ulpiUsbIntEnRise : UInt32 := 0x0d
def ulpiUsbIntEnFall : UInt32 := 0x10
def ulpiIntSessValid : UInt32 := 0x00000004
def ulpiIoTimeout : Nat := 10000

def mSleepUs : Nat := 100000
def phyPorUs : Nat := 12
def linkResetUs : Nat := 250000
def ulpiPollUs : Nat := 1

/-- What each register read of the body finds, in the body's order; a read in a loop for every turn. -/
structure Reads where
  usbmodeBefore : UInt32
  ahbmode : UInt32
  portscBefore : UInt32
  portscPts : UInt32
  usbcmdBefore : UInt32
  resetPoll : Nat → UInt32
  portscReset : UInt32
  /-- The two reads of each power-on reset. -/
  phyCtrl : Fin 2 → Fin 2 → UInt32
  /-- The polls of each of the three viewport writes. -/
  viewport : Fin 3 → Nat → UInt32
  otgscBefore : UInt32
  otgscWrote : UInt32
  usbmode : UInt32
  usbmodeAfter : UInt32
  usbcmdItc : UInt32
  usbcmdRun : UInt32
  usbcmdAfter : UInt32
  portsc : UInt32
  otgsc : UInt32
  usbsts : UInt32

/-- A call's surroundings: the reads, `CNTFRQ`, the counter at each of its readings, and the machine
whose table the mapper installs into. -/
structure Call where
  reads : Reads
  freq : UInt32
  tick : Nat → Nat
  machine : Machine

inductive Access where
  | read (off : UInt32)
  | write (off value : UInt32)
  deriving DecidableEq

/-- `g_stage90_usb_dev_usbmode_wrote`, how often the counter was read, and the accesses to the
controller. -/
structure Core where
  usbmodeWrote : UInt32
  clock : Nat
  log : List Access

def Core.rd (off : UInt32) (c : Core) : Core := { c with log := c.log ++ [.read off] }
def Core.wr (off value : UInt32) (c : Core) : Core := { c with log := c.log ++ [.write off value] }
def Core.ticked (c : Core) : Core := { c with clock := c.clock + 1 }

/-! ## The waits -/

/-- `while ((stage90_cntvct_read() - start) < want)`. -/
def delayLoop (tick : Nat → Nat) (start want : Nat) : Nat → Core → Option Core
  | 0, _ => none
  | fuel + 1, c =>
      if tick c.clock - start < want then delayLoop tick start want fuel c.ticked else some c.ticked

def usbDevDelayUs (k : Call) (us fuel : Nat) (c : Core) : Option Core :=
  if k.freq = 0 then some c
  else delayLoop k.tick (k.tick c.clock) (us * k.freq.toNat / 1000000) fuel c.ticked

def usbDevUlpiPoll (k : Call) (transaction : Fin 3) (fuel : Nat) : Nat → Core → Option Core
  | 0, c => some c
  | left + 1, c =>
      let c := c.rd ulpiViewport
      if k.reads.viewport transaction (ulpiIoTimeout - (left + 1)) &&& ulpiRun = 0 then some c
      else (usbDevDelayUs k ulpiPollUs fuel c).bind (usbDevUlpiPoll k transaction fuel left)

def usbDevUlpiWrite (k : Call) (transaction : Fin 3) (reg val : UInt32) (fuel : Nat) (c : Core) :
    Option Core :=
  usbDevUlpiPoll k transaction fuel ulpiIoTimeout
    (c.wr ulpiViewport (ulpiRun ||| ulpiWriteBit ||| ((reg &&& 0xff) <<< 16) ||| (val &&& 0xff)))

def usbDevPhyPor (k : Call) (pair : Fin 2) (fuel : Nat) (c : Core) : Option Core :=
  let c := (c.rd phyCtrl).wr phyCtrl ((k.reads.phyCtrl pair 0 &&& ~~~phyPorBitMask) ||| phyPorAssert)
  (usbDevDelayUs k phyPorUs fuel c).map fun c =>
    (c.rd phyCtrl).wr phyCtrl ((k.reads.phyCtrl pair 1 &&& ~~~phyPorBitMask) ||| phyPorDeassert)

/-- The polls of `USBCMD` for the end of the reset, from turn `i` on. -/
def resetLoop (k : Call) (t0 : Nat) : Nat → Nat → Core → Option Core
  | 0, _, _ => none
  | fuel + 1, i, c =>
      let now := k.tick c.clock
      let c := c.ticked.rd usbcmd
      if k.reads.resetPoll i &&& usbcmdRst = 0 then some c
      else if k.freq ≠ 0 ∧ now - t0 > linkResetUs * k.freq.toNat / 1000000 then some c
      else resetLoop k t0 fuel (i + 1) c

/-! ## The body -/

abbrev Step := Nat → Core → Option Core

def now (f : Core → Core) : Step := fun _ c => some (f c)

def selectUlpi (k : Call) (c : Core) : Core :=
  let c := c.rd ahbmode
  let c :=
    if k.reads.ahbmode &&& ahbmodeAhb2ahbBypass ≠ 0 then
      c.wr ahbmode (k.reads.ahbmode &&& ~~~ahbmodeAhb2ahbBypass)
    else c
  ((c.rd portsc).wr portsc ((k.reads.portscBefore &&& ~~~portscPts) ||| portscPtsUlpi)).rd portsc

def linkReset (k : Call) : Step := fun fuel c =>
  let c := (c.rd usbcmd).wr usbcmd usbcmdRst
  (resetLoop k (k.tick c.clock) fuel 0 c.ticked).map fun c =>
    ((c.wr portsc portscRstBit31).wr ahbburst 0).rd portsc

def otgEnable (k : Call) (c : Core) : Core := (c.rd otgsc).wr otgsc (k.reads.otgscBefore ||| otgscBsvie)

def deviceMode (k : Call) (c : Core) : Core :=
  let c := ((c.wr usbmode usbmodeCmIdle).wr usbmode usbmodeCmDevice).rd usbmode
  let c := (c.wr usbmode (k.reads.usbmode ||| usbmodeSlom)).rd usbmode
  { c with usbmodeWrote := k.reads.usbmodeAfter }

def clearItc (k : Call) (c : Core) : Core :=
  (c.rd usbcmd).wr usbcmd (k.reads.usbcmdItc &&& ~~~usbcmdItcMask)

def setRun (k : Call) (c : Core) : Core :=
  ((c.rd usbcmd).wr usbcmd (k.reads.usbcmdRun ||| usbcmdRs)).rd usbcmd

/-- Steps 3 to 9 of the body. -/
def bringUp (k : Call) : List Step :=
  [now (selectUlpi k),
    linkReset k,
    usbDevDelayUs k mSleepUs,
    usbDevPhyPor k 0,
    usbDevUlpiWrite k 0 ulpiPhyInitReg ulpiPhyInitVal,
    usbDevPhyPor k 1,
    now (otgEnable k),
    usbDevUlpiWrite k 1 ulpiUsbIntEnRise ulpiIntSessValid,
    usbDevUlpiWrite k 2 ulpiUsbIntEnFall ulpiIntSessValid,
    now (Core.rd otgsc),
    now (deviceMode k),
    now (clearItc k),
    now (setRun k),
    now fun c => ((c.rd portsc).rd otgsc).rd usbsts]

/-! ## The gates -/

/-- The occupant that `entry_mmio_section` reports, zero where it does not come to the slot. -/
def slotBefore (m : Machine) (va : UInt32) : UInt32 :=
  if m.liveState ≠ 1 then 0
  else
    let l1 := entryLiveTtbBase m
    if l1 < 0x80000000 ∨ l1 &&& 0x3fff ≠ 0 then 0 else m.mem (l1 + (4 : UInt32) * (va >>> 20)).toNat

def usbDevSectionIsOurs (slotBefore : UInt32) : Bool :=
  decide (slotBefore &&& 0x00000003 = 0x00000002) && decide (slotBefore &&& 0xfff00000 = otgBase &&& 0xfff00000)

def owned (k : Call) : Bool :=
  (entryMmioSection k.machine otgBase otgBase).isSome ||
    usbDevSectionIsOurs (slotBefore k.machine otgBase)

def isDevice (k : Call) : Bool := decide (k.reads.usbmodeBefore &&& usbmodeCm = usbmodeCmDevice)

/-- The body behind the latch; `force` is `STAGE90_XNU_USB_DEV_FORCE`. -/
def initBody (force : Bool) (k : Call) (fuel : Nat) (c : Core) : Option Core :=
  if owned k then
    let c := c.rd usbmode
    if isDevice k || force then runAll fuel (bringUp k) c else some c
  else some c

/-- `g_usb_dev_done` and the rest. -/
structure Statics where
  done : UInt32
  core : Core

def entryUsbDevInit (force : Bool) (k : Call) (fuel : Nat) (s : Statics) : Option Statics :=
  if s.done ≠ 0 then some s else (initBody force k fuel s.core).map (Statics.mk 1)

def initRun (force : Bool) (calls : List Call) (fuel : Nat) (s : Statics) : Option Statics :=
  runAll fuel (calls.map (entryUsbDevInit force)) s

def bootStatics : Statics := ⟨0, ⟨0, 0, []⟩⟩

/-! ## What the calls of a boot have to do -/

/-- A store of `USBCMD` with the reset bit. -/
def Access.resets : Access → Bool
  | .read _ => false
  | .write off value => decide (off = usbcmd) && decide (value &&& usbcmdRst ≠ 0)

def Access.stores : Access → Bool
  | .read _ => false
  | .write _ _ => true

def Core.resets (c : Core) : Nat := c.log.countP Access.resets

structure BroughtUp (force : Bool) (calls : List Call) : Prop where
  ends : ∃ s, Converges (fun fuel => initRun force calls fuel bootStatics) s
  /-- No access without a section of the controller's own. -/
  refused : ∀ k ∈ calls, entryMmioSection k.machine otgBase otgBase = none →
    usbDevSectionIsOurs (slotBefore k.machine otgBase) = false →
    ∀ s t, Converges (fun fuel => entryUsbDevInit force k fuel s) t → t.core.log = s.core.log
  /-- No store to a controller in another mode. -/
  inert : force = false → ∀ k ∈ calls, isDevice k = false →
    ∀ s t, Converges (fun fuel => entryUsbDevInit force k fuel s) t →
      t.core.log.filter Access.stores = s.core.log.filter Access.stores
  once : ∀ s, Converges (fun fuel => initRun force calls fuel bootStatics) s → s.core.resets ≤ 1

def Proceeds (force : Bool) (k : Call) : Prop := owned k = true ∧ (isDevice k = true ∨ force = true)

/-- The loop of the link reset has a way out: the counter runs at a known frequency, or some read finds
the reset over. -/
def Clears (k : Call) : Prop := k.freq ≠ 0 ∨ ∃ i, k.reads.resetPoll i &&& usbcmdRst = 0

/-- The reset is over where `USBCMD` is read again to be written back. -/
def ReadsClear (k : Call) : Prop :=
  k.reads.usbcmdItc &&& usbcmdRst = 0 ∧ k.reads.usbcmdRun &&& usbcmdRst = 0

/-! ## Stores of the reset bit -/

def echo (value : UInt32) : Nat := if value &&& usbcmdRst ≠ 0 then 1 else 0

@[simp] theorem resets_rd (off : UInt32) (c : Core) : (c.rd off).resets = c.resets := by
  rw [Core.resets, Core.rd, List.countP_append]
  rfl

theorem resets_wr {off : UInt32} (other : off ≠ usbcmd) (value : UInt32) (c : Core) :
    (c.wr off value).resets = c.resets := by
  have none_ : Access.resets (.write off value) = false := by
    rw [Access.resets, decide_eq_false other, Bool.false_and]
  rw [Core.resets, Core.wr, List.countP_append, List.countP_singleton, none_]
  rfl

theorem resets_wr_usbcmd (value : UInt32) (c : Core) :
    (c.wr usbcmd value).resets = c.resets + echo value := by
  have here : Access.resets (.write usbcmd value) = decide (value &&& usbcmdRst ≠ 0) := by
    rw [Access.resets, decide_eq_true rfl, Bool.true_and]
  rw [Core.resets, Core.wr, List.countP_append, List.countP_singleton, here, echo]
  by_cases set_ : value &&& usbcmdRst ≠ 0
  · rw [if_pos set_, decide_eq_true set_]
    rfl
  · rw [if_neg set_, decide_eq_false set_]
    rfl

@[simp] theorem resets_ticked (c : Core) : c.ticked.resets = c.resets := rfl

/-! ## The waits end -/

section Waits
variable {k : Call} (rising : StrictMono k.tick)
include rising

theorem delayLoop_gains (start want : Nat) :
    ∀ c, ∃ d, Converges (fun fuel => delayLoop k.tick start want fuel c) d ∧ d.resets = c.resets := by
  -- the counter is read once a turn and goes up, towards `start + want`
  suffices down : ∀ n c, start + want - k.tick c.clock ≤ n →
      ∃ d, Converges (fun fuel => delayLoop k.tick start want fuel c) d ∧ d.resets = c.resets from
    fun c => down _ c (Nat.le_refl _)
  intro n
  induction n with
  | zero =>
      intro c near
      refine ⟨c.ticked, Converges.last fun fuel => ?_, rfl⟩
      rw [delayLoop, if_neg (by omega)]
  | succ n ih =>
      intro c near
      by_cases before : k.tick c.clock - start < want
      · have up : k.tick c.clock < k.tick c.ticked.clock := rising (Nat.lt_succ_self c.clock)
        obtain ⟨d, rest, same⟩ := ih c.ticked (by omega)
        refine ⟨d, rest.succ fun fuel => ?_, same⟩
        rw [delayLoop, if_pos before]
      · refine ⟨c.ticked, Converges.last fun fuel => ?_, rfl⟩
        rw [delayLoop, if_neg before]

theorem delayUs_gains (us : Nat) : Gains Core.resets (usbDevDelayUs k us) 0 := by
  intro c
  by_cases stopped : k.freq = 0
  · simp only [usbDevDelayUs, if_pos stopped]
    exact ⟨c, Converges.pure c, rfl⟩
  · obtain ⟨d, ends, same⟩ :=
      delayLoop_gains rising (k.tick c.clock) (us * k.freq.toNat / 1000000) c.ticked
    simp only [usbDevDelayUs, if_neg stopped]
    exact ⟨d, ends, same⟩

theorem ulpiPoll_gains (transaction : Fin 3) (left : Nat) :
    Gains Core.resets (fun fuel c => usbDevUlpiPoll k transaction fuel left c) 0 := by
  induction left with
  | zero => exact fun c => ⟨c, Converges.pure c, rfl⟩
  | succ left ih =>
      intro c
      dsimp only [usbDevUlpiPoll]
      by_cases idle : k.reads.viewport transaction (ulpiIoTimeout - (left + 1)) &&& ulpiRun = 0
      · simp only [if_pos idle]
        exact ⟨c.rd ulpiViewport, Converges.pure _, resets_rd _ c⟩
      · simp only [if_neg idle]
        obtain ⟨d, waited, gained⟩ := (delayUs_gains rising ulpiPollUs).bind ih (c.rd ulpiViewport)
        exact ⟨d, waited, by rw [gained, resets_rd]⟩

theorem ulpiWrite_gains (transaction : Fin 3) (reg val : UInt32) :
    Gains Core.resets (usbDevUlpiWrite k transaction reg val) 0 := by
  intro c
  obtain ⟨d, ends, gained⟩ := ulpiPoll_gains rising transaction ulpiIoTimeout
    (c.wr ulpiViewport (ulpiRun ||| ulpiWriteBit ||| ((reg &&& 0xff) <<< 16) ||| (val &&& 0xff)))
  exact ⟨d, ends, by rw [gained, resets_wr (by decide)]⟩

theorem phyPor_gains (pair : Fin 2) : Gains Core.resets (usbDevPhyPor k pair) 0 := by
  intro c
  obtain ⟨d, ends, gained⟩ := delayUs_gains rising phyPorUs
    ((c.rd phyCtrl).wr phyCtrl ((k.reads.phyCtrl pair 0 &&& ~~~phyPorBitMask) ||| phyPorAssert))
  refine ⟨_, ends.map _, ?_⟩
  rw [resets_wr (by decide), resets_rd, gained, resets_wr (by decide), resets_rd]

/-- The loop of the link reset ends by the clock, or by a read that has the bit clear. -/
theorem resetLoop_ends (t0 : Nat) (clears : Clears k) :
    ∀ c, ∃ d, Converges (fun fuel => resetLoop k t0 fuel 0 c) d ∧ d.resets = c.resets := by
  have turn (fuel i : Nat) (c : Core) : resetLoop k t0 (fuel + 1) i c =
      if k.reads.resetPoll i &&& usbcmdRst = 0 then some (c.ticked.rd usbcmd)
      else if k.freq ≠ 0 ∧ k.tick c.clock - t0 > linkResetUs * k.freq.toNat / 1000000 then
        some (c.ticked.rd usbcmd)
      else resetLoop k t0 fuel (i + 1) (c.ticked.rd usbcmd) := rfl
  set limit := linkResetUs * k.freq.toNat / 1000000 with limit_eq
  have stop (i : Nat) (c : Core) (done : k.reads.resetPoll i &&& usbcmdRst = 0 ∨
      (k.freq ≠ 0 ∧ k.tick c.clock - t0 > limit)) :
      ∃ d, Converges (fun fuel => resetLoop k t0 fuel i c) d ∧ d.resets = c.resets := by
    refine ⟨c.ticked.rd usbcmd, Converges.last fun fuel => ?_, resets_rd usbcmd c.ticked⟩
    rw [turn]
    by_cases clear : k.reads.resetPoll i &&& usbcmdRst = 0
    · rw [if_pos clear]
    · rw [if_neg clear, if_pos (done.resolve_left clear)]
  have goOn (i : Nat) (c : Core) (rest : ∃ d, Converges
      (fun fuel => resetLoop k t0 fuel (i + 1) (c.ticked.rd usbcmd)) d ∧
        d.resets = (c.ticked.rd usbcmd).resets) :
      ∃ d, Converges (fun fuel => resetLoop k t0 fuel i c) d ∧ d.resets = c.resets := by
    by_cases done : k.reads.resetPoll i &&& usbcmdRst = 0 ∨ (k.freq ≠ 0 ∧ k.tick c.clock - t0 > limit)
    · exact stop i c done
    · rw [not_or] at done
      obtain ⟨d, ends, same⟩ := rest
      refine ⟨d, ends.succ fun fuel => ?_, by rw [same, resets_rd, resets_ticked]⟩
      rw [turn, if_neg done.1, if_neg done.2]
  rcases clears with runs | ⟨last, clear⟩
  · suffices down : ∀ n i c, t0 + limit + 1 - k.tick c.clock ≤ n →
        ∃ d, Converges (fun fuel => resetLoop k t0 fuel i c) d ∧ d.resets = c.resets from
      fun c => down _ 0 c (Nat.le_refl _)
    intro n
    induction n with
    | zero => exact fun i c near => stop i c (.inr ⟨runs, by omega⟩)
    | succ n ih =>
        intro i c near
        by_cases late : k.tick c.clock - t0 > limit
        · exact stop i c (.inr ⟨runs, late⟩)
        · have up : k.tick c.clock < k.tick (c.ticked.rd usbcmd).clock := rising (Nat.lt_succ_self c.clock)
          exact goOn i c (ih (i + 1) (c.ticked.rd usbcmd) (by omega))
  · suffices down : ∀ n i c, last - i ≤ n → i ≤ last →
        ∃ d, Converges (fun fuel => resetLoop k t0 fuel i c) d ∧ d.resets = c.resets from
      fun c => down last 0 c (Nat.le_refl _) (Nat.zero_le last)
    intro n
    induction n with
    | zero =>
        intro i c near before
        obtain rfl : i = last := by omega
        exact stop i c (.inl clear)
    | succ n ih =>
        intro i c near before
        by_cases here : i = last
        · exact stop i c (.inl (here ▸ clear))
        · exact goOn i c (ih (i + 1) (c.ticked.rd usbcmd) (by omega) (by omega))

end Waits

/-- Without a frequency and with the bit stuck the loop goes on for ever. -/
theorem resetLoop_stalls {k : Call} (t0 : Nat) (stopped : k.freq = 0)
    (stuck : ∀ i, k.reads.resetPoll i &&& usbcmdRst ≠ 0) (fuel : Nat) :
    ∀ i c, resetLoop k t0 fuel i c = none := by
  induction fuel with
  | zero => exact fun i c => rfl
  | succ fuel ih =>
      intro i c
      simp only [resetLoop]
      rw [if_neg (stuck i), if_neg fun both => both.1 stopped, ih]

/-! ## The body -/

theorem echo_rst : echo usbcmdRst = 1 := by decide

theorem echo_clearItc (value : UInt32) : echo (value &&& ~~~usbcmdItcMask) = echo value := by
  have kept : ~~~usbcmdItcMask &&& usbcmdRst = usbcmdRst := by decide
  rw [echo, UInt32.and_assoc, kept, echo]

theorem echo_setRun (value : UInt32) : echo (value ||| usbcmdRs) = echo value := by
  have apart : usbcmdRs &&& usbcmdRst = 0 := by decide
  rw [echo, or_and, apart, UInt32.or_zero, echo]

theorem echo_eq_zero (value : UInt32) : echo value = 0 ↔ value &&& usbcmdRst = 0 := by
  rw [echo]
  by_cases set_ : value &&& usbcmdRst = 0
  · rw [if_neg fun other => other set_]
    exact ⟨fun _ => set_, fun _ => rfl⟩
  · rw [if_pos set_]
    exact ⟨fun one => absurd one Nat.one_ne_zero, fun zero => absurd zero set_⟩

theorem now_gains {f : Core → Core} {gain : Nat} (gains : ∀ c, (f c).resets = c.resets + gain) :
    Gains Core.resets (now f) gain := Gains.pure gains

theorem selectUlpi_resets (k : Call) (c : Core) : (selectUlpi k c).resets = c.resets := by
  rw [selectUlpi, resets_rd, resets_wr (by decide), resets_rd]
  split
  · rw [resets_wr (by decide), resets_rd]
  · exact resets_rd ahbmode c

theorem linkReset_gains {k : Call} (rising : StrictMono k.tick) (clears : Clears k) :
    Gains Core.resets (linkReset k) 1 := by
  intro c
  obtain ⟨d, ends, same⟩ := resetLoop_ends rising
    (k.tick ((c.rd usbcmd).wr usbcmd usbcmdRst).clock) clears ((c.rd usbcmd).wr usbcmd usbcmdRst).ticked
  refine ⟨_, ends.map _, ?_⟩
  rw [resets_rd, resets_wr (by decide), resets_wr (by decide), same, resets_ticked, resets_wr_usbcmd,
    resets_rd, echo_rst]

/-- A bring-up whose reset ends stores the bit once, and again for each read that still has it. -/
theorem bringUp_gains {k : Call} (rising : StrictMono k.tick) (clears : Clears k) :
    Gains Core.resets (fun fuel c => runAll fuel (bringUp k) c)
      (1 + (echo k.reads.usbcmdItc + echo k.reads.usbcmdRun)) := by
  have all : List.Forall₂ (Gains Core.resets) (bringUp k)
      [0, 1, 0, 0, 0, 0, 0, 0, 0, 0, 0, echo k.reads.usbcmdItc, echo k.reads.usbcmdRun, 0] := by
    refine .cons (now_gains (selectUlpi_resets k)) (.cons (linkReset_gains rising clears)
      (.cons (delayUs_gains rising mSleepUs) (.cons (phyPor_gains rising 0)
      (.cons (ulpiWrite_gains rising 0 _ _) (.cons (phyPor_gains rising 1) (.cons (now_gains fun c => ?_)
      (.cons (ulpiWrite_gains rising 1 _ _) (.cons (ulpiWrite_gains rising 2 _ _)
      (.cons (now_gains (resets_rd otgsc)) (.cons (now_gains fun c => ?_) (.cons (now_gains fun c => ?_)
      (.cons (now_gains fun c => ?_) (.cons (now_gains fun c => ?_) .nil)))))))))))))
    · rw [otgEnable, resets_wr (by decide), resets_rd]
      rfl
    · change (((((c.wr usbmode usbmodeCmIdle).wr usbmode usbmodeCmDevice).rd usbmode).wr usbmode
        (k.reads.usbmode ||| usbmodeSlom)).rd usbmode).resets = _
      rw [resets_rd, resets_wr (by decide), resets_rd, resets_wr (by decide), resets_wr (by decide)]
      rfl
    · rw [clearItc, resets_wr_usbcmd, resets_rd, echo_clearItc]
    · rw [setRun, resets_rd, resets_wr_usbcmd, resets_rd, echo_setRun]
    · rw [resets_rd, resets_rd, resets_rd]
      rfl
  have sum : [0, 1, 0, 0, 0, 0, 0, 0, 0, 0, 0, echo k.reads.usbcmdItc, echo k.reads.usbcmdRun, 0].sum =
      1 + (echo k.reads.usbcmdItc + echo k.reads.usbcmdRun) := by
    simp only [List.sum_cons, List.sum_nil]
    omega
  rw [← sum]
  exact runAll_gains all

theorem bringUp_stalls {k : Call} (stuck : ¬ Clears k) (c : Core) :
    Stalls fun fuel => runAll fuel (bringUp k) c := by
  rw [Clears, not_or, not_not, not_exists] at stuck
  have member : linkReset k ∈ bringUp k := List.mem_cons_of_mem _ List.mem_cons_self
  refine runAll_stalls (fun d fuel => ?_) member c
  dsimp only [linkReset]
  rw [resetLoop_stalls _ stuck.1 stuck.2, Option.map_none]

/-! ## The calls -/

section Calls
variable {force : Bool} {k : Call}

theorem initBody_turned (turned : ¬ Proceeds force k) (fuel : Nat) (c : Core) :
    initBody force k fuel c = some (if owned k then c.rd usbmode else c) := by
  rw [initBody]
  by_cases own : owned k = true
  · have mode : (isDevice k || force) = false := by
      rw [Bool.or_eq_false_iff]
      constructor
      · exact eq_false_of_ne_true fun device => turned ⟨own, .inl device⟩
      · exact eq_false_of_ne_true fun forced => turned ⟨own, .inr forced⟩
    rw [if_pos own, if_pos own]
    dsimp only
    rw [mode, if_neg Bool.false_ne_true]
  · rw [if_neg own, if_neg own]

theorem initBody_proceeds (proceeds : Proceeds force k) (fuel : Nat) (c : Core) :
    initBody force k fuel c = runAll fuel (bringUp k) (c.rd usbmode) := by
  have mode : (isDevice k || force) = true := by
    rw [Bool.or_eq_true]
    exact proceeds.2
  rw [initBody, if_pos proceeds.1]
  dsimp only
  rw [if_pos mode]

/-- What the first call ends in, and how often it stores the reset bit. -/
theorem initBody_ends (rising : StrictMono k.tick) (clears : Proceeds force k → Clears k) (c : Core) :
    ∃ d, Converges (fun fuel => initBody force k fuel c) d ∧
      (¬ Proceeds force k → d.resets = c.resets) ∧
      (Proceeds force k → d.resets = c.resets + (1 + (echo k.reads.usbcmdItc + echo k.reads.usbcmdRun))) := by
  by_cases proceeds : Proceeds force k
  · obtain ⟨d, ends, gained⟩ := bringUp_gains rising (clears proceeds) (c.rd usbmode)
    rw [resets_rd] at gained
    refine ⟨d, ?_, fun turned => absurd proceeds turned, fun _ => gained⟩
    simp only [initBody_proceeds proceeds]
    exact ends
  · refine ⟨_, Converges.last fun fuel => initBody_turned proceeds (fuel + 1) c, fun _ => ?_,
      fun goes => absurd goes proceeds⟩
    split
    · exact resets_rd usbmode c
    · rfl

theorem latched (s : Statics) (done : s.done ≠ 0) (calls : List Call) :
    Converges (fun fuel => initRun force calls fuel s) s := by
  induction calls with
  | nil => exact Converges.pure s
  | cons k calls ih =>
      have first : Converges (fun fuel => entryUsbDevInit force k fuel s) s := by
        simp only [entryUsbDevInit, if_pos done]
        exact Converges.pure s
      exact first.bind ih

theorem initRun_cons {d : Core} (calls : List Call)
    (ends : Converges (fun fuel => initBody force k fuel bootStatics.core) d) :
    Converges (fun fuel => initRun force (k :: calls) fuel bootStatics) ⟨1, d⟩ := by
  have first : Converges (fun fuel => entryUsbDevInit force k fuel bootStatics) ⟨1, d⟩ := by
    have opened : ¬ bootStatics.done ≠ 0 := fun closed => closed rfl
    simp only [entryUsbDevInit, if_neg opened]
    exact ends.map (Statics.mk 1)
  exact first.bind (latched ⟨1, d⟩ (by decide : (1 : UInt32) ≠ 0) calls)

theorem initRun_stalls (proceeds : Proceeds force k) (stuck : ¬ Clears k) (calls : List Call) :
    Stalls fun fuel => initRun force (k :: calls) fuel bootStatics := by
  intro fuel
  have opened : ¬ bootStatics.done ≠ 0 := fun closed => closed rfl
  have stalls : runAll fuel (bringUp k) (bootStatics.core.rd usbmode) = none :=
    bringUp_stalls stuck (bootStatics.core.rd usbmode) fuel
  have first : entryUsbDevInit force k fuel bootStatics = none := by
    rw [entryUsbDevInit, if_neg opened, initBody_proceeds proceeds, stalls, Option.map_none]
  dsimp only [initRun]
  rw [List.map_cons, runAll, first, Option.bind_none]

theorem init_refused (none_ : entryMmioSection k.machine otgBase otgBase = none)
    (other : usbDevSectionIsOurs (slotBefore k.machine otgBase) = false) (s t : Statics)
    (ends : Converges (fun fuel => entryUsbDevInit force k fuel s) t) : t.core.log = s.core.log := by
  have unowned : owned k = false := by
    rw [owned, none_, other]
    rfl
  obtain ⟨n, answers⟩ := ends
  have answer := answers n (Nat.le_refl n)
  dsimp only [entryUsbDevInit] at answer
  split at answer
  · rw [← Option.some.inj answer]
  · rw [initBody_turned (fun proceeds => absurd (unowned.symm.trans proceeds.1) Bool.false_ne_true),
      unowned, Option.map_some] at answer
    rw [← Option.some.inj answer]
    rfl

theorem init_inert (plain : force = false) (other : isDevice k = false) (s t : Statics)
    (ends : Converges (fun fuel => entryUsbDevInit force k fuel s) t) :
    t.core.log.filter Access.stores = s.core.log.filter Access.stores := by
  have turned : ¬ Proceeds force k := by
    intro ⟨_, mode⟩
    rcases mode with device | forced
    · exact absurd (other.symm.trans device) Bool.false_ne_true
    · exact absurd (plain.symm.trans forced) Bool.false_ne_true
  obtain ⟨n, answers⟩ := ends
  have answer := answers n (Nat.le_refl n)
  dsimp only [entryUsbDevInit] at answer
  split at answer
  · rw [← Option.some.inj answer]
  · rw [initBody_turned turned, Option.map_some] at answer
    rw [← Option.some.inj answer]
    dsimp only
    split
    · rw [Core.rd, List.filter_append]
      exact List.append_nil _
    · rfl

end Calls

/-- The calls of a boot do what they have to, exactly if the first of them is turned away or meets a reset
that ends and has ended where `USBCMD` is read again. -/
theorem brought_up_iff (force : Bool) (calls : List Call) (rising : ∀ k ∈ calls, StrictMono k.tick) :
    BroughtUp force calls ↔
      ∀ k ∈ calls.head?, Proceeds force k → Clears k ∧ ReadsClear k := by
  cases calls with
  | nil =>
      have run : Converges (fun fuel => initRun force [] fuel bootStatics) bootStatics :=
        Converges.pure bootStatics
      refine ⟨fun _ k first => absurd first (by simp), fun _ => ⟨?_, ?_, ?_, ?_⟩⟩
      · exact ⟨bootStatics, run⟩
      · exact fun k member => absurd member List.not_mem_nil
      · exact fun _ k member => absurd member List.not_mem_nil
      · intro s ends
        rw [← run.unique ends]
        exact Nat.zero_le 1
  | cons k calls =>
      have up := rising k List.mem_cons_self
      have first (p : Call → Prop) : (∀ j ∈ (k :: calls).head?, p j) ↔ p k := by simp
      rw [first]
      constructor
      · intro broughtUp proceeds
        by_cases clears : Clears k
        · obtain ⟨d, ends, _, resets⟩ := @initBody_ends force k up (fun _ => clears) bootStatics.core
          have once := broughtUp.once _ (initRun_cons calls ends)
          have count := resets proceeds
          have zero : bootStatics.core.resets = 0 := rfl
          dsimp only at once
          rw [zero] at count
          refine ⟨clears, (echo_eq_zero _).mp ?_, (echo_eq_zero _).mp ?_⟩
          · omega
          · omega
        · obtain ⟨s, ends⟩ := broughtUp.ends
          exact absurd ends (initRun_stalls proceeds clears calls).not_converges
      · intro condition
        obtain ⟨d, ends, turned, resets⟩ :=
          initBody_ends up (fun proceeds => (condition proceeds).1) bootStatics.core
        have run := initRun_cons calls ends
        refine ⟨⟨_, run⟩, fun j _ => init_refused, fun plain j _ => init_inert plain, ?_⟩
        intro s other
        rw [← run.unique other]
        have zero : bootStatics.core.resets = 0 := rfl
        by_cases proceeds : Proceeds force k
        · obtain ⟨itc, go⟩ := (condition proceeds).2
          dsimp only
          rw [resets proceeds, zero, (echo_eq_zero _).mpr itc, (echo_eq_zero _).mpr go]
        · dsimp only
          rw [turned proceeds, zero]
          exact Nat.zero_le 1

/-- A controller in device mode in an empty slot, whose `USBCMD` always reads the same in the loop. -/
def readsOf (poll : UInt32) : Reads where
  usbmodeBefore := 2
  ahbmode := 0
  portscBefore := 0
  portscPts := 0
  usbcmdBefore := 0
  resetPoll := fun _ => poll
  portscReset := 0
  phyCtrl := fun _ _ => 0
  viewport := fun _ _ => 0
  otgscBefore := 0
  otgscWrote := 0
  usbmode := 2
  usbmodeAfter := 2
  usbcmdItc := 0
  usbcmdRun := 0
  usbcmdAfter := 0
  portsc := 0
  otgsc := 0
  usbsts := 0

theorem zero_aligned : (0 : UInt32) &&& 0x3f80 = 0 := by decide

def emptyTable : Machine where
  mem := fun _ => 0
  ttbr0 := 0x80004000
  ttbr1 := ⟨0, zero_aligned⟩
  ttbcr := 0
  gPhysBase := 0x80000000
  memSize := 0x10000000
  liveState := 1
  liveAttr := 0xc

def callOf (poll freq : UInt32) : Call := ⟨readsOf poll, freq, id, emptyTable⟩

theorem brought_up_clear : BroughtUp false [callOf 0 0] := by
  apply (brought_up_iff false [callOf 0 0] (by
    intro k member
    rw [List.mem_singleton.mp member]
    exact strictMono_id)).mpr
  intro k first _
  obtain rfl : callOf 0 0 = k := by simpa using first
  exact ⟨.inr ⟨0, by decide⟩, by decide, by decide⟩

/-- With `CNTFRQ` zero a reset bit that stays set is polled for ever. -/
theorem stuck_reset_hangs :
    ¬ ∀ (force : Bool) (calls : List Call), (∀ k ∈ calls, StrictMono k.tick) → BroughtUp force calls := by
  intro holds
  obtain ⟨s, ends⟩ := (holds false [callOf 2 0] (by
    intro k member
    rw [List.mem_singleton.mp member]
    exact strictMono_id)).ends
  have proceeds : Proceeds false (callOf 2 0) := ⟨by decide, .inl (by decide)⟩
  have stuck : ¬ Clears (callOf 2 0) := by
    intro clears
    rcases clears with runs | ⟨i, clear⟩
    · exact runs rfl
    · have set_ : (callOf 2 0).reads.resetPoll i = 2 := rfl
      rw [set_] at clear
      exact absurd clear (by decide)
  exact (initRun_stalls proceeds stuck []).not_converges ends

end Stage90.Usb.Bringup

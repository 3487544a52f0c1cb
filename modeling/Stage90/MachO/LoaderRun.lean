import Mathlib.Logic.Function.Iterate
import Stage90.MachO.Loader

/-!
# What the loader loads

Turn after turn of the command loop: a segment whose sizes make sense is either passed over, or
its range holds its content from then on, until a later segment covers it.
-/

set_option autoImplicit false

namespace Stage90.MachO

open Stage90.Lib

/-! ## Segments -/

/-- Content no longer than the segment, which ends before the last address, and a range in the
file. -/
structure Segment.Sane (seg : Segment) (machoSize : UInt32) : Prop where
  content : seg.filesize ≤ seg.vmsize
  ends : seg.vmaddr.toNat + seg.vmsize.toNat < 2 ^ 32
  file : seg.fileoff.toNat + seg.filesize.toNat ≤ machoSize.toNat

def Segment.Fits (seg : Segment) : Prop :=
  loadWindowBase.toNat ≤ seg.vmaddr.toNat ∧
    seg.vmaddr.toNat + seg.vmsize.toNat ≤ loadWindowEnd.toNat

def Loads (env : Env) (seg : Segment) : Prop := env.live ∧ seg.Fits

def Segment.Covers (seg : Segment) (a : UInt32) : Prop := a - seg.vmaddr < seg.vmsize

instance (seg : Segment) : Decidable seg.Fits := inferInstanceAs (Decidable (_ ∧ _))
instance (env : Env) (seg : Segment) : Decidable (Loads env seg) :=
  inferInstanceAs (Decidable (_ ∧ _))
instance (seg : Segment) (a : UInt32) : Decidable (seg.Covers a) :=
  inferInstanceAs (Decidable (_ < _))

def Segment.byte (seg : Segment) (env : Env) (mem : Mem) (a : UInt32) : UInt8 :=
  if a - seg.vmaddr < seg.filesize then mem (env.machoBase + seg.fileoff + (a - seg.vmaddr)) else 0

variable {env : Env} {seg : Segment}

def placed (env : Env) (mem : Mem) (seg : Segment) : Mem :=
  memset (memcpy mem seg.vmaddr (env.machoBase + seg.fileoff) seg.filesize)
    (seg.vmaddr + seg.filesize) 0 (seg.vmsize - seg.filesize)

theorem loadSegment_loads (sane : seg.Sane env.machoSize) (some_ : seg.vmsize ≠ 0)
    (loads : Loads env seg) (mem : Mem) (r : Result) :
    loadSegment env mem seg r =
      (placed env mem seg, { r with segmentsLoaded := r.segmentsLoaded + 1 }) := by
  obtain ⟨live, base, within⟩ := loads
  have size : 0 < seg.vmsize.toNat := by
    apply Nat.pos_of_ne_zero
    intro none_
    exact some_ (UInt32.toNat_inj.mp none_)
  have lower : ¬ (seg.vmaddr < loadWindowBase ∨ loadWindowEnd ≤ seg.vmaddr) := by
    rw [UInt32.lt_iff_toNat_lt, UInt32.le_iff_toNat_le]
    omega
  have upper : ¬ loadWindowEnd < seg.vmaddr + seg.vmsize := by
    have ends := sane.ends
    rw [UInt32.lt_iff_toNat_lt, UInt32.toNat_add]
    omega
  rw [loadSegment, if_neg some_]
  dsimp only
  rw [live, Bool.not_true, if_neg Bool.false_ne_true, if_neg lower, if_neg upper, memcpy_guard,
    memset_guard]
  rfl

/-- No byte of the image lies in the window. -/
def ImageApart (env : Env) : Prop :=
  ∀ a, a - env.machoBase < env.machoSize → ¬ (loadWindowBase ≤ a ∧ a < loadWindowEnd)

theorem covers_window (sane : seg.Sane env.machoSize) (fits : seg.Fits) {a : UInt32}
    (covers : seg.Covers a) : loadWindowBase ≤ a ∧ a < loadWindowEnd := by
  have within := (offset_lt_iff (Nat.le_of_lt sane.ends)).mp covers
  obtain ⟨lower, upper⟩ := fits
  rw [UInt32.le_iff_toNat_le, UInt32.lt_iff_toNat_lt]
  omega

/-- An address of the segment's content is one of the image that it comes from. -/
theorem content_inside (sane : seg.Sane env.machoSize) {i : UInt32} (content : i < seg.filesize) :
    env.machoBase + seg.fileoff + i - env.machoBase < env.machoSize := by
  have file := sane.file
  have size := env.machoSize.toNat_lt
  have offset : env.machoBase + seg.fileoff + i - env.machoBase = seg.fileoff + i := by grind
  rw [UInt32.lt_iff_toNat_lt] at content ⊢
  rw [offset, UInt32.toNat_add]
  omega

theorem copy_clear (apart : ImageApart env) (sane : seg.Sane env.machoSize) (fits : seg.Fits) :
    seg.filesize ≤ seg.vmaddr - (env.machoBase + seg.fileoff) := by
  apply clear_of_apart
  intro a inside copied
  have place : env.machoBase + seg.fileoff + (a - (env.machoBase + seg.fileoff)) = a := by grind
  have image := content_inside sane inside
  rw [place] at image
  exact apart a image (covers_window sane fits (UInt32.lt_of_lt_of_le copied sane.content))

theorem placed_outside (sane : seg.Sane env.machoSize) {a : UInt32} (outside : ¬ seg.Covers a)
    (mem : Mem) : placed env mem seg a = mem a :=
  memcpy_memset_outside mem sane.content outside

theorem placed_eq (apart : ImageApart env) (sane : seg.Sane env.machoSize) (fits : seg.Fits)
    (mem : Mem) :
    placed env mem seg = fun a => if seg.Covers a then seg.byte env mem a else mem a := by
  funext a
  exact memcpy_memset mem (copy_clear apart sane fits) sane.content a

theorem loadSegment_skips (sane : seg.Sane env.machoSize) (skips : ¬ Loads env seg) (mem : Mem)
    (r : Result) :
    (loadSegment env mem seg r).1 = mem ∧
      (loadSegment env mem seg r).2.segmentsLoaded = r.segmentsLoaded := by
  have ends := sane.ends
  rw [loadSegment]
  by_cases none_ : seg.vmsize = 0
  · rw [if_pos none_]
    exact ⟨rfl, rfl⟩
  · rw [if_neg none_]
    dsimp only
    by_cases live : env.live
    · rw [live, Bool.not_true, if_neg Bool.false_ne_true]
      split
      · exact ⟨rfl, rfl⟩
      · rename_i inside
        rw [if_pos]
        · exact ⟨rfl, rfl⟩
        · rw [UInt32.lt_iff_toNat_lt, UInt32.le_iff_toNat_le] at inside
          rw [UInt32.lt_iff_toNat_lt, UInt32.toNat_add]
          apply Nat.lt_of_not_le
          intro within
          apply skips
          refine ⟨live, ?_, ?_⟩ <;> omega
    · rw [Bool.eq_false_iff.mpr live, Bool.not_false, if_pos rfl]
      exact ⟨rfl, rfl⟩

theorem loadSegment_unmapped (some_ : seg.vmsize ≠ 0) (live : env.live = false) (mem : Mem)
    (r : Result) :
    loadSegment env mem seg r = (mem, { r with segmentsUnmapped := r.segmentsUnmapped + 1 }) := by
  rw [loadSegment, if_neg some_]
  dsimp only
  rw [live, Bool.not_false, if_pos rfl]

/-! ## Turns -/

/-- The loop's variables before its `k`-th turn. -/
def stateAt (env : Env) (mem : Mem) (k : Nat) : LoadState := (loadCommand env)^[k] (.init env mem)

theorem stateAt_succ (env : Env) (mem : Mem) (k : Nat) :
    stateAt env mem (k + 1) = loadCommand env (stateAt env mem k) :=
  Function.iterate_succ_apply' _ _ _

def LoadState.segment (s : LoadState) (env : Env) : Option Segment :=
  if read32 s.mem (s.lc env) = lcSegment ∧ (segmentAt s.mem (s.lc env)).vmsize ≠ 0 then
    some (segmentAt s.mem (s.lc env))
  else none

theorem recordSegment_keeps (s : LoadState) (p : UInt32) :
    (recordSegment s p).mem = s.mem ∧
      (recordSegment s p).r.segmentsLoaded = s.r.segmentsLoaded ∧
      (recordSegment s p).r.segmentsUnmapped = s.r.segmentsUnmapped := by
  rw [recordSegment]
  dsimp only
  split
  · exact ⟨rfl, rfl, rfl⟩
  · split
    · exact ⟨rfl, rfl, rfl⟩
    · split
      · exact ⟨rfl, rfl, rfl⟩
      · exact ⟨rfl, rfl, rfl⟩

theorem recordSegment_mem (s : LoadState) (p : UInt32) : (recordSegment s p).mem = s.mem :=
  (recordSegment_keeps s p).1

theorem segmentAt_none {s : LoadState} (segment : s.segment env = none)
    (command : read32 s.mem (s.lc env) = lcSegment) :
    (segmentAt s.mem (s.lc env)).vmsize = 0 := by
  by_cases none_ : (segmentAt s.mem (s.lc env)).vmsize = 0
  · exact none_
  · rw [LoadState.segment, if_pos ⟨command, none_⟩] at segment
    exact absurd segment (Option.some_ne_none _)

theorem segment_some {s : LoadState} (segment : s.segment env = some seg) :
    read32 s.mem (s.lc env) = lcSegment ∧ segmentAt s.mem (s.lc env) = seg ∧ seg.vmsize ≠ 0 := by
  by_cases reads : read32 s.mem (s.lc env) = lcSegment ∧ (segmentAt s.mem (s.lc env)).vmsize ≠ 0
  · rw [LoadState.segment, if_pos reads, Option.some_inj] at segment
    rw [← segment]
    exact ⟨reads.1, rfl, reads.2⟩
  · rw [LoadState.segment, if_neg reads] at segment
    exact absurd segment.symm (Option.some_ne_none _)

theorem loadCommand_none {s : LoadState} (segment : s.segment env = none) :
    (loadCommand env s).mem = s.mem := by
  rw [loadCommand]
  dsimp only
  by_cases command : read32 s.mem (s.lc env) = lcSegment
  · rw [if_pos command, loadSegment, if_pos (segmentAt_none segment command)]
    exact recordSegment_mem _ _
  · rw [if_neg command]
    split
    · rfl
    · rfl

/-- A turn that reads a segment does to memory and to the two counters what `loadSegment` does. -/
theorem loadCommand_some {s : LoadState} (segment : s.segment env = some seg) :
    (loadCommand env s).mem = (loadSegment env s.mem seg s.r).1 ∧
      (loadCommand env s).r.segmentsLoaded =
        (loadSegment env s.mem seg s.r).2.segmentsLoaded ∧
      (loadCommand env s).r.segmentsUnmapped =
        (loadSegment env s.mem seg s.r).2.segmentsUnmapped := by
  obtain ⟨command, reads, -⟩ := segment_some segment
  rw [loadCommand]
  dsimp only
  rw [if_pos command, reads]
  exact recordSegment_keeps _ _

theorem loadCommand_i (s : LoadState) : (loadCommand env s).i = s.i + 1 := by
  rw [loadCommand]
  dsimp only
  congr 1
  split
  · rw [recordSegment]
    dsimp only
    split
    · rfl
    · split
      · rfl
      · split
        · rfl
        · rfl
  · split
    · rfl
    · rfl

theorem stateAt_i (env : Env) (mem : Mem) (k : Nat) :
    (stateAt env mem k).i = UInt32.ofNat k := by
  induction k with
  | zero => rfl
  | succ k ih => rw [stateAt_succ, loadCommand_i, ih, UInt32.ofNat_add, UInt32.ofNat_one]

/-! ## The loop as its turns -/

def Reached (env : Env) (mem : Mem) (k : Nat) : Prop := ∀ j ≤ k, (stateAt env mem j).more env

/-- The `k`-th turn reads a segment. -/
structure Turn (env : Env) (mem : Mem) (k : Nat) (seg : Segment) : Prop where
  reached : Reached env mem k
  segment : (stateAt env mem k).segment env = some seg

theorem commandLoop_stateAt (env : Env) (mem : Mem) (turns n : Nat) :
    ∃ m ≤ turns, commandLoop env turns (stateAt env mem n) = stateAt env mem (n + m) ∧
      (∀ j < m, (stateAt env mem (n + j)).more env) ∧
        (m < turns → ¬ (stateAt env mem (n + m)).more env) := by
  induction turns generalizing n with
  | zero => exact ⟨0, Nat.le_refl 0, rfl, fun j none_ => absurd none_ (Nat.not_lt_zero j),
      fun none_ => absurd none_ (Nat.not_lt_zero 0)⟩
  | succ turns ih =>
      rw [commandLoop]
      by_cases more : (stateAt env mem n).more env
      · rw [if_pos more, ← stateAt_succ]
        obtain ⟨m, within, ends, before, stops⟩ := ih (n + 1)
        refine ⟨m + 1, Nat.succ_le_succ within, ?_, ?_, ?_⟩
        · rw [ends, Nat.add_right_comm, Nat.add_assoc]
        · intro j early
          cases j with
          | zero => exact more
          | succ j =>
              rw [show n + (j + 1) = n + 1 + j by omega]
              exact before j (Nat.lt_of_succ_lt_succ early)
        · intro short
          rw [show n + (m + 1) = n + 1 + m by omega]
          exact stops (Nat.lt_of_succ_lt_succ short)
      · rw [if_neg more]
        exact ⟨0, Nat.zero_le _, rfl, fun j none_ => absurd none_ (Nat.not_lt_zero j),
          fun _ => more⟩

/-- A 32-bit counter is not below a 32-bit bound for ever. -/
theorem reached_lt {mem : Mem} {k : Nat} (reached : Reached env mem k) : k < 2 ^ 32 - 1 := by
  by_contra late
  have last := reached (2 ^ 32 - 1) (Nat.not_lt.mp late)
  rw [LoadState.more, stateAt_i, decide_eq_true_iff, UInt32.lt_iff_toNat_lt,
    UInt32.toNat_ofNat_of_lt' (by decide)] at last
  have below := (read32 (stateAt env mem (2 ^ 32 - 1)).mem (env.machoBase + 16)).toNat_lt
  omega

theorem commandLoop_ends (env : Env) (mem : Mem) :
    ∃ last, commandLoop env (2 ^ 32) (.init env mem) = stateAt env mem last ∧
      ∀ k, Reached env mem k ↔ k < last := by
  obtain ⟨last, within, ends, before, stops⟩ := commandLoop_stateAt env mem (2 ^ 32) 0
  simp only [Nat.zero_add] at ends before stops
  refine ⟨last, ends, ?_⟩
  intro k
  constructor
  · intro reached
    by_contra late
    have early : last < 2 ^ 32 := by
      have bound := reached_lt reached
      omega
    exact stops early (reached last (Nat.not_lt.mp late))
  · intro early j here
    exact before j (Nat.lt_of_le_of_lt here early)

/-! ## The image, and what the segments hold -/

def SaneRun (env : Env) (mem : Mem) : Prop :=
  ∀ k seg, Turn env mem k seg → seg.Sane env.machoSize

theorem turn_frame {mem : Mem} (run : SaneRun env mem) {k : Nat} (reached : Reached env mem k)
    {a : UInt32}
    (spared : ∀ seg, Turn env mem k seg → Loads env seg → ¬ seg.Covers a) :
    (stateAt env mem (k + 1)).mem a = (stateAt env mem k).mem a := by
  rw [stateAt_succ]
  cases segment : (stateAt env mem k).segment env with
  | none => rw [loadCommand_none segment]
  | some seg =>
      have turn : Turn env mem k seg := ⟨reached, segment⟩
      have sane := run k seg turn
      rw [(loadCommand_some segment).1]
      by_cases loads : Loads env seg
      · rw [loadSegment_loads sane (segment_some segment).2.2 loads]
        exact placed_outside sane (spared seg turn loads) _
      · rw [(loadSegment_skips sane loads _ _).1]

theorem turns_frame {mem : Mem} (run : SaneRun env mem) {k last : Nat}
    (reached : ∀ j < last, Reached env mem j) {a : UInt32}
    (spared : ∀ j seg, k ≤ j → Turn env mem j seg → Loads env seg → ¬ seg.Covers a)
    (order : k ≤ last) :
    (stateAt env mem last).mem a = (stateAt env mem k).mem a := by
  induction last with
  | zero => rw [Nat.le_zero.mp order]
  | succ last ih =>
      by_cases same : k = last + 1
      · rw [same]
      · have before : k ≤ last := by omega
        rw [turn_frame run (reached last (Nat.lt_succ_self last))
          (fun seg => spared last seg before)]
        exact ih (fun j early => reached j (Nat.lt_succ_of_lt early)) before

theorem image_intact {mem : Mem} (apart : ImageApart env) (run : SaneRun env mem) {k : Nat}
    (reached : ∀ j < k, Reached env mem j) {a : UInt32} (inside : a - env.machoBase < env.machoSize) :
    (stateAt env mem k).mem a = mem a := by
  change _ = (stateAt env mem 0).mem a
  apply turns_frame run reached
  · intro j seg _ turn loads covers
    exact apart a inside (covers_window (run j seg turn) loads.2 covers)
  · exact Nat.zero_le k

theorem byte_intact {mem mem' : Mem} (sane : seg.Sane env.machoSize)
    (intact : ∀ a, a - env.machoBase < env.machoSize → mem' a = mem a) (a : UInt32) :
    seg.byte env mem' a = seg.byte env mem a := by
  rw [Segment.byte, Segment.byte]
  by_cases content : a - seg.vmaddr < seg.filesize
  · rw [if_pos content, if_pos content]
    exact intact _ (content_inside sane content)
  · rw [if_neg content, if_neg content]

/-! ## The loader -/

/-- What the loader does with the segment of a turn.  One that it loads holds its content at the
end, but where a later one covers it. -/
structure Handled (env : Env) (mem : Mem) (k : Nat) (seg : Segment) : Prop where
  loaded : Loads env seg →
    (stateAt env mem (k + 1)).mem =
        (fun a => if seg.Covers a then seg.byte env mem a else (stateAt env mem k).mem a) ∧
      (stateAt env mem (k + 1)).r.segmentsLoaded = (stateAt env mem k).r.segmentsLoaded + 1 ∧
        ∀ a, seg.Covers a →
          (∀ j later, k < j → Turn env mem j later → Loads env later → ¬ later.Covers a) →
            (xnuMachoLoaderRun env mem).2.2 a = seg.byte env mem a
  skipped : ¬ Loads env seg →
    (stateAt env mem (k + 1)).mem = (stateAt env mem k).mem ∧
      (stateAt env mem (k + 1)).r.segmentsLoaded = (stateAt env mem k).r.segmentsLoaded
  unmapped : env.live = false →
    (stateAt env mem (k + 1)).r.segmentsUnmapped = (stateAt env mem k).r.segmentsUnmapped + 1

/-- A failure's status has the flag's bit. -/
theorem statusFail_ne (mask : UInt32) : statusFail mask ≠ statusOk := by
  intro same
  have bit : (statusFail mask).toBitVec.getLsbD 30 = true := by
    simp [statusFail, statusBase, statusFailFlag]
  rw [same] at bit
  exact absurd bit (by decide)

theorem finish_ok (r : Result) :
    (finish r).1 = true ↔ r.satisfiedMask = r.requiredMask ∧ r.failureMask = 0 := by
  rw [finish]
  dsimp only
  rw [decide_eq_true_iff]
  by_cases done : r.satisfiedMask = r.requiredMask ∧ r.failureMask = 0
  · rw [if_pos done]
    exact ⟨fun _ => done, fun _ => rfl⟩
  · rw [if_neg done]
    exact ⟨fun same => absurd same (statusFail_ne _), fun done' => absurd done' done⟩

theorem run_mem {mem : Mem} (ok : (xnuMachoLoaderRun env mem).1) :
    (xnuMachoLoaderRun env mem).2.2 = (commandLoop env (2 ^ 32) (.init env mem)).mem := by
  by_cases magic : read32 mem env.machoBase = mhMagic
  · rw [xnuMachoLoaderRun, if_neg (not_not_intro magic)]
  · rw [xnuMachoLoaderRun, if_pos magic] at ok
    have none_ : failInvalidMacho = 0 := ((finish_ok _).mp ok).2
    exact absurd none_ (by decide)

theorem segments_handled {mem : Mem} (apart : ImageApart env) (run : SaneRun env mem)
    (ok : (xnuMachoLoaderRun env mem).1) {k : Nat} (turn : Turn env mem k seg) :
    Handled env mem k seg := by
  have sane := run k seg turn
  have segment := loadCommand_some turn.segment
  have some_ := (segment_some turn.segment).2.2
  obtain ⟨last, ends, turns⟩ := commandLoop_ends env mem
  have intact : ∀ a, seg.byte env (stateAt env mem k).mem a = seg.byte env mem a :=
    byte_intact sane fun a inside => image_intact apart run
      (fun j early i here => turn.reached i (Nat.le_of_lt (Nat.lt_of_le_of_lt here early))) inside
  constructor
  · intro loads
    have step : (stateAt env mem (k + 1)).mem =
        (fun a => if seg.Covers a then seg.byte env mem a else (stateAt env mem k).mem a) := by
      rw [stateAt_succ, segment.1, loadSegment_loads sane some_ loads]
      dsimp only
      rw [placed_eq apart sane loads.2]
      funext a
      rw [intact]
    refine ⟨step, ?_, ?_⟩
    · rw [stateAt_succ, segment.2.1, loadSegment_loads sane some_ loads]
    · intro a covers spared
      rw [run_mem ok, ends, turns_frame run (fun j early => (turns j).mpr early)
        (fun j later order => spared j later order) ((turns k).mp turn.reached), step]
      exact if_pos covers
  · intro skips
    rw [stateAt_succ, segment.1, segment.2.1]
    exact loadSegment_skips sane skips _ _
  · intro live
    rw [stateAt_succ, segment.2.2, loadSegment_unmapped some_ live]

/-! ## One segment -/

/-- A header and one segment `__TEXT` of eight bytes, four of them in the file. -/
def oneSegmentWords (vmaddr : UInt32) : List UInt32 :=
  [mhMagic, 12, 9, 2, 1, 56, 0, lcSegment, 56, 0x45545f5f, 0x5458, 0, 0, vmaddr, 8, 84, 4, 7, 5, 0,
    0, 0x44332211]

def oneSegmentBase : UInt32 := 0x1000

def oneSegment (vmaddr : UInt32) : Mem := ofWords oneSegmentBase (oneSegmentWords vmaddr)

def oneSegmentEnv : Env := ⟨oneSegmentBase, 4096, 0x2000, 0x4000, some ⟨statusOk, 0x4000⟩⟩

/-- Its segment lies outside the window, so it is passed over, and all is reported as loaded. -/
theorem segment_passed_over :
    (xnuMachoLoaderRun oneSegmentEnv (oneSegment 0x90000000)).1 = true ∧
      (xnuMachoLoaderRun oneSegmentEnv (oneSegment 0x90000000)).2.1.satisfiedMask =
        requiredMask ∧
        (xnuMachoLoaderRun oneSegmentEnv (oneSegment 0x90000000)).2.1.readyForHandoff = 1 ∧
          Turn oneSegmentEnv (oneSegment 0x90000000) 0 ⟨0x90000000, 8, 84, 4⟩ ∧
            (xnuMachoLoaderRun oneSegmentEnv (oneSegment 0x90000000)).2.2 0x90000000 ≠
              oneSegment 0x90000000 (oneSegmentBase + 84) := by
  refine ⟨by decide +kernel, by decide +kernel, by decide +kernel, ⟨?_, by decide +kernel⟩,
    by decide +kernel⟩
  intro j first
  rw [Nat.le_zero.mp first]
  decide +kernel

theorem oneSegment_apart : ImageApart oneSegmentEnv := by
  intro a inside window
  have image := (offset_lt_iff (by decide)).mp inside
  have base : oneSegmentEnv.machoBase.toNat = 4096 := rfl
  have size : oneSegmentEnv.machoSize.toNat = 4096 := rfl
  have lower := UInt32.le_iff_toNat_le.mp window.1
  have edge : loadWindowBase.toNat = 2147483648 := rfl
  omega

/-- In the window, its bytes are there at the end. -/
theorem segment_handled :
    Loads oneSegmentEnv ⟨0x80000000, 8, 84, 4⟩ ∧
      Handled oneSegmentEnv (oneSegment 0x80000000) 0 ⟨0x80000000, 8, 84, 4⟩ := by
  have reads : (stateAt oneSegmentEnv (oneSegment 0x80000000) 0).segment oneSegmentEnv =
      some ⟨0x80000000, 8, 84, 4⟩ := by decide +kernel
  have more : (stateAt oneSegmentEnv (oneSegment 0x80000000) 0).more oneSegmentEnv := by
    decide +kernel
  have ends : ¬ (stateAt oneSegmentEnv (oneSegment 0x80000000) 1).more oneSegmentEnv := by
    decide +kernel
  refine ⟨by decide, segments_handled oneSegment_apart ?_ (by decide +kernel) ⟨?_, reads⟩⟩
  · intro k seg turn
    cases k with
    | zero =>
        have same := Option.some_inj.mp (turn.segment.symm.trans reads)
        rw [same]
        exact ⟨by decide, by decide, by decide⟩
    | succ k => exact absurd (turn.reached 1 (Nat.succ_le_succ (Nat.zero_le k))) ends
  · intro j first
    rw [Nat.le_zero.mp first]
    exact more

end Stage90.MachO

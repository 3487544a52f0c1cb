import Stage90.Lib.Masks
import Stage90.MachO.Grammar

/-!
# The probe's steps

What each function of the probe does to the fields that decide the outcome.
-/

set_option autoImplicit false

namespace Stage90.Probe

open Stage90.Lib
open Stage90.MachO (mhMagic lcSegment lcUnixThread)

/-! ## Arithmetic and names -/

theorem addOverflowU32_iff {a b : UInt32} :
    addOverflowU32 a b = true ↔ 2 ^ 32 ≤ a.toNat + b.toNat := by
  have one := a.toNat_lt
  have two := b.toNat_lt
  rw [addOverflowU32, decide_eq_true_iff, UInt32.lt_iff_toNat_lt, UInt32.toNat_add]
  omega

theorem toNat_add_of_lt {a b : UInt32} (small : a.toNat + b.toNat < 2 ^ 32) :
    (a + b).toNat = a.toNat + b.toNat := by
  rw [UInt32.toNat_add, Nat.mod_eq_of_lt small]

/-- A sum without overflow is within a bound exactly if it is so over the naturals. -/
theorem checked_le_iff {a b n : UInt32} :
    ¬ (addOverflowU32 a b = true ∨ n < a + b) ↔ a.toNat + b.toNat ≤ n.toNat := by
  have below := n.toNat_lt
  rw [not_or, addOverflowU32_iff, UInt32.lt_iff_toNat_lt, UInt32.toNat_add]
  omega

theorem mulOverflowU32_iff {a b : UInt32} :
    mulOverflowU32 a b = true ↔ 2 ^ 32 ≤ a.toNat * b.toNat := by
  have top : (0xffffffff : UInt32).toNat = 2 ^ 32 - 1 := rfl
  rw [mulOverflowU32, Bool.and_eq_true, decide_eq_true_iff, decide_eq_true_iff,
    UInt32.lt_iff_toNat_lt, UInt32.toNat_div, top]
  by_cases zero : a = 0
  · rw [zero, UInt32.toNat_zero, Nat.zero_mul]
    exact ⟨fun both => absurd rfl both.1, fun none_ => absurd none_ (by decide)⟩
  · have positive : 0 < a.toNat :=
      Nat.pos_of_ne_zero fun none_ => zero (UInt32.toNat_inj.mp none_)
    rw [Nat.div_lt_iff_lt_mul positive, Nat.mul_comm b.toNat]
    exact ⟨fun both => both.2, fun wraps => ⟨zero, wraps⟩⟩

theorem alignUpCheckedU32_page (value : UInt32) :
    alignUpCheckedU32 value pageSize =
      if value.toNat + 4095 < 2 ^ 32 then some (UInt32.ofNat (roundUp value.toNat)) else none := by
  have below := value.toNat_lt
  have mask : pageSize - 1 = ((1 : UInt32) <<< (12 : UInt32)) - 1 := by decide
  have step : (((1 : UInt32) <<< (12 : UInt32)) - 1).toNat = 4095 := rfl
  have power : ¬ (pageSize = 0 ∨ pageSize &&& (pageSize - 1) ≠ 0) := by decide
  rw [alignUpCheckedU32, if_neg power, mask]
  by_cases room : value.toNat + 4095 < 2 ^ 32
  · have fits : ¬ addOverflowU32 value (((1 : UInt32) <<< (12 : UInt32)) - 1) = true := by
      rw [addOverflowU32_iff, step]
      omega
    rw [if_neg fits, if_pos room, Option.some_inj, ← UInt32.toNat_inj, toNat_align _ (by decide),
      UInt32.toNat_add, step, Nat.mod_eq_of_lt room, roundUp, UInt32.toNat_ofNat_of_lt']
    · rfl
    · exact Nat.lt_of_le_of_lt (Nat.div_mul_le_self _ _) room
  · have wraps : addOverflowU32 value (((1 : UInt32) <<< (12 : UInt32)) - 1) = true := by
      rw [addOverflowU32_iff, step]
      omega
    rw [if_pos wraps, if_neg room]

theorem fixed16Eq_iff {name : List UInt8} (text : ∀ c ∈ name, c ≠ 0) :
    ∀ {field : List UInt8}, name.length ≤ field.length →
      (fixed16Eq field name = true ↔ Named field name) := by
  intro field
  rw [Named]
  induction field generalizing name with
  | nil =>
      intro short
      rw [List.eq_nil_of_length_eq_zero (Nat.le_zero.mp short)]
      exact ⟨fun _ => rfl, fun _ => rfl⟩
  | cons c field ih =>
      intro short
      rw [fixed16Eq]
      cases name with
      | nil =>
          rw [List.headD_nil]
          by_cases stop : c = 0
          · simp [stop]
          · simp [stop]
      | cons n name =>
          have here := text n List.mem_cons_self
          rw [List.headD_cons, List.tail_cons]
          by_cases same : c = n
          · have goes : decide (c ≠ 0) = true := decide_eq_true (same ▸ here)
            rw [if_neg (not_not_intro same), if_neg here,
              ih (fun d there => text d (List.mem_cons_of_mem n there)) (Nat.le_of_succ_le_succ short),
              List.takeWhile_cons_of_pos (p := fun c => decide (c ≠ 0)) goes, same, List.cons.injEq]
            exact ⟨fun rest => ⟨rfl, rest⟩, fun both => both.2⟩
          · rw [if_pos same]
            constructor
            · exact fun none_ => absurd none_ Bool.false_ne_true
            · intro named
              exfalso
              by_cases stop : c = 0
              · simp [stop] at named
              · simp [stop, same] at named

/-! ## The fields that decide -/

structure Core where
  failureMask : UInt32
  validationMask : UInt32
  segmentSeenMask : UInt32
  sectionSeenMask : UInt32
  entryKindMask : UInt32
  minVmaddr : UInt32
  maxVmaddr : UInt32
  segmentCount : UInt32
  loadCommandCountSeen : UInt32
  artifactSize : UInt32
  header : Header
  loadPlan : LoadPlan

def Result.core (r : Result) : Core where
  failureMask := r.failureMask
  validationMask := r.validationMask
  segmentSeenMask := r.segmentSeenMask
  sectionSeenMask := r.sectionSeenMask
  entryKindMask := r.entryKindMask
  minVmaddr := r.minVmaddr
  maxVmaddr := r.maxVmaddr
  segmentCount := r.segmentCount
  loadCommandCountSeen := r.loadCommandCountSeen
  artifactSize := r.artifactSize
  header := r.header
  loadPlan := r.loadPlan

theorem fail_core (r : Result) (bits : UInt32) :
    (r.fail bits).core = { r.core with failureMask := r.core.failureMask ||| bits } := rfl

theorem failIf_core (r : Result) (c : Prop) [Decidable c] (bits : UInt32) :
    (if c then r.fail bits else r).core =
      { r.core with failureMask := r.core.failureMask ||| if c then bits else 0 } := by
  by_cases fails : c
  · rw [if_pos fails, if_pos fails, fail_core]
  · rw [if_neg fails, if_neg fails, UInt32.or_zero]

theorem failIf_artifactSize (r : Result) (c : Prop) [Decidable c] (bits : UInt32) :
    (if c then r.fail bits else r).artifactSize = r.artifactSize := by
  split
  · rfl
  · rfl

theorem recordSectionMatch_core (r : Result) (sect : Section) :
    (recordSectionMatch r sect).core =
      { r.core with sectionSeenMask := r.sectionSeenMask ||| sectionBit sect } := by
  rw [recordSectionMatch]
  dsimp only
  split_ifs
  all_goals rfl

theorem noteFileExtent_core (r : Result) (fileEnd : UInt32) :
    (r.noteFileExtent fileEnd).core = r.core := by
  rw [Result.noteFileExtent]
  split
  · rfl
  · rfl

theorem recordKeySegment_core (r : Result) (segment : SegmentCommand) (segBit : UInt32) :
    (recordKeySegment r segment segBit).core = r.core := by
  rw [recordKeySegment]
  split_ifs
  all_goals rfl

def sectionFaults (size : UInt32) (segment : SegmentCommand) (sect : Section) : UInt32 :=
  (if addOverflowU32 sect.addr sect.size ∨ addOverflowU32 segment.vmaddr segment.vmsize ∨
      sect.addr < segment.vmaddr ∨ segment.vmaddr + segment.vmsize < sect.addr + sect.size then
    failSectionBounds else 0) |||
  (if (sect.size ≠ 0 ∧ sect.offset ≠ 0) ∧
      (addOverflowU32 sect.offset sect.size ∨ size < sect.offset + sect.size) then
    failSectionBounds else 0)

theorem recordSection_core (r : Result) (segment : SegmentCommand) (sect : Section) :
    (recordSection r segment sect).core =
      { r.core with
        sectionSeenMask := r.sectionSeenMask ||| sectionBit sect
        failureMask := r.failureMask ||| sectionFaults r.artifactSize segment sect } := by
  have seen := recordSectionMatch_core { r with sectionCount := r.sectionCount + 1 } sect
  rw [recordSection]
  generalize recordSectionMatch { r with sectionCount := r.sectionCount + 1 } sect = r' at seen ⊢
  have size : r'.artifactSize = r.artifactSize := congrArg Core.artifactSize seen
  rw [sectionFaults]
  by_cases placed : sect.size ≠ 0 ∧ sect.offset ≠ 0
  · simp only [if_pos placed, noteFileExtent_core, failIf_core, failIf_artifactSize, seen, size]
    simp only [placed, ne_eq, not_false_eq_true, and_self, true_and, UInt32.or_assoc]
    rfl
  · simp only [if_neg placed, failIf_core, seen]
    simp only [placed, false_and, if_false, UInt32.or_zero]
    rfl

theorem ite_fault_eq_zero {c : Prop} [Decidable c] {bits : UInt32} (some_ : bits ≠ 0) :
    (if c then bits else 0) = 0 ↔ ¬ c := by
  split
  · rename_i fails
    exact ⟨fun none_ => absurd none_ some_, fun passes => absurd fails passes⟩
  · rename_i passes
    exact ⟨fun _ => passes, fun _ => rfl⟩

theorem sectionFaults_eq_zero {size : UInt32} {segment : SegmentCommand} {sect : Section}
    (range : segment.vmaddr.toNat + segment.vmsize.toNat < 2 ^ 32) :
    sectionFaults size segment sect = 0 ↔ SectionFits size.toNat segment sect := by
  have some_ : failSectionBounds ≠ 0 := by decide
  rw [sectionFaults, UInt32.or_eq_zero_iff, ite_fault_eq_zero some_, ite_fault_eq_zero some_]
  have bounds : ¬ (addOverflowU32 sect.addr sect.size = true ∨
      addOverflowU32 segment.vmaddr segment.vmsize = true ∨ sect.addr < segment.vmaddr ∨
        segment.vmaddr + segment.vmsize < sect.addr + sect.size) ↔
      segment.vmaddr.toNat ≤ sect.addr.toNat ∧
        sect.addr.toNat + sect.size.toNat ≤ segment.vmaddr.toNat + segment.vmsize.toNat := by
    rw [addOverflowU32_iff, addOverflowU32_iff, UInt32.lt_iff_toNat_lt, UInt32.lt_iff_toNat_lt,
      UInt32.toNat_add, UInt32.toNat_add]
    omega
  rw [bounds, not_and, checked_le_iff]
  constructor
  · intro ⟨within, file⟩
    exact ⟨within.1, within.2, fun some_ there => file ⟨some_, there⟩⟩
  · intro fits
    exact ⟨⟨fits.starts, fits.ends⟩, fun both => fits.file both.1 both.2⟩

theorem recordSections_eq_foldl (mem : Mem) (bytes : UInt32) (segment : SegmentCommand) (n : Nat)
    (offset : UInt32) (r : Result) :
    recordSections mem bytes segment n offset r =
      ((List.range n).map fun j =>
        sectionAt mem (bytes + (offset + UInt32.ofNat j * sectionSize))).foldl
          (fun r sect => recordSection r segment sect) r := by
  induction n generalizing offset r with
  | zero => rfl
  | succ n ih =>
      have next : ∀ j, offset + sectionSize + UInt32.ofNat j * sectionSize =
          offset + UInt32.ofNat (j + 1) * sectionSize := by
        intro j
        rw [UInt32.ofNat_add, UInt32.ofNat_one, UInt32.add_mul, UInt32.one_mul, UInt32.add_assoc,
          UInt32.add_comm sectionSize]
      rw [recordSections, ih, List.range_succ_eq_map, List.map_cons, List.foldl_cons, List.map_map]
      congr 1
      · have zero : UInt32.ofNat 0 = 0 := rfl
        rw [zero, UInt32.zero_mul, UInt32.add_zero]
      · apply List.map_congr_left
        intro j _
        rw [Function.comp_apply, next]

theorem foldl_recordSection_core (segment : SegmentCommand) (sects : List Section) (r : Result) :
    (sects.foldl (fun r sect => recordSection r segment sect) r).core =
      { r.core with
        sectionSeenMask := r.sectionSeenMask ||| orAll (sects.map sectionBit)
        failureMask :=
          r.failureMask ||| orAll (sects.map (sectionFaults r.artifactSize segment)) } := by
  induction sects generalizing r with
  | nil =>
      change r.core = { r.core with
        sectionSeenMask := r.sectionSeenMask ||| 0, failureMask := r.failureMask ||| 0 }
      rw [UInt32.or_zero, UInt32.or_zero]
      rfl
  | cons sect sects ih =>
      have step := recordSection_core r segment sect
      have failure := congrArg Core.failureMask step
      have seen := congrArg Core.sectionSeenMask step
      have size := congrArg Core.artifactSize step
      dsimp only [Result.core] at failure seen size
      rw [List.foldl_cons, ih, step, failure, seen, size, List.map_cons, List.map_cons, orAll_cons,
        orAll_cons, UInt32.or_assoc, UInt32.or_assoc]

theorem sections_bounds {nsects cmdsize : UInt32} :
    ¬ (mulOverflowU32 nsects sectionSize = true ∨
        addOverflowU32 segmentCommandSize (nsects * sectionSize) = true ∨
          cmdsize < segmentCommandSize + nsects * sectionSize) ↔
      56 + 68 * nsects.toNat ≤ cmdsize.toNat := by
  have below := cmdsize.toNat_lt
  have size : sectionSize.toNat = 68 := rfl
  have head : segmentCommandSize.toNat = 56 := rfl
  rw [not_or, checked_le_iff, mulOverflowU32_iff, UInt32.toNat_mul, size, head]
  omega

theorem parseSegmentSections_room {mem : Mem} {bytes o : UInt32} {r : Result}
    (room : 56 + 68 * (segmentOf mem bytes o).nsects.toNat ≤ (cmdsizeAt mem bytes o).toNat) :
    parseSegmentSections mem bytes o (segmentOf mem bytes o) r =
      (sectionsOf mem bytes o).foldl
        (fun r sect => recordSection r (segmentOf mem bytes o) sect) r := by
  rw [parseSegmentSections]
  refine (if_neg (sections_bounds.mpr room)).trans ?_
  rw [recordSections_eq_foldl]
  rfl

theorem parseSegmentSections_cramped {mem : Mem} {bytes o : UInt32} {r : Result}
    (cramped : ¬ 56 + 68 * (segmentOf mem bytes o).nsects.toNat ≤ (cmdsizeAt mem bytes o).toNat) :
    parseSegmentSections mem bytes o (segmentOf mem bytes o) r = r.fail failSectionBounds := by
  have fails := not_not.mp fun fits => cramped (sections_bounds.mp fits)
  rw [parseSegmentSections]
  exact if_pos fails

theorem noteSegment_core (r : Result) (segBit : UInt32) :
    (r.noteSegment segBit).core =
      { r.core with segmentSeenMask := r.core.segmentSeenMask ||| segBit } := by
  rw [Result.noteSegment]
  split
  · rfl
  · rfl

theorem noteVmaddr_core (r : Result) (vmaddr : UInt32) :
    (r.noteVmaddr vmaddr).core =
      { r.core with
        minVmaddr := if r.core.segmentCount = 1 ∨ vmaddr < r.core.minVmaddr then vmaddr
          else r.core.minVmaddr } := by
  rw [Result.noteVmaddr]
  change Result.core (if r.core.segmentCount = 1 ∨ vmaddr < r.core.minVmaddr then _ else _) = _
  by_cases lower : r.core.segmentCount = 1 ∨ vmaddr < r.core.minVmaddr
  · rw [if_pos lower, if_pos lower]
    rfl
  · rw [if_neg lower, if_neg lower]

theorem noteVmEnd_core (r : Result) (vmEnd : UInt32) :
    (r.noteVmEnd vmEnd).core =
      { r.core with
        maxVmaddr := if r.core.maxVmaddr < vmEnd then vmEnd else r.core.maxVmaddr } := by
  rw [Result.noteVmEnd]
  change Result.core (if r.core.maxVmaddr < vmEnd then _ else _) = _
  by_cases higher : r.core.maxVmaddr < vmEnd
  · rw [if_pos higher, if_pos higher]
    rfl
  · rw [if_neg higher, if_neg higher]

def freshEntry (plan : LoadPlan) (segment : SegmentCommand) : LoadPlanEntry where
  index := plan.entryCount
  segmentMask := segmentMaskForName segment.segname
  vmaddr := segment.vmaddr
  vmsize := segment.vmsize
  fileoff := segment.fileoff
  filesize := segment.filesize
  physaddr := 0
  physsize := 0
  flags := loadPlanFlags segment (segmentMaskForName segment.segname)

def extended (plan : LoadPlan) (segment : SegmentCommand) : LoadPlan :=
  if segment.vmsize = 0 ∨ loadPlanMax ≤ plan.entries.length then plan
  else { plan with entries := plan.entries ++ [freshEntry plan segment] }

theorem addLoadPlanEntry_core (r : Result) (segment : SegmentCommand) :
    (addLoadPlanEntry r segment (segmentMaskForName segment.segname)).core =
      { r.core with
        failureMask := r.core.failureMask |||
          if segment.vmsize ≠ 0 ∧ loadPlanMax ≤ r.core.loadPlan.entries.length then failLoadPlanFull
          else 0
        loadPlan := extended r.core.loadPlan segment } := by
  rw [addLoadPlanEntry, extended]
  change Result.core (if _ then _ else if loadPlanMax ≤ r.core.loadPlan.entries.length then _ else _)
    = _
  by_cases empty : segment.vmsize = 0
  · rw [if_pos empty, if_pos (Or.inl empty), if_neg (fun both => both.1 empty), UInt32.or_zero]
  · rw [if_neg empty]
    by_cases full : loadPlanMax ≤ r.core.loadPlan.entries.length
    · rw [if_pos full, if_pos ⟨empty, full⟩, if_pos (Or.inr full)]
      rfl
    · rw [if_neg full, if_neg (fun both => full both.2), UInt32.or_zero,
        if_neg (fun either => either.elim empty full)]
      rfl

theorem recordSegment_core {r : Result} {segment : SegmentCommand}
    (range : segment.vmaddr.toNat + segment.vmsize.toNat < 2 ^ 32) :
    (recordSegment r segment).core =
      { r.core with
        validationMask := r.validationMask ||| validSegmentCommand
        segmentCount := r.segmentCount + 1
        segmentSeenMask := r.segmentSeenMask ||| segmentMaskForName segment.segname
        minVmaddr := if r.segmentCount + 1 = 1 ∨ segment.vmaddr < r.minVmaddr then segment.vmaddr
          else r.minVmaddr
        maxVmaddr := if r.maxVmaddr < segment.vmaddr + segment.vmsize then
          segment.vmaddr + segment.vmsize else r.maxVmaddr
        failureMask := r.failureMask |||
          (if addOverflowU32 segment.fileoff segment.filesize ∨
              r.artifactSize < segment.fileoff + segment.filesize then failSegmentExtent else 0) |||
          (if segment.vmsize ≠ 0 ∧ loadPlanMax ≤ r.loadPlan.entries.length then failLoadPlanFull
            else 0)
        loadPlan := extended r.loadPlan segment } := by
  have fits : ¬ addOverflowU32 segment.vmaddr segment.vmsize = true := by
    rw [addOverflowU32_iff]
    omega
  rw [recordSegment]
  dsimp only
  rw [if_neg fits, addLoadPlanEntry_core, noteFileExtent_core, noteVmEnd_core, noteVmaddr_core,
    recordKeySegment_core, noteSegment_core, failIf_core]
  rfl

theorem recordSegment_over {r : Result} {segment : SegmentCommand}
    (wraps : ¬ segment.vmaddr.toNat + segment.vmsize.toNat < 2 ^ 32) :
    (recordSegment r segment).failureMask ≠ 0 := by
  have fails : addOverflowU32 segment.vmaddr segment.vmsize = true := by
    rw [addOverflowU32_iff]
    omega
  rw [recordSegment]
  dsimp only
  rw [if_pos fails]
  intro none_
  exact absurd (UInt32.or_eq_zero_iff.mp none_).2 (by decide)

end Stage90.Probe

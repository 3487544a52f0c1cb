import Mathlib.Data.List.Nodup
import Stage90.MachO.ProbeCommands

/-!
# What the probe accepts

The load plan, and the whole probe against the grammar.
-/

set_option autoImplicit false

namespace Stage90.Probe

open Stage90.Lib
open Stage90.MachO (mhMagic lcSegment lcUnixThread)

variable {mem : Mem} {bytes o : UInt32} {r : Result}

/-! ## The load plan -/

/-- The entry's pages, placed above the lowest address, lie below the RAM console. -/
structure PlacedIn (low : UInt32) (entry : LoadPlanEntry) : Prop where
  above : low.toNat ≤ entry.vmaddr.toNat
  below : ramPhysBase.toNat + (entry.vmaddr.toNat - low.toNat) + roundUp entry.vmsize.toNat ≤
    ramConsoleBase.toNat

def place (low : UInt32) (entry : LoadPlanEntry) : LoadPlanEntry :=
  { entry with
    physaddr := UInt32.ofNat (ramPhysBase.toNat + (entry.vmaddr.toNat - low.toNat))
    physsize := UInt32.ofNat (roundUp entry.vmsize.toNat) }

def endOf (low : UInt32) (entry : LoadPlanEntry) : Nat :=
  ramPhysBase.toNat + (entry.vmaddr.toNat - low.toNat) + roundUp entry.vmsize.toNat

theorem le_roundUp (n : Nat) : n ≤ roundUp n := by
  rw [roundUp]
  omega

theorem note_failureMask (f : Finalizing) (entry : LoadPlanEntry) (entryEnd : UInt32) :
    (f.note entry entryEnd).failureMask = f.failureMask := by
  rw [Finalizing.note]
  dsimp only
  split_ifs
  all_goals rfl

theorem note_physEnd (f : Finalizing) (entry : LoadPlanEntry) (entryEnd : UInt32) :
    (f.note entry entryEnd).physEnd.toNat = max f.physEnd.toNat entryEnd.toNat := by
  have physEnd : (f.note entry entryEnd).physEnd =
      if f.physEnd < entryEnd then entryEnd else f.physEnd := by
    rw [Finalizing.note]
    dsimp only
    split_ifs
    all_goals rfl
  rw [physEnd]
  by_cases higher : f.physEnd < entryEnd
  · rw [if_pos higher]
    rw [UInt32.lt_iff_toNat_lt] at higher
    exact (Nat.max_eq_right (Nat.le_of_lt higher)).symm
  · rw [if_neg higher]
    rw [UInt32.lt_iff_toNat_lt] at higher
    exact (Nat.max_eq_left (Nat.not_lt.mp higher)).symm

theorem finalize_fail_ne_zero (f : Finalizing) {bits : UInt32} (some_ : bits ≠ 0) :
    (f.fail bits).failureMask ≠ 0 := by
  intro none_
  exact some_ (UInt32.or_eq_zero_iff.mp none_).2

theorem finalizeEntry_eq {low : UInt32} {entry : LoadPlanEntry} (f : Finalizing)
    (above : low.toNat ≤ entry.vmaddr.toNat)
    (place_ : ramPhysBase.toNat + (entry.vmaddr.toNat - low.toNat) < 2 ^ 32)
    (size : entry.vmsize.toNat + 4095 < 2 ^ 32) (ends : endOf low entry < 2 ^ 32) :
    finalizeEntry low f entry =
      (place low entry,
        (if ramConsoleBase.toNat < endOf low entry then f.fail failPhysRange else f).note entry
          (UInt32.ofNat (endOf low entry))) := by
  have base : ramPhysBase.toNat = 2147483648 := rfl
  have order : ¬ entry.vmaddr < low := by
    rw [UInt32.lt_iff_toNat_lt]
    omega
  have delta : (entry.vmaddr - low).toNat = entry.vmaddr.toNat - low.toNat :=
    UInt32.toNat_sub_of_le _ _ (UInt32.le_iff_toNat_le.mpr above)
  have sum : (ramPhysBase + (entry.vmaddr - low)).toNat =
      ramPhysBase.toNat + (entry.vmaddr.toNat - low.toNat) := by
    rw [toNat_add_of_lt (by omega), delta]
  have fits : ¬ addOverflowU32 ramPhysBase (entry.vmaddr - low) = true := by
    rw [addOverflowU32_iff, delta]
    omega
  have rounded : (UInt32.ofNat (roundUp entry.vmsize.toNat)).toNat = roundUp entry.vmsize.toNat := by
    apply UInt32.toNat_ofNat_of_lt'
    exact Nat.lt_of_le_of_lt (Nat.le_add_left _ _) ends
  have fits' : ¬ addOverflowU32 (ramPhysBase + (entry.vmaddr - low))
      (UInt32.ofNat (roundUp entry.vmsize.toNat)) = true := by
    rw [addOverflowU32_iff, sum, rounded]
    exact Nat.not_le.mpr ends
  have total : (ramPhysBase + (entry.vmaddr - low) + UInt32.ofNat (roundUp entry.vmsize.toNat)).toNat
      = endOf low entry := by
    rw [toNat_add_of_lt (by rw [sum, rounded]; exact ends), sum, rounded, endOf]
  have range : (ramPhysBase + (entry.vmaddr - low) < ramPhysBase ∨
      ramConsoleBase < ramPhysBase + (entry.vmaddr - low) +
          UInt32.ofNat (roundUp entry.vmsize.toNat) ∨
        ramPhysBase + (entry.vmaddr - low) + UInt32.ofNat (roundUp entry.vmsize.toNat) <
          ramPhysBase + (entry.vmaddr - low)) ↔ ramConsoleBase.toNat < endOf low entry := by
    rw [UInt32.lt_iff_toNat_lt, UInt32.lt_iff_toNat_lt, UInt32.lt_iff_toNat_lt, total, sum, endOf]
    omega
  have physaddr : ramPhysBase + (entry.vmaddr - low) =
      UInt32.ofNat (ramPhysBase.toNat + (entry.vmaddr.toNat - low.toNat)) := by
    rw [← UInt32.toNat_inj, sum, UInt32.toNat_ofNat_of_lt' place_]
  have entryEnd : ramPhysBase + (entry.vmaddr - low) + UInt32.ofNat (roundUp entry.vmsize.toNat) =
      UInt32.ofNat (endOf low entry) := by
    rw [← UInt32.toNat_inj, total, UInt32.toNat_ofNat_of_lt' ends]
  rw [finalizeEntry, if_neg order]
  dsimp only
  rw [if_neg fits, alignUpCheckedU32_page, if_pos size]
  dsimp only
  rw [if_neg fits', place, ← physaddr, ← entryEnd]
  simp only [range]

theorem finalizeEntry_placed {low : UInt32} {entry : LoadPlanEntry} (f : Finalizing)
    (placed : PlacedIn low entry) :
    finalizeEntry low f entry =
      (place low entry, f.note entry (UInt32.ofNat (endOf low entry))) := by
  have below := placed.below
  have size := le_roundUp entry.vmsize.toNat
  have base : ramPhysBase.toNat = 2147483648 := rfl
  have console : ramConsoleBase.toNat = 3729784832 := rfl
  have within : ¬ ramConsoleBase.toNat < endOf low entry := Nat.not_lt.mpr below
  rw [finalizeEntry_eq f placed.above (by omega) (by omega)
    (Nat.lt_of_le_of_lt below (by decide)), if_neg within]

theorem finalizeEntry_failed {low : UInt32} {entry : LoadPlanEntry} (f : Finalizing)
    (failed : ¬ PlacedIn low entry) : (finalizeEntry low f entry).2.failureMask ≠ 0 := by
  have range : failPhysRange ≠ 0 := by decide
  have plan : failLoadPlan ≠ 0 := by decide
  by_cases above : low.toNat ≤ entry.vmaddr.toNat
  · have order : ¬ entry.vmaddr < low := by
      rw [UInt32.lt_iff_toNat_lt]
      omega
    have delta : (entry.vmaddr - low).toNat = entry.vmaddr.toNat - low.toNat :=
      UInt32.toNat_sub_of_le _ _ (UInt32.le_iff_toNat_le.mpr above)
    by_cases place_ : ramPhysBase.toNat + (entry.vmaddr.toNat - low.toNat) < 2 ^ 32
    · by_cases size : entry.vmsize.toNat + 4095 < 2 ^ 32
      · by_cases ends : endOf low entry < 2 ^ 32
        · have beyond : ramConsoleBase.toNat < endOf low entry := by
            apply Nat.lt_of_not_le
            intro below
            exact failed ⟨above, below⟩
          rw [finalizeEntry_eq f above place_ size ends, if_pos beyond, note_failureMask]
          exact finalize_fail_ne_zero f range
        · have rounded : roundUp entry.vmsize.toNat < 2 ^ 32 := by
            rw [roundUp]
            omega
          have sum : (ramPhysBase + (entry.vmaddr - low)).toNat =
              ramPhysBase.toNat + (entry.vmaddr.toNat - low.toNat) := by
            rw [toNat_add_of_lt (by omega), delta]
          have wraps : addOverflowU32 (ramPhysBase + (entry.vmaddr - low))
              (UInt32.ofNat (roundUp entry.vmsize.toNat)) = true := by
            rw [addOverflowU32_iff, sum, UInt32.toNat_ofNat_of_lt' rounded]
            exact Nat.not_lt.mp ends
          rw [finalizeEntry, if_neg order]
          dsimp only
          split
          · exact finalize_fail_ne_zero f range
          · rw [alignUpCheckedU32_page, if_pos size]
            dsimp only
            rw [if_pos wraps]
            exact finalize_fail_ne_zero f range
      · rw [finalizeEntry, if_neg order]
        dsimp only
        split
        · exact finalize_fail_ne_zero f range
        · rw [alignUpCheckedU32_page, if_neg size]
          exact finalize_fail_ne_zero f range
    · have wraps : addOverflowU32 ramPhysBase (entry.vmaddr - low) = true := by
        rw [addOverflowU32_iff, delta]
        exact Nat.not_lt.mp place_
      rw [finalizeEntry, if_neg order]
      dsimp only
      rw [if_pos wraps]
      exact finalize_fail_ne_zero f range
  · have order : entry.vmaddr < low := UInt32.lt_iff_toNat_lt.mpr (Nat.not_le.mp above)
    rw [finalizeEntry, if_pos order]
    exact finalize_fail_ne_zero f plan

theorem finalizeEntry_sticky {low : UInt32} {entry : LoadPlanEntry} {f : Finalizing}
    (none_ : (finalizeEntry low f entry).2.failureMask = 0) : f.failureMask = 0 := by
  by_cases placed : PlacedIn low entry
  · rw [finalizeEntry_placed f placed, note_failureMask] at none_
    exact none_
  · exact absurd none_ (finalizeEntry_failed f placed)

/-- All entries get a place, or the plan fails. -/
theorem finalizeEntries_eq_zero {low : UInt32} {entries : List LoadPlanEntry} {f : Finalizing} :
    (finalizeEntries low f entries).2.failureMask = 0 ↔
      f.failureMask = 0 ∧ ∀ entry ∈ entries, PlacedIn low entry := by
  induction entries generalizing f with
  | nil => exact ⟨fun none_ => ⟨none_, fun e there => absurd there List.not_mem_nil⟩, fun both => both.1⟩
  | cons entry entries ih =>
      have step := @ih (finalizeEntry low f entry).2
      rw [finalizeEntries]
      dsimp only
      rw [step, List.forall_mem_cons]
      constructor
      · intro ⟨none_, rest⟩
        refine ⟨finalizeEntry_sticky none_, ?_, rest⟩
        by_contra failed
        exact finalizeEntry_failed f failed none_
      · intro ⟨none_, placed, rest⟩
        refine ⟨?_, rest⟩
        rw [finalizeEntry_placed f placed, note_failureMask]
        exact none_

theorem finalizeEntries_placed {low : UInt32} {entries : List LoadPlanEntry} {f : Finalizing}
    (placed : ∀ entry ∈ entries, PlacedIn low entry) :
    (finalizeEntries low f entries).1 = entries.map (place low) := by
  induction entries generalizing f with
  | nil => rfl
  | cons entry entries ih =>
      rw [List.forall_mem_cons] at placed
      rw [finalizeEntries]
      dsimp only
      rw [ih placed.2, finalizeEntry_placed f placed.1, List.map_cons]

theorem finalizeEntries_physEnd {low : UInt32} {entries : List LoadPlanEntry} {f : Finalizing}
    (placed : ∀ entry ∈ entries, PlacedIn low entry) :
    (finalizeEntries low f entries).2.physEnd.toNat =
      entries.foldl (fun last entry => max last (endOf low entry)) f.physEnd.toNat := by
  induction entries generalizing f with
  | nil => rfl
  | cons entry entries ih =>
      rw [List.forall_mem_cons] at placed
      have below := placed.1.below
      have ends : (UInt32.ofNat (endOf low entry)).toNat = endOf low entry :=
        UInt32.toNat_ofNat_of_lt' (Nat.lt_of_le_of_lt below (by decide))
      rw [finalizeEntries]
      dsimp only
      rw [ih placed.2, finalizeEntry_placed f placed.1, note_physEnd, ends, List.foldl_cons]

def finalizing (r : Result) : Finalizing := ⟨r.failureMask, ramPhysBase, 0xffffffff, 0⟩

theorem finalizeLoadPlan_eq_zero :
    (finalizeLoadPlan r).failureMask = 0 ↔
      r.failureMask = 0 ∧
        ¬ (r.loadPlan.entryCount = 0 ∨ r.minVmaddr = 0 ∨ r.maxVmaddr ≤ r.minVmaddr) ∧
          ∀ entry ∈ r.loadPlan.entries, PlacedIn r.minVmaddr entry := by
  rw [finalizeLoadPlan]
  dsimp only
  by_cases bare : r.loadPlan.entryCount = 0 ∨ r.minVmaddr = 0 ∨ r.maxVmaddr ≤ r.minVmaddr
  · refine (iff_of_eq (congrArg (Result.failureMask · = 0) (if_pos bare))).trans ?_
    constructor
    · exact fun none_ => absurd none_ (fail_ne_zero (by decide))
    · exact fun all => absurd bare all.2.1
  · refine (iff_of_eq (congrArg (Result.failureMask · = 0) (if_neg bare))).trans ?_
    have loop := @finalizeEntries_eq_zero r.minVmaddr r.loadPlan.entries (finalizing r)
    have same : (finalizing r).failureMask = r.failureMask := rfl
    rw [same] at loop
    simp only [bare, not_false_eq_true, true_and]
    rw [← loop]
    split
    · rfl
    · rfl

def finalized (r : Result) : Result :=
  let loop := finalizeEntries r.minVmaddr (finalizing r) r.loadPlan.entries
  { r with
    failureMask := loop.2.failureMask
    validationMask := r.validationMask ||| validLoadPlan
    loadVmBase := r.minVmaddr
    loadVmEnd := r.maxVmaddr
    loadFileBase := if loop.2.fileBase = 0xffffffff then 0 else loop.2.fileBase
    loadFileEnd := loop.2.fileEnd
    loadPhysBase := ramPhysBase
    loadPhysEnd := loop.2.physEnd
    loadPhysSize := loop.2.physEnd - ramPhysBase
    loadPlanCount := UInt32.ofNat loop.1.length
    loadPlanStatus := MachO.statusOk
    loadPlan :=
      { version := 1, vmBase := r.minVmaddr, vmEnd := r.maxVmaddr, physBase := ramPhysBase
        physEnd := loop.2.physEnd, fileEnd := loop.2.fileEnd, status := MachO.statusOk
        entries := loop.1 } }

theorem finalizeLoadPlan_eq (none_ : (finalizeLoadPlan r).failureMask = 0) :
    finalizeLoadPlan r = finalized r := by
  obtain ⟨before, bounds, placed⟩ := finalizeLoadPlan_eq_zero.mp none_
  have zero : (finalizeEntries r.minVmaddr (finalizing r) r.loadPlan.entries).2.failureMask = 0 :=
    finalizeEntries_eq_zero.mpr ⟨before, placed⟩
  have clear : (finalizeEntries r.minVmaddr (finalizing r) r.loadPlan.entries).2.failureMask &&&
      (failLoadPlan ||| failPhysRange ||| failLoadPlanFull) = 0 := by
    rw [zero, UInt32.zero_and]
  rw [finalizeLoadPlan]
  refine (if_neg bounds).trans ?_
  exact if_pos clear

/-! ## The checks around the commands -/

theorem check_core (r : Result) (good : Bool) (valid failure : UInt32) :
    (r.check good valid failure).core =
      { r.core with
        validationMask := r.core.validationMask ||| if good then valid else 0
        failureMask := r.core.failureMask ||| if good then 0 else failure } := by
  cases good with
  | false =>
      change (r.fail failure).core = { r.core with
        validationMask := r.core.validationMask ||| 0, failureMask := r.core.failureMask ||| failure }
      rw [UInt32.or_zero]
      rfl
  | true =>
      change (r.pass valid).core = { r.core with
        validationMask := r.core.validationMask ||| valid, failureMask := r.core.failureMask ||| 0 }
      rw [UInt32.or_zero]
      rfl

theorem passIf_core (r : Result) (c : Prop) [Decidable c] (valid : UInt32) :
    (if c then r.pass valid else r).core =
      { r.core with validationMask := r.core.validationMask ||| if c then valid else 0 } := by
  by_cases passes : c
  · rw [if_pos passes, if_pos passes]
    rfl
  · rw [if_neg passes, if_neg passes, UInt32.or_zero]

theorem ite_failure_eq_zero {good : Bool} {bits : UInt32} (some_ : bits ≠ 0) :
    (if good then 0 else bits) = 0 ↔ good = true := by
  cases good with
  | false => exact ⟨fun none_ => absurd none_ some_, fun none_ => absurd none_ Bool.false_ne_true⟩
  | true => exact ⟨fun _ => rfl, fun _ => rfl⟩

theorem check_failureMask (r : Result) (good : Bool) (valid failure : UInt32) :
    (r.check good valid failure).failureMask = r.failureMask ||| if good then 0 else failure :=
  congrArg Core.failureMask (check_core r good valid failure)

theorem check_sectionSeenMask (r : Result) (good : Bool) (valid failure : UInt32) :
    (r.check good valid failure).sectionSeenMask = r.sectionSeenMask :=
  congrArg Core.sectionSeenMask (check_core r good valid failure)

theorem check_entryKindMask (r : Result) (good : Bool) (valid failure : UInt32) :
    (r.check good valid failure).entryKindMask = r.entryKindMask :=
  congrArg Core.entryKindMask (check_core r good valid failure)

theorem passIf_failureMask (r : Result) (c : Prop) [Decidable c] (valid : UInt32) :
    (if c then r.pass valid else r).failureMask = r.failureMask :=
  congrArg Core.failureMask (passIf_core r c valid)

theorem passIf_entryKindMask (r : Result) (c : Prop) [Decidable c] (valid : UInt32) :
    (if c then r.pass valid else r).entryKindMask = r.entryKindMask :=
  congrArg Core.entryKindMask (passIf_core r c valid)

theorem pass_failureMask (r : Result) (valid : UInt32) :
    (r.pass valid).failureMask = r.failureMask := rfl

theorem pass_entryKindMask (r : Result) (valid : UInt32) :
    (r.pass valid).entryKindMask = r.entryKindMask := rfl

structure Seen (r : Result) : Prop where
  segments : r.segmentSeenMask &&& segRequired = segRequired
  sections : r.sectionSeenMask &&& sectRequired = sectRequired
  entry : r.entryKindMask &&& (entryUnixthread ||| entryMain) ≠ 0

theorem checkSeen_eq_zero : (checkSeen r).failureMask = 0 ↔ r.failureMask = 0 ∧ Seen r := by
  have segs : failRequiredSegments ≠ 0 := by decide
  have sects : failRequiredSections ≠ 0 := by decide
  have entry : failNoEntryMetadata ≠ 0 := by decide
  rw [checkSeen, check_failureMask, passIf_failureMask, passIf_failureMask, passIf_failureMask,
    check_failureMask, check_failureMask, UInt32.or_eq_zero_iff, UInt32.or_eq_zero_iff,
    UInt32.or_eq_zero_iff, ite_failure_eq_zero segs, ite_failure_eq_zero sects,
    ite_failure_eq_zero entry, passIf_entryKindMask, passIf_entryKindMask, passIf_entryKindMask,
    check_entryKindMask, check_entryKindMask, check_sectionSeenMask, decide_eq_true_iff,
    decide_eq_true_iff, decide_eq_true_iff]
  constructor
  · intro ⟨⟨⟨none_, one⟩, two⟩, three⟩
    exact ⟨none_, one, two, three⟩
  · intro ⟨none_, seen⟩
    exact ⟨⟨⟨none_, seen.segments⟩, seen.sections⟩, seen.entry⟩

/-- Behind the checks, all bits of the parser but the plan's are there. -/
theorem checkSeen_core (none_ : (checkSeen r).failureMask = 0) :
    ∃ report, (checkSeen r).core = { r.core with
      validationMask := r.validationMask ||| validRequiredSegments ||| validRequiredSections |||
        validFileExtents ||| validSectionBounds ||| report ||| validEntryNotExecuted } := by
  obtain ⟨before, seen⟩ := checkSeen_eq_zero.mp none_
  have entry := seen.entry
  apply Exists.intro
  rw [checkSeen, check_core, passIf_core, passIf_core, passIf_core, check_core, check_core]
  simp only [passIf_entryKindMask, check_entryKindMask, check_failureMask, pass_failureMask,
    pass_entryKindMask, check_sectionSeenMask, before, seen.segments, seen.sections, entry, ne_eq, not_false_eq_true,
    decide_true, if_true, UInt32.or_zero, UInt32.zero_and]
  rfl

/-! ## The names that are looked for -/

theorem named_unique {field name name' : List UInt8} (one : Named field name)
    (two : Named field name') : name = name' := one.symm.trans two

theorem bit_firstBit {α : Type} {tests : List (α × UInt32)} {passes : α → Bool} {a : α} {m : UInt32}
    {i : Nat} (exclusive : ∀ b c, b ∈ tests.map Prod.fst → c ∈ tests.map Prod.fst →
      passes b = true → passes c = true → b = c)
    (distinct : (tests.map Prod.fst).Nodup) (there : (a, m) ∈ tests) (has : bit m i = true)
    (only : ∀ test ∈ tests, bit test.2 i = true → test.1 = a) :
    bit (firstBit tests passes) i = true ↔ passes a = true := by
  rw [firstBit]
  cases found : tests.find? fun test => passes test.1 with
  | none =>
      have fails := List.find?_eq_none.mp found (a, m) there
      constructor
      · exact fun none_ => absurd ((Nat.zero_testBit i).symm.trans none_) Bool.false_ne_true
      · exact fun is => absurd is fails
  | some test =>
      have member := List.mem_of_find?_eq_some found
      have passed : passes test.1 = true := by
        have here := List.find?_some found
        exact here
      constructor
      · intro flag
        rw [only test member flag] at passed
        exact passed
      · intro is
        have same := exclusive test.1 a (List.mem_map_of_mem member)
          (List.mem_map_of_mem there) passed is
        have equal : test = (a, m) := List.inj_on_of_nodup_map distinct member there same
        rw [equal]
        exact has

def isName (name : List UInt8) : Bool := name.all (· ≠ 0) && name.length ≤ 16

theorem fixed16Eq_isName {field name : List UInt8} (width : field.length = 16)
    (is : isName name = true) : fixed16Eq field name = true ↔ Named field name := by
  rw [isName, Bool.and_eq_true, List.all_eq_true, decide_eq_true_iff] at is
  exact fixed16Eq_iff (fun c there => of_decide_eq_true (is.1 c there)) (width ▸ is.2)

theorem fixed16_length (mem : Mem) (p : UInt32) : (fixed16 mem p).length = 16 := by
  rw [fixed16, List.length_map, List.length_range]

theorem bit_segmentMaskForName {field name : List UInt8} {m : UInt32} {i : Nat}
    (width : field.length = 16) (there : (name, m) ∈ segmentNames) (has : bit m i = true)
    (only : (segmentNames.all fun test => !bit test.2 i || test.1 == name) = true) :
    bit (segmentMaskForName field) i = true ↔ Named field name := by
  have names : ((segmentNames.map Prod.fst).all isName) = true := by decide
  have test : ∀ b ∈ segmentNames.map Prod.fst, (fixed16Eq field b = true ↔ Named field b) :=
    fun b among => fixed16Eq_isName width (List.all_eq_true.mp names b among)
  rw [segmentMaskForName, bit_firstBit (a := name) ?_ (by decide) there has ?_]
  · exact test name (List.mem_map_of_mem there)
  · intro b c one two passes passes'
    exact named_unique ((test b one).mp passes) ((test c two).mp passes')
  · intro other among flag
    have alone := List.all_eq_true.mp only other among
    rw [flag, Bool.not_true, Bool.false_or] at alone
    exact eq_of_beq alone

theorem bit_sectionBit {sect : Section} {name : List UInt8 × List UInt8} {m : UInt32} {i : Nat}
    (width : sect.segname.length = 16) (width' : sect.sectname.length = 16)
    (there : (name, m) ∈ sectionNames) (has : bit m i = true)
    (only : (sectionNames.all fun test => !bit test.2 i || test.1 == name) = true) :
    bit (sectionBit sect) i = true ↔ Named sect.segname name.1 ∧ Named sect.sectname name.2 := by
  have names : ((sectionNames.map Prod.fst).all fun name => isName name.1 && isName name.2) = true := by
    decide
  have test : ∀ b ∈ sectionNames.map Prod.fst,
      ((fixed16Eq sect.segname b.1 && fixed16Eq sect.sectname b.2) = true ↔
        Named sect.segname b.1 ∧ Named sect.sectname b.2) := by
    intro b among
    have both := List.all_eq_true.mp names b among
    rw [Bool.and_eq_true] at both
    rw [Bool.and_eq_true, fixed16Eq_isName width both.1, fixed16Eq_isName width' both.2]
  rw [sectionBit, bit_firstBit (a := name) ?_ (by decide) there has ?_]
  · exact test name (List.mem_map_of_mem there)
  · intro b c one two passes passes'
    have first := (test b one).mp passes
    have second := (test c two).mp passes'
    exact Prod.ext (named_unique first.1 second.1) (named_unique first.2 second.2)
  · intro other among flag
    have alone := List.all_eq_true.mp only other among
    rw [flag, Bool.not_true, Bool.false_or] at alone
    exact eq_of_beq alone

theorem covers_required {x required : UInt32} {n : Nat} (ones : required.toNat = 2 ^ n - 1) :
    x &&& required = required ↔ ∀ i < n, bit x i = true := by
  rw [covers_iff]
  have flags : ∀ i, bit required i = true ↔ i < n := by
    intro i
    rw [bit, ones, Nat.testBit_two_pow_sub_one, decide_eq_true_iff]
  constructor
  · exact fun all i below => all i ((flags i).mpr below)
  · exact fun all i there => all i ((flags i).mp there)

/-! ## The header -/

theorem checkMagic_eq_zero {magic : UInt32} :
    (checkMagic r magic).failureMask = 0 ↔ r.failureMask = 0 ∧ magic = mhMagic := by
  rw [checkMagic]
  by_cases good : magic = mhMagic
  · rw [if_pos good]
    exact ⟨fun none_ => ⟨none_, good⟩, fun both => both.1⟩
  · rw [if_neg good]
    refine ⟨fun none_ => absurd none_ ?_, fun both => absurd both.2 good⟩
    split
    · exact fail_ne_zero (by decide)
    · exact fail_ne_zero (by decide)

structure HeaderFits (header : Header) : Prop where
  magic : header.magic = mhMagic
  cputype : header.cputype = cpuTypeArm
  cpusubtype : header.cpusubtype = cpuSubtypeArmAll ∨ header.cpusubtype = cpuSubtypeArmV7
  filetype : header.filetype = filetypeExecute ∨ header.filetype = filetypePreload

theorem checkHeader_eq_zero {header : Header} :
    (checkHeader r header).failureMask = 0 ↔ r.failureMask = 0 ∧ HeaderFits header := by
  have cpu : failCpu ≠ 0 := by decide
  have subtype : failSubtype ≠ 0 := by decide
  have filetype : failFiletype ≠ 0 := by decide
  rw [checkHeader, check_failureMask, check_failureMask, check_failureMask, UInt32.or_eq_zero_iff,
    UInt32.or_eq_zero_iff, UInt32.or_eq_zero_iff, ite_failure_eq_zero cpu,
    ite_failure_eq_zero subtype, ite_failure_eq_zero filetype, checkMagic_eq_zero,
    decide_eq_true_iff, decide_eq_true_iff, decide_eq_true_iff]
  constructor
  · intro ⟨⟨⟨⟨none_, magic⟩, one⟩, two⟩, three⟩
    exact ⟨none_, magic, one, two, three⟩
  · intro ⟨none_, fits⟩
    exact ⟨⟨⟨⟨none_, fits.magic⟩, fits.cputype⟩, fits.cpusubtype⟩, fits.filetype⟩

theorem checkHeader_eq {header : Header} (fits : HeaderFits header) :
    checkHeader r header =
      (((({ r with header := header }.pass (validMagic ||| validEndian)).pass validCpu).pass
        validSubtype).pass validFiletype) := by
  rw [checkHeader, checkMagic, if_pos fits.magic, decide_eq_true fits.cputype,
    decide_eq_true fits.cpusubtype, decide_eq_true fits.filetype]
  rfl

/-! ## The command region -/

structure RegionFits (size : Nat) (header : Header) : Prop where
  words : 4 ∣ header.sizeofcmds.toNat
  region : 28 + header.sizeofcmds.toNat ≤ size

theorem region_bounds {sizeofcmds size : UInt32} :
    ¬ (addOverflowU32 headerSize sizeofcmds = true ∨ size < headerSize + sizeofcmds ∨
        sizeofcmds &&& 3 ≠ 0) ↔
      4 ∣ sizeofcmds.toNat ∧ 28 + sizeofcmds.toNat ≤ size.toNat := by
  have head : headerSize.toNat = 28 := rfl
  rw [← or_assoc, not_or, checked_le_iff, head, not_ne_iff, and_three_eq_zero_iff, and_comm]

theorem probeCommands_sound {size : UInt32}
    (none_ : (probeCommands mem bytes size r).failureMask = 0) :
    RegionFits size.toNat r.header ∧
      ∃ commands, Tiles mem bytes (28 + r.header.sizeofcmds.toNat) 28 commands ∧
        commands.length ≤ r.header.ncmds.toNat ∧
          probeCommands mem bytes size r =
              commands.foldl (recordCommand mem bytes) (r.pass validCommandBounds) ∧
            (probeCommands mem bytes size r).loadCommandCountSeen = r.header.ncmds := by
  rw [probeCommands] at none_ ⊢
  dsimp only at none_ ⊢
  have fails : failCommandBounds ≠ 0 := by decide
  by_cases bad : addOverflowU32 headerSize r.header.sizeofcmds = true ∨
      size < headerSize + r.header.sizeofcmds ∨ r.header.sizeofcmds &&& 3 ≠ 0
  · rw [if_pos bad] at none_
    exact absurd none_ (fail_ne_zero fails)
  · rw [if_neg bad] at none_ ⊢
    obtain ⟨words, region⟩ := region_bounds.mp bad
    obtain ⟨before, agree⟩ := (failIf_eq_zero fails).mp none_
    rw [if_neg agree]
    rw [not_or, not_ne_iff, not_ne_iff] at agree
    have head : headerSize.toNat = 28 := rfl
    have below := size.toNat_lt
    have stop : (headerSize + r.header.sizeofcmds).toNat = 28 + r.header.sizeofcmds.toNat :=
      toNat_add_of_lt (by omega)
    obtain ⟨commands, tiles, within, folds⟩ := commandLoop_sound agree.2 before
    rw [stop, head] at tiles
    exact ⟨⟨words, region⟩, commands, tiles, within, folds, agree.1⟩

theorem probeCommands_complete {size : UInt32} {commands : List UInt32}
    (fits : RegionFits size.toNat r.header)
    (tiles : Tiles mem bytes (28 + r.header.sizeofcmds.toNat) 28 commands)
    (within : commands.length ≤ r.header.ncmds.toNat)
    (count : (commands.foldl (recordCommand mem bytes)
      (r.pass validCommandBounds)).loadCommandCountSeen = r.header.ncmds) :
    probeCommands mem bytes size r =
      commands.foldl (recordCommand mem bytes) (r.pass validCommandBounds) := by
  have head : headerSize.toNat = 28 := rfl
  have below := size.toNat_lt
  have region := fits.region
  have stop : (headerSize + r.header.sizeofcmds).toNat = 28 + r.header.sizeofcmds.toNat :=
    toNat_add_of_lt (by omega)
  have tiles' : Tiles mem bytes (headerSize + r.header.sizeofcmds).toNat headerSize.toNat commands := by
    rw [stop, head]
    exact tiles
  rw [probeCommands]
  dsimp only
  rw [if_neg (region_bounds.mpr ⟨fits.words, fits.region⟩), commandLoop_tiles tiles' within]
  exact if_neg fun either => either.elim (fun other => other count) fun other => other rfl

end Stage90.Probe

import Stage90.MachO.Placement
import Stage90.Mmu.TteBuild

/-!
# The dry-run tables against the load plan
-/

set_option autoImplicit false

namespace Stage90.Dryrun

open Stage90.Lib
open Stage90.Probe (Result LoadPlanEntry Placement ramPhysBase ramConsoleBase stage90MachoProbe)

variable {probe : Result} {va : UInt32} {a : Arenas} {preflight : Preflight}

/-! ## The load plan -/

/-- The high table takes every address of every entry to the entry's place. -/
def HighVaAgrees (probe : Result) (tte : Tte) : Prop :=
  ∀ load ∈ probe.loadPlan.entries, ∀ i < load.vmsize,
    tteTranslateL1Section tte.highvaL1 (load.vmaddr + i) = some (load.physaddr + i)

/-- The addresses that the identity table is for: the image's place, the RAM below the console, and
the sections of the console and of the interrupt controller. -/
def OwnAddress (probe : Result) (va : UInt32) : Prop :=
  (probe.loadPhysBase ≤ va ∧ va < probe.loadPhysEnd) ∨ (ramPhysBase ≤ va ∧ va < ramConsoleBase) ∨
    sectionFirstIndex va = sectionFirstIndex ramConsoleBase ∨
    (sectionFirstIndex gicFirst ≤ sectionFirstIndex va ∧
      sectionFirstIndex va ≤ sectionFirstIndex gicLast)

/-- The identity table takes these addresses to themselves, and no other section is mapped. -/
def IdentityAgrees (probe : Result) (tte : Tte) : Prop :=
  (∀ va, OwnAddress probe va → tteTranslateL1Section tte.identityL1 va = some va) ∧
    ∀ index < l1EntryCount, (∀ va, sectionFirstIndex va = index → ¬ OwnAddress probe va) →
      tte.identityL1 index &&& descTypeMask = 0

theorem own_covered (kernel : probe.loadPhysBase < probe.loadPhysEnd) (own : OwnAddress probe va) :
    Covered (sectionsOf probe) (sectionFirstIndex va) := by
  rcases own with image | ram | console | gic
  · exact kernel_covered kernel (UInt32.le_iff_toNat_le.mp image.1) (UInt32.lt_iff_toNat_lt.mp image.2)
  · have last := toNat_pred ram.2
    have below := UInt32.lt_iff_toNat_lt.mp ram.2
    left
    exact ⟨index_le (UInt32.le_iff_toNat_le.mp ram.1), index_le (by omega)⟩
  · exact .inr (.inr (.inl console))
  · exact .inr (.inr (.inr gic))

theorem covered_own {index : UInt32} (kernel : probe.loadPhysBase < probe.loadPhysEnd)
    (covered : Covered (sectionsOf probe) index) :
    ∃ va, sectionFirstIndex va = index ∧ OwnAddress probe va := by
  have inside := (mapIdentity_of_covered (sections_ranged kernel) covered).2
  have start := toNat_base inside
  have own : sectionFirstIndex (index <<< 20) = index := by
    apply UInt32.toNat_inj.mp
    rw [sectionFirstIndex, toNat_index, start]
    omega
  have below := UInt32.lt_iff_toNat_lt.mp kernel
  have last := toNat_pred kernel
  rcases covered with lowmem | image | console | gic
  · have first : (sectionFirstIndex ramPhysBase).toNat = 0x800 := by decide
    have final : (sectionLastIndex ramConsoleBase).toNat = 0xde4 := by decide
    have low : (sectionFirstIndex ramPhysBase).toNat ≤ index.toNat := UInt32.le_iff_toNat_le.mp lowmem.1
    have high : index.toNat ≤ (sectionLastIndex ramConsoleBase).toNat :=
      UInt32.le_iff_toNat_le.mp lowmem.2
    refine ⟨index <<< 20, own, .inr (.inl ⟨?_, ?_⟩)⟩
    · rw [UInt32.le_iff_toNat_le, start]
      change 0x80000000 ≤ _
      omega
    · rw [UInt32.lt_iff_toNat_lt, start]
      change _ < 0xde500000
      omega
  · dsimp only [sectionsOf] at image
    rw [if_pos kernel, if_pos kernel] at image
    have low := UInt32.le_iff_toNat_le.mp image.1
    have high := UInt32.le_iff_toNat_le.mp image.2
    rw [sectionFirstIndex, toNat_index] at low
    rw [sectionLastIndex, toNat_index, last] at high
    -- the first section of the image may start below it
    by_cases first : probe.loadPhysBase.toNat ≤ (index <<< 20).toNat
    · refine ⟨index <<< 20, own, .inl ⟨UInt32.le_iff_toNat_le.mpr first, ?_⟩⟩
      rw [UInt32.lt_iff_toNat_lt, start]
      omega
    · refine ⟨probe.loadPhysBase, ?_, .inl ⟨UInt32.le_refl _, kernel⟩⟩
      apply UInt32.toNat_inj.mp
      rw [sectionFirstIndex, toNat_index]
      omega
  · exact ⟨index <<< 20, own, .inr (.inr (.inl (own.trans console)))⟩
  · refine ⟨index <<< 20, own, .inr (.inr (.inr ?_))⟩
    rw [own]
    exact gic

theorem identity_agrees (ok : (stage90XnuTteDryrunBuild a probe preflight).1 = true) :
    IdentityAgrees probe (stage90XnuTteDryrunBuild a probe preflight).2 := by
  obtain ⟨clear, range⟩ := build_clear ok
  have ready := (build_iff.mp ok).safeTable.1
  have ranged := sections_ranged range.2
  rw [IdentityAgrees, (build_mapped clear range).2.2, if_pos ready]
  refine ⟨fun va own => translate_identity ranged (own_covered range.2 own), ?_⟩
  intro index inside none_
  have spared : ¬ Covered (sectionsOf probe) index := by
    intro covered
    obtain ⟨va, there, own⟩ := covered_own range.2 covered
    exact none_ va there own
  rw [mapIdentity_of_not_covered ranged spared, UInt32.zero_and]

theorem megabytes_add {p b v : Nat} (ordered : b / 2 ^ 20 ≤ v / 2 ^ 20) :
    (p / 2 ^ 20 * 2 ^ 20 + (v / 2 ^ 20 * 2 ^ 20 - b / 2 ^ 20 * 2 ^ 20)) / 2 ^ 20 * 2 ^ 20 + v % 2 ^ 20 =
      p / 2 ^ 20 * 2 ^ 20 + (v - b / 2 ^ 20 * 2 ^ 20) := by
  omega

/-- What the high table answers, for an address of the image: the megabyte is counted from the
megabyte of the image's base. -/
theorem translate_high (range : HighVaRange probe) (above : probe.loadVmBase.toNat ≤ va.toNat)
    (below : va.toNat < probe.loadVmEnd.toNat)
    (room : probe.loadPhysBase.toNat + (va.toNat - probe.loadVmBase.toNat) + 2 ^ 20 < 2 ^ 32) {pa : UInt32} :
    tteTranslateL1Section (mapHighVa (highVaOf probe)) va = some pa ↔
      pa.toNat = probe.loadPhysBase.toNat / 2 ^ 20 * 2 ^ 20 +
        (va.toNat - probe.loadVmBase.toNat / 2 ^ 20 * 2 ^ 20) := by
  have fits := highVa_fits range
  have virtBase := fits.virtBase
  have word := mapHighVa_word range (by omega) below
  have here := section_pa (tteSectionPaForVa va (highVaOf probe).virtBase (highVaOf probe).physBase)
  rw [← word] at here
  have delta : ((va &&& descBaseMask) - ((highVaOf probe).virtBase &&& descBaseMask)).toNat =
      va.toNat / 2 ^ 20 * 2 ^ 20 - probe.loadVmBase.toNat / 2 ^ 20 * 2 ^ 20 := by
    rw [UInt32.toNat_sub_of_le, toNat_descBase, toNat_descBase, virtBase]
    · omega
    · rw [UInt32.le_iff_toNat_le, toNat_descBase, toNat_descBase, virtBase]
      omega
  have place : (tteSectionPaForVa va (highVaOf probe).virtBase (highVaOf probe).physBase).toNat =
      probe.loadPhysBase.toNat / 2 ^ 20 * 2 ^ 20 +
        (va.toNat / 2 ^ 20 * 2 ^ 20 - probe.loadVmBase.toNat / 2 ^ 20 * 2 ^ 20) := by
    have base : ((highVaOf probe).physBase &&& descBaseMask).toNat =
        probe.loadPhysBase.toNat / 2 ^ 20 * 2 ^ 20 := by
      rw [toNat_descBase, fits.physBase, toNat_descBase]
      omega
    rw [tteSectionPaForVa, Probe.toNat_add_of_lt, base, delta]
    rw [base, delta]
    omega
  have ordered : probe.loadVmBase.toNat / 2 ^ 20 ≤ va.toNat / 2 ^ 20 := Nat.div_le_div_right above
  rw [translate_section here, place, megabytes_add ordered]

/-- An entry is found at its place exactly if the image's base is a whole megabyte. -/
theorem entry_agrees {load : LoadPlanEntry} {i : UInt32} (placement : Placement probe)
    (range : HighVaRange probe) (there : load ∈ probe.loadPlan.entries) (inside : i < load.vmsize) :
    tteTranslateL1Section (mapHighVa (highVaOf probe)) (load.vmaddr + i) = some (load.physaddr + i) ↔
      2 ^ 20 ∣ probe.loadVmBase.toNat := by
  have placed := placement.entries load there
  have base := placed.base
  have within := placed.within
  have physaddr := placed.physaddr
  have room := placed.room
  have physEnd := placement.physEnd
  have below := probe.loadVmEnd.toNat_lt
  have ram : ramPhysBase.toNat = 2048 * 2 ^ 20 := rfl
  have console : ramConsoleBase.toNat = 3557 * 2 ^ 20 := rfl
  rw [UInt32.lt_iff_toNat_lt] at inside
  have va : (load.vmaddr + i).toNat = load.vmaddr.toNat + i.toNat := Probe.toNat_add_of_lt (by omega)
  have pa : (load.physaddr + i).toNat = load.physaddr.toNat + i.toNat :=
    Probe.toNat_add_of_lt (by omega)
  rw [translate_high range (by omega) (by omega), placement.physBase, va, pa, physaddr, ram]
  · omega
  · rw [placement.physBase, va, ram]
    omega

/-- The tables agree with the load plan exactly if the image's base is a whole megabyte. -/
theorem dryrun_agrees_iff (mem : Mem) (artifact size : UInt32) (a : Arenas) (preflight : Preflight)
    (accepted : (stage90MachoProbe mem artifact size).1 = true)
    (ok : (stage90XnuTteDryrunBuild a (stage90MachoProbe mem artifact size).2 preflight).1 = true) :
    HighVaAgrees (stage90MachoProbe mem artifact size).2
          (stage90XnuTteDryrunBuild a (stage90MachoProbe mem artifact size).2 preflight).2 ∧
        IdentityAgrees (stage90MachoProbe mem artifact size).2
          (stage90XnuTteDryrunBuild a (stage90MachoProbe mem artifact size).2 preflight).2 ↔
      2 ^ 20 ∣ (stage90MachoProbe mem artifact size).2.loadVmBase.toNat := by
  have placement := Probe.probe_placement accepted
  revert ok placement
  generalize (stage90MachoProbe mem artifact size).2 = probe
  intro ok placement
  obtain ⟨clear, range⟩ := build_clear ok
  have table := (build_mapped clear range).2.1
  constructor
  · intro ⟨agrees, _⟩
    obtain ⟨load, there⟩ := placement.entry
    have some_ : (0 : UInt32) < load.vmsize := by
      rw [UInt32.lt_iff_toNat_lt]
      exact (placement.entries load there).some_
    have first := agrees load there 0 some_
    rw [table] at first
    exact (entry_agrees placement range there some_).mp first
  · intro whole
    refine ⟨?_, identity_agrees ok⟩
    intro load there i inside
    rw [table]
    exact (entry_agrees placement range there inside).mpr whole

/-! ## A small image -/

/-- But for its range, the builder reads two fields of the result. -/
theorem Accepts.congr {probe' : Result} (range : HighVaRange probe')
    (physBase : probe'.loadPhysBase = probe.loadPhysBase)
    (physEnd : probe'.loadPhysEnd = probe.loadPhysEnd) (accepts : Accepts a probe preflight) :
    Accepts a probe' preflight := by
  obtain ⟨layout, -, policy, safeTable, apart⟩ := accepts
  have sections : sectionsOf probe' = sectionsOf probe := by
    rw [sectionsOf, sectionsOf, physBase, physEnd]
  have aliases : ∀ base limit, aliasesImage a probe' base limit = aliasesImage a probe base limit := by
    intro base limit
    rw [aliasesImage, aliasesImage, physBase, physEnd]
  refine ⟨?_, range, policy, safeTable, ?_⟩
  · rw [sections, layoutChecks, physBase, physEnd, aliases]
    exact layout
  · rw [aliases]
    exact apart

def smallArenas : Arenas := ⟨Probe.smallImageBase, 460, 0x200000, 0x300000, 0x400000⟩

def smallPreflight : Preflight := ⟨0x80000000, 0x5e500000, 0x80004000, 0x8000e000, 0x80004000⟩

def smallProbe (vmaddr : UInt32) : Bool × Result :=
  stage90MachoProbe (ofWords Probe.smallImageBase (Probe.smallImage vmaddr)) Probe.smallImageBase 460

/-- A result with the place of an image of two pages. -/
def twoPages : Result :=
  { loadVmBase := 0, loadVmEnd := 1, loadPhysBase := ramPhysBase, loadPhysEnd := 0x80002000 }

theorem twoPages_accepted : Accepts smallArenas twoPages smallPreflight :=
  ⟨by decide, by decide, by decide, by decide, by decide⟩

/-- The probe accepts a small image, and the builder its result. -/
theorem smallProbe_built {vmaddr vmBase vmEnd : UInt32} (some_ : vmBase < vmEnd)
    (probed : (smallProbe vmaddr).2.loadVmBase = vmBase ∧ (smallProbe vmaddr).2.loadVmEnd = vmEnd ∧
      (smallProbe vmaddr).2.loadPhysBase = ramPhysBase ∧
        (smallProbe vmaddr).2.loadPhysEnd = 0x80002000) :
    (stage90XnuTteDryrunBuild smallArenas (smallProbe vmaddr).2 smallPreflight).1 = true := by
  obtain ⟨base, last, physBase, physEnd⟩ := probed
  have range : HighVaRange (smallProbe vmaddr).2 := by
    rw [HighVaRange, base, last, physBase, physEnd]
    exact ⟨some_, by decide⟩
  exact build_iff.mpr (twoPages_accepted.congr range physBase physEnd)

/-- With `__DATA` at a whole megabyte below `__TEXT`, the tables agree with the plan. -/
theorem smallImage_agrees :
    HighVaAgrees (smallProbe 0x80000000).2
        (stage90XnuTteDryrunBuild smallArenas (smallProbe 0x80000000).2 smallPreflight).2 ∧
      IdentityAgrees (smallProbe 0x80000000).2
        (stage90XnuTteDryrunBuild smallArenas (smallProbe 0x80000000).2 smallPreflight).2 := by
  have probed : (smallProbe 0x80000000).1 = true ∧
      (smallProbe 0x80000000).2.loadVmBase = 0x80000000 ∧
        (smallProbe 0x80000000).2.loadVmEnd = 0x800011cc ∧
          (smallProbe 0x80000000).2.loadPhysBase = ramPhysBase ∧
            (smallProbe 0x80000000).2.loadPhysEnd = 0x80002000 := by
    decide +kernel
  have built := smallProbe_built (by decide) probed.2
  have accepted := probed.1
  have whole : 2 ^ 20 ∣ (smallProbe 0x80000000).2.loadVmBase.toNat := by
    rw [probed.2.1]
    decide
  unfold smallProbe at accepted built whole ⊢
  exact (dryrun_agrees_iff _ _ _ _ _ accepted built).mpr whole

/-- With `__DATA` behind `__TEXT`, the image's base is `0x80001000`: the probe accepts it and the
builder succeeds, and the table takes the base to a page behind its place. -/
theorem smallImage_displaced :
    (smallProbe 0x80002000).1 = true ∧
      (stage90XnuTteDryrunBuild smallArenas (smallProbe 0x80002000).2 smallPreflight).1 = true ∧
        ¬ HighVaAgrees (smallProbe 0x80002000).2
          (stage90XnuTteDryrunBuild smallArenas (smallProbe 0x80002000).2 smallPreflight).2 := by
  have probed : (smallProbe 0x80002000).1 = true ∧
      (smallProbe 0x80002000).2.loadVmBase = 0x80001000 ∧
        (smallProbe 0x80002000).2.loadVmEnd = 0x80002004 ∧
          (smallProbe 0x80002000).2.loadPhysBase = ramPhysBase ∧
            (smallProbe 0x80002000).2.loadPhysEnd = 0x80002000 := by
    decide +kernel
  have built := smallProbe_built (by decide) probed.2
  refine ⟨probed.1, built, ?_⟩
  obtain ⟨clear, range⟩ := build_clear built
  have placement : Placement (smallProbe 0x80002000).2 := Probe.probe_placement probed.1
  obtain ⟨load, there⟩ := placement.entry
  have some_ : (0 : UInt32) < load.vmsize := by
    rw [UInt32.lt_iff_toNat_lt]
    exact (placement.entries load there).some_
  intro agrees
  have first := agrees load there 0 some_
  rw [(build_mapped clear range).2.1] at first
  have whole := (entry_agrees placement range there some_).mp first
  rw [probed.2.1] at whole
  exact absurd whole (by decide)

end Stage90.Dryrun

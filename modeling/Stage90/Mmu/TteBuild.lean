import Stage90.MachO.ProbeSteps
import Stage90.Mmu.TteTables

/-!
# What the dry-run builder accepts

The checks on the layout decide.  The readback of the tables never fails.
-/

set_option autoImplicit false

namespace Stage90.Dryrun

open Stage90.Lib
open Stage90.Probe (Result addOverflowU32 ramPhysBase ramConsoleBase)

/-! ## Lists of checks -/

variable {checks others : List Check}

theorem failureMask_append :
    failureMask (checks ++ others) = failureMask checks ||| failureMask others := by
  rw [failureMask, List.filter_append, List.map_append, orAll_append]
  rfl

theorem failureMask_append_eq_zero :
    failureMask (checks ++ others) = 0 ↔ failureMask checks = 0 ∧ failureMask others = 0 := by
  rw [failureMask_append, UInt32.or_eq_zero_iff]

theorem failureMask_clear {c : Check} (none_ : failureMask checks = 0) (there : c ∈ checks)
    (some_ : c.failure ≠ 0) : c.holds = true := by
  rw [failureMask, orAll_eq_zero_iff] at none_
  by_contra fails
  apply some_
  apply none_
  rw [Bool.not_eq_true] at fails
  exact List.mem_map_of_mem (List.mem_filter.mpr ⟨there, by rw [fails, Bool.not_false]⟩)

theorem failureMask_of_all (all : ∀ c ∈ checks, c.holds = true) : failureMask checks = 0 := by
  have none_ : (checks.filter fun c => !c.holds) = [] := by
    rw [List.filter_eq_nil_iff]
    intro c there
    rw [all c there]
    decide
  rw [failureMask, none_]
  rfl

theorem satisfiedMask_of_all (all : ∀ c ∈ checks, c.holds = true) :
    satisfiedMask checks = orAll (checks.map Check.satisfied) := by
  rw [satisfiedMask, List.filter_eq_self.mpr all]

theorem orAll_const {xs : List UInt32} {c : UInt32} (some_ : xs ≠ []) (same : ∀ x ∈ xs, x = c) :
    orAll xs = c := by
  induction xs with
  | nil => exact absurd rfl some_
  | cons x xs ih =>
      rw [List.forall_mem_cons] at same
      rw [orAll_cons, same.1]
      cases xs with
      | nil => exact UInt32.or_zero
      | cons y ys => rw [ih (List.cons_ne_nil y ys) same.2, UInt32.or_self]

/-! ## Words that were read back -/

theorem masks_seen {words : List UInt32} (some_ : words ≠ [])
    (sections : ∀ word ∈ words, ∃ n, IsSection word n) :
    typeMaskSeen words = descTypeSection ∧ attrMaskSeen words = expectedAttrMask ∧
      words.all (tteDescriptorAttrsOk · descSectionSo) = true := by
  have mapped : ∀ f : UInt32 → UInt32, words.map f ≠ [] := fun f none_ =>
    some_ (List.map_eq_nil_iff.mp none_)
  refine ⟨orAll_const (mapped _) ?_, orAll_const (mapped _) ?_, ?_⟩
  · intro bits there
    obtain ⟨word, among, rfl⟩ := List.mem_map.mp there
    obtain ⟨n, here⟩ := sections word among
    exact section_type here
  · intro bits there
    obtain ⟨word, among, rfl⟩ := List.mem_map.mp there
    obtain ⟨n, here⟩ := sections word among
    exact section_attr here
  · rw [List.all_eq_true]
    intro word among
    obtain ⟨n, here⟩ := sections word among
    exact section_attrsOk here

variable {s : Sections}

theorem covered_ends (ranged : Ranged s) :
    Covered s s.lowmemFirst ∧ Covered s s.lowmemLast ∧ Covered s s.kernelFirst ∧
      Covered s s.kernelLast ∧ Covered s s.ramConsole ∧ Covered s s.gicFirst ∧ Covered s s.gicLast :=
  ⟨.inl ⟨UInt32.le_refl _, ranged.lowmem⟩, .inl ⟨ranged.lowmem, UInt32.le_refl _⟩,
    .inr (.inl ⟨UInt32.le_refl _, ranged.kernel⟩), .inr (.inl ⟨ranged.kernel, UInt32.le_refl _⟩),
    .inr (.inr (.inl rfl)), .inr (.inr (.inr ⟨UInt32.le_refl _, ranged.gic⟩)),
    .inr (.inr (.inr ⟨ranged.gic, UInt32.le_refl _⟩))⟩

theorem identityReadback_holds (ranged : Ranged s) :
    (∀ c ∈ identityReadback (mapIdentity s) s, c.holds = true) ∧
      identityWords (mapIdentity s) s =
        [s.lowmemFirst, s.lowmemLast, s.kernelFirst, s.kernelLast, s.ramConsole, s.gicFirst,
          s.gicLast].map (mapIdentity s) := by
  have word : ∀ i, Covered s i → mapIdentity s i = tteSectionWord i descSectionSo :=
    fun i covered => (mapIdentity_of_covered ranged covered).1
  have lowmem := verifyRange_of_sections ranged.lowmem ranged.lowmemLast
    fun i above below => word i (.inl ⟨above, below⟩)
  have kernel := verifyRange_of_sections ranged.kernel ranged.kernelLast
    fun i above below => word i (.inr (.inl ⟨above, below⟩))
  have console := verifySlot_of_section ranged.ramConsole (word _ (.inr (.inr (.inl rfl))))
  have gic := verifyRange_of_sections ranged.gic ranged.gicLast
    fun i above below => word i (.inr (.inr (.inr ⟨above, below⟩)))
  refine ⟨?_, ?_⟩
  · rw [identityReadback]
    simp only [List.forall_mem_cons, List.not_mem_nil, false_imp_iff, implies_true, and_true]
    exact ⟨lowmem.1, kernel.1, console.1, gic.1⟩
  · rw [identityWords, lowmem.2, kernel.2, console.2, gic.2]
    rfl

theorem identityWords_sections (ranged : Ranged s) :
    ∀ word ∈ identityWords (mapIdentity s) s, ∃ n, IsSection word n := by
  obtain ⟨low, low', kern, kern', console, gic, gic'⟩ := covered_ends ranged
  have covered : ∀ i ∈ [s.lowmemFirst, s.lowmemLast, s.kernelFirst, s.kernelLast, s.ramConsole,
      s.gicFirst, s.gicLast], Covered s i := by
    simp only [List.forall_mem_cons, List.not_mem_nil, false_imp_iff, implies_true, and_true]
    exact ⟨low, low', kern, kern', console, gic, gic'⟩
  intro word there
  rw [(identityReadback_holds ranged).2] at there
  obtain ⟨i, among, rfl⟩ := List.mem_map.mp there
  obtain ⟨same, inside⟩ := mapIdentity_of_covered ranged (covered i among)
  rw [same]
  exact ⟨_, section_index inside⟩

theorem identityChecks_hold {probe : Result} (ranged : Ranged s)
    (translates : ∀ c ∈ identityTranslation (mapIdentity s) probe, c.holds = true)
    (kernel : probe.loadPhysBase < probe.loadPhysEnd) :
    ∀ c ∈ identityChecks (identityReadback (mapIdentity s) s)
      (identityTranslation (mapIdentity s) probe) (identityWords (mapIdentity s) s), c.holds = true := by
  obtain ⟨readback, words⟩ := identityReadback_holds ranged
  have seen := @masks_seen (identityWords (mapIdentity s) s) (by rw [words]; exact List.cons_ne_nil _ _)
    (identityWords_sections ranged)
  have verified : satisfiedMask (identityReadback (mapIdentity s) s) = 0x7f := by
    rw [satisfiedMask_of_all readback]
    change orAll [verifyLowmem, verifyKernel, verifyRamConsole, verifyGic] = 0x7f
    decide
  have translated : satisfiedMask (identityTranslation (mapIdentity s) probe) = 0x1f := by
    rw [satisfiedMask_of_all translates, identityTranslation, if_pos kernel]
    change orAll [translateKernelFirst, translateKernelLast, translateLowRam, translateRamConsole,
      translateGic] = 0x1f
    decide
  rw [identityChecks, verified, failureMask_of_all readback, translated, seen.1, seen.2.1, seen.2.2]
  simp only [List.forall_mem_cons, List.not_mem_nil, false_imp_iff, implies_true, and_true]
  decide

/-! ## The high table -/

theorem index_base (va : UInt32) : sectionFirstIndex va <<< 20 = va &&& descBaseMask := by
  apply UInt32.toNat_inj.mp
  rw [toNat_base (index_lt va), toNat_descBase, sectionFirstIndex, toNat_index]

theorem sectionPa_index (va vaBase paBase : UInt32) :
    sectionPa vaBase paBase (sectionFirstIndex va) = tteSectionPaForVa va vaBase paBase := by
  rw [sectionPa, index_base, tteSectionPaForVa]

theorem wordPa_base (pa flags : UInt32) :
    tteSectionWordPa (pa &&& descBaseMask) flags = tteSectionWordPa pa flags := by
  rw [tteSectionWordPa, tteSectionWordPa, UInt32.and_assoc, UInt32.and_self]

variable {l1 : L1} {va pa : UInt32}

theorem verifySlotPa_of_section (word : l1 (sectionFirstIndex va) = tteSectionWordPa pa descSectionSo) :
    (tteVerifySectionSlotPa l1 va pa descSectionSo).1 = true ∧
      (tteVerifySectionSlotPa l1 va pa descSectionSo).2 = tteSectionWordPa pa descSectionSo := by
  have base : tteSectionWordPa pa descSectionSo &&& descBaseMask = pa &&& descBaseMask := by
    have flags : descSectionSo.toNat = 68610 := rfl
    apply UInt32.toNat_inj.mp
    rw [toNat_descBase, toNat_descBase, section_pa, flags]
    omega
  rw [tteVerifySectionSlotPa]
  dsimp only
  rw [if_neg (UInt32.not_le.mpr (index_lt va)), word, base, section_attrsOk (section_pa pa),
    decide_eq_true rfl, decide_eq_true rfl]
  exact ⟨rfl, rfl⟩

theorem expectTranslation_of_section
    (word : l1 (sectionFirstIndex va) = tteSectionWordPa pa descSectionSo) :
    tteExpectTranslation l1 va (tteExpectedSectionPa va pa) = true := by
  have here := section_pa pa
  rw [← word] at here
  rw [tteExpectTranslation, decide_eq_true_iff, translate_section here]
  exact toNat_descJoin pa va

variable {probe : Result}

structure HighVaFits (probe : Result) (h : HighVa) : Prop where
  virtBase : h.virtBase.toNat = probe.loadVmBase.toNat / 2 ^ 20 * 2 ^ 20
  physBase : h.physBase = probe.loadPhysBase &&& descBaseMask
  virtEnd : h.virtEnd = probe.loadVmEnd
  fits : ¬ (h.size = 0 ∨ addOverflowU32 h.virtBase h.size = true)
  last : h.virtBase + h.size = probe.loadVmEnd
  maps : highVaMaps probe h = true

theorem highVa_fits (range : HighVaRange probe) : HighVaFits probe (highVaOf probe) := by
  have virt := UInt32.lt_iff_toNat_lt.mp range.1
  have base := toNat_descBase probe.loadVmBase
  have below := probe.loadVmEnd.toNat_lt
  have under : probe.loadVmBase &&& descBaseMask ≤ probe.loadVmEnd := by
    rw [UInt32.le_iff_toNat_le, base]
    omega
  have size : (probe.loadVmEnd - (probe.loadVmBase &&& descBaseMask)).toNat =
      probe.loadVmEnd.toNat - (probe.loadVmBase &&& descBaseMask).toNat :=
    UInt32.toNat_sub_of_le _ _ under
  have some_ : probe.loadVmEnd - (probe.loadVmBase &&& descBaseMask) ≠ 0 := by
    intro zero
    rw [zero, base, UInt32.toNat_zero] at size
    omega
  rw [highVaOf, if_pos range]
  refine ⟨base, rfl, rfl, ?_, ?_, ?_⟩
  · rw [HighVa.size, not_or, Probe.addOverflowU32_iff, size]
    dsimp only
    exact ⟨some_, by omega⟩
  · rw [HighVa.size, UInt32.add_comm]
    exact UInt32.sub_add_cancel _ _
  · have ordered : sectionFirstIndex (probe.loadVmBase &&& descBaseMask) ≤
        sectionLastIndex probe.loadVmEnd := by
      have one : (probe.loadVmEnd - 1).toNat = probe.loadVmEnd.toNat - 1 :=
        UInt32.toNat_sub_of_le _ _ (by rw [UInt32.le_iff_toNat_le, UInt32.toNat_one]; omega)
      rw [UInt32.le_iff_toNat_le, sectionFirstIndex, sectionLastIndex, toNat_index, toNat_index, base,
        one]
      omega
    have inside : sectionLastIndex probe.loadVmEnd < l1EntryCount := index_lt (probe.loadVmEnd - 1)
    rw [highVaMaps, HighVa.size]
    dsimp only
    rw [decide_eq_true range, decide_eq_true ordered, decide_eq_true inside, decide_eq_true some_]
    rfl

theorem mapHighVa_apply (range : HighVaRange probe) (i : UInt32) :
    mapHighVa (highVaOf probe) i =
      if sectionFirstIndex (highVaOf probe).virtBase ≤ i ∧ i ≤ sectionLastIndex probe.loadVmEnd ∧
          i < l1EntryCount then
        tteSectionWordPa (sectionPa (highVaOf probe).virtBase (highVaOf probe).physBase i) descSectionSo
      else 0 := by
  have fits := highVa_fits range
  rw [mapHighVa, mapSectionRangePa_apply fits.fits, fits.last, noL1]

theorem mapHighVa_word (range : HighVaRange probe) (above : (highVaOf probe).virtBase.toNat ≤ va.toNat)
    (below : va.toNat < probe.loadVmEnd.toNat) :
    mapHighVa (highVaOf probe) (sectionFirstIndex va) =
      tteSectionWordPa (tteSectionPaForVa va (highVaOf probe).virtBase (highVaOf probe).physBase)
        descSectionSo := by
  have one : (probe.loadVmEnd - 1).toNat = probe.loadVmEnd.toNat - 1 :=
    UInt32.toNat_sub_of_le _ _ (by rw [UInt32.le_iff_toNat_le, UInt32.toNat_one]; omega)
  rw [mapHighVa_apply range, if_pos, sectionPa_index]
  rw [UInt32.le_iff_toNat_le, UInt32.le_iff_toNat_le, sectionFirstIndex, sectionFirstIndex,
    sectionLastIndex, toNat_index, toNat_index, toNat_index, one]
  exact ⟨Nat.div_le_div_right above, Nat.div_le_div_right (by omega), index_lt va⟩

theorem highVaChecks_hold (range : HighVaRange probe) :
    (∀ c ∈ highVaReadback (mapHighVa (highVaOf probe)) (highVaOf probe), c.holds = true) ∧
      (∀ c ∈ highVaTranslation (mapHighVa (highVaOf probe)) (highVaOf probe), c.holds = true) ∧
        ∀ word ∈ highVaWords (mapHighVa (highVaOf probe)) (highVaOf probe), ∃ n, IsSection word n := by
  have fits := highVa_fits range
  have virt := UInt32.lt_iff_toNat_lt.mp range.1
  have virtBase := fits.virtBase
  have last : (highVaOf probe).lastVa.toNat = probe.loadVmEnd.toNat - 1 := by
    rw [HighVa.lastVa, fits.virtEnd]
    exact UInt32.toNat_sub_of_le _ _ (by rw [UInt32.le_iff_toNat_le, UInt32.toNat_one]; omega)
  have first := mapHighVa_word range (Nat.le_refl _) (by omega)
  have start : tteSectionPaForVa (highVaOf probe).virtBase (highVaOf probe).virtBase
      (highVaOf probe).physBase = (highVaOf probe).physBase &&& descBaseMask := by
    rw [tteSectionPaForVa, UInt32.sub_self, UInt32.add_zero]
  rw [start, wordPa_base] at first
  have final := @mapHighVa_word (highVaOf probe).lastVa probe range (by omega) (by omega)
  have one := verifySlotPa_of_section first
  have two := verifySlotPa_of_section final
  refine ⟨?_, ?_, ?_⟩
  · rw [highVaReadback]
    simp only [List.forall_mem_cons, List.not_mem_nil, false_imp_iff, implies_true, and_true]
    exact ⟨one.1, two.1⟩
  · rw [highVaTranslation]
    simp only [List.forall_mem_cons, List.not_mem_nil, false_imp_iff, implies_true, and_true]
    exact ⟨expectTranslation_of_section first, expectTranslation_of_section final⟩
  · rw [highVaWords, one.2, two.2]
    simp only [List.forall_mem_cons, List.not_mem_nil, false_imp_iff, implies_true, and_true]
    exact ⟨⟨_, section_pa _⟩, _, section_pa _⟩

/-! ## What the builder accepts -/

theorem index_le {a b : UInt32} (le : a.toNat ≤ b.toNat) : sectionFirstIndex a ≤ sectionFirstIndex b := by
  rw [UInt32.le_iff_toNat_le, sectionFirstIndex, sectionFirstIndex, toNat_index, toNat_index]
  exact Nat.div_le_div_right le

theorem toNat_pred {a b : UInt32} (lt : a < b) : (b - 1).toNat = b.toNat - 1 := by
  have below := UInt32.lt_iff_toNat_lt.mp lt
  apply UInt32.toNat_sub_of_le
  rw [UInt32.le_iff_toNat_le, UInt32.toNat_one]
  omega

theorem sections_ranged (kernel : probe.loadPhysBase < probe.loadPhysEnd) :
    Ranged (sectionsOf probe) := by
  have below := UInt32.lt_iff_toNat_lt.mp kernel
  have last := toNat_pred kernel
  have lowmem : sectionFirstIndex ramPhysBase ≤ sectionLastIndex ramConsoleBase := by decide
  have gic : sectionFirstIndex gicFirst ≤ sectionFirstIndex gicLast := by decide
  rw [sectionsOf]
  refine ⟨?_, ?_, lowmem, index_lt _, index_lt _, gic, index_lt _⟩
  · dsimp only
    rw [if_pos kernel, if_pos kernel]
    exact index_le (by omega)
  · dsimp only
    rw [if_pos kernel]
    exact index_lt _

theorem kernel_covered (kernel : probe.loadPhysBase < probe.loadPhysEnd)
    (above : probe.loadPhysBase.toNat ≤ va.toNat) (below : va.toNat < probe.loadPhysEnd.toNat) :
    Covered (sectionsOf probe) (sectionFirstIndex va) := by
  have last := toNat_pred kernel
  rw [sectionsOf]
  right
  left
  dsimp only
  rw [if_pos kernel, if_pos kernel]
  exact ⟨index_le above, index_le (by omega)⟩

theorem identityTranslation_holds (kernel : probe.loadPhysBase < probe.loadPhysEnd) :
    ∀ c ∈ identityTranslation (mapIdentity (sectionsOf probe)) probe, c.holds = true := by
  have below := UInt32.lt_iff_toNat_lt.mp kernel
  have last := toNat_pred kernel
  have ranged := sections_ranged kernel
  obtain ⟨low, -, -, -, console, gic, -⟩ := covered_ends ranged
  have own : ∀ va, Covered (sectionsOf probe) (sectionFirstIndex va) →
      tteExpectTranslation (mapIdentity (sectionsOf probe)) va va = true :=
    fun va covered => decide_eq_true (translate_identity ranged covered)
  rw [identityTranslation, if_pos kernel]
  simp only [List.cons_append, List.nil_append, List.forall_mem_cons, List.not_mem_nil, false_imp_iff,
    implies_true, and_true]
  exact ⟨own _ (kernel_covered kernel (Nat.le_refl _) below),
    own _ (kernel_covered kernel (by omega) (by omega)), own _ low, own _ console, own _ gic⟩

/-- The rest of the dry-run arena is not written. -/
theorem zeroed_behind (kernel : probe.loadPhysBase < probe.loadPhysEnd) :
    tteL2AndScratchZeroed (mapIdentity (sectionsOf probe)) = true := by
  have ranged := sections_ranged kernel
  rw [tteL2AndScratchZeroed, List.all_eq_true]
  intro i there
  rw [List.mem_range'_1] at there
  have bounds : 4096 ≤ i ∧ i < 4096 + 6144 := there
  rw [decide_eq_true_iff]
  apply mapIdentity_of_not_covered ranged
  intro covered
  have inside := UInt32.lt_iff_toNat_lt.mp (mapIdentity_of_covered ranged covered).2
  rw [UInt32.toNat_ofNat_of_lt' (by change i < 4294967296; omega)] at inside
  have count : l1EntryCount.toNat = 4096 := rfl
  omega

variable {a : Arenas} {preflight : Preflight}

structure Accepts (a : Arenas) (probe : Result) (preflight : Preflight) : Prop where
  layout : ∀ c ∈ layoutChecks a probe preflight (layOut a preflight) (sectionsOf probe), c.holds = true
  range : HighVaRange probe
  policy : ∀ c ∈ policyChecks preflight (layOut a preflight), c.holds = true
  safeTable : SafeTableReady a.safeTable ∧ addOverflowU32 a.safeTable (l1Size + l1Size) = false
  apart : (aliasesImage a probe a.safeTable (sumOrZero a.safeTable (l1Size + l1Size)) ||
    rangesOverlapU32 a.safeTable (sumOrZero a.safeTable (l1Size + l1Size))
      (layOut a preflight).localArenaBase (layOut a preflight).localArenaLimit ||
    rangesOverlapU32 a.safeTable (sumOrZero a.safeTable (l1Size + l1Size))
      (layOut a preflight).workspaceBase (layOut a preflight).workspaceLimit) = false

def mappedChecks (a : Arenas) (probe : Result) (preflight : Preflight) : List Check :=
  let s := sectionsOf probe
  let h := highVaOf probe
  let l1 := mapIdentity s
  let highVa := highVaChecks (highVaReadback (mapHighVa h) h) (highVaTranslation (mapHighVa h) h)
  layoutChecks a probe preflight (layOut a preflight) s ++
    identityChecks (identityReadback l1 s) (identityTranslation l1 probe) (identityWords l1 s) ++
      safetyChecks l1 ++ policyChecks preflight (layOut a preflight) ++ highVa ++
        readbackChecks (identityReadback l1 s ++ highVaReadback (mapHighVa h) h)
          (identityWords l1 s ++ highVaWords (mapHighVa h) h) ++
          safeTableChecks a probe (layOut a preflight) (safeTableKinds a.safeTable highVa)

theorem build_mapped (clear : failureMask (layoutChecks a probe preflight (layOut a preflight)
      (sectionsOf probe)) = 0) (range : HighVaRange probe) :
    (stage90XnuTteDryrunBuild a probe preflight).1 =
        (failureMask (mappedChecks a probe preflight) = 0 &&
          satisfiedMask (mappedChecks a probe preflight) = satRequired) ∧
      (stage90XnuTteDryrunBuild a probe preflight).2.highvaL1 = mapHighVa (highVaOf probe) ∧
        (stage90XnuTteDryrunBuild a probe preflight).2.identityL1 =
          if SafeTableReady a.safeTable then mapIdentity (sectionsOf probe) else noL1 := by
  have mapped : failureMask (layoutChecks a probe preflight (layOut a preflight)
      (sectionsOf probe)) &&& failUnmappable = 0 := by rw [clear, UInt32.zero_and]
  have maps : highVaMaps probe (highVaOf probe) = true := (highVa_fits range).maps
  rw [stage90XnuTteDryrunBuild]
  dsimp only
  simp only [mapped, maps, if_true, and_true]
  rfl

theorem build_clear (ok : (stage90XnuTteDryrunBuild a probe preflight).1 = true) :
    failureMask (layoutChecks a probe preflight (layOut a preflight) (sectionsOf probe)) = 0 ∧
      HighVaRange probe := by
  rw [stage90XnuTteDryrunBuild] at ok
  dsimp only at ok
  rw [Bool.and_eq_true, decide_eq_true_iff] at ok
  simp only [failureMask_append_eq_zero] at ok
  obtain ⟨⟨⟨⟨⟨⟨⟨layout, -⟩, -⟩, -⟩, highVa⟩, -⟩, -⟩, -⟩ := ok
  refine ⟨layout, ?_⟩
  by_contra none_
  have maps : ¬ highVaMaps probe (highVaOf probe) = true := by
    rw [highVaMaps, decide_eq_false none_]
    exact Bool.false_ne_true
  rw [if_neg maps] at highVa
  exact absurd highVa (by decide)

theorem highVa_satisfied (range : HighVaRange probe) :
    (∀ c ∈ highVaChecks (highVaReadback (mapHighVa (highVaOf probe)) (highVaOf probe))
        (highVaTranslation (mapHighVa (highVaOf probe)) (highVaOf probe)), c.holds = true) ∧
      satisfiedMask (highVaChecks (highVaReadback (mapHighVa (highVaOf probe)) (highVaOf probe))
        (highVaTranslation (mapHighVa (highVaOf probe)) (highVaOf probe))) =
          satHighvaMapping ||| satHighvaTranslation := by
  obtain ⟨readback, translation, -⟩ := highVaChecks_hold range
  have verified : satisfiedMask (highVaReadback (mapHighVa (highVaOf probe)) (highVaOf probe)) =
      0x180 := by
    rw [satisfiedMask_of_all readback]
    change orAll [verifyHighvaFirst, verifyHighvaLast] = 0x180
    decide
  have translated : satisfiedMask (highVaTranslation (mapHighVa (highVaOf probe)) (highVaOf probe)) =
      0x60 := by
    rw [satisfiedMask_of_all translation]
    change orAll [translateHighvaFirst, translateHighvaLast] = 0x60
    decide
  rw [highVaChecks, verified, translated, failureMask_of_all readback, failureMask_of_all translation]
  refine ⟨?_, by decide⟩
  simp only [List.forall_mem_cons, List.not_mem_nil, false_imp_iff, implies_true, and_true]
  decide

theorem readbackChecks_hold (range : HighVaRange probe) :
    ∀ c ∈ readbackChecks
      (identityReadback (mapIdentity (sectionsOf probe)) (sectionsOf probe) ++
        highVaReadback (mapHighVa (highVaOf probe)) (highVaOf probe))
      (identityWords (mapIdentity (sectionsOf probe)) (sectionsOf probe) ++
        highVaWords (mapHighVa (highVaOf probe)) (highVaOf probe)), c.holds = true := by
  have ranged := sections_ranged range.2
  obtain ⟨readback, -, words⟩ := highVaChecks_hold range
  obtain ⟨identity, same⟩ := identityReadback_holds ranged
  have all : ∀ c ∈ identityReadback (mapIdentity (sectionsOf probe)) (sectionsOf probe) ++
      highVaReadback (mapHighVa (highVaOf probe)) (highVaOf probe), c.holds = true :=
    List.forall_mem_append.mpr ⟨identity, readback⟩
  have verified : satisfiedMask (identityReadback (mapIdentity (sectionsOf probe)) (sectionsOf probe) ++
      highVaReadback (mapHighVa (highVaOf probe)) (highVaOf probe)) = verifyRequired := by
    rw [satisfiedMask_of_all all]
    change orAll [verifyLowmem, verifyKernel, verifyRamConsole, verifyGic, verifyHighvaFirst,
      verifyHighvaLast] = verifyRequired
    decide
  have seen := @masks_seen (identityWords (mapIdentity (sectionsOf probe)) (sectionsOf probe) ++
      highVaWords (mapHighVa (highVaOf probe)) (highVaOf probe)) (List.append_ne_nil_of_left_ne_nil
        (by rw [same]; exact List.cons_ne_nil _ _) _)
    (List.forall_mem_append.mpr ⟨identityWords_sections ranged, words⟩)
  rw [readbackChecks, verified, failureMask_of_all all, seen.1, seen.2.1]
  simp only [List.forall_mem_cons, List.not_mem_nil, false_imp_iff, implies_true, and_true]
  decide

def layoutFailures : List UInt32 :=
  [failWorkspaceRange, failLocalArenaAlias, failLayoutOverflow, failLayoutOverflow,
    failLayoutOverflow, failWorkspaceRange, failWorkspaceAlignment, failLayoutOverflow,
    failKernelMapping, failRamConsoleMapping, failDeviceMapping, failOverlap, failLocalArenaAlias]

/-- The builder accepts a layout, a range and a policy.  Its readback refuses nothing. -/
theorem build_iff : (stage90XnuTteDryrunBuild a probe preflight).1 = true ↔ Accepts a probe preflight := by
  have satisfied : (mappedChecks a probe preflight).map Check.satisfied =
      [0, 0, 0, 0, 0, satWorkspaceRange, satWorkspaceAlignment, satLayoutFits, satKernelMapping,
        satRamConsoleMapping, satDeviceMapping, satNoOverlap, 0, satDescriptorReadback,
        satDescriptorAttrs, satTranslationKernel, satTranslationLowRam, satTranslationConsole,
        satTranslationDevice, satNoTtbrWrite, satCachesUnchanged, satLocalSimOnly, satXnuBootPolicy,
        satHighvaMapping, satHighvaTranslation, satDescriptorReadback, satDescriptorAttrs,
        satSafeTable, satStageOwnedTables] := rfl
  constructor
  · intro ok
    obtain ⟨clear, range⟩ := build_clear ok
    rw [(build_mapped clear range).1, Bool.and_eq_true, decide_eq_true_iff, mappedChecks] at ok
    simp only [failureMask_append_eq_zero] at ok
    obtain ⟨⟨⟨⟨-, policy⟩, -⟩, -⟩, safe⟩ := ok.1
    have some_ : failSafeTable ≠ 0 := by decide
    have owned : failStageOwnedTables ≠ 0 := by decide
    have safeTable := failureMask_clear safe List.mem_cons_self some_
    have apart := failureMask_clear safe (List.mem_cons_of_mem _ List.mem_cons_self) owned
    rw [Bool.and_eq_true, decide_eq_true_iff, decide_eq_true_iff] at safeTable
    have fits := failureMask_clear safeTable.2 List.mem_cons_self some_
    have ready := failureMask_clear safeTable.2 (List.mem_cons_of_mem _ List.mem_cons_self) some_
    refine ⟨?_, range, ?_, ⟨of_decide_eq_true ready, (Bool.not_eq_true' _).mp fits⟩,
      (Bool.not_eq_true' _).mp apart⟩
    · intro c there
      apply failureMask_clear clear there
      have failures : (layoutChecks a probe preflight (layOut a preflight) (sectionsOf probe)).map
          Check.failure = layoutFailures := rfl
      have bits : c.failure ∈ layoutFailures := failures ▸ List.mem_map_of_mem there
      exact ne_of_mem_of_not_mem bits (by decide)
    · intro c there
      have policy_ : failXnuBootPolicy ≠ 0 := by decide
      apply failureMask_clear policy there
      rw [List.mem_singleton.mp there]
      exact policy_
  · intro accepts
    have range := accepts.range
    have ranged := sections_ranged range.2
    have highVa := highVa_satisfied range
    have clear := failureMask_of_all accepts.layout
    have kinds : ∀ c ∈ safeTableKinds a.safeTable
        (highVaChecks (highVaReadback (mapHighVa (highVaOf probe)) (highVaOf probe))
          (highVaTranslation (mapHighVa (highVaOf probe)) (highVaOf probe))), c.holds = true := by
      rw [safeTableKinds, accepts.safeTable.2, decide_eq_true accepts.safeTable.1, highVa.2]
      simp only [List.forall_mem_cons, List.not_mem_nil, false_imp_iff, implies_true, and_true]
      decide
    have safe : ∀ c ∈ safeTableChecks a probe (layOut a preflight) (safeTableKinds a.safeTable
        (highVaChecks (highVaReadback (mapHighVa (highVaOf probe)) (highVaOf probe))
          (highVaTranslation (mapHighVa (highVaOf probe)) (highVaOf probe)))), c.holds = true := by
      have both : satisfiedMask (safeTableKinds a.safeTable
          (highVaChecks (highVaReadback (mapHighVa (highVaOf probe)) (highVaOf probe))
            (highVaTranslation (mapHighVa (highVaOf probe)) (highVaOf probe)))) = safeKindRequired := by
        rw [satisfiedMask_of_all kinds]
        change orAll [0, safeKindIdentity, safeKindHighva] = safeKindRequired
        decide
      rw [safeTableChecks, both, failureMask_of_all kinds, accepts.apart]
      simp only [List.forall_mem_cons, List.not_mem_nil, false_imp_iff, implies_true, and_true]
      decide
    have safety : ∀ c ∈ safetyChecks (mapIdentity (sectionsOf probe)), c.holds = true := by
      rw [safetyChecks, zeroed_behind range.2]
      simp only [List.forall_mem_cons, List.not_mem_nil, false_imp_iff, implies_true, and_true]
    have identity := identityChecks_hold ranged (identityTranslation_holds range.2) range.2
    have all : ∀ c ∈ mappedChecks a probe preflight, c.holds = true := by
      rw [mappedChecks]
      simp only [List.forall_mem_append]
      exact ⟨⟨⟨⟨⟨⟨accepts.layout, identity⟩, safety⟩, accepts.policy⟩, highVa.1⟩,
        readbackChecks_hold range⟩, safe⟩
    rw [(build_mapped clear range).1, failureMask_of_all all, satisfiedMask_of_all all, satisfied]
    decide

end Stage90.Dryrun

import Stage90.Lib.Overwrite
import Stage90.Mmu.TteDryrun

/-!
# What the table writers write

The slots of both dry-run tables, and what a walk through them answers.
-/

set_option autoImplicit false

namespace Stage90.Dryrun

open Stage90.Lib
open Stage90.Probe (addOverflowU32)

/-! ## Words -/

def IsSection (word : UInt32) (megabyte : Nat) : Prop :=
  word.toNat = megabyte * 2 ^ 20 + descSectionSo.toNat

theorem toNat_descJoin (a b : UInt32) :
    ((a &&& descBaseMask) ||| (b &&& descAttrMask)).toNat =
      a.toNat / 2 ^ 20 * 2 ^ 20 + b.toNat % 2 ^ 20 :=
  @toNat_join a b 20 (by decide)

theorem toNat_descBase (a : UInt32) : (a &&& descBaseMask).toNat = a.toNat / 2 ^ 20 * 2 ^ 20 :=
  @toNat_align a 20 (by decide)

theorem toNat_descAttr (a : UInt32) : (a &&& descAttrMask).toNat = a.toNat % 2 ^ 20 :=
  @toNat_low a 20 (by decide)

theorem toNat_descType (a : UInt32) : (a &&& descTypeMask).toNat = a.toNat % 4 :=
  @toNat_low a 2 (by decide)

theorem toNat_index (a : UInt32) : (a >>> 20).toNat = a.toNat / 2 ^ 20 := by
  rw [UInt32.toNat_shiftRight, Nat.shiftRight_eq_div_pow]
  rfl

theorem toNat_base {i : UInt32} (inside : i < l1EntryCount) : (i <<< 20).toNat = i.toNat * 2 ^ 20 := by
  have below : i.toNat < 4096 := UInt32.lt_iff_toNat_lt.mp inside
  rw [UInt32.toNat_shiftLeft, Nat.shiftLeft_eq]
  change i.toNat * 2 ^ 20 % 2 ^ 32 = _
  omega

theorem index_lt (va : UInt32) : sectionFirstIndex va < l1EntryCount := by
  have below := va.toNat_lt
  have count : l1EntryCount.toNat = 4096 := rfl
  rw [UInt32.lt_iff_toNat_lt, sectionFirstIndex, toNat_index, count]
  omega

theorem section_pa (pa : UInt32) : IsSection (tteSectionWordPa pa descSectionSo) (pa.toNat / 2 ^ 20) :=
  toNat_descJoin pa descSectionSo

theorem section_index {i : UInt32} (inside : i < l1EntryCount) :
    IsSection (tteSectionWord i descSectionSo) i.toNat := by
  have shifted : (i <<< 20) &&& descBaseMask = i <<< 20 := by
    apply UInt32.toNat_inj.mp
    rw [toNat_descBase, toNat_base inside]
    omega
  rw [IsSection, tteSectionWord, ← shifted, toNat_descJoin, toNat_base inside]
  have flags : descSectionSo.toNat % 2 ^ 20 = descSectionSo.toNat := rfl
  rw [flags]
  omega

variable {word : UInt32} {n : Nat}

theorem section_type (here : IsSection word n) : word &&& descTypeMask = descTypeSection := by
  apply UInt32.toNat_inj.mp
  have flags : descSectionSo.toNat = 68610 := rfl
  rw [toNat_descType, here, flags]
  change _ % 4 = 2
  omega

theorem section_attr (here : IsSection word n) : word &&& descAttrMask = expectedAttrMask := by
  apply UInt32.toNat_inj.mp
  have flags : descSectionSo.toNat = 68610 := rfl
  rw [toNat_descAttr, here, flags]
  change _ % 2 ^ 20 = 68610
  omega

theorem section_attrsOk (here : IsSection word n) : tteDescriptorAttrsOk word descSectionSo = true := by
  rw [tteDescriptorAttrsOk, if_neg (not_not.mpr (section_type here)), section_attr here]
  rfl

/-! ## Walks -/

variable {l1 : L1} {va : UInt32}

theorem translate_section (here : IsSection (l1 (sectionFirstIndex va)) n) {pa : UInt32} :
    tteTranslateL1Section l1 va = some pa ↔ pa.toNat = n * 2 ^ 20 + va.toNat % 2 ^ 20 := by
  have walks : tteTranslateL1Section l1 va =
      some ((l1 (sectionFirstIndex va) &&& descBaseMask) ||| (va &&& sectionOffsetMask)) := by
    rw [tteTranslateL1Section]
    dsimp only
    rw [if_neg (UInt32.not_le.mpr (index_lt va)), if_neg (not_not.mpr (section_type here))]
  have flags : descSectionSo.toNat = 68610 := rfl
  have join := toNat_descJoin (l1 (sectionFirstIndex va)) va
  rw [here, flags] at join
  have base : (n * 2 ^ 20 + 68610) / 2 ^ 20 * 2 ^ 20 = n * 2 ^ 20 := by omega
  rw [base] at join
  rw [walks, Option.some_inj, ← join, ← UInt32.toNat_inj]
  exact eq_comm

/-! ## Ranges -/

theorem mem_sectionIndices {first last i : UInt32} :
    i ∈ sectionIndices first last ↔ first ≤ i ∧ i ≤ last ∧ i < l1EntryCount := by
  have count : l1EntryCount.toNat = 4096 := rfl
  have small := last.toNat_lt
  rw [sectionIndices, List.mem_map, UInt32.le_iff_toNat_le, UInt32.le_iff_toNat_le,
    UInt32.lt_iff_toNat_lt, count]
  constructor
  · intro ⟨k, there, same⟩
    rw [List.mem_range'_1] at there
    rw [← same, UInt32.toNat_ofNat_of_lt' (by change k < 4294967296; omega)]
    omega
  · intro inside
    refine ⟨i.toNat, ?_, UInt32.ofNat_toNat⟩
    rw [List.mem_range'_1]
    omega

theorem foldl_slots {slots : List UInt32} {step : L1 → UInt32 → L1} {word : UInt32 → UInt32}
    (writes : ∀ l1, ∀ i ∈ slots, step l1 i = Function.update l1 i (word i)) (i : UInt32) :
    slots.foldl step l1 i = if i ∈ slots then word i else l1 i := by
  rw [@foldl_writes _ _ _ _ id word step slots writes]
  by_cases there : i ∈ slots
  · rw [if_pos there]
    apply overwriteAll_eq
    · intro s _ same
      exact congrArg word same.symm
    · exact .inr ⟨i, there, rfl⟩
  · rw [if_neg there]
    apply overwriteAll_of_not_covers
    intro s among same
    exact there (same ▸ among)

theorem sectionWord_eq (i : UInt32) :
    (i <<< 20) ||| descSectionSo = tteSectionWord i descSectionSo := rfl

theorem mapSection_apply {index : UInt32} (inside : index < l1EntryCount) (i : UInt32) :
    tteMapSection l1 index descSectionSo i =
      if i = index then tteSectionWord index descSectionSo else l1 i := by
  rw [tteMapSection, if_pos inside, Function.update_apply, sectionWord_eq]

theorem mapSectionRange_apply (first last i : UInt32) :
    tteMapSectionRange l1 first last descSectionSo i =
      if first ≤ i ∧ i ≤ last ∧ i < l1EntryCount then tteSectionWord i descSectionSo else l1 i := by
  rw [tteMapSectionRange, @foldl_slots l1 _ _ (fun i => tteSectionWord i descSectionSo)]
  · simp only [mem_sectionIndices]
  · intro l1 i there
    rw [tteMapSection, if_pos (mem_sectionIndices.mp there).2.2, sectionWord_eq]

def sectionPa (vaBase paBase i : UInt32) : UInt32 :=
  (paBase &&& descBaseMask) + ((i <<< 20) - (vaBase &&& descBaseMask))

theorem mapSectionPa_eq {i : UInt32} (inside : i < l1EntryCount) (pa : UInt32) :
    tteMapSectionPa l1 (i <<< 20) pa descSectionSo =
      Function.update l1 i (tteSectionWordPa pa descSectionSo) := by
  have index : sectionFirstIndex (i <<< 20) = i := by
    apply UInt32.toNat_inj.mp
    rw [sectionFirstIndex, toNat_index, toNat_base inside]
    omega
  rw [tteMapSectionPa, index, if_pos inside]

theorem mapSectionRangePa_apply {vaBase paBase size : UInt32}
    (fits : ¬ (size = 0 ∨ addOverflowU32 vaBase size = true)) (i : UInt32) :
    tteMapSectionRangePa l1 vaBase paBase size descSectionSo i =
      if sectionFirstIndex vaBase ≤ i ∧ i ≤ sectionLastIndex (vaBase + size) ∧ i < l1EntryCount then
        tteSectionWordPa (sectionPa vaBase paBase i) descSectionSo
      else l1 i := by
  rw [tteMapSectionRangePa, if_neg fits]
  rw [@foldl_slots l1 _ _ (fun i => tteSectionWordPa (sectionPa vaBase paBase i) descSectionSo)]
  · simp only [mem_sectionIndices]
  · intro l1 i there
    exact mapSectionPa_eq (mem_sectionIndices.mp there).2.2 _

/-! ## The identity table -/

structure Ranged (s : Sections) : Prop where
  kernel : s.kernelFirst ≤ s.kernelLast
  kernelLast : s.kernelLast < l1EntryCount
  lowmem : s.lowmemFirst ≤ s.lowmemLast
  lowmemLast : s.lowmemLast < l1EntryCount
  ramConsole : s.ramConsole < l1EntryCount
  gic : s.gicFirst ≤ s.gicLast
  gicLast : s.gicLast < l1EntryCount

def Covered (s : Sections) (i : UInt32) : Prop :=
  (s.lowmemFirst ≤ i ∧ i ≤ s.lowmemLast) ∨ (s.kernelFirst ≤ i ∧ i ≤ s.kernelLast) ∨
    i = s.ramConsole ∨ (s.gicFirst ≤ i ∧ i ≤ s.gicLast)

variable {s : Sections}

theorem mapIdentity_of_covered (ranged : Ranged s) {i : UInt32} (covered : Covered s i) :
    mapIdentity s i = tteSectionWord i descSectionSo ∧ i < l1EntryCount := by
  have inside : i < l1EntryCount := by
    rcases covered with lowmem | kernel | console | gic
    · exact UInt32.lt_of_le_of_lt lowmem.2 ranged.lowmemLast
    · exact UInt32.lt_of_le_of_lt kernel.2 ranged.kernelLast
    · exact console ▸ ranged.ramConsole
    · exact UInt32.lt_of_le_of_lt gic.2 ranged.gicLast
  refine ⟨?_, inside⟩
  rw [mapIdentity]
  rw [mapSectionRange_apply]
  by_cases gic : s.gicFirst ≤ i ∧ i ≤ s.gicLast
  · rw [if_pos ⟨gic.1, gic.2, inside⟩]
  · rw [if_neg fun both => gic ⟨both.1, both.2.1⟩, mapSection_apply ranged.ramConsole]
    by_cases console : i = s.ramConsole
    · rw [if_pos console, console]
    · rw [if_neg console, mapSectionRange_apply]
      by_cases kernel : s.kernelFirst ≤ i ∧ i ≤ s.kernelLast
      · rw [if_pos ⟨kernel.1, kernel.2, inside⟩]
      · rw [if_neg fun both => kernel ⟨both.1, both.2.1⟩, mapSectionRange_apply]
        rcases covered with lowmem | other | other | other
        · rw [if_pos ⟨lowmem.1, lowmem.2, inside⟩]
        · exact absurd other kernel
        · exact absurd other console
        · exact absurd other gic

theorem mapIdentity_of_not_covered (ranged : Ranged s) {i : UInt32} (spared : ¬ Covered s i) :
    mapIdentity s i = 0 := by
  rw [Covered, not_or, not_or, not_or] at spared
  rw [mapIdentity]
  rw [mapSectionRange_apply, if_neg fun both => spared.2.2.2 ⟨both.1, both.2.1⟩,
    mapSection_apply ranged.ramConsole, if_neg spared.2.2.1, mapSectionRange_apply,
    if_neg fun both => spared.2.1 ⟨both.1, both.2.1⟩, mapSectionRange_apply,
    if_neg fun both => spared.1 ⟨both.1, both.2.1⟩, noL1]

theorem translate_identity (ranged : Ranged s) (covered : Covered s (sectionFirstIndex va)) :
    tteTranslateL1Section (mapIdentity s) va = some va := by
  obtain ⟨word, inside⟩ := mapIdentity_of_covered ranged covered
  have here := section_index inside
  rw [← word] at here
  rw [translate_section here, sectionFirstIndex, toNat_index]
  omega

/-! ## The readback -/

theorem verifySlot_of_section {index : UInt32} (inside : index < l1EntryCount)
    (word : l1 index = tteSectionWord index descSectionSo) :
    (tteVerifySectionSlot l1 index descSectionSo).1 = true ∧
      (tteVerifySectionSlot l1 index descSectionSo).2 = l1 index := by
  have attrs := section_attrsOk (section_index inside)
  rw [tteVerifySectionSlot, if_neg (UInt32.not_le.mpr inside), word, attrs]
  exact ⟨by rw [decide_eq_true rfl]; rfl, rfl⟩

theorem verifyRange_of_sections {first last : UInt32} (range : first ≤ last)
    (inside : last < l1EntryCount)
    (words : ∀ i, first ≤ i → i ≤ last → l1 i = tteSectionWord i descSectionSo) :
    (tteVerifySectionRange l1 first last descSectionSo).1 = true ∧
      (tteVerifySectionRange l1 first last descSectionSo).2 = [l1 first, l1 last] := by
  have slot : ∀ i, first ≤ i → i ≤ last → _ := fun i above below =>
    verifySlot_of_section (UInt32.lt_of_le_of_lt below inside) (words i above below)
  rw [tteVerifySectionRange,
    if_neg (not_or.mpr ⟨UInt32.not_lt.mpr range, UInt32.not_le.mpr inside⟩),
    (slot first (UInt32.le_refl _) range).2, (slot last range (UInt32.le_refl _)).2]
  refine ⟨?_, rfl⟩
  rw [List.all_eq_true]
  intro i there
  obtain ⟨above, below, _⟩ := mem_sectionIndices.mp there
  exact (slot i above below).1

end Stage90.Dryrun

import Stage90.Lib.Overwrite
import Stage90.Mmu.FullPmap

/-!
# What the phases write

Every call of `map_l1_section_desc` as a slot, a megabyte and a descriptor, and the windows of
phase 2.
-/

set_option autoImplicit false

namespace Stage90.FullPmap

open Stage90.Lib

/-! ## The image's megabytes -/

def megabytes (imageEnd : UInt32) : Nat := (imageEnd.toNat + 2 ^ 20 - 1) / 2 ^ 20

def megabyte (k : Nat) : UInt32 := UInt32.ofNat (k * 2 ^ 20)

theorem toNat_megabyte {k : Nat} (small : k < 4096) : (megabyte k).toNat = k * 2 ^ 20 :=
  UInt32.toNat_ofNat_of_lt' (by change k * 2 ^ 20 < 2 ^ 32; omega)

theorem megabyte_zero : megabyte 0 = 0 := rfl

theorem megabyte_succ (k : Nat) : megabyte k + l1SectionSize = megabyte (k + 1) := by
  have size : l1SectionSize.toNat = 2 ^ 20 := rfl
  apply UInt32.toNat_inj.mp
  rw [UInt32.toNat_add, megabyte, megabyte, UInt32.toNat_ofNat', UInt32.toNat_ofNat', size]
  omega

theorem ofNat_mul_section (k : Nat) : UInt32.ofNat k * l1SectionSize = megabyte k := by
  have size : l1SectionSize = UInt32.ofNat (2 ^ 20) := rfl
  rw [size, ← UInt32.ofNat_mul, megabyte]

theorem sectionOffsets_eq {imageEnd : UInt32} (ends : imageEnd.toNat ≤ 0xfff00000) {fuel k : Nat}
    (enough : megabytes imageEnd < k + fuel) (within : k ≤ megabytes imageEnd) :
    sectionOffsets fuel (megabyte k) imageEnd =
      some ((List.range' k (megabytes imageEnd - k)).map megabyte) := by
  have count : megabytes imageEnd ≤ 4095 := by
    rw [megabytes]
    omega
  induction fuel generalizing k with
  | zero => omega
  | succ fuel ih =>
      have start := @toNat_megabyte k (by omega)
      rw [sectionOffsets]
      by_cases inside : k < megabytes imageEnd
      · have less : megabyte k < imageEnd := by
          rw [UInt32.lt_iff_toNat_lt, start]
          rw [megabytes] at inside
          omega
        have rest : megabytes imageEnd - k = (megabytes imageEnd - (k + 1)) + 1 := by omega
        rw [if_pos less, megabyte_succ, ih (by omega) (by omega), rest, List.range'_succ,
          Option.map_some, List.map_cons]
      · have full : ¬ megabyte k < imageEnd := by
          rw [UInt32.lt_iff_toNat_lt, start]
          rw [megabytes] at inside within
          omega
        have none_ : megabytes imageEnd - k = 0 := by omega
        rw [if_neg full, none_]
        rfl

theorem imageOffsets_eq {imageEnd : UInt32} (ends : imageEnd.toNat ≤ 0xfff00000) :
    imageOffsets imageEnd = some ((List.range (megabytes imageEnd)).map megabyte) := by
  have count : megabytes imageEnd ≤ 4095 := by
    rw [megabytes]
    omega
  have all := @sectionOffsets_eq imageEnd ends 4097 0 (by omega) (Nat.zero_le _)
  rw [Nat.sub_zero, ← List.range_eq_range', megabyte_zero] at all
  rw [imageOffsets, all]

/-- The loop over any other image does not end. -/
theorem imageOffsets_none {imageEnd : UInt32} (ends : 0xfff00000 < imageEnd.toNat) :
    imageOffsets imageEnd = none := by
  have loops : ∀ fuel k, sectionOffsets fuel (megabyte k) imageEnd = none := by
    intro fuel
    induction fuel with
    | zero => exact fun k => rfl
    | succ fuel ih =>
        intro k
        have less : megabyte k < imageEnd := by
          rw [UInt32.lt_iff_toNat_lt, megabyte, UInt32.toNat_ofNat']
          change k * 2 ^ 20 % 2 ^ 32 < _
          omega
        rw [sectionOffsets, if_pos less, megabyte_succ, ih, Option.map_none]
  have all := loops 4097 0
  rw [megabyte_zero] at all
  rw [imageOffsets, all]

theorem imageWindows_eq {imageEnd : UInt32} (ends : imageEnd.toNat ≤ 0xfff00000) :
    (imageWindows imageEnd).toNat = max (megabytes imageEnd) 1 := by
  have size : l1SectionSize.toNat = 2 ^ 20 := rfl
  have rounded : ((imageEnd + l1SectionSize - 1) / l1SectionSize).toNat = megabytes imageEnd := by
    have sum : imageEnd + l1SectionSize - 1 = imageEnd + 0xfffff := by
      rw [UInt32.sub_eq_add_neg, UInt32.add_assoc]
      rfl
    rw [sum, UInt32.toNat_div, UInt32.toNat_add, size, megabytes]
    change (imageEnd.toNat + 1048575) % 2 ^ 32 / 2 ^ 20 = _
    omega
  rw [imageWindows]
  by_cases zero : (imageEnd + l1SectionSize - 1) / l1SectionSize = 0
  · rw [zero, UInt32.toNat_zero] at rounded
    rw [if_pos zero, ← rounded]
    rfl
  · have some_ : ((imageEnd + l1SectionSize - 1) / l1SectionSize).toNat ≠ 0 := fun none_ =>
      zero (UInt32.toNat_inj.mp none_)
    rw [rounded] at some_
    rw [if_neg zero, rounded]
    omega

/-! ## Section calls -/

theorem toNat_l1Index (va : UInt32) : (l1Index va).toNat = va.toNat / 2 ^ 20 := by
  have field := @toNat_field va 20 0xfff 12 (by decide) (by decide)
  have below := va.toNat_lt
  rw [l1Index, field]
  change va.toNat / 2 ^ 20 % 2 ^ 12 = _
  omega

structure Writes (c : SectionCall) (slot megabyte : Nat) (desc : UInt32) : Prop where
  slot : c.va.toNat / 2 ^ 20 = slot
  megabyte : c.pa.toNat / 2 ^ 20 = megabyte
  desc : c.desc = desc

def IsSection (word : UInt32) (megabyte : Nat) (desc : UInt32) : Prop :=
  word.toNat = megabyte * 2 ^ 20 + desc.toNat

def SectionDesc (desc : UInt32) : Prop :=
  desc = descSectionSo ∨ desc = descSectionNormalNc ∨ desc = descSectionNormalWb

theorem sectionDesc_dram (mode : AttrMode) : SectionDesc mode.sectionDram := by
  cases mode with
  | soOnly => exact .inl rfl
  | normalNc => exact .inr (.inl rfl)
  | normalWb => exact .inr (.inr rfl)

theorem sectionDesc_lt {desc : UInt32} (known : SectionDesc desc) :
    desc.toNat < 2 ^ 18 ∧ desc.toNat % 4 = 2 := by
  rcases known with rfl | rfl | rfl
  · decide
  · decide
  · decide

theorem section_word {pa desc : UInt32} (known : SectionDesc desc) :
    IsSection ((pa &&& l1SectionMask) ||| desc) (pa.toNat / 2 ^ 20) desc := by
  have small := (sectionDesc_lt known).1
  exact @toNat_join_of_lt pa desc 20 (by decide) (Nat.lt_of_lt_of_le small (by decide))

/-- A slot that a list of calls writes with one descriptor only, or else had it before. -/
theorem mapSections_slot {l1 : UInt32 → UInt32} {calls : List SectionCall} {i : UInt32} {p : Nat}
    {d : UInt32} (known : SectionDesc d)
    (agree : ∀ c ∈ calls, c.va.toNat / 2 ^ 20 = i.toNat → Writes c i.toNat p d)
    (before : IsSection (l1 i) p d ∨ ∃ c ∈ calls, c.va.toNat / 2 ^ 20 = i.toNat) :
    IsSection (calls.foldl mapL1SectionDesc l1 i) p d := by
  have folds := @foldl_writes UInt32 SectionCall UInt32 _ (fun c => l1Index c.va)
    (fun c => (c.pa &&& l1SectionMask) ||| c.desc) mapL1SectionDesc calls (fun _ _ _ => rfl) l1
  have covers : ∀ c : SectionCall, i = l1Index c.va ↔ c.va.toNat / 2 ^ 20 = i.toNat := by
    intro c
    rw [← UInt32.toNat_inj, toNat_l1Index]
    exact eq_comm
  have word : ∀ c ∈ calls, c.va.toNat / 2 ^ 20 = i.toNat →
      IsSection ((c.pa &&& l1SectionMask) ||| c.desc) p d := by
    intro c there same
    have writes := agree c there same
    rw [← writes.megabyte, writes.desc]
    exact section_word known
  rw [folds]
  by_cases covered : ∃ c ∈ calls, i = l1Index c.va
  · obtain ⟨c, there, same, last⟩ := overwriteAll_of_covers (fun (c : SectionCall) a => a = l1Index c.va)
      (fun c _ => (c.pa &&& l1SectionMask) ||| c.desc) covered
    rw [last]
    exact word c there ((covers c).mp same)
  · rw [overwriteAll_of_not_covers]
    · refine before.resolve_right fun some_ => covered ?_
      obtain ⟨c, there, same⟩ := some_
      exact ⟨c, there, (covers c).mpr same⟩
    · intro c there same
      exact covered ⟨c, there, same⟩

theorem mapSections_spared {l1 : UInt32 → UInt32} {calls : List SectionCall} {i : UInt32}
    (spared : ∀ c ∈ calls, c.va.toNat / 2 ^ 20 ≠ i.toNat) :
    calls.foldl mapL1SectionDesc l1 i = l1 i := by
  have folds := @foldl_writes UInt32 SectionCall UInt32 _ (fun c => l1Index c.va)
    (fun c => (c.pa &&& l1SectionMask) ||| c.desc) mapL1SectionDesc calls (fun _ _ _ => rfl) l1
  rw [folds]
  apply overwriteAll_of_not_covers
  intro c there same
  apply spared c there
  rw [same, toNat_l1Index]

/-! ## The windows -/

def IsPage (mode : AttrMode) (word : UInt32) (page : Nat) : Prop :=
  word.toNat = page * 2 ^ 12 + mode.pageDram.toNat

theorem pageDram_lt (mode : AttrMode) :
    mode.pageDram.toNat < 2 ^ 12 ∧ mode.pageDram.toNat % 4 = 2 := by
  cases mode with
  | soOnly => decide
  | normalNc => decide
  | normalWb => decide

theorem toNat_l2Index (va : UInt32) : (l2Index va).toNat = va.toNat / 2 ^ 12 % 2 ^ 8 :=
  @toNat_field va 12 0xff 8 (by decide) (by decide)

theorem toNat_pageOffset {w page : Nat} (window : w < 128) (small : page < 256) :
    (megabyte w + UInt32.ofNat page * l2PageSize).toNat = (256 * w + page) * 2 ^ 12 := by
  have size : l2PageSize.toNat = 2 ^ 12 := rfl
  rw [UInt32.toNat_add, UInt32.toNat_mul, toNat_megabyte (by omega), size, UInt32.toNat_ofNat']
  omega

theorem mapWindow_slot (mode : AttrMode) (pool : UInt32 → UInt32) {l2 : UInt32} {w : Nat}
    (window : w < 128) (first : l2.toNat = 256 * w) (j : UInt32) :
    (256 * w ≤ j.toNat ∧ j.toNat < 256 * (w + 1) →
        IsPage mode (mapWindow mode pool l2 (megabyte w) j) j.toNat) ∧
      (¬ (256 * w ≤ j.toNat ∧ j.toNat < 256 * (w + 1)) →
        mapWindow mode pool l2 (megabyte w) j = pool j) := by
  let off (page : Nat) : UInt32 := megabyte w + UInt32.ofNat page * l2PageSize
  have slot : ∀ page < 256, (l2 + l2Index (virtBase + off page)).toNat = 256 * w + page := by
    intro page small
    have base : virtBase.toNat = 2 ^ 31 := rfl
    have offset := toNat_pageOffset window small
    have high : (virtBase + off page).toNat = 2 ^ 31 + (256 * w + page) * 2 ^ 12 := by
      rw [UInt32.toNat_add, base, offset]
      omega
    rw [UInt32.toNat_add, toNat_l2Index, first, high]
    omega
  have word : ∀ page < 256,
      IsPage mode ((off page &&& l2PageMask) ||| mode.pageDram) (256 * w + page) := by
    intro page small
    have join := @toNat_join_of_lt (off page) mode.pageDram 12 (by decide) (pageDram_lt mode).1
    refine join.trans ?_
    rw [toNat_pageOffset window small]
    change (256 * w + page) * 2 ^ 12 / 2 ^ 12 * 2 ^ 12 + _ = _
    omega
  have folds := @foldl_writes UInt32 Nat UInt32 _ (fun page => l2 + l2Index (virtBase + off page))
    (fun page => (off page &&& l2PageMask) ||| mode.pageDram)
    (fun pool page => mapL2Page mode pool l2 (virtBase + off page) (off page)) (List.range 256)
    (fun _ _ _ => rfl) pool
  rw [mapWindow, folds]
  constructor
  · intro inside
    have here : j = l2 + l2Index (virtBase + off (j.toNat - 256 * w)) := by
      apply UInt32.toNat_inj.mp
      rw [slot _ (by omega)]
      omega
    have covered : ∃ page ∈ List.range 256, j = l2 + l2Index (virtBase + off page) :=
      ⟨j.toNat - 256 * w, List.mem_range.mpr (by omega), here⟩
    obtain ⟨page, there, same, last⟩ := overwriteAll_of_covers
      (fun (page : Nat) a => a = l2 + l2Index (virtBase + off page))
      (fun page _ => (off page &&& l2PageMask) ||| mode.pageDram) covered
    have small := List.mem_range.mp there
    rw [last, same, slot page small]
    exact word page small
  · intro outside
    apply overwriteAll_of_not_covers
    intro page there same
    apply outside
    have small := List.mem_range.mp there
    rw [same, slot page small]
    omega

structure PoolPlaced (b : Build) : Prop where
  aligned : b.l2Pool.toNat % 2 ^ 10 = 0
  room : b.l2Pool.toNat + 2 ^ 17 ≤ 2 ^ 32

def IsTable (b : Build) (word : UInt32) (table : Nat) : Prop :=
  word.toNat = b.l2Pool.toNat + table * 2 ^ 10 + 1

/-- The windows from one to another are mapped, and nothing else has changed. -/
structure Mapped (b : Build) (first last : Nat) (t t' : Tables) : Prop where
  tables : ∀ i, 0x800 + first ≤ i.toNat → i.toNat < 0x800 + last → IsTable b (t'.l1 i) (i.toNat - 0x800)
  spared : ∀ i, ¬ (0x800 + first ≤ i.toNat ∧ i.toNat < 0x800 + last) → t'.l1 i = t.l1 i
  pages : ∀ j, 256 * first ≤ j.toNat → j.toNat < 256 * last → IsPage b.mode (t'.pool j) j.toNat
  before : ∀ j, j.toNat < 256 * first → t'.pool j = t.pool j
  allocated : t'.allocated = UInt32.ofNat last

theorem allocL2Table_eq {t : Tables} {w : Nat} (window : w < 128)
    (taken : t.allocated = UInt32.ofNat w) :
    ∃ l2 pool, allocL2Table t = some (l2, ⟨t.l1, pool, UInt32.ofNat (w + 1)⟩) ∧
      l2.toNat = 256 * w ∧ ∀ j, j.toNat < 256 * w → pool j = t.pool j := by
  have count : t.allocated.toNat = w := by
    rw [taken]
    exact UInt32.toNat_ofNat_of_lt' (by change w < 2 ^ 32; omega)
  have entries : l2EntryCount.toNat = 256 := rfl
  have room : ¬ l2TableCount ≤ t.allocated := by
    rw [UInt32.le_iff_toNat_le, count]
    exact Nat.not_le.mpr window
  have first : (t.allocated * l2EntryCount).toNat = 256 * w := by
    rw [UInt32.toNat_mul, count, entries]
    omega
  have next : t.allocated + 1 = UInt32.ofNat (w + 1) := by
    rw [taken, UInt32.ofNat_add]
    rfl
  refine ⟨t.allocated * l2EntryCount, (List.range 256).foldl (fun pool i =>
    Function.update pool (t.allocated * l2EntryCount + UInt32.ofNat i) 0) t.pool, ?_, first, ?_⟩
  · rw [allocL2Table, if_neg room, next]
  · intro j below
    have folds := @foldl_writes UInt32 Nat UInt32 _
      (fun i => t.allocated * l2EntryCount + UInt32.ofNat i) (fun _ => 0)
      (fun pool i => Function.update pool (t.allocated * l2EntryCount + UInt32.ofNat i) 0)
      (List.range 256) (fun _ _ _ => rfl) t.pool
    rw [folds]
    apply overwriteAll_of_not_covers
    intro i there same
    have small := List.mem_range.mp there
    rw [same, UInt32.toNat_add, first, UInt32.toNat_ofNat'] at below
    omega

theorem allocL2Table_none {t : Tables} (taken : t.allocated = l2TableCount) :
    allocL2Table t = none := by
  rw [allocL2Table, if_pos (taken ▸ UInt32.le_refl _)]

theorem window_mapped {b : Build} (placed : PoolPlaced b) {t : Tables} {w : Nat} (window : w < 128)
    (taken : t.allocated = UInt32.ofNat w) :
    ∃ l2 t', allocL2Table t = some (l2, t') ∧
      Mapped b w (w + 1) t
        { mapL1PageTable t' (virtBase + megabyte w) (b.l2Address l2) with
          pool := mapWindow b.mode t'.pool l2 (megabyte w) } := by
  obtain ⟨l2, pool, allocates, first, before⟩ := allocL2Table_eq window taken
  have aligned := placed.aligned
  have room := placed.room
  have virt : (virtBase + megabyte w).toNat / 2 ^ 20 = 0x800 + w := by
    have base : virtBase.toNat = 2 ^ 31 := rfl
    rw [UInt32.toNat_add, base, toNat_megabyte (by omega)]
    omega
  have slot : ∀ i : UInt32, i = l1Index (virtBase + megabyte w) ↔ i.toNat = 0x800 + w := by
    intro i
    rw [← UInt32.toNat_inj, toNat_l1Index, virt]
  have address : (b.l2Address l2).toNat = b.l2Pool.toNat + w * 2 ^ 10 := by
    have four : (4 : UInt32).toNat = 4 := rfl
    rw [Build.l2Address, UInt32.toNat_add, UInt32.toNat_mul, first, four]
    omega
  have entry : IsTable b ((b.l2Address l2 &&& l1TableMask) ||| l1DescPageTable) w := by
    have one : l1DescPageTable.toNat = 1 := rfl
    have join := @toNat_join_of_lt (b.l2Address l2) l1DescPageTable 10 (by decide) (by decide)
    refine join.trans ?_
    rw [address, one]
    change (b.l2Pool.toNat + w * 2 ^ 10) / 2 ^ 10 * 2 ^ 10 + 1 = _
    omega
  have pages := fun j => mapWindow_slot b.mode pool window first j
  refine ⟨l2, _, allocates, ?_, ?_, ?_, ?_, rfl⟩
  · intro i above below
    have here : i.toNat = 0x800 + w := by omega
    have table : i.toNat - 0x800 = w := by omega
    dsimp only [mapL1PageTable]
    rw [Function.update_apply, if_pos ((slot i).mpr here), table]
    exact entry
  · intro i outside
    dsimp only [mapL1PageTable]
    rw [Function.update_apply, if_neg]
    intro same
    have here := (slot i).mp same
    omega
  · intro j above below
    dsimp only
    exact (pages j).1 ⟨above, below⟩
  · intro j below
    dsimp only
    rw [(pages j).2 (by omega)]
    exact before j below

/-- Phase 2 maps all its windows, as long as the pool lasts. -/
theorem phase2_mapped {b : Build} (placed : PoolPlaced b) {rest w : Nat} {t : Tables}
    (fits : w + rest ≤ 128) (taken : t.allocated = UInt32.ofNat w) :
    ∃ t', phase2 b rest (UInt32.ofNat w) t = (true, t') ∧ Mapped b w (w + rest) t t' := by
  induction rest generalizing w t with
  | zero =>
      refine ⟨t, rfl, ?_, fun i _ => rfl, ?_, fun j _ => rfl, taken⟩
      · intro i above below
        omega
      · intro j above below
        omega
  | succ rest ih =>
      obtain ⟨l2, t₁, allocates, one⟩ := window_mapped placed (show w < 128 by omega) taken
      have base : UInt32.ofNat w * l1SectionSize = megabyte w := ofNat_mul_section w
      have next : UInt32.ofNat w + 1 = UInt32.ofNat (w + 1) := (UInt32.ofNat_add w 1).symm
      obtain ⟨t', runs, others⟩ := ih (show w + 1 + rest ≤ 128 by omega) one.allocated
      refine ⟨t', ?_, ?_⟩
      · rw [phase2]
        dsimp only
        rw [allocates, base, next]
        exact runs
      · have total : w + 1 + rest = w + (rest + 1) := by omega
        rw [total] at others
        refine ⟨?_, ?_, ?_, ?_, others.allocated⟩
        · intro i above below
          by_cases first : i.toNat = 0x800 + w
          · rw [others.spared i (by omega)]
            exact one.tables i above (by omega)
          · exact others.tables i (by omega) below
        · intro i outside
          rw [others.spared i (by omega), one.spared i (by omega)]
        · intro j above below
          by_cases first : j.toNat < 256 * (w + 1)
          · rw [others.before j first]
            exact one.pages j above first
          · exact others.pages j (by omega) below
        · intro j below
          rw [others.before j (by omega), one.before j below]

/-- With more windows than tables, the pool does not last. -/
theorem phase2_exhausts {b : Build} {rest w : Nat} {t : Tables} (within : w ≤ 128)
    (many : 128 < w + rest) (taken : t.allocated = UInt32.ofNat w) :
    (phase2 b rest (UInt32.ofNat w) t).1 = false := by
  induction rest generalizing w t with
  | zero => omega
  | succ rest ih =>
      rw [phase2]
      dsimp only
      by_cases last : w = 128
      · rw [allocL2Table_none (taken.trans (congrArg UInt32.ofNat last))]
      · obtain ⟨l2, pool, allocates, -⟩ := allocL2Table_eq (show w < 128 by omega) taken
        have next : UInt32.ofNat w + 1 = UInt32.ofNat (w + 1) := (UInt32.ofNat_add w 1).symm
        rw [allocates, next]
        exact ih (by omega) (by omega) rfl

end Stage90.FullPmap

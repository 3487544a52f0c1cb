import Stage90.Lib.Masks
import Mathlib.Logic.Function.Basic

/-!
# The page-granular window

`stage90_pmap_page_dryrun_populate_window` and `stage90_pmap_page_dryrun_translate`: four coarse
tables in one page of second-level entries, and the software walk that reads them back.
-/

set_option autoImplicit false

namespace Stage90.PageDryrun

open Stage90.Lib

def pageSize : UInt32 := 0x00001000
def pageOffsetMask : UInt32 := 0x00000fff
def l1EntryCount : UInt32 := 4096
def l1TableType : UInt32 := 0x00000001
def l1TypeMask : UInt32 := 0x00000003
def l1TableMask : UInt32 := 0xfffffc00
def l2CoarseBytes : UInt32 := 0x00000400
def l2TablesPerPage : Nat := 4
def l2PtesPerTable : UInt32 := 256
def l2PteCount : Nat := 1024
def l2IndexMask : UInt32 := 0x000ff000
def l2IndexShift : UInt32 := 12
def pteTypeMask : UInt32 := 0x00000002
def pteTypeSmall : UInt32 := 0x00000002
def ptePageMask : UInt32 := 0xfffff000
def pteAttrDefault : UInt32 := 0x00000412

/-! ## The code -/

def l1Index (va : UInt32) : UInt32 := va >>> 20

def l2Index (va : UInt32) : UInt32 := (va &&& l2IndexMask) >>> l2IndexShift

def makeL1TableDescriptor (l2Base : UInt32) : UInt32 := (l2Base &&& l1TableMask) ||| l1TableType

def makePte (pa : UInt32) : UInt32 := (pa &&& ptePageMask) ||| pteAttrDefault

/-- The local first-level array, and the words of memory with the local second-level page. -/
structure Tables where
  l1 : Nat → UInt32
  mem : Nat → UInt32

/-- The slots from `i` on, `n` of them.  A slot past the table ends the loop where it is. -/
def populateSlots (l2 first : UInt32) :
    Nat → UInt32 → (Nat → UInt32) → Bool × (Nat → UInt32)
  | 0, _, l1 => (true, l1)
  | n + 1, i, l1 =>
      let l1Index := first + i
      let l2Base := l2 + 4 * (i * l2PtesPerTable)
      if l1EntryCount ≤ l1Index then (false, l1)
      else
        populateSlots l2 first n (i + 1)
          (Function.update l1 l1Index.toNat (makeL1TableDescriptor l2Base))

/-- The entries below `n`, and how many were written. -/
def populatePtes (l2 physBase : UInt32) (mem : Nat → UInt32) (n : Nat) : UInt32 × (Nat → UInt32) :=
  (List.range n).foldl
    (fun written i =>
      let pa := physBase + UInt32.ofNat i * pageSize
      (written.1 + 1, Function.update written.2 (l2.toNat + 4 * i) (makePte pa)))
    (0, mem)

def populateWindow (t : Tables) (l2 virtBase physBase : UInt32) : UInt32 × Tables :=
  match populateSlots l2 (l1Index virtBase) l2TablesPerPage 0 t.l1 with
  | (false, l1) => (0, { t with l1 })
  | (true, l1) =>
      let written := populatePtes l2 physBase t.mem l2PteCount
      (written.1, ⟨l1, written.2⟩)

/-- What `translate` returns and stores.  `reads` are the addresses of the second-level words that it
loads. -/
structure Answer where
  ok : UInt32
  pa : UInt32
  reads : List Nat

def translate (t : Tables) (localL2Base localL2Limit va : UInt32) : Answer :=
  if l1EntryCount ≤ l1Index va then ⟨0, 0, []⟩
  else
    let l1Desc := t.l1 (l1Index va).toNat
    if l1Desc &&& l1TypeMask ≠ l1TableType then ⟨0, 0, []⟩
    else
      let l2Base := l1Desc &&& l1TableMask
      if l2Base < localL2Base ∨ localL2Limit ≤ l2Base ∨ localL2Limit - l2Base < l2CoarseBytes then
        ⟨0, 0, []⟩
      else
        let l2Word := l2Base.toNat + 4 * (l2Index va).toNat
        let pte := t.mem l2Word
        if pte &&& pteTypeMask ≠ pteTypeSmall then ⟨0, 0, [l2Word]⟩
        else ⟨1, (pte &&& ptePageMask) ||| (va &&& pageOffsetMask), [l2Word]⟩

/-! ## The window -/

def Answer.output (a : Answer) : Option Nat := if a.ok ≠ 0 then some a.pa.toNat else none

/-- Four megabytes from `virtBase` on, at `physBase`. -/
def window (virtBase physBase va : UInt32) : Option Nat :=
  if virtBase.toNat ≤ va.toNat ∧ va.toNat < virtBase.toNat + 0x400000 then
    some (physBase.toNat + (va.toNat - virtBase.toNat))
  else
    none

structure Zeroed (l2 : UInt32) (t : Tables) : Prop where
  l1 : ∀ i < 4096, t.l1 i = 0
  l2 : ∀ i < 1024, t.mem (l2.toNat + 4 * i) = 0

/-! ## Words -/

theorem table_type (l2Base : UInt32) : makeL1TableDescriptor l2Base &&& l1TypeMask = l1TableType := by
  have apart : l1TableMask &&& l1TypeMask = 0 := by decide
  have inside : l1TableType &&& l1TypeMask = l1TableType := by decide
  rw [makeL1TableDescriptor, or_and, UInt32.and_assoc, apart, inside, UInt32.and_zero,
    UInt32.zero_or]

theorem table_base (l2Base : UInt32) :
    makeL1TableDescriptor l2Base &&& l1TableMask = l2Base &&& l1TableMask := by
  have apart : l1TableType &&& l1TableMask = 0 := by decide
  rw [makeL1TableDescriptor, or_and, UInt32.and_assoc, UInt32.and_self, apart, UInt32.or_zero]

theorem table_aligned {l2Base : UInt32} (coarse : l2Base.toNat % 2 ^ 10 = 0) :
    l2Base &&& l1TableMask = l2Base := by
  have mask : l1TableMask = ~~~(((1 : UInt32) <<< (10 : UInt32)) - 1) := by decide
  rw [← UInt32.toNat_inj, mask, toNat_align _ (by decide)]
  exact Nat.div_mul_cancel (Nat.dvd_of_mod_eq_zero coarse)

theorem pte_type (pa : UInt32) : makePte pa &&& pteTypeMask = pteTypeSmall := by
  have apart : ptePageMask &&& pteTypeMask = 0 := by decide
  have inside : pteAttrDefault &&& pteTypeMask = pteTypeSmall := by decide
  rw [makePte, or_and, UInt32.and_assoc, apart, inside, UInt32.and_zero, UInt32.zero_or]

theorem toNat_page (pa va : UInt32) :
    ((makePte pa &&& ptePageMask) ||| (va &&& pageOffsetMask)).toNat =
      pa.toNat / 2 ^ 12 * 2 ^ 12 + va.toNat % 2 ^ 12 := by
  have apart : pteAttrDefault &&& ptePageMask = 0 := by decide
  have page : ptePageMask = ~~~(((1 : UInt32) <<< (12 : UInt32)) - 1) := by decide
  have offset : pageOffsetMask = ((1 : UInt32) <<< (12 : UInt32)) - 1 := by decide
  rw [makePte, or_and, UInt32.and_assoc, UInt32.and_self, apart, UInt32.or_zero, page, offset,
    toNat_join _ _ (by decide)]
  rfl

theorem toNat_l1Index (va : UInt32) : (l1Index va).toNat = va.toNat / 2 ^ 20 := by
  rw [l1Index, UInt32.toNat_shiftRight]
  exact Nat.shiftRight_eq_div_pow va.toNat 20

theorem toNat_l2Index (va : UInt32) : (l2Index va).toNat = va.toNat / 2 ^ 12 % 2 ^ 8 := by
  have shifted : l2Index va = (va >>> 12) &&& 0xff := by
    rw [l2Index, l2IndexMask, l2IndexShift, UInt32.shiftRight_and]
    rfl
  have field : ((va >>> 12) &&& 0xff).toNat = va.toNat / 2 ^ 12 % 2 ^ 8 :=
    toNat_field va (by decide) rfl
  rw [shifted, field]

theorem l1Index_lt (va : UInt32) : ¬ l1EntryCount ≤ l1Index va := by
  have count : l1EntryCount.toNat = 4096 := rfl
  have below := va.toNat_lt
  rw [UInt32.le_iff_toNat_le, count, toNat_l1Index]
  omega

/-! ## What the loops write -/

section Populate
variable {l2 first : UInt32}

/-- The descriptor of coarse table `k`. -/
def coarse (l2 : UInt32) (k : Nat) : UInt32 :=
  makeL1TableDescriptor (l2 + 4 * (UInt32.ofNat k * l2PtesPerTable))

theorem toNat_sum {i : UInt32} (room : first.toNat + i.toNat ≤ 4096) :
    (first + i).toNat = first.toNat + i.toNat ∧ (i + 1).toNat = i.toNat + 1 := by
  constructor
  · rw [UInt32.toNat_add, Nat.mod_eq_of_lt]
    omega
  · rw [UInt32.toNat_add, UInt32.toNat_one, Nat.mod_eq_of_lt]
    omega

/-- The slots in the table are written, also where a later one is past it. -/
theorem populateSlots_eq (n : Nat) (i : UInt32) (l1 : Nat → UInt32)
    (room : first.toNat + i.toNat ≤ 4096) (few : i.toNat + n ≤ l2TablesPerPage) :
    populateSlots l2 first n i l1 = (decide (first.toNat + i.toNat + n ≤ 4096), fun slot =>
      if first.toNat + i.toNat ≤ slot ∧ slot < min (first.toNat + i.toNat + n) 4096 then
        coarse l2 (slot - first.toNat)
      else l1 slot) := by
  induction n generalizing i l1 with
  | zero =>
      rw [populateSlots, Nat.add_zero, decide_eq_true room]
      congr 1
      funext slot
      exact (if_neg (by omega)).symm
  | succ n ih =>
      obtain ⟨sum, next⟩ := toNat_sum room
      have count : l1EntryCount.toNat = 4096 := rfl
      rw [populateSlots]
      by_cases past : l1EntryCount ≤ first + i
      · rw [if_pos past]
        rw [UInt32.le_iff_toNat_le, count, sum] at past
        rw [decide_eq_false (by omega)]
        congr 1
        funext slot
        exact (if_neg (by omega)).symm
      · rw [if_neg past]
        rw [UInt32.le_iff_toNat_le, count, sum] at past
        rw [ih (i + 1) _ (by omega) (by omega), next]
        have same : first.toNat + (i.toNat + 1) + n = first.toNat + i.toNat + (n + 1) := by omega
        rw [same]
        congr 1
        funext slot
        by_cases here : slot = first.toNat + i.toNat
        · have word : UInt32.ofNat (slot - first.toNat) = i := by
            rw [here, Nat.add_sub_cancel_left, UInt32.ofNat_toNat]
          rw [if_neg (by omega), if_pos (by omega), here.trans sum.symm, Function.update_self,
            ← here.trans sum.symm, coarse, word]
        · rw [Function.update_of_ne (fun same => here (same.trans sum))]
          by_cases later : first.toNat + (i.toNat + 1) ≤ slot ∧
              slot < min (first.toNat + i.toNat + (n + 1)) 4096
          · rw [if_pos later, if_pos (by omega)]
          · rw [if_neg later, if_neg (by omega)]

end Populate

section Entries
variable {l2 physBase : UInt32} {mem : Nat → UInt32}

def entry (physBase : UInt32) (i : Nat) : UInt32 := makePte (physBase + UInt32.ofNat i * pageSize)

theorem populatePtes_succ (n : Nat) : populatePtes l2 physBase mem (n + 1) =
    ((populatePtes l2 physBase mem n).1 + 1,
      Function.update (populatePtes l2 physBase mem n).2 (l2.toNat + 4 * n) (entry physBase n)) := by
  rw [populatePtes, List.range_succ, List.foldl_append]
  rfl

theorem populatePtes_apply (n : Nat) {i : Nat} (inside : i < n) :
    (populatePtes l2 physBase mem n).2 (l2.toNat + 4 * i) = entry physBase i := by
  induction n with
  | zero => exact absurd inside (Nat.not_lt_zero i)
  | succ n ih =>
      rw [populatePtes_succ]
      by_cases last : i = n
      · subst last
        exact Function.update_self ..
      · exact (Function.update_of_ne (by omega) _ _).trans (ih (by omega))

/-- The whole page. -/
theorem whole_page {i : Nat} (inside : i < 1024) :
    (populatePtes l2 physBase mem l2PteCount).2 (l2.toNat + 4 * i) = entry physBase i := by
  have below : i < l2PteCount := inside
  rw [populatePtes_apply l2PteCount below]

theorem populatePtes_count (n : Nat) : (populatePtes l2 physBase mem n).1 = UInt32.ofNat n := by
  induction n with
  | zero => rfl
  | succ n ih =>
      rw [populatePtes_succ, ih, UInt32.ofNat_add]
      rfl

end Entries

/-! ## The walk -/

section Walk
variable {t : Tables} {l2 limit virtBase physBase va : UInt32}

/-- The coarse tables are in the local page, `limit` is its end. -/
structure Local (l2 limit : UInt32) : Prop where
  aligned : l2.toNat % 2 ^ 10 = 0
  ends : limit.toNat = l2.toNat + 0x1000

theorem toNat_coarseBase (place : Local l2 limit) {k : Nat} (few : k < l2TablesPerPage) :
    (l2 + 4 * (UInt32.ofNat k * l2PtesPerTable)).toNat = l2.toNat + 0x400 * k := by
  have end_ := limit.toNat_lt
  have below := place.ends
  rw [l2TablesPerPage] at few
  have word : (UInt32.ofNat k).toNat = k := UInt32.toNat_ofNat_of_lt (few.trans (by decide))
  have four : (4 : UInt32).toNat = 4 := rfl
  have many : l2PtesPerTable.toNat = 256 := rfl
  rw [UInt32.toNat_add, UInt32.toNat_mul, UInt32.toNat_mul, word, four, many,
    Nat.mod_eq_of_lt (a := k * 256) (by omega), Nat.mod_eq_of_lt (a := 4 * (k * 256)) (by omega),
    Nat.mod_eq_of_lt (by omega)]
  omega

theorem translate_zero (zero : t.l1 (va.toNat / 2 ^ 20) = 0) : translate t l2 limit va = ⟨0, 0, []⟩ := by
  have untyped : (0 : UInt32) &&& l1TypeMask ≠ l1TableType := by decide
  rw [translate, if_neg (l1Index_lt va), toNat_l1Index, zero, if_pos untyped]

theorem translate_coarse (place : Local l2 limit) {k : Nat} (few : k < l2TablesPerPage)
    (slot : t.l1 (va.toNat / 2 ^ 20) = coarse l2 k) :
    let i := 256 * k + va.toNat / 2 ^ 12 % 2 ^ 8
    translate t l2 limit va =
      if t.mem (l2.toNat + 4 * i) &&& pteTypeMask ≠ pteTypeSmall then
        ⟨0, 0, [l2.toNat + 4 * i]⟩
      else
        ⟨1, (t.mem (l2.toNat + 4 * i) &&& ptePageMask) ||| (va &&& pageOffsetMask),
          [l2.toNat + 4 * i]⟩ := by
  have base := toNat_coarseBase place few
  have aligned := place.aligned
  have ends := place.ends
  rw [l2TablesPerPage] at few
  have typed : coarse l2 k &&& l1TypeMask = l1TableType := table_type _
  have table : coarse l2 k &&& l1TableMask = l2 + 4 * (UInt32.ofNat k * l2PtesPerTable) := by
    rw [coarse, table_base, table_aligned]
    rw [base]
    omega
  have size : l2CoarseBytes.toNat = 0x400 := rfl
  have inside : ¬ (l2 + 4 * (UInt32.ofNat k * l2PtesPerTable) < l2 ∨
      limit ≤ l2 + 4 * (UInt32.ofNat k * l2PtesPerTable) ∨
      limit - (l2 + 4 * (UInt32.ofNat k * l2PtesPerTable)) < l2CoarseBytes) := by
    have le : l2 + 4 * (UInt32.ofNat k * l2PtesPerTable) ≤ limit := by
      rw [UInt32.le_iff_toNat_le, base]
      omega
    rw [UInt32.lt_iff_toNat_lt, UInt32.le_iff_toNat_le, UInt32.lt_iff_toNat_lt,
      UInt32.toNat_sub_of_le _ _ le, base, size]
    omega
  have word : l2.toNat + 0x400 * k + 4 * (va.toNat / 2 ^ 12 % 2 ^ 8) =
      l2.toNat + 4 * (256 * k + va.toNat / 2 ^ 12 % 2 ^ 8) := by omega
  dsimp only
  rw [translate, if_neg (l1Index_lt va), toNat_l1Index, slot]
  dsimp only
  rw [if_neg (not_not.mpr typed), table, if_neg inside, base, toNat_l2Index, word]

/-- The first level behind the slots: the coarse tables of the window, as far as they are in the
table. -/
theorem l1_populated (t : Tables) (l2 virtBase : UInt32) :
    populateSlots l2 (l1Index virtBase) l2TablesPerPage 0 t.l1 =
      (decide (virtBase.toNat / 2 ^ 20 + 4 ≤ 4096), fun slot =>
        if virtBase.toNat / 2 ^ 20 ≤ slot ∧ slot < min (virtBase.toNat / 2 ^ 20 + 4) 4096 then
          coarse l2 (slot - virtBase.toNat / 2 ^ 20)
        else t.l1 slot) := by
  have below := virtBase.toNat_lt
  have first := toNat_l1Index virtBase
  have zero : (0 : UInt32).toNat = 0 := rfl
  rw [populateSlots_eq _ _ _ (by omega) (by rw [zero]; omega), first, zero]
  rfl

theorem entry_page (page : physBase.toNat % 2 ^ 12 = 0) (noWrap : physBase.toNat + 0x400000 ≤ 2 ^ 32)
    {i : Nat} (inside : i < 1024) :
    ((entry physBase i &&& ptePageMask) ||| (va &&& pageOffsetMask)).toNat =
      physBase.toNat + 0x1000 * i + va.toNat % 2 ^ 12 := by
  have word : (UInt32.ofNat i).toNat = i := UInt32.toNat_ofNat_of_lt (inside.trans (by decide))
  have size : pageSize.toNat = 0x1000 := rfl
  have pa : (physBase + UInt32.ofNat i * pageSize).toNat = physBase.toNat + 0x1000 * i := by
    rw [UInt32.toNat_add, UInt32.toNat_mul, word, size, Nat.mod_eq_of_lt (a := i * 0x1000) (by omega),
      Nat.mod_eq_of_lt (by omega), Nat.mul_comm]
  rw [entry, toNat_page, pa]
  omega

theorem output_entry (page : physBase.toNat % 2 ^ 12 = 0)
    (noWrap : physBase.toNat + 0x400000 ≤ 2 ^ 32) (place : Local l2 limit) {k : Nat}
    (few : k < l2TablesPerPage) (slot : t.l1 (va.toNat / 2 ^ 20) = coarse l2 k)
    (stored : ∀ i < 1024, t.mem (l2.toNat + 4 * i) = entry physBase i) :
    (translate t l2 limit va).output =
      some (physBase.toNat + 0x1000 * (256 * k + va.toNat / 2 ^ 12 % 2 ^ 8) + va.toNat % 2 ^ 12) := by
  have index : 256 * k + va.toNat / 2 ^ 12 % 2 ^ 8 < 1024 := by
    rw [l2TablesPerPage] at few
    omega
  have small : entry physBase (256 * k + va.toNat / 2 ^ 12 % 2 ^ 8) &&& pteTypeMask = pteTypeSmall :=
    pte_type _
  have one : (1 : UInt32) ≠ 0 := by decide
  rw [translate_coarse place few slot, stored _ index, if_neg (not_not.mpr small), Answer.output, if_pos one,
    entry_page page noWrap index]

theorem output_populated (mega : virtBase.toNat % 2 ^ 20 = 0) (page : physBase.toNat % 2 ^ 12 = 0)
    (noWrap : physBase.toNat + 0x400000 ≤ 2 ^ 32) (place : Local l2 limit) (zeroed : Zeroed l2 t)
    (fits : virtBase.toNat / 2 ^ 20 + 4 ≤ 4096) (va : UInt32) :
    (translate (populateWindow t l2 virtBase physBase).2 l2 limit va).output =
      window virtBase physBase va := by
  have below := va.toNat_lt
  have slots := l1_populated t l2 virtBase
  rw [decide_eq_true fits] at slots
  rw [populateWindow, slots, window]
  by_cases inside : virtBase.toNat ≤ va.toNat ∧ va.toNat < virtBase.toNat + 0x400000
  · have few : va.toNat / 2 ^ 20 - virtBase.toNat / 2 ^ 20 < l2TablesPerPage := by
      rw [l2TablesPerPage]
      omega
    rw [if_pos inside, output_entry page noWrap place few (if_pos (by omega))]
    · congr 1
      rw [l2TablesPerPage] at few
      omega
    · intro i inside
      dsimp only
      rw [whole_page inside]
  · rw [if_neg inside, translate_zero]
    · rfl
    · exact (if_neg (by omega)).trans (zeroed.l1 _ (by omega))

/-- A refused window has descriptors for the slots in the table, and no entries behind them. -/
theorem output_refused (place : Local l2 limit) (zeroed : Zeroed l2 t)
    (past : 4096 < virtBase.toNat / 2 ^ 20 + 4) (va : UInt32) :
    (translate (populateWindow t l2 virtBase physBase).2 l2 limit va).output = none := by
  have below := va.toNat_lt
  have slots := l1_populated t l2 virtBase
  rw [decide_eq_false (by omega)] at slots
  rw [populateWindow, slots]
  by_cases written : virtBase.toNat / 2 ^ 20 ≤ va.toNat / 2 ^ 20 ∧
      va.toNat / 2 ^ 20 < min (virtBase.toNat / 2 ^ 20 + 4) 4096
  · have few : va.toNat / 2 ^ 20 - virtBase.toNat / 2 ^ 20 < l2TablesPerPage := by
      rw [l2TablesPerPage]
      omega
    have fault : (0 : UInt32) &&& pteTypeMask ≠ pteTypeSmall := by decide
    rw [translate_coarse place few (if_pos written)]
    dsimp only
    rw [l2TablesPerPage] at few
    rw [zeroed.l2 _ (by omega), if_pos fault]
    rfl
  · rw [translate_zero]
    · rfl
    · exact (if_neg written).trans (zeroed.l1 _ (by omega))

/-- Whatever the tables hold, the second level is read inside the local page. -/
theorem reads_local {a : Nat} (read : a ∈ (translate t l2 limit va).reads) :
    l2.toNat ≤ a ∧ a + 4 ≤ limit.toNat := by
  have size : l2CoarseBytes.toNat = 0x400 := rfl
  have index := toNat_l2Index va
  rw [translate] at read
  dsimp only at read
  split at read
  · exact absurd read List.not_mem_nil
  split at read
  · exact absurd read List.not_mem_nil
  split at read
  · exact absurd read List.not_mem_nil
  rename_i inside
  rw [not_or, not_or, UInt32.not_lt, UInt32.not_le, UInt32.not_lt] at inside
  obtain ⟨above, under, room⟩ := inside
  have le := UInt32.le_iff_toNat_le.mp above
  rw [UInt32.le_iff_toNat_le, UInt32.toNat_sub_of_le _ _ (UInt32.le_of_lt under), size] at room
  have there : a = (t.l1 (l1Index va).toNat &&& l1TableMask).toNat + 4 * (l2Index va).toNat := by
    split at read <;> exact List.mem_singleton.mp read
  omega

theorem populateWindow_count (fits : virtBase.toNat / 2 ^ 20 + 4 ≤ 4096) :
    (populateWindow t l2 virtBase physBase).1 = 1024 := by
  have count : UInt32.ofNat l2PteCount = 1024 := rfl
  rw [populateWindow, l1_populated, decide_eq_true fits]
  dsimp only
  rw [populatePtes_count, count]

theorem populateWindow_refuses (past : 4096 < virtBase.toNat / 2 ^ 20 + 4) :
    (populateWindow t l2 virtBase physBase).1 = 0 := by
  rw [populateWindow, l1_populated, decide_eq_false (by omega)]

/-- On zeroed tables, the walk gives exactly the window that was populated, nothing where the window
was refused, and reads the second level inside its page. -/
theorem window_of_populated (mega : virtBase.toNat % 2 ^ 20 = 0) (page : physBase.toNat % 2 ^ 12 = 0)
    (noWrap : physBase.toNat + 0x400000 ≤ 2 ^ 32) (place : Local l2 limit) (zeroed : Zeroed l2 t) :
    (virtBase.toNat / 2 ^ 20 + 4 ≤ 4096 →
        (populateWindow t l2 virtBase physBase).1 = 1024 ∧
          ∀ va, (translate (populateWindow t l2 virtBase physBase).2 l2 limit va).output =
            window virtBase physBase va) ∧
      (¬ virtBase.toNat / 2 ^ 20 + 4 ≤ 4096 →
        (populateWindow t l2 virtBase physBase).1 = 0 ∧
          ∀ va, (translate (populateWindow t l2 virtBase physBase).2 l2 limit va).output = none) ∧
      ∀ va, ∀ a ∈ (translate (populateWindow t l2 virtBase physBase).2 l2 limit va).reads,
        l2.toNat ≤ a ∧ a + 4 ≤ l2.toNat + 0x1000 := by
  refine ⟨?_, ?_, ?_⟩
  · intro fits
    exact ⟨populateWindow_count fits, output_populated mega page noWrap place zeroed fits⟩
  · intro past
    exact ⟨populateWindow_refuses (by omega), output_refused place zeroed (by omega)⟩
  · intro va a read
    rw [← place.ends]
    exact reads_local read

end Walk

def blank : Tables := ⟨fun _ => 0, fun _ => 0⟩

/-- The last address of a window at the top of the address space, and one of a window past it. -/
theorem window_at_top :
    (translate (populateWindow blank 0x8000 0xffc00000 0x80000000).2 0x8000 0x9000 0xffffffff).output =
        some 0x803fffff ∧
      (translate (populateWindow blank 0x8000 0xffd00000 0x80000000).2 0x8000 0x9000
        0xffffffff).output = none := by
  have place : Local 0x8000 0x9000 := ⟨by decide, by decide⟩
  have zeroed : Zeroed 0x8000 blank := ⟨fun _ _ => rfl, fun _ _ => rfl⟩
  have top := @window_of_populated blank 0x8000 0x9000 0xffc00000 0x80000000 (by decide) (by decide)
    (by decide) place zeroed
  have past := @window_of_populated blank 0x8000 0x9000 0xffd00000 0x80000000 (by decide) (by decide)
    (by decide) place zeroed
  constructor
  · rw [(top.1 (by decide)).2]
    decide
  · exact (past.2.1 (by decide)).2 0xffffffff

end Stage90.PageDryrun

import Stage90.Lib.FirstMax
import Stage90.Lib.Instances
import Stage90.Media.CardRequest
import Stage90.Storage.Walk

/-!
# What the selection exposes

The partition table as the standard lays it out, 64-bit addresses and an inclusive
`EndingLBA`, against the accessors after the chain.  The walk keeps
`EndingLBA - StartingLBA`, one less than the partition's sectors, so the unit never
reaches the last one; what it exposes is right when there is nothing to expose.
-/

set_option autoImplicit false

namespace Stage90.Storage

open Stage90.Lib Stage90.Media

/-! ## The table -/

structure GptHeader where
  partitionEntryLba : Nat
  numberOfEntries : Nat
  sizeOfEntry : Nat

def wide (low high : UInt32) : Nat := low.toNat + 2 ^ 32 * high.toNat

def headerOf (card : Card) : GptHeader where
  partitionEntryLba := wide (card.sector 1 18) (card.sector 1 19)
  numberOfEntries := (card.sector 1 20).toNat
  sizeOfEntry := (card.sector 1 21).toNat

def arrayWord (card : Card) (w : Nat) : UInt32 :=
  card.sector (UInt32.ofNat ((headerOf card).partitionEntryLba + w / 128))
    ⟨w % 128, Nat.mod_lt w (by decide)⟩

structure PartitionEntry where
  typeGuid : Fin 4 → UInt32
  startingLba : Nat
  endingLba : Nat

namespace PartitionEntry

def blank (e : PartitionEntry) : Bool := decide (∀ i, e.typeGuid i = 0)

def sectors (e : PartitionEntry) : Nat := e.endingLba + 1 - e.startingLba

end PartitionEntry

def partitionEntry (card : Card) (i : Nat) : PartitionEntry :=
  let w := i * ((headerOf card).sizeOfEntry / 4)
  { typeGuid := fun j => arrayWord card (w + j)
    startingLba := wide (arrayWord card (w + 8)) (arrayWord card (w + 9))
    endingLba := wide (arrayWord card (w + 10)) (arrayWord card (w + 11)) }

def table (card : Card) : List PartitionEntry :=
  (List.range (headerOf card).numberOfEntries).map (partitionEntry card)

def tableSectors (h : GptHeader) : Nat := (h.numberOfEntries * h.sizeOfEntry + 511) / 512

/-- LBA 1 describes an array of at most 32 sectors, on the card. -/
structure HoldsTable (card : Card) : Prop where
  size : (headerOf card).sizeOfEntry = 128 ∨ (headerOf card).sizeOfEntry = 256 ∨
    (headerOf card).sizeOfEntry = 512
  sectors : (headerOf card).numberOfEntries * (headerOf card).sizeOfEntry ≤ 32 * 512
  onCard : (headerOf card).partitionEntryLba + tableSectors (headerOf card) ≤ 2 ^ 32

/-! ## The walk over the table -/

theorem wide_low (low high : UInt32) : wide low high % 2 ^ 32 = low.toNat := by
  rw [wide, Nat.add_mul_mod_self_left, Nat.mod_eq_of_lt low.toNat_lt]

structure HeaderTaken (card : Card) (capacity : UInt32) (s : Ladder) : Prop where
  readCount : s.readCount = 1
  closed : s.driverLbaSet = 0
  extSecCount : s.extSecCount = capacity
  entryLba : s.gpt.entryLba = card.sector 1 18
  nentries : s.gpt.nentries = card.sector 1 20
  entrySize : s.gpt.entrySize = card.sector 1 21
  nsec : s.gpt.arrayNsec =
    if arrayNsec (card.sector 1 20) (card.sector 1 21) > stGptArrayScanMax then stGptArrayScanMax
    else arrayNsec (card.sector 1 20) (card.sector 1 21)
  bestExtent : s.gpt.bestExtent = 0

theorem headerRead_boot {card : Card} (delivers : card.outcome 0 = .delivers)
    (capacity : UInt32) : HeaderTaken card capacity (headerRead card (bootLadder capacity)) := by
  have read := stReadSingleBlock_walk (s := bootLadder capacity) delivers rfl
  have header : stSectorForRead (bootLadder capacity).gpt (bootLadder capacity).readCount = 1 := rfl
  rw [header] at read
  rw [headerRead, read]
  exact ⟨rfl, rfl, rfl, rfl, rfl, rfl, rfl, rfl⟩

section Table
variable {card : Card} (holds : HoldsTable card) {capacity : UInt32} {s : Ladder}
  (taken : HeaderTaken card capacity s)
include holds taken

theorem taken_walkable : Walkable s.gpt := by
  have size := holds.size
  have sectors := holds.sectors
  simp only [headerOf] at size sectors
  refine ⟨?_, ?_, ?_⟩
  · rw [taken.entrySize]
    exact size
  · rw [taken.entrySize, taken.nentries]
    exact sectors
  · rw [taken.nsec, taken.entrySize, taken.nentries]

theorem walked_all : walked s.gpt s.gpt.arrayNsec.toNat = (headerOf card).numberOfEntries := by
  rw [(taken_walkable holds taken).walked_all, taken.nentries]
  rfl

/-- Entry `i` of the walk holds the low words of entry `i` of the table. -/
theorem walkEntry_word (i j : Nat) (inside : j < 32) :
    sectorWord card (s.gpt.entryLba + UInt32.ofNat (i / sectorCap s.gpt))
        (i % sectorCap s.gpt * strideWords s.gpt + j) =
      arrayWord card (i * ((headerOf card).sizeOfEntry / 4) + j) := by
  obtain ⟨whole, wide32⟩ := (taken_walkable holds taken).stride_cap
  have bytes : (headerOf card).sizeOfEntry / 4 = strideWords s.gpt := by
    rw [strideWords, taken.entrySize]
    rfl
  have capPos : 0 < sectorCap s.gpt := by
    rcases Nat.eq_zero_or_pos (sectorCap s.gpt) with zero | positive
    · rw [zero] at whole
      omega
    · exact positive
  set cap := sectorCap s.gpt with cap_eq
  set stride := strideWords s.gpt with stride_eq
  have slot := Nat.mod_lt i capPos
  have room : i % cap * stride + j < 128 := by
    have next : (i % cap + 1) * stride ≤ cap * stride := Nat.mul_le_mul_right _ slot
    rw [Nat.mul_comm cap, whole, Nat.succ_mul] at next
    omega
  have place : i * stride + j = 128 * (i / cap) + (i % cap * stride + j) := by
    calc i * stride + j = (cap * (i / cap) + i % cap) * stride + j := by rw [Nat.div_add_mod]
      _ = stride * cap * (i / cap) + (i % cap * stride + j) := by ring
      _ = 128 * (i / cap) + (i % cap * stride + j) := by rw [whole]
  have sector : (i * stride + j) / 128 = i / cap := by
    rw [place, Nat.mul_add_div (by decide), Nat.div_eq_of_lt room, Nat.add_zero]
  have word : (i * stride + j) % 128 = i % cap * stride + j := by
    rw [place, Nat.mul_add_mod, Nat.mod_eq_of_lt room]
  have lba : UInt32.ofNat ((headerOf card).partitionEntryLba + i / cap) =
      s.gpt.entryLba + UInt32.ofNat (i / cap) := by
    rw [UInt32.ofNat_add, taken.entryLba]
    congr 1
    apply UInt32.toNat_inj.mp
    rw [UInt32.toNat_ofNat']
    exact wide_low _ _
  simp only [sectorWord, arrayWord, bytes, room, dif_pos, sector, word, lba]

theorem walkEntry_blank (i : Nat) :
    (walkEntry card s.gpt i).blank = (partitionEntry card i).blank := by
  have type (j : Fin 4) : (walkEntry card s.gpt i).type j = (partitionEntry card i).typeGuid j :=
    walkEntry_word holds taken i j (by omega)
  simp only [Entry.blank, PartitionEntry.blank, type]

theorem walkEntry_extent (i : Nat) :
    (walkEntry card s.gpt i).extent.toNat =
      (partitionEntry card i).endingLba % 2 ^ 32 - (partitionEntry card i).startingLba % 2 ^ 32 := by
  have first : (walkEntry card s.gpt i).first.toNat = (partitionEntry card i).startingLba % 2 ^ 32 := by
    rw [partitionEntry, wide_low]
    exact congrArg UInt32.toNat (walkEntry_word holds taken i 8 (by decide))
  have last : (walkEntry card s.gpt i).last.toNat = (partitionEntry card i).endingLba % 2 ^ 32 := by
    rw [partitionEntry, wide_low]
    exact congrArg UInt32.toNat (walkEntry_word holds taken i 10 (by decide))
  rw [Entry.extent]
  split
  · rename_i le
    rw [UInt32.toNat_sub_of_le _ _ le, first, last]
  · rename_i gt
    rw [ge_iff_le, UInt32.le_iff_toNat_le, first, last] at gt
    change 0 = _
    omega

/-- The largest extent found is at most what no entry passes. -/
theorem walk_bestExtent_le (limit : Nat)
    (bounded : ∀ e ∈ table card, e.blank = false →
      e.endingLba % 2 ^ 32 - e.startingLba % 2 ^ 32 ≤ limit) :
    (walkGpt card s.gpt s.gpt.arrayNsec.toNat).bestExtent.toNat ≤ limit := by
  apply walkGpt_bestExtent_le
  · rw [taken.bestExtent]
    exact Nat.zero_le limit
  · intro i inside used
    rw [walked_all holds taken] at inside
    rw [walkEntry_blank holds taken] at used
    rw [walkEntry_extent holds taken]
    exact bounded _ (List.mem_map_of_mem (List.mem_range.mpr inside)) used

end Table

/-! ## The unit -/

/-- The device the strategy sees; what does not come from the ladder is `rest`. -/
def Ladder.device (s : Ladder) (rest : Device) : Device :=
  { rest with
    selectedLba := entryStorageSelectedLba s
    selectedCount := entryStorageSelectedCount s
    cardSectors := entryStorageCardSectors s }

/-- The non-blank entry with the most sectors, the first such in array order. -/
def Selected (card : Card) (e : PartitionEntry) : Prop :=
  FirstMax PartitionEntry.sectors ((table card).filter fun e => !e.blank) e

structure ExposesSelected (card : Card) (s : Ladder) : Prop where
  sectors : s.extSecCount ≠ 0 → ∀ e, Selected card e → ∀ lba,
    (∃ n < (entryStorageSelectedCount s).toNat, lba = (entryStorageSelectedLba s).toNat + n) ↔
      e.startingLba ≤ lba ∧ lba ≤ e.endingLba
  unit : s.extSecCount ≠ 0 → ∀ e, Selected card e → ∀ (b : Build) (rest : Device),
    b.fullExtent = true → ∀ n,
      n * stMediaBlocksize < strategyLen b (s.device rest) stMediaDriver ↔
        e.startingLba + n ≤ e.endingLba
  declined : s.extSecCount = 0 ∨ (∀ e ∈ table card, e.blank = true) →
    entryStorageSelectedLba s = 0 ∧ entryStorageSelectedCount s = 0 ∧
      entryStorageSelectedPages s = 0 ∧ (entryRootMediaMountDisk card s).1 = -1

/-- No non-blank entry has a sector, nor seems to have two by the low words of its addresses. -/
def NothingToSelect (card : Card) : Prop :=
  ∀ e ∈ table card, e.blank = false →
    e.endingLba < e.startingLba ∧ e.endingLba % 2 ^ 32 ≤ e.startingLba % 2 ^ 32

/-- Every address of the table is one a command can carry. -/
def Addressed (card : Card) : Prop :=
  ∀ e ∈ table card, e.startingLba < 2 ^ 32 ∧ e.endingLba < 2 ^ 32

theorem declines (card : Card) {s : Ladder}
    (nothing : s.gpt.bestExtent = 0 ∨ s.extSecCount = 0) :
    entryStorageSelectedLba s = 0 ∧ entryStorageSelectedCount s = 0 ∧
      entryStorageSelectedPages s = 0 ∧ (entryRootMediaMountDisk card s).1 = -1 := by
  have pages : entryStorageSelectedPages s = 0 := by
    rw [entryStorageSelectedPages]
    split
    · rfl
    · rename_i found
      rw [if_pos (nothing.resolve_left found)]
  refine ⟨if_pos nothing, if_pos nothing, pages, ?_⟩
  simp only [entryRootMediaMountDisk, pages, if_true]

section Chain
variable {card : Card} (delivered : ∀ i, card.outcome i = .delivers) (holds : HoldsTable card)
  (capacity : UInt32)
include delivered

theorem stCmdPath_gpt :
    (stCmdPath card (bootLadder capacity)).gpt =
        walkGpt card (headerRead card (bootLadder capacity)).gpt
          (headerRead card (bootLadder capacity)).gpt.arrayNsec.toNat ∧
      (stCmdPath card (bootLadder capacity)).extSecCount = capacity := by
  have taken := headerRead_boot (delivered 0) capacity
  have state := arrayWalk_state taken.readCount taken.closed _ (Nat.le_refl _) fun i _ =>
    delivered ((headerRead card (bootLadder capacity)).calls + i)
  rw [stCmdPath]
  refine ⟨?_, ?_⟩
  · rw [stReadSingleBlock_gpt, state.gpt]
  · rw [stReadSingleBlock_extSecCount, state.extSecCount, taken.extSecCount]

include holds

theorem chain_bestExtent_le (limit : Nat)
    (bounded : ∀ e ∈ table card, e.blank = false →
      e.endingLba % 2 ^ 32 - e.startingLba % 2 ^ 32 ≤ limit) :
    (stCmdPath card (bootLadder capacity)).gpt.bestExtent.toNat ≤ limit := by
  rw [(stCmdPath_gpt delivered capacity).1]
  exact walk_bestExtent_le holds (headerRead_boot (delivered 0) capacity) limit bounded

theorem exposes_nothing (nothing : capacity = 0 ∨ NothingToSelect card) :
    ExposesSelected card (stCmdPath card (bootLadder capacity)) := by
  set s := stCmdPath card (bootLadder capacity) with s_eq
  have read : s.extSecCount = capacity := (stCmdPath_gpt delivered capacity).2
  have empty : s.gpt.bestExtent = 0 ∨ s.extSecCount = 0 := by
    rcases nothing with unread | none_
    · exact Or.inr (read.trans unread)
    · left
      have zero := chain_bestExtent_le delivered holds capacity 0 fun e member used =>
        Nat.le_of_eq (Nat.sub_eq_zero_of_le (none_ e member used).2)
      exact UInt32.toNat_inj.mp (Nat.le_zero.mp zero)
  obtain ⟨lba, count, pages, refused⟩ := declines card empty
  have ends_first (known : s.extSecCount ≠ 0) {e : PartitionEntry} (selected : Selected card e) :
      e.endingLba < e.startingLba := by
    have none_ := nothing.resolve_left fun unread => known (read.trans unread)
    have member := List.mem_filter.mp selected.mem
    exact (none_ e member.1 (by simpa using member.2)).1
  constructor
  case sectors =>
    intro known e selected at_
    have backwards := ends_first known selected
    rw [count]
    constructor
    · intro ⟨n, inside, _⟩
      exact absurd inside (Nat.not_lt_zero n)
    · omega
  case unit =>
    intro known e selected b rest full n
    have backwards := ends_first known selected
    rw [strategyLen_full b _ full]
    change n * stMediaBlocksize < (entryStorageSelectedCount s).toNat * stMediaBlocksize ↔ _
    rw [count]
    change n * stMediaBlocksize < 0 * stMediaBlocksize ↔ _
    omega
  case declined => exact fun _ => ⟨lba, count, pages, refused⟩

theorem not_exposed (addressed : Addressed card) (known : capacity ≠ 0)
    {e₀ : PartitionEntry} (member₀ : e₀ ∈ table card) (used₀ : e₀.blank = false)
    (some_ : e₀.startingLba ≤ e₀.endingLba) :
    ¬ ExposesSelected card (stCmdPath card (bootLadder capacity)) := by
  intro exposed
  have candidate : e₀ ∈ (table card).filter fun e => !e.blank :=
    List.mem_filter.mpr ⟨member₀, by rw [used₀]; rfl⟩
  obtain ⟨e, selected⟩ := exists_firstMax PartitionEntry.sectors (List.ne_nil_of_mem candidate)
  have most := selected.le candidate
  rw [PartitionEntry.sectors, PartitionEntry.sectors] at most
  set s := stCmdPath card (bootLadder capacity) with s_eq
  have short : s.gpt.bestExtent.toNat ≤ e.endingLba - e.startingLba := by
    apply chain_bestExtent_le delivered holds
    intro other member used
    have smaller := selected.le (List.mem_filter.mpr ⟨member, by rw [used]; rfl⟩)
    rw [PartitionEntry.sectors, PartitionEntry.sectors] at smaller
    obtain ⟨low, high⟩ := addressed other member
    rw [Nat.mod_eq_of_lt low, Nat.mod_eq_of_lt high]
    omega
  have count : (entryStorageSelectedCount s).toNat ≤ s.gpt.bestExtent.toNat := by
    rw [entryStorageSelectedCount]
    split
    · exact Nat.zero_le _
    · exact Nat.le_refl _
  have read : s.extSecCount ≠ 0 := by
    rw [(stCmdPath_gpt delivered capacity).2]
    exact known
  have exact_ := exposed.sectors read e selected
  obtain ⟨first, _, firstAt⟩ := (exact_ e.startingLba).mpr (by omega)
  obtain ⟨last, lastInside, lastAt⟩ := (exact_ e.endingLba).mpr (by omega)
  omega

end Chain

/-- The unit exposes the selected partition when there is nothing to expose, and, in a table
whose addresses fit a command, only then. -/
theorem selection_exposed_iff_nothing_selected (card : Card) (capacity : UInt32)
    (delivered : ∀ i, card.outcome i = .delivers) (holds : HoldsTable card) :
    (capacity = 0 ∨ NothingToSelect card →
      ExposesSelected card (stCmdPath card (bootLadder capacity))) ∧
    (Addressed card →
      (ExposesSelected card (stCmdPath card (bootLadder capacity)) ↔
        capacity = 0 ∨ ∀ e ∈ table card, e.blank = false → e.endingLba < e.startingLba)) := by
  refine ⟨exposes_nothing delivered holds capacity, fun addressed => ⟨?_, ?_⟩⟩
  · intro exposed
    by_cases known : capacity = 0
    · exact Or.inl known
    · right
      intro e member used
      apply Nat.lt_of_not_le
      intro some_
      exact not_exposed delivered holds capacity addressed known member used some_ exposed
  · intro nothing
    apply exposes_nothing delivered holds capacity
    rcases nothing with unread | none_
    · exact Or.inl unread
    · right
      intro e member used
      have backwards := none_ e member used
      obtain ⟨low, high⟩ := addressed e member
      rw [Nat.mod_eq_of_lt low, Nat.mod_eq_of_lt high]
      exact ⟨backwards, Nat.le_of_lt backwards⟩

/-- A table of one 128-byte entry at LBA 2. -/
def singleEntryCard (first last : UInt32) : Card where
  sector lba i :=
    if lba = 1 then
      if i = 18 then 2 else if i = 20 then 1 else if i = 21 then 128 else 0
    else if lba = 2 then
      if i = 0 then 1 else if i = 8 then first else if i = 10 then last else 0
    else 0
  outcome _ := .delivers
  beyond _ := 0

theorem singleEntryCard_holds (first last : UInt32) : HoldsTable (singleEntryCard first last) := by
  have header : headerOf (singleEntryCard first last) = ⟨2, 1, 128⟩ := rfl
  constructor <;> rw [header] <;> decide

/-- An entry that ends before it starts. -/
theorem selection_exposed_iff_nothing_selected_backwards :
    ExposesSelected (singleEntryCard 40 34) (stCmdPath (singleEntryCard 40 34) (bootLadder 64)) := by
  apply (selection_exposed_iff_nothing_selected (singleEntryCard 40 34) 64 (fun _ => rfl)
    (singleEntryCard_holds 40 34)).1
  right
  intro e member _
  obtain rfl : e = partitionEntry (singleEntryCard 40 34) 0 := List.mem_singleton.mp member
  decide

/-- A partition of the seven sectors 34 to 40, of which the unit has six. -/
theorem selection_misses_last_sector :
    ¬ ExposesSelected (singleEntryCard 34 40)
      (stCmdPath (singleEntryCard 34 40) (bootLadder 64)) := by
  intro exposed
  have selected : Selected (singleEntryCard 34 40) (partitionEntry (singleEntryCard 34 40) 0) := by
    refine ⟨[], [], ?_, ?_, ?_⟩
    · apply List.filter_cons_of_pos
      decide
    · exact fun e member => absurd member List.not_mem_nil
    · exact fun e member => absurd member List.not_mem_nil
  have lba : (entryStorageSelectedLba (stCmdPath (singleEntryCard 34 40) (bootLadder 64))).toNat =
      34 := by decide
  have count : (entryStorageSelectedCount
      (stCmdPath (singleEntryCard 34 40) (bootLadder 64))).toNat = 6 := by decide
  have last := (exposed.sectors (by decide) _ selected 40).mpr (by decide)
  rw [lba, count] at last
  obtain ⟨n, inside, here⟩ := last
  omega

end Stage90.Storage

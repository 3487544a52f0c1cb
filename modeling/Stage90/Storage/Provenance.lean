import Stage90.Storage.ArrayBounds

/-!
# Which sector a decode reads

Every decode of the chain and the mount, word by word, against the sector it is meant
for.  In a chain whose reads all deliver, and whose entries lie inside their sector, each
word was moved from the sector wanted; a chain with a read that did not deliver is
mounted all the same.
-/

set_option autoImplicit false

namespace Stage90.Storage

def OwnSectors (s : Ladder) : Prop := ∀ d ∈ s.decoded, d.found = some d.wanted

/-- The words that the first `n` parses read of their entries lie inside the sectors, the name's
where the entry is selected. -/
def EntriesInside (card : Card) (g : Gpt) (n : Nat) : Prop :=
  ∀ i < walked g n,
    offsetOf g i + 10 < 128 ∧ (Longest card g i → offsetOf g i + 17 < 128)

section Notes
variable (card : Card)

theorem note_own {s : Ladder} {wanted : UInt32} (own : OwnSectors s)
    (moved : s.origin = fun _ => some wanted) {words : List Nat} (inside : ∀ i ∈ words, i < 128) :
    OwnSectors (note wanted words s) := by
  intro d member
  rcases List.mem_append.mp member with old | new
  · exact own d old
  · obtain ⟨i, listed, rfl⟩ := List.mem_map.mp new
    change originOf s i = some wanted
    rw [originOf, dif_pos (inside i listed), moved]

theorem stReadSingleBlock_own (s : Ladder) :
    OwnSectors (stReadSingleBlock card s) ↔ OwnSectors s := by
  by_cases gated : card.outcome s.calls = .gated
  · rw [stReadSingleBlock_gated card s gated]
    rfl
  · rw [stReadSingleBlock_sent card s gated]
    rfl

end Notes

section Chain
variable {card : Card} {s₀ : Ladder}

/-- The decodes of an entry are of its own sector when its words are inside. -/
theorem entryLog_own {g : Gpt} (zero : g.bestExtent = 0) {i : Nat}
    (inside : offsetOf g i + 10 < 128 ∧ (Longest card g i → offsetOf g i + 17 < 128)) :
    ∀ d ∈ entryLog card g i, d.found = some d.wanted := by
  rw [← selects_iff zero, ← entryReads_lt] at inside
  intro d member
  obtain ⟨w, read, rfl⟩ := List.mem_map.mp member
  exact if_pos (inside w read)

theorem arrayWalk_own (first : s₀.readCount = 1) (closed : s₀.driverLbaSet = 0)
    (zero : s₀.gpt.bestExtent = 0) (own : OwnSectors s₀) {n : Nat}
    (inside : EntriesInside card s₀.gpt n) (within : n ≤ s₀.gpt.arrayNsec.toNat)
    (delivered : ∀ i < n, card.outcome (s₀.calls + i) = .delivers) :
    OwnSectors (arrayWalk card n s₀) := by
  rw [OwnSectors, arrayWalk_decoded first closed n within delivered]
  intro d member
  rcases List.mem_append.mp member with old | new
  · exact own d old
  · obtain ⟨i, walked_, logged⟩ := List.mem_flatMap.mp new
    exact entryLog_own zero (inside i (List.mem_range.mp walked_)) d logged

theorem headerRead_calls (card : Card) (s : Ladder) : (headerRead card s).calls = s.calls + 1 :=
  stReadSingleBlock_calls card s

theorem headerRead_own (delivers : card.outcome 0 = .delivers) (capacity : UInt32) :
    OwnSectors (headerRead card (bootLadder capacity)) := by
  have read := stReadSingleBlock_walk (s := bootLadder capacity) delivers rfl
  rw [headerRead, read]
  apply note_own
  · intro d member
    exact absurd member List.not_mem_nil
  · rfl
  · decide

/-- Reads past the array address the selected partition's superblock. -/
theorem sector_past_walk {g : Gpt} {n : Nat} (past : g.arrayNsec.toNat < n) (fits : n < 2 ^ 32) :
    stSectorForRead g (UInt32.ofNat n) = g.dataSector + stFsSbSectorOff := by
  have ordinal : (UInt32.ofNat n).toNat = n := UInt32.toNat_ofNat_of_lt' fits
  have some_ : UInt32.ofNat n ≥ 1 := by
    rw [ge_iff_le, UInt32.le_iff_toNat_le, ordinal]
    exact Nat.succ_le_of_lt (Nat.zero_lt_of_lt past)
  have beyond : ¬ UInt32.ofNat n ≤ g.arrayNsec := by
    rw [UInt32.le_iff_toNat_le, ordinal]
    exact Nat.not_le_of_lt past
  rw [stSectorForRead, if_pos some_, if_neg beyond]

end Chain

/-! ## The chain and the mount -/

def mountRun (card : Card) (capacity : UInt32) : Int × Option Staged × Ladder :=
  entryRootMediaMountDisk card (stCmdPath card (bootLadder capacity))

def Gpt.selection (g : Gpt) : UInt32 × UInt32 := (g.bestExtent, g.dataSector)

structure DecodesOwnSectors (card : Card) (capacity : UInt32) : Prop where
  own : OwnSectors (mountRun card capacity).2.2
  header : card.outcome 0 ≠ .delivers →
    (stCmdPath card (bootLadder capacity)).gpt.bestExtent = stGptScanNone
  entry : let taken := headerRead card (bootLadder capacity)
    ∀ k < taken.gpt.arrayNsec.toNat, card.outcome (1 + k) ≠ .delivers →
      (arrayWalk card (k + 1) taken).gpt.selection = (arrayWalk card k taken).gpt.selection
  refuses : (∃ i < (mountRun card capacity).2.2.calls, card.outcome i ≠ .delivers) →
    (mountRun card capacity).1 = -1

def headerGpt (card : Card) : Gpt where
  entryLba := card.sector 1 18
  nentries := card.sector 1 20
  entrySize := card.sector 1 21
  arrayNsec :=
    if arrayNsec (card.sector 1 20) (card.sector 1 21) > stGptArrayScanMax then stGptArrayScanMax
    else arrayNsec (card.sector 1 20) (card.sector 1 21)
  partSector := 0
  bestExtent := 0
  dataSector := 0
  scanSector := card.sector 1 18
  dataType := fun _ => 0
  dataName := fun _ => 0

def arrayReads (card : Card) : Nat := (headerGpt card).arrayNsec.toNat

/-- The capacity gives a page, and some entry of the walk ends past where it starts. -/
def Mountable (card : Card) (capacity : UInt32) : Prop :=
  capacity ≠ 0 ∧ (capacity + 7) >>> 3 ≠ 0 ∧
    ∃ i < walked (headerGpt card) (arrayReads card),
      (walkEntry card (headerGpt card) i).blank = false ∧
        (walkEntry card (headerGpt card) i).first < (walkEntry card (headerGpt card) i).last

/-- The header and array reads deliver, and so do the superblock's two when there is
something to mount; no entry runs past its sector. -/
structure WholeReads (card : Card) (capacity : UInt32) : Prop where
  table : ∀ i < arrayReads card + 1, card.outcome i = .delivers
  inside : EntriesInside card (headerGpt card) (arrayReads card)
  superblock : Mountable card capacity →
    card.outcome (arrayReads card + 1) = .delivers ∧ card.outcome (arrayReads card + 2) = .delivers

section Mount
variable {card : Card} {capacity : UInt32}

theorem headerRead_gpt (delivers : card.outcome 0 = .delivers) :
    (headerRead card (bootLadder capacity)).gpt = headerGpt card := by
  have read := stReadSingleBlock_walk (s := bootLadder capacity) delivers rfl
  rw [headerRead, read]
  rfl

theorem stCmdPath_eq (capacity : UInt32) (delivers : card.outcome 0 = .delivers) :
    stCmdPath card (bootLadder capacity) =
      stReadSingleBlock card
        (arrayWalk card (arrayReads card) (headerRead card (bootLadder capacity))) := by
  rw [stCmdPath, headerRead_gpt delivers, arrayReads]

structure TableWalked (card : Card) (capacity : UInt32) (s : Ladder) : Prop where
  own : OwnSectors s
  closed : s.driverLbaSet = 0
  calls : s.calls = arrayReads card + 1
  extSecCount : s.extSecCount = capacity
  ordinal : s.readCount = UInt32.ofNat (arrayReads card + 1)
  nsec : s.gpt.arrayNsec.toNat = arrayReads card
  gpt : s.gpt = walkGpt card (headerGpt card) (arrayReads card)

theorem arrayReads_le (card : Card) : arrayReads card ≤ 32 := by
  simp only [arrayReads, headerGpt]
  split
  · exact Nat.le_refl 32
  · rename_i within
    exact Nat.le_of_not_lt fun more => within (UInt32.lt_iff_toNat_lt.mpr more)

theorem table_walked (whole : WholeReads card capacity) :
    TableWalked card capacity
      (arrayWalk card (arrayReads card) (headerRead card (bootLadder capacity))) := by
  have headerDelivers : card.outcome 0 = .delivers := whole.table 0 (Nat.succ_pos _)
  have taken := headerRead_boot headerDelivers capacity
  have headerOwn := headerRead_own headerDelivers capacity
  have gpt : (headerRead card (bootLadder capacity)).gpt = headerGpt card :=
    headerRead_gpt headerDelivers
  have calls : (headerRead card (bootLadder capacity)).calls = 1 := headerRead_calls card _
  set s₁ := headerRead card (bootLadder capacity) with s₁_eq
  have nsec : s₁.gpt.arrayNsec.toNat = arrayReads card := by rw [gpt, arrayReads]
  have arrayDelivers : ∀ i < arrayReads card, card.outcome (s₁.calls + i) = .delivers :=
    fun i earlier => whole.table _ (by omega)
  have state := arrayWalk_state taken.readCount taken.closed _ (Nat.le_of_eq nsec.symm)
    arrayDelivers
  constructor
  case own =>
    apply arrayWalk_own taken.readCount taken.closed taken.bestExtent headerOwn _
      (Nat.le_of_eq nsec.symm) arrayDelivers
    rw [gpt]
    exact whole.inside
  case closed => exact state.closed
  case calls => rw [state.calls, calls, Nat.add_comm]
  case extSecCount => rw [state.extSecCount, taken.extSecCount]
  case ordinal => exact state.readCount
  case nsec => rw [state.shape.arrayNsec, nsec]
  case gpt => rw [state.gpt, gpt]

theorem extent_zero {e : Entry} (backwards : ¬ e.first < e.last) : e.extent = 0 := by
  rw [Entry.extent]
  split
  · rename_i le
    rw [UInt32.le_antisymm (UInt32.not_lt.mp backwards) le, UInt32.sub_self]
  · rfl

/-- With nothing to mount the walk finds no extent or the accessor has no page. -/
theorem pages_of_not_mountable (nothing : ¬ Mountable card capacity) {s : Ladder}
    (extSecCount : s.extSecCount = capacity)
    (gpt : s.gpt = walkGpt card (headerGpt card) (arrayReads card)) :
    entryStorageSelectedPages s = 0 := by
  rw [entryStorageSelectedPages, extSecCount]
  split
  · rfl
  · rename_i found
    split
    · rfl
    · rename_i known
      by_contra page
      apply nothing
      refine ⟨known, page, ?_⟩
      by_contra none_
      apply found
      have zero : (walkGpt card (headerGpt card) (arrayReads card)).bestExtent.toNat ≤ 0 := by
        apply walkGpt_bestExtent_le
        · exact Nat.le_refl 0
        · intro i inside used
          have backwards : ¬ (walkEntry card (headerGpt card) i).first <
              (walkEntry card (headerGpt card) i).last := fun ends =>
            none_ ⟨i, inside, used, ends⟩
          exact Nat.le_of_eq (congrArg UInt32.toNat (extent_zero backwards))
      rw [gpt]
      exact UInt32.toNat_inj.mp (Nat.le_zero.mp zero)

theorem mountRun_refused (declined : entryStorageSelectedPages (stCmdPath card (bootLadder capacity)) = 0) :
    mountRun card capacity = (-1, none, stCmdPath card (bootLadder capacity)) := by
  simp only [mountRun, entryRootMediaMountDisk, if_pos declined]

theorem mountRun_accepted (selected : entryStorageSelectedPages (stCmdPath card (bootLadder capacity)) ≠ 0) :
    (mountRun card capacity).1 = 0 ∧
    (mountRun card capacity).2.2 =
      note ((stReadSingleBlock card (stCmdPath card (bootLadder capacity))).gpt.dataSector +
          stFsSbSectorOff) (List.range 128)
        (stReadSingleBlock card (stCmdPath card (bootLadder capacity))) := by
  simp only [mountRun, entryRootMediaMountDisk, if_neg selected, and_self]

/-- The last two reads land the selected partition's superblock. -/
theorem mounted_own (whole : WholeReads card capacity)
    (selected : entryStorageSelectedPages (stCmdPath card (bootLadder capacity)) ≠ 0) :
    OwnSectors (mountRun card capacity).2.2 ∧
      ∀ i < (mountRun card capacity).2.2.calls, card.outcome i = .delivers := by
  have walkedTable := table_walked whole
  have path := stCmdPath_eq capacity (whole.table 0 (Nat.succ_pos _))
  have small := arrayReads_le card
  set s := arrayWalk card (arrayReads card) (headerRead card (bootLadder capacity)) with s_eq
  have mountable : Mountable card capacity := by
    by_contra nothing
    apply selected
    apply pages_of_not_mountable nothing
    · rw [path, stReadSingleBlock_extSecCount, walkedTable.extSecCount]
    · rw [path, stReadSingleBlock_gpt, walkedTable.gpt]
  obtain ⟨delivers, redelivers⟩ := whole.superblock mountable
  have read := stReadSingleBlock_walk (by rw [walkedTable.calls]; exact delivers)
    walkedTable.closed
  rw [← path] at read
  set s₂ := stCmdPath card (bootLadder capacity) with s₂_eq
  have calls : s₂.calls = arrayReads card + 2 := by rw [read, walkedTable.calls]
  have closed : s₂.driverLbaSet = 0 := by rw [read, walkedTable.closed]
  have nsec : s₂.gpt.arrayNsec.toNat = arrayReads card := by rw [read, walkedTable.nsec]
  have ordinal : s₂.readCount = UInt32.ofNat (arrayReads card + 2) := by
    rw [read, walkedTable.ordinal]
    exact (UInt32.ofNat_add (arrayReads card + 1) 1).symm
  have own : OwnSectors s₂ := by
    rw [read]
    exact walkedTable.own
  have reread := stReadSingleBlock_walk (by rw [calls]; exact redelivers) closed
  rw [ordinal, sector_past_walk (by omega) (by omega)] at reread
  rw [(mountRun_accepted selected).2]
  refine ⟨?_, ?_⟩
  · apply note_own
    · rw [reread]
      exact own
    · rw [reread]
    · exact fun i member => List.mem_range.mp member
  · intro i made
    have made : i < (stReadSingleBlock card s₂).calls := made
    rw [stReadSingleBlock_calls, calls] at made
    rcases Nat.lt_or_ge i (arrayReads card + 1) with inTable | past
    · exact whole.table i inTable
    · rcases Nat.lt_or_ge i (arrayReads card + 2) with first | second
      · rwa [Nat.le_antisymm (Nat.le_of_lt_succ first) past]
      · rwa [Nat.le_antisymm (Nat.le_of_lt_succ made) second]

end Mount

/-- The chain's decodes run on their own sectors when the table is read whole and the
superblock too if there is one to mount; a mount that goes through keeps the promise only
when every read delivered. -/
theorem decodes_own_sectors_of_whole_reads (card : Card) (capacity : UInt32) :
    (WholeReads card capacity → DecodesOwnSectors card capacity) ∧
    ((mountRun card capacity).1 = 0 → DecodesOwnSectors card capacity →
      ∀ i < (mountRun card capacity).2.2.calls, card.outcome i = .delivers) := by
  refine ⟨?_, ?_⟩
  · intro whole
    have headerDelivers : card.outcome 0 = .delivers := whole.table 0 (Nat.succ_pos _)
    have entry : ∀ k < arrayReads card, card.outcome (1 + k) = .delivers := fun k inside =>
      whole.table _ (by omega)
    have ownAndRefuses : OwnSectors (mountRun card capacity).2.2 ∧
        ((∃ i < (mountRun card capacity).2.2.calls, card.outcome i ≠ .delivers) →
          (mountRun card capacity).1 = -1) := by
      by_cases declined : entryStorageSelectedPages (stCmdPath card (bootLadder capacity)) = 0
      · rw [mountRun_refused declined, stCmdPath_eq capacity headerDelivers]
        exact ⟨(stReadSingleBlock_own card _).mpr (table_walked whole).own, fun _ => rfl⟩
      · obtain ⟨own, delivered⟩ := mounted_own whole declined
        refine ⟨own, ?_⟩
        intro ⟨i, made, failed⟩
        exact absurd (delivered i made) failed
    constructor
    case own => exact ownAndRefuses.1
    case header => exact fun failed => absurd headerDelivers failed
    case entry =>
      intro taken k inside failed
      have nsec : taken.gpt.arrayNsec.toNat = arrayReads card := by
        rw [headerRead_gpt headerDelivers, arrayReads]
      exact absurd (entry k (nsec ▸ inside)) failed
    case refuses => exact ownAndRefuses.2
  · intro accepted own i made
    by_contra failed
    have refused := own.refuses ⟨i, made, failed⟩
    rw [accepted] at refused
    exact absurd refused (by decide)

theorem decodes_own_sectors_of_whole_reads_single_entry :
    DecodesOwnSectors (singleEntryCard 34 40) 64 := by
  apply (decodes_own_sectors_of_whole_reads (singleEntryCard 34 40) 64).1
  constructor
  case table => exact fun _ _ => rfl
  case inside =>
    intro i inside
    have one : walked (headerGpt (singleEntryCard 34 40)) (arrayReads (singleEntryCard 34 40)) = 1 := by
      decide
    obtain rfl : i = 0 := by omega
    exact ⟨by decide, fun _ => by decide⟩
  case superblock => exact fun _ => ⟨rfl, rfl⟩

/-- The superblock read and the mount's re-read are gated, and the array sector is staged. -/
theorem gated_superblock_is_mounted :
    ¬ DecodesOwnSectors { singleEntryCard 34 40 with
      outcome := fun i => if i < 2 then .delivers else .gated } 64 := by
  intro own
  have refused := own.refuses ⟨2, by decide, by decide⟩
  exact absurd refused (by decide)

end Stage90.Storage

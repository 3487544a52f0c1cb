import Stage90.Storage.ArrayFold

/-!
# The bounds of the walk

Which sectors a walk asks for and which words its decodes read, for any header and any array.
-/

set_option autoImplicit false

namespace Stage90.Storage

open Stage90.Lib

variable {card : Card} {g : Gpt} {s : Ladder}

/-- `_ge_ok` of the first array sector: its shape can be walked. -/
def geOk (g : Gpt) : Prop := nentUsed g 0 ≠ 0 ∧ 4 ≤ strideWords g

/-- A walk stays inside: at most 32 sectors, all of them on the card, no word past the buffer, and no
selection from a shape that cannot be walked. -/
structure StaysInside (card : Card) (start : Ladder) : Prop where
  few : start.gpt.arrayNsec.toNat ≤ 32
  sectors : ∀ i < start.gpt.arrayNsec.toNat,
    (nextLba (arrayWalk card i start)).toNat < start.extSecCount.toNat
  words : ∀ d ∈ (arrayWalk card start.gpt.arrayNsec.toNat start).decoded.drop start.decoded.length,
    d.word < 128
  refuses : ¬ geOk start.gpt →
    (arrayWalk card start.gpt.arrayNsec.toNat start).gpt.bestExtent = stGptScanNone

/-- Entry `i` is used and longer than every used entry before it. -/
def Longest (card : Card) (g : Gpt) (i : Nat) : Prop :=
  (walkEntry card g i).blank = false ∧ 0 < extentOf card g i ∧
    ∀ j < i, (walkEntry card g j).blank = false → extentOf card g j < extentOf card g i

/-- The header and the array fit: the array is on a card of `count` sectors, the fields of each entry
that is decoded are in its sector, and entries too narrow for a type have no extent. -/
structure Fits (card : Card) (g : Gpt) (count : Nat) : Prop where
  array : g.arrayNsec.toNat = 0 ∨ g.entryLba.toNat + g.arrayNsec.toNat ≤ count
  entries : ∀ i < walked g g.arrayNsec.toNat,
    offsetOf g i + 10 < 128 ∧ (Longest card g i → offsetOf g i + 17 < 128)
  narrow : strideWords g < 4 → ∀ i < walked g g.arrayNsec.toNat,
    (walkEntry card g i).blank = false → extentOf card g i = 0

/-! ## Selections -/

theorem carriesBefore_largest (zero : g.bestExtent = 0) (i : Nat) :
    LargestExtent card g i (carriesBefore card g i) := by
  have start : Folded card g 0 (resetPart 0 g) := Folded.start rfl zero
  exact (foldl_folded start i).largest

/-- The running maximum is a bound of the extents, and it is one of them. -/
theorem bestExtent_lt_iff (zero : g.bestExtent = 0) (i limit : Nat) (some_ : 0 < limit) :
    (carriesBefore card g i).bestExtent.toNat < limit ↔
      ∀ j < i, (walkEntry card g j).blank = false → extentOf card g j < limit := by
  have member : ∀ j, j ∈ extents card g i ↔ j < i ∧ (walkEntry card g j).blank = false ∧
      (walkEntry card g j).first ≤ (walkEntry card g j).last := by
    intro j
    simp [extents]
  have none_ : ∀ j, ¬ (walkEntry card g j).first ≤ (walkEntry card g j).last → extentOf card g j = 0 := by
    intro j backwards
    rw [extentOf, extent_eq_zero backwards]
    rfl
  rcases @carriesBefore_largest card g zero i with ⟨empty, best⟩ | ⟨k, first, best, -⟩
  · rw [best]
    refine ⟨fun _ j inside used => ?_, fun _ => some_⟩
    have backwards : ¬ (walkEntry card g j).first ≤ (walkEntry card g j).last := by
      intro forwards
      have there := (member j).mpr ⟨inside, used, forwards⟩
      rw [empty] at there
      exact absurd there List.not_mem_nil
    rw [none_ j backwards]
    exact some_
  · rw [best]
    constructor
    · intro below j inside used
      by_cases forwards : (walkEntry card g j).first ≤ (walkEntry card g j).last
      · exact Nat.lt_of_le_of_lt (first.le ((member j).mpr ⟨inside, used, forwards⟩)) below
      · rw [none_ j forwards]
        exact some_
    · intro bounded
      obtain ⟨inside, used, -⟩ := (member k).mp first.mem
      exact bounded k inside used

theorem selects_iff (zero : g.bestExtent = 0) (i : Nat) :
    (walkEntry card g i).selects (carriesBefore card g i) = true ↔ Longest card g i := by
  rw [Entry.selects, Bool.and_eq_true, Bool.not_eq_true', decide_eq_true_iff, gt_iff_lt,
    UInt32.lt_iff_toNat_lt, Longest]
  constructor
  · intro ⟨used, below⟩
    have some_ : 0 < extentOf card g i := Nat.lt_of_le_of_lt (Nat.zero_le _) below
    exact ⟨used, some_, (bestExtent_lt_iff zero i _ some_).mp below⟩
  · intro ⟨used, some_, longer⟩
    exact ⟨used, (bestExtent_lt_iff zero i _ some_).mpr longer⟩

theorem bestExtent_zero_iff (zero : g.bestExtent = 0) (i : Nat) :
    (carriesBefore card g i).bestExtent = 0 ↔
      ∀ j < i, (walkEntry card g j).blank = false → extentOf card g j = 0 := by
  have one := @bestExtent_lt_iff card g zero i 1 Nat.one_pos
  simp only [Nat.lt_one_iff] at one
  rw [← one, ← UInt32.toNat_inj]
  rfl

/-! ## Words and sectors -/

theorem entryReads_lt (off : Nat) (selects : Bool) :
    (∀ w ∈ entryReads off selects, w < 128) ↔ off + 10 < 128 ∧ (selects = true → off + 17 < 128) := by
  cases selects with
  | true =>
      simp only [entryReads, if_true, List.cons_append, List.nil_append, List.forall_mem_cons,
        List.not_mem_nil, false_imp_iff, implies_true, and_true, forall_const]
      omega
  | false =>
      simp only [entryReads, Bool.false_eq_true, if_false, List.append_nil, List.forall_mem_cons,
        List.not_mem_nil, false_imp_iff, implies_true, and_true]
      omega

theorem WalkState.nextLba_eq {s₀ : Ladder} {n : Nat} (before : WalkState card s₀ n s)
    (inside : n < s₀.gpt.arrayNsec.toNat) : nextLba s = s₀.gpt.entryLba + UInt32.ofNat n := by
  rw [nextLba, if_neg (by rw [before.closed]; decide), before.readCount,
    sector_of_walk (by rw [before.shape.arrayNsec]; exact inside), before.shape.entryLba]

theorem array_on_card {lba nsec count : UInt32} :
    (∀ i < nsec.toNat, (lba + UInt32.ofNat i).toNat < count.toNat) ↔
      nsec.toNat = 0 ∨ lba.toNat + nsec.toNat ≤ count.toNat := by
  have size := count.toNat_lt
  have place : ∀ i, lba.toNat + i < 2 ^ 32 → (lba + UInt32.ofNat i).toNat = lba.toNat + i := by
    intro i below
    rw [UInt32.toNat_add, UInt32.toNat_ofNat']
    omega
  constructor
  · intro inside
    by_contra outside
    obtain ⟨some_, past⟩ := not_or.mp outside
    by_cases start : lba.toNat < count.toNat
    · -- the first sector past the card
      have last := inside (count.toNat - lba.toNat) (by omega)
      rw [place _ (by omega)] at last
      omega
    · have first := inside 0 (Nat.pos_of_ne_zero some_)
      rw [place _ (by have := lba.toNat_lt; omega)] at first
      omega
  · intro fits i inside
    rw [place i (by omega)]
    omega

theorem walked_of_unused {n : Nat} (unused : nentUsed g 0 = 0) : walked g n = 0 := by
  simp only [nentUsed, Nat.zero_mul, Nat.sub_zero] at unused
  have either : g.nentries.toNat = 0 ∨ sectorCap g = 0 := by
    split at unused <;> split at unused <;> omega
  rw [walked]
  rcases either with none_ | none_
  · rw [none_, Nat.zero_min]
  · rw [none_, Nat.mul_zero, Nat.min_zero]

/-- Walks over headers that clamp the array's length. -/
theorem arrayNsec_clamped (nentries entrySize : UInt32) :
    (if arrayNsec nentries entrySize > stGptArrayScanMax then stGptArrayScanMax
      else arrayNsec nentries entrySize).toNat ≤ 32 := by
  by_cases large : arrayNsec nentries entrySize > stGptArrayScanMax
  · rw [if_pos large]
    exact Nat.le_refl 32
  · rw [if_neg large]
    exact UInt32.le_iff_toNat_le.mp (UInt32.not_lt.mp large)

/-- A walk stays inside exactly if the header and the array fit the card, the sectors and the
entries. -/
theorem stays_inside_iff (card : Card) (s : Ladder) (first : s.readCount = 1) (closed : s.driverLbaSet = 0)
    (delivered : ∀ i, card.outcome i = .delivers) :
    StaysInside card (stGptParse card s) ↔
      Fits card (stGptParse card s).gpt s.extSecCount.toNat := by
  generalize start_ : stGptParse card s = start
  have opened : start.readCount = 1 := by
    rw [← start_]
    exact first
  have doorClosed : start.driverLbaSet = 0 := by
    rw [← start_]
    exact closed
  have zero : start.gpt.bestExtent = 0 := by
    rw [← start_]
    rfl
  have count : start.extSecCount = s.extSecCount := by
    rw [← start_]
    rfl
  have few : start.gpt.arrayNsec.toNat ≤ 32 := by
    rw [← start_]
    exact arrayNsec_clamped _ _
  have arrived : ∀ n ≤ start.gpt.arrayNsec.toNat, WalkState card start n (arrayWalk card n start) :=
    fun n inside => arrayWalk_state opened doorClosed n inside fun i _ => delivered (start.calls + i)
  have sectors : (∀ i < start.gpt.arrayNsec.toNat,
      (nextLba (arrayWalk card i start)).toNat < start.extSecCount.toNat) ↔
        start.gpt.arrayNsec.toNat = 0 ∨
          start.gpt.entryLba.toNat + start.gpt.arrayNsec.toNat ≤ s.extSecCount.toNat := by
    rw [← array_on_card, count]
    refine forall₂_congr fun i inside => ?_
    rw [(arrived i (Nat.le_of_lt inside)).nextLba_eq inside]
  have decodes := arrayWalk_decoded opened doorClosed start.gpt.arrayNsec.toNat (Nat.le_refl _)
    fun i _ => delivered (start.calls + i)
  have words : (∀ d ∈ (arrayWalk card start.gpt.arrayNsec.toNat start).decoded.drop start.decoded.length,
      d.word < 128) ↔ ∀ i < walked start.gpt start.gpt.arrayNsec.toNat,
        offsetOf start.gpt i + 10 < 128 ∧ (Longest card start.gpt i → offsetOf start.gpt i + 17 < 128) := by
    rw [decodes, List.drop_left, List.forall_mem_flatMap]
    simp only [List.mem_range]
    refine forall₂_congr fun i inside => ?_
    rw [← selects_iff zero, ← entryReads_lt, entryLog, List.forall_mem_map]
  have selection : (arrayWalk card start.gpt.arrayNsec.toNat start).gpt.bestExtent = 0 ↔
      ∀ i < walked start.gpt start.gpt.arrayNsec.toNat, (walkEntry card start.gpt i).blank = false →
        extentOf card start.gpt i = 0 := by
    rw [(arrived _ (Nat.le_refl _)).gpt]
    by_cases none_ : start.gpt.arrayNsec.toNat = 0
    · rw [none_, walkGpt, if_pos rfl]
      have nothing : walked start.gpt 0 = 0 := by rw [walked, Nat.zero_mul, Nat.min_zero]
      rw [nothing]
      exact ⟨fun _ i inside => absurd inside (Nat.not_lt_zero i), fun _ => zero⟩
    · rw [walkGpt_eq card _ none_, bestExtent_zero_iff zero]
  constructor
  · intro stays
    refine ⟨sectors.mp stays.sectors, words.mp stays.words, fun narrow => ?_⟩
    exact selection.mp (stays.refuses fun ok => absurd ok.2 (Nat.not_le.mpr narrow))
  · intro fits
    refine ⟨few, sectors.mpr fits.array, words.mpr fits.entries, fun refused => selection.mpr ?_⟩
    by_cases narrow : strideWords start.gpt < 4
    · exact fits.narrow narrow
    · have unused : nentUsed start.gpt 0 = 0 := by
        by_contra used
        exact refused ⟨used, Nat.not_lt.mp narrow⟩
      rw [walked_of_unused unused]
      exact fun i inside => absurd inside (Nat.not_lt_zero i)

/-- A table of one entry of 128 bytes on a card of 64 sectors. -/
theorem stays_inside_single :
    StaysInside (singleEntryCard 34 40) (headerRead (singleEntryCard 34 40) (bootLadder 64)) := by
  apply (stays_inside_iff (singleEntryCard 34 40)
    (stReadSingleBlock (singleEntryCard 34 40) (bootLadder 64)) rfl rfl fun _ => rfl).mpr
  have all : ∀ i < walked (headerRead (singleEntryCard 34 40) (bootLadder 64)).gpt 1, i = 0 := by
    intro i inside
    have one : walked (headerRead (singleEntryCard 34 40) (bootLadder 64)).gpt 1 = 1 := by decide
    omega
  refine ⟨by decide, ?_, fun narrow => absurd narrow (by decide)⟩
  intro i inside
  rw [all i inside]
  exact ⟨by decide, fun _ => by decide⟩

/-- A header that declares 16 entries of 32 bytes. -/
def shortEntryCard : Card where
  sector lba i := if lba = 1 then (if i = 18 then 2 else if i = 20 then 16 else if i = 21 then 32 else 0) else 0
  outcome _ := .delivers
  beyond _ := 0

/-- The last of the entries ends past the buffer. -/
theorem shortEntryCard_outside :
    ¬ StaysInside shortEntryCard (headerRead shortEntryCard (bootLadder 64)) := by
  intro stays
  have last : (⟨130, 2, none⟩ : Decode) ∈ ((arrayWalk shortEntryCard
      (headerRead shortEntryCard (bootLadder 64)).gpt.arrayNsec.toNat
      (headerRead shortEntryCard (bootLadder 64))).decoded.drop
        (headerRead shortEntryCard (bootLadder 64)).decoded.length) := by decide
  exact absurd (stays.words _ last) (by decide)

end Stage90.Storage

import Mathlib.Data.List.Range
import Mathlib.Tactic.Ring
import Stage90.Storage.Gpt

/-!
# What the walk decodes

A decode leaves the buffer and the ordinal alone.  When every read delivers, array
sector `n` is in the buffer at the `n`-th decode, and the carries after the walk are one
fold of `considerEntry` over the entries of the array in order.
-/

set_option autoImplicit false

namespace Stage90.Storage

/-! ## Frames -/

/-- The header's carries. -/
structure SameShape (g g' : Gpt) : Prop where
  entryLba : g'.entryLba = g.entryLba
  nentries : g'.nentries = g.nentries
  entrySize : g'.entrySize = g.entrySize
  arrayNsec : g'.arrayNsec = g.arrayNsec

theorem SameShape.refl (g : Gpt) : SameShape g g := ⟨rfl, rfl, rfl, rfl⟩

theorem SameShape.trans {g g' g'' : Gpt} (first : SameShape g g') (second : SameShape g' g'') :
    SameShape g g'' :=
  ⟨second.entryLba.trans first.entryLba, second.nentries.trans first.nentries,
    second.entrySize.trans first.entrySize, second.arrayNsec.trans first.arrayNsec⟩

theorem SameShape.stride {g g' : Gpt} (same : SameShape g g') : strideWords g' = strideWords g := by
  rw [strideWords, strideWords, same.entrySize]

theorem SameShape.cap {g g' : Gpt} (same : SameShape g g') : sectorCap g' = sectorCap g := by
  rw [sectorCap, sectorCap, same.stride]

theorem SameShape.used {g g' : Gpt} (same : SameShape g g') (secIdx : Nat) :
    nentUsed g' secIdx = nentUsed g secIdx := by
  rw [nentUsed, nentUsed, same.cap, same.nentries]

structure Kept (s s' : Ladder) : Prop where
  readBlock : s'.readBlock = s.readBlock
  readLba : s'.readLba = s.readLba
  readCount : s'.readCount = s.readCount
  driverLbaSet : s'.driverLbaSet = s.driverLbaSet
  extSecCount : s'.extSecCount = s.extSecCount
  calls : s'.calls = s.calls
  origin : s'.origin = s.origin
  shape : SameShape s.gpt s'.gpt

theorem Kept.refl (s : Ladder) : Kept s s :=
  ⟨rfl, rfl, rfl, rfl, rfl, rfl, rfl, SameShape.refl _⟩

theorem Kept.trans {s s' s'' : Ladder} (first : Kept s s') (second : Kept s' s'') : Kept s s'' :=
  ⟨second.readBlock.trans first.readBlock, second.readLba.trans first.readLba,
    second.readCount.trans first.readCount, second.driverLbaSet.trans first.driverLbaSet,
    second.extSecCount.trans first.extSecCount, second.calls.trans first.calls,
    second.origin.trans first.origin, first.shape.trans second.shape⟩

theorem readWord_kept (card : Card) {s s' : Ladder} (kept : Kept s s') :
    readWord card s' = readWord card s := by
  funext i
  rw [readWord, readWord, kept.readBlock]

section Decode
variable (card : Card)

theorem considerEntry_shape (sector : UInt32) (g : Gpt) (e : Entry) :
    SameShape g (considerEntry sector g e) := by
  unfold considerEntry
  split
  · exact SameShape.refl g
  · dsimp only
    split <;> exact ⟨rfl, rfl, rfl, rfl⟩

theorem parseEntry_kept (secIdx stride : Nat) (s : Ladder) (k : Nat) :
    Kept s (parseEntry card secIdx stride s k) :=
  ⟨rfl, rfl, rfl, rfl, rfl, rfl, rfl, considerEntry_shape _ _ _⟩

theorem parseEntries_gpt (secIdx stride : Nat) (ks : List Nat) (s : Ladder) :
    Kept s (ks.foldl (parseEntry card secIdx stride) s) ∧
      (ks.foldl (parseEntry card secIdx stride) s).gpt =
        ks.foldl (fun g k => considerEntry (s.gpt.entryLba + UInt32.ofNat secIdx) g
          (entryAt (readWord card s) (k * stride))) s.gpt := by
  induction ks generalizing s with
  | nil => exact ⟨Kept.refl s, rfl⟩
  | cons k ks ih =>
      have one := parseEntry_kept card secIdx stride s k
      obtain ⟨rest, gpt⟩ := ih (parseEntry card secIdx stride s k)
      refine ⟨one.trans rest, ?_⟩
      rw [List.foldl_cons, gpt, readWord_kept card one, one.shape.entryLba]
      rfl

/-- `st_gpt_part_sector` is reset on the first array sector. -/
def resetPart (secIdx : Nat) (g : Gpt) : Gpt :=
  if secIdx = 0 then { g with partSector := 0 } else g

theorem resetPart_shape (secIdx : Nat) (g : Gpt) : SameShape g (resetPart secIdx g) := by
  unfold resetPart
  split
  · exact ⟨rfl, rfl, rfl, rfl⟩
  · exact SameShape.refl g

theorem stGptEntryParse_gpt (secIdx : Nat) (s : Ladder) :
    Kept s (stGptEntryParse card secIdx s) ∧
      (stGptEntryParse card secIdx s).gpt =
        (List.range (nentUsed s.gpt secIdx)).foldl
          (fun g k => considerEntry (s.gpt.entryLba + UInt32.ofNat secIdx) g
            (entryAt (readWord card s) (k * strideWords s.gpt))) (resetPart secIdx s.gpt) := by
  have first : (if secIdx = 0 then { s with gpt := { s.gpt with partSector := 0 } } else s) =
      { s with gpt := resetPart secIdx s.gpt } := by
    unfold resetPart
    split <;> rfl
  have shape := resetPart_shape secIdx s.gpt
  have kept : Kept s { s with gpt := resetPart secIdx s.gpt } :=
    ⟨rfl, rfl, rfl, rfl, rfl, rfl, rfl, shape⟩
  obtain ⟨rest, gpt⟩ := parseEntries_gpt card secIdx (strideWords s.gpt)
    (List.range (nentUsed s.gpt secIdx)) { s with gpt := resetPart secIdx s.gpt }
  rw [stGptEntryParse]
  simp only [first]
  refine ⟨kept.trans rest, ?_⟩
  rw [gpt, readWord_kept card kept]
  simp only [shape.entryLba]

end Decode

/-! ## The walk when every read delivers -/

/-- Sector `lba` as the decode would read it. -/
def sectorWord (card : Card) (lba : UInt32) (i : Nat) : UInt32 :=
  if h : i < 128 then card.sector lba ⟨i, h⟩ else card.beyond i

/-- The header declares entries of 128, 256 or 512 bytes that span at most 32 sectors. -/
structure Walkable (g : Gpt) : Prop where
  size : g.entrySize.toNat = 128 ∨ g.entrySize.toNat = 256 ∨ g.entrySize.toNat = 512
  sectors : g.nentries.toNat * g.entrySize.toNat ≤ 32 * 512
  nsec : g.arrayNsec =
    if arrayNsec g.nentries g.entrySize > stGptArrayScanMax then stGptArrayScanMax
    else arrayNsec g.nentries g.entrySize

theorem Walkable.stride_cap {g : Gpt} (walkable : Walkable g) :
    strideWords g * sectorCap g = 128 ∧ 32 ≤ strideWords g := by
  rw [sectorCap, strideWords]
  rcases walkable.size with size | size | size
  · rw [size]
    decide
  · rw [size]
    decide
  · rw [size]
    decide

theorem Walkable.nsec_eq {g : Gpt} (walkable : Walkable g) :
    g.arrayNsec.toNat = (g.nentries.toNat * g.entrySize.toNat + 511) / 512 := by
  have sectors := walkable.sectors
  have product : (g.nentries * g.entrySize).toNat = g.nentries.toNat * g.entrySize.toNat := by
    rw [UInt32.toNat_mul]
    apply Nat.mod_eq_of_lt
    omega
  have length : (arrayNsec g.nentries g.entrySize).toNat =
      (g.nentries.toNat * g.entrySize.toNat + 511) / 512 := by
    rw [arrayNsec, UInt32.toNat_div, UInt32.toNat_add, product]
    change (g.nentries.toNat * g.entrySize.toNat + 511) % 2 ^ 32 / 512 = _
    rw [Nat.mod_eq_of_lt (by omega)]
  have small : ¬ arrayNsec g.nentries g.entrySize > stGptArrayScanMax := by
    rw [gt_iff_lt, UInt32.lt_iff_toNat_lt, length]
    change ¬ 32 < _
    omega
  rw [walkable.nsec, if_neg small, length]

def walkEntry (card : Card) (g : Gpt) (i : Nat) : Entry :=
  entryAt (sectorWord card (g.entryLba + UInt32.ofNat (i / sectorCap g)))
    (i % sectorCap g * strideWords g)

def considerWalk (card : Card) (shape g : Gpt) (i : Nat) : Gpt :=
  considerEntry (shape.entryLba + UInt32.ofNat (i / sectorCap shape)) g (walkEntry card shape i)

/-- Entries decoded after `n` array sectors. -/
def walked (g : Gpt) (n : Nat) : Nat := min g.nentries.toNat (n * sectorCap g)

/-- The carries after `n` array sectors. -/
def walkGpt (card : Card) (g : Gpt) (n : Nat) : Gpt :=
  (List.range (walked g n)).foldl (considerWalk card g) (if n = 0 then g else resetPart 0 g)

/-- The walk decodes every entry that the header declares. -/
theorem Walkable.walked_all {g : Gpt} (walkable : Walkable g) :
    walked g g.arrayNsec.toNat = g.nentries.toNat := by
  obtain ⟨whole, _⟩ := walkable.stride_cap
  have size := walkable.size
  have capSize : sectorCap g * g.entrySize.toNat = 512 := by
    have four : g.entrySize.toNat = 4 * strideWords g := by
      rw [strideWords]
      omega
    rw [four, Nat.mul_left_comm, Nat.mul_comm (sectorCap g), whole]
  rw [walked, walkable.nsec_eq]
  apply Nat.min_eq_left
  have enough : g.nentries.toNat * g.entrySize.toNat ≤
      (g.nentries.toNat * g.entrySize.toNat + 511) / 512 * sectorCap g * g.entrySize.toNat := by
    rw [Nat.mul_assoc, capSize]
    omega
  apply Nat.le_of_mul_le_mul_right enough
  omega

theorem walked_succ (g : Gpt) (n : Nat) : walked g (n + 1) = walked g n + nentUsed g n := by
  have next : (n + 1) * sectorCap g = n * sectorCap g + sectorCap g := Nat.succ_mul _ _
  simp only [walked, nentUsed, next]
  split <;> split <;> omega

theorem nentUsed_le (g : Gpt) (n : Nat) : nentUsed g n ≤ sectorCap g := by
  simp only [nentUsed]
  split <;> split <;> omega

theorem walked_of_used {g : Gpt} {n : Nat} (used : 0 < nentUsed g n) :
    walked g n = n * sectorCap g := by
  simp only [nentUsed] at used
  simp only [walked]
  split at used <;> split at used <;> omega

theorem walked_slot {g : Gpt} {n k : Nat} (used : k < nentUsed g n) :
    (walked g n + k) / sectorCap g = n ∧ (walked g n + k) % sectorCap g = k := by
  have room := nentUsed_le g n
  rw [walked_of_used (by omega), Nat.mul_comm]
  constructor
  · rw [Nat.mul_add_div (by omega), Nat.div_eq_of_lt (by omega), Nat.add_zero]
  · rw [Nat.mul_add_mod, Nat.mod_eq_of_lt (by omega)]

theorem walkGpt_succ (card : Card) (g : Gpt) (n : Nat) :
    walkGpt card g (n + 1) =
      (List.range (nentUsed g n)).foldl
        (fun g' k => considerEntry (g.entryLba + UInt32.ofNat n) g'
          (entryAt (sectorWord card (g.entryLba + UInt32.ofNat n)) (k * strideWords g)))
        (resetPart n (walkGpt card g n)) := by
  have start : resetPart n (walkGpt card g n) =
      (List.range (walked g n)).foldl (considerWalk card g) (resetPart 0 g) := by
    cases n with
    | zero => simp [walkGpt, walked]
    | succ n => simp [walkGpt, resetPart]
  rw [start, walkGpt, walked_succ, List.range_add, List.foldl_append, List.foldl_map,
    if_neg (Nat.succ_ne_zero n)]
  apply List.foldl_ext
  intro g' k member
  obtain ⟨sector, slot⟩ := walked_slot (List.mem_range.mp member)
  rw [considerWalk, walkEntry, sector, slot]

/-- The running maximum stays below what no entry passes. -/
theorem walkGpt_bestExtent_le (card : Card) {g : Gpt} (n limit : Nat)
    (start : g.bestExtent.toNat ≤ limit)
    (bounded : ∀ i < walked g n, (walkEntry card g i).blank = false →
      (walkEntry card g i).extent.toNat ≤ limit) :
    (walkGpt card g n).bestExtent.toNat ≤ limit := by
  have reset : (if n = 0 then g else resetPart 0 g).bestExtent.toNat ≤ limit := by
    split <;> exact start
  rw [walkGpt]
  generalize (if n = 0 then g else resetPart 0 g) = first at reset ⊢
  apply List.foldlRecOn (motive := fun (g' : Gpt) => g'.bestExtent.toNat ≤ limit) _ _ reset
  intro g' before i member
  rw [considerWalk, considerEntry]
  split
  · exact before
  · rename_i used
    dsimp only
    split
    · exact bounded i (List.mem_range.mp member) (eq_false_of_ne_true used)
    · exact before

section Delivered
variable {card : Card}

/-- The state a delivered read leaves, the door not armed. -/
theorem stReadSingleBlock_walk {s : Ladder} (delivers : card.outcome s.calls = .delivers)
    (closed : s.driverLbaSet = 0) :
    stReadSingleBlock card s =
      { s with
        readBlock := card.sector (stSectorForRead s.gpt s.readCount)
        readLba := stSectorForRead s.gpt s.readCount
        readCount := s.readCount + 1
        driverGet := 0
        calls := s.calls + 1
        origin := fun _ => some (stSectorForRead s.gpt s.readCount) } := by
  have next : nextLba s = stSectorForRead s.gpt s.readCount := by
    rw [nextLba, if_neg (by rw [closed]; decide)]
  have sent : card.outcome s.calls ≠ .gated := by
    rw [delivers]
    exact Outcome.noConfusion
  rw [stReadSingleBlock_sent card s sent, delivers, next]
  simp only [Outcome.words, moveWords_all, closed]

/-- The state after `n` array sectors, from `s₀` on. -/
structure WalkState (card : Card) (s₀ : Ladder) (n : Nat) (s : Ladder) : Prop where
  readCount : s.readCount = UInt32.ofNat (n + 1)
  closed : s.driverLbaSet = 0
  extSecCount : s.extSecCount = s₀.extSecCount
  calls : s.calls = s₀.calls + n
  shape : SameShape s₀.gpt s.gpt
  gpt : s.gpt = walkGpt card s₀.gpt n

theorem sector_of_walk {g : Gpt} {n : Nat} (inside : n < g.arrayNsec.toNat) :
    stSectorForRead g (UInt32.ofNat (n + 1)) = g.entryLba + UInt32.ofNat n := by
  have nsecLt := g.arrayNsec.toNat_lt
  have fits : n + 1 < 2 ^ 32 := by omega
  have ordinal : (UInt32.ofNat (n + 1)).toNat = n + 1 := UInt32.toNat_ofNat_of_lt' fits
  have some_ : UInt32.ofNat (n + 1) ≥ 1 := by
    rw [ge_iff_le, UInt32.le_iff_toNat_le, ordinal]
    exact Nat.succ_le_succ (Nat.zero_le n)
  have within : UInt32.ofNat (n + 1) ≤ g.arrayNsec := by
    rw [UInt32.le_iff_toNat_le, ordinal]
    exact inside
  have back : UInt32.ofNat (n + 1) - 1 = UInt32.ofNat n := by
    rw [UInt32.ofNat_add]
    exact UInt32.add_sub_cancel _ _
  rw [stSectorForRead, if_pos some_, if_pos within, back]

theorem arrayWalk_succ (card : Card) (n : Nat) (s : Ladder) :
    arrayWalk card (n + 1) s =
      stGptEntryParse card n (stReadSingleBlock card (arrayWalk card n s)) := by
  rw [arrayWalk, List.range_succ, List.foldl_append]
  rfl

theorem WalkState.read {s₀ s : Ladder} {n : Nat} (before : WalkState card s₀ n s)
    (inside : n < s₀.gpt.arrayNsec.toNat) (delivers : card.outcome (s₀.calls + n) = .delivers) :
    stReadSingleBlock card s =
      { s with
        readBlock := card.sector (s₀.gpt.entryLba + UInt32.ofNat n)
        readLba := s₀.gpt.entryLba + UInt32.ofNat n
        readCount := s.readCount + 1
        driverGet := 0
        calls := s.calls + 1
        origin := fun _ => some (s₀.gpt.entryLba + UInt32.ofNat n) } := by
  have lba : stSectorForRead s.gpt s.readCount = s₀.gpt.entryLba + UInt32.ofNat n := by
    rw [before.readCount, sector_of_walk (by rw [before.shape.arrayNsec]; exact inside),
      before.shape.entryLba]
  rw [stReadSingleBlock_walk (by rw [before.calls]; exact delivers) before.closed, lba]

theorem arrayWalk_state {s₀ : Ladder} (first : s₀.readCount = 1) (closed : s₀.driverLbaSet = 0)
    (n : Nat) (inside : n ≤ s₀.gpt.arrayNsec.toNat)
    (delivered : ∀ i < n, card.outcome (s₀.calls + i) = .delivers) :
    WalkState card s₀ n (arrayWalk card n s₀) := by
  induction n with
  | zero =>
      refine ⟨first, closed, rfl, rfl, SameShape.refl _, ?_⟩
      simp [arrayWalk, walkGpt, walked]
  | succ n ih =>
      have before := ih (Nat.le_of_succ_le inside) fun i earlier =>
        delivered i (Nat.lt_succ_of_lt earlier)
      rw [arrayWalk_succ]
      set s := arrayWalk card n s₀ with s_eq
      have read := before.read inside (delivered n (Nat.lt_succ_self n))
      obtain ⟨kept, gpt⟩ := stGptEntryParse_gpt card n (stReadSingleBlock card s)
      have words : readWord card (stReadSingleBlock card s) =
          sectorWord card (s₀.gpt.entryLba + UInt32.ofNat n) := by
        rw [read]
        rfl
      constructor
      case readCount =>
        rw [kept.readCount, read, UInt32.ofNat_add (n + 1), ← before.readCount]
        rfl
      case closed => rw [kept.driverLbaSet, read, before.closed]
      case extSecCount => rw [kept.extSecCount, stReadSingleBlock_extSecCount, before.extSecCount]
      case calls =>
        rw [kept.calls, stReadSingleBlock_calls, before.calls, Nat.add_assoc]
      case shape =>
        have last := kept.shape
        rw [stReadSingleBlock_gpt] at last
        exact before.shape.trans last
      case gpt =>
        rw [gpt, words, stReadSingleBlock_gpt, before.shape.used, before.shape.entryLba,
          before.shape.stride, before.gpt, walkGpt_succ]

end Delivered

end Stage90.Storage

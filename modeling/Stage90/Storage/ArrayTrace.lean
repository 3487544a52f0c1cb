import Stage90.Storage.Walk

/-!
# The words of the walk

Every word that the decodes of a walk read, entry by entry, and the sector each was in.
-/

set_option autoImplicit false

namespace Stage90.Storage

variable {card : Card}

def carriesBefore (card : Card) (g : Gpt) (i : Nat) : Gpt :=
  (List.range i).foldl (considerWalk card g) (resetPart 0 g)

theorem walkGpt_eq (card : Card) (g : Gpt) {n : Nat} (some_ : n ≠ 0) :
    walkGpt card g n = carriesBefore card g (walked g n) := by
  rw [walkGpt, if_neg some_, carriesBefore]

theorem carriesBefore_add {g : Gpt} {n k : Nat} (used : k ≤ nentUsed g n) :
    carriesBefore card g (walked g n + k) =
      (List.range k).foldl (fun g' j => considerEntry (g.entryLba + UInt32.ofNat n) g'
        (entryAt (sectorWord card (g.entryLba + UInt32.ofNat n)) (j * strideWords g)))
        (carriesBefore card g (walked g n)) := by
  rw [carriesBefore, List.range_add, List.foldl_append, List.foldl_map, ← carriesBefore]
  apply List.foldl_ext
  intro g' j member
  obtain ⟨sector, slot⟩ := walked_slot (Nat.lt_of_lt_of_le (List.mem_range.mp member) used)
  rw [considerWalk, walkEntry, sector, slot]

def sectorOf (g : Gpt) (i : Nat) : UInt32 := g.entryLba + UInt32.ofNat (i / sectorCap g)

/-- The word of its sector where entry `i` begins. -/
def offsetOf (g : Gpt) (i : Nat) : Nat := i % sectorCap g * strideWords g

theorem offsetOf_le {g : Gpt} (some_ : strideWords g ≠ 0) (room : sectorCap g ≠ 0) (i : Nat) :
    offsetOf g i + strideWords g ≤ 128 := by
  have slot := Nat.mod_lt i (Nat.pos_of_ne_zero room)
  have cap : sectorCap g = 128 / strideWords g := by rw [sectorCap, if_pos some_]
  calc offsetOf g i + strideWords g = (i % sectorCap g + 1) * strideWords g := by
        rw [offsetOf, Nat.succ_mul]
    _ ≤ sectorCap g * strideWords g := Nat.mul_le_mul_right _ slot
    _ ≤ 128 := by
        rw [cap]
        exact Nat.div_mul_le_self 128 (strideWords g)

/-- The decodes of entry `i`. -/
def entryLog (card : Card) (g : Gpt) (i : Nat) : List Decode :=
  (entryReads (offsetOf g i) ((walkEntry card g i).selects (carriesBefore card g i))).map fun w =>
    ⟨w, sectorOf g i, if w < 128 then some (sectorOf g i) else none⟩

theorem parseEntry_decoded (secIdx stride k : Nat) (s : Ladder) :
    (parseEntry card secIdx stride s k).decoded =
      s.decoded ++ (entryReads (k * stride)
        ((entryAt (readWord card s) (k * stride)).selects s.gpt)).map fun w =>
          ⟨w, s.gpt.entryLba + UInt32.ofNat secIdx, originOf s w⟩ := rfl

/-- The decodes of one sector, in terms of the state that it is decoded in. -/
theorem parseEntries_decoded (secIdx stride m : Nat) (s : Ladder) :
    ((List.range m).foldl (parseEntry card secIdx stride) s).decoded =
      s.decoded ++ (List.range m).flatMap fun k =>
        (entryReads (k * stride) ((entryAt (readWord card s) (k * stride)).selects
          ((List.range k).foldl (fun g k => considerEntry (s.gpt.entryLba + UInt32.ofNat secIdx) g
            (entryAt (readWord card s) (k * stride))) s.gpt))).map fun w =>
          ⟨w, s.gpt.entryLba + UInt32.ofNat secIdx, originOf s w⟩ := by
  induction m with
  | zero => exact (List.append_nil _).symm
  | succ m ih =>
      obtain ⟨kept, gpt⟩ := parseEntries_gpt card secIdx stride (List.range m) s
      have origin : originOf ((List.range m).foldl (parseEntry card secIdx stride) s) = originOf s := by
        funext w
        rw [originOf, originOf, kept.origin]
      have lba : ((List.range m).foldl (parseEntry card secIdx stride) s).gpt.entryLba = s.gpt.entryLba :=
        kept.shape.entryLba
      rw [List.range_succ, List.foldl_append, List.flatMap_append, ← List.append_assoc, ← ih,
        List.foldl_cons, List.foldl_nil, parseEntry_decoded, readWord_kept card kept, origin, lba, gpt,
        List.flatMap_singleton]

theorem stGptEntryParse_decoded (secIdx : Nat) (s : Ladder) :
    (stGptEntryParse card secIdx s).decoded =
      s.decoded ++ (List.range (nentUsed s.gpt secIdx)).flatMap fun k =>
        (entryReads (k * strideWords s.gpt) ((entryAt (readWord card s) (k * strideWords s.gpt)).selects
          ((List.range k).foldl (fun g k => considerEntry (s.gpt.entryLba + UInt32.ofNat secIdx) g
            (entryAt (readWord card s) (k * strideWords s.gpt))) (resetPart secIdx s.gpt)))).map fun w =>
          ⟨w, s.gpt.entryLba + UInt32.ofNat secIdx, originOf s w⟩ := by
  rw [stGptEntryParse]
  dsimp only
  rw [parseEntries_decoded]
  by_cases first : secIdx = 0
  · rw [if_pos first, resetPart, if_pos first]
    rfl
  · rw [if_neg first, resetPart, if_neg first]

theorem arrayWalk_decoded {s₀ : Ladder} (first : s₀.readCount = 1) (closed : s₀.driverLbaSet = 0)
    (n : Nat) (inside : n ≤ s₀.gpt.arrayNsec.toNat)
    (delivered : ∀ i < n, card.outcome (s₀.calls + i) = .delivers) :
    (arrayWalk card n s₀).decoded =
      s₀.decoded ++ (List.range (walked s₀.gpt n)).flatMap (entryLog card s₀.gpt) := by
  induction n with
  | zero => simp [arrayWalk, walked]
  | succ n ih =>
      have earlier : ∀ i < n, card.outcome (s₀.calls + i) = .delivers := fun i below =>
        delivered i (Nat.lt_succ_of_lt below)
      have before := arrayWalk_state first closed n (Nat.le_of_succ_le inside) earlier
      have read := before.read inside (delivered n (Nat.lt_succ_self n))
      generalize state_ : stReadSingleBlock card (arrayWalk card n s₀) = s at read
      have gpt : s.gpt = (arrayWalk card n s₀).gpt := by rw [read]
      have decoded : s.decoded = (arrayWalk card n s₀).decoded := by rw [read]
      have words : readWord card s = sectorWord card (s₀.gpt.entryLba + UInt32.ofNat n) := by
        rw [read]
        rfl
      have found : originOf s = fun w =>
          if w < 128 then some (s₀.gpt.entryLba + UInt32.ofNat n) else none := by
        funext w
        rw [read, originOf]
        rfl
      have reset : resetPart n s.gpt = carriesBefore card s₀.gpt (walked s₀.gpt n) := by
        rw [gpt, before.gpt]
        by_cases zero : n = 0
        · subst zero
          simp [walkGpt, walked, carriesBefore]
        · rw [resetPart, if_neg zero, walkGpt_eq card s₀.gpt zero]
      rw [arrayWalk_succ, state_, stGptEntryParse_decoded, words, found, reset, gpt, before.shape.used,
        before.shape.entryLba, before.shape.stride, decoded, ih (Nat.le_of_succ_le inside) earlier,
        walked_succ, List.range_add, List.flatMap_append, List.flatMap_map, List.append_assoc]
      congr 2
      apply List.flatMap_congr
      intro k there
      have used := List.mem_range.mp there
      obtain ⟨sector, slot⟩ := walked_slot used
      rw [entryLog, offsetOf, sectorOf, walkEntry, sector, slot, carriesBefore_add (Nat.le_of_lt used)]

end Stage90.Storage

import Stage90.Storage.ArrayTrace
import Stage90.Storage.Selection

/-!
# The array as one fold

What the carries are after the walk over a whole array, entry by entry, and which entries are decoded:
each of the header's, once, out of its own sector.
-/

set_option autoImplicit false

namespace Stage90.Storage

open Stage90.Lib

variable {card : Card} {g g' : Gpt} {m n : Nat}

/-! ## The carries -/

def extents (card : Card) (g : Gpt) (m : Nat) : List Nat :=
  (List.range m).filter fun i =>
    !(walkEntry card g i).blank && decide ((walkEntry card g i).first ≤ (walkEntry card g i).last)

def extentOf (card : Card) (g : Gpt) (i : Nat) : Nat := (walkEntry card g i).extent.toNat

def firstStart (card : Card) (g : Gpt) (m : Nat) : UInt32 :=
  ((List.range m).find? fun i =>
    !(walkEntry card g i).blank && decide ((walkEntry card g i).first ≠ 0)).elim 0
      fun i => (walkEntry card g i).first

structure TakenFrom (card : Card) (g : Gpt) (i : Nat) (g' : Gpt) : Prop where
  dataSector : g'.dataSector = (walkEntry card g i).first
  dataType : g'.dataType = (walkEntry card g i).type
  dataName : g'.dataName = (walkEntry card g i).name
  scanSector : g'.scanSector = g.entryLba + UInt32.ofNat (i / sectorCap g)

/-- The largest extent, and where it is not zero the first entry that has it. -/
def LargestExtent (card : Card) (g : Gpt) (m : Nat) (g' : Gpt) : Prop :=
  (extents card g m = [] ∧ g'.bestExtent = 0) ∨
    ∃ i, FirstMax (extentOf card g) (extents card g m) i ∧ g'.bestExtent.toNat = extentOf card g i ∧
      (g'.bestExtent ≠ 0 → TakenFrom card g i g')

/-- The carries after `m` entries. -/
structure Folded (card : Card) (g : Gpt) (m : Nat) (g' : Gpt) : Prop where
  part : g'.partSector = firstStart card g m
  largest : LargestExtent card g m g'

theorem extents_succ (card : Card) (g : Gpt) (m : Nat) :
    extents card g (m + 1) = extents card g m ++
      if (walkEntry card g m).blank = false ∧ (walkEntry card g m).first ≤ (walkEntry card g m).last then [m]
      else [] := by
  rw [extents, List.range_succ, List.filter_append, extents]
  congr 1
  by_cases counts : (walkEntry card g m).blank = false ∧
      (walkEntry card g m).first ≤ (walkEntry card g m).last
  · rw [if_pos counts]
    simp [counts.1, counts.2]
  · rw [if_neg counts, List.filter_eq_nil_iff]
    intro i there
    rw [List.mem_singleton.mp there]
    simpa using counts

theorem extent_eq_zero {e : Entry} (backwards : ¬ e.first ≤ e.last) : e.extent = 0 := by
  rw [Entry.extent, if_neg backwards]

theorem firstStart_succ (card : Card) (g : Gpt) (m : Nat) :
    firstStart card g (m + 1) =
      if (walkEntry card g m).blank = false ∧ firstStart card g m = 0 then (walkEntry card g m).first
      else firstStart card g m := by
  rw [firstStart, List.range_succ, List.find?_append, firstStart]
  generalize found_ : (List.range m).find? (fun i =>
    !(walkEntry card g i).blank && decide ((walkEntry card g i).first ≠ 0)) = found
  cases found with
  | some i =>
      have some_ := List.find?_some found_
      simp only [Bool.and_eq_true, decide_eq_true_eq] at some_
      rw [Option.some_or, Option.elim_some, if_neg fun both => some_.2 both.2]
  | none =>
      rw [Option.none_or, Option.elim_none]
      by_cases used : (walkEntry card g m).blank = false
      · rw [if_pos ⟨used, rfl⟩]
        by_cases zero : (walkEntry card g m).first = 0
        · simp [used, zero]
        · simp [used, zero]
      · rw [if_neg fun both => used both.1]
        simp [eq_true_of_ne_false used]

theorem Folded.step (before : Folded card g m g') : Folded card g (m + 1) (considerWalk card g g' m) := by
  have part := before.part
  rw [considerWalk, considerEntry]
  by_cases unused : (walkEntry card g m).blank = true
  · have same : extents card g (m + 1) = extents card g m := by
      rw [extents_succ, if_neg (fun both => absurd (both.1.symm.trans unused) Bool.false_ne_true),
        List.append_nil]
    rw [if_pos unused]
    refine ⟨?_, ?_⟩
    · rw [firstStart_succ, if_neg (fun both => absurd (both.1.symm.trans unused) Bool.false_ne_true), part]
    · rw [LargestExtent, same]
      exact before.largest
  · have used : (walkEntry card g m).blank = false := eq_false_of_ne_true unused
    rw [if_neg unused]
    dsimp only
    have start : firstStart card g (m + 1) =
        if g'.partSector = 0 then (walkEntry card g m).first else g'.partSector := by
      rw [firstStart_succ, part]
      by_cases zero : firstStart card g m = 0
      · rw [if_pos ⟨used, zero⟩, if_pos zero]
      · rw [if_neg fun both => zero both.2, if_neg zero]
    by_cases larger : (walkEntry card g m).extent > g'.bestExtent
    · rw [if_pos larger]
      refine ⟨start.symm, .inr ⟨m, ?_, rfl, fun _ => ⟨rfl, rfl, rfl, rfl⟩⟩⟩
      have forwards : (walkEntry card g m).first ≤ (walkEntry card g m).last := by
        by_contra backwards
        rw [extent_eq_zero backwards] at larger
        exact absurd larger UInt32.not_lt_zero
      have more : g'.bestExtent.toNat < extentOf card g m := UInt32.lt_iff_toNat_lt.mp larger
      rw [extents_succ, if_pos ⟨used, forwards⟩]
      rcases before.largest with ⟨none_, -⟩ | ⟨i, first, best, -⟩
      · rw [none_, List.nil_append]
        refine ⟨[], [], rfl, ?_, ?_⟩
        · exact fun x there => absurd there List.not_mem_nil
        · exact fun x there => absurd there List.not_mem_nil
      · have next := first.snoc m
        rwa [if_pos (by omega)] at next
    · rw [if_neg larger]
      refine ⟨start.symm, ?_⟩
      have most : extentOf card g m ≤ g'.bestExtent.toNat :=
        UInt32.le_iff_toNat_le.mp (UInt32.not_lt.mp larger)
      rw [LargestExtent, extents_succ]
      by_cases forwards : (walkEntry card g m).first ≤ (walkEntry card g m).last
      · rw [if_pos ⟨used, forwards⟩]
        right
        rcases before.largest with ⟨none_, zero⟩ | ⟨i, first, best, taken⟩
        · rw [none_, List.nil_append]
          rw [zero, UInt32.toNat_zero] at most
          refine ⟨m, ⟨[], [], rfl, ?_, ?_⟩, ?_, fun some_ => absurd zero some_⟩
          · exact fun x there => absurd there List.not_mem_nil
          · exact fun x there => absurd there List.not_mem_nil
          · dsimp only
            rw [zero, UInt32.toNat_zero]
            omega
        · have next := first.snoc m
          rw [if_neg (by omega)] at next
          refine ⟨i, next, best, fun some_ => ?_⟩
          obtain ⟨sector, type, name, scan⟩ := taken some_
          exact ⟨sector, type, name, scan⟩
      · rw [if_neg fun both => forwards both.2, List.append_nil]
        rcases before.largest with ⟨none_, zero⟩ | ⟨i, first, best, taken⟩
        · exact .inl ⟨none_, zero⟩
        · right
          refine ⟨i, first, best, fun some_ => ?_⟩
          obtain ⟨sector, type, name, scan⟩ := taken some_
          exact ⟨sector, type, name, scan⟩

theorem Folded.start (part : g'.partSector = 0) (best : g'.bestExtent = 0) : Folded card g 0 g' :=
  ⟨part, .inl ⟨rfl, best⟩⟩

theorem foldl_folded (start : Folded card g 0 g') (m : Nat) :
    Folded card g m ((List.range m).foldl (considerWalk card g) g') := by
  induction m with
  | zero => exact start
  | succ m ih =>
      rw [List.range_succ, List.foldl_append]
      exact ih.step

/-! ## The decodes -/

def heads (stride : Nat) (decoded : List Decode) : List Decode :=
  decoded.filter fun d => decide (d.word % stride = 0)

/-- The decode of the first word of entry `i` out of the sector of the array that has it. -/
def headOf (g : Gpt) (i : Nat) : Decode where
  word := i % sectorCap g * strideWords g
  wanted := g.entryLba + UInt32.ofNat (i / sectorCap g)
  found := some (g.entryLba + UInt32.ofNat (i / sectorCap g))

theorem heads_append (stride : Nat) (xs ys : List Decode) :
    heads stride (xs ++ ys) = heads stride xs ++ heads stride ys := List.filter_append ..

theorem heads_reads {stride : Nat} (wide : 18 ≤ stride) (k : Nat) (selects : Bool)
    (decode : Nat → Decode) (word : ∀ i, (decode i).word = i) :
    heads stride ((entryReads (k * stride) selects).map decode) = [decode (k * stride)] := by
  have first : k * stride % stride = 0 := Nat.mul_mod_left k stride
  have later : ∀ j, j ≠ 0 → j < 18 → ¬ (k * stride + j) % stride = 0 := by
    intro j some_ small
    rw [Nat.mul_comm, Nat.mul_add_mod, Nat.mod_eq_of_lt (by omega)]
    exact some_
  have rest : ∀ i ∈ ([k * stride + 1, k * stride + 2, k * stride + 3, k * stride + 8, k * stride + 10] ++
      if selects then [k * stride + 14, k * stride + 15, k * stride + 16, k * stride + 17] else []),
      ¬ i % stride = 0 := by
    intro i there
    cases selects with
    | true =>
        simp only [if_true, List.cons_append, List.nil_append, List.mem_cons, List.not_mem_nil, or_false]
          at there
        rcases there with rfl | rfl | rfl | rfl | rfl | rfl | rfl | rfl | rfl
        all_goals exact later _ (by decide) (by decide)
    | false =>
        rw [if_neg Bool.false_ne_true, List.append_nil] at there
        simp only [List.mem_cons, List.not_mem_nil, or_false] at there
        rcases there with rfl | rfl | rfl | rfl | rfl
        all_goals exact later _ (by decide) (by decide)
  rw [heads, entryReads, List.cons_append, List.map_cons, List.filter_cons_of_pos, List.filter_eq_nil_iff.mpr]
  · intro d there
    obtain ⟨i, member, rfl⟩ := List.mem_map.mp there
    rw [word, decide_eq_true_iff]
    exact rest i member
  · rw [word, first]
    exact decide_eq_true rfl

theorem entryLog_heads (walkable : Walkable g) (i : Nat) :
    heads (strideWords g) (entryLog card g i) = [headOf g i] := by
  obtain ⟨whole, wide⟩ := walkable.stride_cap
  have room : sectorCap g ≠ 0 := by
    intro none_
    rw [none_, Nat.mul_zero] at whole
    exact absurd whole (by decide)
  have inBuffer := offsetOf_le (g := g) (by omega) room i
  rw [entryLog, offsetOf, heads_reads (by omega) _ _ _ fun w => rfl, headOf]
  rw [offsetOf] at inBuffer
  rw [if_pos (by omega)]
  rfl

theorem flatMap_heads (walkable : Walkable g) (is : List Nat) :
    heads (strideWords g) (is.flatMap (entryLog card g)) = is.map (headOf g) := by
  induction is with
  | nil => rfl
  | cons i is ih =>
      rw [List.flatMap_cons, heads_append, entryLog_heads walkable, ih, List.map_cons]
      rfl

/-! ## The whole array -/

/-- The walk over an array that the header declares leaves the carries of the fold over all of its
entries, and decodes each of them once. -/
theorem array_walk_folds (card : Card) (s : Ladder) (first : s.readCount = 1) (closed : s.driverLbaSet = 0)
    (delivered : ∀ i, card.outcome i = .delivers)
    (size : (stGptParse card s).gpt.entrySize.toNat = 128 ∨ (stGptParse card s).gpt.entrySize.toNat = 256 ∨
      (stGptParse card s).gpt.entrySize.toNat = 512)
    (sectors : (stGptParse card s).gpt.nentries.toNat * (stGptParse card s).gpt.entrySize.toNat ≤ 32 * 512) :
    let start := stGptParse card s
    let n := start.gpt.nentries.toNat
    let final := arrayWalk card start.gpt.arrayNsec.toNat start
    (0 < n → final.gpt.partSector = firstStart card start.gpt n) ∧
      LargestExtent card start.gpt n final.gpt ∧
      heads (strideWords start.gpt) final.decoded =
        heads (strideWords start.gpt) start.decoded ++ (List.range n).map (headOf start.gpt) := by
  intro start n final
  have walkable : Walkable start.gpt := ⟨size, sectors, rfl⟩
  have opened : start.readCount = 1 := first
  have doorClosed : start.driverLbaSet = 0 := closed
  have arrived := arrayWalk_state opened doorClosed start.gpt.arrayNsec.toNat (Nat.le_refl _)
    fun i _ => delivered (start.calls + i)
  have all := walkable.walked_all
  have decodes : heads (strideWords start.gpt) final.decoded = _ := congrArg (heads (strideWords start.gpt))
    (arrayWalk_decoded opened doorClosed start.gpt.arrayNsec.toNat (Nat.le_refl _)
      fun i _ => delivered (start.calls + i))
  rw [heads_append, flatMap_heads walkable, all] at decodes
  have carries : final.gpt = _ := arrived.gpt
  rw [walkGpt, all] at carries
  have best : start.gpt.bestExtent = 0 := rfl
  by_cases empty : n = 0
  · refine ⟨fun some_ => absurd empty (Nat.ne_of_gt some_), ?_, decodes⟩
    have zero : start.gpt.nentries.toNat = 0 := empty
    have none_ : start.gpt.arrayNsec.toNat = 0 := by
      rw [walkable.nsec_eq, zero, Nat.zero_mul]
    rw [none_, if_pos rfl, zero] at carries
    rw [empty]
    refine .inl ⟨rfl, ?_⟩
    rw [carries]
    exact best
  · have some_ : start.gpt.arrayNsec.toNat ≠ 0 := by
      have entries : 1 ≤ start.gpt.nentries.toNat := Nat.one_le_iff_ne_zero.mpr empty
      have bytes := Nat.mul_le_mul entries (Nat.le_refl start.gpt.entrySize.toNat)
      rw [walkable.nsec_eq]
      have positive : 1 ≤ start.gpt.entrySize.toNat := by
        have sizes := walkable.size
        omega
      omega
    rw [if_neg some_] at carries
    have begun : Folded card start.gpt 0 (resetPart 0 start.gpt) := Folded.start rfl best
    have folded := foldl_folded begun n
    rw [← carries] at folded
    exact ⟨fun _ => folded.part, folded.largest, decodes⟩

/-- Entries of 128 bytes at LBA 2, four in a sector. -/
def tableCard (entries : List (UInt32 × UInt32)) : Card where
  sector lba i :=
    if lba = 1 then
      if i = 18 then 2 else if i = 20 then UInt32.ofNat entries.length else if i = 21 then 128 else 0
    else
      let e := entries.getD ((lba.toNat - 2) * 4 + i / 32) (0, 0)
      if i.1 % 32 = 0 then 1 else if i.1 % 32 = 8 then e.1 else if i.1 % 32 = 10 then e.2 else 0
  outcome _ := .delivers
  beyond _ := 0

/-- Two entries of the largest extent, one in each sector of the array, and one that ends before
it starts. -/
def twoSectorCard : Card :=
  tableCard [(0, 9), (34, 40), (100, 159), (200, 120), (300, 359), (400, 405)]

theorem array_walk_folds_two_sectors :
    let start := headerRead twoSectorCard (bootLadder 1024)
    let final := arrayWalk twoSectorCard 2 start
    final.gpt.partSector = 34 ∧ final.gpt.bestExtent.toNat = 59 ∧
      TakenFrom twoSectorCard start.gpt 2 final.gpt ∧
      heads 32 final.decoded = heads 32 start.decoded ++ (List.range 6).map (headOf start.gpt) := by
  intro start final
  have walk := array_walk_folds twoSectorCard (stReadSingleBlock twoSectorCard (bootLadder 1024))
    rfl rfl (fun _ => rfl) (by decide) (by decide)
  have header : stGptParse twoSectorCard (stReadSingleBlock twoSectorCard (bootLadder 1024)) = start :=
    rfl
  have entries : start.gpt.nentries.toNat = 6 := by decide
  have sectors : start.gpt.arrayNsec.toNat = 2 := by decide
  have stride : strideWords start.gpt = 32 := by decide
  have arrived : arrayWalk twoSectorCard 2 start = final := rfl
  dsimp only at walk
  rw [header, entries, sectors, stride, arrived] at walk
  obtain ⟨part, largest, decodes⟩ := walk
  have third : FirstMax (extentOf twoSectorCard start.gpt) (extents twoSectorCard start.gpt 6) 2 := by
    have five : extents twoSectorCard start.gpt 6 = [0, 1] ++ 2 :: [4, 5] := by decide
    rw [five]
    exact ⟨[0, 1], [4, 5], rfl, by decide, by decide⟩
  have extent : extentOf twoSectorCard start.gpt 2 = 59 := by decide
  have second : firstStart twoSectorCard start.gpt 6 = 34 := by decide
  rw [second] at part
  clear_value final
  obtain ⟨none_, -⟩ | ⟨i, first, best, taken⟩ := largest
  · have member := third.mem
    rw [none_] at member
    exact absurd member List.not_mem_nil
  · have same : i = 2 := first.unique third
    rw [same] at best taken
    rw [extent] at best
    refine ⟨part (by decide), best, taken ?_, decodes⟩
    intro zero
    rw [zero] at best
    exact absurd best (by decide)

/-- An entry from sector 2^32 + 34 to sector 2^32 + 40. -/
def wideEntryCard : Card where
  sector lba i :=
    if lba = 2 ∧ (i = 9 ∨ i = 11) then 1 else (tableCard [(34, 40)]).sector lba i
  outcome _ := .delivers
  beyond _ := 0

/-- Only the low word of an entry's `StartingLBA` is carried. -/
theorem wide_start_not_carried :
    ¬ ∀ (card : Card) (capacity : UInt32), (∀ i, card.outcome i = .delivers) → HoldsTable card →
      ∀ e, (table card).find? (fun e => !e.blank && decide (e.startingLba ≠ 0)) = some e →
        let start := headerRead card (bootLadder capacity)
        (arrayWalk card start.gpt.arrayNsec.toNat start).gpt.partSector.toNat = e.startingLba := by
  intro carried
  have holds : HoldsTable wideEntryCard := by
    have header : headerOf wideEntryCard = ⟨2, 1, 128⟩ := rfl
    constructor <;> rw [header] <;> decide
  have first : (table wideEntryCard).find? (fun e => !e.blank && decide (e.startingLba ≠ 0)) =
      some (partitionEntry wideEntryCard 0) := List.find?_cons_of_pos (by decide)
  have same := carried wideEntryCard 1024 (fun _ => rfl) holds _ first
  exact absurd same (by decide)

end Stage90.Storage

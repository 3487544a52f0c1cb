import Mathlib.Logic.Function.Basic
import Mathlib.Tactic.Linarith
import Mathlib.Tactic.SplitIfs

/-!
# The memory-region walk

`xnu_memory_regions.c`: the `/memory/reg` words as base/size pairs, the boot region
first.  The overlap test is 32-bit arithmetic, so it is exact for regions that end
below `2 ^ 32` and misses overlaps past it; a table shorter than the list is filled as far as it goes.
-/

set_option autoImplicit false

namespace Stage90.Regions

structure XnuMemRegion where
  base : UInt32
  size : UInt32
  deriving DecidableEq, Repr

/-- `reg_words[i * 2u]` and `reg_words[i * 2u + 1u]`. -/
def regPair (regWords : Nat → UInt32) (i : Nat) : XnuMemRegion :=
  ⟨regWords (i * 2), regWords (i * 2 + 1)⟩

/-- The walk's test, in the width of the words. -/
def overlaps (r earlier : XnuMemRegion) : Bool :=
  r.base < earlier.base + earlier.size && earlier.base < r.base + r.size

/-- `regions == NULL` is `none`. -/
abbrev Table := Option (Nat → XnuMemRegion)

def storeRegion (regions : Table) (maxRegions i : Nat) (r : XnuMemRegion) : Table :=
  regions.map fun table => if i < maxRegions then Function.update table i r else table

/-- The loop over the pairs from `i`, `left` of them to go; `false` is a refusal. -/
def walkPairs (regWords : Nat → UInt32) (maxRegions : Nat) : Nat → Nat → Table → Bool × Table
  | 0, _, regions => (true, regions)
  | left + 1, i, regions =>
      let r := regPair regWords i
      if r.size = 0 then (false, regions)
      else if (List.range i).any fun j => overlaps r (regPair regWords j) then (false, regions)
      else walkPairs regWords maxRegions left (i + 1) (storeRegion regions maxRegions i r)

/-- The region count, 0 on a refusal, and what the call leaves in `regions`. -/
def xnuMemoryRegionsWalk (regWords : Option (Nat → UInt32)) (wordCount bootBase : UInt32)
    (regions : Table) (maxRegions : UInt32) : UInt32 × Table :=
  match regWords with
  | none => (0, regions)
  | some regWords =>
      if wordCount < 2 ∨ wordCount &&& 1 ≠ 0 then (0, regions)
      else if regWords 0 ≠ bootBase then (0, regions)
      else
        let pairs := wordCount >>> 1
        match walkPairs regWords maxRegions.toNat pairs.toNat 0 regions with
        | (true, regions) => (pairs, regions)
        | (false, regions) => (0, regions)

/-! ## Regions as intervals -/

def XnuMemRegion.limit (r : XnuMemRegion) : Nat := r.base.toNat + r.size.toNat

def XnuMemRegion.Disjoint (a b : XnuMemRegion) : Prop :=
  a.limit ≤ b.base.toNat ∨ b.limit ≤ a.base.toNat

def XnuMemRegion.wrappedLimit (r : XnuMemRegion) : Nat := r.limit % 2 ^ 32

theorem overlaps_eq_false_iff_wrapped {a b : XnuMemRegion} :
    overlaps a b = false ↔ b.wrappedLimit ≤ a.base.toNat ∨ a.wrappedLimit ≤ b.base.toNat := by
  simp only [overlaps, XnuMemRegion.wrappedLimit, XnuMemRegion.limit, Bool.and_eq_false_iff,
    decide_eq_false_iff_not, UInt32.lt_iff_toNat_lt, UInt32.toNat_add, Nat.not_lt]

theorem overlaps_eq_false_iff {a b : XnuMemRegion} (ha : a.limit < 2 ^ 32)
    (hb : b.limit < 2 ^ 32) : overlaps a b = false ↔ a.Disjoint b := by
  rw [overlaps_eq_false_iff_wrapped, XnuMemRegion.wrappedLimit, XnuMemRegion.wrappedLimit,
    Nat.mod_eq_of_lt ha, Nat.mod_eq_of_lt hb, XnuMemRegion.Disjoint, or_comm]

/-- The wrap takes an end back, so the test finds no overlap that is not there. -/
theorem overlaps_eq_false_of_disjoint {a b : XnuMemRegion} (disjoint : a.Disjoint b) :
    overlaps a b = false := by
  have endA : a.wrappedLimit ≤ a.limit := Nat.mod_le _ _
  have endB : b.wrappedLimit ≤ b.limit := Nat.mod_le _ _
  rw [overlaps_eq_false_iff_wrapped]
  exact disjoint.symm.imp endB.trans endA.trans

/-- A region that ends at `2 ^ 32` overlaps nothing. -/
theorem overlaps_top {a b : XnuMemRegion} (top : a.limit = 2 ^ 32) : overlaps a b = false := by
  rw [overlaps_eq_false_iff_wrapped, XnuMemRegion.wrappedLimit, XnuMemRegion.wrappedLimit, top,
    Nat.mod_self]
  exact Or.inr (Nat.zero_le _)

/-- A region that goes past `2 ^ 32` overlaps those only that also start below what is left. -/
theorem overlaps_past {a b : XnuMemRegion} (past : 2 ^ 32 < a.limit) (inside : b.limit < 2 ^ 32) :
    overlaps a b = true ↔ ¬ a.Disjoint b ∧ b.base.toNat < a.limit - 2 ^ 32 := by
  have small := a.base.toNat_lt
  have short := a.size.toNat_lt
  have place := b.base.toNat_lt
  have left : a.wrappedLimit = a.limit - 2 ^ 32 := by
    rw [XnuMemRegion.wrappedLimit, Nat.mod_eq_sub_mod (Nat.le_of_lt past), Nat.mod_eq_of_lt]
    rw [XnuMemRegion.limit]
    omega
  rw [← not_iff_not, Bool.not_eq_true, overlaps_eq_false_iff_wrapped, left,
    XnuMemRegion.wrappedLimit, Nat.mod_eq_of_lt inside, XnuMemRegion.Disjoint]
  omega

/-! ## The loop -/

def PairAccepted (regWords : Nat → UInt32) (i : Nat) : Prop :=
  (regPair regWords i).size ≠ 0 ∧ ∀ j < i, overlaps (regPair regWords i) (regPair regWords j) = false

section Walk
variable (regWords : Nat → UInt32) (maxRegions : Nat)

theorem walkPairs_accepts (left i : Nat) (regions : Table) :
    (walkPairs regWords maxRegions left i regions).1 = true ↔
      ∀ k, i ≤ k → k < i + left → PairAccepted regWords k := by
  induction left generalizing i regions with
  | zero => simp only [walkPairs, true_iff]; omega
  | succ left ih =>
      have split : (∀ k, i ≤ k → k < i + (left + 1) → PairAccepted regWords k) ↔
          PairAccepted regWords i ∧ ∀ k, i + 1 ≤ k → k < i + 1 + left → PairAccepted regWords k := by
        constructor
        · exact fun all => ⟨all i (by omega) (by omega), fun k low high => all k (by omega) (by omega)⟩
        · rintro ⟨first, rest⟩ k low high
          by_cases here : k = i
          · exact here ▸ first
          · exact rest k (by omega) (by omega)
      rw [split, walkPairs]
      by_cases empty : (regPair regWords i).size = 0
      · simp [PairAccepted, empty]
      · by_cases clash : (List.range i).any fun j => overlaps (regPair regWords i) (regPair regWords j)
        · have refused : ¬ PairAccepted regWords i := by
            rintro ⟨_, clear⟩
            obtain ⟨j, hj, hit⟩ := List.any_eq_true.mp clash
            simp [clear j (List.mem_range.mp hj)] at hit
          simp [empty, clash, refused]
        · have accepted : PairAccepted regWords i := by
            refine ⟨empty, fun j hj => ?_⟩
            by_contra hit
            exact clash (List.any_eq_true.mpr ⟨j, List.mem_range.mpr hj, by simpa using hit⟩)
          simp only [empty, clash, if_false, accepted, true_and, Bool.false_eq_true]
          exact ih (i + 1) _

theorem walkPairs_table (left i : Nat) (regions : Table)
    (accepted : (walkPairs regWords maxRegions left i regions).1 = true) :
    (walkPairs regWords maxRegions left i regions).2 = regions.map fun table k =>
      if i ≤ k ∧ k < i + left ∧ k < maxRegions then regPair regWords k else table k := by
  induction left generalizing i regions with
  | zero =>
      have none : ∀ k, ¬ (i ≤ k ∧ k < i + 0 ∧ k < maxRegions) := by omega
      simp only [walkPairs, none, if_false]
      cases regions <;> rfl
  | succ left ih =>
      rw [walkPairs] at accepted ⊢
      split_ifs at accepted ⊢ with empty clash
      rw [ih _ _ accepted, storeRegion, Option.map_map]
      congr 1
      funext table k
      simp only [Function.comp]
      by_cases here : k = i
      · subst here
        by_cases room : k < maxRegions <;> simp [room]
      · have same : (i + 1 ≤ k ∧ k < i + 1 + left ∧ k < maxRegions) ↔
            (i ≤ k ∧ k < i + (left + 1) ∧ k < maxRegions) := by omega
        by_cases room : i < maxRegions
        · simp only [room, if_true, Function.update_of_ne here, same]
        · simp only [room, if_false, same]

end Walk

/-! ## The walk -/

/-- The lists the accessor stands for: whole non-empty pairwise disjoint regions, the boot
region first. -/
structure RegionList (regWords : Nat → UInt32) (wordCount bootBase : UInt32) : Prop where
  pair : 2 ≤ wordCount.toNat
  even : wordCount.toNat % 2 = 0
  boot : regWords 0 = bootBase
  nonempty : ∀ i < wordCount.toNat / 2, (regPair regWords i).size ≠ 0
  disjoint : ∀ i < wordCount.toNat / 2, ∀ j < i, (regPair regWords i).Disjoint (regPair regWords j)

section Exact
variable (regWords : Nat → UInt32) (wordCount bootBase : UInt32) (regions : Table)
  (maxRegions : UInt32)

theorem pairs_toNat : (wordCount >>> 1).toNat = wordCount.toNat / 2 := by
  rw [UInt32.toNat_shiftRight, Nat.shiftRight_eq_div_pow]
  rfl

theorem even_iff : wordCount &&& 1 = 0 ↔ wordCount.toNat % 2 = 0 := by
  rw [← UInt32.toNat_inj, UInt32.toNat_and]
  show wordCount.toNat &&& 1 = 0 ↔ _
  rw [Nat.and_one_is_mod]

/-- What the walk tests, before any interpretation of the overlap test. -/
theorem walk_ne_zero_iff :
    (xnuMemoryRegionsWalk (some regWords) wordCount bootBase regions maxRegions).1 ≠ 0 ↔
      2 ≤ wordCount.toNat ∧ wordCount.toNat % 2 = 0 ∧ regWords 0 = bootBase ∧
        ∀ i < wordCount.toNat / 2, PairAccepted regWords i := by
  have accepts := walkPairs_accepts regWords maxRegions.toNat (wordCount >>> 1).toNat 0 regions
  rw [pairs_toNat] at accepts
  have two : wordCount < 2 ↔ wordCount.toNat < 2 := UInt32.lt_iff_toNat_lt
  simp only [xnuMemoryRegionsWalk, two]
  by_cases short : wordCount.toNat < 2
  · simp only [short, true_or, if_true, ne_eq, not_true_eq_false, false_iff]
    omega
  by_cases odd : wordCount &&& 1 ≠ 0
  · have notEven := mt (even_iff wordCount).mpr odd
    simp [odd, notEven]
  rw [not_not] at odd
  have even := (even_iff wordCount).mp odd
  by_cases boot : regWords 0 = bootBase
  swap
  · simp [short, odd, boot]
  have positive : wordCount >>> 1 ≠ 0 := by
    intro zero
    have := congrArg UInt32.toNat zero
    rw [pairs_toNat] at this
    have nothing : (0 : UInt32).toNat = 0 := rfl
    omega
  simp only [short, odd, boot, ne_eq, not_true_eq_false, or_self, if_false, pairs_toNat]
  rcases result : walkPairs regWords maxRegions.toNat (wordCount.toNat / 2) 0 regions with
    ⟨accepted, filled⟩
  rw [result] at accepts
  cases accepted with
  | true =>
      have all := accepts.mp rfl
      simp only [positive, not_false_eq_true, true_iff]
      exact ⟨by omega, even, trivial, fun i hi => all i (Nat.zero_le i) (by omega)⟩
  | false =>
      simp only [not_true_eq_false, false_iff]
      rintro ⟨_, _, _, all⟩
      have := accepts.mpr fun k _ hk => all k (by omega)
      cases this

theorem walk_result
    (accepted : (xnuMemoryRegionsWalk (some regWords) wordCount bootBase regions maxRegions).1 ≠ 0) :
    (xnuMemoryRegionsWalk (some regWords) wordCount bootBase regions maxRegions).1.toNat =
        wordCount.toNat / 2 ∧
      (xnuMemoryRegionsWalk (some regWords) wordCount bootBase regions maxRegions).2 =
        regions.map fun table i =>
          if i < wordCount.toNat / 2 ∧ i < maxRegions.toNat then regPair regWords i
          else table i := by
  have table := walkPairs_table regWords maxRegions.toNat (wordCount >>> 1).toNat 0 regions
  simp only [xnuMemoryRegionsWalk] at accepted ⊢
  split_ifs at accepted ⊢ with malformed boot
  · exact absurd rfl accepted
  · exact absurd rfl accepted
  rcases result : walkPairs regWords maxRegions.toNat (wordCount >>> 1).toNat 0 regions with
    ⟨found, filled⟩
  rw [result] at accepted table
  cases found with
  | true =>
      refine ⟨pairs_toNat wordCount, ?_⟩
      simpa only [Nat.zero_le, true_and, Nat.zero_add, pairs_toNat] using table rfl
  | false => exact absurd rfl accepted

/-- The walk accepts exactly the region lists, among words whose regions end below
`2 ^ 32`; it never refuses a region list; and what it accepts it counts whole and stores as
far as the table reaches. -/
theorem memory_regions_walk_exact :
    ((∀ i < wordCount.toNat / 2, (regPair regWords i).limit < 2 ^ 32) →
      ((xnuMemoryRegionsWalk (some regWords) wordCount bootBase regions maxRegions).1 ≠ 0 ↔
        RegionList regWords wordCount bootBase)) ∧
    (RegionList regWords wordCount bootBase →
      (xnuMemoryRegionsWalk (some regWords) wordCount bootBase regions maxRegions).1 ≠ 0) ∧
    ((xnuMemoryRegionsWalk (some regWords) wordCount bootBase regions maxRegions).1 ≠ 0 →
      (xnuMemoryRegionsWalk (some regWords) wordCount bootBase regions maxRegions).1.toNat =
          wordCount.toNat / 2 ∧
        (xnuMemoryRegionsWalk (some regWords) wordCount bootBase regions maxRegions).2 =
          regions.map fun table i =>
            if i < wordCount.toNat / 2 ∧ i < maxRegions.toNat then regPair regWords i
            else table i) := by
  refine ⟨?_, ?_, walk_result regWords wordCount bootBase regions maxRegions⟩
  · intro below
    rw [walk_ne_zero_iff]
    constructor
    · rintro ⟨pair, even, boot, accepted⟩
      refine ⟨pair, even, boot, fun i hi => (accepted i hi).1, fun i hi j hj => ?_⟩
      exact (overlaps_eq_false_iff (below i hi) (below j (by omega))).mp ((accepted i hi).2 j hj)
    · intro list
      refine ⟨list.pair, list.even, list.boot, fun i hi => ⟨list.nonempty i hi, fun j hj => ?_⟩⟩
      exact (overlaps_eq_false_iff (below i hi) (below j (by omega))).mpr (list.disjoint i hi j hj)
  · intro list
    rw [walk_ne_zero_iff]
    refine ⟨list.pair, list.even, list.boot, fun i hi => ⟨list.nonempty i hi, fun j hj => ?_⟩⟩
    exact overlaps_eq_false_of_disjoint (list.disjoint i hi j hj)

/-- Of any words the walk accepts those whose regions are apart with their ends wrapped: past
`2 ^ 32` it misses overlaps. -/
theorem memory_regions_walk_wrapped :
    (xnuMemoryRegionsWalk (some regWords) wordCount bootBase regions maxRegions).1 ≠ 0 ↔
      2 ≤ wordCount.toNat ∧ wordCount.toNat % 2 = 0 ∧ regWords 0 = bootBase ∧
        ∀ i < wordCount.toNat / 2, (regPair regWords i).size ≠ 0 ∧
          ∀ j < i, (regPair regWords j).wrappedLimit ≤ (regPair regWords i).base.toNat ∨
            (regPair regWords i).wrappedLimit ≤ (regPair regWords j).base.toNat := by
  rw [walk_ne_zero_iff]
  simp only [PairAccepted, overlaps_eq_false_iff_wrapped]

end Exact

/-- The boot bank with the low bank appended whole, in a table of two. -/
theorem memory_regions_walk_low_bank :
    (xnuMemoryRegionsWalk (some fun i => [0x80000000, 0x5e500000, 0, 0x60000000].getD i 0) 4
      0x80000000 (some fun _ => ⟨0, 0⟩) 2).1.toNat = 2 := by
  obtain ⟨accepts, _, result⟩ := memory_regions_walk_exact
    (fun i => [0x80000000, 0x5e500000, 0, 0x60000000].getD i 0) 4 0x80000000
    (some fun _ => ⟨0, 0⟩) 2
  have list : RegionList (fun i => [0x80000000, 0x5e500000, 0, 0x60000000].getD i 0) 4 0x80000000 := by
    refine ⟨by decide, by decide, by decide, by decide, ?_⟩
    simp only [XnuMemRegion.Disjoint]
    decide
  exact (result ((accepts (by decide)).mpr list)).1

/-- Two pairs and a table of one: the list is still accepted. -/
theorem memory_regions_walk_short_table :
    ¬ ((xnuMemoryRegionsWalk (some fun i => [0x80000000, 0x1000, 0x90000000, 0x1000].getD i 0) 4
          0x80000000 (some fun _ => ⟨0, 0⟩) 1).1 ≠ 0 ↔
        RegionList (fun i => [0x80000000, 0x1000, 0x90000000, 0x1000].getD i 0) 4 0x80000000 ∧
          4 / 2 ≤ 1) := by
  intro claimed
  have accepted : (xnuMemoryRegionsWalk
      (some fun i => [0x80000000, 0x1000, 0x90000000, 0x1000].getD i 0) 4
      0x80000000 (some fun _ => ⟨0, 0⟩) 1).1 ≠ 0 := by decide
  have fits := (claimed.mp accepted).2
  omega

end Stage90.Regions

import Mathlib.Data.Nat.Find
import Stage90.Smem.Probe

/-!
# What the probe reads

The scan follows allocated entries up to the first one that settles the search.  The words that it
reads behind an entry's offset are in the section only if the offset leaves room for them.
-/

set_option autoImplicit false

namespace Stage90.Smem

open Stage90.Lib

/-- A word of the section at `base`, at an address that is a multiple of four. -/
def Contained (base a : UInt32) : Prop :=
  (a - base).toNat + 4 ≤ 2 ^ 20 ∧ a.toNat % 4 = 0

instance (base a : UInt32) : Decidable (Contained base a) := inferInstanceAs (Decidable (_ ∧ _))

theorem contained_iff {base : UInt32} (aligned : base.toNat % 4 = 0) (off : UInt32) :
    Contained base (base + off) ↔ off.toNat + 4 ≤ 2 ^ 20 ∧ off.toNat % 4 = 0 := by
  have below := base.toNat_lt
  have below' := off.toNat_lt
  have back : (base + off - base).toNat = off.toNat := by
    rw [UInt32.toNat_sub, UInt32.toNat_add]
    omega
  have sum : (base + off).toNat % 4 = off.toNat % 4 := by
    rw [UInt32.toNat_add]
    omega
  rw [Contained, back, sum]

theorem readBase_aligned {env : Env} {base : UInt32} (mapped : env.readBase = some base) :
    base.toNat % 4 = 0 := by
  rw [Env.readBase] at mapped
  split at mapped
  · rw [← Option.some_inj.mp mapped]
    rfl
  · split at mapped
    · rw [← Option.some_inj.mp mapped]
      rfl
    · exact absurd mapped.symm (Option.some_ne_none base)

/-! ## Entries of the table of contents -/

section Entries
variable (mem : Mem) (base : UInt32) (i : Nat)

def allocatedOf : UInt32 := smemWord mem base (tocEntry i + tocAllocated)

def offsetOf : UInt32 := smemWord mem base (tocEntry i + tocOffset)

def sizeOf : UInt32 := smemWord mem base (tocEntry i + tocSize)

def Candidate : Prop :=
  allocatedOf mem base i ≠ 0 ∧ offsetOf mem base i < offMax ∧
    ptablePartsOff + partStride ≤ sizeOf mem base i

def lenOf (off : UInt32) : UInt32 := smemWord mem base (off + ptableLenOff)

def TableAt (off : UInt32) : Prop :=
  smemWord mem base (off + 0) = ptableMagic0 ∧ smemWord mem base (off + 4) = ptableMagic1 ∧
    1 ≤ lenOf mem base off ∧ lenOf mem base off ≤ ptablePartN

/-- Offset 0 is what stands for a table that was not found. -/
def Settles : Prop :=
  Candidate mem base i ∧ TableAt mem base (offsetOf mem base i) ∧ offsetOf mem base i ≠ 0

def Followed : Prop := Candidate mem base i ∧ ∀ j < i, ¬ Settles mem base j

instance : Decidable (Candidate mem base i) := inferInstanceAs (Decidable (_ ∧ _))
instance (off : UInt32) : Decidable (TableAt mem base off) := inferInstanceAs (Decidable (_ ∧ _))
instance : Decidable (Settles mem base i) := inferInstanceAs (Decidable (_ ∧ _))
instance : Decidable (Followed mem base i) := inferInstanceAs (Decidable (_ ∧ _))

end Entries

def HeadInside (base off : UInt32) : Prop :=
  Contained base (base + (off + 0)) ∧ Contained base (base + (off + 4)) ∧
    Contained base (base + (off + ptableLenOff))

theorem headInside_iff {base off : UInt32} (aligned : base.toNat % 4 = 0) (small : off < offMax) :
    HeadInside base off ↔ off.toNat % 4 = 0 ∧ off.toNat + 16 ≤ 2 ^ 20 := by
  have bound : offMax.toNat = 1048576 := rfl
  have four : (4 : UInt32).toNat = 4 := rfl
  have twelve : ptableLenOff.toNat = 12 := rfl
  rw [UInt32.lt_iff_toNat_lt] at small
  rw [HeadInside, contained_iff aligned, contained_iff aligned, contained_iff aligned,
    UInt32.toNat_add, UInt32.toNat_add, UInt32.toNat_add, UInt32.toNat_zero]
  omega

theorem tocEntry_contained {base : UInt32} (aligned : base.toNat % 4 = 0) {i : Nat}
    (inside : i < heapTocN) {word : UInt32} (of_entry : word.toNat ≤ 8)
    (word_aligned : word.toNat % 4 = 0) : Contained base (base + (tocEntry i + word)) := by
  have count : heapTocN = 512 := rfl
  have toc : heapTocOff.toNat = 224 := rfl
  have stride : tocStride.toNat = 16 := rfl
  have index : (UInt32.ofNat i).toNat = i := UInt32.toNat_ofNat_of_lt' (Nat.lt_trans inside (by decide))
  have entry : (tocEntry i).toNat = 224 + 16 * i := by
    rw [tocEntry, UInt32.toNat_add, UInt32.toNat_mul, index, toc, stride]
    omega
  rw [contained_iff aligned, UInt32.toNat_add, entry]
  omega

/-! ## The scan -/

section Scan
variable {mem : Mem} {base : UInt32} {s : Scan} {i : Nat}

theorem scanEntry_settled (settled : s.ptableOff ≠ 0) :
    (scanEntry mem base s i).ptableOff = s.ptableOff ∧
      (scanEntry mem base s i).ptableLen = s.ptableLen ∧
      (scanEntry mem base s i).reads = s.reads ++ [base + (tocEntry i + tocAllocated)] := by
  rw [scanEntry]
  dsimp only
  split
  · exact ⟨rfl, rfl, rfl⟩
  · exact ⟨rfl, rfl, rfl⟩

theorem scanEntry_open (open_ : s.ptableOff = 0) :
    (allocatedOf mem base i = 0 ∧ (scanEntry mem base s i).ptableOff = 0 ∧
        (scanEntry mem base s i).reads = s.reads ++ [base + (tocEntry i + tocAllocated)]) ∨
      (allocatedOf mem base i ≠ 0 ∧ ¬ Candidate mem base i ∧
        (scanEntry mem base s i).ptableOff = 0 ∧
        (scanEntry mem base s i).reads = s.reads ++ [base + (tocEntry i + tocAllocated)] ++
          [base + (tocEntry i + tocOffset), base + (tocEntry i + tocSize)]) ∨
      (Candidate mem base i ∧
        (scanEntry mem base s i).reads = s.reads ++ [base + (tocEntry i + tocAllocated)] ++
          [base + (tocEntry i + tocOffset), base + (tocEntry i + tocSize)] ++
          [base + (offsetOf mem base i + 0), base + (offsetOf mem base i + 4),
            base + (offsetOf mem base i + ptableLenOff)] ∧
        ((¬ TableAt mem base (offsetOf mem base i) ∧ (scanEntry mem base s i).ptableOff = 0) ∨
          (TableAt mem base (offsetOf mem base i) ∧
            (scanEntry mem base s i).ptableOff = offsetOf mem base i ∧
            (scanEntry mem base s i).ptableLen = lenOf mem base (offsetOf mem base i)))) := by
  by_cases free : allocatedOf mem base i = 0
  · left
    have free' := free
    rw [allocatedOf] at free'
    rw [scanEntry]
    dsimp only
    rw [if_pos free']
    exact ⟨free, open_, rfl⟩
  · right
    have free' := free
    rw [allocatedOf] at free'
    by_cases candidate : Candidate mem base i
    · right
      have follows := candidate.2
      rw [offsetOf, sizeOf] at follows
      refine ⟨candidate, ?_⟩
      rw [scanEntry]
      dsimp only
      rw [if_neg free', if_neg (not_not_intro open_), if_pos follows]
      by_cases table : TableAt mem base (offsetOf mem base i)
      · have accepts := table
        rw [TableAt, lenOf, offsetOf] at accepts
        rw [if_pos accepts]
        exact ⟨rfl, Or.inr ⟨table, rfl, rfl⟩⟩
      · have refuses := table
        rw [TableAt, lenOf, offsetOf] at refuses
        rw [if_neg refuses]
        exact ⟨rfl, Or.inl ⟨table, open_⟩⟩
    · left
      have refused : ¬ (offsetOf mem base i < offMax ∧
          ptablePartsOff + partStride ≤ sizeOf mem base i) :=
        fun follows => candidate ⟨free, follows⟩
      have refused' := refused
      rw [offsetOf, sizeOf] at refused'
      rw [scanEntry]
      dsimp only
      rw [if_neg free', if_neg (not_not_intro open_), if_neg refused']
      exact ⟨free, candidate, open_, rfl⟩

end Scan

/-- What the scan of the first `n` entries leaves. -/
structure Scanned (mem : Mem) (base : UInt32) (n : Nat) (s : Scan) : Prop where
  none_ : (∀ j < n, ¬ Settles mem base j) → s.ptableOff = 0
  first : ∀ i < n, Settles mem base i → (∀ j < i, ¬ Settles mem base j) →
    s.ptableOff = offsetOf mem base i ∧ s.ptableLen = lenOf mem base (offsetOf mem base i)
  reads : (∀ a ∈ s.reads, Contained base a) ↔
    ∀ i < n, Followed mem base i → HeadInside base (offsetOf mem base i)

theorem exists_first {P : Nat → Prop} [DecidablePred P] {n : Nat} (some_ : ¬ ∀ j < n, ¬ P j) :
    ∃ i < n, P i ∧ ∀ j < i, ¬ P j := by
  push Not at some_
  obtain ⟨k, within, holds⟩ := some_
  have exists_ : ∃ k, P k := ⟨k, holds⟩
  exact ⟨Nat.find exists_, Nat.lt_of_le_of_lt (Nat.find_min' exists_ holds) within,
    Nat.find_spec exists_, fun j early => Nat.find_min exists_ early⟩

section Run
variable {mem : Mem} {base : UInt32}

theorem contained_append {one two : List UInt32} :
    (∀ a ∈ one ++ two, Contained base a) ↔
      (∀ a ∈ one, Contained base a) ∧ ∀ a ∈ two, Contained base a :=
  List.forall_mem_append

theorem contained_pair {a b : UInt32} :
    (∀ x ∈ [a, b], Contained base x) ↔ Contained base a ∧ Contained base b := by
  rw [List.forall_mem_cons, List.forall_mem_singleton]

theorem contained_head (off : UInt32) :
    (∀ a ∈ [base + (off + 0), base + (off + 4), base + (off + ptableLenOff)], Contained base a) ↔
      HeadInside base off := by
  rw [List.forall_mem_cons, contained_pair, HeadInside]

theorem scanEntry_reads (aligned : base.toNat % 4 = 0) {s : Scan} {i : Nat} (inside : i < heapTocN)
    (open_ : s.ptableOff = 0) :
    (∀ a ∈ (scanEntry mem base s i).reads, Contained base a) ↔
      (∀ a ∈ s.reads, Contained base a) ∧
        (Candidate mem base i → HeadInside base (offsetOf mem base i)) := by
  have first : Contained base (base + (tocEntry i + tocAllocated)) :=
    tocEntry_contained aligned inside (by decide) (by decide)
  have second : Contained base (base + (tocEntry i + tocOffset)) :=
    tocEntry_contained aligned inside (by decide) (by decide)
  have third : Contained base (base + (tocEntry i + tocSize)) :=
    tocEntry_contained aligned inside (by decide) (by decide)
  rcases @scanEntry_open mem base s i open_ with
    ⟨free, -, reads⟩ | ⟨-, refused, -, reads⟩ | ⟨candidate, reads, -⟩
  · rw [reads, contained_append, List.forall_mem_singleton]
    have refused : ¬ Candidate mem base i := fun candidate => candidate.1 free
    simp only [first, refused, false_imp_iff, and_true]
  · rw [reads, contained_append, contained_append, List.forall_mem_singleton, contained_pair]
    simp only [first, second, third, refused, false_imp_iff, and_true]
  · rw [reads, contained_append, contained_append, contained_append, List.forall_mem_singleton,
      contained_pair, contained_head]
    simp only [first, second, third, candidate, true_imp_iff, and_true]

theorem scanned_succ (aligned : base.toNat % 4 = 0) {n : Nat} (inside : n < heapTocN) {s : Scan}
    (before : Scanned mem base n s) : Scanned mem base (n + 1) (scanEntry mem base s n) := by
  by_cases open_ : ∀ j < n, ¬ Settles mem base j
  · have zero := before.none_ open_
    have turn := @scanEntry_open mem base s n zero
    constructor
    · intro none_
      rcases turn with ⟨-, off, -⟩ | ⟨-, -, off, -⟩ | ⟨candidate, -, ⟨-, off⟩ | ⟨table, off, -⟩⟩
      · exact off
      · exact off
      · exact off
      · rw [off]
        by_contra settles
        exact none_ n (Nat.lt_succ_self n) ⟨candidate, table, settles⟩
    · intro i within settles first
      have last : i = n := by
        by_contra other
        exact open_ i (by omega) settles
      rw [last] at settles ⊢
      rcases turn with ⟨free, -⟩ | ⟨-, refused, -⟩ | ⟨-, -, ⟨refused, -⟩ | ⟨-, off, len⟩⟩
      · exact absurd free settles.1.1
      · exact absurd settles.1 refused
      · exact absurd settles.2.1 refused
      · exact ⟨off, len⟩
    · rw [scanEntry_reads aligned inside zero, before.reads]
      constructor
      · intro ⟨earlier, now⟩ i within followed
        rcases Nat.lt_succ_iff_lt_or_eq.mp within with early | last
        · exact earlier i early followed
        · rw [last] at followed ⊢
          exact now followed.1
      · intro all
        refine ⟨fun i within followed => all i (Nat.lt_succ_of_lt within) followed, ?_⟩
        intro candidate
        exact all n (Nat.lt_succ_self n) ⟨candidate, open_⟩
  · obtain ⟨k, early, settles, first⟩ := exists_first open_
    obtain ⟨off, len⟩ := before.first k early settles first
    have settled : s.ptableOff ≠ 0 := by
      rw [off]
      exact settles.2.2
    obtain ⟨off', len', reads⟩ := @scanEntry_settled mem base s n settled
    constructor
    · intro none_
      exact absurd settles (none_ k (Nat.lt_succ_of_lt early))
    · intro i within settles' first'
      have same : i = k := by
        apply Nat.le_antisymm
        · by_contra later
          exact first' k (by omega) settles
        · by_contra earlier
          exact first i (by omega) settles'
      rw [off', len', same]
      exact ⟨off, len⟩
    · have entry : Contained base (base + (tocEntry n + tocAllocated)) :=
        tocEntry_contained aligned inside (by decide) (by decide)
      rw [reads, contained_append, List.forall_mem_singleton, before.reads]
      constructor
      · intro ⟨earlier, _⟩ i within followed
        rcases Nat.lt_succ_iff_lt_or_eq.mp within with before' | last
        · exact earlier i before' followed
        · rw [last] at followed
          exact absurd settles (followed.2 k early)
      · intro all
        exact ⟨fun i within followed => all i (Nat.lt_succ_of_lt within) followed, entry⟩

theorem scanned_table (aligned : base.toNat % 4 = 0) :
    Scanned mem base heapTocN (scanTable mem base ⟨0, 0, 0, heapInfoReads base⟩) := by
  have start : Scanned mem base 0 ⟨0, 0, 0, heapInfoReads base⟩ := by
    constructor
    · intro _
      rfl
    · intro i none_
      exact absurd none_ (Nat.not_lt_zero i)
    · constructor
      · intro _ i none_
        exact absurd none_ (Nat.not_lt_zero i)
      · intro _
        rw [heapInfoReads, List.forall_mem_cons, contained_pair, contained_iff aligned,
          contained_iff aligned, contained_iff aligned]
        decide
  have run : ∀ n ≤ heapTocN, Scanned mem base n
      ((List.range n).foldl (scanEntry mem base) ⟨0, 0, 0, heapInfoReads base⟩) := by
    intro n
    induction n with
    | zero => intro _; exact start
    | succ n ih =>
        intro within
        rw [List.range_succ, List.foldl_append]
        exact scanned_succ aligned within (ih (Nat.le_of_succ_le within))
  exact run heapTocN (Nat.le_refl _)

end Run

end Stage90.Smem

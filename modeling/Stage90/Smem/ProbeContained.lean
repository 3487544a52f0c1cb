import Stage90.Smem.ProbeReads

/-!
# The probe in its section

The reads of the partitions, and when every read of a call stays in the mapped section.
-/

set_option autoImplicit false

namespace Stage90.Smem

open Stage90.Lib

/-! ## Partitions -/

/-- The three words of partition `i`. -/
def PartInside (base ptableOff : UInt32) (i : Nat) : Prop :=
  Contained base (base + (partEntry ptableOff i + partStartOff)) ∧
    Contained base (base + (partEntry ptableOff i + partSizeOff)) ∧
    Contained base (base + (partEntry ptableOff i + partTypeOff))

theorem walkPart_reads (mem : Mem) (base ptableOff : UInt32) (s : Walk) (i : Nat) :
    (walkPart mem base ptableOff s i).reads = s.reads ++
      [base + (partEntry ptableOff i + partStartOff), base + (partEntry ptableOff i + partSizeOff),
        base + (partEntry ptableOff i + partTypeOff)] := by
  rw [walkPart]
  dsimp only
  split
  · split
    · rfl
    · rfl
  · rfl

theorem walkParts_reads (mem : Mem) (base ptableOff : UInt32) (s : Walk) (n : Nat) :
    (∀ a ∈ ((List.range n).foldl (walkPart mem base ptableOff) s).reads, Contained base a) ↔
      (∀ a ∈ s.reads, Contained base a) ∧ ∀ i < n, PartInside base ptableOff i := by
  induction n with
  | zero =>
      constructor
      · intro all
        exact ⟨all, fun i none_ => absurd none_ (Nat.not_lt_zero i)⟩
      · intro all
        exact all.1
  | succ n ih =>
      rw [List.range_succ, List.foldl_append, List.foldl_cons, List.foldl_nil, walkPart_reads,
        contained_append, ih, List.forall_mem_cons, contained_pair]
      constructor
      · intro ⟨⟨start, earlier⟩, last⟩
        refine ⟨start, ?_⟩
        intro i within
        rcases Nat.lt_succ_iff_lt_or_eq.mp within with early | same
        · exact earlier i early
        · rw [same]
          exact last
      · intro ⟨start, all⟩
        exact ⟨⟨start, fun i early => all i (Nat.lt_succ_of_lt early)⟩, all n (Nat.lt_succ_self n)⟩

/-- The partitions of a table at an aligned offset are inside when the last one is. -/
theorem parts_inside_iff {base ptableOff : UInt32} (aligned : base.toNat % 4 = 0)
    (small : ptableOff < offMax) (off_aligned : ptableOff.toNat % 4 = 0) {n : Nat} (some_ : 0 < n)
    (few : n ≤ 32) :
    (∀ i < n, PartInside base ptableOff i) ↔
      ptableOff.toNat + 16 + 56 * (n - 1) + 40 ≤ 2 ^ 20 := by
  have bound : offMax.toNat = 1048576 := rfl
  have start : partStartOff.toNat = 16 := rfl
  have size : partSizeOff.toNat = 20 := rfl
  have type : partTypeOff.toNat = 36 := rfl
  have parts : ptablePartsOff.toNat = 16 := rfl
  have stride : partStride.toNat = 56 := rfl
  rw [UInt32.lt_iff_toNat_lt] at small
  have entry (i : Nat) (within : i < n) :
      (partEntry ptableOff i).toNat = ptableOff.toNat + 16 + 56 * i := by
    have index : (UInt32.ofNat i).toNat = i :=
      UInt32.toNat_ofNat_of_lt' (Nat.lt_of_lt_of_le within (Nat.le_trans few (by decide)))
    rw [partEntry, UInt32.toNat_add, UInt32.toNat_add, UInt32.toNat_mul, index, parts, stride]
    omega
  have word (i : Nat) (within : i < n) :
      PartInside base ptableOff i ↔ ptableOff.toNat + 16 + 56 * i + 40 ≤ 2 ^ 20 := by
    have place := entry i within
    rw [PartInside, contained_iff aligned, contained_iff aligned, contained_iff aligned,
      UInt32.toNat_add, UInt32.toNat_add, UInt32.toNat_add, place, start, size, type]
    omega
  constructor
  · intro all
    exact (word (n - 1) (by omega)).mp (all (n - 1) (by omega))
  · intro last i within
    apply (word i within).mpr
    omega

/-! ## A call -/

/-- Every entry that is followed leaves room for a table's head, and the one that settles the
search for all of its partitions. -/
def Inside (mem : Mem) (base : UInt32) : Prop :=
  ∀ i < heapTocN, Followed mem base i →
    (offsetOf mem base i).toNat % 4 = 0 ∧ (offsetOf mem base i).toNat + 16 ≤ 2 ^ 20 ∧
      (Settles mem base i →
        (offsetOf mem base i).toNat + 16 +
          56 * ((lenOf mem base (offsetOf mem base i)).toNat - 1) + 40 ≤ 2 ^ 20)

section Call
variable {mem : Mem} {base : UInt32} {s : Scan}

theorem walk_inside_iff (aligned : base.toNat % 4 = 0) (scanned : Scanned mem base heapTocN s)
    {k : Nat} (within : k < heapTocN) (settles : Settles mem base k)
    (first : ∀ j < k, ¬ Settles mem base j) (g : Globals) :
    (∀ a ∈ (publishBanks mem base s g).2.reads, Contained base a) ↔ Inside mem base := by
  obtain ⟨off, len⟩ := scanned.first k within settles first
  obtain ⟨candidate, ⟨-, -, one, most⟩, -⟩ := id settles
  have small := candidate.2.1
  have followed : Followed mem base k := ⟨candidate, first⟩
  have count : min s.ptableLen.toNat ptablePartN.toNat =
      (lenOf mem base (offsetOf mem base k)).toNat := by
    rw [len]
    exact Nat.min_eq_left (UInt32.le_iff_toNat_le.mp most)
  have some_ : 0 < (lenOf mem base (offsetOf mem base k)).toNat := UInt32.le_iff_toNat_le.mp one
  have reads : (∀ a ∈ (publishBanks mem base s g).2.reads, Contained base a) ↔
      ((∀ a ∈ s.reads, Contained base a) ∧
          Contained base (base + (offsetOf mem base k + 4))) ∧
        ∀ i < (lenOf mem base (offsetOf mem base k)).toNat,
          PartInside base (offsetOf mem base k) i := by
    rw [← count, ← off, ← List.forall_mem_singleton (p := Contained base), ← contained_append]
    exact walkParts_reads mem base s.ptableOff _ _
  rw [reads, scanned.reads]
  constructor
  · intro ⟨⟨heads, _⟩, parts⟩ i inside follows
    have head := (headInside_iff aligned follows.1.2.1).mp (heads i inside follows)
    refine ⟨head.1, head.2, ?_⟩
    intro settles'
    have same : i = k := by
      apply Nat.le_antisymm
      · by_contra later
        exact follows.2 k (by omega) settles
      · by_contra earlier
        exact first i (by omega) settles'
    rw [same] at head ⊢
    exact (parts_inside_iff aligned small head.1 some_ (UInt32.le_iff_toNat_le.mp most)).mp parts
  · intro inside
    obtain ⟨off_aligned, room, parts⟩ := inside k within followed
    have head : HeadInside base (offsetOf mem base k) :=
      (headInside_iff aligned small).mpr ⟨off_aligned, room⟩
    refine ⟨⟨?_, head.2.1⟩, ?_⟩
    · intro i within' follows
      obtain ⟨aligned', room', -⟩ := inside i within' follows
      exact (headInside_iff aligned follows.1.2.1).mpr ⟨aligned', room'⟩
    · exact (parts_inside_iff aligned small off_aligned some_ (UInt32.le_iff_toNat_le.mp most)).mpr
        (parts settles)

theorem scan_inside_iff (aligned : base.toNat % 4 = 0) (scanned : Scanned mem base heapTocN s)
    (none_ : ∀ j < heapTocN, ¬ Settles mem base j) :
    (∀ a ∈ s.reads, Contained base a) ↔ Inside mem base := by
  rw [scanned.reads]
  constructor
  · intro heads i inside follows
    have head := (headInside_iff aligned follows.1.2.1).mp (heads i inside follows)
    exact ⟨head.1, head.2, fun settles => absurd settles (none_ i inside)⟩
  · intro inside i within follows
    obtain ⟨aligned', room', -⟩ := inside i within follows
    exact (headInside_iff aligned follows.1.2.1).mpr ⟨aligned', room'⟩

theorem pass_inside_iff {env : Env} (mapped : env.readBase = some base) {g : Globals}
    (fresh : g.probed = 0) :
    (∀ a ∈ probeReads env mem g, Contained base a) ↔ Inside mem base := by
  have aligned := readBase_aligned mapped
  have scanned := @scanned_table mem base aligned
  rw [probeReads, entrySmemProbe, if_neg (not_not_intro fresh)]
  dsimp only
  rw [mapped]
  dsimp only
  generalize scanTable mem base ⟨0, 0, 0, heapInfoReads base⟩ = s at scanned ⊢
  by_cases none_ : ∀ j < heapTocN, ¬ Settles mem base j
  · rw [if_pos (scanned.none_ none_)]
    exact scan_inside_iff aligned scanned none_
  · obtain ⟨k, within, settles, first⟩ := exists_first none_
    have found := (scanned.first k within settles first).1
    rw [if_neg]
    · exact walk_inside_iff aligned scanned within settles first _
    · rw [found]
      exact settles.2.2

end Call

/-- Every read lies in the section that a call has mapped, exactly when the call is not the first
one or the offsets in memory leave room. -/
theorem probe_contained_iff (env : Env) (mem : Mem) (g : Globals) :
    (∀ a ∈ probeReads env mem g, ∃ base, env.readBase = some base ∧ Contained base a) ↔
      (g.probed = 0 → ∀ base, env.readBase = some base → Inside mem base) := by
  by_cases fresh : g.probed = 0
  · cases mapped : env.readBase with
    | none =>
        have nothing : probeReads env mem g = [] := by
          rw [probeReads, entrySmemProbe, if_neg (not_not_intro fresh)]
          dsimp only
          rw [mapped]
        rw [nothing]
        constructor
        · intro _ _ base absent
          exact absurd absent.symm (Option.some_ne_none base)
        · intro _ a there
          exact absurd there List.not_mem_nil
    | some base =>
        have pass := @pass_inside_iff mem base env mapped g fresh
        constructor
        · intro contained _ base' same
          rw [← Option.some_inj.mp same, ← pass]
          intro a there
          obtain ⟨base'', same', inside⟩ := contained a there
          rw [Option.some_inj.mp same']
          exact inside
        · intro inside a there
          exact ⟨base, rfl, pass.mpr (inside fresh base rfl) a there⟩
  · have nothing : probeReads env mem g = [] := by
      rw [probeReads, entrySmemProbe, if_pos fresh]
    rw [nothing]
    constructor
    · intro _ fresh'
      exact absurd fresh' fresh
    · intro _ a there
      exact absurd there List.not_mem_nil

/-- One entry of the table of contents, which points 8 bytes before the end of the section. -/
def lateOffset : Mem := ofWords (smemAliasBase + heapTocOff) [1, 0x000ffff8, 72, 0]

/-- The length of the table that might be there is read behind the section. -/
theorem lateOffset_escapes :
    0xe0100004 ∈ probeReads ⟨1, 1⟩ lateOffset .init ∧ ¬ Contained smemAliasBase 0xe0100004 := by
  decide +kernel

end Stage90.Smem

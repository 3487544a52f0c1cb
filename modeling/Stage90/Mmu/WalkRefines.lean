import Mathlib.Tactic.IntervalCases
import Stage90.Mmu.PteWalk

/-!
# The walker against the architecture

The walker's tables are the architecture's, so its answer is the leaf of the walk, where the
window holds both slots.
-/

set_option autoImplicit false

namespace Stage90.Mmu

open Stage90.Lib

/-- `[gPhysBase, gPhysBase + mem_size)`. -/
def Machine.InWindow (m : Machine) (p : Nat) : Prop :=
  m.gPhysBase.toNat ≤ p ∧ p < m.gPhysBase.toNat + m.memSize.toNat

instance (m : Machine) (p : Nat) : Decidable (m.InWindow p) := inferInstanceAs (Decidable (_ ∧ _))

/-- A slot in the window, of a table that is not at address 0. -/
def Machine.Holds (m : Machine) (s : Slot) : Prop := s.table ≠ 0 ∧ m.InWindow s.addr

instance (m : Machine) (s : Slot) : Decidable (m.Holds s) := inferInstanceAs (Decidable (_ ∧ _))

def Machine.first (m : Machine) (va : UInt32) : Slot := level1 m.ttbr0 m.ttbr1 m.n.toNat va

def Machine.second (m : Machine) (va : UInt32) : Slot :=
  level2 (m.mem (m.first va).addr) va

def Machine.translation (m : Machine) (va : UInt32) : Translation :=
  walk m.mem m.ttbr0 m.ttbr1 m.n.toNat va

/-! ## Addresses -/

theorem n_le (m : Machine) : m.n.toNat ≤ 7 := by
  rw [Machine.n, UInt32.toNat_and]
  exact Nat.and_le_right

theorem base_toNat (ttbr : UInt32) {n : UInt32} (small : n.toNat ≤ 7) :
    (entryTtbrBase ttbr n).toNat = ttbr.toNat / 2 ^ (14 - n.toNat) * 2 ^ (14 - n.toNat) := by
  have bits : (entryTtbrAlignBits n).toNat = 14 - n.toNat := by
    rw [entryTtbrAlignBits, UInt32.toNat_sub_of_le]
    · rfl
    · rw [UInt32.le_iff_toNat_le]
      exact Nat.le_trans small (by decide)
  rw [entryTtbrBase, toNat_align _ (by omega), bits]

theorem reserved_zero (ttbr1 : Ttbr1) {n : Nat} (small : n ≤ 7) :
    ttbr1.word.toNat / 2 ^ (14 - n) * 2 ^ (14 - n) = ttbr1.word.toNat / 2 ^ 14 * 2 ^ 14 := by
  have field := @toNat_field ttbr1.word 7 0x7f 7 (by decide) (by decide)
  have zero : (ttbr1.word >>> 7) &&& 0x7f = 0 := by
    have shifted : (ttbr1.word &&& 0x3f80) >>> 7 = (0 : UInt32) >>> 7 := by rw [ttbr1.reserved]
    rw [UInt32.shiftRight_and] at shifted
    exact shifted
  rw [zero] at field
  have gap : ttbr1.word.toNat / 2 ^ 7 % 2 ^ 7 = 0 := field.symm
  interval_cases n <;> omega

theorem index1_toNat (va : UInt32) :
    (((va >>> 20) &&& 0xfff) <<< 2).toNat = 4 * (va.toNat / 2 ^ 20) := by
  have field := @toNat_field va 20 0xfff 12 (by decide) (by decide)
  have below := va.toNat_lt
  have twenty : (20 : UInt32).toNat = 20 := rfl
  rw [twenty] at field
  have two : (2 : UInt32).toNat % 32 = 2 := rfl
  rw [UInt32.toNat_shiftLeft, field, two, Nat.shiftLeft_eq]
  omega

theorem index2_toNat (va : UInt32) :
    (((va >>> 12) &&& 0xff) <<< 2).toNat = 4 * (va.toNat / 2 ^ 12 % 2 ^ 8) := by
  have field := @toNat_field va 12 0xff 8 (by decide) (by decide)
  have twelve : (12 : UInt32).toNat = 12 := rfl
  rw [twelve] at field
  have two : (2 : UInt32).toNat % 32 = 2 := rfl
  rw [UInt32.toNat_shiftLeft, field, two, Nat.shiftLeft_eq]
  omega

theorem low_iff (m : Machine) (va : UInt32) :
    (m.n = 0 ∨ va < 1 <<< (32 - m.n)) ↔ Low m.n.toNat va := by
  have small := n_le m
  have below := va.toNat_lt
  by_cases zero : m.n = 0
  · have none_ : m.n.toNat = 0 := by
      rw [zero]
      rfl
    constructor
    · intro _
      rw [Low, none_]
      exact below
    · intro _
      exact .inl zero
  · have some_ : m.n.toNat ≠ 0 := fun none_ => zero (UInt32.toNat_inj.mp none_)
    have bits : ((32 : UInt32) - m.n).toNat = 32 - m.n.toNat := by
      rw [UInt32.toNat_sub_of_le]
      · rfl
      · rw [UInt32.le_iff_toNat_le]
        exact Nat.le_trans small (by decide)
    have split : ((1 : UInt32) <<< ((32 : UInt32) - m.n)).toNat = 2 ^ (32 - m.n.toNat) := by
      rw [toNat_bit (by omega), bits]
    rw [UInt32.lt_iff_toNat_lt, split, Low]
    exact ⟨fun either => either.resolve_left zero, fun low => .inr low⟩

theorem low_slot {x v n : Nat} (word : x < 2 ^ 32) (small : n ≤ 7) (low : v < 2 ^ (32 - n)) :
    v / 2 ^ 20 % 2 ^ (12 - n) = v / 2 ^ 20 ∧
      x / 2 ^ (14 - n) * 2 ^ (14 - n) + 4 * (v / 2 ^ 20) < 2 ^ 32 := by
  interval_cases n <;> omega

theorem first_toNat {m : Machine} {va : UInt32} :
    let base := if Low m.n.toNat va then m.ttbr0 else m.ttbr1.word
    (entryTtbrBase base m.n).toNat = (m.first va).table ∧
      (entryTtbrBase base m.n + (((va >>> 20) &&& 0xfff) <<< 2)).toNat = (m.first va).addr := by
  have small := n_le m
  dsimp only
  by_cases low : Low m.n.toNat va
  · obtain ⟨index, fits⟩ := low_slot m.ttbr0.toNat_lt small low
    rw [if_pos low, UInt32.toNat_add, base_toNat _ small, index1_toNat, Machine.first, level1,
      if_pos low, Slot.addr, index, Nat.mod_eq_of_lt fits]
    exact ⟨rfl, rfl⟩
  · have word := m.ttbr1.word.toNat_lt
    have below := va.toNat_lt
    have fits : m.ttbr1.word.toNat / 2 ^ 14 * 2 ^ 14 + 4 * (va.toNat / 2 ^ 20) < 2 ^ 32 := by omega
    rw [if_neg low, UInt32.toNat_add, base_toNat _ small, index1_toNat, Machine.first, level1,
      if_neg low, Slot.addr, reserved_zero _ small, Nat.mod_eq_of_lt fits]
    exact ⟨rfl, rfl⟩

theorem second_toNat (desc va : UInt32) :
    (desc &&& abtpteL1PteMask).toNat = (level2 desc va).table ∧
      ((desc &&& abtpteL1PteMask) + (((va >>> 12) &&& 0xff) <<< 2)).toNat =
        (level2 desc va).addr := by
  have mask : abtpteL1PteMask = ~~~(((1 : UInt32) <<< 10) - 1) := rfl
  have ten : (10 : UInt32).toNat = 10 := rfl
  have table : (desc &&& abtpteL1PteMask).toNat = desc.toNat / 2 ^ 10 * 2 ^ 10 := by
    rw [mask, toNat_align _ (by decide), ten]
  have word := desc.toNat_lt
  refine ⟨table, ?_⟩
  rw [UInt32.toNat_add, table, index2_toNat, level2, Slot.addr]
  exact Nat.mod_eq_of_lt (by omega)

/-! ## Tests -/

theorem reads_iff {m : Machine} (window : m.gPhysBase.toNat + m.memSize.toNat < 2 ^ 32)
    (p : UInt32) : m.reads p ↔ m.InWindow p.toNat := by
  have end_ : (m.gPhysBase + m.memSize).toNat = m.gPhysBase.toNat + m.memSize.toNat := by
    rw [UInt32.toNat_add, Nat.mod_eq_of_lt window]
  rw [Machine.reads, Machine.InWindow, Bool.not_eq_true', Bool.or_eq_false_iff,
    decide_eq_false_iff_not, decide_eq_false_iff_not, UInt32.lt_iff_toNat_lt,
    UInt32.le_iff_toNat_le, end_, Nat.not_lt, Nat.not_le]

theorem coarse_iff (desc : UInt32) :
    desc &&& abtpteL1TypeMask = abtpteL1TypeCoarse ↔ desc.toNat % 4 = 1 := by
  have mask : abtpteL1TypeMask.toNat = 2 ^ 2 - 1 := rfl
  rw [← UInt32.toNat_inj, UInt32.toNat_and, mask, Nat.and_two_pow_sub_one_eq_mod]
  exact Iff.rfl

theorem small_iff (desc : UInt32) : desc &&& abtpteL2SmallPage = 0 ↔ desc.toNat % 4 < 2 := by
  have mask : abtpteL2SmallPage.toNat = 2 ^ 1 := rfl
  have zero : (0 : UInt32).toNat = 0 := rfl
  rw [← UInt32.toNat_inj, UInt32.toNat_and, mask, Nat.and_two_pow, Nat.testBit_eq_decide_div_mod_eq,
    zero]
  by_cases bit : desc.toNat / 2 ^ 1 % 2 = 1
  · rw [decide_eq_true bit, Bool.toNat_true]
    omega
  · rw [decide_eq_false bit, Bool.toNat_false]
    omega

/-! ## The answer -/

/-- A word that describes a small page, else nothing. -/
def small (word : UInt32) : UInt32 := if word &&& abtpteL2SmallPage = 0 then 0 else word

def Machine.aliasedWord (m : Machine) (pa : UInt32) : UInt32 :=
  (stage90ReadL2WordAliased m ⟨0, 0, 0, 0, 0, 0, 0⟩ pa).1

theorem aliasedWord_eq (m : Machine) (w : WalkStatics) (pa : UInt32) :
    (stage90ReadL2WordAliased m w pa).1 = m.aliasedWord pa := by
  rw [Machine.aliasedWord, stage90ReadL2WordAliased, stage90ReadL2WordAliased]
  dsimp only
  cases entryMmioSection m abtpteAliasVaA (pa &&& abtpteSectMask) with
  | some i => rfl
  | none =>
      cases entryMmioSection m abtpteAliasVaB (pa &&& abtpteSectMask) with
      | some i => rfl
      | none => rfl

variable {m : Machine} (window : m.gPhysBase.toNat + m.memSize.toNat < 2 ^ 32)

def Machine.leafWord (m : Machine) (s : Slot) (allowAlias : UInt32) : UInt32 :=
  if m.InWindow s.addr then m.mem s.addr
  else if allowAlias = 0 then 0 else m.aliasedWord (UInt32.ofNat s.addr)

include window in
theorem readLeaf_leaf (w : WalkStatics) (va l1p l1e allowAlias : UInt32) :
    (readLeaf m w va l1p l1e allowAlias).leaf =
      if (level2 l1e va).table ≠ 0 then small (m.leafWord (level2 l1e va) allowAlias) else 0 := by
  obtain ⟨table, addr⟩ := second_toNat l1e va
  have zero : l1e &&& abtpteL1PteMask = 0 ↔ (level2 l1e va).table = 0 := by
    rw [← table, ← UInt32.toNat_inj]
    exact Iff.rfl
  have inside := reads_iff window ((l1e &&& abtpteL1PteMask) + (((va >>> 12) &&& 0xff) <<< 2))
  rw [addr] at inside
  rw [readLeaf, Machine.leafWord]
  by_cases none_ : (level2 l1e va).table = 0
  · rw [if_pos (zero.mpr none_), if_neg (not_not.mpr none_)]
  · rw [if_neg fun is => none_ (zero.mp is), if_pos none_]
    by_cases holds : m.InWindow (level2 l1e va).addr
    · rw [if_pos (inside.mpr holds), if_pos holds, addr, small]
      dsimp only
      split
      · rfl
      · rfl
    · rw [if_neg fun is => holds (inside.mp is), if_neg holds]
      by_cases refused : allowAlias = 0
      · rw [if_pos refused, if_pos refused]
        rfl
      · have word : UInt32.ofNat (level2 l1e va).addr =
            (l1e &&& abtpteL1PteMask) + (((va >>> 12) &&& 0xff) <<< 2) := by
          rw [← addr, UInt32.ofNat_toNat]
        rw [if_neg refused, if_neg refused, word, ← aliasedWord_eq m { w with oow := 1 }, small]
        dsimp only
        split
        · rfl
        · rfl

include window in
theorem readTable_leaf (w : WalkStatics) (va allowAlias : UInt32) :
    (readTable m w (if Low m.n.toNat va then m.ttbr0 else m.ttbr1.word) va allowAlias).leaf =
      if m.Holds (m.first va) ∧ (m.mem (m.first va).addr).toNat % 4 = 1 ∧
          (m.second va).table ≠ 0 then
        small (m.leafWord (m.second va) allowAlias)
      else 0 := by
  obtain ⟨table, addr⟩ := @first_toNat m va
  generalize (if Low m.n.toNat va then m.ttbr0 else m.ttbr1.word) = base at table addr
  have zero : entryTtbrBase base m.n = 0 ↔ (m.first va).table = 0 := by
    rw [← table, ← UInt32.toNat_inj]
    exact Iff.rfl
  have inside := reads_iff window (entryTtbrBase base m.n + (((va >>> 20) &&& 0xfff) <<< 2))
  rw [addr] at inside
  rw [readTable]
  by_cases none_ : (m.first va).table = 0
  · rw [if_pos (zero.mpr none_), if_neg fun all => all.1.1 none_]
  · rw [if_neg fun is => none_ (zero.mp is)]
    by_cases holds : m.InWindow (m.first va).addr
    · dsimp only
      rw [inside.mpr holds, Bool.not_true, if_neg Bool.false_ne_true, addr]
      by_cases coarse : (m.mem (m.first va).addr).toNat % 4 = 1
      · rw [if_neg (not_not.mpr ((coarse_iff _).mpr coarse)), readLeaf_leaf window]
        have same : level2 (m.mem (m.first va).addr) va = m.second va := rfl
        rw [same]
        by_cases some_ : (m.second va).table ≠ 0
        · rw [if_pos some_, if_pos ⟨⟨none_, holds⟩, coarse, some_⟩]
        · rw [if_neg some_, if_neg fun all => some_ all.2.2]
      · rw [if_pos fun is => coarse ((coarse_iff _).mp is), if_neg fun all => coarse all.2.1]
    · have outside : m.reads (entryTtbrBase base m.n + (((va >>> 20) &&& 0xfff) <<< 2)) = false :=
        Bool.eq_false_iff.mpr fun is => holds (inside.mp is)
      dsimp only
      rw [outside, Bool.not_false, if_pos rfl, if_neg fun all => holds all.1.2]

def Machine.Sees (m : Machine) (witness : Bool) (va : UInt32) : Prop :=
  Low m.n.toNat va ∨ witness

instance (m : Machine) (witness : Bool) (va : UInt32) : Decidable (m.Sees witness va) :=
  inferInstanceAs (Decidable (_ ∨ _))

theorem read_eq (witness : Bool) (m : Machine) (w : WalkStatics) (va allowAlias : UInt32) :
    ∃ w', stage90ReadL2Pte witness m w va allowAlias =
      if m.Sees witness va then
        readTable m w' (if Low m.n.toNat va then m.ttbr0 else m.ttbr1.word) va allowAlias
      else ⟨0, 0, 0, w', m.mem, []⟩ := by
  have chosen := low_iff m va
  rw [stage90ReadL2Pte]
  by_cases low : Low m.n.toNat va
  · have sees : m.Sees witness va := Or.inl low
    refine ⟨if witness then { w with tt1 := 0 } else w, ?_⟩
    rw [if_pos sees, if_pos low]
    cases chosen.mpr low with
    | inl zero => exact if_pos zero
    | inr below =>
        rw [if_pos below]
        exact ite_self _
  · have high := fun is => low (chosen.mp is)
    rw [if_neg fun zero => high (.inl zero), if_neg fun below => high (.inr below), if_neg low]
    cases witness with
    | true =>
        have sees : m.Sees true va := Or.inr rfl
        exact ⟨{ w with tt1 := 1 }, (if_pos sees).symm⟩
    | false =>
        have blind : ¬ m.Sees false va := fun sees => sees.elim low Bool.false_ne_true
        exact ⟨w, (if_neg blind).symm⟩

/-- The walk gets to a second level that the walker looks at. -/
def Machine.Reaches (m : Machine) (witness : Bool) (va : UInt32) : Prop :=
  m.Sees witness va ∧ m.Holds (m.first va) ∧ (m.mem (m.first va).addr).toNat % 4 = 1 ∧
    (m.second va).table ≠ 0

instance (m : Machine) (witness : Bool) (va : UInt32) : Decidable (m.Reaches witness va) :=
  inferInstanceAs (Decidable (_ ∧ _ ∧ _ ∧ _))

include window in
theorem read_leaf (witness : Bool) (w : WalkStatics) (va allowAlias : UInt32) :
    (stage90ReadL2Pte witness m w va allowAlias).leaf =
      if m.Reaches witness va then small (m.leafWord (m.second va) allowAlias) else 0 := by
  obtain ⟨w', read⟩ := read_eq witness m w va allowAlias
  rw [read]
  by_cases sees : m.Sees witness va
  · rw [if_pos sees, readTable_leaf window]
    by_cases all : m.Holds (m.first va) ∧ (m.mem (m.first va).addr).toNat % 4 = 1 ∧
        (m.second va).table ≠ 0
    · rw [if_pos all, if_pos ⟨sees, all⟩]
    · rw [if_neg all, if_neg fun is => all is.2]
  · rw [if_neg sees, if_neg fun is => sees is.1]

/-! ## The architecture's answer -/

/-- The leaf of a walk that ends in a small page, where the walker may read both slots. -/
def Machine.expected (m : Machine) (witness : Bool) (va : UInt32) : UInt32 :=
  match m.translation va with
  | .smallPage first second leaf =>
      if m.Sees witness va ∧ m.Holds first ∧ m.Holds second then leaf else 0
  | _ => 0

theorem translation_smallPage (m : Machine) (va : UInt32) (first second : Slot) (leaf : UInt32) :
    m.translation va = .smallPage first second leaf ↔
      first = m.first va ∧ (m.mem first.addr).toNat % 4 = 1 ∧
        second = level2 (m.mem first.addr) va ∧ leaf = m.mem second.addr ∧ 2 ≤ leaf.toNat % 4 :=
  walk_smallPage m.mem m.ttbr0 m.ttbr1 m.n.toNat va first second leaf

theorem expected_eq (m : Machine) (witness : Bool) (va : UInt32) :
    m.expected witness va =
      if m.Reaches witness va ∧ m.InWindow (m.second va).addr then
        small (m.mem (m.second va).addr)
      else 0 := by
  rw [Machine.expected]
  cases ends : m.translation va with
  | smallPage first second leaf =>
      obtain ⟨here, coarse, below, word, page⟩ := (translation_smallPage m va _ _ _).mp ends
      subst here below word
      have same : level2 (m.mem (m.first va).addr) va = m.second va := rfl
      have some_ : small (m.mem (m.second va).addr) = m.mem (m.second va).addr := by
        apply if_neg
        rw [small_iff]
        exact Nat.not_lt.mpr page
      dsimp only
      rw [same, some_]
      by_cases all : m.Sees witness va ∧ m.Holds (m.first va) ∧ m.Holds (m.second va)
      · rw [if_pos all, if_pos ⟨⟨all.1, all.2.1, coarse, all.2.2.1⟩, all.2.2.2⟩]
      · rw [if_neg all, if_neg fun both => all ⟨both.1.1, both.1.2.1, both.1.2.2.2, both.2⟩]
  | _ =>
      -- below a coarse entry the leaf is no small page
      symm
      rw [ite_eq_right_iff]
      intro ⟨reaches, _⟩
      apply if_pos
      rw [small_iff, ← Nat.not_le]
      intro page
      have is := (translation_smallPage m va _ _ _).mpr ⟨rfl, reaches.2.2.1, rfl, rfl, page⟩
      rw [ends] at is
      cases is

/-! ## What the walker loads -/

theorem first_aligned (m : Machine) (va : UInt32) : 4 ∣ (m.first va).addr := by
  have small := n_le m
  have power : 4 ∣ 2 ^ (14 - m.n.toNat) := Nat.pow_dvd_pow 2 (by omega : 2 ≤ 14 - m.n.toNat)
  rw [Machine.first, level1]
  split
  · exact Nat.dvd_add (Nat.dvd_mul_left_of_dvd power _) (Nat.dvd_mul_right 4 _)
  · exact Nat.dvd_add (Nat.dvd_mul_left_of_dvd (by decide) _) (Nat.dvd_mul_right 4 _)

theorem level2_aligned (desc va : UInt32) : 4 ∣ (level2 desc va).addr :=
  Nat.dvd_add (Nat.dvd_mul_left_of_dvd (by decide) _) (Nat.dvd_mul_right 4 _)

def Machine.Word (m : Machine) (p : Nat) : Prop := m.InWindow p ∧ 4 ∣ p

include window in
theorem readLeaf_loads (w : WalkStatics) (va l1p l1e allowAlias : UInt32) :
    ∀ p ∈ (readLeaf m w va l1p l1e allowAlias).loads, p = l1p ∨ m.Word p.toNat := by
  obtain ⟨_, addr⟩ := second_toNat l1e va
  have inside := reads_iff window ((l1e &&& abtpteL1PteMask) + (((va >>> 12) &&& 0xff) <<< 2))
  have alone : ∀ p ∈ [l1p], p = l1p ∨ m.Word p.toNat := by
    intro p member
    exact .inl (List.mem_singleton.mp member)
  rw [readLeaf]
  by_cases none_ : l1e &&& abtpteL1PteMask = 0
  · rw [if_pos none_]
    exact alone
  · rw [if_neg none_]
    by_cases holds : m.reads ((l1e &&& abtpteL1PteMask) + (((va >>> 12) &&& 0xff) <<< 2))
    · have both : ∀ p ∈ [l1p, (l1e &&& abtpteL1PteMask) + (((va >>> 12) &&& 0xff) <<< 2)],
          p = l1p ∨ m.Word p.toNat := by
        intro p member
        rw [List.mem_cons, List.mem_singleton] at member
        cases member with
        | inl is => exact .inl is
        | inr is =>
            subst is
            refine .inr ⟨inside.mp holds, ?_⟩
            rw [addr]
            exact level2_aligned l1e va
      rw [if_pos holds]
      dsimp only
      split
      · exact both
      · exact both
    · rw [if_neg holds]
      dsimp only
      split
      · exact alone
      · split
        · exact alone
        · exact alone

include window in
theorem readTable_loads (w : WalkStatics) (va allowAlias : UInt32) :
    ∀ p ∈ (readTable m w (if Low m.n.toNat va then m.ttbr0 else m.ttbr1.word) va allowAlias).loads,
      m.Word p.toNat := by
  obtain ⟨_, addr⟩ := @first_toNat m va
  generalize (if Low m.n.toNat va then m.ttbr0 else m.ttbr1.word) = base at addr
  have inside := reads_iff window (entryTtbrBase base m.n + (((va >>> 20) &&& 0xfff) <<< 2))
  have none_ : ∀ p ∈ ([] : List UInt32), m.Word p.toNat := by
    intro p member
    cases member
  rw [readTable]
  split
  · exact none_
  · dsimp only
    split
    · exact none_
    · rename_i holds
      have first : m.Word (entryTtbrBase base m.n + (((va >>> 20) &&& 0xfff) <<< 2)).toNat := by
        refine ⟨inside.mp (by simpa using holds), ?_⟩
        rw [addr]
        exact first_aligned m va
      split
      · intro p member
        rw [List.mem_singleton.mp member]
        exact first
      · intro p member
        cases readLeaf_loads window _ va _ _ allowAlias p member with
        | inl is =>
            rw [is]
            exact first
        | inr word => exact word

include window in
theorem read_loads (witness : Bool) (w : WalkStatics) (va allowAlias : UInt32) :
    ∀ p ∈ (stage90ReadL2Pte witness m w va allowAlias).loads, m.Word p.toNat := by
  obtain ⟨w', read⟩ := read_eq witness m w va allowAlias
  rw [read]
  split
  · exact readTable_loads window w' va allowAlias
  · intro p member
    cases member

/-! ## The refinement -/

include window in
/-- Without the alias the walker answers with the leaf of the architecture's walk where the
window holds both of its slots, and with 0 otherwise; the alias only adds leaves behind it.  Each
word that it loads lies in the window. -/
theorem read_l2_pte_agrees (witness : Bool) (w : WalkStatics) (va allowAlias : UInt32) :
    let a := stage90ReadL2Pte witness m w va allowAlias
    (allowAlias = 0 ∨ m.InWindow (m.second va).addr → a.leaf = m.expected witness va) ∧
      (allowAlias ≠ 0 ∧ ¬ m.InWindow (m.second va).addr →
        a.leaf = if m.Reaches witness va then
          small (m.aliasedWord (UInt32.ofNat (m.second va).addr)) else 0) ∧
      ∀ p ∈ a.loads, m.InWindow p.toNat ∧
        (4 ∣ m.gPhysBase.toNat → 4 ∣ m.memSize.toNat →
          p.toNat + 4 ≤ m.gPhysBase.toNat + m.memSize.toNat) := by
  intro a
  have leaf : a.leaf = _ := read_leaf window witness w va allowAlias
  refine ⟨?_, ?_, ?_⟩
  · intro direct
    rw [leaf, expected_eq]
    by_cases reaches : m.Reaches witness va
    · rw [if_pos reaches, Machine.leafWord]
      by_cases inside : m.InWindow (m.second va).addr
      · rw [if_pos inside, if_pos ⟨reaches, inside⟩]
      · rw [if_neg inside, if_pos (direct.resolve_right inside), if_neg fun both => inside both.2]
        rfl
    · rw [if_neg reaches, if_neg fun both => reaches both.1]
  · intro ⟨allowed, outside⟩
    rw [leaf, Machine.leafWord, if_neg outside, if_neg allowed]
  · intro p member
    obtain ⟨⟨lower, upper⟩, aligned⟩ := read_loads window witness w va allowAlias p member
    refine ⟨⟨lower, upper⟩, ?_⟩
    intro base size
    omega

/-- One coarse entry at `slot`, and one leaf at the head of its table. -/
def oneLeaf (slot : Nat) (table leaf : UInt32) (p : Nat) : UInt32 :=
  if p = slot then table ||| 1 else if p = table.toNat then leaf else 0

/-- A machine with both tables registered at `base`, over the window that the boot hands out. -/
def bootMachine (base ttbcr : UInt32) (reserved : base &&& 0x3f80 = 0) (mem : Nat → UInt32) :
    Machine :=
  ⟨mem, base, ⟨base, reserved⟩, ttbcr, 0x80000000, 0x1e400000, 1, 0xc⟩

def clearStatics : WalkStatics := ⟨0, 0, 0, 0, 0, 0, 0⟩

theorem read_l2_pte_finds_leaf :
    let m := bootMachine 0x80a00000 2 (by decide) (oneLeaf 0x80a00000 0x80b00000 0x80c0045e)
    (stage90ReadL2Pte true m clearStatics 0 0).leaf = 0x80c0045e := by
  intro m
  have agrees := (read_l2_pte_agrees (m := m) (by decide) true clearStatics 0 0).1 (.inl rfl)
  exact agrees.trans (by decide)

/-- With the alias a leaf outside of the window is answered.  A second level at address 0 is
not read, and a build without the witness does not walk `TTBR1`, though the window holds both
tables. -/
theorem read_l2_pte_by_design :
    let low := bootMachine 0x80a00000 0 (by decide) (oneLeaf 0x80a00000 0x46300000 0x1000045e)
    let null : Machine :=
      { bootMachine 0x4000 0 (by decide) (oneLeaf 0x4000 0 0x1000045e) with gPhysBase := 0 }
    let high := bootMachine 0x80a00000 1 (by decide) (oneLeaf 0x80a02000 0x80b00000 0x80c0045e)
    ((stage90ReadL2Pte true low clearStatics 0 1).leaf = 0x1000045e ∧
        ¬ low.InWindow (low.second 0).addr) ∧
      ((stage90ReadL2Pte true null clearStatics 0 0).leaf = 0 ∧
        null.translation 0 = .smallPage ⟨0x4000, 0⟩ ⟨0, 0⟩ 0x1000045e ∧
        null.InWindow 0x4000 ∧ null.InWindow 0) ∧
      (stage90ReadL2Pte false high clearStatics 0x80000000 0).leaf = 0 ∧
        high.translation 0x80000000 = .smallPage ⟨0x80a00000, 0x800⟩ ⟨0x80b00000, 0⟩ 0x80c0045e ∧
        high.InWindow 0x80a02000 ∧ high.InWindow 0x80b00000 := by
  decide

end Stage90.Mmu

import Stage90.Mmu.AbtRecorders
import Stage90.Mmu.WalkRefines

/-!
# The leaf witness

`entry_note_abt_wleaf` of `entry_stubs.c` reads the leaf that the pmap's own tables hold for the
address of the current abort, and says whether these are the tables that `TTBR0` names.
-/

set_option autoImplicit false

namespace Stage90.Mmu

open Stage90.Lib

def abtpteL2Apx : UInt32 := 0x200

def stage90WApx (leaf : UInt32) : UInt32 := if leaf &&& abtpteL2Apx ≠ 0 then 1 else 0

/-- `g_abtpte_wwn`, `_wwlastleaf` and `_wwnx`, the address of the current abort, and the base
before the enter. -/
structure LeafWitness where
  ww : Recorder
  curva : UInt32
  pre : UInt32

structure LeafRow where
  wwn : UInt32
  wwl1 : UInt32
  wwl2pa : UInt32
  wwleaf : UInt32
  wwapx : UInt32
  wwnoproof : UInt32
  wwva : UInt32
  wwft : UInt32
  wwpa : UInt32
  wwpatbl : UInt32
  wwpaok : UInt32

inductive LeafRecord
  | moved (wwpre wwpost wwmoved : UInt32)
  | row (row : LeafRow)
  | wwnx (count : UInt32)

def flag (p : Prop) [Decidable p] : UInt32 := if p then 1 else 0

/-- What the pmap's tables hold for `va`: the first descriptor, the second table, the leaf. -/
structure PmapLeaf where
  l1e : UInt32
  l2pa : UInt32
  leaf : UInt32

def pmapSlot (l1 va : UInt32) : UInt32 := l1 + (((va >>> 20) &&& 0xfff) <<< 2)

def leafSlot (l1e va : UInt32) : UInt32 :=
  (l1e &&& abtpteL1PteMask) + (((va >>> 12) &&& 0xff) <<< 2)

def pmapLeaf (m : Machine) (l1 va : UInt32) : PmapLeaf :=
  if m.reads (pmapSlot l1 va) then
    let l1e := m.mem (pmapSlot l1 va).toNat
    if l1e &&& abtpteL1TypeMask = abtpteL1TypeCoarse then
      let l2pa := l1e &&& abtpteL1PteMask
      if l2pa ≠ 0 ∧ m.reads (leafSlot l1e va) then ⟨l1e, l2pa, m.mem (leafSlot l1e va).toNat⟩
      else ⟨l1e, l2pa, 0⟩
    else ⟨l1e, 0, 0⟩
  else ⟨0, 0, 0⟩

/-- The table that the pmap at this address names, at offset 0. -/
def pmL1Phys (m : Machine) (pmap : UInt32) : UInt32 := if pmap ≠ 0 then m.mem pmap.toNat else 0

/-- `permWitness` is `STAGE90_XNU_PERM_WITNESS`. -/
def entryNoteAbtWleaf (permWitness : Bool) (m : Machine) (s : LeafWitness)
    (va pmap pa faultType : UInt32) : List LeafRecord × LeafWitness :=
  let l1 := pmL1Phys m pmap
  if l1 = 0 then ([], s)
  else if s.curva = 0 ∨ va ≠ s.curva then ([], s)
  else
    let n := s.ww.n + 1
    let ttbrBase := entryTtbrBase m.ttbr0 m.n
    let proof := flag (ttbrBase ≠ 0 ∧ ttbrBase = entryTtbrBase l1 m.n)
    let moved := flag (entryTtbrBase s.pre m.n ≠ entryTtbrBase l1 m.n)
    let t := pmapLeaf m l1 va
    let isTable := flag
      (pa <<< 12 = l1 &&& (0xfffff000 : UInt32) ∨ pa <<< 12 = t.l2pa &&& (0xfffff000 : UInt32))
    let row : LeafRow :=
      { wwn := n, wwl1 := t.l1e, wwl2pa := t.l2pa, wwleaf := t.leaf, wwapx := stage90WApx t.leaf
        wwnoproof := proof, wwva := va, wwft := faultType, wwpa := pa, wwpatbl := isTable
        wwpaok := flag (t.leaf &&& (0xfffff000 : UInt32) = pa <<< 12) }
    let noted := s.ww.note t.leaf
    ((if permWitness && onLadder n then [.moved s.pre l1 moved] else []) ++
        (if onLadder n then [.row row] else []) ++
        noted.2.elim [] fun count => [.wwnx count],
      { s with ww := noted.1 })

/-! ## What a row says -/

def Publishes (m : Machine) (s : LeafWitness) (va pmap : UInt32) : Prop :=
  pmL1Phys m pmap ≠ 0 ∧ s.curva ≠ 0 ∧ va = s.curva ∧ onLadder (s.ww.n + 1)

/-- The pmap's table is the one that `TTBR0` names. -/
def SameBase (m : Machine) (pmap : UInt32) : Prop :=
  entryTtbrBase (pmL1Phys m pmap) m.n = entryTtbrBase m.ttbr0 m.n

instance (m : Machine) (pmap : UInt32) : Decidable (SameBase m pmap) :=
  inferInstanceAs (Decidable (_ = _))

/-- The row has the walker's first descriptor and, where the walker has a leaf, its leaf. -/
def RowAgrees (row : LeafRow) (answer : Answer) : Prop :=
  row.wwl1 = answer.l1Desc ∧ (answer.ttbr0Used = 1 → row.wwleaf = answer.leaf)

/-- The rows flag a table that `TTBR0` does not name and no other, and agree with the walker on
one that it does. -/
def Truthful (records : List LeafRecord) (m : Machine) (pmap : UInt32) (answer : Answer) : Prop :=
  ∀ row, .row row ∈ records →
    (row.wwnoproof = 1 ↔ ¬ SameBase m pmap) ∧ (SameBase m pmap → RowAgrees row answer)

/-- The address is translated by `TTBR0`. -/
def Machine.Low (m : Machine) (va : UInt32) : Prop := m.n = 0 ∨ va < 1 <<< (32 - m.n)

def TablesInside (m : Machine) (l1 va : UInt32) : Prop :=
  m.reads (pmapSlot l1 va) ∧
    (m.mem (pmapSlot l1 va).toNat &&& abtpteL1TypeMask = abtpteL1TypeCoarse →
      m.reads (leafSlot (m.mem (pmapSlot l1 va).toNat) va))

section Base
variable {m : Machine}

theorem base_of_aligned {l1 : UInt32} (aligned : l1 &&& 0x3fff = 0) : entryTtbrBase l1 m.n = l1 := by
  have small := n_le m
  have low : l1.toNat % 2 ^ 14 = 0 := by
    have word := congrArg UInt32.toNat aligned
    rw [UInt32.toNat_and] at word
    exact (Nat.and_two_pow_sub_one_eq_mod l1.toNat 14).symm.trans word
  apply UInt32.toNat_inj.mp
  rw [base_toNat l1 small]
  apply Nat.div_mul_cancel
  exact (Nat.pow_dvd_pow 2 (Nat.sub_le 14 _)).trans (Nat.dvd_of_mod_eq_zero low)

/-- From the same table, the second level is the walker's where the walker has a leaf. -/
theorem readLeaf_agrees {l1 va : UInt32} (read : m.reads (pmapSlot l1 va))
    (coarse : m.mem (pmapSlot l1 va).toNat &&& abtpteL1TypeMask = abtpteL1TypeCoarse)
    (inside : m.reads (leafSlot (m.mem (pmapSlot l1 va).toNat) va)) (w : WalkStatics)
    (allowAlias : UInt32) :
    let answer := readLeaf m w va (pmapSlot l1 va) (m.mem (pmapSlot l1 va).toNat) allowAlias
    (pmapLeaf m l1 va).l1e = answer.l1Desc ∧
      (answer.ttbr0Used = 1 → (pmapLeaf m l1 va).leaf = answer.leaf) := by
  rw [pmapLeaf, if_pos read, readLeaf]
  rw [leafSlot] at inside
  dsimp only
  rw [if_pos coarse]
  by_cases table : m.mem (pmapSlot l1 va).toNat &&& abtpteL1PteMask = 0
  · rw [if_pos table, if_neg fun both => both.1 table]
    exact ⟨rfl, fun used => absurd used (by simp)⟩
  rw [if_neg table, if_pos inside, leafSlot, if_pos ⟨table, inside⟩]
  split
  · exact ⟨rfl, fun used => absurd used (by simp)⟩
  · exact ⟨rfl, fun _ => rfl⟩

theorem readTable_agrees {ttbr l1 va : UInt32} (inside : TablesInside m l1 va) (some_ : l1 ≠ 0)
    (same : entryTtbrBase ttbr m.n = l1) (w : WalkStatics) (allowAlias : UInt32) :
    (pmapLeaf m l1 va).l1e = (readTable m w ttbr va allowAlias).l1Desc ∧
      ((readTable m w ttbr va allowAlias).ttbr0Used = 1 →
        (pmapLeaf m l1 va).leaf = (readTable m w ttbr va allowAlias).leaf) := by
  obtain ⟨read, second⟩ := inside
  rw [readTable]
  dsimp only
  rw [same, if_neg some_, ← pmapSlot, if_neg (by simpa using read)]
  by_cases coarse : m.mem (pmapSlot l1 va).toNat &&& abtpteL1TypeMask = abtpteL1TypeCoarse
  · rw [if_neg (not_not.mpr coarse)]
    exact readLeaf_agrees read coarse (second coarse) _ allowAlias
  · rw [if_pos coarse, pmapLeaf, if_pos read]
    dsimp only
    rw [if_neg coarse]
    exact ⟨rfl, fun used => absurd used (by simp)⟩

theorem pmapLeaf_agrees {l1 va : UInt32} (inside : TablesInside m l1 va) (some_ : l1 ≠ 0)
    (low : m.Low va) (same : entryTtbrBase m.ttbr0 m.n = l1) (witness : Bool) (w : WalkStatics)
    (allowAlias : UInt32) :
    (pmapLeaf m l1 va).l1e = (stage90ReadL2Pte witness m w va allowAlias).l1Desc ∧
      ((stage90ReadL2Pte witness m w va allowAlias).ttbr0Used = 1 →
        (pmapLeaf m l1 va).leaf = (stage90ReadL2Pte witness m w va allowAlias).leaf) := by
  rw [stage90ReadL2Pte]
  by_cases whole : m.n = 0
  · rw [if_pos whole]
    exact readTable_agrees inside some_ same _ allowAlias
  · rw [if_neg whole, if_pos (low.resolve_left whole)]
    exact readTable_agrees inside some_ same _ allowAlias

end Base

section Rows
variable {permWitness : Bool} {m : Machine} {s : LeafWitness} {va pmap pa faultType : UInt32}

/-- A call that returns before its row, and the row of one that does not. -/
theorem row_mem_iff {row : LeafRow} :
    .row row ∈ (entryNoteAbtWleaf permWitness m s va pmap pa faultType).1 ↔
      Publishes m s va pmap ∧ row =
        { wwn := s.ww.n + 1
          wwl1 := (pmapLeaf m (pmL1Phys m pmap) va).l1e
          wwl2pa := (pmapLeaf m (pmL1Phys m pmap) va).l2pa
          wwleaf := (pmapLeaf m (pmL1Phys m pmap) va).leaf
          wwapx := stage90WApx (pmapLeaf m (pmL1Phys m pmap) va).leaf
          wwnoproof := flag (entryTtbrBase m.ttbr0 m.n ≠ 0 ∧
            entryTtbrBase m.ttbr0 m.n = entryTtbrBase (pmL1Phys m pmap) m.n)
          wwva := va
          wwft := faultType
          wwpa := pa
          wwpatbl := flag (pa <<< 12 = pmL1Phys m pmap &&& (0xfffff000 : UInt32) ∨
            pa <<< 12 = (pmapLeaf m (pmL1Phys m pmap) va).l2pa &&& (0xfffff000 : UInt32))
          wwpaok := flag ((pmapLeaf m (pmL1Phys m pmap) va).leaf &&& (0xfffff000 : UInt32) =
            pa <<< 12) } := by
  rw [entryNoteAbtWleaf, Publishes]
  by_cases null : pmL1Phys m pmap = 0
  · simp [null]
  by_cases other : s.curva = 0 ∨ va ≠ s.curva
  · rw [if_neg null, if_pos other]
    simp only [List.not_mem_nil, false_iff]
    intro both
    obtain ⟨⟨_, current, same, _⟩, _⟩ := both
    exact other.elim current fun differs => differs same
  · obtain ⟨current, same⟩ := not_or.mp other
    rw [if_neg null, if_neg other]
    have change : ∀ noted : Option UInt32,
        LeafRecord.row row ∉ noted.elim [] fun count => [LeafRecord.wwnx count] := by
      intro noted
      cases noted <;> simp
    cases permWitness <;> by_cases on : onLadder (s.ww.n + 1) <;>
      simp [on, null, current, not_not.mp same, change]

/-- Under tables that are aligned and lie in the window, no row is truthful about its base: a
row flags the table that `TTBR0` names.  What else the row says agrees with the walker. -/
theorem wleaf_truthful_iff (aligned : pmL1Phys m pmap &&& 0x3fff = 0)
    (inside : TablesInside m (pmL1Phys m pmap) va) (low : m.Low va) (witness : Bool)
    (w : WalkStatics) (allowAlias : UInt32) :
    (Truthful (entryNoteAbtWleaf permWitness m s va pmap pa faultType).1 m pmap
        (stage90ReadL2Pte witness m w va allowAlias) ↔ ¬ Publishes m s va pmap) ∧
      ∀ row, .row row ∈ (entryNoteAbtWleaf permWitness m s va pmap pa faultType).1 →
        (row.wwnoproof = 1 ↔ SameBase m pmap) ∧
          (SameBase m pmap → RowAgrees row (stage90ReadL2Pte witness m w va allowAlias)) := by
  have base := @base_of_aligned m _ aligned
  have rows : ∀ row, .row row ∈ (entryNoteAbtWleaf permWitness m s va pmap pa faultType).1 →
      (row.wwnoproof = 1 ↔ SameBase m pmap) ∧
        (SameBase m pmap → RowAgrees row (stage90ReadL2Pte witness m w va allowAlias)) := by
    intro row member
    obtain ⟨publishes, rfl⟩ := row_mem_iff.mp member
    have some_ := publishes.1
    constructor
    · rw [SameBase, base]
      dsimp only
      rw [flag]
      by_cases same : entryTtbrBase m.ttbr0 m.n = pmL1Phys m pmap
      · rw [if_pos ⟨same ▸ some_, same⟩]
        exact ⟨fun _ => same.symm, fun _ => rfl⟩
      · rw [if_neg fun both => same both.2]
        exact ⟨fun one => absurd one (by decide), fun equal => absurd equal.symm same⟩
    · intro same
      rw [SameBase, base] at same
      exact pmapLeaf_agrees inside some_ low same.symm witness w allowAlias
  refine ⟨⟨?_, ?_⟩, rows⟩
  · intro truthful publishes
    have member := (@row_mem_iff permWitness m s va pmap pa faultType _).mpr ⟨publishes, rfl⟩
    have said := (truthful _ member).1
    have flagged := (rows _ member).1
    by_cases same : SameBase m pmap
    · exact said.mp (flagged.mpr same) same
    · exact same (flagged.mp (said.mpr same))
  · intro silent row member
    exact absurd (row_mem_iff.mp member).1 silent

end Rows

/-- A pmap at 0x80100000 whose table is at `l1`, with one leaf for the first megabyte. -/
def pmapMemory (l1 : UInt32) (p : Nat) : UInt32 :=
  if p = 0x80100000 then l1 else oneLeaf l1.toNat 0x80b00000 0x80c0045e p

theorem wleaf_untruthful_live :
    let m := bootMachine 0x80a00000 2 (by decide) (pmapMemory 0x80a00000)
    let s : LeafWitness := ⟨.zero, 0x100, 0x80a00000⟩
    ¬ Truthful (entryNoteAbtWleaf true m s 0x100 0x80100000 0 3).1 m 0x80100000
      (stage90ReadL2Pte true m clearStatics 0x100 1) := by
  intro m s truthful
  refine (wleaf_truthful_iff ?_ ?_ ?_ true clearStatics 1).1.mp truthful ?_
  · decide
  · exact ⟨by decide, fun _ => by decide⟩
  · exact Or.inr (by decide)
  · exact ⟨by decide, by decide, rfl, by decide⟩

/-- The table that `TTBR0` names is flagged as one that it does not name. -/
theorem wleaf_flags_live_table :
    let m := bootMachine 0x80a00000 2 (by decide) (pmapMemory 0x80a00000)
    let s : LeafWitness := ⟨.zero, 0x100, 0x80a00000⟩
    SameBase m 0x80100000 ∧
      ((entryNoteAbtWleaf false m s 0x100 0x80100000 0 3).1.filterMap fun
        | .row row => some row.wwnoproof
        | _ => none) = [1] := by
  decide

end Stage90.Mmu

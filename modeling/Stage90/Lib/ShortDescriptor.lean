import Stage90.Lib.Masks

/-!
# Short-descriptor translation

The ARMv7 walk with `TTBCR.N` over a memory of words: which table answers, the first level and
the second.
-/

set_option autoImplicit false

namespace Stage90.Lib

structure Slot where
  table : Nat
  index : Nat
  deriving DecidableEq

def Slot.addr (s : Slot) : Nat := s.table + 4 * s.index

/-- `TTBR1`: the base in bits 31 to 14, attributes below bit 7, and zeros between. -/
structure Ttbr1 where
  word : UInt32
  reserved : word &&& 0x3f80 = 0

/-- Addresses whose top `n` bits are zero go through `TTBR0`. -/
def Low (n : Nat) (va : UInt32) : Prop := va.toNat < 2 ^ (32 - n)

instance (n : Nat) (va : UInt32) : Decidable (Low n va) := inferInstanceAs (Decidable (_ < _))

/-- The table of `TTBR0` shrinks with `n`, the table of `TTBR1` does not. -/
def level1 (ttbr0 : UInt32) (ttbr1 : Ttbr1) (n : Nat) (va : UInt32) : Slot :=
  if Low n va then ⟨ttbr0.toNat / 2 ^ (14 - n) * 2 ^ (14 - n), va.toNat / 2 ^ 20 % 2 ^ (12 - n)⟩
  else ⟨ttbr1.word.toNat / 2 ^ 14 * 2 ^ 14, va.toNat / 2 ^ 20⟩

def level2 (desc va : UInt32) : Slot :=
  ⟨desc.toNat / 2 ^ 10 * 2 ^ 10, va.toNat / 2 ^ 12 % 2 ^ 8⟩

inductive Translation where
  | fault
  | block (first : Slot) (desc : UInt32)
  | superBlock (first : Slot) (desc : UInt32)
  | largePage (first second : Slot) (desc : UInt32)
  | smallPage (first second : Slot) (desc : UInt32)
  deriving DecidableEq

def walk (mem : Nat → UInt32) (ttbr0 : UInt32) (ttbr1 : Ttbr1) (n : Nat) (va : UInt32) :
    Translation :=
  let first := level1 ttbr0 ttbr1 n va
  let desc := mem first.addr
  match desc.toNat % 4 with
  | 0 => .fault
  | 1 =>
      let second := level2 desc va
      let leaf := mem second.addr
      match leaf.toNat % 4 with
      | 0 => .fault
      | 1 => .largePage first second leaf
      | _ => .smallPage first second leaf
  | _ => if desc.toNat / 2 ^ 18 % 2 = 0 then .block first desc else .superBlock first desc

/-! ## What a walk ends at -/

def Translation.output (va : UInt32) : Translation → Option Nat
  | .fault => none
  | .block _ desc => some (desc.toNat / 2 ^ 20 * 2 ^ 20 + va.toNat % 2 ^ 20)
  | .superBlock _ desc => some (desc.toNat / 2 ^ 24 * 2 ^ 24 + va.toNat % 2 ^ 24)
  | .largePage _ _ desc => some (desc.toNat / 2 ^ 16 * 2 ^ 16 + va.toNat % 2 ^ 16)
  | .smallPage _ _ desc => some (desc.toNat / 2 ^ 12 * 2 ^ 12 + va.toNat % 2 ^ 12)

inductive MemoryType where
  | stronglyOrdered
  | device
  | normalNonCacheable
  | normalWriteThrough
  | normalWriteBack
  | other
  deriving DecidableEq

/-- The type that `TEX`, `C` and `B` select, without remapping. -/
def memoryType (tex c b : Nat) : MemoryType :=
  match tex, c, b with
  | 0, 0, 0 => .stronglyOrdered
  | 0, 0, 1 => .device
  | 0, 1, 0 => .normalWriteThrough
  | 0, 1, 1 => .normalWriteBack
  | 1, 0, 0 => .normalNonCacheable
  | 1, 1, 1 => .normalWriteBack
  | 2, 0, 0 => .device
  | _, _, _ => .other

/-- The index that `TEX[0]`, `C` and `B` of a section make with remapping. -/
def remapIndex (desc : UInt32) : Nat :=
  desc.toNat / 2 ^ 12 % 2 * 4 + desc.toNat / 8 % 2 * 2 + desc.toNat / 4 % 2

/-- The two bits of `PRRR` for an index; Normal memory is left to `NMRR`. -/
def remappedType (prrr : UInt32) (index : Nat) : MemoryType :=
  match prrr.toNat / 2 ^ (2 * index) % 4 with
  | 0 => .stronglyOrdered
  | 1 => .device
  | _ => .other

/-- The type of a section, `tre` being `SCTLR.TRE`. -/
def sectionType (tre : Bool) (prrr desc : UInt32) : MemoryType :=
  if tre then remappedType prrr (remapIndex desc)
  else memoryType (desc.toNat / 2 ^ 12 % 8) (desc.toNat / 8 % 2) (desc.toNat / 4 % 2)

def Translation.memoryType : Translation → Option MemoryType
  | .fault => none
  | .block _ desc | .superBlock _ desc | .largePage _ _ desc =>
      some (Lib.memoryType (desc.toNat / 2 ^ 12 % 8) (desc.toNat / 8 % 2) (desc.toNat / 4 % 2))
  | .smallPage _ _ desc =>
      some (Lib.memoryType (desc.toNat / 2 ^ 6 % 8) (desc.toNat / 8 % 2) (desc.toNat / 4 % 2))

theorem level1_zero (ttbr0 : UInt32) (ttbr1 : Ttbr1) (va : UInt32) :
    level1 ttbr0 ttbr1 0 va = ⟨ttbr0.toNat / 2 ^ 14 * 2 ^ 14, va.toNat / 2 ^ 20⟩ := by
  have below := va.toNat_lt
  have low : Low 0 va := below
  have index : va.toNat / 2 ^ 20 % 2 ^ (12 - 0) = va.toNat / 2 ^ 20 := by omega
  rw [level1, if_pos low, index]

theorem walk_block (mem : Nat → UInt32) (ttbr0 : UInt32) (ttbr1 : Ttbr1) (n : Nat) (va : UInt32)
    {desc : UInt32} (word : mem (level1 ttbr0 ttbr1 n va).addr = desc) (type : desc.toNat % 4 = 2)
    (plain : desc.toNat / 2 ^ 18 % 2 = 0) :
    walk mem ttbr0 ttbr1 n va = .block (level1 ttbr0 ttbr1 n va) desc := by
  rw [walk]
  dsimp only
  rw [word]
  split
  · omega
  · omega
  · rw [if_pos plain]

/-- A walk ends in a small page below a coarse entry with a leaf whose second bit is set. -/
theorem walk_smallPage (mem : Nat → UInt32) (ttbr0 : UInt32) (ttbr1 : Ttbr1) (n : Nat)
    (va : UInt32) (first second : Slot) (leaf : UInt32) :
    walk mem ttbr0 ttbr1 n va = .smallPage first second leaf ↔
      first = level1 ttbr0 ttbr1 n va ∧ (mem first.addr).toNat % 4 = 1 ∧
        second = level2 (mem first.addr) va ∧ leaf = mem second.addr ∧ 2 ≤ leaf.toNat % 4 := by
  constructor
  · intro ends
    rw [walk] at ends
    dsimp only at ends
    split at ends
    · cases ends
    · rename_i coarse
      split at ends
      · cases ends
      · cases ends
      · rename_i fault large
        cases ends
        refine ⟨rfl, coarse, rfl, rfl, ?_⟩
        rw [← Nat.not_lt]
        intro low
        obtain zero | one := Nat.le_one_iff_eq_zero_or_eq_one.mp (Nat.le_of_lt_succ low)
        · exact fault zero
        · exact large one
    · split at ends
      · cases ends
      · cases ends
  · intro ⟨here, coarse, below, word, page⟩
    subst here below word
    rw [walk]
    dsimp only
    split
    · omega
    · split
      · omega
      · omega
      · rfl
    · rename_i other
      exact absurd coarse other

end Stage90.Lib

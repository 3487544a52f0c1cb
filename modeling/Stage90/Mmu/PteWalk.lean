import Mathlib.Logic.Function.Basic
import Stage90.Lib.ShortDescriptor

/-!
# The walker

`stage90_read_l2_pte` of `entry_stubs.c`, with the temporary section through which it reaches a
table outside of the window.  Memory is a function from the address of a word to the word.
-/

set_option autoImplicit false

namespace Stage90.Mmu

open Stage90.Lib

def abtpteL1TypeMask : UInt32 := 0x3
def abtpteL1TypeCoarse : UInt32 := 0x1
def abtpteL1PteMask : UInt32 := 0xfffffc00
def abtpteL2SmallPage : UInt32 := 0x2
def abtpteAliasVaA : UInt32 := 0xd0000000
def abtpteAliasVaB : UInt32 := 0xa0000000
def abtpteSectMask : UInt32 := 0xfff00000

def liveTteTypeMask : UInt32 := 0x00000003
def liveTteTypeBlock : UInt32 := 0x00000002
def liveTtePaMask : UInt32 := 0xfff00000
def liveTteBlockAf : UInt32 := 0x00000400
def liveTteBlockSh : UInt32 := 0x00010000

/-- Memory, the translation registers, the window, and what the live channel latched. -/
structure Machine where
  mem : Nat → UInt32
  ttbr0 : UInt32
  ttbr1 : Ttbr1
  ttbcr : UInt32
  gPhysBase : UInt32
  memSize : UInt32
  /-- `g_live_state`. -/
  liveState : UInt32
  /-- `g_live_attr`. -/
  liveAttr : UInt32

/-- `TTBCR.N`. -/
def Machine.n (m : Machine) : UInt32 := m.ttbcr &&& 7

def entryTtbrAlignBits (n : UInt32) : UInt32 := 14 - n

def entryTtbrBase (ttbr n : UInt32) : UInt32 := ttbr &&& ~~~((1 <<< entryTtbrAlignBits n) - 1)

def entryLiveTtbBase (m : Machine) : UInt32 :=
  entryTtbrBase (if m.n = 0 then m.ttbr0 else m.ttbr1.word) m.n

/-- A section that was put in: its slot, the word there before, and the descriptor. -/
structure Installed where
  slot : UInt32
  before : UInt32
  desc : UInt32

/-- An occupied slot is skipped. -/
def entrySectionInstall (m : Machine) (va pa l1 : UInt32) : Option Installed :=
  let slot : UInt32 := l1 + (4 : UInt32) * (va >>> 20)
  let before := m.mem slot.toNat
  if before &&& liveTteTypeMask ≠ 0 then none
  else some ⟨slot, before,
    (pa &&& liveTtePaMask) ||| liveTteTypeBlock ||| liveTteBlockAf ||| liveTteBlockSh |||
      m.liveAttr⟩

def entryMmioSection (m : Machine) (va pa : UInt32) : Option Installed :=
  if m.liveState ≠ 1 then none
  else
    let l1 := entryLiveTtbBase m
    if l1 < 0x80000000 ∨ l1 &&& 0x3fff ≠ 0 then none else entrySectionInstall m va pa l1

/-- `g_abtpte_walk_oow` to `g_abtpte_walk_winlen`, and `g_abtpte_walk_tt1`. -/
structure WalkStatics where
  oow : UInt32
  aliasVa : UInt32
  mapOk : UInt32
  slot : UInt32
  winBase : UInt32
  winLen : UInt32
  tt1 : UInt32

/-- The word behind a section, the slot being restored afterwards. -/
def Installed.read (i : Installed) (mem : Nat → UInt32) (pa : UInt32) : UInt32 × (Nat → UInt32) :=
  let mapped := Function.update mem i.slot.toNat i.desc
  (mapped pa.toNat, Function.update mapped i.slot.toNat i.before)

def stage90ReadL2WordAliased (m : Machine) (w : WalkStatics) (l2wordPa : UInt32) :
    UInt32 × WalkStatics × (Nat → UInt32) :=
  let sect := l2wordPa &&& abtpteSectMask
  let off := l2wordPa &&& 0x000fffff
  match entryMmioSection m abtpteAliasVaA sect with
  | some i =>
      let (l2e, mem) := i.read m.mem (sect + off)
      (l2e, { w with aliasVa := abtpteAliasVaA, mapOk := 1, slot := i.before }, mem)
  | none =>
      match entryMmioSection m abtpteAliasVaB sect with
      | some i =>
          let (l2e, mem) := i.read m.mem (sect + off)
          (l2e, { w with aliasVa := abtpteAliasVaB, mapOk := 1, slot := i.before }, mem)
      | none => (0, w, m.mem)

/-- What the walker returns and writes.  `loads` are the addresses that it dereferences itself. -/
structure Answer where
  leaf : UInt32
  l1Desc : UInt32
  ttbr0Used : UInt32
  statics : WalkStatics
  mem : Nat → UInt32
  loads : List UInt32

/-- `p` lies in `[gPhysBase, gPhysBase + mem_size)`, in 32 bits. -/
def Machine.reads (m : Machine) (p : UInt32) : Bool :=
  !(p < m.gPhysBase || m.gPhysBase + m.memSize ≤ p)

def readLeaf (m : Machine) (w : WalkStatics) (va l1p l1e allowAlias : UInt32) : Answer :=
  let refuse (w : WalkStatics) (loads : List UInt32) : Answer := ⟨0, l1e, 0, w, m.mem, loads⟩
  let l2base := l1e &&& abtpteL1PteMask
  if l2base = 0 then refuse w [l1p]
  else
    let l2p := l2base + (((va >>> 12) &&& 0xff) <<< 2)
    if m.reads l2p then
      let l2e := m.mem l2p.toNat
      if l2e &&& abtpteL2SmallPage = 0 then refuse w [l1p, l2p]
      else ⟨l2e, l1e, 1, w, m.mem, [l1p, l2p]⟩
    else
      let w := { w with oow := 1 }
      if allowAlias = 0 then refuse w [l1p]
      else
        let (l2e, w, mem) := stage90ReadL2WordAliased m w l2p
        if l2e &&& abtpteL2SmallPage = 0 then ⟨0, l1e, 0, w, mem, [l1p]⟩
        else ⟨l2e, l1e, 1, w, mem, [l1p]⟩

/-- The walk from the table that `TTBCR.N` names. -/
def readTable (m : Machine) (w : WalkStatics) (base va allowAlias : UInt32) : Answer :=
  let refuse (w : WalkStatics) : Answer := ⟨0, 0, 0, w, m.mem, []⟩
  let base := entryTtbrBase base m.n
  if base = 0 then refuse w
  else
    let w := { w with winBase := m.gPhysBase, winLen := m.memSize }
    let l1p := base + (((va >>> 20) &&& 0xfff) <<< 2)
    if !m.reads l1p then refuse { w with oow := 1 }
    else
      let l1e := m.mem l1p.toNat
      if l1e &&& abtpteL1TypeMask ≠ abtpteL1TypeCoarse then ⟨0, l1e, 0, w, m.mem, [l1p]⟩
      else readLeaf m w va l1p l1e allowAlias

/-- `witness` is `STAGE90_XNU_PTE_WITNESS`: without it no address goes through `TTBR1`. -/
def stage90ReadL2Pte (witness : Bool) (m : Machine) (w : WalkStatics) (va allowAlias : UInt32) :
    Answer :=
  let w := if witness then { w with tt1 := 0 } else w
  if m.n = 0 then readTable m w m.ttbr0 va allowAlias
  else if va < 1 <<< (32 - m.n) then readTable m w m.ttbr0 va allowAlias
  else if witness then readTable m { w with tt1 := 1 } m.ttbr1.word va allowAlias
  else ⟨0, 0, 0, w, m.mem, []⟩

end Stage90.Mmu

import Stage90.Lib.FlatMemory

/-!
# The shared memory probe

`entry_smem.c`.  Every word is read at its address in the mapped section, and the addresses are
kept in the order of the reads.
-/

set_option autoImplicit false

namespace Stage90.Smem

open Stage90.Lib

def smemPhysBase : UInt32 := 0x0fa00000
def smemAliasBase : UInt32 := 0xe0000000

def heapInfoOff : UInt32 := 0xd0
def heapTocOff : UInt32 := 0xe0
def heapTocN : Nat := 512
def tocStride : UInt32 := 16
def tocAllocated : UInt32 := 0
def tocOffset : UInt32 := 4
def tocSize : UInt32 := 8
def offMax : UInt32 := 0x00100000

def ptableMagic0 : UInt32 := 0x9da5e0a8
def ptableMagic1 : UInt32 := 0xaf9ec4e2
def ptableLenOff : UInt32 := 0x0c
def ptablePartsOff : UInt32 := 0x10
def ptablePartN : UInt32 := 32
def partStride : UInt32 := 56
def partStartOff : UInt32 := 16
def partSizeOff : UInt32 := 20
def partTypeOff : UInt32 := 36

def sysMemory : UInt32 := 1
def minBankSize : UInt32 := 0x10000000
def maxBanks : UInt32 := 4

/-- What `entry_mmio_section` answers for the two sections. -/
structure Env where
  aliasMapped : UInt32
  identMapped : UInt32

def Env.readBase (env : Env) : Option UInt32 :=
  if env.aliasMapped ≠ 0 then some smemAliasBase
  else if env.identMapped ≠ 0 then some smemPhysBase
  else none

def smemWord (mem : Mem) (base off : UInt32) : UInt32 := read32 mem (base + off)

/-! ## The table of contents -/

structure Scan where
  nAlloc : UInt32
  ptableOff : UInt32
  ptableLen : UInt32
  reads : List UInt32

/-- Offset of entry `i`. -/
def tocEntry (i : Nat) : UInt32 := heapTocOff + UInt32.ofNat i * tocStride

def scanEntry (mem : Mem) (base : UInt32) (s : Scan) (i : Nat) : Scan :=
  let e := tocEntry i
  let allocated := smemWord mem base (e + tocAllocated)
  let s := { s with reads := s.reads ++ [base + (e + tocAllocated)] }
  if allocated = 0 then s
  else
    let s := { s with nAlloc := s.nAlloc + 1 }
    if s.ptableOff ≠ 0 then s
    else
      let off := smemWord mem base (e + tocOffset)
      let sz := smemWord mem base (e + tocSize)
      let s := { s with reads := s.reads ++ [base + (e + tocOffset), base + (e + tocSize)] }
      if off < offMax ∧ ptablePartsOff + partStride ≤ sz then
        let m0 := smemWord mem base (off + 0)
        let m1 := smemWord mem base (off + 4)
        let len := smemWord mem base (off + ptableLenOff)
        let s :=
          { s with reads := s.reads ++ [base + (off + 0), base + (off + 4), base + (off + ptableLenOff)] }
        if m0 = ptableMagic0 ∧ m1 = ptableMagic1 ∧ 1 ≤ len ∧ len ≤ ptablePartN then
          { s with ptableOff := off, ptableLen := len }
        else s
      else s

def scanTable (mem : Mem) (base : UInt32) (s : Scan) : Scan :=
  (List.range heapTocN).foldl (scanEntry mem base) s

/-! ## The partitions -/

structure Globals where
  probed : UInt32
  ptableFound : UInt32
  totalBytes : UInt32
  banks : UInt32
  bankStart : Vector UInt32 4
  bankSize : Vector UInt32 4

def Globals.init : Globals :=
  ⟨0, 0, 0, 0, Vector.replicate 4 0, Vector.replicate 4 0⟩

structure Walk where
  nPart : UInt32
  banks : UInt32
  total : UInt32
  bankStart : Vector UInt32 4
  bankSize : Vector UInt32 4
  reads : List UInt32

/-- Offset of partition `i`. -/
def partEntry (ptableOff : UInt32) (i : Nat) : UInt32 :=
  ptableOff + ptablePartsOff + UInt32.ofNat i * partStride

def walkPart (mem : Mem) (base ptableOff : UInt32) (s : Walk) (i : Nat) : Walk :=
  let pbase := partEntry ptableOff i
  let start := smemWord mem base (pbase + partStartOff)
  let size := smemWord mem base (pbase + partSizeOff)
  let type := smemWord mem base (pbase + partTypeOff)
  let s := { s with
    reads := s.reads ++
      [base + (pbase + partStartOff), base + (pbase + partSizeOff), base + (pbase + partTypeOff)]
    nPart := s.nPart + 1 }
  if type = sysMemory ∧ minBankSize ≤ size then
    let s :=
      if s.banks < maxBanks then
        { s with
          bankStart := s.bankStart.setIfInBounds s.banks.toNat start
          bankSize := s.bankSize.setIfInBounds s.banks.toNat size }
      else s
    { s with banks := s.banks + 1, total := s.total + size }
  else s

/-- `i < ptable_len && i < STAGE90_SMEM_PTABLE_PART_N`. -/
def walkParts (mem : Mem) (base ptableOff ptableLen : UInt32) (s : Walk) : Walk :=
  (List.range (min ptableLen.toNat ptablePartN.toNat)).foldl (walkPart mem base ptableOff) s

/-! ## The probe -/

/-- What a pass publishes of its readings, and the addresses that it read. -/
structure Report where
  mapped : UInt32
  tocAllocated : UInt32
  ptableFound : UInt32
  ptableOff : UInt32
  ptableLen : UInt32
  partSeen : UInt32
  banks : UInt32
  totalBytes : UInt32
  reads : List UInt32

/-- Before the scan the three words of `heap_info` are read. -/
def heapInfoReads (base : UInt32) : List UInt32 :=
  [base + (heapInfoOff + 0), base + (heapInfoOff + 4), base + (heapInfoOff + 8)]

/-- With a table at `s.ptableOff`, whose version is read again before its partitions. -/
def publishBanks (mem : Mem) (base : UInt32) (s : Scan) (g : Globals) : Globals × Report :=
  let walk : Walk :=
    { nPart := 0, banks := 0, total := 0, bankStart := g.bankStart, bankSize := g.bankSize
      reads := s.reads ++ [base + (s.ptableOff + 4)] }
  let w := walkParts mem base s.ptableOff s.ptableLen walk
  ({ g with
      ptableFound := 1, totalBytes := w.total, banks := w.banks
      bankStart := w.bankStart, bankSize := w.bankSize },
    { mapped := 1, tocAllocated := s.nAlloc, ptableFound := 1, ptableOff := s.ptableOff
      ptableLen := s.ptableLen, partSeen := w.nPart, banks := w.banks, totalBytes := w.total
      reads := w.reads })

/-- The first call does the pass, a later one nothing. -/
def entrySmemProbe (env : Env) (mem : Mem) (g : Globals) : Globals × Option Report :=
  if g.probed ≠ 0 then (g, none)
  else
    let g := { g with probed := 1 }
    match env.readBase with
    | none => (g, some ⟨0, 0, 0, 0, 0, 0, 0, 0, []⟩)
    | some base =>
        let s := scanTable mem base ⟨0, 0, 0, heapInfoReads base⟩
        if s.ptableOff = 0 then
          ({ g with ptableFound := 0 }, some ⟨1, s.nAlloc, 0, 0, 0, 0, 0, 0, s.reads⟩)
        else
          let r := publishBanks mem base s g
          (r.1, some r.2)

def probeReads (env : Env) (mem : Mem) (g : Globals) : List UInt32 :=
  match (entrySmemProbe env mem g).2 with
  | none => []
  | some report => report.reads

end Stage90.Smem

import Mathlib.Logic.Function.Basic
import Stage90.Lib.Masks
import Stage90.MachO.Loader

/-!
# The live page map

`stage90_xnu_arm_vm_init_full_pmap_run` of `xnu_arm_vm_init_full_pmap.c`: the tables that it builds,
the registers that it writes and the checks that it makes with the tables installed.
-/

set_option autoImplicit false

namespace Stage90.FullPmap

open Stage90.MachO (statusOk statusBase statusFail)

def virtBase : UInt32 := 0x80000000
def highAliasBase : UInt32 := 0xc0000000
def imageAliasWindow : UInt32 := 64 * 0x00100000
def imageAliasLimit : UInt32 := highAliasBase + imageAliasWindow
def gicAliasBase : UInt32 := imageAliasLimit
def ramConsoleAliasBase : UInt32 := imageAliasLimit + 0x00100000
def stage90Base : UInt32 := 0x00008000
def ramPhysBase : UInt32 := 0x80000000
def ramConsoleBase : UInt32 := 0xde500000
def ramConsoleSig : UInt32 := 0x43474244
def bootArgsRevision : UInt32 := 2
def bootArgsVersion : UInt32 := 2
def machineTypeMsm8974 : UInt32 := 0x9074

def l2EntryCount : UInt32 := 256
def l2TableCount : UInt32 := 128
def l1SectionSize : UInt32 := 0x00100000
def l1SectionMask : UInt32 := 0xfff00000
def l1TableMask : UInt32 := 0xfffffc00
def l1DescPageTable : UInt32 := 0x00000001
def l2PageSize : UInt32 := 0x00001000
def l2PageMask : UInt32 := 0xfffff000

/-- `STAGE90_PMAP_ATTR_MODE`. -/
inductive AttrMode where
  | soOnly
  | normalNc
  | normalWb
  deriving DecidableEq

def descSectionSo : UInt32 := 0x00010c02
def descSectionNormalNc : UInt32 := 0x00011c02
def descSectionNormalWb : UInt32 := 0x0001140e

def AttrMode.sectionDram : AttrMode → UInt32
  | .soOnly => descSectionSo
  | .normalNc => descSectionNormalNc
  | .normalWb => descSectionNormalWb

def AttrMode.pageDram : AttrMode → UInt32
  | .soOnly => 0x00000012
  | .normalNc => 0x00000452
  | .normalWb => 0x0000045e

/-- `STAGE90_PMAP_DESC_SECTION_RAM_CONSOLE`: the console stays uncached. -/
def AttrMode.sectionRamConsole : AttrMode → UInt32
  | .soOnly => descSectionSo
  | .normalNc => descSectionNormalNc
  | .normalWb => descSectionNormalNc

/-! ## The tables -/

/-- The build's constants: its mode, the end of its image and where its tables are. -/
structure Build where
  mode : AttrMode
  imageEnd : UInt32
  candidateL1 : UInt32
  l2Pool : UInt32

/-- The first-level table and the pool, by index, and the tables that are taken from the pool. -/
structure Tables where
  l1 : UInt32 → UInt32
  pool : UInt32 → UInt32
  allocated : UInt32

def noTables : Tables := ⟨fun _ => 0, fun _ => 0, 0⟩

def l1Index (va : UInt32) : UInt32 := (va >>> 20) &&& 0xfff

def l2Index (va : UInt32) : UInt32 := (va >>> 12) &&& 0xff

/-- A call of `map_l1_section_desc`. -/
structure SectionCall where
  va : UInt32
  pa : UInt32
  desc : UInt32

def mapL1SectionDesc (l1 : UInt32 → UInt32) (c : SectionCall) : UInt32 → UInt32 :=
  Function.update l1 (l1Index c.va) ((c.pa &&& l1SectionMask) ||| c.desc)

def Tables.mapSections (t : Tables) (calls : List SectionCall) : Tables :=
  { t with l1 := calls.foldl mapL1SectionDesc t.l1 }

def allocL2Table (t : Tables) : Option (UInt32 × Tables) :=
  if l2TableCount ≤ t.allocated then none
  else
    let first := t.allocated * l2EntryCount
    some (first,
      { t with
        pool := (List.range 256).foldl (fun pool i => Function.update pool (first + UInt32.ofNat i) 0) t.pool
        allocated := t.allocated + 1 })

/-- The pool's word at an index has this address. -/
def Build.l2Address (b : Build) (index : UInt32) : UInt32 := b.l2Pool + (4 : UInt32) * index

def mapL1PageTable (t : Tables) (va l2Base : UInt32) : Tables :=
  { t with l1 := Function.update t.l1 (l1Index va) ((l2Base &&& l1TableMask) ||| l1DescPageTable) }

def mapL2Page (mode : AttrMode) (pool : UInt32 → UInt32) (l2 va pa : UInt32) : UInt32 → UInt32 :=
  Function.update pool (l2 + l2Index va) ((pa &&& l2PageMask) ||| mode.pageDram)

/-! ## The phases -/

/-- The offsets of a loop from `off` by a megabyte up to `limit`; `none` if `off` goes past the last
megabyte, for then it is zero again. -/
def sectionOffsets : Nat → UInt32 → UInt32 → Option (List UInt32)
  | 0, _, _ => none
  | fuel + 1, off, limit =>
      if off < limit then (sectionOffsets fuel (off + l1SectionSize) limit).map (off :: ·)
      else some []

def imageOffsets (imageEnd : UInt32) : Option (List UInt32) := sectionOffsets 4097 0 imageEnd

def imageWindows (imageEnd : UInt32) : UInt32 :=
  let windows := (imageEnd + l1SectionSize - 1) / l1SectionSize
  if windows = 0 then 1 else windows

/-- Phase 1: the image at its own addresses. -/
def phase1 (mode : AttrMode) (offsets : List UInt32) : List SectionCall :=
  offsets.map fun off => ⟨off, off, mode.sectionDram⟩

/-- The pages of one window of phase 2. -/
def mapWindow (mode : AttrMode) (pool : UInt32 → UInt32) (l2 base : UInt32) : UInt32 → UInt32 :=
  (List.range 256).foldl (fun pool page =>
    let off := base + UInt32.ofNat page * l2PageSize
    mapL2Page mode pool l2 (virtBase + off) off) pool

/-- Phase 2: the image at `virtBase`, page by page.  The flag is whether the pool lasted. -/
def phase2 (b : Build) : Nat → UInt32 → Tables → Bool × Tables
  | 0, _, t => (true, t)
  | rest + 1, w, t =>
      let base := w * l1SectionSize
      match allocL2Table t with
      | none => (false, t)
      | some (l2, t) =>
          let t := mapL1PageTable t (virtBase + base) (b.l2Address l2)
          phase2 b rest (w + 1) { t with pool := mapWindow b.mode t.pool l2 base }

/-- Phase 3: 256 MB of RAM, but for the slots of phase 2. -/
def phase3 (mode : AttrMode) (windows : UInt32) : List SectionCall :=
  (((List.range 256).map fun i => 0x80200000 + UInt32.ofNat i * l1SectionSize).filter fun va =>
    ¬ va < virtBase + windows * l1SectionSize).map fun va => ⟨va, va, mode.sectionDram⟩

/-- Phase 4: the RAM console and the devices. -/
def phase4 (mode : AttrMode) : List SectionCall :=
  [⟨0xde500000, ramConsoleBase, mode.sectionDram⟩,
    ⟨0xde600000, ramConsoleBase + l1SectionSize, mode.sectionDram⟩,
    ⟨0xf9000000, 0xf9000000, descSectionSo⟩, ⟨0xfa000000, 0xfa000000, descSectionSo⟩,
    ⟨0xfc400000, 0xfc400000, descSectionSo⟩]

/-- Phase 5: the image's high alias up to its limit, and the aliases of devices. -/
def phase5 (mode : AttrMode) (offsets : List UInt32) : List SectionCall :=
  ((offsets.takeWhile fun off => highAliasBase + off < imageAliasLimit).map fun off =>
    ⟨highAliasBase + off, off, mode.sectionDram⟩) ++
    [⟨ramConsoleAliasBase, ramConsoleBase, mode.sectionDram⟩,
      ⟨gicAliasBase, 0xf9000000, descSectionSo⟩, ⟨0x0fa00000, 0x0fa00000, descSectionSo⟩]

def phase6 (b : Build) : List SectionCall :=
  [⟨b.candidateL1, b.candidateL1, b.mode.sectionDram⟩, ⟨b.l2Pool, b.l2Pool, b.mode.sectionDram⟩]

/-- All phases, over the offsets of the image.  The flag is whether the pool lasted. -/
def buildTables (b : Build) (offsets : List UInt32) : Bool × Tables :=
  let windows := imageWindows b.imageEnd
  let mapped := phase2 b windows.toNat 0 (noTables.mapSections (phase1 b.mode offsets))
  if mapped.1 then
    (true, mapped.2.mapSections
      (phase3 b.mode windows ++ phase4 b.mode ++ phase5 b.mode offsets ++ phase6 b))
  else mapped

/-! ## The run -/

structure BootArgs where
  revision : UInt32
  version : UInt32
  physBase : UInt32
  machineType : UInt32
  memSize : UInt32

structure Registers where
  ttbr0 : UInt32
  ttbcr : UInt32
  dacr : UInt32
  sctlr : UInt32

/-- What the run is given and what it reads: the status of the earlier stage, the boot arguments, the
registers before, with and after the new table, and the words that it compares. -/
structure Machine where
  postPe : Option UInt32
  args : Option BootArgs
  original : Registers
  live : Registers
  restored : Registers
  aliasProbe : UInt32
  ramConsole : UInt32
  ramConsoleAgain : UInt32
  ramConsoleIdentity : UInt32
  gicd : UInt32
  gicdAgain : UInt32
  gicdIdentity : UInt32
  highVa : UInt32
  highVaAgain : UInt32
  highVaIdentity : UInt32

def satSourcePostPeOk : UInt32 := 0x00000001
def satBootArgsValid : UInt32 := 0x00000002
def satCandidateL1Valid : UInt32 := 0x00000004
def satCandidateL1Populated : UInt32 := 0x00000008
def satControlRegsSaved : UInt32 := 0x00000010
def satLivePmapInstalled : UInt32 := 0x00000020
def satLivePmapVerified : UInt32 := 0x00000040
def satHighAliasVerified : UInt32 := 0x00000080
def satRamConsoleVerified : UInt32 := 0x00000100
def satGicVerified : UInt32 := 0x00000200
def satLivePmapRestored : UInt32 := 0x00000400
def satOriginalRestored : UInt32 := 0x00000800
def satNoPublicArmVmInit : UInt32 := 0x00001000
def satNoPublicPmapRuntime : UInt32 := 0x00002000
def satNoPersistentWrite : UInt32 := 0x00004000
def satL2TablesPopulated : UInt32 := 0x00008000
def satHighVaDataVerified : UInt32 := 0x00010000
def satSafetyBoundary : UInt32 := 0x01000000
def requiredMask : UInt32 := 0x0101ffff

def failSourcePostPe : UInt32 := 0x00000001
def failBootArgs : UInt32 := 0x00000002
def failCandidateL1Align : UInt32 := 0x00000004
def failMmuDisabled : UInt32 := 0x00000008
def failTtbr0Mismatch : UInt32 := 0x00000010
def failControlRegChanged : UInt32 := 0x00000020
def failHighAlias : UInt32 := 0x00000040
def failRamConsole : UInt32 := 0x00000080
def failGic : UInt32 := 0x00000100
def failRestore : UInt32 := 0x00000200
def failL2Alloc : UInt32 := 0x00000400
def failHighVaData : UInt32 := 0x00010000
def failSafetyBoundary : UInt32 := 0x80000000

structure Masks where
  satisfied : UInt32
  failure : UInt32

def Masks.pass (m : Masks) (bit : UInt32) : Masks := { m with satisfied := m.satisfied ||| bit }

def Masks.fail (m : Masks) (bit : UInt32) : Masks := { m with failure := m.failure ||| bit }

def Masks.check (m : Masks) (good : Bool) (satisfied failure : UInt32) : Masks :=
  if good then m.pass satisfied else m.fail failure

/-- What a run leaves.  It may not return: `returned` is what it returns. -/
structure Run where
  tables : Tables
  masks : Masks
  ttbr0Writes : List UInt32
  status : UInt32
  returned : Option Bool

/-- From the label `finish` on.  No path comes there with the new table still installed. -/
def finish (tables : Tables) (masks : Masks) (ttbr0Writes : List UInt32) : Run :=
  let masks := masks.pass (satNoPublicArmVmInit ||| satNoPublicPmapRuntime ||| satNoPersistentWrite)
  let safe := masks.satisfied ||| satSafetyBoundary = requiredMask && masks.failure = 0
  let masks := masks.check safe satSafetyBoundary failSafetyBoundary
  let status :=
    if masks.satisfied = requiredMask ∧ masks.failure = 0 then statusOk else statusFail masks.failure
  { tables, masks, ttbr0Writes, status, returned := some (status = statusOk) }

def sameTable (one two : UInt32) : Bool := one &&& 0xffffc000 = two &&& 0xffffc000

/-- The checks with the new table installed, and the return to the old one. -/
def installed (m : Machine) (candidateL1 : UInt32) (masks : Masks) : Masks :=
  let masks := masks.pass satLivePmapInstalled
  let masks := if m.live.ttbr0 &&& 0xffffc000 ≠ candidateL1 then masks.fail failTtbr0Mismatch else masks
  let masks :=
    if m.live.ttbcr ≠ m.original.ttbcr ∨ m.live.dacr ≠ m.original.dacr then
      masks.fail failControlRegChanged
    else masks
  let masks := if masks.failure = 0 then masks.pass satLivePmapVerified else masks
  let masks := masks.check (m.aliasProbe = 0x11223344) satHighAliasVerified failHighAlias
  let masks := masks.check
    (m.ramConsole = ramConsoleSig && m.ramConsoleAgain = m.ramConsoleIdentity) satRamConsoleVerified
    failRamConsole
  let masks := masks.check (m.gicd &&& 1 ≠ 0 && m.gicdAgain = m.gicdIdentity) satGicVerified failGic
  let masks := masks.check (m.highVa = 0xaabbccdd && m.highVaAgain = m.highVaIdentity)
    satHighVaDataVerified failHighVaData
  let masks := masks.pass satLivePmapRestored
  masks.check
    (sameTable m.restored.ttbr0 m.original.ttbr0 && m.restored.ttbcr = m.original.ttbcr &&
      m.restored.dacr = m.original.dacr && m.restored.sctlr = m.original.sctlr) satOriginalRestored
    failRestore

def runWithTables (b : Build) (m : Machine) (tables : Tables) (masks : Masks) : Run :=
  let masks := masks.pass (satCandidateL1Populated ||| satL2TablesPopulated)
  if m.original.sctlr &&& 1 = 0 then finish tables (masks.fail failMmuDisabled) []
  else
    finish tables (installed m b.candidateL1 (masks.pass satControlRegsSaved))
      [b.candidateL1, m.original.ttbr0]

def bootArgsValid : Option BootArgs → Bool
  | none => false
  | some args =>
      args.revision = bootArgsRevision && args.version = bootArgsVersion &&
        args.physBase = stage90Base && args.machineType = machineTypeMsm8974 &&
        args.memSize = ramConsoleBase - ramPhysBase

def everyOffset : List UInt32 := (List.range 4096).map fun i => UInt32.ofNat i * l1SectionSize

def stage90XnuArmVmInitFullPmapRun (b : Build) (m : Machine) : Run :=
  let masks : Masks := ⟨0, 0⟩
  if m.postPe ≠ some statusOk then finish noTables (masks.fail failSourcePostPe) []
  else
    let masks := masks.pass satSourcePostPeOk
    if ¬ bootArgsValid m.args then finish noTables (masks.fail failBootArgs) []
    else
      let masks := masks.pass satBootArgsValid
      if b.candidateL1 &&& 0x3fff ≠ 0 then finish noTables (masks.fail failCandidateL1Align) []
      else
        let masks := masks.pass satCandidateL1Valid
        match imageOffsets b.imageEnd with
        | none =>
            { tables := noTables.mapSections (phase1 b.mode everyOffset), masks, ttbr0Writes := []
              status := statusBase, returned := none }
        | some offsets =>
            let built := buildTables b offsets
            if built.1 then runWithTables b m built.2 masks
            else finish built.2 (masks.fail failL2Alloc) []

end Stage90.FullPmap

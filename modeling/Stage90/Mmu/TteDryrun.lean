import Mathlib.Logic.Function.Basic
import Stage90.Lib.Masks
import Stage90.MachO.Probe

/-!
# The dry-run tables

`stage90_xnu_tte_dryrun_build` of `macho_probe.c`: an identity table and a table for the image's
own addresses, both of one-megabyte sections, and the checks on them.
-/

set_option autoImplicit false

namespace Stage90.Dryrun

open Stage90.Lib
open Stage90.MachO (statusOk statusFail)
open Stage90.Probe (Result addOverflowU32 alignUpCheckedU32 ramPhysBase ramConsoleBase)

def ramConsoleSize : UInt32 := 0x00200000
def stagingArenaCap : UInt32 := 0x00010000
def workspaceBytes : UInt32 := 0x0000a000
def l1Align : UInt32 := 0x00004000
def l1Size : UInt32 := 0x00004000
def l1EntryCount : UInt32 := 4096
def l2Align : UInt32 := 0x00000400
def l2Size : UInt32 := 0x00001000
def descSectionSo : UInt32 := 0x00010c02
def descTypeMask : UInt32 := 0x00000003
def descTypeSection : UInt32 := 0x00000002
def descBaseMask : UInt32 := 0xfff00000
def descAttrMask : UInt32 := 0x000fffff
def sectionOffsetMask : UInt32 := 0x000fffff
def gicFirst : UInt32 := 0xf9000000
def gicLast : UInt32 := 0xf9022000

/-! ## Sections -/

abbrev L1 : Type := UInt32 → UInt32

def alignUpU32 (value alignment : UInt32) : UInt32 := (alignUpCheckedU32 value alignment).getD 0

def rangesOverlapU32 (aBase aLimit bBase bLimit : UInt32) : Bool :=
  if aLimit ≤ aBase ∨ bLimit ≤ bBase then true else aBase < bLimit && bBase < aLimit

def sectionFirstIndex (addr : UInt32) : UInt32 := addr >>> 20

def sectionLastIndex (limit : UInt32) : UInt32 := (limit - 1) >>> 20

def sectionIndices (first last : UInt32) : List UInt32 :=
  (List.range' first.toNat (min (last.toNat + 1) l1EntryCount.toNat - first.toNat)).map UInt32.ofNat

def tteMapSection (l1 : L1) (index descFlags : UInt32) : L1 :=
  if index < l1EntryCount then Function.update l1 index ((index <<< 20) ||| descFlags) else l1

def tteMapSectionRange (l1 : L1) (first last descFlags : UInt32) : L1 :=
  (sectionIndices first last).foldl (fun l1 (i : UInt32) => tteMapSection l1 i descFlags) l1

def tteSectionWord (index descFlags : UInt32) : UInt32 :=
  (index <<< 20) ||| (descFlags &&& descAttrMask)

def tteDescriptorAttrsOk (word expectedFlags : UInt32) : Bool :=
  if word &&& descTypeMask ≠ descTypeSection then false
  else word &&& descAttrMask = expectedFlags &&& descAttrMask

def tteVerifySectionSlot (l1 : L1) (index descFlags : UInt32) : Bool × UInt32 :=
  if l1EntryCount ≤ index then (false, 0)
  else
    (l1 index = tteSectionWord index descFlags && tteDescriptorAttrsOk (l1 index) descFlags, l1 index)

/-- Whether all slots are as expected, and the words of the first and the last. -/
def tteVerifySectionRange (l1 : L1) (first last descFlags : UInt32) : Bool × List UInt32 :=
  if last < first ∨ l1EntryCount ≤ last then (false, [0, 0])
  else
    ((sectionIndices first last).all fun i => (tteVerifySectionSlot l1 i descFlags).1,
      [(tteVerifySectionSlot l1 first descFlags).2, (tteVerifySectionSlot l1 last descFlags).2])

def tteSectionWordPa (pa descFlags : UInt32) : UInt32 :=
  (pa &&& descBaseMask) ||| (descFlags &&& descAttrMask)

def tteMapSectionPa (l1 : L1) (va pa descFlags : UInt32) : L1 :=
  if sectionFirstIndex va < l1EntryCount then
    Function.update l1 (sectionFirstIndex va) (tteSectionWordPa pa descFlags)
  else l1

def tteMapSectionRangePa (l1 : L1) (vaBase paBase size descFlags : UInt32) : L1 :=
  if size = 0 ∨ addOverflowU32 vaBase size then l1
  else
    let vaSection := vaBase &&& descBaseMask
    let paSection := paBase &&& descBaseMask
    (sectionIndices (sectionFirstIndex vaBase) (sectionLastIndex (vaBase + size))).foldl
      (fun l1 (i : UInt32) => tteMapSectionPa l1 (i <<< 20) (paSection + ((i <<< 20) - vaSection)) descFlags) l1

def tteVerifySectionSlotPa (l1 : L1) (va expectedPa descFlags : UInt32) : Bool × UInt32 :=
  let index := sectionFirstIndex va
  if l1EntryCount ≤ index then (false, 0)
  else
    let word := l1 index
    (word = tteSectionWordPa expectedPa descFlags &&
      word &&& descBaseMask = expectedPa &&& descBaseMask && tteDescriptorAttrsOk word descFlags, word)

def tteExpectedSectionPa (va paBase : UInt32) : UInt32 :=
  (paBase &&& descBaseMask) ||| (va &&& sectionOffsetMask)

def tteSectionPaForVa (va vaBase paBase : UInt32) : UInt32 :=
  (paBase &&& descBaseMask) + ((va &&& descBaseMask) - (vaBase &&& descBaseMask))

def tteTranslateL1Section (l1 : L1) (va : UInt32) : Option UInt32 :=
  let index := sectionFirstIndex va
  if l1EntryCount ≤ index then none
  else
    let desc := l1 index
    if desc &&& descTypeMask ≠ descTypeSection then none
    else some ((desc &&& descBaseMask) ||| (va &&& sectionOffsetMask))

def tteExpectTranslation (l1 : L1) (va expectedPa : UInt32) : Bool :=
  tteTranslateL1Section l1 va = some expectedPa

def tteL2AndScratchZeroed (arena : UInt32 → UInt32) : Bool :=
  (List.range' (l1Size.toNat / 4) ((workspaceBytes.toNat - l1Size.toNat) / 4)).all fun i =>
    arena (UInt32.ofNat i) = 0

/-! ## Checks -/

/-- A condition and the bits that it sets in one mask or in the other. -/
structure Check where
  holds : Bool
  satisfied : UInt32
  failure : UInt32

def satisfiedMask (checks : List Check) : UInt32 :=
  orAll ((checks.filter fun c => c.holds).map Check.satisfied)

def failureMask (checks : List Check) : UInt32 :=
  orAll ((checks.filter fun c => !c.holds).map Check.failure)

def satWorkspaceRange : UInt32 := 0x00000001
def satWorkspaceAlignment : UInt32 := 0x00000002
def satLayoutFits : UInt32 := 0x00000004
def satKernelMapping : UInt32 := 0x00000008
def satDeviceMapping : UInt32 := 0x00000010
def satRamConsoleMapping : UInt32 := 0x00000020
def satNoOverlap : UInt32 := 0x00000040
def satNoTtbrWrite : UInt32 := 0x00000080
def satCachesUnchanged : UInt32 := 0x00000100
def satLocalSimOnly : UInt32 := 0x00000200
def satDescriptorReadback : UInt32 := 0x00000400
def satDescriptorAttrs : UInt32 := 0x00000800
def satTranslationKernel : UInt32 := 0x00001000
def satTranslationLowRam : UInt32 := 0x00002000
def satTranslationConsole : UInt32 := 0x00004000
def satTranslationDevice : UInt32 := 0x00008000
def satXnuBootPolicy : UInt32 := 0x00010000
def satHighvaMapping : UInt32 := 0x00020000
def satHighvaTranslation : UInt32 := 0x00040000
def satSafeTable : UInt32 := 0x00080000
def satStageOwnedTables : UInt32 := 0x00100000
def satRequired : UInt32 := 0x001fffff

def failWorkspaceRange : UInt32 := 0x00000001
def failWorkspaceAlignment : UInt32 := 0x00000002
def failLayoutOverflow : UInt32 := 0x00000004
def failKernelMapping : UInt32 := 0x00000008
def failDeviceMapping : UInt32 := 0x00000010
def failRamConsoleMapping : UInt32 := 0x00000020
def failOverlap : UInt32 := 0x00000040
def failLocalArenaAlias : UInt32 := 0x00000080
def failDescriptorReadback : UInt32 := 0x00000200
def failDescriptorAttrs : UInt32 := 0x00000400
def failTranslationKernel : UInt32 := 0x00000800
def failTranslationLowRam : UInt32 := 0x00001000
def failTranslationConsole : UInt32 := 0x00002000
def failTranslationDevice : UInt32 := 0x00004000
def failXnuBootPolicy : UInt32 := 0x00008000
def failHighvaMapping : UInt32 := 0x00010000
def failHighvaTranslation : UInt32 := 0x00020000
def failSafeTable : UInt32 := 0x00040000
def failStageOwnedTables : UInt32 := 0x00080000
def failSafety : UInt32 := 0x80000000

/-- No table is mapped over one of these. -/
def failUnmappable : UInt32 :=
  failKernelMapping ||| failDeviceMapping ||| failRamConsoleMapping ||| failLayoutOverflow

def verifyLowmem : UInt32 := 0x00000003
def verifyKernel : UInt32 := 0x0000000c
def verifyRamConsole : UInt32 := 0x00000010
def verifyGic : UInt32 := 0x00000060
def verifyHighvaFirst : UInt32 := 0x00000080
def verifyHighvaLast : UInt32 := 0x00000100
def verifyRequired : UInt32 := 0x000001ff

def translateKernelFirst : UInt32 := 0x00000001
def translateKernelLast : UInt32 := 0x00000002
def translateLowRam : UInt32 := 0x00000004
def translateRamConsole : UInt32 := 0x00000008
def translateGic : UInt32 := 0x00000010
def translateHighvaFirst : UInt32 := 0x00000020
def translateHighvaLast : UInt32 := 0x00000040

def policyBootTtep : UInt32 := 0x00000001
def policyWorkspace : UInt32 := 0x00000002
def policyAvailStart : UInt32 := 0x00000004
def policyAvailEnd : UInt32 := 0x00000008
def policySafeDryrun : UInt32 := 0x00000010
def policyRequired : UInt32 := 0x0000001f

def safeKindIdentity : UInt32 := 0x00000001
def safeKindHighva : UInt32 := 0x00000002
def safeKindRequired : UInt32 := 0x00000003

/-! ## Where things are -/

/-- The static arrays of the builder and of what it stays clear of. -/
structure Arenas where
  embeddedMacho : UInt32
  embeddedMachoSize : UInt32
  machoStaging : UInt32
  tteDryrun : UInt32
  safeTable : UInt32

structure Preflight where
  proposedPhysBase : UInt32
  proposedMemSize : UInt32
  proposedTopOfKernelData : UInt32
  proposedAvailStart : UInt32
  proposedTtepWorkspaceBase : UInt32

structure Layout where
  workspaceBase : UInt32
  workspaceLimit : UInt32
  localArenaBase : UInt32
  localArenaLimit : UInt32
  l1TableBase : UInt32
  l1TableLimit : UInt32
  l2TableBase : UInt32
  l2TableLimit : UInt32
  scratchBase : UInt32
  scratchLimit : UInt32

def sumOrZero (a b : UInt32) : UInt32 := if addOverflowU32 a b then 0 else a + b

def layOut (a : Arenas) (preflight : Preflight) : Layout :=
  let base := preflight.proposedTtepWorkspaceBase
  let workspaceLimit := sumOrZero base workspaceBytes
  let l1Limit := sumOrZero base l1Size
  let l2Limit := sumOrZero l1Limit l2Size
  { workspaceBase := base, workspaceLimit, localArenaBase := a.tteDryrun
    localArenaLimit := sumOrZero a.tteDryrun workspaceBytes, l1TableBase := base
    l1TableLimit := l1Limit, l2TableBase := l1Limit, l2TableLimit := l2Limit
    scratchBase := l2Limit, scratchLimit := if l2Limit ≤ workspaceLimit then workspaceLimit else 0 }

structure Sections where
  kernelFirst : UInt32
  kernelLast : UInt32
  lowmemFirst : UInt32
  lowmemLast : UInt32
  ramConsole : UInt32
  gicFirst : UInt32
  gicLast : UInt32

def sectionsOf (probe : Result) : Sections :=
  let kernel := probe.loadPhysBase < probe.loadPhysEnd
  { kernelFirst := if kernel then sectionFirstIndex probe.loadPhysBase else 0
    kernelLast := if kernel then sectionLastIndex probe.loadPhysEnd else 0
    lowmemFirst := sectionFirstIndex ramPhysBase, lowmemLast := sectionLastIndex ramConsoleBase
    ramConsole := sectionFirstIndex ramConsoleBase
    gicFirst := sectionFirstIndex Dryrun.gicFirst, gicLast := sectionFirstIndex Dryrun.gicLast }

/-- Whether an array at `base` clashes with the image, with its copies or with the console. -/
def aliasesImage (a : Arenas) (probe : Result) (base limit : UInt32) : Bool :=
  addOverflowU32 a.embeddedMacho a.embeddedMachoSize ||
    addOverflowU32 a.machoStaging stagingArenaCap ||
    rangesOverlapU32 base limit a.embeddedMacho (a.embeddedMacho + a.embeddedMachoSize) ||
    rangesOverlapU32 base limit a.machoStaging (a.machoStaging + stagingArenaCap) ||
    rangesOverlapU32 base limit ramConsoleBase (ramConsoleBase + ramConsoleSize) ||
    (probe.loadPhysEnd ≠ 0 && rangesOverlapU32 base limit probe.loadPhysBase probe.loadPhysEnd)

def layoutChecks (a : Arenas) (probe : Result) (preflight : Preflight) (w : Layout)
    (s : Sections) : List Check :=
  [⟨!addOverflowU32 w.workspaceBase workspaceBytes, 0, failWorkspaceRange⟩,
    ⟨!addOverflowU32 w.localArenaBase workspaceBytes, 0, failLocalArenaAlias⟩,
    ⟨!addOverflowU32 w.l1TableBase l1Size, 0, failLayoutOverflow⟩,
    ⟨!addOverflowU32 w.l2TableBase l2Size, 0, failLayoutOverflow⟩,
    ⟨w.scratchBase ≤ w.workspaceLimit, 0, failLayoutOverflow⟩,
    ⟨w.workspaceBase < w.workspaceLimit && w.workspaceLimit < ramConsoleBase &&
      probe.loadPhysEnd ≤ w.workspaceBase &&
      w.workspaceBase = alignUpU32 probe.loadPhysEnd l1Align &&
      w.workspaceLimit = preflight.proposedAvailStart, satWorkspaceRange, failWorkspaceRange⟩,
    ⟨w.workspaceBase &&& (l1Align - 1) = 0 && w.l1TableBase &&& (l1Align - 1) = 0 &&
      w.l2TableBase &&& (l2Align - 1) = 0, satWorkspaceAlignment, failWorkspaceAlignment⟩,
    ⟨w.l1TableLimit ≤ w.workspaceLimit && w.l2TableLimit ≤ w.workspaceLimit &&
      w.scratchBase ≤ w.scratchLimit && w.scratchLimit = w.workspaceLimit, satLayoutFits,
      failLayoutOverflow⟩,
    ⟨probe.loadPhysBase < probe.loadPhysEnd && s.kernelLast < l1EntryCount, satKernelMapping,
      failKernelMapping⟩,
    ⟨s.ramConsole < l1EntryCount, satRamConsoleMapping, failRamConsoleMapping⟩,
    ⟨s.gicFirst ≤ s.gicLast && s.gicLast < l1EntryCount, satDeviceMapping, failDeviceMapping⟩,
    ⟨!rangesOverlapU32 probe.loadPhysBase probe.loadPhysEnd w.workspaceBase w.workspaceLimit &&
      !rangesOverlapU32 w.workspaceBase w.workspaceLimit ramConsoleBase
        (ramConsoleBase + ramConsoleSize), satNoOverlap, failOverlap⟩,
    ⟨!aliasesImage a probe w.localArenaBase w.localArenaLimit, 0, failLocalArenaAlias⟩]

/-! ## The identity table -/

def noL1 : L1 := fun _ => 0

def mapIdentity (s : Sections) : L1 :=
  let l1 := tteMapSectionRange noL1 s.lowmemFirst s.lowmemLast descSectionSo
  let l1 := tteMapSectionRange l1 s.kernelFirst s.kernelLast descSectionSo
  let l1 := tteMapSection l1 s.ramConsole descSectionSo
  tteMapSectionRange l1 s.gicFirst s.gicLast descSectionSo

/-- The bits of `descriptor_verify_mask` and of `descriptor_failure_mask`. -/
def identityReadback (l1 : L1) (s : Sections) : List Check :=
  [⟨(tteVerifySectionRange l1 s.lowmemFirst s.lowmemLast descSectionSo).1, verifyLowmem, verifyLowmem⟩,
    ⟨(tteVerifySectionRange l1 s.kernelFirst s.kernelLast descSectionSo).1, verifyKernel, verifyKernel⟩,
    ⟨(tteVerifySectionSlot l1 s.ramConsole descSectionSo).1, verifyRamConsole, verifyRamConsole⟩,
    ⟨(tteVerifySectionRange l1 s.gicFirst s.gicLast descSectionSo).1, verifyGic, verifyGic⟩]

def identityWords (l1 : L1) (s : Sections) : List UInt32 :=
  (tteVerifySectionRange l1 s.lowmemFirst s.lowmemLast descSectionSo).2 ++
    (tteVerifySectionRange l1 s.kernelFirst s.kernelLast descSectionSo).2 ++
      [(tteVerifySectionSlot l1 s.ramConsole descSectionSo).2] ++
        (tteVerifySectionRange l1 s.gicFirst s.gicLast descSectionSo).2

def typeMaskSeen (words : List UInt32) : UInt32 := orAll (words.map (· &&& descTypeMask))

def attrMaskSeen (words : List UInt32) : UInt32 := orAll (words.map (· &&& descAttrMask))

def expectedAttrMask : UInt32 := descSectionSo &&& descAttrMask

/-- The bits of `translation_check_mask` and of `translation_failure_mask`. -/
def identityTranslation (l1 : L1) (probe : Result) : List Check :=
  (if probe.loadPhysBase < probe.loadPhysEnd then
    [⟨tteExpectTranslation l1 probe.loadPhysBase probe.loadPhysBase, translateKernelFirst,
        translateKernelFirst⟩,
      ⟨tteExpectTranslation l1 (probe.loadPhysEnd - 1) (probe.loadPhysEnd - 1), translateKernelLast,
        translateKernelLast⟩]
  else []) ++
    [⟨tteExpectTranslation l1 ramPhysBase ramPhysBase, translateLowRam, translateLowRam⟩,
      ⟨tteExpectTranslation l1 ramConsoleBase ramConsoleBase, translateRamConsole,
        translateRamConsole⟩,
      ⟨tteExpectTranslation l1 gicFirst gicFirst, translateGic, translateGic⟩]

def identityChecks (readback translation : List Check) (words : List UInt32) : List Check :=
  let required := verifyRequired &&& ~~~(verifyHighvaFirst ||| verifyHighvaLast)
  let kernel := translateKernelFirst ||| translateKernelLast
  [⟨satisfiedMask readback &&& required = required && failureMask readback = 0, satDescriptorReadback,
      failDescriptorReadback⟩,
    ⟨words.all (tteDescriptorAttrsOk · descSectionSo) && attrMaskSeen words = expectedAttrMask &&
      typeMaskSeen words = descTypeSection, satDescriptorAttrs, failDescriptorAttrs⟩,
    ⟨satisfiedMask translation &&& kernel = kernel, satTranslationKernel, failTranslationKernel⟩,
    ⟨satisfiedMask translation &&& translateLowRam ≠ 0, satTranslationLowRam,
      failTranslationLowRam⟩,
    ⟨satisfiedMask translation &&& translateRamConsole ≠ 0, satTranslationConsole,
      failTranslationConsole⟩,
    ⟨satisfiedMask translation &&& translateGic ≠ 0, satTranslationDevice, failTranslationDevice⟩]

def unmappedChecks : List Check :=
  [⟨false, 0, failDescriptorReadback ||| failDescriptorAttrs ||| failTranslationKernel |||
    failTranslationLowRam ||| failTranslationConsole ||| failTranslationDevice⟩]

/-- The checks that no register was written, and that only the first level was. -/
def safetyChecks (arena : UInt32 → UInt32) : List Check :=
  [⟨true, satNoTtbrWrite, failSafety⟩, ⟨true, satCachesUnchanged, failSafety⟩,
    ⟨tteL2AndScratchZeroed arena, satLocalSimOnly, failSafety⟩]

/-- The bits of `xnu_policy_mask`. -/
def policyBits (preflight : Preflight) (w : Layout) : List Check :=
  let availEnd := preflight.proposedPhysBase + preflight.proposedMemSize
  if addOverflowU32 preflight.proposedPhysBase preflight.proposedMemSize then []
  else
    [⟨true, policyBootTtep, 0⟩,
      ⟨w.workspaceBase = preflight.proposedTopOfKernelData, policyWorkspace, 0⟩,
      ⟨w.workspaceLimit = preflight.proposedAvailStart, policyAvailStart, 0⟩,
      ⟨preflight.proposedPhysBase < availEnd, policyAvailEnd, 0⟩, ⟨true, policySafeDryrun, 0⟩]

def policyChecks (preflight : Preflight) (w : Layout) : List Check :=
  [⟨satisfiedMask (policyBits preflight w) = policyRequired, satXnuBootPolicy, failXnuBootPolicy⟩]

/-! ## The high table -/

/-- The range that the high table maps, and the sections that it lies in. -/
structure HighVa where
  virtBase : UInt32
  virtEnd : UInt32
  physBase : UInt32
  l1First : UInt32
  l1Last : UInt32

def HighVaRange (probe : Result) : Prop :=
  probe.loadVmBase < probe.loadVmEnd ∧ probe.loadPhysBase < probe.loadPhysEnd

instance (probe : Result) : Decidable (HighVaRange probe) := inferInstanceAs (Decidable (_ ∧ _))

def highVaOf (probe : Result) : HighVa :=
  if HighVaRange probe then
    { virtBase := probe.loadVmBase &&& descBaseMask, virtEnd := probe.loadVmEnd
      physBase := probe.loadPhysBase &&& descBaseMask
      l1First := sectionFirstIndex (probe.loadVmBase &&& descBaseMask)
      l1Last := sectionLastIndex probe.loadVmEnd }
  else { virtBase := 0, virtEnd := 0, physBase := 0, l1First := 0, l1Last := 0 }

def HighVa.size (h : HighVa) : UInt32 := h.virtEnd - h.virtBase

def HighVa.lastVa (h : HighVa) : UInt32 := h.virtEnd - 1

def highVaMaps (probe : Result) (h : HighVa) : Bool :=
  HighVaRange probe && h.l1First ≤ h.l1Last && h.l1Last < l1EntryCount && h.size ≠ 0

def mapHighVa (h : HighVa) : L1 :=
  tteMapSectionRangePa noL1 h.virtBase h.physBase h.size descSectionSo

def highVaReadback (l1 : L1) (h : HighVa) : List Check :=
  [⟨(tteVerifySectionSlotPa l1 h.virtBase h.physBase descSectionSo).1, verifyHighvaFirst,
      verifyHighvaFirst⟩,
    ⟨(tteVerifySectionSlotPa l1 h.lastVa (tteSectionPaForVa h.lastVa h.virtBase h.physBase)
      descSectionSo).1, verifyHighvaLast, verifyHighvaLast⟩]

def highVaWords (l1 : L1) (h : HighVa) : List UInt32 :=
  [(tteVerifySectionSlotPa l1 h.virtBase h.physBase descSectionSo).2,
    (tteVerifySectionSlotPa l1 h.lastVa (tteSectionPaForVa h.lastVa h.virtBase h.physBase)
      descSectionSo).2]

def highVaTranslation (l1 : L1) (h : HighVa) : List Check :=
  [⟨tteExpectTranslation l1 h.virtBase (tteExpectedSectionPa h.virtBase h.physBase),
      translateHighvaFirst, translateHighvaFirst⟩,
    ⟨tteExpectTranslation l1 h.lastVa (tteExpectedSectionPa h.lastVa
      (tteSectionPaForVa h.lastVa h.virtBase h.physBase)), translateHighvaLast, translateHighvaLast⟩]

def highVaChecks (readback translation : List Check) : List Check :=
  let verified := verifyHighvaFirst ||| verifyHighvaLast
  let translated := translateHighvaFirst ||| translateHighvaLast
  [⟨satisfiedMask readback &&& verified = verified && failureMask readback &&& verified = 0,
      satHighvaMapping, failHighvaMapping⟩,
    ⟨satisfiedMask translation &&& translated = translated &&
      failureMask translation &&& translated = 0, satHighvaTranslation, failHighvaTranslation⟩]

def noHighVaChecks : List Check := [⟨false, 0, failHighvaMapping ||| failHighvaTranslation⟩]

/-! ## The safe tables -/

def SafeTableReady (base : UInt32) : Prop :=
  base ≠ 0 ∧ base < sumOrZero base (l1Size + l1Size) ∧ base &&& (l1Align - 1) = 0 ∧
    base + (l1Size + l1Size) = sumOrZero base (l1Size + l1Size)

instance (base : UInt32) : Decidable (SafeTableReady base) := inferInstanceAs (Decidable (_ ∧ _))

/-- The bits of `safe_table.kind_mask`, which `safe_table.materialized_mask` repeats and
`safe_table.written_bytes` counts. -/
def safeTableKinds (base : UInt32) (highVa : List Check) : List Check :=
  [⟨!addOverflowU32 base (l1Size + l1Size), 0, failSafeTable⟩,
    ⟨SafeTableReady base, safeKindIdentity, failSafeTable⟩,
    ⟨satisfiedMask highVa &&& satHighvaMapping ≠ 0, safeKindHighva, 0⟩]

def safeTableChecks (a : Arenas) (probe : Result) (w : Layout) (kinds : List Check) : List Check :=
  let limit := sumOrZero a.safeTable (l1Size + l1Size)
  [⟨satisfiedMask kinds = safeKindRequired && failureMask kinds = 0, satSafeTable, failSafeTable⟩,
    ⟨!(aliasesImage a probe a.safeTable limit ||
      rangesOverlapU32 a.safeTable limit w.localArenaBase w.localArenaLimit ||
      rangesOverlapU32 a.safeTable limit w.workspaceBase w.workspaceLimit), satStageOwnedTables,
      failStageOwnedTables⟩]

def readbackChecks (readback : List Check) (words : List UInt32) : List Check :=
  [⟨satisfiedMask readback = verifyRequired && failureMask readback = 0, satDescriptorReadback,
      failDescriptorReadback⟩,
    ⟨attrMaskSeen words = expectedAttrMask && typeMaskSeen words = descTypeSection,
      satDescriptorAttrs, failDescriptorAttrs⟩]

/-! ## The builder -/

structure Tte where
  layout : Layout
  sections : Sections
  highVa : HighVa
  /-- The local arena, the safe copy of it, and the safe high table. -/
  l1 : L1
  identityL1 : L1
  highvaL1 : L1
  satisfiedMask : UInt32
  failureMask : UInt32
  status : UInt32

/-- `stage90_xnu_tte_dryrun_build`.  The check of `tte->checksum` is left out: it compares a sum of
words with itself. -/
def stage90XnuTteDryrunBuild (a : Arenas) (probe : Result) (preflight : Preflight) : Bool × Tte :=
  let w := layOut a preflight
  let s := sectionsOf probe
  let h := highVaOf probe
  let before := layoutChecks a probe preflight w s
  let mapped := failureMask before &&& failUnmappable = 0
  let l1 := if mapped then mapIdentity s else noL1
  let readback := if mapped then identityReadback l1 s else []
  let words := if mapped then identityWords l1 s else []
  let identity :=
    if mapped then identityChecks readback (identityTranslation l1 probe) words else unmappedChecks
  let maps := highVaMaps probe h
  let highvaL1 := if maps then mapHighVa h else noL1
  let highVa :=
    if maps then highVaChecks (highVaReadback highvaL1 h) (highVaTranslation highvaL1 h)
    else noHighVaChecks
  let readback := readback ++ if maps then highVaReadback highvaL1 h else []
  let words := words ++ if maps then highVaWords highvaL1 h else []
  let kinds := safeTableKinds a.safeTable highVa
  let checks := before ++ identity ++ safetyChecks l1 ++ policyChecks preflight w ++ highVa ++
    readbackChecks readback words ++ safeTableChecks a probe w kinds
  let ok := failureMask checks = 0 && satisfiedMask checks = satRequired
  (ok, { layout := w, sections := s, highVa := h, l1
         identityL1 := if SafeTableReady a.safeTable then l1 else noL1, highvaL1
         satisfiedMask := satisfiedMask checks, failureMask := failureMask checks
         status := if ok then statusOk else statusFail (failureMask checks) })

end Stage90.Dryrun

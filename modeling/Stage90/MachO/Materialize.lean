import Stage90.MachO.Probe

/-!
# The staging arena

`stage90_macho_materialize_to_arena` and its checks.  The artifact and the arena lie in one memory.
-/

set_option autoImplicit false

namespace Stage90.Probe

open Stage90.Lib
open Stage90.MachO (statusOk statusBase statusFail)

def stagingArenaCap : UInt32 := 0x10000
def stagingPlanMax : Nat := loadPlanMax
def ramConsoleSize : UInt32 := 0x200000

def failStageSpan : UInt32 := 0x00040000
def failStagePlanFull : UInt32 := 0x00080000
def failStageSrcBounds : UInt32 := 0x00100000
def failStageDstBounds : UInt32 := 0x00200000
def failStageCopy : UInt32 := 0x00400000
def failStageReparse : UInt32 := 0x00800000
def failStageMarkers : UInt32 := 0x01000000
def failStageZeroFill : UInt32 := 0x02000000
def failStageArenaAlias : UInt32 := 0x04000000

def markerText : UInt32 := 0x00000001
def markerData : UInt32 := 0x00000002
def markerPrelinkText : UInt32 := 0x00000004
def markerRequired : UInt32 := markerText ||| markerData ||| markerPrelinkText

def textMarker : List UInt8 := cstring ['S', 'T', '9', '0', '-', 'T', 'E', 'X', 'T']
def dataMarker : List UInt8 := cstring ['S', 'T', '9', '0', '-', 'D', 'A', 'T', 'A']
def prelinkTextMarker : List UInt8 :=
  cstring ['S', 'T', '9', '0', '-', 'P', 'R', 'E', 'L', 'I', 'N', 'K', '-', 'T', 'E', 'X', 'T']

structure StagingPlanEntry where
  index : UInt32
  segmentMask : UInt32
  vmaddr : UInt32
  vmsize : UInt32
  copySrcOff : UInt32
  copyDst : UInt32
  copySize : UInt32
  zeroDst : UInt32
  zeroSize : UInt32
  arenaOffset : UInt32
  flags : UInt32

/-- `entries` up to `entry_count`. -/
structure StagingPlan where
  version : UInt32 := 0
  vmBase : UInt32 := 0
  vmEnd : UInt32 := 0
  vmSpan : UInt32 := 0
  arenaBase : UInt32 := 0
  arenaEnd : UInt32 := 0
  arenaSize : UInt32 := 0
  fileBytes : UInt32 := 0
  zeroBytes : UInt32 := 0
  materializedHeader : UInt32 := 0
  reparsedVmBase : UInt32 := 0
  reparsedVmEnd : UInt32 := 0
  reparsedGetlastaddr : UInt32 := 0
  markerCheckMask : UInt32 := 0
  zeroCheckMask : UInt32 := 0
  validationMask : UInt32 := 0
  failureMask : UInt32 := 0
  status : UInt32 := 0
  entries : List StagingPlanEntry := []

/-- `staging->failure_mask |= bit`. -/
def StagingPlan.fail (staging : StagingPlan) (bit : UInt32) : StagingPlan :=
  { staging with failureMask := staging.failureMask ||| bit }

/-- `staging->validation_mask |= bit`. -/
def StagingPlan.pass (staging : StagingPlan) (bit : UInt32) : StagingPlan :=
  { staging with validationMask := staging.validationMask ||| bit }

/-! ## The checks -/

def machoGetlastaddrStyle (probe : Result) : UInt32 :=
  probe.loadPlan.entries.foldl (fun last entry =>
    if ¬ addOverflowU32 entry.vmaddr entry.vmsize ∧ last < entry.vmaddr + entry.vmsize then
      entry.vmaddr + entry.vmsize
    else last) 0

def machoCheckArenaAliases (r : Result) (staging : StagingPlan)
    (artifactBase artifactSize : UInt32) : StagingPlan :=
  if addOverflowU32 artifactBase artifactSize then staging.fail failStageArenaAlias
  else
    let artifactEnd := artifactBase + artifactSize
    let staging :=
      if staging.arenaBase < artifactEnd ∧ artifactBase < staging.arenaEnd then
        staging.fail failStageArenaAlias
      else staging
    let staging :=
      if staging.arenaBase < ramConsoleBase + ramConsoleSize ∧ ramConsoleBase < staging.arenaEnd then
        staging.fail failStageArenaAlias
      else staging
    let staging :=
      if r.loadPhysEnd ≠ 0 ∧ staging.arenaBase < r.loadPhysEnd ∧ r.loadPhysBase < staging.arenaEnd then
        staging.fail failStageArenaAlias
      else staging
    if 0xf0000000 ≤ staging.arenaBase ∨ 0xf0000000 < staging.arenaEnd then
      staging.fail failStageArenaAlias
    else staging

def bytesPrefixEq (mem : Mem) : UInt32 → List UInt8 → Bool
  | _, [] => true
  | p, c :: cs => if mem p ≠ c then false else bytesPrefixEq mem (p + 1) cs

def machoVerifyMarker (mem : Mem) (arena : UInt32) (staging : StagingPlan) (vmaddr : UInt32)
    (marker : List UInt8) (bit : UInt32) : StagingPlan :=
  if vmaddr < staging.vmBase then staging.fail failStageMarkers
  else
    let offset := vmaddr - staging.vmBase
    if staging.arenaSize ≤ offset then staging.fail failStageMarkers
    else if bytesPrefixEq mem (arena + offset) marker then
      { staging with markerCheckMask := staging.markerCheckMask ||| bit }
    else staging.fail failStageMarkers

def allZero (mem : Mem) : Nat → UInt32 → Bool
  | 0, _ => true
  | n + 1, p => if mem p ≠ 0 then false else allZero mem n (p + 1)

/-- The loop of `stage90_macho_verify_zero_fill`, with the mask of the entries that have a tail. -/
def verifyZeroEntries (mem : Mem) (arena : UInt32) :
    List StagingPlanEntry → Nat → StagingPlan → UInt32 → StagingPlan × UInt32
  | [], _, staging, requiredZeroMask => (staging, requiredZeroMask)
  | entry :: entries, i, staging, requiredZeroMask =>
      if entry.zeroSize = 0 then verifyZeroEntries mem arena entries (i + 1) staging requiredZeroMask
      else
        let bit := 1 <<< UInt32.ofNat i
        let ok :=
          ¬ staging.arenaSize < entry.arenaOffset + entry.copySize + entry.zeroSize ∧
            allZero mem entry.zeroSize.toNat (arena + (entry.arenaOffset + entry.copySize))
        let staging :=
          if ok then { staging with zeroCheckMask := staging.zeroCheckMask ||| bit }
          else staging.fail failStageZeroFill
        verifyZeroEntries mem arena entries (i + 1) staging (requiredZeroMask ||| bit)

def machoVerifyZeroFill (mem : Mem) (arena : UInt32) (staging : StagingPlan) : StagingPlan :=
  let (staging, requiredZeroMask) := verifyZeroEntries mem arena staging.entries 0 staging 0
  if staging.zeroCheckMask &&& requiredZeroMask = requiredZeroMask then staging.pass validZeroFill
  else staging.fail failStageZeroFill

def machoVerifyReparse (mem : Mem) (arena : UInt32) (r : Result) (staging : StagingPlan) :
    StagingPlan :=
  let originalLast := machoGetlastaddrStyle r
  let (ok, materialized) := stage90MachoProbe mem arena staging.arenaSize
  if !ok then staging.fail failStageReparse
  else
    let materializedLast := machoGetlastaddrStyle materialized
    let staging := { staging with
      reparsedVmBase := materialized.minVmaddr
      reparsedVmEnd := materialized.maxVmaddr
      reparsedGetlastaddr := materializedLast }
    if materialized.header.magic = r.header.magic ∧ materialized.header.cputype = r.header.cputype ∧
        materialized.header.cpusubtype = r.header.cpusubtype ∧
        materialized.header.filetype = r.header.filetype ∧
        materialized.header.ncmds = r.header.ncmds ∧
        materialized.segmentSeenMask = r.segmentSeenMask ∧
        materialized.sectionSeenMask = r.sectionSeenMask ∧
        materialized.minVmaddr = r.minVmaddr ∧ materialized.maxVmaddr = r.maxVmaddr ∧
        materialized.loadVmBase = r.loadVmBase ∧ materialized.loadVmEnd = r.loadVmEnd ∧
        materializedLast = originalLast ∧ materializedLast = staging.vmEnd then
      staging.pass validMaterializedParse
    else staging.fail failStageReparse

/-! ## The copies -/

/-- What a turn of the copy loop does: it fails by a bit, or it copies. -/
def stageEntry (artifact artifactSize arena : UInt32) (mem : Mem) (staging : StagingPlan)
    (load : LoadPlanEntry) : StagingPlan × Mem :=
  if load.vmaddr < staging.vmBase ∨ load.vmsize < load.filesize then
    (staging.fail failStageDstBounds, mem)
  else
    let arenaOffset := load.vmaddr - staging.vmBase
    if addOverflowU32 load.fileoff load.filesize ∨ artifactSize < load.fileoff + load.filesize then
      (staging.fail failStageSrcBounds, mem)
    else if addOverflowU32 arenaOffset load.vmsize ∨ staging.arenaSize < arenaOffset + load.vmsize ∨
        addOverflowU32 arenaOffset load.filesize ∨
          staging.arenaSize < arenaOffset + load.filesize then
      (staging.fail failStageDstBounds, mem)
    else
      let zeroSize := load.vmsize - load.filesize
      let entry : StagingPlanEntry :=
        { index := UInt32.ofNat staging.entries.length
          segmentMask := load.segmentMask
          vmaddr := load.vmaddr
          vmsize := load.vmsize
          copySrcOff := load.fileoff
          copyDst := arena + arenaOffset
          copySize := load.filesize
          zeroDst := arena + arenaOffset + load.filesize
          zeroSize := zeroSize
          arenaOffset := arenaOffset
          flags := load.flags }
      let mem :=
        if load.filesize ≠ 0 then
          memcpy mem (arena + arenaOffset) (artifact + load.fileoff) load.filesize
        else mem
      let mem :=
        if zeroSize ≠ 0 then memset mem (arena + arenaOffset + load.filesize) 0 zeroSize else mem
      ({ staging with
          entries := staging.entries ++ [entry]
          fileBytes := staging.fileBytes + load.filesize
          zeroBytes := staging.zeroBytes + zeroSize }, mem)

def stageEntries (artifact artifactSize arena : UInt32) :
    List LoadPlanEntry → StagingPlan → Mem → StagingPlan × Mem
  | [], staging, mem => (staging, mem)
  | load :: loads, staging, mem =>
      if stagingPlanMax ≤ staging.entries.length then (staging.fail failStagePlanFull, mem)
      else
        let (staging, mem) := stageEntry artifact artifactSize arena mem staging load
        stageEntries artifact artifactSize arena loads staging mem

/-- Between the declarations and the copy loop. -/
def stageSpan (artifact artifactSize arena : UInt32) (r : Result) : StagingPlan :=
  let staging : StagingPlan := { version := 1, status := statusBase, arenaBase := arena }
  if addOverflowU32 arena stagingArenaCap then staging.fail failStageSpan
  else
    let staging := { staging with arenaEnd := arena + stagingArenaCap }
    if r.minVmaddr = 0 ∨ r.maxVmaddr ≤ r.minVmaddr then staging.fail failStageSpan
    else
      let vmSpan := r.maxVmaddr - r.minVmaddr
      match alignUpCheckedU32 vmSpan pageSize with
      | none => staging.fail failStageSpan
      | some arenaSize =>
          if stagingArenaCap < arenaSize then staging.fail failStageSpan
          else
            let staging := { staging with
              vmBase := r.minVmaddr
              vmEnd := r.maxVmaddr
              vmSpan := vmSpan
              arenaSize := arenaSize
              materializedHeader := arena }
            machoCheckArenaAliases r staging artifact artifactSize

def verifyStaged (mem : Mem) (arena : UInt32) (r : Result) (staging : StagingPlan) : StagingPlan :=
  let staging := machoVerifyReparse mem arena r (staging.pass validStaging)
  let staging := machoVerifyMarker mem arena staging r.textSection.vmaddr textMarker markerText
  let staging := machoVerifyMarker mem arena staging r.dataConst.vmaddr dataMarker markerData
  let staging :=
    machoVerifyMarker mem arena staging r.prelinkTextSection.vmaddr prelinkTextMarker markerPrelinkText
  let staging :=
    if staging.markerCheckMask &&& markerRequired = markerRequired then staging.pass validMarkers
    else staging.fail failStageMarkers
  machoVerifyZeroFill mem arena staging

def stagingRequired : UInt32 :=
  validStaging ||| validMaterializedParse ||| validMarkers ||| validZeroFill

/-- The label `finish`, with what `result` takes over from the plan. -/
def finishStaging (r : Result) (staging : StagingPlan) : Bool × StagingPlan × Result :=
  let status :=
    if staging.failureMask = 0 ∧ staging.validationMask &&& stagingRequired = stagingRequired then
      statusOk
    else statusFail staging.failureMask
  let staging := { staging with status := status }
  (staging.status = statusOk, staging,
    { r with
      validationMask := r.validationMask ||| staging.validationMask
      failureMask := r.failureMask ||| staging.failureMask })

/-- The copies and the checks, once the arena is found to be free. -/
def stageAll (mem : Mem) (artifact artifactSize arena : UInt32) (r : Result) (staging : StagingPlan) :
    StagingPlan × Mem :=
  let (staging, mem) :=
    stageEntries artifact artifactSize arena r.loadPlan.entries staging mem
  let staging :=
    if staging.entries.length ≠ r.loadPlan.entries.length then staging.fail failStageCopy
    else staging
  (if staging.failureMask = 0 then verifyStaged mem arena r staging else staging, mem)

/-- Whether the call succeeds, the plan, the result, and memory. -/
def machoMaterializeToArena (mem : Mem) (artifact artifactSize arena : UInt32) (r : Result) :
    Bool × (StagingPlan × Result) × Mem :=
  let mem := memset mem arena 0 stagingArenaCap
  let staging := stageSpan artifact artifactSize arena r
  let (staging, mem) :=
    if staging.failureMask ≠ 0 then (staging, mem)
    else stageAll mem artifact artifactSize arena r staging
  let (ok, staging, r) := finishStaging r staging
  (ok, (staging, r), mem)

end Stage90.Probe

import Stage90.Lib.FlatMemory
import Stage90.MachO.Loader

/-!
# The Mach-O probe

`macho_probe.c` up to `stage90_macho_probe`.  The artifact is a range of memory.  What the probe
refuses it refuses by a bit of `failure_mask`, and it goes on to the next check.
-/

set_option autoImplicit false

namespace Stage90.Probe

open Stage90.Lib
open Stage90.MachO (statusOk statusBase statusFail mhMagic lcSegment lcUnixThread)

def pageSize : UInt32 := 4096
def ramPhysBase : UInt32 := 0x80000000
def ramConsoleBase : UInt32 := 0xde500000

/-! ## Checked arithmetic -/

/-- The flag.  The sum is stored either way. -/
def addOverflowU32 (a b : UInt32) : Bool := a + b < a

def mulOverflowU32 (a b : UInt32) : Bool := a ≠ 0 && 0xffffffff / a < b

def alignUpCheckedU32 (value alignment : UInt32) : Option UInt32 :=
  if alignment = 0 ∨ alignment &&& (alignment - 1) ≠ 0 then none
  else if addOverflowU32 value (alignment - 1) then none
  else some ((value + (alignment - 1)) &&& ~~~(alignment - 1))

/-! ## What the artifact holds -/

def machoCigam : UInt32 := 0xcefaedfe
def cpuTypeArm : UInt32 := 12
def cpuSubtypeArmAll : UInt32 := 0
def cpuSubtypeArmV7 : UInt32 := 9
def filetypeExecute : UInt32 := 2
def filetypePreload : UInt32 := 5
def lcSymtab : UInt32 := 2
def lcMain : UInt32 := 0x80000028

/-- The `sizeof` of the source's structures. -/
def headerSize : UInt32 := 28
def loadCommandSize : UInt32 := 8
def segmentCommandSize : UInt32 := 56
def sectionSize : UInt32 := 68
def symtabCommandSize : UInt32 := 24

structure Header where
  magic : UInt32
  cputype : UInt32
  cpusubtype : UInt32
  filetype : UInt32
  ncmds : UInt32
  sizeofcmds : UInt32
  flags : UInt32

def headerAt (mem : Mem) (p : UInt32) : Header where
  magic := read32 mem p
  cputype := read32 mem (p + 4)
  cpusubtype := read32 mem (p + 8)
  filetype := read32 mem (p + 12)
  ncmds := read32 mem (p + 16)
  sizeofcmds := read32 mem (p + 20)
  flags := read32 mem (p + 24)

def fixed16 (mem : Mem) (p : UInt32) : List UInt8 :=
  (List.range 16).map fun i => mem (p + UInt32.ofNat i)

structure SegmentCommand where
  cmdsize : UInt32
  segname : List UInt8
  vmaddr : UInt32
  vmsize : UInt32
  fileoff : UInt32
  filesize : UInt32
  nsects : UInt32

def segmentCommandAt (mem : Mem) (p : UInt32) : SegmentCommand where
  cmdsize := read32 mem (p + 4)
  segname := fixed16 mem (p + 8)
  vmaddr := read32 mem (p + 24)
  vmsize := read32 mem (p + 28)
  fileoff := read32 mem (p + 32)
  filesize := read32 mem (p + 36)
  nsects := read32 mem (p + 48)

structure Section where
  sectname : List UInt8
  segname : List UInt8
  addr : UInt32
  size : UInt32
  offset : UInt32

def sectionAt (mem : Mem) (p : UInt32) : Section where
  sectname := fixed16 mem p
  segname := fixed16 mem (p + 16)
  addr := read32 mem (p + 32)
  size := read32 mem (p + 36)
  offset := read32 mem (p + 40)

/-! ## Names -/

def cstring (s : List Char) : List UInt8 := s.map fun c => UInt8.ofNat c.toNat

def textName : List UInt8 := cstring ['_', '_', 'T', 'E', 'X', 'T']
def dataName : List UInt8 := cstring ['_', '_', 'D', 'A', 'T', 'A']
def linkeditName : List UInt8 := cstring ['_', '_', 'L', 'I', 'N', 'K', 'E', 'D', 'I', 'T']
def kldName : List UInt8 := cstring ['_', '_', 'K', 'L', 'D']
def lastName : List UInt8 := cstring ['_', '_', 'L', 'A', 'S', 'T']
def prelinkName : List UInt8 := cstring ['_', '_', 'P', 'R', 'E', 'L', 'I', 'N', 'K']
def prelinkTextName : List UInt8 := prelinkName ++ cstring ['_', 'T', 'E', 'X', 'T']
def prelinkInfoName : List UInt8 := prelinkName ++ cstring ['_', 'I', 'N', 'F', 'O']
def prelinkStateName : List UInt8 := prelinkName ++ cstring ['_', 'S', 'T', 'A', 'T', 'E']
def sectTextName : List UInt8 := cstring ['_', '_', 't', 'e', 'x', 't']
def sectConstName : List UInt8 := cstring ['_', '_', 'c', 'o', 'n', 's', 't']
def sectInfoName : List UInt8 := cstring ['_', '_', 'i', 'n', 'f', 'o']
def sectKernelName : List UInt8 := cstring ['_', '_', 'k', 'e', 'r', 'n', 'e', 'l']
def sectKextsName : List UInt8 := cstring ['_', '_', 'k', 'e', 'x', 't', 's']
def sectSymtabName : List UInt8 := cstring ['_', '_', 's', 'y', 'm', 't', 'a', 'b']

/-- The loop of `fixed16_eq`, over what is left of the field and of the name. -/
def fixed16Eq : List UInt8 → List UInt8 → Bool
  | [], _ => true
  | c :: fixed, name =>
      let expected := name.headD 0
      if c ≠ expected then false
      else if expected = 0 then true
      else fixed16Eq fixed name.tail

def segText : UInt32 := 0x00000001
def segData : UInt32 := 0x00000002
def segLinkedit : UInt32 := 0x00000004
def segKld : UInt32 := 0x00000008
def segLast : UInt32 := 0x00000010
def segPrelinkText : UInt32 := 0x00000020
def segPrelinkInfo : UInt32 := 0x00000040
def segPrelinkState : UInt32 := 0x00000080
def segPrelink : UInt32 := 0x00000100
def segPrelinkMask : UInt32 := segPrelinkText ||| segPrelinkInfo ||| segPrelinkState ||| segPrelink
def segRequired : UInt32 := segText ||| segData ||| segLinkedit

def firstBit {α : Type} (tests : List (α × UInt32)) (passes : α → Bool) : UInt32 :=
  match tests.find? fun test => passes test.1 with
  | some test => test.2
  | none => 0

/-- The tests of `segment_mask_for_name`, in their order. -/
def segmentNames : List (List UInt8 × UInt32) :=
  [(textName, segText), (dataName, segData), (linkeditName, segLinkedit), (kldName, segKld),
    (lastName, segLast), (prelinkTextName, segPrelinkText), (prelinkInfoName, segPrelinkInfo),
    (prelinkStateName, segPrelinkState), (prelinkName, segPrelink)]

def segmentMaskForName (segname : List UInt8) : UInt32 := firstBit segmentNames (fixed16Eq segname)

def sectTextText : UInt32 := 0x00000001
def sectDataConst : UInt32 := 0x00000002
def sectPrelinkTextText : UInt32 := 0x00000004
def sectPrelinkInfoInfo : UInt32 := 0x00000008
def sectPrelinkInfoKernel : UInt32 := 0x00000010
def sectPrelinkInfoKexts : UInt32 := 0x00000020
def sectPrelinkStateKernel : UInt32 := 0x00000040
def sectPrelinkStateKexts : UInt32 := 0x00000080
def sectPrelinkSymtab : UInt32 := 0x00000100
def sectPrelinkMask : UInt32 :=
  sectPrelinkTextText ||| sectPrelinkInfoInfo ||| sectPrelinkInfoKernel ||| sectPrelinkInfoKexts |||
    sectPrelinkStateKernel ||| sectPrelinkStateKexts ||| sectPrelinkSymtab
def sectRequired : UInt32 := sectTextText ||| sectDataConst

/-- The tests of `record_section_match`, in their order: segment name and section name. -/
def sectionNames : List ((List UInt8 × List UInt8) × UInt32) :=
  [((textName, sectTextName), sectTextText), ((dataName, sectConstName), sectDataConst),
    ((prelinkTextName, sectTextName), sectPrelinkTextText),
    ((prelinkInfoName, sectInfoName), sectPrelinkInfoInfo),
    ((prelinkInfoName, sectKernelName), sectPrelinkInfoKernel),
    ((prelinkInfoName, sectKextsName), sectPrelinkInfoKexts),
    ((prelinkStateName, sectKernelName), sectPrelinkStateKernel),
    ((prelinkStateName, sectKextsName), sectPrelinkStateKexts),
    ((prelinkName, sectSymtabName), sectPrelinkSymtab)]

def sectionBit (sect : Section) : UInt32 :=
  firstBit sectionNames fun name =>
    fixed16Eq sect.segname name.1 && fixed16Eq sect.sectname name.2

/-! ## The result -/

def cmdSegment : UInt32 := 0x00000001
def cmdSymtab : UInt32 := 0x00000002
def cmdUnixthread : UInt32 := 0x00000004
def cmdMain : UInt32 := 0x00000008
def cmdUnknown : UInt32 := 0x90000000

def entryUnixthread : UInt32 := 0x00000001
def entryMain : UInt32 := 0x00000002
def entryNotExecuted : UInt32 := 0x90000000

def validMagic : UInt32 := 0x00000001
def validEndian : UInt32 := 0x00000002
def validCpu : UInt32 := 0x00000004
def validSubtype : UInt32 := 0x00000008
def validFiletype : UInt32 := 0x00000010
def validCommandBounds : UInt32 := 0x00000020
def validSegmentCommand : UInt32 := 0x00000040
def validRequiredSegments : UInt32 := 0x00000080
def validFileExtents : UInt32 := 0x00000100
def validEntryNotExecuted : UInt32 := 0x00000200
def validSectionBounds : UInt32 := 0x00000400
def validRequiredSections : UInt32 := 0x00000800
def validLoadPlan : UInt32 := 0x00001000
def validPrelinkReport : UInt32 := 0x00002000
def validStaging : UInt32 := 0x00004000
def validMaterializedParse : UInt32 := 0x00008000
def validMarkers : UInt32 := 0x00010000
def validZeroFill : UInt32 := 0x00020000
def validRequired : UInt32 :=
  validMagic ||| validEndian ||| validCpu ||| validSubtype ||| validFiletype |||
    validCommandBounds ||| validSegmentCommand ||| validRequiredSegments ||| validFileExtents |||
    validEntryNotExecuted ||| validSectionBounds ||| validRequiredSections ||| validLoadPlan |||
    validStaging ||| validMaterializedParse ||| validMarkers ||| validZeroFill

def failNull : UInt32 := 0x00000001
def failSize : UInt32 := 0x00000002
def failMagic : UInt32 := 0x00000004
def failEndian : UInt32 := 0x00000008
def failCpu : UInt32 := 0x00000010
def failSubtype : UInt32 := 0x00000020
def failFiletype : UInt32 := 0x00000040
def failCommandBounds : UInt32 := 0x00000080
def failCommandSize : UInt32 := 0x00000100
def failSegmentBounds : UInt32 := 0x00000200
def failSegmentExtent : UInt32 := 0x00000400
def failRequiredSegments : UInt32 := 0x00000800
def failNoEntryMetadata : UInt32 := 0x00001000
def failSectionBounds : UInt32 := 0x00002000
def failRequiredSections : UInt32 := 0x00004000
def failLoadPlan : UInt32 := 0x00008000
def failPhysRange : UInt32 := 0x00010000
def failLoadPlanFull : UInt32 := 0x00020000

def loadPlanMax : Nat := 8
def loadPlanFileBacked : UInt32 := 0x00000001
def loadPlanPrelink : UInt32 := 0x00000002
def loadPlanZeroFill : UInt32 := 0x00000004

structure LoadPlanEntry where
  index : UInt32
  segmentMask : UInt32
  vmaddr : UInt32
  vmsize : UInt32
  fileoff : UInt32
  filesize : UInt32
  physaddr : UInt32
  physsize : UInt32
  flags : UInt32
  deriving DecidableEq

/-- `entries` up to `entry_count`. -/
structure LoadPlan where
  version : UInt32 := 0
  vmBase : UInt32 := 0
  vmEnd : UInt32 := 0
  physBase : UInt32 := 0
  physEnd : UInt32 := 0
  fileEnd : UInt32 := 0
  status : UInt32 := 0
  entries : List LoadPlanEntry := []

def LoadPlan.entryCount (plan : LoadPlan) : UInt32 := UInt32.ofNat plan.entries.length

/-- The four fields that are kept of a key segment, and the two of a key section. -/
structure KeySegment where
  vmaddr : UInt32 := 0
  vmsize : UInt32 := 0
  fileoff : UInt32 := 0
  filesize : UInt32 := 0

structure KeySection where
  vmaddr : UInt32 := 0
  size : UInt32 := 0

/-- `struct stage90_macho_probe_result`, but for the staging that comes later. -/
structure Result where
  version : UInt32 := 0
  artifactBase : UInt32 := 0
  artifactSize : UInt32 := 0
  header : Header := ⟨0, 0, 0, 0, 0, 0, 0⟩
  loadCommandSeenMask : UInt32 := 0
  loadCommandCountSeen : UInt32 := 0
  unknownCommandCount : UInt32 := 0
  segmentCount : UInt32 := 0
  segmentRequiredMask : UInt32 := 0
  segmentSeenMask : UInt32 := 0
  prelinkSegmentSeenMask : UInt32 := 0
  sectionCount : UInt32 := 0
  sectionRequiredMask : UInt32 := 0
  sectionSeenMask : UInt32 := 0
  prelinkSectionSeenMask : UInt32 := 0
  entryKindMask : UInt32 := 0
  entryoffOrPc : UInt32 := 0
  text : KeySegment := {}
  data : KeySegment := {}
  linkedit : KeySegment := {}
  prelinkText : KeySegment := {}
  prelinkInfo : KeySegment := {}
  prelinkState : KeySegment := {}
  textSection : KeySection := {}
  dataConst : KeySection := {}
  prelinkTextSection : KeySection := {}
  prelinkInfoSection : KeySection := {}
  minVmaddr : UInt32 := 0
  maxVmaddr : UInt32 := 0
  maxFileExtent : UInt32 := 0
  loadVmBase : UInt32 := 0
  loadVmEnd : UInt32 := 0
  loadFileBase : UInt32 := 0
  loadFileEnd : UInt32 := 0
  loadPhysBase : UInt32 := 0
  loadPhysEnd : UInt32 := 0
  loadPhysSize : UInt32 := 0
  loadPlanCount : UInt32 := 0
  loadPlanStatus : UInt32 := 0
  loadPlan : LoadPlan := {}
  validationMask : UInt32 := 0
  failureMask : UInt32 := 0
  status : UInt32 := 0

/-- `result->failure_mask |= bit`. -/
def Result.fail (r : Result) (bit : UInt32) : Result := { r with failureMask := r.failureMask ||| bit }

/-- `result->validation_mask |= bit`. -/
def Result.pass (r : Result) (bit : UInt32) : Result :=
  { r with validationMask := r.validationMask ||| bit }

def Result.check (r : Result) (good : Bool) (valid failure : UInt32) : Result :=
  if good then r.pass valid else r.fail failure

/-! ## Segments and sections -/

def recordKeySegment (r : Result) (segment : SegmentCommand) (segBit : UInt32) : Result :=
  let key : KeySegment := ⟨segment.vmaddr, segment.vmsize, segment.fileoff, segment.filesize⟩
  if segBit = segText then { r with text := key }
  else if segBit = segData then { r with data := key }
  else if segBit = segLinkedit then { r with linkedit := key }
  else if segBit = segPrelinkText then { r with prelinkText := key }
  else if segBit = segPrelinkInfo then { r with prelinkInfo := key }
  else if segBit = segPrelinkState then { r with prelinkState := key }
  else r

def loadPlanFlags (segment : SegmentCommand) (segBit : UInt32) : UInt32 :=
  (if segment.filesize ≠ 0 then loadPlanFileBacked else 0) |||
    (if segBit &&& segPrelinkMask ≠ 0 then loadPlanPrelink else 0) |||
      (if segment.filesize < segment.vmsize then loadPlanZeroFill else 0)

def addLoadPlanEntry (r : Result) (segment : SegmentCommand) (segBit : UInt32) : Result :=
  if segment.vmsize = 0 then r
  else if loadPlanMax ≤ r.loadPlan.entries.length then r.fail failLoadPlanFull
  else
    let entry : LoadPlanEntry :=
      { index := r.loadPlan.entryCount
        segmentMask := segBit
        vmaddr := segment.vmaddr
        vmsize := segment.vmsize
        fileoff := segment.fileoff
        filesize := segment.filesize
        physaddr := 0
        physsize := 0
        flags := loadPlanFlags segment segBit }
    { r with loadPlan := { r.loadPlan with entries := r.loadPlan.entries ++ [entry] } }

def recordSectionMatch (r : Result) (sect : Section) : Result :=
  let bit := sectionBit sect
  let key : KeySection := ⟨sect.addr, sect.size⟩
  let r :=
    if bit = sectTextText then { r with textSection := key }
    else if bit = sectDataConst then { r with dataConst := key }
    else if bit = sectPrelinkTextText then { r with prelinkTextSection := key }
    else if bit = sectPrelinkInfoInfo then { r with prelinkInfoSection := key }
    else r
  let r := { r with sectionSeenMask := r.sectionSeenMask ||| bit }
  if bit &&& sectPrelinkMask ≠ 0 then
    { r with prelinkSectionSeenMask := r.prelinkSectionSeenMask ||| bit }
  else r

def Result.noteFileExtent (r : Result) (fileEnd : UInt32) : Result :=
  if r.maxFileExtent < fileEnd then { r with maxFileExtent := fileEnd } else r

def recordSection (r : Result) (segment : SegmentCommand) (sect : Section) : Result :=
  let r := recordSectionMatch { r with sectionCount := r.sectionCount + 1 } sect
  let r :=
    if addOverflowU32 sect.addr sect.size ∨ addOverflowU32 segment.vmaddr segment.vmsize ∨
        sect.addr < segment.vmaddr ∨ segment.vmaddr + segment.vmsize < sect.addr + sect.size then
      r.fail failSectionBounds
    else r
  if sect.size ≠ 0 ∧ sect.offset ≠ 0 then
    let fileEnd := sect.offset + sect.size
    let r :=
      if addOverflowU32 sect.offset sect.size ∨ r.artifactSize < fileEnd then
        r.fail failSectionBounds
      else r
    r.noteFileExtent fileEnd
  else r

def Result.noteVmaddr (r : Result) (vmaddr : UInt32) : Result :=
  if r.segmentCount = 1 ∨ vmaddr < r.minVmaddr then { r with minVmaddr := vmaddr } else r

def Result.noteVmEnd (r : Result) (vmEnd : UInt32) : Result :=
  if r.maxVmaddr < vmEnd then { r with maxVmaddr := vmEnd } else r

def Result.noteSegment (r : Result) (segBit : UInt32) : Result :=
  let r := { r with segmentSeenMask := r.segmentSeenMask ||| segBit }
  if segBit &&& segPrelinkMask ≠ 0 then
    { r with prelinkSegmentSeenMask := r.prelinkSegmentSeenMask ||| segBit }
  else r

def recordSegment (r : Result) (segment : SegmentCommand) : Result :=
  let r := { r with segmentCount := r.segmentCount + 1 }.pass validSegmentCommand
  let segBit := segmentMaskForName segment.segname
  if addOverflowU32 segment.vmaddr segment.vmsize then r.fail failSegmentBounds
  else
    let vmEnd := segment.vmaddr + segment.vmsize
    let fileEnd := segment.fileoff + segment.filesize
    let r :=
      if addOverflowU32 segment.fileoff segment.filesize ∨ r.artifactSize < fileEnd then
        r.fail failSegmentExtent
      else r
    let r := recordKeySegment (r.noteSegment segBit) segment segBit
    let r := ((r.noteVmaddr segment.vmaddr).noteVmEnd vmEnd).noteFileExtent fileEnd
    addLoadPlanEntry r segment segBit

def recordSections (mem : Mem) (bytes : UInt32) (segment : SegmentCommand) :
    Nat → UInt32 → Result → Result
  | 0, _, r => r
  | left + 1, sectionOffset, r =>
      recordSections mem bytes segment left (sectionOffset + sectionSize)
        (recordSection r segment (sectionAt mem (bytes + sectionOffset)))

def parseSegmentSections (mem : Mem) (bytes commandOffset : UInt32) (segment : SegmentCommand)
    (r : Result) : Result :=
  let sectionBytes := segment.nsects * sectionSize
  if mulOverflowU32 segment.nsects sectionSize ∨ addOverflowU32 segmentCommandSize sectionBytes ∨
      segment.cmdsize < segmentCommandSize + sectionBytes then
    r.fail failSectionBounds
  else
    recordSections mem bytes segment segment.nsects.toNat (commandOffset + segmentCommandSize) r

/-! ## The load plan -/

/-- The variables of the loop in `finalize_load_plan`. -/
structure Finalizing where
  failureMask : UInt32
  physEnd : UInt32
  fileBase : UInt32
  fileEnd : UInt32

def Finalizing.fail (f : Finalizing) (bit : UInt32) : Finalizing :=
  { f with failureMask := f.failureMask ||| bit }

def Finalizing.note (f : Finalizing) (entry : LoadPlanEntry) (entryEnd : UInt32) : Finalizing :=
  let f := if f.physEnd < entryEnd then { f with physEnd := entryEnd } else f
  if entry.filesize ≠ 0 then
    let f := if entry.fileoff < f.fileBase then { f with fileBase := entry.fileoff } else f
    let entryFileEnd := entry.fileoff + entry.filesize
    if ¬ addOverflowU32 entry.fileoff entry.filesize ∧ f.fileEnd < entryFileEnd then
      { f with fileEnd := entryFileEnd }
    else f
  else f

def finalizeEntry (minVmaddr : UInt32) (f : Finalizing) (entry : LoadPlanEntry) :
    LoadPlanEntry × Finalizing :=
  if entry.vmaddr < minVmaddr then (entry, f.fail failLoadPlan)
  else
    let vmDelta := entry.vmaddr - minVmaddr
    -- the sum is stored before its flag is looked at
    let physaddr := ramPhysBase + vmDelta
    if addOverflowU32 ramPhysBase vmDelta then
      ({ entry with physaddr := physaddr }, f.fail failPhysRange)
    else
      match alignUpCheckedU32 entry.vmsize pageSize with
      | none => ({ entry with physaddr := physaddr }, f.fail failPhysRange)
      | some alignedSize =>
          let entryEnd := physaddr + alignedSize
          if addOverflowU32 physaddr alignedSize then
            ({ entry with physaddr := physaddr }, f.fail failPhysRange)
          else
            let f :=
              if physaddr < ramPhysBase ∨ ramConsoleBase < entryEnd ∨ entryEnd < physaddr then
                f.fail failPhysRange
              else f
            ({ entry with physaddr := physaddr, physsize := alignedSize }, f.note entry entryEnd)

def finalizeEntries (minVmaddr : UInt32) : Finalizing → List LoadPlanEntry →
    List LoadPlanEntry × Finalizing
  | f, [] => ([], f)
  | f, entry :: entries =>
      let (entry, f) := finalizeEntry minVmaddr f entry
      let (entries, f) := finalizeEntries minVmaddr f entries
      (entry :: entries, f)

def finalizeLoadPlan (r : Result) : Result :=
  let r : Result := { r with
    loadPlan := { r.loadPlan with
      version := 1, vmBase := r.minVmaddr, vmEnd := r.maxVmaddr, physBase := ramPhysBase } }
  if r.loadPlan.entryCount = 0 ∨ r.minVmaddr = 0 ∨ r.maxVmaddr ≤ r.minVmaddr then
    r.fail failLoadPlan
  else
    let (entries, f) :=
      finalizeEntries r.minVmaddr ⟨r.failureMask, ramPhysBase, 0xffffffff, 0⟩ r.loadPlan.entries
    let plan := { r.loadPlan with entries := entries, physEnd := f.physEnd, fileEnd := f.fileEnd }
    let r : Result := { r with
      failureMask := f.failureMask
      loadVmBase := plan.vmBase
      loadVmEnd := plan.vmEnd
      loadFileBase := if f.fileBase = 0xffffffff then 0 else f.fileBase
      loadFileEnd := f.fileEnd
      loadPhysBase := plan.physBase
      loadPhysEnd := plan.physEnd
      loadPhysSize := plan.physEnd - plan.physBase
      loadPlanCount := plan.entryCount }
    if r.failureMask &&& (failLoadPlan ||| failPhysRange ||| failLoadPlanFull) = 0 then
      { r with loadPlan := { plan with status := statusOk }, loadPlanStatus := statusOk }.pass
        validLoadPlan
    else
      let status := statusFail r.failureMask
      { r with loadPlan := { plan with status := status }, loadPlanStatus := status }

/-! ## The probe -/

/-- What the command loop does with a command whose size it has checked. -/
def recordCommand (mem : Mem) (bytes : UInt32) (r : Result) (offset : UInt32) : Result :=
  let cmd := read32 mem (bytes + offset)
  let cmdsize := read32 mem (bytes + offset + 4)
  let r := { r with loadCommandCountSeen := r.loadCommandCountSeen + 1 }
  if cmd = lcSegment then
    if cmdsize < segmentCommandSize then r.fail failCommandSize
    else
      let segment := segmentCommandAt mem (bytes + offset)
      let r := { r with loadCommandSeenMask := r.loadCommandSeenMask ||| cmdSegment }
      parseSegmentSections mem bytes offset segment (recordSegment r segment)
  else if cmd = lcSymtab then
    let r := { r with loadCommandSeenMask := r.loadCommandSeenMask ||| cmdSymtab }
    if symtabCommandSize ≤ cmdsize then
      let stroff := read32 mem (bytes + offset + 16)
      let strsize := read32 mem (bytes + offset + 20)
      if addOverflowU32 stroff strsize ∨ r.artifactSize < stroff + strsize then
        r.fail failSegmentExtent
      else r
    else r
  else if cmd = lcUnixThread then
    let r := { r with
      loadCommandSeenMask := r.loadCommandSeenMask ||| cmdUnixthread
      entryKindMask := r.entryKindMask ||| entryUnixthread }
    if 16 ≤ cmdsize then { r with entryoffOrPc := read32 mem (bytes + offset + 12) } else r
  else if cmd = lcMain then
    { r with
      loadCommandSeenMask := r.loadCommandSeenMask ||| cmdMain
      entryKindMask := r.entryKindMask ||| entryMain }
  else
    { r with
      loadCommandSeenMask := r.loadCommandSeenMask ||| cmdUnknown
      unknownCommandCount := r.unknownCommandCount + 1 }

/-- The command loop, with the commands left to go.  Where it ends, and the result. -/
def commandLoop (mem : Mem) (bytes commandsEnd : UInt32) : Nat → UInt32 → Result → UInt32 × Result
  | 0, offset, r => (offset, r)
  | left + 1, offset, r =>
      if offset < commandsEnd then
        if commandsEnd - offset < loadCommandSize then (offset, r.fail failCommandBounds)
        else
          let cmdsize := read32 mem (bytes + offset + 4)
          if cmdsize < loadCommandSize ∨ cmdsize &&& 3 ≠ 0 ∨ addOverflowU32 offset cmdsize ∨
              commandsEnd < offset + cmdsize then
            (offset, r.fail failCommandSize)
          else
            commandLoop mem bytes commandsEnd left (offset + cmdsize) (recordCommand mem bytes r offset)
      else (offset, r)

def Result.init (artifact artifactSize : UInt32) : Result :=
  { version := 1
    artifactBase := artifact
    artifactSize := artifactSize
    segmentRequiredMask := segRequired
    sectionRequiredMask := sectRequired
    entryKindMask := entryNotExecuted
    status := statusBase
    loadPlan := { version := 1 } }

def checkMagic (r : Result) (magic : UInt32) : Result :=
  if magic = mhMagic then r.pass (validMagic ||| validEndian)
  else if magic = machoCigam then (r.pass validMagic).fail failEndian
  else r.fail failMagic

def checkHeader (r : Result) (header : Header) : Result :=
  let r := checkMagic { r with header := header } header.magic
  let r := r.check (header.cputype = cpuTypeArm) validCpu failCpu
  let r := r.check (header.cpusubtype = cpuSubtypeArmAll ∨ header.cpusubtype = cpuSubtypeArmV7)
    validSubtype failSubtype
  r.check (header.filetype = filetypeExecute ∨ header.filetype = filetypePreload) validFiletype
    failFiletype

/-- The command region: its check, the loop, and what the loop has to have seen. -/
def probeCommands (mem : Mem) (artifact artifactSize : UInt32) (r : Result) : Result :=
  let sizeofcmds := r.header.sizeofcmds
  let commandsEnd := headerSize + sizeofcmds
  if addOverflowU32 headerSize sizeofcmds ∨ artifactSize < commandsEnd ∨ sizeofcmds &&& 3 ≠ 0 then
    r.fail failCommandBounds
  else
    let ncmds := r.header.ncmds
    let (offset, r) := commandLoop mem artifact commandsEnd ncmds.toNat headerSize
      (r.pass validCommandBounds)
    if r.loadCommandCountSeen ≠ ncmds ∨ offset ≠ commandsEnd then r.fail failCommandBounds else r

/-- The label `after_commands`, up to the load plan. -/
def checkSeen (r : Result) : Result :=
  let r := r.check (r.segmentSeenMask &&& segRequired = segRequired) validRequiredSegments
    failRequiredSegments
  let r := r.check (r.sectionSeenMask &&& sectRequired = sectRequired) validRequiredSections
    failRequiredSections
  let r := if r.failureMask &&& failSegmentExtent = 0 then r.pass validFileExtents else r
  let r := if r.failureMask &&& failSectionBounds = 0 then r.pass validSectionBounds else r
  let r :=
    if r.prelinkSegmentSeenMask ||| r.prelinkSectionSeenMask ≠ 0 then r.pass validPrelinkReport
    else r
  r.check (r.entryKindMask &&& (entryUnixthread ||| entryMain) ≠ 0) validEntryNotExecuted
    failNoEntryMetadata

def afterCommands (r : Result) : Result := finalizeLoadPlan (checkSeen r)

def parserRequired : UInt32 :=
  validRequired &&& ~~~(validStaging ||| validMaterializedParse ||| validMarkers ||| validZeroFill)

def done (r : Result) : Bool × Result :=
  if r.validationMask &&& parserRequired = parserRequired ∧ r.failureMask = 0 then
    (true, { r with status := statusOk })
  else (false, { r with status := statusFail r.failureMask })

/-- Whether the call returns 1, and the result. -/
def stage90MachoProbe (mem : Mem) (artifact artifactSize : UInt32) : Bool × Result :=
  let r := Result.init artifact artifactSize
  if artifact = 0 then done (r.fail failNull)
  else if artifactSize < headerSize then done (r.fail failSize)
  else
    let r := checkHeader r (headerAt mem artifact)
    done (afterCommands (probeCommands mem artifact artifactSize r))

end Stage90.Probe

import Stage90.Lib.FlatMemory

/-!
# The Mach-O loader

`xnu_macho_loader.c`.  The image lies in the memory that the segments are copied to, and every
field of a command is read where the source reads it.
-/

set_option autoImplicit false

namespace Stage90.MachO

open Stage90.Lib

def lcSegment : UInt32 := 0x1
def lcUnixThread : UInt32 := 0x5
def armThreadState : UInt32 := 1
def mhMagic : UInt32 := 0xfeedface

def statusOk : UInt32 := 0x90000001
def statusBase : UInt32 := 0x90000000
def statusFailFlag : UInt32 := 0x40000000
def statusFail (mask : UInt32) : UInt32 := statusBase ||| statusFailFlag ||| (mask &&& 0x3fffffff)

def satMachoParsed : UInt32 := 0x00000001
def satSegmentsLoaded : UInt32 := 0x00000002
def satEntryResolved : UInt32 := 0x00000004
def satReadyForHandoff : UInt32 := 0x00000008
def requiredMask : UInt32 := 0x0000000f
def failInvalidMacho : UInt32 := 0x00000001
def failNoText : UInt32 := 0x00000004

/-- `sizeof(struct mach_header)`. -/
def machHeaderSize : UInt32 := 28

/-- The first address of the window that segments are checked against, and its end. -/
def loadWindowBase : UInt32 := 0x80000000
def loadWindowEnd : UInt32 := 0x80100000

/-- `struct stage90_xnu_macho_loader_result`. -/
structure Result where
  version : UInt32
  size : UInt32
  status : UInt32
  requiredMask : UInt32
  satisfiedMask : UInt32
  failureMask : UInt32
  machoBase : UInt32
  machoSize : UInt32
  textSegmentVa : UInt32
  textSegmentSize : UInt32
  dataSegmentVa : UInt32
  dataSegmentSize : UInt32
  linkeditSegmentVa : UInt32
  segmentsLoaded : UInt32
  segmentsUnmapped : UInt32
  entryPointOffset : UInt32
  xnuEntryVa : UInt32
  bootArgsPtr : UInt32
  readyForHandoff : UInt32
  checksum : UInt32

def xnuMachoLoaderChecksum (r : Result) : UInt32 :=
  [r.version, r.size, r.status, r.requiredMask, r.satisfiedMask, r.failureMask, r.machoBase,
    r.machoSize, r.textSegmentVa, r.textSegmentSize, r.dataSegmentVa, r.dataSegmentSize,
    r.linkeditSegmentVa, r.segmentsLoaded, r.segmentsUnmapped, r.entryPointOffset, r.xnuEntryVa,
    r.bootArgsPtr, r.readyForHandoff].foldl (· ^^^ ·) 0

/-- `status` and `candidate_l1_base` of the full pmap's result. -/
structure FullPmap where
  status : UInt32
  candidateL1Base : UInt32

/-- What the loader finds besides memory.  `machoSize` is `r->macho_size`. -/
structure Env where
  machoBase : UInt32
  machoSize : UInt32
  bootArgs : UInt32
  ttbr0 : UInt32
  fullPmap : Option FullPmap

def Env.live (env : Env) : Bool :=
  match env.fullPmap with
  | none => false
  | some pm =>
      pm.status = statusOk && pm.candidateL1Base ≠ 0 &&
        env.ttbr0 &&& 0xffffc000 = pm.candidateL1Base &&& 0xffffc000

/-- The fields of a `struct segment_command` that `load_segment` reads. -/
structure Segment where
  vmaddr : UInt32
  vmsize : UInt32
  fileoff : UInt32
  filesize : UInt32
  deriving DecidableEq

def segmentAt (mem : Mem) (p : UInt32) : Segment :=
  ⟨read32 mem (p + 24), read32 mem (p + 28), read32 mem (p + 32), read32 mem (p + 36)⟩

/-- `seg_name_eq` on the name of the command at `p`. -/
def segNameEq (mem : Mem) (p : UInt32) (target : List UInt8) : Bool :=
  go 0 16
where
  go (i : Nat) : Nat → Bool
    | 0 => true
    | left + 1 =>
        let c := mem (p + 8 + UInt32.ofNat i)
        if c ≠ target.getD i 0 then false
        else if c = 0 then true
        else go (i + 1) left

def textName : List UInt8 := [0x5f, 0x5f, 0x54, 0x45, 0x58, 0x54]
def dataName : List UInt8 := [0x5f, 0x5f, 0x44, 0x41, 0x54, 0x41]
def linkeditName : List UInt8 := [0x5f, 0x5f, 0x4c, 0x49, 0x4e, 0x4b, 0x45, 0x44, 0x49, 0x54]

def loadSegment (env : Env) (mem : Mem) (seg : Segment) (r : Result) : Mem × Result :=
  if seg.vmsize = 0 then (mem, r)
  else
    let segEnd := seg.vmaddr + seg.vmsize
    if !env.live then (mem, { r with segmentsUnmapped := r.segmentsUnmapped + 1 })
    else if seg.vmaddr < loadWindowBase ∨ loadWindowEnd ≤ seg.vmaddr then (mem, r)
    else if loadWindowEnd < segEnd then (mem, r)
    else
      let copySize := seg.filesize
      let zeroSize := seg.vmsize - seg.filesize
      let mem :=
        if 0 < copySize then memcpy mem seg.vmaddr (env.machoBase + seg.fileoff) copySize else mem
      let mem := if 0 < zeroSize then memset mem (seg.vmaddr + copySize) 0 zeroSize else mem
      (mem, { r with segmentsLoaded := r.segmentsLoaded + 1 })

structure LoadState where
  mem : Mem
  r : Result
  i : UInt32
  lcOffset : UInt32
  foundText : Bool
  foundEntry : Bool

/-- The key segments are recorded whether their bytes were copied or not. -/
def recordSegment (s : LoadState) (p : UInt32) : LoadState :=
  let seg := segmentAt s.mem p
  if segNameEq s.mem p textName then
    { s with
      r := { s.r with textSegmentVa := seg.vmaddr, textSegmentSize := seg.vmsize }
      foundText := true }
  else if segNameEq s.mem p dataName then
    { s with r := { s.r with dataSegmentVa := seg.vmaddr, dataSegmentSize := seg.vmsize } }
  else if segNameEq s.mem p linkeditName then
    { s with r := { s.r with linkeditSegmentVa := seg.vmaddr } }
  else s

def LoadState.lc (s : LoadState) (env : Env) : UInt32 := env.machoBase + s.lcOffset

def loadCommand (env : Env) (s : LoadState) : LoadState :=
  let lc := s.lc env
  let cmd := read32 s.mem lc
  let s :=
    if cmd = lcSegment then
      let (mem, r) := loadSegment env s.mem (segmentAt s.mem lc) s.r
      recordSegment { s with mem := mem, r := r } lc
    else if cmd = lcUnixThread ∧ read32 s.mem (lc + 8) = armThreadState then
      { s with r := { s.r with entryPointOffset := read32 s.mem (lc + 76) }, foundEntry := true }
    else s
  { s with lcOffset := s.lcOffset + read32 s.mem (lc + 4), i := s.i + 1 }

/-- `i < mh->ncmds`. -/
def LoadState.more (s : LoadState) (env : Env) : Bool := s.i < read32 s.mem (env.machoBase + 16)

/-- The turns left are at most those of a 32-bit counter. -/
def commandLoop (env : Env) : Nat → LoadState → LoadState
  | 0, s => s
  | turns + 1, s => if s.more env then commandLoop env turns (loadCommand env s) else s

def Result.init (env : Env) : Result where
  version := 1
  size := 80
  status := 0
  requiredMask := MachO.requiredMask
  satisfiedMask := 0
  failureMask := 0
  machoBase := env.machoBase
  machoSize := env.machoSize
  textSegmentVa := 0
  textSegmentSize := 0
  dataSegmentVa := 0
  dataSegmentSize := 0
  linkeditSegmentVa := 0
  segmentsLoaded := 0
  segmentsUnmapped := 0
  entryPointOffset := 0
  xnuEntryVa := 0
  bootArgsPtr := 0
  readyForHandoff := 0
  checksum := 0

def LoadState.init (env : Env) (mem : Mem) : LoadState :=
  let r := Result.init env
  ⟨mem, { r with satisfiedMask := r.satisfiedMask ||| satMachoParsed }, 0, machHeaderSize, false,
    false⟩

/-- The label `finish`. -/
def finish (r : Result) : Bool × Result :=
  let status :=
    if r.satisfiedMask = r.requiredMask ∧ r.failureMask = 0 then statusOk
    else statusFail r.failureMask
  let r := { r with status := status }
  let r := { r with checksum := xnuMachoLoaderChecksum r }
  (r.status = statusOk, r)

def resolveEntry (env : Env) (s : LoadState) : Result :=
  if !s.foundText then { s.r with failureMask := s.r.failureMask ||| failNoText }
  else
    let r := { s.r with
      satisfiedMask := s.r.satisfiedMask ||| satSegmentsLoaded ||| satEntryResolved |||
        satReadyForHandoff
      xnuEntryVa := if s.foundEntry then s.r.entryPointOffset else s.r.textSegmentVa }
    { r with bootArgsPtr := env.bootArgs, readyForHandoff := 1 }

/-- Whether the call returns 0, the result, and memory. -/
def xnuMachoLoaderRun (env : Env) (mem : Mem) : Bool × Result × Mem :=
  if read32 mem env.machoBase ≠ mhMagic then
    let (ok, r) := finish { Result.init env with failureMask := failInvalidMacho }
    (ok, r, mem)
  else
    let s := commandLoop env (2 ^ 32) (.init env mem)
    let (ok, r) := finish (resolveEntry env s)
    (ok, r, s.mem)

end Stage90.MachO

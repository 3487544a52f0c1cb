import Stage90.MachO.Probe

/-!
# The images that the probe is for

A grammar of load commands, over the naturals: what an artifact holds, and not how it is read.
The commands are given by their offsets in the artifact.
-/

set_option autoImplicit false

namespace Stage90.Probe

open Stage90.Lib
open Stage90.MachO (mhMagic lcSegment lcUnixThread)

def Named (field name : List UInt8) : Prop := field.takeWhile (· ≠ 0) = name

section
variable (mem : Mem) (artifact : UInt32)

def cmdAt (o : UInt32) : UInt32 := read32 mem (artifact + o)
def cmdsizeAt (o : UInt32) : UInt32 := read32 mem (artifact + o + 4)
def stroffAt (o : UInt32) : UInt32 := read32 mem (artifact + o + 16)
def strsizeAt (o : UInt32) : UInt32 := read32 mem (artifact + o + 20)
def segmentOf (o : UInt32) : SegmentCommand := segmentCommandAt mem (artifact + o)

def sectionsOf (o : UInt32) : List Section :=
  (List.range (segmentOf mem artifact o).nsects.toNat).map fun j =>
    sectionAt mem (artifact + (o + segmentCommandSize + UInt32.ofNat j * sectionSize))

/-- Commands one after another, from `start` to `stop`. -/
def Tiles (stop : Nat) : Nat → List UInt32 → Prop
  | start, [] => start = stop
  | start, o :: rest =>
      o.toNat = start ∧ 8 ≤ (cmdsizeAt mem artifact o).toNat ∧ 4 ∣ (cmdsizeAt mem artifact o).toNat ∧
        Tiles stop (start + (cmdsizeAt mem artifact o).toNat) rest

def segmentOffsets (commands : List UInt32) : List UInt32 :=
  commands.filter fun o => cmdAt mem artifact o = lcSegment

def segments (commands : List UInt32) : List SegmentCommand :=
  (segmentOffsets mem artifact commands).map (segmentOf mem artifact)

end

/-- A section lies in its segment's address range, and in the file if it has a place there. -/
structure SectionFits (size : Nat) (segment : SegmentCommand) (sect : Section) : Prop where
  starts : segment.vmaddr.toNat ≤ sect.addr.toNat
  ends : sect.addr.toNat + sect.size.toNat ≤ segment.vmaddr.toNat + segment.vmsize.toNat
  file : sect.size ≠ 0 → sect.offset ≠ 0 → sect.offset.toNat + sect.size.toNat ≤ size

/-- A segment command has room for its sections, an address range and a file range. -/
structure SegmentFits (mem : Mem) (artifact : UInt32) (size : Nat) (o : UInt32) : Prop where
  room : 56 + 68 * (segmentOf mem artifact o).nsects.toNat ≤ (cmdsizeAt mem artifact o).toNat
  range : (segmentOf mem artifact o).vmaddr.toNat + (segmentOf mem artifact o).vmsize.toNat < 2 ^ 32
  file : (segmentOf mem artifact o).fileoff.toNat + (segmentOf mem artifact o).filesize.toNat ≤ size
  sections : ∀ sect ∈ sectionsOf mem artifact o, SectionFits size (segmentOf mem artifact o) sect

structure CommandFits (mem : Mem) (artifact : UInt32) (size : Nat) (o : UInt32) : Prop where
  segment : cmdAt mem artifact o = lcSegment → SegmentFits mem artifact size o
  symtab : cmdAt mem artifact o = lcSymtab → 24 ≤ (cmdsizeAt mem artifact o).toNat →
    (stroffAt mem artifact o).toNat + (strsizeAt mem artifact o).toNat ≤ size

/-! ## The load plan -/

def loaded (segs : List SegmentCommand) : List SegmentCommand := segs.filter fun s => s.vmsize ≠ 0

def vmBase (segs : List SegmentCommand) : Nat := (segs.map fun s => s.vmaddr.toNat).min?.getD 0

def roundUp (n : Nat) : Nat := (n + 4095) / 4096 * 4096

def placedAt (base : Nat) (s : SegmentCommand) : Nat :=
  ramPhysBase.toNat + (s.vmaddr.toNat - base)

def planEntry (base : Nat) (index : Nat) (s : SegmentCommand) : LoadPlanEntry where
  index := UInt32.ofNat index
  segmentMask := segmentMaskForName s.segname
  vmaddr := s.vmaddr
  vmsize := s.vmsize
  fileoff := s.fileoff
  filesize := s.filesize
  physaddr := UInt32.ofNat (placedAt base s)
  physsize := UInt32.ofNat (roundUp s.vmsize.toNat)
  flags := loadPlanFlags s (segmentMaskForName s.segname)

/-- The plan of a list of segments: one entry for each that is loaded. -/
def planOf (segs : List SegmentCommand) : List LoadPlanEntry :=
  (loaded segs).mapIdx (planEntry (vmBase segs))

/-! ## The grammar -/

structure Grammar (mem : Mem) (artifact : UInt32) (size : Nat) (commands : List UInt32) : Prop where
  header : 28 ≤ size
  magic : (headerAt mem artifact).magic = mhMagic
  cputype : (headerAt mem artifact).cputype = cpuTypeArm
  cpusubtype : (headerAt mem artifact).cpusubtype = cpuSubtypeArmAll ∨
    (headerAt mem artifact).cpusubtype = cpuSubtypeArmV7
  filetype : (headerAt mem artifact).filetype = filetypeExecute ∨
    (headerAt mem artifact).filetype = filetypePreload
  words : 4 ∣ (headerAt mem artifact).sizeofcmds.toNat
  region : 28 + (headerAt mem artifact).sizeofcmds.toNat ≤ size
  tiles : Tiles mem artifact (28 + (headerAt mem artifact).sizeofcmds.toNat) 28 commands
  count : commands.length = (headerAt mem artifact).ncmds.toNat
  fits : ∀ o ∈ commands, CommandFits mem artifact size o
  required : ∀ name ∈ [textName, dataName, linkeditName],
    ∃ s ∈ segments mem artifact commands, Named s.segname name
  sections : ∀ name ∈ [(textName, sectTextName), (dataName, sectConstName)],
    ∃ o ∈ segmentOffsets mem artifact commands, ∃ sect ∈ sectionsOf mem artifact o,
      Named sect.segname name.1 ∧ Named sect.sectname name.2
  entry : ∃ o ∈ commands, cmdAt mem artifact o = lcUnixThread ∨ cmdAt mem artifact o = lcMain
  based : vmBase (segments mem artifact commands) ≠ 0
  some_ : 1 ≤ (loaded (segments mem artifact commands)).length
  few : (loaded (segments mem artifact commands)).length ≤ 8
  placed : ∀ s ∈ loaded (segments mem artifact commands),
    placedAt (vmBase (segments mem artifact commands)) s + roundUp s.vmsize.toNat ≤
      ramConsoleBase.toNat

end Stage90.Probe

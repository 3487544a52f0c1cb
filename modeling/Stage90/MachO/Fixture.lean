import Stage90.Lib.ByteImage
import Stage90.MachO.Probe

/-!
# The fixture generator

`tools/mkmacho_fixture.py` up to `build_fixture`.  Python's integers are naturals here, none of them
is negative.  What raises is `none`.
-/

set_option autoImplicit false

namespace Stage90.Fixture

open Stage90.Lib
open Stage90.Probe (cstring)

def mhMagic : Nat := 0xFEEDFACE
def cpuTypeArm : Nat := 12
def cpuSubtypeArmV7 : Nat := 9
def mhPreload : Nat := 5
def lcSegment : Nat := 1
def lcSymtab : Nat := 2
def lcUnixthread : Nat := 5
def vmBase : Nat := 0x80008000

/-- The complement of `alignment - 1` takes its bits away. -/
def align (value alignment : Nat) : Nat :=
  value + alignment - 1 - ((value + alignment - 1) &&& (alignment - 1))

def fixed16 (name : List Char) : Option (List UInt8) :=
  let raw := cstring name
  if 16 < raw.length then none else some (raw ++ List.replicate (16 - raw.length) 0)

structure Section where
  sectname : List Char
  payload : List UInt8
  align : Nat
  flags : Nat := 0
  addr : Nat := 0
  offset : Nat := 0

structure Segment where
  name : List Char
  vmaddr : Nat
  vmsize : Nat
  maxprot : Nat
  initprot : Nat
  sections : List Section := []
  fileoff : Nat := 0
  filesize : Nat := 0
  flags : Nat := 0

def Segment.cmdsize (segment : Segment) : Nat := 56 + segment.sections.length * 68

/-! ## The segments -/

def textName : List Char := ['_', '_', 'T', 'E', 'X', 'T']
def dataName : List Char := ['_', '_', 'D', 'A', 'T', 'A']
def linkeditName : List Char := ['_', '_', 'L', 'I', 'N', 'K', 'E', 'D', 'I', 'T']
def prelinkName (suffix : List Char) : List Char :=
  ['_', '_', 'P', 'R', 'E', 'L', 'I', 'N', 'K', '_'] ++ suffix
def prelinkTextName : List Char := prelinkName ['T', 'E', 'X', 'T']
def prelinkInfoName : List Char := prelinkName ['I', 'N', 'F', 'O']
def prelinkStateName : List Char := prelinkName ['S', 'T', 'A', 'T', 'E']
def sectTextName : List Char := ['_', '_', 't', 'e', 'x', 't']
def sectConstName : List Char := ['_', '_', 'c', 'o', 'n', 's', 't']
def sectInfoName : List Char := ['_', '_', 'i', 'n', 'f', 'o']
def sectKernelName : List Char := ['_', '_', 'k', 'e', 'r', 'n', 'e', 'l']
def sectKextsName : List Char := ['_', '_', 'k', 'e', 'x', 't', 's']

/-- The bytes of a text with a stage number in it, and a NUL. -/
def stageText (before : List Char) (stageNumber : Nat) (behind : List Char) : List UInt8 :=
  cstring (before ++ Nat.toDigits 10 stageNumber ++ behind) ++ [0]

def prelinkDash : List Char := ['-', 'P', 'R', 'E', 'L', 'I', 'N', 'K', '-']
def metadataDash : List Char := ['-', 'M', 'E', 'T', 'A', 'D', 'A', 'T', 'A']
def kernelText : List Char := ['K', 'E', 'R', 'N', 'E', 'L']
def kextsText : List Char := ['K', 'E', 'X', 'T', 'S']
def stateDash : List Char := ['S', 'T', 'A', 'T', 'E', '-']
def textNoexec : List Char := ['T', 'E', 'X', 'T', '-', 'N', 'O', 'E', 'X', 'E', 'C']

/-- Behind the stage number in the element of `__info`. -/
def infoAttributes : List Char :=
  ['-', 'p', 'r', 'e', 'l', 'i', 'n', 'k', '-', 'i', 'n', 'f', 'o', ' '] ++
    ['g', 'e', 'n', 'e', 'r', 'a', 't', 'e', 'd', '=', '"', 't', 'r', 'u', 'e', '"', ' '] ++
    ['p', 'r', 'o', 'p', 'r', 'i', 'e', 't', 'a', 'r', 'y', '=', '"', 'f', 'a', 'l', 's', 'e', '"',
      ' '] ++
    ['e', 'x', 'e', 'c', 'u', 't', 'a', 'b', 'l', 'e', '=', '"', 'f', 'a', 'l', 's', 'e', '"', '/',
      '>']

def rstripNul (bytes : List UInt8) : List UInt8 := (bytes.reverse.dropWhile (· = 0)).reverse

def infoPayload (stageNumber : Nat) (metadata : Option (List UInt8)) : List UInt8 :=
  let element := stageText ['<', 's', 't', 'a', 'g', 'e'] stageNumber infoAttributes
  match metadata with
  | none | some [] => element
  | some metadata => element ++ [10] ++ rstripNul metadata ++ [0]

def stText : Nat → List Char → List UInt8 := stageText ['S', 'T']

def buildSegments (stageNumber : Nat) (metadata : Option (List UInt8)) : List Segment :=
  [{ name := textName, vmaddr := vmBase, vmsize := 0x2000, maxprot := 5, initprot := 5
     sections := [
      { sectname := sectTextName, payload := stText stageNumber ('-' :: textNoexec), align := 4 }] },
    { name := dataName, vmaddr := vmBase + 0x2000, vmsize := 0x2000, maxprot := 3, initprot := 3
      sections := [
        { sectname := sectConstName
          payload := stText stageNumber ['-', 'D', 'A', 'T', 'A', '-', 'C', 'O', 'N', 'S', 'T']
          align := 4 }] },
    { name := linkeditName, vmaddr := vmBase + 0x4000, vmsize := 0x1000, maxprot := 1, initprot := 1 },
    { name := prelinkTextName, vmaddr := vmBase + 0x5000, vmsize := 0x1000, maxprot := 5, initprot := 5
      sections := [
        { sectname := sectTextName
          payload := stText stageNumber (prelinkDash ++ textNoexec)
          align := 4 }] },
    { name := prelinkInfoName, vmaddr := vmBase + 0x6000, vmsize := 0x2000, maxprot := 1, initprot := 1
      sections := [
        { sectname := sectInfoName, payload := infoPayload stageNumber metadata, align := 2 },
        { sectname := sectKernelName
          payload := stText stageNumber (prelinkDash ++ kernelText ++ metadataDash)
          align := 2 },
        { sectname := sectKextsName
          payload := stText stageNumber (prelinkDash ++ kextsText ++ metadataDash)
          align := 2 }] },
    { name := prelinkStateName, vmaddr := vmBase + 0x8000, vmsize := 0x1000, maxprot := 1, initprot := 1
      sections := [
        { sectname := sectKernelName
          payload := stText stageNumber (prelinkDash ++ stateDash ++ kernelText)
          align := 2 },
        { sectname := sectKextsName
          payload := stText stageNumber (prelinkDash ++ stateDash ++ kextsText)
          align := 2 }] }]

/-! ## The layout -/

/-- The loop over the sections of a segment: the sections with their places, `cursor` and
`max_end`. -/
def layoutSections (vmaddr vmsize payloadStart : Nat) :
    List Section → Nat → Nat → Option (List Section × Nat × Nat)
  | [], cursor, maxEnd => some ([], cursor, maxEnd)
  | sect :: sects, cursor, maxEnd => do
      let offset := align cursor (1 <<< sect.align)
      let offsetInSegment := offset - payloadStart
      if vmsize ≤ offsetInSegment then none
      else
        let cursor := offset + sect.payload.length
        let (sects, cursor, maxEnd) ←
          layoutSections vmaddr vmsize payloadStart sects cursor (max maxEnd cursor)
        some ({ sect with offset, addr := vmaddr + offsetInSegment } :: sects, cursor, maxEnd)

def layoutSegment (headerInText : Bool) (segment : Segment) (cursor : Nat) :
    Option (Segment × Nat) := do
  let start := cursor
  let (sections, cursor, maxEnd) ←
    layoutSections segment.vmaddr segment.vmsize start segment.sections cursor cursor
  if segment.sections.isEmpty then some ({ segment with fileoff := cursor, filesize := 0 }, cursor)
  else
    let next := start + align (maxEnd - start) 0x10
    if headerInText then
      let sections := sections.map fun sect => { sect with addr := segment.vmaddr + sect.offset }
      some ({ segment with sections, fileoff := 0, filesize := align maxEnd 0x10 }, next)
    else
      some ({ segment with sections, fileoff := start, filesize := align (maxEnd - start) 0x10 },
        next)

/-- The loop over the segments.  Only the first of them can hold the header. -/
def layoutFrom : Bool → List Segment → Nat → Option (List Segment × Nat)
  | _, [], cursor => some ([], cursor)
  | headerInText, segment :: segments, cursor => do
      let (segment, cursor) ← layoutSegment headerInText segment cursor
      let (segments, cursor) ← layoutFrom false segments cursor
      some (segment :: segments, cursor)

def layoutSegments (segments : List Segment) (sizeofcmds : Nat) (includeHeaderInText : Bool) :
    Option (List Segment × Nat) :=
  layoutFrom includeHeaderInText segments (align (28 + sizeofcmds) 0x10)

/-! ## The file -/

/-- `struct.pack` of unsigned words. -/
def packWords (words : List Nat) : Option (List UInt8) :=
  if words.all (· < 2 ^ 32) then some (words.flatMap le32) else none

def packSection (segname : List Char) (sect : Section) : Option (List UInt8) := do
  let sectname ← fixed16 sect.sectname
  let segname ← fixed16 segname
  let words ← packWords
    [sect.addr, sect.payload.length, sect.offset, sect.align, 0, 0, sect.flags, 0, 0]
  some (sectname ++ segname ++ words)

def packSections (segname : List Char) : List Section → Option (List UInt8)
  | [] => some []
  | sect :: sects => do
      let one ← packSection segname sect
      let others ← packSections segname sects
      some (one ++ others)

def packSegment (segment : Segment) : Option (List UInt8) := do
  let name ← fixed16 segment.name
  let head ← packWords [lcSegment, segment.cmdsize]
  let words ← packWords [segment.vmaddr, segment.vmsize, segment.fileoff, segment.filesize,
    segment.maxprot, segment.initprot, segment.sections.length, segment.flags]
  let sections ← packSections segment.name segment.sections
  some (head ++ name ++ words ++ sections)

def packSegments : List Segment → Option (List (List UInt8))
  | [] => some []
  | segment :: segments => do
      let command ← packSegment segment
      let commands ← packSegments segments
      some (command :: commands)

/-- The header and the commands, one behind the other, and `offset` behind them. -/
def writeCommands : List (List UInt8) → List UInt8 → Nat → List UInt8 × Nat
  | [], out, offset => (out, offset)
  | command :: commands, out, offset =>
      writeCommands commands (assign out offset command) (offset + command.length)

def writePayloads (segments : List Segment) (out : List UInt8) : List UInt8 :=
  assignAll out (segments.flatMap fun segment =>
    segment.sections.map fun sect => (sect.offset, sect.payload))

def symtabSize : Nat := 24
def unixthreadSize : Nat := 16

def buildFixture (stageNumber : Nat) (metadata : Option (List UInt8)) : Option (List UInt8) := do
  let segments := buildSegments stageNumber metadata
  let sizeofcmds := (segments.map Segment.cmdsize).sum + symtabSize + unixthreadSize
  let (segments, fileSize) ← layoutSegments segments sizeofcmds (45 ≤ stageNumber)
  let header ← packWords [mhMagic, cpuTypeArm, cpuSubtypeArmV7, mhPreload, segments.length + 2,
    sizeofcmds, 0]
  let commands ← packSegments segments
  let symtab ← packWords [lcSymtab, symtabSize, 0, 0, fileSize, 0]
  let unixthread ← packWords [lcUnixthread, unixthreadSize, 0, vmBase]
  let (out, offset) :=
    writeCommands ([header] ++ commands ++ [symtab, unixthread]) (List.replicate fileSize 0) 0
  if offset ≠ 28 + sizeofcmds then none else some (writePayloads segments out)

end Stage90.Fixture

import Stage90.Lib.ByteImage

/-!
# Boot images

The three scripts that work on a legacy boot image: the packer, the parser and the command
line patcher.  Each has the layout of the header for itself.
-/

set_option autoImplicit false

namespace Stage90.Bootimg

open Lib

abbrev Bytes := List UInt8

abbrev Str := List Char

/-- A string of the command line, which ends at its first NUL. -/
abbrev Argument := { s : Str // '\x00' ∉ s }

def bootMagic : Bytes := [0x41, 0x4E, 0x44, 0x52, 0x4F, 0x49, 0x44, 0x21]

def cmdlineLen : Nat := 512
def extraCmdlineLen : Nat := 1024
def nameLen : Nat := 16
def headerSize : Nat := 1632

def align (value pageSize : Nat) : Nat := (value + pageSize - 1) / pageSize * pageSize

/-- `data[offset : offset + size]` -/
def field (data : Bytes) (offset size : Nat) : Bytes := (data.drop offset).take size

def zeros (n : Nat) : Bytes := List.replicate n 0

def ljust (bytes : Bytes) (size : Nat) : Bytes := bytes ++ zeros (size - bytes.length)

/-- `encode("ascii")` -/
def encodeAscii (s : Str) : Option Bytes :=
  if s.all fun c => c.toNat < 128 then some (s.map fun c => UInt8.ofNat c.toNat) else none

/-- `decode("ascii", "replace")` -/
def decodeAscii (raw : Bytes) : Str :=
  raw.map fun b => if b.toNat < 128 then Char.ofNat b.toNat else '\uFFFD'

def beforeNul (raw : Bytes) : Bytes := raw.takeWhile (· ≠ 0)

def cString (raw : Bytes) : Str := decodeAscii (beforeNul raw)

/-! ## The packer -/

inductive PackError
  | notAscii
  | boardTooLong (size : Nat)
  | cmdlineTooLong (size : Nat)
  | notAWord (value : Int)
  | headerTooLong (pageSize : Int)
  deriving DecidableEq, Repr

structure Args where
  kernel : Bytes
  ramdisk : Option Bytes
  second : Option Bytes
  dt : Option Bytes
  cmdline : Argument
  board : Argument
  base : Int
  kernelOffset : Int
  ramdiskOffset : Int
  secondOffset : Int
  tagsOffset : Int
  pageSize : Int

def pad (blob : Bytes) (pageSize : Nat) : Bytes :=
  blob ++ zeros (align blob.length pageSize - blob.length)

def splitCmdline (cmdline : Str) : Except PackError (Bytes × Bytes) :=
  match encodeAscii cmdline with
  | none => .error .notAscii
  | some raw =>
      if raw.length > cmdlineLen + extraCmdlineLen then .error (.cmdlineTooLong raw.length)
      else .ok (ljust (raw.take cmdlineLen) cmdlineLen, ljust (raw.drop cmdlineLen) extraCmdlineLen)

/-- `struct.pack("<I", value)` -/
def packWord (value : Int) : Except PackError Bytes :=
  if 0 ≤ value ∧ value < 2 ^ 32 then .ok (le32 value.toNat) else .error (.notAWord value)

def packWords : List Int → Except PackError Bytes
  | [] => .ok []
  | value :: values => do
      let first ← packWord value
      let rest ← packWords values
      .ok (first ++ rest)

abbrev Sha1 := Bytes → { digest : Bytes // digest.length = 20 }

variable (sha1 : Sha1)

def bootId (kernel ramdisk second : Bytes) : Except PackError Bytes := do
  let kernelSize ← packWord kernel.length
  let ramdiskSize ← packWord ramdisk.length
  let secondSize ← packWord second.length
  .ok ((sha1 (kernel ++ kernelSize ++ ramdisk ++ ramdiskSize ++ second ++ secondSize)).1 ++ zeros 12)

def packHeader (a : Args) (board cmdline extraCmdline id : Bytes) : Except PackError Bytes := do
  let words ← packWords
    [a.kernel.length, a.base + a.kernelOffset, (a.ramdisk.getD []).length,
      a.base + a.ramdiskOffset, (a.second.getD []).length, a.base + a.secondOffset,
      a.base + a.tagsOffset, a.pageSize, (a.dt.getD []).length, 0]
  .ok (bootMagic ++ words ++ board ++ cmdline ++ id ++ extraCmdline)

def packBoard (board : Str) : Except PackError Bytes :=
  match encodeAscii board with
  | none => .error .notAscii
  | some raw =>
      if raw.length > nameLen then .error (.boardTooLong raw.length) else .ok (ljust raw nameLen)

def mkbootimg (a : Args) : Except PackError Bytes := do
  let board ← packBoard a.board
  let (cmdline, extraCmdline) ← splitCmdline a.cmdline
  let id ← bootId sha1 a.kernel (a.ramdisk.getD []) (a.second.getD [])
  let header ← packHeader a board cmdline extraCmdline id
  if (header.length : Int) > a.pageSize then .error (.headerTooLong a.pageSize)
  else
    let pageSize := a.pageSize.toNat
    .ok (pad header pageSize ++ pad a.kernel pageSize ++ pad (a.ramdisk.getD []) pageSize ++
      pad (a.second.getD []) pageSize ++ pad (a.dt.getD []) pageSize)

/-! ## The parser -/

structure Header where
  magic : Bytes
  kernelSize : Nat
  kernelAddr : Nat
  ramdiskSize : Nat
  ramdiskAddr : Nat
  secondSize : Nat
  secondAddr : Nat
  tagsAddr : Nat
  pageSize : Nat
  dtSize : Nat
  unused : Nat
  name : Bytes
  cmdline : Bytes
  id : List Nat
  extraCmdline : Bytes
  deriving DecidableEq, Repr

def word (data : Bytes) (offset : Nat) : Nat :=
  (field data offset 4).foldr (fun b n => b.toNat + 256 * n) 0

/-- `struct.unpack("<8s10I16s512s8I1024s", data)` -/
def unpack (data : Bytes) : Header where
  magic := field data 0 8
  kernelSize := word data 8
  kernelAddr := word data 12
  ramdiskSize := word data 16
  ramdiskAddr := word data 20
  secondSize := word data 24
  secondAddr := word data 28
  tagsAddr := word data 32
  pageSize := word data 36
  dtSize := word data 40
  unused := word data 44
  name := field data 48 16
  cmdline := field data 64 512
  id := (List.range 8).map fun i => word data (576 + 4 * i)
  extraCmdline := field data 608 1024

inductive ParseError
  | tooSmall
  | badMagic (magic : Bytes)
  | invalidPageSize (pageSize : Nat)
  | truncated (name : String) (expected got : Nat)
  deriving DecidableEq, Repr

structure Part where
  name : String
  offset : Nat
  blob : Bytes
  deriving DecidableEq, Repr

structure Report where
  header : Header
  board : Str
  cmdline : Str
  kernelOff : Nat
  ramdiskOff : Nat
  secondOff : Nat
  dtOff : Nat
  parts : List Part
  deriving DecidableEq, Repr

/-- The parts before the first that is cut short, and the error on that one. -/
def readParts (data : Bytes) : List (String × Nat × Nat) → List Part × Option ParseError
  | [] => ([], none)
  | (name, offset, size) :: rest =>
      let blob := field data offset size
      if blob.length ≠ size then ([], some (.truncated name size blob.length))
      else
        let others := readParts data rest
        (⟨name, offset, blob⟩ :: others.1, others.2)

def Header.kernelOff (h : Header) : Nat := h.pageSize

def Header.ramdiskOff (h : Header) : Nat := h.kernelOff + align h.kernelSize h.pageSize

def Header.secondOff (h : Header) : Nat := h.ramdiskOff + align h.ramdiskSize h.pageSize

def Header.dtOff (h : Header) : Nat := h.secondOff + align h.secondSize h.pageSize

/-- The parts of an image, the last two only where they have a size. -/
def Header.parts (h : Header) : List (String × Nat × Nat) :=
  [("kernel", h.kernelOff, h.kernelSize), ("ramdisk.gz", h.ramdiskOff, h.ramdiskSize)] ++
    (if h.secondSize = 0 then [] else [("second", h.secondOff, h.secondSize)]) ++
    (if h.dtSize = 0 then [] else [("dt.img", h.dtOff, h.dtSize)])

def Header.report (h : Header) (parts : List Part) : Report where
  header := h
  board := cString h.name
  cmdline := cString (h.cmdline ++ h.extraCmdline)
  kernelOff := h.kernelOff
  ramdiskOff := h.ramdiskOff
  secondOff := h.secondOff
  dtOff := h.dtOff
  parts := parts

/-- The header's lines are printed before the parts are read, an error on a part comes behind. -/
def Header.ended (h : Header) (parts : List Part × Option ParseError) :
    Except (ParseError × Option Report) Report :=
  match parts.2 with
  | none => .ok (h.report parts.1)
  | some error => .error (error, some (h.report parts.1))

def parseBootImage (data : Bytes) : Except (ParseError × Option Report) Report :=
  if data.length < headerSize then .error (.tooSmall, none)
  else
    let h := unpack (data.take headerSize)
    if h.magic ≠ bootMagic then .error (.badMagic h.magic, none)
    else if h.pageSize = 0 then .error (.invalidPageSize h.pageSize, none)
    else h.ended (readParts data h.parts)

/-- What the parser has printed when it ends, on an error or not. -/
def printed (data : Bytes) : Option Report :=
  match parseBootImage data with
  | .ok report => some report
  | .error stopped => stopped.2

/-! ## The patcher -/

def cmdlineOff : Nat := 64
def extraCmdlineOff : Nat := 608

inductive PatchError
  | badMagic
  | notAscii
  | cmdlineTooLong (size : Nat)
  deriving DecidableEq, Repr

def readCmdline (data : Bytes) : Str :=
  decodeAscii (beforeNul (field data cmdlineOff cmdlineLen) ++
    beforeNul (field data extraCmdlineOff extraCmdlineLen))

def writeCmdline (data : Bytes) (cmdline : Str) : Except PatchError Bytes :=
  match encodeAscii cmdline with
  | none => .error .notAscii
  | some raw =>
      if raw.length > cmdlineLen + extraCmdlineLen then .error (.cmdlineTooLong raw.length)
      else .ok (assign (assign data cmdlineOff (ljust (raw.take cmdlineLen) cmdlineLen))
        extraCmdlineOff (ljust (raw.drop cmdlineLen) extraCmdlineLen))

def patch (data : Bytes) (cmdline : Str) : Except PatchError Bytes :=
  if field data 0 8 ≠ bootMagic then .error .badMagic else writeCmdline data cmdline

end Stage90.Bootimg

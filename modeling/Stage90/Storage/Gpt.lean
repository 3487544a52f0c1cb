import Stage90.Storage.Ladder

/-!
# The partition walk

`st_gpt_parse`, `st_gpt_entry_parse`, the read and decode chain of `st_cmd_path`, the
selection accessors and `entry_root_media_mount_disk`.  A decode reads the buffer as it
stands; `note` records what it read.

The chain's other readers of the buffer (`st_mbr_parse`, `st_part_parse`, `st_part_geom`,
`st_data_part`) publish and leave these carries alone.
-/

set_option autoImplicit false

namespace Stage90.Storage

/-! ## Reading the buffer -/

def readWord (card : Card) (s : Ladder) (i : Nat) : UInt32 :=
  if h : i < 128 then s.readBlock ⟨i, h⟩ else card.beyond i

def originOf (s : Ladder) (i : Nat) : Option UInt32 :=
  if h : i < 128 then s.origin ⟨i, h⟩ else none

def note (wanted : UInt32) (words : List Nat) (s : Ladder) : Ladder :=
  { s with decoded := s.decoded ++ words.map fun i => ⟨i, wanted, originOf s i⟩ }

/-! ## The header -/

def stGptArrayScanMax : UInt32 := 32

def arrayNsec (nentries entrySize : UInt32) : UInt32 := (nentries * entrySize + 511) / 512

def stGptParse (card : Card) (s : Ladder) : Ladder :=
  let nextEntry := readWord card s 18
  let nentries := readWord card s 20
  let esize := readWord card s 21
  let nsec := arrayNsec nentries esize
  note stGptHeaderSector [18, 20, 21]
    { s with
      gpt := { s.gpt with
        nentries := nentries
        entrySize := esize
        entryLba := nextEntry
        arrayNsec := if nsec > stGptArrayScanMax then stGptArrayScanMax else nsec
        bestExtent := 0
        dataSector := 0
        scanSector := nextEntry } }

/-! ## One array sector -/

structure Entry where
  type : Fin 4 → UInt32
  first : UInt32
  last : UInt32
  name : Fin 4 → UInt32

def entryAt (word : Nat → UInt32) (off : Nat) : Entry where
  type i := word (off + i)
  first := word (off + 8)
  last := word (off + 10)
  name i := word (off + 14 + i)

def Entry.blank (e : Entry) : Bool := decide (∀ i, e.type i = 0)

def Entry.extent (e : Entry) : UInt32 := if e.last ≥ e.first then e.last - e.first else 0

def Entry.selects (e : Entry) (gpt : Gpt) : Bool := !e.blank && decide (e.extent > gpt.bestExtent)

def considerEntry (sector : UInt32) (gpt : Gpt) (e : Entry) : Gpt :=
  if e.blank then gpt
  else
    let gpt := { gpt with partSector := if gpt.partSector = 0 then e.first else gpt.partSector }
    if e.extent > gpt.bestExtent then
      { gpt with
        bestExtent := e.extent
        dataSector := e.first
        scanSector := sector
        dataType := e.type
        dataName := e.name }
    else gpt

/-- The words the body reads; the name's only when the entry is selected. -/
def entryReads (off : Nat) (selects : Bool) : List Nat :=
  [off, off + 1, off + 2, off + 3, off + 8, off + 10] ++
    if selects then [off + 14, off + 15, off + 16, off + 17] else []

def strideWords (gpt : Gpt) : Nat := gpt.entrySize.toNat / 4

def sectorCap (gpt : Gpt) : Nat :=
  128 / if strideWords gpt ≠ 0 then strideWords gpt else 1

/-- Entries of array sector `secIdx` that the header declares. -/
def nentUsed (gpt : Gpt) (secIdx : Nat) : Nat :=
  let base := secIdx * sectorCap gpt
  let used := if gpt.nentries.toNat > base then gpt.nentries.toNat - base else 0
  if used > sectorCap gpt then sectorCap gpt else used

def parseEntry (card : Card) (secIdx stride : Nat) (s : Ladder) (k : Nat) : Ladder :=
  let sector := s.gpt.entryLba + UInt32.ofNat secIdx
  let e := entryAt (readWord card s) (k * stride)
  note sector (entryReads (k * stride) (e.selects s.gpt))
    { s with gpt := considerEntry sector s.gpt e }

def stGptEntryParse (card : Card) (secIdx : Nat) (s : Ladder) : Ladder :=
  let stride := strideWords s.gpt
  let used := nentUsed s.gpt secIdx
  let s := if secIdx = 0 then { s with gpt := { s.gpt with partSector := 0 } } else s
  (List.range used).foldl (parseEntry card secIdx stride) s

/-! ## The chain -/

/-- The first `n` turns of the array loop. -/
def arrayWalk (card : Card) (n : Nat) (s : Ladder) : Ladder :=
  (List.range n).foldl (fun s secIdx => stGptEntryParse card secIdx (stReadSingleBlock card s)) s

def headerRead (card : Card) (s : Ladder) : Ladder := stGptParse card (stReadSingleBlock card s)

/-- The header, the array and the superblock; `st_gpt_array_nsec` is read once, before the
loop. -/
def stCmdPath (card : Card) (s : Ladder) : Ladder :=
  let s := headerRead card s
  stReadSingleBlock card (arrayWalk card s.gpt.arrayNsec.toNat s)

/-! ## The selection and the mount -/

def stGptScanNone : UInt32 := 0

def entryStorageSelectedPages (s : Ladder) : UInt32 :=
  if s.gpt.bestExtent = stGptScanNone then 0
  else if s.extSecCount = 0 then 0
  else (s.extSecCount + 7) >>> 3

def entryStorageSelectedLba (s : Ladder) : UInt32 :=
  if s.gpt.bestExtent = stGptScanNone ∨ s.extSecCount = 0 then 0 else s.gpt.dataSector

def entryStorageSelectedCount (s : Ladder) : UInt32 :=
  if s.gpt.bestExtent = stGptScanNone ∨ s.extSecCount = 0 then 0 else s.gpt.bestExtent

def entryStorageCardSectors (s : Ladder) : UInt32 := s.extSecCount

/-- The arguments of `entry_root_media_stage`. -/
structure Staged where
  sector : UInt32
  pages : UInt32
  words : Words

/-- The probe is idempotent: `s` is the state it leaves. -/
def entryRootMediaMountDisk (card : Card) (s : Ladder) : Int × Option Staged × Ladder :=
  let pages := entryStorageSelectedPages s
  if pages = 0 then (-1, none, s)
  else
    let s := stReadSingleBlock card s
    (0, some ⟨s.readLba, pages, s.readBlock⟩,
      note (s.gpt.dataSector + stFsSbSectorOff) (List.range 128) s)

/-- The statics when the ladder starts its chain, the capacity read or not. -/
def bootLadder (extSecCount : UInt32) : Ladder where
  readBlock := fun _ => 0
  readLba := 0
  readCount := 0
  driverLba := 0
  driverLbaSet := 0
  driverGet := 0
  extSecCount := extSecCount
  gpt := ⟨0, 0, 0, 0, 0, 0, 0, 0, fun _ => 0, fun _ => 0⟩
  calls := 0
  origin := fun _ => none
  decoded := []

end Stage90.Storage

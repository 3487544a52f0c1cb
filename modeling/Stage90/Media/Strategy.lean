import Stage90.Media.Cow

/-!
# The block strategy

`st_media_strategy` of `stage90_root_media.c`, for every unit and every build switch
that reaches it.  The caller's map is a memory of bytes from `vaddr`; the ladder's
doors are a `Door` over the state `σ` behind them.  What the strategy reads and never
writes (the selection, the RAM media, the handover cell) is a `Device`.

`moved` in a reply and `asked` in the state are not in the source: they record how many
bytes of the map a call served, and which blocks it put to the shadow.
-/

set_option autoImplicit false

namespace Stage90.Media

open Stage90.Lib Stage90.Cow

/-- The `STAGE90_XNU_*` switches, with the `#error`s that tie them together. -/
structure Build where
  emmcStrategy : Bool
  cardTotal : Bool
  fullExtent : Bool
  cardCow : Bool
  hddWrite : Bool
  cardTotal_needs : cardTotal → emmcStrategy
  fullExtent_needs : fullExtent → emmcStrategy
  cardCow_needs : cardCow → emmcStrategy
  hddWrite_needs : hddWrite → emmcStrategy
  one_write_branch : ¬ (cardCow ∧ hddWrite)

inductive Errno where
  | enxio | erofs | einval | efault | enospc | eio
  deriving DecidableEq, Repr

/-- `entry_storage_driver_read` and `entry_storage_driver_write`: one 512-byte block at a
32-bit medium LBA.  The read door returns a buffer, whatever became of the read. -/
structure Door (σ : Type) where
  driverRead : σ → Nat → Sector × σ
  driverWrite : σ → Nat → Sector → σ

structure Device where
  selectedLba : UInt32
  selectedCount : UInt32
  cardSectors : UInt32
  staged : Bool
  stagedSector : Nat → UInt8
  ram : Nat → UInt8
  ramBytes : UInt32

/-- The `struct buf` as the strategy reads it. -/
structure Buf where
  unit : Nat
  blkno : UInt64
  count : UInt32
  isRead : Bool
  mapFails : Bool
  data : Nat → UInt8

/-- `resid` is `none` where the strategy does not set it. -/
structure Reply where
  error : Option Errno
  resid : Option Nat
  data : Nat → UInt8
  moved : Nat

/-- `st_cow_shadow`, which carries the state behind the doors, and `st_cow_bound`. -/
structure State (σ : Type) where
  bound : Int
  shadow : Shadow σ
  asked : List Nat

def stMediaBlocksize : Nat := 512
def stMediaDriver : Nat := 2
def stMediaCardRaw : Nat := 3

def stMediaDisks (b : Build) : Nat :=
  if b.emmcStrategy && b.cardTotal then 4 else if b.emmcStrategy then 3 else 2

def stMediaRawUnit (b : Build) (unit : Nat) : Bool :=
  b.emmcStrategy && b.cardTotal && unit == stMediaCardRaw

/-! ## Lengths and bases -/

def stMediumCardBytes (d : Device) : Nat := d.cardSectors.toNat * stMediaBlocksize

def stMediumCardFullBytes (d : Device) : Nat := d.selectedCount.toNat * stMediaBlocksize

/-- The 32-bit accessor. -/
def stMediumDiskBytes (b : Build) (d : Device) (unit : Nat) : Nat :=
  if unit ≥ stMediaDisks b then 0
  else if b.emmcStrategy && unit == stMediaDriver then
    u32 (d.selectedCount.toNat * stMediaBlocksize)
  else if stMediaRawUnit b unit then u32 (stMediumCardBytes d)
  else if unit == 1 && d.staged then stMediaBlocksize
  else d.ramBytes.toNat

/-- The `len` the strategy bounds a request with. -/
def strategyLen (b : Build) (d : Device) (unit : Nat) : Nat :=
  if stMediaRawUnit b unit then stMediumCardBytes d
  else if b.fullExtent && unit == stMediaDriver then stMediumCardFullBytes d
  else stMediumDiskBytes b d unit

/-- `none` is a unit that is not one array. -/
def stMediumDiskBase (b : Build) (d : Device) (unit : Nat) : Option (Nat → UInt8) :=
  if b.emmcStrategy && (unit == stMediaDriver || stMediaRawUnit b unit) then none
  else if unit == 1 && d.staged then some d.stagedSector
  else some d.ram

section Card
variable {σ : Type} (door : Door σ) (d : Device)

/-! ## The shadow on the card -/

/-- The LBA is `(uint32_t)((uint64_t)(uintptr_t)cookie + lba)`; the callback answers 0. -/
def stCowBaseRead : Read512 σ := fun world lba _ =>
  let (bytes, world) := door.driverRead world (u32 (u64 (d.selectedLba.toNat + lba)))
  (0, bytes, world)

def stCowArenaPages : UInt32 := 512
def stCowHashSlots : UInt32 := 1024

def stCowEnsureBound (s : State σ) : State σ :=
  if s.bound > 0 then s
  else if s.bound < 0 then s
  else
    match stCowInit d.selectedCount.toUInt64 8 stCowArenaPages stCowHashSlots with
    | none => { s with bound := -1 }
    | some c =>
        { s with
          bound := 1
          shadow := { freshShadow c s.shadow.arena s.shadow.world with trace := s.shadow.trace } }

/-- `size_t` on the target. -/
def sizeTBits : Nat := 32

/-- The COW write loop from block `i` of the request, `left` blocks to go.  The number is
the block the loop stopped at. -/
def cowWriteLoop (block : Nat) (data : Nat → UInt8) :
    Nat → Nat → State σ → Cow.Status × Nat × State σ
  | 0, i, s => (.ok, i, s)
  | left + 1, i, s =>
      let sector := u64 (block + i)
      let (cr, shadow) := stCowPrepareWrite sizeTBits (stCowBaseRead door d) s.shadow sector 1
      let s := { s with shadow := shadow, asked := s.asked ++ [sector] }
      if cr ≠ .ok then (cr, i, s)
      else
        let (cr, shadow) := stCowWritePreparedSector sizeTBits s.shadow sector
          (some (blockAt 512 data (i * stMediaBlocksize)))
        let s := { s with shadow := shadow, asked := s.asked ++ [sector] }
        if cr ≠ .ok then (cr, i, s) else cowWriteLoop block data left (i + 1) s

def driverWriteLoop (baseLba block : Nat) (data : Nat → UInt8) : Nat → Nat → State σ → State σ
  | 0, _, s => s
  | left + 1, i, s =>
      let lba := u32 (u64 (baseLba + block + i))
      let world := door.driverWrite s.shadow.world lba (blockAt 512 data (i * stMediaBlocksize))
      driverWriteLoop baseLba block data left (i + 1)
        { s with shadow := { s.shadow with world := world } }

/-- One turn of the read loop, for block `i`: through the shadow on the mount unit of a COW
build that is bound, else through the read door.  `false` is the `EIO` return. -/
def cardReadBlock (cow : Bool) (baseLba block i : Nat) (data : Nat → UInt8) (s : State σ) :
    Bool × (Nat → UInt8) × State σ :=
  let lba := u32 (u64 (baseLba + block + i))
  let s := if cow then stCowEnsureBound d s else s
  if cow && s.bound == 1 then
    let sector := u64 (block + i)
    let (cr, out, shadow) := stCowReadSector sizeTBits (stCowBaseRead door d) s.shadow sector
      (some (blockAt 512 data (i * stMediaBlocksize)))
    let data := match out with
      | some bytes => copyBlock data (i * stMediaBlocksize) bytes
      | none => data
    (cr == .ok, data, { s with shadow := shadow, asked := s.asked ++ [sector] })
  else
    let (bytes, world) := door.driverRead s.shadow.world lba
    (true, copyBlock data (i * stMediaBlocksize) bytes,
      { s with shadow := { s.shadow with world := world } })

def cardReadLoop (cow : Bool) (baseLba block : Nat) :
    Nat → Nat → (Nat → UInt8) → State σ → Bool × Nat × (Nat → UInt8) × State σ
  | 0, i, data, s => (true, i, data, s)
  | left + 1, i, data, s =>
      match cardReadBlock door d cow baseLba block i data s with
      | (true, data, s) => cardReadLoop cow baseLba block left (i + 1) data s
      | (false, data, s) => (false, i, data, s)

/-- The card branch, once the bounds have been applied and the map taken. -/
def cardStrategy (b : Build) (bp : Buf) (s : State σ) (count : Nat) : Reply × State σ :=
  let baseLba := if bp.unit == stMediaDriver then d.selectedLba.toNat else 0
  let off := bp.blkno.toUInt32.toNat * stMediaBlocksize
  let block := off / stMediaBlocksize
  let nblk := count / stMediaBlocksize
  let resid := sub32 bp.count.toNat count
  if b.cardCow && bp.unit == stMediaDriver && !bp.isRead then
    let s := stCowEnsureBound d s
    if s.bound ≠ 1 then (⟨some .eio, none, bp.data, 0⟩, s)
    else
      match cowWriteLoop door d block bp.data nblk 0 s with
      | (.ok, _, s) => (⟨none, some resid, bp.data, nblk * stMediaBlocksize⟩, s)
      | (.noSpace, i, s) => (⟨some .enospc, none, bp.data, i * stMediaBlocksize⟩, s)
      | (_, i, s) => (⟨some .eio, none, bp.data, i * stMediaBlocksize⟩, s)
  else if b.hddWrite && !bp.isRead then
    (⟨none, some resid, bp.data, nblk * stMediaBlocksize⟩,
      driverWriteLoop door baseLba block bp.data nblk 0 s)
  else
    match cardReadLoop door d (b.cardCow && bp.unit == stMediaDriver) baseLba block nblk 0
        bp.data s with
    | (true, _, data, s) => (⟨none, some resid, data, nblk * stMediaBlocksize⟩, s)
    | (false, i, data, s) => (⟨some .eio, none, data, i * stMediaBlocksize⟩, s)

/-- `bcopy` of `count` bytes. -/
def copyBytes (from_ : Nat → UInt8) (offset count : Nat) (data : Nat → UInt8) : Nat → UInt8 :=
  fun a => if a < count then from_ (offset + a) else data a

def stMediaStrategy (b : Build) (s : State σ) (bp : Buf) : Reply × State σ :=
  let refuse (e : Errno) : Reply × State σ := (⟨some e, none, bp.data, 0⟩, s)
  if bp.unit ≥ stMediaDisks b then refuse .enxio
  else
    let len := strategyLen b d bp.unit
    let base := stMediumDiskBase b d bp.unit
    if len = 0 then refuse .enxio
    else if !bp.isRead && !((b.hddWrite || b.cardCow) && bp.unit == stMediaDriver) then
      refuse .erofs
    else
      let off := bp.blkno.toUInt32.toNat * stMediaBlocksize
      if off > len then refuse .einval
      else if off = len then (⟨none, none, bp.data, 0⟩, s)
      else
        let count := if off + bp.count.toNat > len then u32 (len - off) else bp.count.toNat
        if b.emmcStrategy && (bp.unit == stMediaDriver || stMediaRawUnit b bp.unit) then
          if bp.mapFails then refuse .efault else cardStrategy door d b bp s count
        else
          match base with
          | none => refuse .enxio
          | some base =>
              if bp.mapFails then refuse .efault
              else
                (⟨none, some (sub32 bp.count.toNat count), copyBytes base (u32 off) count bp.data,
                  count⟩, s)

end Card

end Stage90.Media

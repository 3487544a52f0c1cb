import Mathlib.Logic.Function.Basic
import Stage90.Lib.ByteBlocks
import Stage90.Lib.Words

/-!
# The copy-on-write page shadow

`stage90_root_media_cow.c`: a page-granular RAM shadow over a read-only base.  A page
is copied into an arena slot before any of it is modified; an open-addressed table
maps the page number to its slot.

The C functions take pointers into memory the caller owns.  Here that memory is the
`Shadow`: the `st_cow` record, the hash entries, the arena, and the state `σ` of
whatever answers `read512`.  `trace` records the accesses the functions make, so that
their bounds can be stated; no function reads it.  The `pending` scratch array is the
list of what one call has stored in it.  `size_t` has `sizeBits` bits.
-/

set_option autoImplicit false

namespace Stage90.Cow

open Stage90.Lib

abbrev Sector := Fin 512 → UInt8

/-- `ST_COW_OK`, `ST_COW_RANGE`, `ST_COW_NO_SPACE`, `ST_COW_IO`, `ST_COW_STATE`. -/
inductive Status where
  | ok | range | noSpace | io | state
  deriving DecidableEq, Repr

def stCowOccupied : Nat := 1
def stCowDirty : Nat := 2

structure StCowEntry where
  page : Nat
  slot : Nat
  flags : Nat
  deriving DecidableEq, Repr

def StCowEntry.occupied (e : StCowEntry) : Bool := e.flags &&& stCowOccupied != 0
def StCowEntry.dirty (e : StCowEntry) : Bool := e.flags &&& stCowDirty != 0

structure StCow where
  sectors : Nat
  sectorsPerPage : Nat
  pageBytes : Nat
  capacity : Nat
  hashSlots : Nat
  used : Nat
  dirty : Nat
  backendError : Int
  deriving DecidableEq, Repr

inductive Access where
  | baseRead (lba : Nat)
  | arenaRead (offset : Nat)
  | arenaWrite (offset : Nat)
  | pendingWrite (index : Nat)
  deriving DecidableEq, Repr

structure Shadow (σ : Type) where
  c : StCow
  entries : Nat → StCowEntry
  arena : Nat → UInt8
  world : σ
  trace : List Access

/-- `st_cow_read512_fn`: from the state behind the callback, an LBA and the old
contents of `out`, the returned `int`, the new contents of `out` and the next state. -/
abbrev Read512 (σ : Type) := σ → Nat → Sector → Int × Sector × σ

/-- `none` is `ST_COW_RANGE`.  The comparisons are in the widths of the source:
`sectors + spp - 1` in 64 bits, `capacity * 2` in 32. -/
def stCowInit (sectors : UInt64) (sectorsPerPage capacity hashSlots : UInt32) : Option StCow :=
  let spp := sectorsPerPage
  if sectors = 0 ∨ spp = 0 ∨ capacity = 0 then none
  else if spp &&& (spp - 1) ≠ 0 then none
  else if (sectors + spp.toUInt64 - 1) / spp.toUInt64 > 0xffffffff then none
  else if hashSlots = 0 ∨ hashSlots &&& (hashSlots - 1) ≠ 0 ∨ hashSlots < capacity * 2 then none
  else if capacity > 0xffffffff / spp then none
  else some
    { sectors := sectors.toNat
      sectorsPerPage := spp.toNat
      pageBytes := (spp * 512).toNat
      capacity := capacity.toNat
      hashSlots := hashSlots.toNat
      used := 0
      dirty := 0
      backendError := 0 }

/-- The shadow `st_cow_init` binds: cleared entries over the caller's arena. -/
def freshShadow {σ : Type} (c : StCow) (arena : Nat → UInt8) (world : σ) : Shadow σ :=
  { c := c, entries := fun _ => ⟨0, 0, 0⟩, arena := arena, world := world, trace := [] }

/-! ## Lookup -/

/-- The body of `st_cow_lookup`'s loop, `fuel` iterations from `slot`. -/
def stCowProbe (hashSlots : Nat) (entries : Nat → StCowEntry) (page : Nat) (wantEmpty : Bool) :
    Nat → Nat → Option Nat
  | 0, _ => none
  | fuel + 1, slot =>
      if (entries slot).occupied = false then
        if wantEmpty then some slot else none
      else if (entries slot).page = page then some slot
      else stCowProbe hashSlots entries page wantEmpty fuel (u32 (slot + 1) &&& (hashSlots - 1))

/-- The index of the entry `st_cow_lookup` points at. -/
def stCowLookup (c : StCow) (entries : Nat → StCowEntry) (page : Nat) (wantEmpty : Bool) :
    Option Nat :=
  stCowProbe c.hashSlots entries page wantEmpty c.hashSlots
    (u32 (page * 2654435761) &&& (c.hashSlots - 1))

variable {σ : Type}

/-- `arena + (size_t)slot * page_bytes + ((size_t)in_page << 9)`, from `arena`. -/
def arenaOffset (sizeBits : Nat) (c : StCow) (slot inPage : Nat) : Nat :=
  (slot * c.pageBytes + inPage * 512) % 2 ^ sizeBits

def Shadow.note (s : Shadow σ) (a : Access) : Shadow σ := { s with trace := s.trace ++ [a] }

/-- One call of `c->read512`. -/
def callBase (read512 : Read512 σ) (s : Shadow σ) (lba : Nat) (out : Sector) :
    Int × Sector × Shadow σ :=
  let (error, bytes, world) := read512 s.world lba out
  (error, bytes, { s.note (.baseRead lba) with world := world })

/-! ## Reading -/

def stCowReadSector (sizeBits : Nat) (read512 : Read512 σ) (s : Shadow σ) (sector : Nat)
    (out : Option Sector) : Status × Option Sector × Shadow σ :=
  match out with
  | none => (.range, none, s)
  | some old =>
      if sector ≥ s.c.sectors then (.range, some old, s)
      else
        match stCowLookup s.c s.entries (u32 (sector / s.c.sectorsPerPage)) false with
        | some i =>
            let inPage := u32 (sector % s.c.sectorsPerPage)
            let offset := arenaOffset sizeBits s.c (s.entries i).slot inPage
            (.ok, some (blockAt 512 s.arena offset), s.note (.arenaRead offset))
        | none =>
            let (error, bytes, s) := callBase read512 s sector old
            if error ≠ 0 then
              (.io, some bytes, { s with c := { s.c with backendError := error } })
            else (.ok, some bytes, s)

/-! ## Preparing a write -/

/-- One turn of the first loop: note `page` in `pending` unless it is resident. -/
def pendPage (s : Shadow σ) (page : Nat) (pending : List Nat) :
    Status × List Nat × Shadow σ :=
  match stCowLookup s.c s.entries page false with
  | some _ => (.ok, pending, s)
  | none =>
      if pending.length ≥ sub32 s.c.capacity s.c.used then (.noSpace, pending, s)
      else (.ok, pending ++ [page], s.note (.pendingWrite pending.length))

/-- The first loop.  `left` is the number of pages from `page` up to `last_page`, so
that `page == last_page` is `left = 0`. -/
def collectPages : Nat → Nat → List Nat → Shadow σ → Status × List Nat × Shadow σ
  | 0, page, pending, s => pendPage s page pending
  | left + 1, page, pending, s =>
      match pendPage s page pending with
      | (.ok, pending, s) => collectPages left (u32 (page + 1)) pending s
      | refused => refused

/-- The inner copy loop: `left` more sectors of `page`, from sector `j` of the page. -/
def copySectors (sizeBits : Nat) (read512 : Read512 σ) (page slot : Nat) :
    Nat → Nat → Shadow σ → Status × Shadow σ
  | 0, _, s => (.ok, s)
  | left + 1, j, s =>
      let offset := arenaOffset sizeBits s.c slot j
      let (error, bytes, s) := callBase read512 s
        (u64 (page * s.c.sectorsPerPage + j)) (blockAt 512 s.arena offset)
      let s := { s.note (.arenaWrite offset) with arena := copyBlock s.arena offset bytes }
      if error ≠ 0 then (.io, { s with c := { s.c with backendError := error } })
      else copySectors sizeBits read512 page slot left (j + 1) s

/-- `ns`: a tail page holds fewer than `sectors_per_page` sectors. -/
def pageSectors (c : StCow) (page : Nat) : Nat :=
  let remain := sub64 c.sectors (page * c.sectorsPerPage)
  if remain < c.sectorsPerPage then u32 remain else c.sectorsPerPage

def copyPages (sizeBits : Nat) (read512 : Read512 σ) :
    List Nat → Nat → Shadow σ → Status × Shadow σ
  | [], _, s => (.ok, s)
  | page :: rest, i, s =>
      match copySectors sizeBits read512 page (u32 (s.c.used + i)) (pageSectors s.c page) 0 s with
      | (.ok, s) => copyPages sizeBits read512 rest (i + 1) s
      | failed => failed

def publishPages : List Nat → Nat → Shadow σ → Status × Shadow σ
  | [], _, s => (.ok, s)
  | page :: rest, i, s =>
      match stCowLookup s.c s.entries page true with
      | none => (.state, s)
      | some e =>
          let entry : StCowEntry := ⟨page, u32 (s.c.used + i), stCowOccupied⟩
          publishPages rest (i + 1) { s with entries := Function.update s.entries e entry }

def stCowPrepareWrite (sizeBits : Nat) (read512 : Read512 σ) (s : Shadow σ)
    (first count : Nat) : Status × Shadow σ :=
  if count = 0 ∨ first ≥ s.c.sectors ∨ count > sub64 s.c.sectors first then (.range, s)
  else
    let firstPage := u32 (first / s.c.sectorsPerPage)
    let lastPage := u32 (u64 (first + count - 1) / s.c.sectorsPerPage)
    if u64 (sub64 lastPage firstPage + 1) > s.c.capacity then (.noSpace, s)
    else
      match collectPages (sub32 lastPage firstPage) firstPage [] s with
      | (.ok, pending, s) =>
          match copyPages sizeBits read512 pending 0 s with
          | (.ok, s) =>
              match publishPages pending 0 s with
              | (.ok, s) =>
                  (.ok, { s with c := { s.c with used := u32 (s.c.used + pending.length) } })
              | failed => failed
          | failed => failed
      | (status, _, s) => (status, s)

theorem stCowPrepareWrite_taken (sizeBits : Nat) (read512 : Read512 σ) {s : Shadow σ}
    {first count firstPage lastPage : Nat}
    (valid : ¬ (count = 0 ∨ first ≥ s.c.sectors ∨ count > sub64 s.c.sectors first))
    (first_eq : u32 (first / s.c.sectorsPerPage) = firstPage)
    (last_eq : u32 (u64 (first + count - 1) / s.c.sectorsPerPage) = lastPage)
    (room : ¬ u64 (sub64 lastPage firstPage + 1) > s.c.capacity) :
    stCowPrepareWrite sizeBits read512 s first count =
      match collectPages (sub32 lastPage firstPage) firstPage [] s with
      | (.ok, pending, s) =>
          match copyPages sizeBits read512 pending 0 s with
          | (.ok, s) =>
              match publishPages pending 0 s with
              | (.ok, s) =>
                  (.ok, { s with c := { s.c with used := u32 (s.c.used + pending.length) } })
              | failed => failed
          | failed => failed
      | (status, _, s) => (status, s) := by
  subst first_eq last_eq
  rw [stCowPrepareWrite, if_neg valid]
  exact if_neg room

/-! ## Writing a prepared sector -/

def stCowWritePreparedSector (sizeBits : Nat) (s : Shadow σ) (sector : Nat)
    (bytes : Option Sector) : Status × Shadow σ :=
  match bytes with
  | none => (.range, s)
  | some bytes =>
      if sector ≥ s.c.sectors then (.range, s)
      else
        match stCowLookup s.c s.entries (u32 (sector / s.c.sectorsPerPage)) false with
        | none => (.state, s)
        | some i =>
            let e := s.entries i
            let offset := arenaOffset sizeBits s.c e.slot (u32 (sector % s.c.sectorsPerPage))
            let s := { s.note (.arenaWrite offset) with arena := copyBlock s.arena offset bytes }
            if e.dirty then (.ok, s)
            else
              (.ok, { s with
                entries := Function.update s.entries i { e with flags := e.flags ||| stCowDirty }
                c := { s.c with dirty := u32 (s.c.dirty + 1) } })

/-! ## Runs -/

/-- A call with any 64-bit argument; a pointer argument is `none` when it is NULL. -/
inductive Call where
  | read (sector : UInt64) (out : Option Sector)
  | prepare (first count : UInt64)
  | write (sector : UInt64) (bytes : Option Sector)

/-- What a call hands back: the status, and `out` for a read. -/
structure Answer where
  status : Status
  out : Option Sector

def stCowCall (sizeBits : Nat) (read512 : Read512 σ) (s : Shadow σ) : Call → Answer × Shadow σ
  | .read sector out =>
      let (status, out, s) := stCowReadSector sizeBits read512 s sector.toNat out
      (⟨status, out⟩, s)
  | .prepare first count =>
      let (status, s) := stCowPrepareWrite sizeBits read512 s first.toNat count.toNat
      (⟨status, none⟩, s)
  | .write sector bytes =>
      let (status, s) := stCowWritePreparedSector sizeBits s sector.toNat bytes
      (⟨status, none⟩, s)

end Stage90.Cow

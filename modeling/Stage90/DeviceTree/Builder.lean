import Stage90.Lib.Strings
import Stage90.Lib.Words

/-!
# The device-tree builder

The first half of `apple_dt.c`.  A builder holds the memory it writes to.  A name is the
bytes before its NUL, a value the `len` bytes at its pointer.
-/

set_option autoImplicit false

namespace Stage90.DeviceTree

open Stage90.Lib

def dtPropNameLen : Nat := 32

/-- `sizeof(struct dt_node_hdr)`. -/
def dtNodeHdr : Nat := 8

/-- `sizeof(struct dt_prop_hdr)`. -/
def dtPropHdr : Nat := 36

/-- `(v + 3u) & ~3u`. -/
def align4 (v : Nat) : Nat := u32 (v + 3) / 4 * 4

def wordBytes (v : Nat) : List UInt8 :=
  [UInt8.ofNat v, UInt8.ofNat (v / 2 ^ 8), UInt8.ofNat (v / 2 ^ 16), UInt8.ofNat (v / 2 ^ 24)]

structure Builder where
  memory : Nat → UInt8
  base : Nat
  capacity : Nat
  pos : Nat
  error : Bool

def memcpy (memory : Nat → UInt8) (dst : Nat) : List UInt8 → Nat → UInt8
  | [] => memory
  | c :: src => memcpy (overlay memory dst [c]) (u32 (dst + 1)) src

def memset (memory : Nat → UInt8) (dst : Nat) (c : UInt8) (n : Nat) : Nat → UInt8 :=
  memcpy memory dst (List.replicate n c)

def bWrite (b : Builder) (src : List UInt8) : Builder :=
  if b.error then b
  else if b.capacity < u32 (b.pos + src.length) then { b with error := true }
  else
    { b with
      memory := memcpy b.memory (u32 (b.base + b.pos)) src
      pos := u32 (b.pos + src.length) }

def bPad4 (b : Builder) : Builder :=
  let aligned := align4 b.pos
  if b.pos < aligned then bWrite b (List.replicate (aligned - b.pos) 0) else b

def appleDtBegin (memory : Nat → UInt8) (buf cap : Nat) : Builder :=
  { memory := memset memory buf 0 cap
    base := buf
    capacity := cap
    pos := 0
    error := false }

def appleDtNodeBegin (b : Builder) (nprops nchildren : Nat) : Builder :=
  bWrite b (wordBytes nprops ++ wordBytes nchildren)

/-- `h.name`: at most 31 bytes of the name, the rest zero. -/
def nameField (name : List UInt8) : List UInt8 :=
  let copied := (name.takeWhile (· ≠ 0)).take (dtPropNameLen - 1)
  copied ++ List.replicate (dtPropNameLen - copied.length) 0

def appleDtProp (b : Builder) (name value : List UInt8) : Builder :=
  bPad4 (bWrite (bWrite b (nameField name ++ wordBytes value.length)) value)

def appleDtFinish (b : Builder) : Nat × Builder :=
  let b := bPad4 b
  (if b.error then 0 else b.pos, b)

/-! ## Writes that fit -/

/-- `b` with `cells` appended to what it has written. -/
def Builder.wrote (b : Builder) (cells : List UInt8) : Builder :=
  { b with
    memory := overlay b.memory (b.base + b.pos) cells
    pos := b.pos + cells.length }

/-- No write has failed, and `count` more bytes fit. -/
structure Builder.Room (b : Builder) (count : Nat) : Prop where
  clean : b.error = false
  within : b.pos + count ≤ b.capacity
  flat : b.base + b.capacity < 2 ^ 32

section Wrote
variable (b : Builder)

@[simp] theorem Builder.wrote_pos (cells : List UInt8) :
    (b.wrote cells).pos = b.pos + cells.length := rfl

@[simp] theorem Builder.wrote_nil : b.wrote [] = b := by
  simp [Builder.wrote]

theorem Builder.wrote_wrote (xs ys : List UInt8) : (b.wrote xs).wrote ys = b.wrote (xs ++ ys) := by
  simp only [Builder.wrote, List.length_append, ← Nat.add_assoc, overlay_overlay]

end Wrote

variable {b : Builder}

theorem Builder.Room.mono {count less : Nat} (room : b.Room count) (le : less ≤ count) :
    b.Room less :=
  ⟨room.clean, by have := room.within; omega, room.flat⟩

theorem Builder.Room.wrote {count : Nat} {cells : List UInt8}
    (room : b.Room (cells.length + count)) : (b.wrote cells).Room count := by
  refine ⟨room.clean, ?_, room.flat⟩
  have := room.within
  simp only [Builder.wrote]
  omega

theorem memcpy_flat (memory : Nat → UInt8) (dst : Nat) (src : List UInt8)
    (flat : dst + src.length < 2 ^ 32) : memcpy memory dst src = overlay memory dst src := by
  induction src generalizing memory dst with
  | nil => simp [memcpy]
  | cons c src ih =>
      rw [List.length_cons] at flat
      have next : u32 (dst + 1) = dst + 1 := u32_of_lt (by omega)
      rw [memcpy, next, ih _ _ (by omega), overlay_cons]

theorem bWrite_room {src : List UInt8} (room : b.Room src.length) : bWrite b src = b.wrote src := by
  obtain ⟨clean, within, flat⟩ := room
  have sum : u32 (b.pos + src.length) = b.pos + src.length := u32_of_lt (by omega)
  have start : u32 (b.base + b.pos) = b.base + b.pos := u32_of_lt (by omega)
  rw [bWrite, if_neg (by simp [clean]), sum, if_neg (by omega), start,
    memcpy_flat _ _ _ (by omega), Builder.wrote]

theorem align4_of_lt {v : Nat} (small : v + 3 < 2 ^ 32) : align4 v = (v + 3) / 4 * 4 := by
  rw [align4, u32_of_lt small]

/-- The bytes that `b_pad4` adds after a value at an aligned position. -/
def padding (length : Nat) : List UInt8 := List.replicate ((length + 3) / 4 * 4 - length) 0

theorem bPad4_room {length : Nat} (room : b.Room (padding length).length)
    (aligned : b.pos % 4 = length % 4) : bPad4 b = b.wrote (padding length) := by
  have small : b.pos + 3 < 2 ^ 32 := by
    have within := room.within
    have flat := room.flat
    rw [padding, List.length_replicate] at within
    omega
  have gap : align4 b.pos - b.pos = (length + 3) / 4 * 4 - length := by
    rw [align4_of_lt small]
    omega
  have above : b.pos ≤ align4 b.pos := by
    rw [align4_of_lt small]
    omega
  simp only [bPad4]
  split
  · rw [gap]
    exact bWrite_room room
  · have none : (length + 3) / 4 * 4 - length = 0 := by omega
    simp [padding, none]

/-- What `apple_dt_prop` writes. -/
def propBytes (name value : List UInt8) : List UInt8 :=
  nameField name ++ wordBytes value.length ++ value ++ padding value.length

theorem length_nameField (name : List UInt8) : (nameField name).length = dtPropNameLen := by
  have short := List.length_take_le (dtPropNameLen - 1) (name.takeWhile (· ≠ 0))
  simp only [nameField, List.length_append, List.length_replicate, dtPropNameLen] at short ⊢
  omega

theorem length_propBytes (name value : List UInt8) :
    (propBytes name value).length = dtPropHdr + (value.length + 3) / 4 * 4 := by
  simp only [propBytes, List.length_append, length_nameField, wordBytes, padding,
    List.length_replicate, List.length_cons, List.length_nil, dtPropNameLen, dtPropHdr]
  omega

theorem appleDtNodeBegin_room {nprops nchildren : Nat} (room : b.Room dtNodeHdr) :
    appleDtNodeBegin b nprops nchildren = b.wrote (wordBytes nprops ++ wordBytes nchildren) :=
  bWrite_room room

theorem appleDtProp_room {name value : List UInt8} (room : b.Room (propBytes name value).length)
    (aligned : b.pos % 4 = 0) : appleDtProp b name value = b.wrote (propBytes name value) := by
  have header : (nameField name ++ wordBytes value.length).length = dtPropHdr := by
    simp [length_nameField, wordBytes, dtPropNameLen, dtPropHdr]
  have total := length_propBytes name value
  have pad : (padding value.length).length = (value.length + 3) / 4 * 4 - value.length :=
    List.length_replicate
  rw [appleDtProp, bWrite_room (room.mono (by omega)), bWrite_room, Builder.wrote_wrote,
    @bPad4_room _ value.length, Builder.wrote_wrote, propBytes]
  · apply Builder.Room.wrote
    apply room.mono
    rw [List.length_append]
    omega
  · rw [Builder.wrote_pos, List.length_append, header]
    simp only [dtPropHdr]
    omega
  · apply Builder.Room.wrote
    apply room.mono
    omega

end Stage90.DeviceTree

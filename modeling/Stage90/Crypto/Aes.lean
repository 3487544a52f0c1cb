import Mathlib.Data.UInt
import Stage90.Lib.Instances

/-!
# AES-128

`stage90_aes.c` up to the block functions.  The state is sixteen bytes, `s[r + 4 * c]` for
row `r` and column `c`; a schedule is the 176 bytes from `rk`.
-/

set_option autoImplicit false

namespace Stage90.Aes

abbrev Block := Vector UInt8 16

abbrev Schedule := Vector UInt8 176

def sboxTable : List (List UInt8) :=
  [[0x63, 0x7c, 0x77, 0x7b, 0xf2, 0x6b, 0x6f, 0xc5, 0x30, 0x01, 0x67, 0x2b, 0xfe, 0xd7, 0xab, 0x76],
    [0xca, 0x82, 0xc9, 0x7d, 0xfa, 0x59, 0x47, 0xf0, 0xad, 0xd4, 0xa2, 0xaf, 0x9c, 0xa4, 0x72, 0xc0],
    [0xb7, 0xfd, 0x93, 0x26, 0x36, 0x3f, 0xf7, 0xcc, 0x34, 0xa5, 0xe5, 0xf1, 0x71, 0xd8, 0x31, 0x15],
    [0x04, 0xc7, 0x23, 0xc3, 0x18, 0x96, 0x05, 0x9a, 0x07, 0x12, 0x80, 0xe2, 0xeb, 0x27, 0xb2, 0x75],
    [0x09, 0x83, 0x2c, 0x1a, 0x1b, 0x6e, 0x5a, 0xa0, 0x52, 0x3b, 0xd6, 0xb3, 0x29, 0xe3, 0x2f, 0x84],
    [0x53, 0xd1, 0x00, 0xed, 0x20, 0xfc, 0xb1, 0x5b, 0x6a, 0xcb, 0xbe, 0x39, 0x4a, 0x4c, 0x58, 0xcf],
    [0xd0, 0xef, 0xaa, 0xfb, 0x43, 0x4d, 0x33, 0x85, 0x45, 0xf9, 0x02, 0x7f, 0x50, 0x3c, 0x9f, 0xa8],
    [0x51, 0xa3, 0x40, 0x8f, 0x92, 0x9d, 0x38, 0xf5, 0xbc, 0xb6, 0xda, 0x21, 0x10, 0xff, 0xf3, 0xd2],
    [0xcd, 0x0c, 0x13, 0xec, 0x5f, 0x97, 0x44, 0x17, 0xc4, 0xa7, 0x7e, 0x3d, 0x64, 0x5d, 0x19, 0x73],
    [0x60, 0x81, 0x4f, 0xdc, 0x22, 0x2a, 0x90, 0x88, 0x46, 0xee, 0xb8, 0x14, 0xde, 0x5e, 0x0b, 0xdb],
    [0xe0, 0x32, 0x3a, 0x0a, 0x49, 0x06, 0x24, 0x5c, 0xc2, 0xd3, 0xac, 0x62, 0x91, 0x95, 0xe4, 0x79],
    [0xe7, 0xc8, 0x37, 0x6d, 0x8d, 0xd5, 0x4e, 0xa9, 0x6c, 0x56, 0xf4, 0xea, 0x65, 0x7a, 0xae, 0x08],
    [0xba, 0x78, 0x25, 0x2e, 0x1c, 0xa6, 0xb4, 0xc6, 0xe8, 0xdd, 0x74, 0x1f, 0x4b, 0xbd, 0x8b, 0x8a],
    [0x70, 0x3e, 0xb5, 0x66, 0x48, 0x03, 0xf6, 0x0e, 0x61, 0x35, 0x57, 0xb9, 0x86, 0xc1, 0x1d, 0x9e],
    [0xe1, 0xf8, 0x98, 0x11, 0x69, 0xd9, 0x8e, 0x94, 0x9b, 0x1e, 0x87, 0xe9, 0xce, 0x55, 0x28, 0xdf],
    [0x8c, 0xa1, 0x89, 0x0d, 0xbf, 0xe6, 0x42, 0x68, 0x41, 0x99, 0x2d, 0x0f, 0xb0, 0x54, 0xbb, 0x16]]

def rsboxTable : List (List UInt8) :=
  [[0x52, 0x09, 0x6a, 0xd5, 0x30, 0x36, 0xa5, 0x38, 0xbf, 0x40, 0xa3, 0x9e, 0x81, 0xf3, 0xd7, 0xfb],
    [0x7c, 0xe3, 0x39, 0x82, 0x9b, 0x2f, 0xff, 0x87, 0x34, 0x8e, 0x43, 0x44, 0xc4, 0xde, 0xe9, 0xcb],
    [0x54, 0x7b, 0x94, 0x32, 0xa6, 0xc2, 0x23, 0x3d, 0xee, 0x4c, 0x95, 0x0b, 0x42, 0xfa, 0xc3, 0x4e],
    [0x08, 0x2e, 0xa1, 0x66, 0x28, 0xd9, 0x24, 0xb2, 0x76, 0x5b, 0xa2, 0x49, 0x6d, 0x8b, 0xd1, 0x25],
    [0x72, 0xf8, 0xf6, 0x64, 0x86, 0x68, 0x98, 0x16, 0xd4, 0xa4, 0x5c, 0xcc, 0x5d, 0x65, 0xb6, 0x92],
    [0x6c, 0x70, 0x48, 0x50, 0xfd, 0xed, 0xb9, 0xda, 0x5e, 0x15, 0x46, 0x57, 0xa7, 0x8d, 0x9d, 0x84],
    [0x90, 0xd8, 0xab, 0x00, 0x8c, 0xbc, 0xd3, 0x0a, 0xf7, 0xe4, 0x58, 0x05, 0xb8, 0xb3, 0x45, 0x06],
    [0xd0, 0x2c, 0x1e, 0x8f, 0xca, 0x3f, 0x0f, 0x02, 0xc1, 0xaf, 0xbd, 0x03, 0x01, 0x13, 0x8a, 0x6b],
    [0x3a, 0x91, 0x11, 0x41, 0x4f, 0x67, 0xdc, 0xea, 0x97, 0xf2, 0xcf, 0xce, 0xf0, 0xb4, 0xe6, 0x73],
    [0x96, 0xac, 0x74, 0x22, 0xe7, 0xad, 0x35, 0x85, 0xe2, 0xf9, 0x37, 0xe8, 0x1c, 0x75, 0xdf, 0x6e],
    [0x47, 0xf1, 0x1a, 0x71, 0x1d, 0x29, 0xc5, 0x89, 0x6f, 0xb7, 0x62, 0x0e, 0xaa, 0x18, 0xbe, 0x1b],
    [0xfc, 0x56, 0x3e, 0x4b, 0xc6, 0xd2, 0x79, 0x20, 0x9a, 0xdb, 0xc0, 0xfe, 0x78, 0xcd, 0x5a, 0xf4],
    [0x1f, 0xdd, 0xa8, 0x33, 0x88, 0x07, 0xc7, 0x31, 0xb1, 0x12, 0x10, 0x59, 0x27, 0x80, 0xec, 0x5f],
    [0x60, 0x51, 0x7f, 0xa9, 0x19, 0xb5, 0x4a, 0x0d, 0x2d, 0xe5, 0x7a, 0x9f, 0x93, 0xc9, 0x9c, 0xef],
    [0xa0, 0xe0, 0x3b, 0x4d, 0xae, 0x2a, 0xf5, 0xb0, 0xc8, 0xeb, 0xbb, 0x3c, 0x83, 0x53, 0x99, 0x61],
    [0x17, 0x2b, 0x04, 0x7e, 0xba, 0x77, 0xd6, 0x26, 0xe1, 0x69, 0x14, 0x63, 0x55, 0x21, 0x0c, 0x7d]]

def lookup (table : List (List UInt8)) (x : UInt8) : UInt8 :=
  (table.getD (x.toNat / 16) []).getD (x.toNat % 16) 0

def sbox (x : UInt8) : UInt8 := lookup sboxTable x

def rsbox (x : UInt8) : UInt8 := lookup rsboxTable x

def xtime (x : UInt8) : UInt8 := (x <<< 1) ^^^ (if x &&& 0x80 ≠ 0 then 0x1b else 0x00)

/-- `add_round_key(s, rk + offset)`. -/
def addRoundKey (rk : Schedule) (offset : Nat) (s : Block) : Block :=
  Vector.ofFn fun i => s.get i ^^^ rk[offset + i]?.getD 0

def subBytes (s : Block) : Block := Vector.ofFn fun i => sbox (s.get i)

def invSubBytes (s : Block) : Block := Vector.ofFn fun i => rsbox (s.get i)

/-- Cell `r + 4 * c`. -/
def cell (r c : Fin 4) : Fin 16 := ⟨r + 4 * c, by omega⟩

def rowOf (i : Fin 16) : Fin 4 := ⟨i % 4, by omega⟩

def columnOf (i : Fin 16) : Fin 4 := ⟨i / 4, by omega⟩

/-- `s[r + 4 * c] = t[r + 4 * ((c + r) & 3)]`. -/
def shiftRows (t : Block) : Block := Vector.ofFn fun i =>
  let r := rowOf i
  let c := columnOf i
  t.get (cell r ⟨(c + r) % 4, Nat.mod_lt _ (by decide)⟩)

/-- `s[r + 4 * c] = t[r + 4 * ((c + 4 - r) & 3)]`. -/
def invShiftRows (t : Block) : Block := Vector.ofFn fun i =>
  let r := rowOf i
  let c := columnOf i
  t.get (cell r ⟨(c + 4 - r) % 4, Nat.mod_lt _ (by decide)⟩)

abbrev Column := Fin 4 → UInt8

/-- The body of the column loop of `mix_columns`. -/
def mixColumn (a : Column) : Column
  | 0 => xtime (a 0) ^^^ (xtime (a 1) ^^^ a 1) ^^^ a 2 ^^^ a 3
  | 1 => a 0 ^^^ xtime (a 1) ^^^ (xtime (a 2) ^^^ a 2) ^^^ a 3
  | 2 => a 0 ^^^ a 1 ^^^ xtime (a 2) ^^^ (xtime (a 3) ^^^ a 3)
  | 3 => (xtime (a 0) ^^^ a 0) ^^^ a 1 ^^^ a 2 ^^^ xtime (a 3)

/-- Eight turns bring any `b` to zero. -/
def gmulLoop : Nat → UInt8 → UInt8 → UInt8 → UInt8
  | 0, _, _, r => r
  | turns + 1, a, b, r =>
      if b = 0 then r
      else gmulLoop turns (xtime a) (b >>> 1) (if b &&& 1 ≠ 0 then r ^^^ a else r)

def gmul (a b : UInt8) : UInt8 := gmulLoop 8 a b 0

def invMixColumn (a : Column) : Column
  | 0 => gmul (a 0) 0x0e ^^^ gmul (a 1) 0x0b ^^^ gmul (a 2) 0x0d ^^^ gmul (a 3) 0x09
  | 1 => gmul (a 0) 0x09 ^^^ gmul (a 1) 0x0e ^^^ gmul (a 2) 0x0b ^^^ gmul (a 3) 0x0d
  | 2 => gmul (a 0) 0x0d ^^^ gmul (a 1) 0x09 ^^^ gmul (a 2) 0x0e ^^^ gmul (a 3) 0x0b
  | 3 => gmul (a 0) 0x0b ^^^ gmul (a 1) 0x0d ^^^ gmul (a 2) 0x09 ^^^ gmul (a 3) 0x0e

def column (s : Block) (c : Fin 4) : Column := fun r => s.get (cell r c)

def eachColumn (body : Column → Column) (s : Block) : Block :=
  Vector.ofFn fun i => body (column s (columnOf i)) (rowOf i)

def mixColumns (s : Block) : Block := eachColumn mixColumn s

def invMixColumns (s : Block) : Block := eachColumn invMixColumn s

def rcon (i : Nat) : UInt8 :=
  ([0x8d, 0x01, 0x02, 0x04, 0x08, 0x10, 0x20, 0x40, 0x80, 0x1b, 0x36] : List UInt8).getD i 0

/-! ## The key schedule -/

def word (rk : Schedule) (i : Nat) : Column := fun j => rk[4 * i + j]?.getD 0

def putWord (rk : Schedule) (i : Nat) (w : Column) : Schedule :=
  Vector.ofFn fun k => if h : 4 * i ≤ k ∧ k < 4 * i + 4 then w ⟨k - 4 * i, by omega⟩ else rk.get k

/-- The `t` of turn `i`. -/
def nextWord (rk : Schedule) (i : Nat) : Column :=
  let t := word rk (i - 1)
  if i % 4 = 0 then
    fun
      | 0 => sbox (t 1) ^^^ rcon (i / 4)
      | 1 => sbox (t 2)
      | 2 => sbox (t 3)
      | 3 => sbox (t 0)
  else t

def expandWord (rk : Schedule) (i : Nat) : Schedule :=
  putWord rk i fun j => word rk (i - 4) j ^^^ nextWord rk i j

/-- Word 4 and the `n - 1` after it. -/
def expandLoop (rk : Schedule) : Nat → Schedule
  | 0 => rk
  | n + 1 => expandWord (expandLoop rk n) (n + 4)

/-- Every byte of `rk` is overwritten. -/
def stage90Aes128ExpandKey (key : Block) (rk : Schedule) : Schedule :=
  expandLoop (Vector.ofFn fun k => if h : k.val < 16 then key.get ⟨k, h⟩ else rk.get k) 40

/-! ## The block functions -/

def stage90Aes128Rounds : Nat := 10

/-- Rounds 1 to `n`. -/
def encryptRounds (rk : Schedule) : Nat → Block → Block
  | 0, s => s
  | n + 1, s =>
      addRoundKey rk (16 * (n + 1)) (mixColumns (shiftRows (subBytes (encryptRounds rk n s))))

def stage90Aes128EncryptBlock (rk : Schedule) (in_ : Block) : Block :=
  let s := addRoundKey rk 0 in_
  let s := encryptRounds rk (stage90Aes128Rounds - 1) s
  addRoundKey rk (16 * stage90Aes128Rounds) (shiftRows (subBytes s))

/-- Rounds `n` down to 1. -/
def decryptRounds (rk : Schedule) : Nat → Block → Block
  | 0, s => s
  | n + 1, s =>
      decryptRounds rk n
        (invMixColumns (addRoundKey rk (16 * (n + 1)) (invSubBytes (invShiftRows s))))

def stage90Aes128DecryptBlock (rk : Schedule) (in_ : Block) : Block :=
  let s := addRoundKey rk (16 * stage90Aes128Rounds) in_
  let s := decryptRounds rk (stage90Aes128Rounds - 1) s
  addRoundKey rk 0 (invSubBytes (invShiftRows s))

end Stage90.Aes

import Mathlib.Data.Fin.VecNotation
import Stage90.Lib.Gf256

/-!
# FIPS-197, AES-128

The cipher as the standard defines it: a state of four rows and four columns of bytes,
the S-box from the inverse in GF(2^8) and the affine map, MixColumns as a matrix product
in the field, and the key expansion as a recursion on words.
-/

set_option autoImplicit false

namespace Stage90.Fips197

open Stage90.Lib

/-- `s r c`, row `r` and column `c`. -/
abbrev State := Fin 4 → Fin 4 → UInt8

abbrev Word := Fin 4 → UInt8

/-- Bit `i` of the affine map of 5.1.1. -/
def affineBit (b i : Nat) : Bool :=
  b.testBit i ^^ b.testBit ((i + 4) % 8) ^^ b.testBit ((i + 5) % 8) ^^ b.testBit ((i + 6) % 8) ^^
    b.testBit ((i + 7) % 8) ^^ Nat.testBit 0x63 i

def affine (b : UInt8) : UInt8 :=
  UInt8.ofNat ((List.range 8).foldl (fun n i => n + (affineBit b.toNat i).toNat * 2 ^ i) 0)

def sBox (b : UInt8) : UInt8 := affine (gfInv b)

/-- The inverse of 5.1.1 is the field's, with zero for zero. -/
theorem sBox_inverse (a : UInt8) :
    ∃ b, (if a = 0 then b = 0 else gfMul a b = 1) ∧ sBox a = affine b :=
  ⟨gfInv a, inverse_facts a, rfl⟩

def subBytes (s : State) : State := fun r c => sBox (s r c)

/-- Row `r` is rotated left by `r`. -/
def shiftRows (s : State) : State := fun r c => s r (c + r)

/-- The matrix of 5.1.3. -/
def mixMatrix : Fin 4 → Fin 4 → UInt8 :=
  ![![0x02, 0x03, 0x01, 0x01],
    ![0x01, 0x02, 0x03, 0x01],
    ![0x01, 0x01, 0x02, 0x03],
    ![0x03, 0x01, 0x01, 0x02]]

def mixColumns (s : State) : State := fun r c =>
  gfMul (mixMatrix r 0) (s 0 c) ^^^ gfMul (mixMatrix r 1) (s 1 c) ^^^
    gfMul (mixMatrix r 2) (s 2 c) ^^^ gfMul (mixMatrix r 3) (s 3 c)

/-- Column `c` is added to word `4 * round + c` of the schedule. -/
def addRoundKey (w : Nat → Word) (round : Nat) (s : State) : State :=
  fun r c => s r c ^^^ w (4 * round + c) r

/-! ## Key expansion -/

def rotWord (w : Word) : Word := fun j => w (j + 1)

def subWord (w : Word) : Word := fun j => sBox (w j)

/-- `x^(i-1)` in the field, and three zero bytes. -/
def rcon (i : Nat) : Word := fun j => if j = 0 then (gfMul 2)^[i - 1] 1 else 0

def keyWord (key : Vector UInt8 16) (i : Nat) : Word :=
  if i < 4 then fun j => key.get (Fin.ofNat 16 (4 * i + j))
  else
    let temp := keyWord key (i - 1)
    let temp := if i % 4 = 0 then fun j => subWord (rotWord temp) j ^^^ rcon (i / 4) j else temp
    fun j => keyWord key (i - 4) j ^^^ temp j
termination_by i

/-! ## Cipher -/

/-- Rounds 1 to `n`. -/
def rounds (w : Nat → Word) : Nat → State → State
  | 0, s => s
  | n + 1, s => addRoundKey w (n + 1) (mixColumns (shiftRows (subBytes (rounds w n s))))

def cipher (w : Nat → Word) (s : State) : State :=
  let s := addRoundKey w 0 s
  let s := rounds w 9 s
  addRoundKey w 10 (shiftRows (subBytes s))

theorem cell_lt (r c : Fin 4) : r.val + 4 * c.val < 16 := by omega

theorem row_lt (i : Fin 16) : i.val % 4 < 4 := by omega

theorem column_lt (i : Fin 16) : i.val / 4 < 4 := by omega

/-- `s[r, c] = in[r + 4c]`. -/
def load (block : Vector UInt8 16) : State := fun r c => block.get ⟨r + 4 * c, cell_lt r c⟩

/-- `out[r + 4c] = s[r, c]`. -/
def store (s : State) : Vector UInt8 16 :=
  Vector.ofFn fun i => s ⟨i % 4, row_lt i⟩ ⟨i / 4, column_lt i⟩

def aes128 (key block : Vector UInt8 16) : Vector UInt8 16 :=
  store (cipher (keyWord key) (load block))

end Stage90.Fips197

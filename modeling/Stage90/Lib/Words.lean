import Mathlib.Algebra.GroupWithZero.Nat

/-!
# Fixed-width arithmetic on naturals

C's `uint32_t` and `uint64_t` values are carried as naturals.  `u32` and `u64` mark
the places where the source stores into, or computes in, that width; `sub32` and
`sub64` are the unsigned subtractions.
-/

set_option autoImplicit false

namespace Stage90.Lib

def u32 (n : Nat) : Nat := n % 2 ^ 32
def u64 (n : Nat) : Nat := n % 2 ^ 64
def sub32 (a b : Nat) : Nat := u32 (a + (2 ^ 32 - u32 b))
def sub64 (a b : Nat) : Nat := u64 (a + (2 ^ 64 - u64 b))

theorem u32_lt (n : Nat) : u32 n < 2 ^ 32 := Nat.mod_lt _ (by decide)

theorem u32_of_lt {n : Nat} (h : n < 2 ^ 32) : u32 n = n := Nat.mod_eq_of_lt h
theorem u64_of_lt {n : Nat} (h : n < 2 ^ 64) : u64 n = n := Nat.mod_eq_of_lt h

theorem sub32_of_le {a b : Nat} (le : b ≤ a) (h : a < 2 ^ 32) : sub32 a b = a - b := by
  unfold sub32 u32
  omega

theorem sub64_of_le {a b : Nat} (le : b ≤ a) (h : a < 2 ^ 64) : sub64 a b = a - b := by
  unfold sub64 u64
  omega

/-! ## Bytes of a word -/

/-- Byte `k`, the lowest first. -/
def byteAt (n k : Nat) : UInt8 := UInt8.ofNat (n / 256 ^ k)

/-- The word with another byte `k`. -/
def setByte (n k : Nat) (b : UInt8) : Nat :=
  n % 256 ^ k + 256 ^ k * (b.toNat + 256 * (n / 256 ^ (k + 1)))

theorem setByte_div (n k : Nat) (b : UInt8) :
    setByte n k b / 256 ^ k = b.toNat + 256 * (n / 256 ^ (k + 1)) := by
  have positive : 0 < 256 ^ k := Nat.pow_pos (by decide)
  rw [setByte, Nat.add_mul_div_left _ _ positive, Nat.div_eq_of_lt (Nat.mod_lt n positive),
    Nat.zero_add]

theorem setByte_below (n j d : Nat) (b : UInt8) :
    setByte n (j + (d + 1)) b / 256 ^ j % 256 = n / 256 ^ j % 256 := by
  have positive : 0 < 256 ^ j := Nat.pow_pos (by decide)
  have split_ : 256 ^ (j + (d + 1)) = 256 ^ j * 256 ^ (d + 1) := Nat.pow_add _ _ _
  have whole : 256 ∣ 256 ^ (d + 1) := ⟨256 ^ d, by rw [Nat.pow_succ, Nat.mul_comm]⟩
  rw [setByte, split_, Nat.mul_assoc, Nat.add_mul_div_left _ _ positive, Nat.mod_mul_right_div_self,
    Nat.add_mod, Nat.mod_mod_of_dvd _ whole, Nat.mul_mod, Nat.mod_eq_zero_of_dvd whole]
  simp

theorem setByte_above (n k d : Nat) (b : UInt8) :
    setByte n k b / 256 ^ (k + 1 + d) = n / 256 ^ (k + 1 + d) := by
  have small := b.toNat_lt
  have next : (b.toNat + 256 * (n / 256 ^ (k + 1))) / 256 = n / 256 ^ (k + 1) := by omega
  calc setByte n k b / 256 ^ (k + 1 + d)
      = setByte n k b / 256 ^ k / 256 / 256 ^ d := by
        rw [Nat.pow_add, Nat.pow_succ, Nat.div_div_eq_div_mul, Nat.div_div_eq_div_mul, Nat.mul_assoc]
    _ = n / 256 ^ (k + 1) / 256 ^ d := by rw [setByte_div, next]
    _ = n / 256 ^ (k + 1 + d) := by rw [Nat.div_div_eq_div_mul, ← Nat.pow_add]

theorem byteAt_setByte (n k j : Nat) (b : UInt8) :
    byteAt (setByte n k b) j = if j = k then b else byteAt n j := by
  rw [← UInt8.toNat_inj]
  rcases Nat.lt_trichotomy j k with below | same | above
  · obtain ⟨d, rfl⟩ : ∃ d, k = j + (d + 1) := ⟨k - j - 1, by omega⟩
    rw [if_neg (by omega), byteAt, byteAt, UInt8.toNat_ofNat', UInt8.toNat_ofNat']
    exact setByte_below n j d b
  · have small := b.toNat_lt
    rw [if_pos same, same, byteAt, UInt8.toNat_ofNat', setByte_div]
    omega
  · obtain ⟨d, rfl⟩ : ∃ d, j = k + 1 + d := ⟨j - k - 1, by omega⟩
    rw [if_neg (by omega), byteAt, byteAt, setByte_above]

end Stage90.Lib

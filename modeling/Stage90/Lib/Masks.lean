import Mathlib.Data.Nat.Bitwise
import Stage90.Lib.Instances

/-!
# Masks

Words of flags, and the masks that cut a field or a boundary out of a word.
-/

set_option autoImplicit false

namespace Stage90.Lib

/-! ## Flags -/

def bit (m : UInt32) (i : Nat) : Bool := m.toNat.testBit i

theorem bit_or (a b : UInt32) (i : Nat) : bit (a ||| b) i = (bit a i || bit b i) := by
  rw [bit, UInt32.toNat_or, Nat.testBit_or, bit, bit]

theorem bit_and (a b : UInt32) (i : Nat) : bit (a &&& b) i = (bit a i && bit b i) := by
  rw [bit, UInt32.toNat_and, Nat.testBit_and, bit, bit]

theorem eq_of_bit_eq {a b : UInt32} (same : ∀ i, bit a i = bit b i) : a = b := by
  rw [← UInt32.toNat_inj]
  exact Nat.eq_of_testBit_eq same

theorem or_and (a b m : UInt32) : (a ||| b) &&& m = a &&& m ||| b &&& m := by
  apply eq_of_bit_eq
  intro i
  rw [bit_and, bit_or, bit_or, bit_and, bit_and, Bool.and_or_distrib_right]

theorem covers_iff {x m : UInt32} : x &&& m = m ↔ ∀ i, bit m i → bit x i := by
  constructor
  · intro covers i there
    rw [← covers, bit_and, Bool.and_eq_true] at there
    exact there.1
  · intro flags
    apply eq_of_bit_eq
    intro i
    rw [bit_and]
    cases there : bit m i with
    | false => exact Bool.and_false _
    | true => rw [flags i there, Bool.and_true]

theorem covers_or_left {x m : UInt32} (y : UInt32) (covers : x &&& m = m) : (x ||| y) &&& m = m := by
  rw [covers_iff] at covers ⊢
  intro i there
  rw [bit_or, covers i there, Bool.true_or]

def orAll (xs : List UInt32) : UInt32 := xs.foldr (· ||| ·) 0

theorem orAll_cons (x : UInt32) (xs : List UInt32) : orAll (x :: xs) = x ||| orAll xs := rfl

theorem orAll_append (xs ys : List UInt32) : orAll (xs ++ ys) = orAll xs ||| orAll ys := by
  induction xs with
  | nil => exact UInt32.zero_or.symm
  | cons x xs ih => rw [List.cons_append, orAll_cons, orAll_cons, ih, UInt32.or_assoc]

theorem orAll_concat (xs : List UInt32) (x : UInt32) : orAll (xs ++ [x]) = orAll xs ||| x := by
  rw [orAll_append, orAll_cons]
  exact congrArg (orAll xs ||| ·) UInt32.or_zero

theorem orAll_eq_zero_iff {xs : List UInt32} : orAll xs = 0 ↔ ∀ x ∈ xs, x = 0 := by
  induction xs with
  | nil => exact ⟨fun _ x none_ => absurd none_ List.not_mem_nil, fun _ => rfl⟩
  | cons x xs ih => rw [orAll_cons, UInt32.or_eq_zero_iff, ih, List.forall_mem_cons]

theorem orAll_and (xs : List UInt32) (m : UInt32) : orAll xs &&& m = orAll (xs.map (· &&& m)) := by
  induction xs with
  | nil => exact UInt32.zero_and
  | cons x xs ih => rw [List.map_cons, orAll_cons, orAll_cons, or_and, ih]

theorem bit_orAll {xs : List UInt32} {i : Nat} : bit (orAll xs) i = true ↔ ∃ x ∈ xs, bit x i := by
  induction xs with
  | nil =>
      constructor
      · exact fun there => absurd ((Nat.zero_testBit i).symm.trans there) Bool.false_ne_true
      · exact fun ⟨_, none_, _⟩ => absurd none_ List.not_mem_nil
  | cons x xs ih =>
      rw [orAll_cons, bit_or, Bool.or_eq_true, ih]
      simp only [List.mem_cons, exists_eq_or_imp]

/-! ## Fields and boundaries -/

theorem toNat_bit {k : UInt32} (small : k.toNat < 32) :
    ((1 : UInt32) <<< k).toNat = 2 ^ k.toNat := by
  have power : 2 ^ k.toNat < 2 ^ 32 := Nat.pow_lt_pow_right (by decide) small
  rw [UInt32.toNat_shiftLeft, Nat.mod_eq_of_lt small, UInt32.toNat_one, Nat.one_shiftLeft,
    Nat.mod_eq_of_lt power]

theorem bit_not (x : UInt32) (i : Nat) : bit (~~~x) i = (decide (i < 32) && !bit x i) := by
  have complement : (~~~x).toNat = 2 ^ 32 - (x.toNat + 1) := by
    rw [UInt32.toNat_not]
    change 2 ^ 32 - 1 - _ = _
    omega
  rw [bit, complement, Nat.testBit_two_pow_sub_succ x.toNat_lt, bit]

theorem bit_shiftLeft (x : UInt32) {k : UInt32} (small : k.toNat < 32) (i : Nat) :
    bit (x <<< k) i = (decide (i < 32) && (decide (k.toNat ≤ i) && bit x (i - k.toNat))) := by
  rw [bit, UInt32.toNat_shiftLeft, Nat.mod_eq_of_lt small, Nat.testBit_mod_two_pow,
    Nat.testBit_shiftLeft, bit]

theorem bit_of_le (x : UInt32) {i : Nat} (outside : 32 ≤ i) : bit x i = false :=
  Nat.testBit_lt_two_pow (Nat.lt_of_lt_of_le x.toNat_lt (Nat.pow_le_pow_right (by decide) outside))

theorem bit_flag {k : UInt32} (small : k.toNat < 32) (i : Nat) :
    bit (1 <<< k) i = decide (i = k.toNat) := by
  rw [bit, toNat_bit small, Nat.testBit_two_pow]
  exact decide_eq_decide.mpr eq_comm

theorem toNat_align (x : UInt32) {k : UInt32} (small : k.toNat < 32) :
    (x &&& ~~~((1 <<< k) - 1)).toNat = x.toNat / 2 ^ k.toNat * 2 ^ k.toNat := by
  have bit := toNat_bit small
  have power : 2 ^ k.toNat < 2 ^ 32 := Nat.pow_lt_pow_right (by decide) small
  have mask : (((1 : UInt32) <<< k) - 1).toNat = 2 ^ k.toNat - 1 := by
    rw [UInt32.toNat_sub_of_le, bit, UInt32.toNat_one]
    rw [UInt32.le_iff_toNat_le, bit]
    exact Nat.one_le_two_pow
  have complement : (~~~(((1 : UInt32) <<< k) - 1)).toNat = 2 ^ 32 - (2 ^ k.toNat - 1 + 1) := by
    rw [UInt32.toNat_not, mask]
    change 2 ^ 32 - 1 - _ = _
    omega
  have below := x.toNat_lt
  rw [UInt32.toNat_and, complement]
  apply Nat.eq_of_testBit_eq
  intro i
  rw [Nat.testBit_and, Nat.testBit_two_pow_sub_succ (by omega), Nat.testBit_two_pow_sub_one,
    Nat.testBit_mul_two_pow, Nat.testBit_div_two_pow]
  by_cases high : k.toNat ≤ i
  · have same : k.toNat + (i - k.toNat) = i := by omega
    rw [decide_eq_true high, decide_eq_false (Nat.not_lt.mpr high), Nat.sub_add_cancel high]
    by_cases inside : i < 32
    · simp [inside]
    · have zero : x.toNat.testBit i = false :=
        Nat.testBit_lt_two_pow (Nat.lt_of_lt_of_le below (Nat.pow_le_pow_right (by decide)
          (Nat.not_lt.mp inside)))
      simp [zero]
  · rw [decide_eq_false high, decide_eq_true (Nat.not_le.mp high)]
    simp

theorem toNat_low (x : UInt32) {k : UInt32} (small : k.toNat < 32) :
    (x &&& ((1 <<< k) - 1)).toNat = x.toNat % 2 ^ k.toNat := by
  have bit := toNat_bit small
  have mask : (((1 : UInt32) <<< k) - 1).toNat = 2 ^ k.toNat - 1 := by
    rw [UInt32.toNat_sub_of_le, bit, UInt32.toNat_one]
    rw [UInt32.le_iff_toNat_le, bit]
    exact Nat.one_le_two_pow
  rw [UInt32.toNat_and, mask, Nat.and_two_pow_sub_one_eq_mod]

/-- The high bits of one word and the low bits of another. -/
theorem toNat_join (a b : UInt32) {k : UInt32} (small : k.toNat < 32) :
    ((a &&& ~~~((1 <<< k) - 1)) ||| (b &&& ((1 <<< k) - 1))).toNat =
      a.toNat / 2 ^ k.toNat * 2 ^ k.toNat + b.toNat % 2 ^ k.toNat := by
  rw [UInt32.toNat_or, toNat_align a small, toNat_low b small, Nat.mul_comm]
  exact (Nat.two_pow_add_eq_or_of_lt (Nat.mod_lt _ (Nat.two_pow_pos _)) _).symm

theorem toNat_join_of_lt (a b : UInt32) {k : UInt32} (small : k.toNat < 32)
    (low : b.toNat < 2 ^ k.toNat) :
    ((a &&& ~~~((1 <<< k) - 1)) ||| b).toNat = a.toNat / 2 ^ k.toNat * 2 ^ k.toNat + b.toNat := by
  rw [UInt32.toNat_or, toNat_align a small, Nat.mul_comm]
  exact (Nat.two_pow_add_eq_or_of_lt low _).symm

/-- A field of `width` bits above `low`. -/
theorem toNat_field (x : UInt32) {low mask : UInt32} {width : Nat} (small : low.toNat < 32)
    (ones : mask.toNat = 2 ^ width - 1) :
    ((x >>> low) &&& mask).toNat = x.toNat / 2 ^ low.toNat % 2 ^ width := by
  rw [UInt32.toNat_and, UInt32.toNat_shiftRight, Nat.mod_eq_of_lt small, ones,
    Nat.and_two_pow_sub_one_eq_mod, Nat.shiftRight_eq_div_pow]

end Stage90.Lib

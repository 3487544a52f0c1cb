import Mathlib.Algebra.GroupWithZero.Nat

/-!
# A flat 32-bit memory

Bytes under 32-bit addresses, and the copies and fills of C.  A range that runs past the last
address goes on at the first.
-/

set_option autoImplicit false

namespace Stage90.Lib

abbrev Mem := UInt32 → UInt8

def read32 (mem : Mem) (p : UInt32) : UInt32 :=
  (mem p).toUInt32 ||| ((mem (p + 1)).toUInt32 <<< 8) ||| ((mem (p + 2)).toUInt32 <<< 16) |||
    ((mem (p + 3)).toUInt32 <<< 24)

/-- Words from `base` on, and zeros elsewhere. -/
def ofWords (base : UInt32) (words : List UInt32) : Mem := fun a =>
  let offset := (a - base).toNat
  (words.getD (offset / 4) 0 >>> (8 * UInt32.ofNat (offset % 4))).toUInt8

/-- Memory behind `n` turns of `*d++ = *s++`. -/
def copyUp (mem : Mem) (dest src : UInt32) : Nat → Mem
  | 0 => mem
  | n + 1 => fun a =>
      if (a - dest).toNat = n then copyUp mem dest src n (src + UInt32.ofNat n)
      else copyUp mem dest src n a

def memcpy (mem : Mem) (dest src n : UInt32) : Mem := copyUp mem dest src n.toNat

def memset (mem : Mem) (dest : UInt32) (c : UInt8) (n : UInt32) : Mem := fun a =>
  if a - dest < n then c else mem a

theorem eq_zero_of_not_pos {n : UInt32} (none_ : ¬ 0 < n) : n = 0 := by
  rw [← UInt32.toNat_inj]
  apply Nat.eq_zero_of_not_pos
  intro positive
  exact none_ (UInt32.lt_iff_toNat_lt.mpr positive)

/-! ## Copies -/

/-- Where the byte at offset `i` of a copy was before it.  What the loop has written it may read
again: onto the bytes behind its source, a copy repeats what lies before them. -/
def origin (dest src i : UInt32) : UInt32 := src + i % (dest - src)

theorem origin_clear {dest src n i : UInt32} (clear : n ≤ dest - src) (inside : i < n) :
    origin dest src i = src + i := by
  have less : i % (dest - src) = i := by
    rw [← UInt32.toNat_inj, UInt32.toNat_mod]
    exact Nat.mod_eq_of_lt (UInt32.lt_iff_toNat_lt.mp (UInt32.lt_of_lt_of_le inside clear))
  rw [origin, less]

/-- The byte that the loop reads at a turn, and where it was at first. -/
theorem origin_turn {dest src : UInt32} {n : Nat} (bound : n < 2 ^ 32) :
    (if (src + UInt32.ofNat n - dest).toNat < n then origin dest src (src + UInt32.ofNat n - dest)
      else src + UInt32.ofNat n) = origin dest src (UInt32.ofNat n) := by
  have turn : (UInt32.ofNat n).toNat = n := UInt32.toNat_ofNat_of_lt' bound
  have back : src + UInt32.ofNat n - dest = UInt32.ofNat n - (dest - src) := by grind
  have small := (dest - src).toNat_lt
  rw [back, origin, origin]
  by_cases written : 0 < (dest - src).toNat ∧ (dest - src).toNat ≤ n
  · have earlier : (UInt32.ofNat n - (dest - src)).toNat = n - (dest - src).toNat := by
      rw [UInt32.toNat_sub_of_le _ _ (UInt32.le_iff_toNat_le.mpr (turn.symm ▸ written.2)), turn]
    have same : (UInt32.ofNat n - (dest - src)) % (dest - src) = UInt32.ofNat n % (dest - src) := by
      rw [← UInt32.toNat_inj, UInt32.toNat_mod, UInt32.toNat_mod, earlier, turn]
      exact (Nat.mod_eq_sub_mod written.2).symm
    rw [if_pos (by omega), same]
  · have unwritten : ¬ (UInt32.ofNat n - (dest - src)).toNat < n := by
      rw [UInt32.toNat_sub, turn]
      omega
    have whole : UInt32.ofNat n % (dest - src) = UInt32.ofNat n := by
      rw [← UInt32.toNat_inj, UInt32.toNat_mod, turn]
      rcases Nat.eq_zero_or_pos (dest - src).toNat with none_ | some_
      · rw [none_, Nat.mod_zero]
      · exact Nat.mod_eq_of_lt (by omega)
    rw [if_neg unwritten, whole]

theorem copyUp_apply (mem : Mem) (dest src : UInt32) {n : Nat} (bound : n ≤ 2 ^ 32) (a : UInt32) :
    copyUp mem dest src n a =
      if (a - dest).toNat < n then mem (origin dest src (a - dest)) else mem a := by
  induction n generalizing a with
  | zero => rw [copyUp, if_neg (Nat.not_lt_zero _)]
  | succ n ih =>
      rw [copyUp]
      dsimp only
      by_cases here : (a - dest).toNat = n
      · have offset : a - dest = UInt32.ofNat n := by rw [← here, UInt32.ofNat_toNat]
        rw [if_pos here, if_pos (Nat.lt_succ_of_le (Nat.le_of_eq here)), offset,
          ← origin_turn bound, ih (Nat.le_of_lt bound)]
        split
        · rfl
        · rfl
      · rw [if_neg here, ih (Nat.le_of_lt bound)]
        exact if_congr (by omega) rfl rfl

theorem memcpy_apply (mem : Mem) (dest src n a : UInt32) :
    memcpy mem dest src n a =
      if a - dest < n then mem (origin dest src (a - dest)) else mem a := by
  rw [memcpy, copyUp_apply mem dest src (Nat.le_of_lt n.toNat_lt)]
  exact if_congr UInt32.lt_iff_toNat_lt.symm rfl rfl

theorem memcpy_outside {dest src n a : UInt32} (outside : ¬ a - dest < n) (mem : Mem) :
    memcpy mem dest src n a = mem a := by
  rw [memcpy_apply, if_neg outside]

/-- A copy that ends before it comes to what it has written. -/
theorem memcpy_clear {dest src n : UInt32} (clear : n ≤ dest - src) (mem : Mem) (a : UInt32) :
    memcpy mem dest src n a = if a - dest < n then mem (src + (a - dest)) else mem a := by
  rw [memcpy_apply]
  by_cases inside : a - dest < n
  · rw [if_pos inside, if_pos inside, origin_clear clear inside]
  · rw [if_neg inside, if_neg inside]

theorem clear_of_apart {dest src n : UInt32} (apart : ∀ a, a - src < n → ¬ a - dest < n) :
    n ≤ dest - src := by
  rw [← UInt32.not_lt]
  intro meets
  apply apart dest meets
  rw [UInt32.sub_self]
  exact UInt32.lt_of_le_of_lt UInt32.zero_le meets

/-- A copy that is made only when there is something to copy. -/
theorem memcpy_guard (mem : Mem) (dest src n : UInt32) :
    (if 0 < n then memcpy mem dest src n else mem) = memcpy mem dest src n := by
  split
  · rfl
  · rename_i none_
    rw [eq_zero_of_not_pos none_]
    rfl

theorem memset_guard (mem : Mem) (dest : UInt32) (c : UInt8) (n : UInt32) :
    (if 0 < n then memset mem dest c n else mem) = memset mem dest c n := by
  split
  · rfl
  · rename_i none_
    rw [eq_zero_of_not_pos none_]
    funext a
    exact (if_neg UInt32.not_lt_zero).symm

theorem offset_lt_iff {a dest n : UInt32} (fits : dest.toNat + n.toNat ≤ 2 ^ 32) :
    a - dest < n ↔ dest.toNat ≤ a.toNat ∧ a.toNat < dest.toNat + n.toNat := by
  have below := a.toNat_lt
  have below' := dest.toNat_lt
  rw [UInt32.lt_iff_toNat_lt, UInt32.toNat_sub]
  omega

/-- `n` addresses from `offset` on, in a range that starts at `base`. -/
theorem range_within_iff {base offset size : UInt32} {n : Nat} (some_ : 0 < n) :
    (∀ a : UInt32, (a - (base + offset)).toNat < n → a - base < size) ↔
      offset.toNat + n ≤ size.toNat := by
  have below := offset.toNat_lt
  have below' := size.toNat_lt
  constructor
  · intro within
    apply Nat.le_of_not_lt
    intro outside
    -- The first address of the range at or behind the end.
    let k := UInt32.ofNat (size.toNat - offset.toNat)
    have k_eq : k.toNat = size.toNat - offset.toNat :=
      UInt32.toNat_ofNat_of_lt' (Nat.lt_of_le_of_lt (Nat.sub_le _ _) below')
    have inside := within (base + offset + k)
    simp only [UInt32.lt_iff_toNat_lt, UInt32.toNat_sub, UInt32.toNat_add, k_eq] at inside
    have start := base.toNat_lt
    omega
  · intro fits a inside
    have here := a.toNat_lt
    have start := base.toNat_lt
    rw [UInt32.toNat_sub, UInt32.toNat_add] at inside
    rw [UInt32.lt_iff_toNat_lt, UInt32.toNat_sub]
    omega

/-- Behind a copy of the first `n` bytes, the fill of the others. -/
theorem offset_tail {a dest n m : UInt32} (within : n ≤ m) :
    a - (dest + n) < m - n ↔ ¬ a - dest < n ∧ a - dest < m := by
  have one := a.toNat_lt
  have two := dest.toNat_lt
  have three := m.toNat_lt
  rw [UInt32.le_iff_toNat_le] at within
  rw [UInt32.lt_iff_toNat_lt, UInt32.lt_iff_toNat_lt, UInt32.lt_iff_toNat_lt,
    UInt32.toNat_sub a (dest + n), UInt32.toNat_sub a dest, UInt32.toNat_sub m n, UInt32.toNat_add]
  omega

theorem memcpy_memset_outside (mem : Mem) {dest src n m a : UInt32} (within : n ≤ m)
    (outside : ¬ a - dest < m) :
    memset (memcpy mem dest src n) (dest + n) 0 (m - n) a = mem a := by
  rw [memset, if_neg fun tail => outside ((offset_tail within).mp tail).2]
  exact memcpy_outside (fun content => outside (UInt32.lt_of_lt_of_le content within)) mem

theorem memcpy_memset (mem : Mem) {dest src n m : UInt32} (clear : n ≤ dest - src) (within : n ≤ m)
    (a : UInt32) :
    memset (memcpy mem dest src n) (dest + n) 0 (m - n) a =
      if a - dest < m then if a - dest < n then mem (src + (a - dest)) else 0 else mem a := by
  by_cases inside : a - dest < m
  · rw [if_pos inside, memset]
    by_cases content : a - dest < n
    · rw [if_neg fun tail => ((offset_tail within).mp tail).1 content, if_pos content,
        memcpy_clear clear, if_pos content]
    · rw [if_pos ((offset_tail within).mpr ⟨content, inside⟩), if_neg content]
  · rw [if_neg inside, memcpy_memset_outside mem within inside]

end Stage90.Lib

import Stage90.Lib.Masks
import Mathlib.Data.List.Nodup
import Mathlib.Data.List.ProdSigma
import Mathlib.Data.Nat.Log

/-!
# The sweep of the data cache

`cache_clean_invalidate_dcache_all` of `cache_ops.c`: one operand by set and way for each line of
the level 1 data cache, whose geometry is read out of `CCSIDR`.
-/

set_option autoImplicit false

namespace Stage90.Cache

open Stage90.Lib

/-! ## The code -/

/-- `CSSELR`, and `CCSIDR` for each cache that it can select. -/
structure Cp15 where
  csselr : UInt32
  ccsidr : UInt32 → UInt32

structure Geometry where
  lineLog2 : UInt32
  ways : UInt32
  sets : UInt32

/-- The level 1 data cache is selected first, whatever was selected before. -/
def cacheDcacheGeometry (c : Cp15) : Geometry × Cp15 :=
  let c := { c with csselr := 0 }
  let ccsidr := c.ccsidr c.csselr
  (⟨(ccsidr &&& 0x7) + 4, ((ccsidr >>> 3) &&& 0x3ff) + 1, ((ccsidr >>> 13) &&& 0x7fff) + 1⟩, c)

theorem toNat_half (v : UInt32) : (v >>> 1).toNat = v.toNat / 2 := by
  rw [UInt32.toNat_shiftRight]
  exact Nat.shiftRight_eq_div_pow v.toNat 1

def cacheLog2From (v n : UInt32) : UInt32 :=
  if 1 < v then cacheLog2From (v >>> 1) (n + 1) else n
termination_by v.toNat
decreasing_by
  have one : 1 < v.toNat := UInt32.lt_iff_toNat_lt.mp ‹1 < v›
  rw [toNat_half]
  omega

def cacheLog2U32 (v : UInt32) : UInt32 := cacheLog2From v 0

def operand (g : Geometry) (wayShift way set : UInt32) : UInt32 :=
  (way <<< wayShift) ||| (set <<< g.lineLog2)

def cacheCleanInvalidateDcacheAll (c : Cp15) : List UInt32 × Cp15 :=
  let (g, c) := cacheDcacheGeometry c
  let wayShift := 32 - cacheLog2U32 g.ways
  ((List.range g.ways.toNat).flatMap fun way =>
    (List.range g.sets.toNat).map fun set =>
      operand g wayShift (UInt32.ofNat way) (UInt32.ofNat set), c)

/-! ## The architecture -/

/-- What a word of `CCSIDR` says. -/
structure Shape where
  lineLog2 : Nat
  ways : Nat
  sets : Nat

def shape (ccsidr : UInt32) : Shape :=
  ⟨ccsidr.toNat % 2 ^ 3 + 4, ccsidr.toNat / 2 ^ 3 % 2 ^ 10 + 1, ccsidr.toNat / 2 ^ 13 % 2 ^ 15 + 1⟩

namespace Shape
variable (s : Shape)

def wayBits : Nat := Nat.clog 2 s.ways

/-- The way is right-justified at bit 31, and the set starts at the line size. -/
def setWay (way set : Nat) : Nat := way * 2 ^ (32 - s.wayBits) + set * 2 ^ s.lineLog2

def Fits : Prop := s.lineLog2 + Nat.clog 2 s.sets + s.wayBits ≤ 32

instance : Decidable s.Fits := inferInstanceAs (Decidable (_ ≤ _))

structure Sweeps (operands : List UInt32) : Prop where
  distinct : operands.Nodup
  count : operands.length = s.ways * s.sets
  exactly : ∀ v : UInt32, v ∈ operands ↔
    ∃ way < s.ways, ∃ set < s.sets, v.toNat = s.setWay way set

end Shape

/-! ## The logarithm and the geometry -/

theorem toNat_cacheLog2From (v n : UInt32) (room : n.toNat + Nat.log 2 v.toNat < 2 ^ 32) :
    (cacheLog2From v n).toNat = n.toNat + Nat.log 2 v.toNat := by
  fun_induction cacheLog2From v n with
  | case1 v n more ih =>
      have two : 2 ≤ v.toNat := UInt32.lt_iff_toNat_lt.mp more
      have log : Nat.log 2 v.toNat = Nat.log 2 (v.toNat / 2) + 1 :=
        Nat.log_of_one_lt_of_le (by decide) two
      have next : (n + 1).toNat = n.toNat + 1 := by
        rw [UInt32.toNat_add, UInt32.toNat_one, Nat.mod_eq_of_lt]
        omega
      rw [toNat_half, next] at ih
      rw [ih (by omega), log]
      omega
  | case2 v n less =>
      have one : v.toNat ≤ 1 := Nat.le_of_not_lt fun more => less (UInt32.lt_iff_toNat_lt.mpr more)
      rw [Nat.log_of_lt (by omega), Nat.add_zero]

theorem toNat_cacheLog2 (v : UInt32) : (cacheLog2U32 v).toNat = Nat.log 2 v.toNat := by
  have small : Nat.log 2 v.toNat < 32 := by
    by_cases zero : v.toNat = 0
    · rw [zero]
      decide
    · exact Nat.log_lt_of_lt_pow zero v.toNat_lt
  have log := toNat_cacheLog2From v 0 (by rw [UInt32.toNat_zero]; omega)
  rwa [UInt32.toNat_zero, Nat.zero_add] at log

section Sweep
variable (c : Cp15)

/-- The words of `CCSIDR` for the level 1 data cache. -/
def level1 : UInt32 := c.ccsidr 0

theorem toNat_lineLog2 : (cacheDcacheGeometry c).1.lineLog2.toNat = (shape (level1 c)).lineLog2 := by
  have field : (c.ccsidr 0 &&& 0x7).toNat = (c.ccsidr 0).toNat % 2 ^ 3 := by
    rw [UInt32.toNat_and]
    exact Nat.and_two_pow_sub_one_eq_mod _ 3
  change (((c.ccsidr 0) &&& 0x7) + 4).toNat = _
  rw [UInt32.toNat_add, field]
  exact Nat.mod_eq_of_lt (by change _ + 4 < _; omega)

theorem toNat_ways : (cacheDcacheGeometry c).1.ways.toNat = (shape (level1 c)).ways := by
  have field : ((c.ccsidr 0 >>> 3) &&& 0x3ff).toNat = (c.ccsidr 0).toNat / 2 ^ 3 % 2 ^ 10 :=
    toNat_field (c.ccsidr 0) (by decide) rfl
  change (((c.ccsidr 0 >>> 3) &&& 0x3ff) + 1).toNat = _
  rw [UInt32.toNat_add, field]
  exact Nat.mod_eq_of_lt (by change _ + 1 < _; omega)

theorem toNat_sets : (cacheDcacheGeometry c).1.sets.toNat = (shape (level1 c)).sets := by
  have field : ((c.ccsidr 0 >>> 13) &&& 0x7fff).toNat = (c.ccsidr 0).toNat / 2 ^ 13 % 2 ^ 15 :=
    toNat_field (c.ccsidr 0) (by decide) rfl
  change (((c.ccsidr 0 >>> 13) &&& 0x7fff) + 1).toNat = _
  rw [UInt32.toNat_add, field]
  exact Nat.mod_eq_of_lt (by change _ + 1 < _; omega)

end Sweep

/-! ## One operand -/

theorem toNat_shifted {x k : UInt32} (small : k.toNat < 32) (room : x.toNat * 2 ^ k.toNat < 2 ^ 32) :
    (x <<< k).toNat = x.toNat * 2 ^ k.toNat := by
  rw [UInt32.toNat_shiftLeft, Nat.mod_eq_of_lt small, Nat.shiftLeft_eq, Nat.mod_eq_of_lt room]

namespace Shape
variable {s : Shape}

theorem set_room (fits : s.Fits) {set : Nat} (inside : set < s.sets) :
    set * 2 ^ s.lineLog2 < 2 ^ (32 - s.wayBits) := by
  have power : s.sets ≤ 2 ^ Nat.clog 2 s.sets := Nat.le_pow_clog (by decide) s.sets
  calc set * 2 ^ s.lineLog2
      < 2 ^ Nat.clog 2 s.sets * 2 ^ s.lineLog2 :=
        Nat.mul_lt_mul_of_pos_right (inside.trans_le power) (Nat.two_pow_pos _)
    _ = 2 ^ (Nat.clog 2 s.sets + s.lineLog2) := (Nat.pow_add ..).symm
    _ ≤ 2 ^ (32 - s.wayBits) := by
        apply Nat.pow_le_pow_right (by decide)
        rw [Fits] at fits
        omega

theorem setWay_inj (fits : s.Fits) {way set way' set' : Nat} (inside : set < s.sets)
    (inside' : set' < s.sets) (same : s.setWay way set = s.setWay way' set') :
    way = way' ∧ set = set' := by
  have low := set_room fits inside
  have low' := set_room fits inside'
  have positive : 0 < 2 ^ (32 - s.wayBits) := Nat.two_pow_pos _
  rw [setWay, setWay] at same
  have ways : way = way' := by
    have quotient := congrArg (· / 2 ^ (32 - s.wayBits)) same
    rw [Nat.add_comm, Nat.add_mul_div_right _ _ positive, Nat.div_eq_of_lt low, Nat.add_comm (_ * _),
      Nat.add_mul_div_right _ _ positive, Nat.div_eq_of_lt low', Nat.zero_add, Nat.zero_add] at quotient
    exact quotient
  subst ways
  exact ⟨rfl, Nat.eq_of_mul_eq_mul_right (Nat.two_pow_pos _) (Nat.add_left_cancel same)⟩

end Shape

section Operand
variable {c : Cp15}

theorem ways_le (ccsidr : UInt32) : (shape ccsidr).ways ≤ 1024 := by
  change _ % 2 ^ 10 + 1 ≤ _
  omega

theorem sets_le (ccsidr : UInt32) : (shape ccsidr).sets ≤ 32768 := by
  change _ % 2 ^ 15 + 1 ≤ _
  omega

theorem lineLog2_le (ccsidr : UInt32) : (shape ccsidr).lineLog2 ≤ 11 := by
  change _ % 2 ^ 3 + 4 ≤ _
  omega

def wayShift (c : Cp15) : UInt32 := 32 - cacheLog2U32 (cacheDcacheGeometry c).1.ways

theorem toNat_wayShift (c : Cp15) :
    (wayShift c).toNat = 32 - Nat.log 2 (shape (level1 c)).ways := by
  have log : (cacheLog2U32 (cacheDcacheGeometry c).1.ways).toNat =
      Nat.log 2 (shape (level1 c)).ways := by rw [toNat_cacheLog2, toNat_ways]
  have small : Nat.log 2 (shape (level1 c)).ways < 11 :=
    Nat.log_lt_of_lt_pow (Nat.succ_ne_zero _) ((ways_le _).trans_lt (by decide))
  rw [wayShift, UInt32.toNat_sub_of_le, log]
  · rfl
  · rw [UInt32.le_iff_toNat_le, log]
    exact small.le.trans (by decide)

def operandAt (c : Cp15) (way set : Nat) : UInt32 :=
  operand (cacheDcacheGeometry c).1 (wayShift c) (UInt32.ofNat way) (UInt32.ofNat set)

theorem operands_eq (c : Cp15) : (cacheCleanInvalidateDcacheAll c).1 =
    (List.range (shape (level1 c)).ways ×ˢ List.range (shape (level1 c)).sets).map fun line =>
      operandAt c line.1 line.2 := by
  rw [← toNat_ways, ← toNat_sets, SProd.sprod, List.instSProd]
  simp only [cacheCleanInvalidateDcacheAll, List.product, List.map_flatMap, List.map_map]
  rfl

theorem set_operand (fits : (shape (level1 c)).Fits) {set : Nat}
    (inside : set < (shape (level1 c)).sets) :
    (UInt32.ofNat set <<< (cacheDcacheGeometry c).1.lineLog2).toNat =
      set * 2 ^ (shape (level1 c)).lineLog2 := by
  have word : (UInt32.ofNat set).toNat = set :=
    UInt32.toNat_ofNat_of_lt ((inside.trans_le (sets_le _)).trans (by decide))
  have room : set * 2 ^ (shape (level1 c)).lineLog2 < 2 ^ 32 :=
    (Shape.set_room fits inside).trans_le (Nat.pow_le_pow_right (by decide) (Nat.sub_le _ _))
  rw [toNat_shifted, word, toNat_lineLog2]
  · rw [toNat_lineLog2]
    exact (lineLog2_le _).trans_lt (by decide)
  · rwa [word, toNat_lineLog2]

/-- With a power of two of ways, the operand is the architecture's. -/
theorem toNat_operandAt (fits : (shape (level1 c)).Fits) {k : Nat}
    (power : (shape (level1 c)).ways = 2 ^ k) {way set : Nat}
    (here : way < (shape (level1 c)).ways) (inside : set < (shape (level1 c)).sets) :
    (operandAt c way set).toNat = (shape (level1 c)).setWay way set := by
  have bits : (shape (level1 c)).wayBits = k := by
    rw [Shape.wayBits, power, Nat.clog_pow _ _ (by decide)]
  have small : k ≤ 10 := by
    rw [← Nat.pow_le_pow_iff_right (a := 2) (by decide), ← power]
    exact ways_le _
  have shift : (wayShift c).toNat = 32 - k := by
    rw [toNat_wayShift, power, Nat.log_pow (by decide)]
  have word : (UInt32.ofNat way).toNat = way :=
    UInt32.toNat_ofNat_of_lt ((here.trans_le (ways_le _)).trans (by decide))
  have high : (UInt32.ofNat way <<< wayShift c).toNat = way * 2 ^ (32 - k) := by
    cases k with
    | zero =>
        have none : way = 0 := by omega
        subst none
        rw [UInt32.toNat_shiftLeft, word, Nat.zero_shiftLeft, Nat.zero_mod, Nat.zero_mul]
    | succ k =>
        rw [toNat_shifted (by omega), word, shift]
        rw [word, shift]
        calc way * 2 ^ (32 - (k + 1))
            < 2 ^ (k + 1) * 2 ^ (32 - (k + 1)) :=
              Nat.mul_lt_mul_of_pos_right (power ▸ here) (Nat.two_pow_pos _)
          _ = 2 ^ 32 := by
              rw [← Nat.pow_add]
              congr 1
              omega
  have low := Shape.set_room fits inside
  rw [bits] at low
  rw [operandAt, operand, UInt32.toNat_or, high, set_operand fits inside, Shape.setWay, bits,
    Nat.mul_comm way, Nat.two_pow_add_eq_or_of_lt low]

end Operand

/-! ## The sweep -/

section Sweep
variable {c : Cp15}

theorem sweeps_of_power (fits : (shape (level1 c)).Fits) {k : Nat}
    (power : (shape (level1 c)).ways = 2 ^ k) :
    (shape (level1 c)).Sweeps (cacheCleanInvalidateDcacheAll c).1 := by
  rw [operands_eq]
  constructor
  · apply List.Nodup.map_on
    · intro first mem second mem' same
      rw [List.mem_product, List.mem_range, List.mem_range] at mem mem'
      have numbers := congrArg UInt32.toNat same
      rw [toNat_operandAt fits power mem.1 mem.2, toNat_operandAt fits power mem'.1 mem'.2] at numbers
      obtain ⟨way, set⟩ := Shape.setWay_inj fits mem.2 mem'.2 numbers
      exact Prod.ext way set
    · exact List.nodup_range.product List.nodup_range
  · rw [List.length_map, List.length_product, List.length_range, List.length_range]
  · intro v
    simp only [List.mem_map, Prod.exists, List.mem_product, List.mem_range]
    constructor
    · intro ⟨way, set, ⟨here, inside⟩, same⟩
      exact ⟨way, here, set, inside, same ▸ toNat_operandAt fits power here inside⟩
    · intro ⟨way, here, set, inside, number⟩
      refine ⟨way, set, ⟨here, inside⟩, UInt32.toNat_inj.mp ?_⟩
      rw [toNat_operandAt fits power here inside, number]

/-- Otherwise a way falls out of the operand at the top, and its lines are those of way 0. -/
theorem operandAt_lost {k : Nat} (positive : k ≠ 0) (log : Nat.log 2 (shape (level1 c)).ways = k)
    (set : Nat) : operandAt c (2 ^ k) set = operandAt c 0 set := by
  have small : k < 32 := by
    rw [← log]
    exact Nat.log_lt_of_lt_pow (Nat.succ_ne_zero _) ((ways_le _).trans_lt (by decide))
  have shift : (wayShift c).toNat = 32 - k := by rw [toNat_wayShift, log]
  have lost : UInt32.ofNat (2 ^ k) <<< wayShift c = UInt32.ofNat 0 <<< wayShift c := by
    have word : (UInt32.ofNat (2 ^ k)).toNat = 2 ^ k :=
      UInt32.toNat_ofNat_of_lt (Nat.pow_lt_pow_right (by decide) small)
    have whole : 2 ^ k * 2 ^ (32 - k) = 2 ^ 32 := by
      rw [← Nat.pow_add]
      congr 1
      omega
    apply UInt32.toNat_inj.mp
    rw [UInt32.toNat_shiftLeft, word, shift, Nat.mod_eq_of_lt (by omega : 32 - k < 32),
      Nat.shiftLeft_eq, whole, UInt32.toNat_shiftLeft]
    have zero : (UInt32.ofNat 0).toNat = 0 := rfl
    rw [zero, Nat.zero_shiftLeft, Nat.mod_self, Nat.zero_mod]
  rw [operandAt, operandAt, operand, operand, lost]

theorem power_of_distinct (distinct : (cacheCleanInvalidateDcacheAll c).1.Nodup) :
    ∃ k, (shape (level1 c)).ways = 2 ^ k := by
  have below : 2 ^ Nat.log 2 (shape (level1 c)).ways ≤ (shape (level1 c)).ways :=
    Nat.pow_log_le_self 2 (Nat.succ_ne_zero _)
  rcases Nat.lt_or_eq_of_le below with less | power
  · exfalso
    have positive : Nat.log 2 (shape (level1 c)).ways ≠ 0 := by
      intro zero
      have above := Nat.lt_pow_succ_log_self (b := 2) (by decide) (shape (level1 c)).ways
      rw [zero] at above less
      omega
    rw [operands_eq] at distinct
    have inside : 0 < (shape (level1 c)).sets := Nat.succ_pos _
    have same := List.inj_on_of_nodup_map distinct
      (List.mem_product.mpr ⟨List.mem_range.mpr less, List.mem_range.mpr inside⟩)
      (List.mem_product.mpr ⟨List.mem_range.mpr (Nat.succ_pos _), List.mem_range.mpr inside⟩)
      (operandAt_lost positive rfl 0)
    exact (Nat.two_pow_pos _).ne' (congrArg Prod.fst same)
  · exact ⟨_, power.symm⟩

/-- The sweep reaches every line, each by its own operand, if and only if the number of ways is a
power of two. -/
theorem sweeps_iff_power (c : Cp15) (fits : (shape (c.ccsidr 0)).Fits) :
    (shape (c.ccsidr 0)).Sweeps (cacheCleanInvalidateDcacheAll c).1 ↔
      ∃ k, (shape (c.ccsidr 0)).ways = 2 ^ k := by
  constructor
  · intro sweeps
    exact power_of_distinct sweeps.distinct
  · intro ⟨k, power⟩
    exact sweeps_of_power fits power

end Sweep

/-- 64 sets of 4 ways of 64 bytes, whatever was selected before. -/
def capri : Cp15 := ⟨2, fun csselr => if csselr = 0 then 0x0007e01a else 0xf0ffe03b⟩

theorem sweeps_capri :
    (shape (capri.ccsidr 0)).Fits ∧
      (shape (capri.ccsidr 0)).Sweeps (cacheCleanInvalidateDcacheAll capri).1 :=
  have fits : (shape (capri.ccsidr 0)).Fits := by decide
  ⟨fits, (sweeps_iff_power capri fits).mpr ⟨2, by decide⟩⟩

/-- 64 sets of 3 ways of 64 bytes. -/
def threeWays : Cp15 := ⟨0, fun _ => 0x0007e012⟩

/-- The third way is never swept: its operands are those of the first. -/
theorem threeWays_alias : (shape (threeWays.ccsidr 0)).Fits ∧
    ¬ (shape (threeWays.ccsidr 0)).Sweeps (cacheCleanInvalidateDcacheAll threeWays).1 := by
  constructor
  · decide
  · intro sweeps
    obtain ⟨k, power⟩ := power_of_distinct sweeps.distinct
    have three : 3 = 2 ^ k := power
    cases k with
    | zero => exact absurd three (by decide)
    | succ k =>
        rw [Nat.pow_succ] at three
        omega

end Stage90.Cache

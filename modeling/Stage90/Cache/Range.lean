import Stage90.Lib.Masks
import Mathlib.Order.Lattice

/-!
# Cleaning a range

`cache_clean_dcache_range` of `cache_ops.c`, one clean by address for each turn of its loop.  The
end of the range and the address are words of 32 bits.
-/

set_option autoImplicit false

namespace Stage90.Cache

open Stage90.Lib

/-! ## The code -/

/-- `cache_line_bytes`, of a value of `CTR`. -/
def cacheLineBytes (ctr : UInt32) : UInt32 := 4 <<< (ctr &&& 0xf)

/-- The addresses that the loop cleans, `none` where it has not ended behind `fuel` turns. -/
def cleanFrom (line stop : UInt32) : Nat → UInt32 → Option (List UInt32)
  | 0, _ => none
  | fuel + 1, addr =>
      if addr < stop then (cleanFrom line stop fuel (addr + line)).map (addr :: ·) else some []

def cacheCleanDcacheRange (ctr va bytes : UInt32) (fuel : Nat) : Option (List UInt32) :=
  let line := cacheLineBytes ctr
  cleanFrom line (va + bytes) fuel (va &&& ~~~(line - 1))

/-! ## The lines of a range -/

def Touched (line start bytes : Nat) (a : Nat) : Prop :=
  line ∣ a ∧ ∃ x, start ≤ x ∧ x < start + bytes ∧ a ≤ x ∧ x < a + line

/-- The loop ends, and has cleaned every line of the range once, and no other. -/
def CleansRange (ctr va bytes : UInt32) : Prop :=
  ∃ fuel ops, cacheCleanDcacheRange ctr va bytes fuel = some ops ∧ ops.Nodup ∧
    ∀ a, a ∈ ops ↔ Touched (cacheLineBytes ctr).toNat va.toNat bytes.toNat a.toNat

theorem cacheLineBytes_eq (ctr : UInt32) :
    ∃ k : UInt32, k.toNat < 32 ∧ 2 ≤ k.toNat ∧ cacheLineBytes ctr = 1 <<< k := by
  have low : (ctr &&& 0xf).toNat < 16 := by
    rw [UInt32.toNat_and]
    exact Nat.lt_of_le_of_lt Nat.and_le_right (by decide)
  have sum : ((ctr &&& 0xf) + 2).toNat = (ctr &&& 0xf).toNat + 2 := by
    rw [UInt32.toNat_add]
    exact Nat.mod_eq_of_lt (by simp only [UInt32.reduceToNat]; omega)
  have power : 4 * 2 ^ (ctr &&& 0xf).toNat < 2 ^ 32 := by
    calc 4 * 2 ^ (ctr &&& 0xf).toNat ≤ 4 * 2 ^ 15 :=
          Nat.mul_le_mul_left 4 (Nat.pow_le_pow_right (by decide) (by omega))
      _ < 2 ^ 32 := by decide
  have wide : (ctr &&& 0xf).toNat < 32 := by omega
  refine ⟨(ctr &&& 0xf) + 2, by omega, by omega, UInt32.toNat_inj.mp ?_⟩
  rw [toNat_bit (by omega), sum, cacheLineBytes, UInt32.toNat_shiftLeft, Nat.mod_eq_of_lt wide,
    Nat.shiftLeft_eq, Nat.pow_add, Nat.mul_comm (2 ^ _)]
  exact Nat.mod_eq_of_lt power

theorem touched_iff {line start bytes a : Nat} (some_ : 0 < line) (more : 0 < bytes) :
    Touched line start bytes a ↔ line ∣ a ∧ start / line * line ≤ a ∧ a < start + bytes := by
  have room := Nat.div_mul_le_self start line
  have rest := Nat.lt_div_mul_add (a := start) some_
  constructor
  · rintro ⟨⟨q, rfl⟩, x, first, last, low, high⟩
    refine ⟨⟨q, rfl⟩, ?_, by omega⟩
    have below : start / line < q + 1 := by
      rw [Nat.div_lt_iff_lt_mul some_, Nat.add_mul, Nat.one_mul, Nat.mul_comm q]
      omega
    rw [Nat.mul_comm]
    exact Nat.mul_le_mul_left line (by omega)
  · rintro ⟨aligned, first, last⟩
    exact ⟨aligned, max start a, by omega, by omega, by omega, by omega⟩

theorem not_touched_empty {line start a : Nat} : ¬ Touched line start 0 a := by
  rintro ⟨_, x, first, last, _⟩
  omega

/-! ## The loop -/

section Loop
variable {line stop : UInt32}

/-- While the end is a line short of the top of memory, the address does not wrap. -/
theorem cleanFrom_ends (some_ : 0 < line.toNat) (room : stop.toNat + line.toNat ≤ 2 ^ 32)
    (n : Nat) : ∀ addr : UInt32, stop.toNat ≤ addr.toNat + n * line.toNat →
      ∃ ops, cleanFrom line stop (n + 1) addr = some ops ∧ ops.Pairwise (· < ·) ∧
        ∀ a : UInt32, a ∈ ops ↔
          addr.toNat ≤ a.toNat ∧ line.toNat ∣ a.toNat - addr.toNat ∧ a < stop := by
  induction n with
  | zero =>
      intro addr behind
      have ended : ¬ addr < stop := by
        rw [UInt32.lt_iff_toNat_lt]
        omega
      refine ⟨[], if_neg ended, List.Pairwise.nil, fun a => ?_⟩
      refine iff_of_false List.not_mem_nil fun ⟨above, _, below⟩ => ?_
      have below := UInt32.lt_iff_toNat_lt.mp below
      omega
  | succ n ih =>
      intro addr behind
      rw [cleanFrom]
      by_cases more : addr < stop
      · have below := UInt32.lt_iff_toNat_lt.mp more
        have next : (addr + line).toNat = addr.toNat + line.toNat := by
          rw [UInt32.toNat_add]
          exact Nat.mod_eq_of_lt (by omega)
        rw [Nat.add_mul, Nat.one_mul] at behind
        obtain ⟨ops, run, sorted, covers⟩ := ih (addr + line) (by omega)
        rw [if_pos more, run]
        refine ⟨addr :: ops, rfl, List.pairwise_cons.mpr ⟨fun a member => ?_, sorted⟩, fun a => ?_⟩
        · have above := ((covers a).mp member).1
          rw [UInt32.lt_iff_toNat_lt]
          omega
        · rw [List.mem_cons, covers, next]
          constructor
          · rintro (rfl | ⟨above, ⟨q, apart⟩, inside⟩)
            · exact ⟨Nat.le_refl _, by rw [Nat.sub_self]; exact Nat.dvd_zero _, more⟩
            · refine ⟨by omega, ⟨q + 1, ?_⟩, inside⟩
              rw [Nat.mul_add, Nat.mul_one, ← apart]
              omega
          · rintro ⟨above, ⟨q, apart⟩, inside⟩
            cases q with
            | zero => exact .inl (UInt32.toNat_inj.mp (by omega))
            | succ q =>
                rw [Nat.mul_add, Nat.mul_one] at apart
                exact .inr ⟨by omega, ⟨q, by omega⟩, inside⟩
      · have ended : stop.toNat ≤ addr.toNat := UInt32.not_lt.mp more
        refine ⟨[], if_neg more, List.Pairwise.nil, fun a => ?_⟩
        refine iff_of_false List.not_mem_nil fun ⟨above, _, below⟩ => ?_
        have below := UInt32.lt_iff_toNat_lt.mp below
        omega

/-- Where the end lies behind the last line, the address wraps before it is reached. -/
theorem cleanFrom_diverges (divides : line.toNat ∣ 2 ^ 32)
    (high : 2 ^ 32 < stop.toNat + line.toNat) (fuel : Nat) :
    ∀ addr : UInt32, line.toNat ∣ addr.toNat → cleanFrom line stop fuel addr = none := by
  induction fuel with
  | zero => exact fun _ _ => rfl
  | succ fuel ih =>
      intro addr aligned
      have more : addr < stop := by
        rw [UInt32.lt_iff_toNat_lt]
        have gap : line.toNat ∣ 2 ^ 32 - addr.toNat := Nat.dvd_sub divides aligned
        have below := addr.toNat_lt
        have least := Nat.le_of_dvd (by omega) gap
        omega
      have next : line.toNat ∣ (addr + line).toNat := by
        rw [UInt32.toNat_add]
        exact (Nat.dvd_mod_iff divides).mpr (Nat.dvd_add aligned (Nat.dvd_refl _))
      rw [cleanFrom, if_pos more, ih _ next]
      rfl

end Loop

section Range
variable {ctr va bytes : UInt32}

theorem clean_start (ctr va : UInt32) :
    (va &&& ~~~(cacheLineBytes ctr - 1)).toNat =
      va.toNat / (cacheLineBytes ctr).toNat * (cacheLineBytes ctr).toNat := by
  obtain ⟨k, small, _, power⟩ := cacheLineBytes_eq ctr
  rw [power, toNat_align va small, toNat_bit small]

theorem line_pos (ctr : UInt32) : 0 < (cacheLineBytes ctr).toNat := by
  obtain ⟨k, small, _, power⟩ := cacheLineBytes_eq ctr
  rw [power, toNat_bit small]
  exact Nat.two_pow_pos _

theorem line_dvd (ctr : UInt32) : (cacheLineBytes ctr).toNat ∣ 2 ^ 32 := by
  obtain ⟨k, small, _, power⟩ := cacheLineBytes_eq ctr
  rw [power, toNat_bit small]
  exact Nat.pow_dvd_pow 2 (Nat.le_of_lt small)

/-- An empty range within a line has that line cleaned. -/
theorem empty_range (inside : ¬ (cacheLineBytes ctr).toNat ∣ va.toNat) : ¬ CleansRange ctr va 0 := by
  rintro ⟨fuel, ops, run, _, covers⟩
  have before : va &&& ~~~(cacheLineBytes ctr - 1) < va + 0 := by
    rw [UInt32.add_zero, UInt32.lt_iff_toNat_lt, clean_start]
    refine Nat.lt_of_le_of_ne (Nat.div_mul_le_self _ _) fun same => inside ?_
    exact ⟨va.toNat / (cacheLineBytes ctr).toNat, by rw [Nat.mul_comm]; exact same.symm⟩
  cases fuel with
  | zero => cases run
  | succ fuel =>
      rw [cacheCleanDcacheRange, cleanFrom, if_pos before] at run
      obtain ⟨rest, _, rfl⟩ := Option.map_eq_some_iff.mp run
      exact not_touched_empty ((covers _).mp List.mem_cons_self)

/-- A range up to the top of memory has no line cleaned. -/
theorem top_range (more : 0 < bytes.toNat) (top : va.toNat + bytes.toNat = 2 ^ 32) :
    ¬ CleansRange ctr va bytes := by
  rintro ⟨fuel, ops, run, _, covers⟩
  have zero : va + bytes = 0 := by
    apply UInt32.toNat_inj.mp
    rw [UInt32.toNat_add, top]
    rfl
  have none : ops = [] := by
    cases fuel with
    | zero => cases run
    | succ fuel =>
        rw [cacheCleanDcacheRange, zero, cleanFrom, if_neg (UInt32.not_lt.mpr UInt32.zero_le)] at run
        exact (Option.some.inj run).symm
  have first := (covers (va &&& ~~~(cacheLineBytes ctr - 1))).mpr (by
    rw [touched_iff (line_pos ctr) more, clean_start]
    refine ⟨⟨_, Nat.mul_comm _ _⟩, Nat.le_refl _, ?_⟩
    have low := Nat.div_mul_le_self va.toNat (cacheLineBytes ctr).toNat
    omega)
  rw [none] at first
  cases first

theorem toNat_stop (below : va.toNat + bytes.toNat < 2 ^ 32) :
    (va + bytes).toNat = va.toNat + bytes.toNat := by
  rw [UInt32.toNat_add]
  exact Nat.mod_eq_of_lt below

/-- A range that ends within the last line is cleaned for ever. -/
theorem last_line_range (below : va.toNat + bytes.toNat < 2 ^ 32)
    (high : 2 ^ 32 < va.toNat + bytes.toNat + (cacheLineBytes ctr).toNat) :
    ¬ CleansRange ctr va bytes := by
  rintro ⟨fuel, ops, run, _⟩
  have never := cleanFrom_diverges (line_dvd ctr) (by rw [toNat_stop below]; exact high) fuel
    (va &&& ~~~(cacheLineBytes ctr - 1)) (by rw [clean_start]; exact ⟨_, Nat.mul_comm _ _⟩)
  rw [cacheCleanDcacheRange, never] at run
  cases run

theorem cleans_range (more : 0 < bytes.toNat)
    (room : va.toNat + bytes.toNat + (cacheLineBytes ctr).toNat ≤ 2 ^ 32) :
    CleansRange ctr va bytes := by
  have some_ := line_pos ctr
  have stop := @toNat_stop va bytes (by omega)
  obtain ⟨ops, run, sorted, covers⟩ := cleanFrom_ends some_ (by rw [stop]; exact room)
    (va + bytes).toNat (va &&& ~~~(cacheLineBytes ctr - 1))
    (Nat.le_trans (Nat.le_mul_of_pos_right _ some_) (Nat.le_add_left _ _))
  refine ⟨(va + bytes).toNat + 1, ops, run, sorted.imp fun less => UInt32.ne_of_lt less, fun a => ?_⟩
  have aligned : (cacheLineBytes ctr).toNat ∣
      va.toNat / (cacheLineBytes ctr).toNat * (cacheLineBytes ctr).toNat := ⟨_, Nat.mul_comm _ _⟩
  rw [covers, touched_iff some_ more, clean_start, UInt32.lt_iff_toNat_lt, stop]
  constructor
  · rintro ⟨above, apart, inside⟩
    exact ⟨(Nat.dvd_sub_iff_left above aligned).mp apart, above, inside⟩
  · rintro ⟨divides, above, inside⟩
    exact ⟨above, Nat.dvd_sub divides aligned, inside⟩

/-- A range is cleaned when it ends a line short of the top of memory; an empty one, when it
begins a line. -/
theorem clean_range_iff (fits : va.toNat + bytes.toNat ≤ 2 ^ 32) :
    CleansRange ctr va bytes ↔
      (bytes = 0 ∧ (cacheLineBytes ctr).toNat ∣ va.toNat) ∨
        0 < bytes.toNat ∧ va.toNat + bytes.toNat + (cacheLineBytes ctr).toNat ≤ 2 ^ 32 := by
  by_cases none : bytes = 0
  · subst none
    constructor
    · intro cleans
      refine .inl ⟨rfl, ?_⟩
      by_contra inside
      exact empty_range inside cleans
    · rintro (⟨_, aligned⟩ | ⟨more, _⟩)
      · refine ⟨1, [], ?_, List.nodup_nil, fun a => iff_of_false List.not_mem_nil not_touched_empty⟩
        refine if_neg ?_
        rw [UInt32.add_zero, UInt32.lt_iff_toNat_lt, clean_start, Nat.div_mul_cancel aligned]
        exact Nat.lt_irrefl _
      · cases more
  · have more : 0 < bytes.toNat :=
      Nat.pos_of_ne_zero fun zero => none (UInt32.toNat_inj.mp zero)
    constructor
    · intro cleans
      refine .inr ⟨more, ?_⟩
      by_contra high
      by_cases top : va.toNat + bytes.toNat = 2 ^ 32
      · exact top_range more top cleans
      · exact last_line_range (by omega) (by omega) cleans
    · rintro (⟨zero, _⟩ | ⟨_, room⟩)
      · exact absurd zero none
      · exact cleans_range more room

end Range

/-- Four lines of 64 bytes. -/
theorem clean_range_iff_lines : CleansRange 4 0x1000 0x100 :=
  (clean_range_iff (by decide)).mpr (Or.inr (by decide))

/-- The last two words of memory. -/
theorem top_words_uncleaned :
    (0xfffffff8 : UInt32).toNat + (8 : UInt32).toNat ≤ 2 ^ 32 ∧ ¬ CleansRange 4 0xfffffff8 8 ∧
      (0xfffffff0 : UInt32).toNat + (8 : UInt32).toNat ≤ 2 ^ 32 ∧ ¬ CleansRange 4 0xfffffff0 8 :=
  ⟨by decide, top_range (by decide) (by decide), by decide,
    last_line_range (by decide) (by decide)⟩

end Stage90.Cache

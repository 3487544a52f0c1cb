import Stage90.Media.CowTable

/-!
# What `st_cow_init` accepts

The checks of `st_cow_init` on the numbers themselves, and the geometries among those it accepts
that its 32-bit and 64-bit arithmetic holds.
-/

set_option autoImplicit false

namespace Stage90.Cow

variable (sectors : UInt64) (spp capacity hashSlots : UInt32)

/-- What `st_cow_init` asks for.  The page count is formed in 64 bits, the least table in 32. -/
structure Checked : Prop where
  sectors_pos : 0 < sectors.toNat
  capacity_pos : 0 < capacity.toNat
  spp_pow : ∃ a, spp.toNat = 2 ^ a
  table_pow : ∃ m, hashSlots.toNat = 2 ^ m
  pages : (sectors.toNat + spp.toNat - 1) % 2 ^ 64 / spp.toNat < 2 ^ 32
  table : 2 * capacity.toNat % 2 ^ 32 ≤ hashSlots.toNat
  page : capacity.toNat * spp.toNat < 2 ^ 32

/-- A geometry that the record `c` represents. -/
structure Representable (c : StCow) : Prop where
  page : c.pageBytes = spp.toNat * 512
  page_pos : 0 < c.pageBytes
  arena : capacity.toNat * c.pageBytes < 2 ^ 32
  table_pow : ∃ m, hashSlots.toNat = 2 ^ m
  table : 2 * capacity.toNat ≤ hashSlots.toNat
  pages : ∀ sector < sectors.toNat, sector / spp.toNat < 2 ^ 32

theorem mask_eq_zero_iff {x : UInt32} (nonzero : x ≠ 0) :
    x &&& (x - 1) = 0 ↔ ∃ a, x.toNat = 2 ^ a := by
  constructor
  · intro mask
    obtain ⟨a, _, power⟩ := pow_of_and_pred_eq_zero nonzero mask
    exact ⟨a, power⟩
  · rintro ⟨a, power⟩
    have positive : x.toNat ≠ 0 := fun zero => nonzero (UInt32.toNat_inj.mp zero)
    have one : (1 : UInt32) ≤ x := UInt32.le_iff_toNat_le.mpr (Nat.pos_of_ne_zero positive)
    apply UInt32.toNat_inj.mp
    rw [UInt32.toNat_and, UInt32.toNat_sub_of_le _ _ one]
    exact (Nat.and_sub_one_eq_zero_iff_isPowerOfTwo positive).mpr ⟨a, power⟩

section Counts
variable {sectors spp capacity hashSlots}

theorem pageCount_le_iff (positive : 0 < sectors.toNat) :
    (sectors + spp.toUInt64 - 1) / spp.toUInt64 ≤ 0xffffffff ↔
      (sectors.toNat + spp.toNat - 1) % 2 ^ 64 / spp.toNat < 2 ^ 32 := by
  have count : (sectors + spp.toUInt64 - 1).toNat = (sectors.toNat + spp.toNat - 1) % 2 ^ 64 := by
    rw [UInt64.toNat_sub, UInt64.toNat_add, UInt32.toNat_toUInt64]
    have one : (1 : UInt64).toNat = 1 := rfl
    rw [one]
    omega
  rw [UInt64.le_iff_toNat_le, UInt64.toNat_div, count, UInt32.toNat_toUInt64]
  exact Nat.lt_succ_iff.symm

theorem table_le_iff :
    capacity * 2 ≤ hashSlots ↔ 2 * capacity.toNat % 2 ^ 32 ≤ hashSlots.toNat := by
  rw [UInt32.le_iff_toNat_le, UInt32.toNat_mul, Nat.mul_comm]
  rfl

theorem capacity_le_iff (positive : 0 < spp.toNat) :
    capacity ≤ 0xffffffff / spp ↔ capacity.toNat * spp.toNat < 2 ^ 32 := by
  rw [UInt32.le_iff_toNat_le, UInt32.toNat_div, Nat.le_div_iff_mul_le positive]
  exact Nat.lt_succ_iff.symm

theorem stCowInit_of_checked (checked : Checked sectors spp capacity hashSlots) :
    stCowInit sectors spp capacity hashSlots =
      some ⟨sectors.toNat, spp.toNat, (spp * 512).toNat, capacity.toNat, hashSlots.toNat,
        0, 0, 0⟩ := by
  have nonzero (x : UInt32) (power : ∃ a, x.toNat = 2 ^ a) : x ≠ 0 := by
    obtain ⟨a, power⟩ := power
    intro zero
    rw [zero] at power
    exact absurd power (Nat.ne_of_lt (Nat.two_pow_pos a))
  have sppNonzero := nonzero spp checked.spp_pow
  have sppPos : 0 < spp.toNat :=
    Nat.pos_of_ne_zero fun zero => sppNonzero (UInt32.toNat_inj.mp zero)
  have tableNonzero := nonzero hashSlots checked.table_pow
  have positive : ¬ (sectors = 0 ∨ spp = 0 ∨ capacity = 0) := by
    rintro (zero | zero | zero)
    · exact absurd (congrArg UInt64.toNat zero) (Nat.ne_of_gt checked.sectors_pos)
    · exact sppNonzero zero
    · exact absurd (congrArg UInt32.toNat zero) (Nat.ne_of_gt checked.capacity_pos)
  have mask := (mask_eq_zero_iff sppNonzero).mpr checked.spp_pow
  have pages := (pageCount_le_iff checked.sectors_pos).mpr checked.pages
  have table : ¬ (hashSlots = 0 ∨ hashSlots &&& (hashSlots - 1) ≠ 0 ∨ hashSlots < capacity * 2) := by
    rintro (zero | mask | less)
    · exact tableNonzero zero
    · exact mask ((mask_eq_zero_iff tableNonzero).mpr checked.table_pow)
    · exact UInt32.not_lt.mpr (table_le_iff.mpr checked.table) less
  have page := (capacity_le_iff sppPos).mpr checked.page
  rw [stCowInit, if_neg positive, if_neg (not_not_intro mask), if_neg (UInt64.not_lt.mpr pages),
    if_neg table, if_neg (UInt32.not_lt.mpr page)]

theorem checked_of_init {c : StCow} (accepted : stCowInit sectors spp capacity hashSlots = some c) :
    Checked sectors spp capacity hashSlots := by
  simp only [stCowInit] at accepted
  split_ifs at accepted with positive mask pages table page
  obtain ⟨sectorsPos, sppNonzero, capacityPos⟩ :
      sectors ≠ 0 ∧ spp ≠ 0 ∧ capacity ≠ 0 := by
    simpa only [not_or] using positive
  obtain ⟨tableNonzero, tableMask, double⟩ :
      hashSlots ≠ 0 ∧ hashSlots &&& (hashSlots - 1) = 0 ∧ capacity * 2 ≤ hashSlots := by
    simpa only [not_or, not_not, UInt32.not_lt, ne_eq] using table
  have sectorsPos' : 0 < sectors.toNat :=
    Nat.pos_of_ne_zero fun zero => sectorsPos (UInt64.toNat_inj.mp zero)
  have sppPos : 0 < spp.toNat :=
    Nat.pos_of_ne_zero fun zero => sppNonzero (UInt32.toNat_inj.mp zero)
  constructor
  case sectors_pos => exact sectorsPos'
  case capacity_pos =>
    exact Nat.pos_of_ne_zero fun zero => capacityPos (UInt32.toNat_inj.mp zero)
  case spp_pow => exact (mask_eq_zero_iff sppNonzero).mp (not_not.mp mask)
  case table_pow => exact (mask_eq_zero_iff tableNonzero).mp tableMask
  case pages => exact (pageCount_le_iff sectorsPos').mp (UInt64.not_lt.mp pages)
  case table => exact table_le_iff.mp double
  case page => exact (capacity_le_iff sppPos).mp (UInt32.not_lt.mp page)

end Counts

section Exact
variable {sectors spp capacity hashSlots}

/-- With a count that does not wrap and an arena below 4 GiB the record holds the geometry. -/
theorem representable_of_fits (checked : Checked sectors spp capacity hashSlots)
    (count : sectors.toNat + spp.toNat ≤ 2 ^ 64)
    (arena : 512 * (capacity.toNat * spp.toNat) < 2 ^ 32) {c : StCow}
    (accepted : stCowInit sectors spp capacity hashSlots = some c) :
    Representable sectors spp capacity hashSlots c := by
  obtain ⟨a, sppPow⟩ := checked.spp_pow
  have sppPos : 1 ≤ spp.toNat := by
    rw [sppPow]
    exact Nat.two_pow_pos a
  have sppLe : spp.toNat ≤ capacity.toNat * spp.toNat :=
    Nat.le_mul_of_pos_left _ checked.capacity_pos
  have capacityLe : capacity.toNat ≤ capacity.toNat * spp.toNat := Nat.le_mul_of_pos_right _ sppPos
  have geo := geometry_of_init accepted (by omega) (by omega)
  rw [stCowInit_of_checked checked] at accepted
  obtain rfl := Option.some_inj.mp accepted
  have page := geo.pageBytes_eq
  constructor
  case page => exact page
  case page_pos =>
    rw [page]
    exact Nat.mul_pos sppPos (by decide)
  case arena =>
    calc capacity.toNat * (spp * 512).toNat = capacity.toNat * (spp.toNat * 512) :=
          congrArg _ page
      _ = 512 * (capacity.toNat * spp.toNat) := by ring
      _ < 2 ^ 32 := arena
  case table_pow => exact checked.table_pow
  case table => exact geo.capacity_double
  case pages => exact geo.pages_lt count

/-- A count that wraps leaves pages from `2 ^ 32` on. -/
theorem count_fits_of_representable (checked : Checked sectors spp capacity hashSlots) {c : StCow}
    (represents : Representable sectors spp capacity hashSlots c) :
    sectors.toNat + spp.toNat ≤ 2 ^ 64 := by
  have last := represents.pages (sectors.toNat - 1) (Nat.sub_one_lt_of_lt checked.sectors_pos)
  obtain ⟨a, sppPow⟩ := checked.spp_pow
  have sppPos : 0 < spp.toNat := by
    rw [sppPow]
    exact Nat.two_pow_pos a
  have sppLt := spp.toNat_lt
  rw [Nat.div_lt_iff_lt_mul sppPos] at last
  have half : spp.toNat ≤ 2 ^ 31 := by
    rw [sppPow] at sppLt ⊢
    have below := (Nat.pow_lt_pow_iff_right (by decide : 1 < 2)).mp sppLt
    exact Nat.pow_le_pow_right (by decide) (Nat.le_of_lt_succ below)
  omega

theorem arena_fits_of_representable {c : StCow}
    (represents : Representable sectors spp capacity hashSlots c) :
    512 * (capacity.toNat * spp.toNat) < 2 ^ 32 := by
  have arena := represents.arena
  rw [represents.page] at arena
  calc 512 * (capacity.toNat * spp.toNat) = capacity.toNat * (spp.toNat * 512) := by ring
    _ < 2 ^ 32 := arena

end Exact

/-- What `st_cow_init` accepts is representable precisely when the page count does not wrap and the
arena is below 4 GiB. -/
theorem init_representable_iff :
    (∀ c, stCowInit sectors spp capacity hashSlots = some c →
      Representable sectors spp capacity hashSlots c) ↔
    (Checked sectors spp capacity hashSlots →
      sectors.toNat + spp.toNat ≤ 2 ^ 64 ∧ 512 * (capacity.toNat * spp.toNat) < 2 ^ 32) := by
  constructor
  · intro represents checked
    have represented := represents _ (stCowInit_of_checked checked)
    exact ⟨count_fits_of_representable checked represented,
      arena_fits_of_representable represented⟩
  · intro fits c accepted
    have checked := checked_of_init accepted
    obtain ⟨count, arena⟩ := fits checked
    exact representable_of_fits checked count arena accepted

/-- An arena of 4 GiB, a page of 4 GiB and a medium of `2 ^ 64 - 1` sectors pass. -/
theorem init_accepts_unrepresentable :
    (∃ c, stCowInit 16 8 0x100000 0x200000 = some c ∧
      ¬ Representable 16 8 0x100000 0x200000 c) ∧
    (∃ c, stCowInit 16 0x800000 1 2 = some c ∧ ¬ Representable 16 0x800000 1 2 c) ∧
    ∃ c, stCowInit 0xffffffffffffffff 8 1 2 = some c ∧
      ¬ Representable 0xffffffffffffffff 8 1 2 c := by
  refine ⟨⟨_, rfl, ?_⟩, ⟨_, rfl, ?_⟩, ⟨_, rfl, ?_⟩⟩
  · intro represents
    exact absurd represents.arena (by decide)
  · intro represents
    exact absurd represents.page_pos (by decide)
  · intro represents
    exact absurd (represents.pages 0xfffffffffffffffe (by decide)) (by decide)

end Stage90.Cow

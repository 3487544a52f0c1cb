import Stage90.Storage.Csd

/-!
# The vendor's definition

`UNSTUFF_BITS` of the assembled CSD and the driver's timeout against what the bodies compute from the
carried words.
-/

set_option autoImplicit false

namespace Stage90.Storage

open Stage90.Lib

variable {r words : Quad}

/-! ## The words -/

def quadValue (w : Quad) : Nat :=
  (w 0).toNat * 2 ^ 96 + (w 1).toNat * 2 ^ 64 + (w 2).toNat * 2 ^ 32 + (w 3).toNat

/-- The 120 bits that the registers hold. -/
def responseBits (r : Quad) : Nat :=
  (r 3).toNat % 2 ^ 24 * 2 ^ 96 + (r 2).toNat * 2 ^ 64 + (r 1).toNat * 2 ^ 32 + (r 0).toNat

/-- A word moved up by a byte, with the top byte of the next one. -/
theorem toNat_byteUp (high low : UInt32) :
    ((high <<< 8) ||| ((low >>> 24) &&& 0xff)).toNat =
      high.toNat % 2 ^ 24 * 2 ^ 8 + low.toNat / 2 ^ 24 := by
  have byte := @toNat_field low 24 0xff 8 (by decide) (by decide)
  have below := low.toNat_lt
  have shifted : (high <<< 8).toNat = 2 ^ 8 * (high.toNat % 2 ^ 24) := by
    rw [UInt32.toNat_shiftLeft, Nat.shiftLeft_eq]
    change high.toNat * 2 ^ 8 % 2 ^ 32 = _
    omega
  have small : low.toNat / 2 ^ 24 % 2 ^ 8 < 2 ^ 8 := Nat.mod_lt _ (by decide)
  have join := Nat.two_pow_add_eq_or_of_lt small (high.toNat % 2 ^ 24)
  rw [UInt32.toNat_or, shifted, byte]
  change 2 ^ 8 * (high.toNat % 2 ^ 24) ||| low.toNat / 2 ^ 24 % 2 ^ 8 = _
  rw [← join]
  omega

theorem quadValue_csdWords (r : Quad) : quadValue (csdWords r) = responseBits r * 2 ^ 8 := by
  have first : (csdWords r 0).toNat = (r 3).toNat % 2 ^ 24 * 2 ^ 8 + (r 2).toNat / 2 ^ 24 :=
    toNat_byteUp (r 3) (r 2)
  have second : (csdWords r 1).toNat = (r 2).toNat % 2 ^ 24 * 2 ^ 8 + (r 1).toNat / 2 ^ 24 :=
    toNat_byteUp (r 2) (r 1)
  have third : (csdWords r 2).toNat = (r 1).toNat % 2 ^ 24 * 2 ^ 8 + (r 0).toNat / 2 ^ 24 :=
    toNat_byteUp (r 1) (r 0)
  have last : (csdWords r 3).toNat = (r 0).toNat % 2 ^ 24 * 2 ^ 8 := by
    rw [csdWords, UInt32.toNat_shiftLeft, Nat.shiftLeft_eq]
    change (r 0).toNat * 2 ^ 8 % 2 ^ 32 = _
    omega
  rw [quadValue, responseBits, first, second, third, last]
  omega

/-! ## Fields -/

theorem toNat_unstuff_cSize (words : Quad) :
    (unstuffBits words 62 12).toNat = (words 1).toNat % 2 ^ 10 * 2 ^ 2 + (words 2).toNat / 2 ^ 30 := by
  have field : unstuffBits words 62 12 = (((words 2 >>> 30) ||| (words 1 <<< 2)) &&& 0xfff) := rfl
  have low := (words 2).toNat_lt
  have shifted : (words 1 <<< 2).toNat = 2 ^ 2 * ((words 1).toNat % 2 ^ 30) := by
    rw [UInt32.toNat_shiftLeft, Nat.shiftLeft_eq]
    change (words 1).toNat * 2 ^ 2 % 2 ^ 32 = _
    omega
  have top : (words 2 >>> 30).toNat = (words 2).toNat / 2 ^ 30 := by
    rw [UInt32.toNat_shiftRight, Nat.shiftRight_eq_div_pow]
    rfl
  have small : (words 2).toNat / 2 ^ 30 < 2 ^ 2 := by omega
  have join := Nat.two_pow_add_eq_or_of_lt small ((words 1).toNat % 2 ^ 30)
  have mask : (0xfff : UInt32).toNat = 2 ^ 12 - 1 := rfl
  rw [field, UInt32.toNat_and, UInt32.toNat_or, shifted, top, mask, Nat.and_two_pow_sub_one_eq_mod,
    Nat.or_comm, ← join]
  omega

theorem toNat_checked_cSize (words : Quad) :
    (((words 2 &&& 0x3ff) <<< 2) ||| ((words 1 >>> 30) &&& 0x3)).toNat =
      (words 2).toNat % 2 ^ 10 * 2 ^ 2 + (words 1).toNat / 2 ^ 30 := by
  have top := @toNat_field (words 1) 30 0x3 2 (by decide) (by decide)
  have high := (words 1).toNat_lt
  have mask : (0x3ff : UInt32).toNat = 2 ^ 10 - 1 := rfl
  have shifted : ((words 2 &&& 0x3ff) <<< 2).toNat = 2 ^ 2 * ((words 2).toNat % 2 ^ 10) := by
    rw [UInt32.toNat_shiftLeft, UInt32.toNat_and, mask, Nat.and_two_pow_sub_one_eq_mod, Nat.shiftLeft_eq]
    change (words 2).toNat % 2 ^ 10 * 2 ^ 2 % 2 ^ 32 = _
    omega
  have small : (words 1).toNat / 2 ^ 30 % 2 ^ 2 < 2 ^ 2 := Nat.mod_lt _ (by decide)
  have join := Nat.two_pow_add_eq_or_of_lt small ((words 2).toNat % 2 ^ 10)
  rw [UInt32.toNat_or, shifted, top]
  change 2 ^ 2 * ((words 2).toNat % 2 ^ 10) ||| (words 1).toNat / 2 ^ 30 % 2 ^ 2 = _
  rw [← join]
  omega

/-- The cross-check's `C_SIZE` is right exactly if ten bits and two bits of the two words agree. -/
theorem checked_cSize_iff (words : Quad) :
    ((words 2 &&& 0x3ff) <<< 2) ||| ((words 1 >>> 30) &&& 0x3) = unstuffBits words 62 12 ↔
      unstuffBits words 32 10 = unstuffBits words 64 10 ∧
        unstuffBits words 94 2 = unstuffBits words 62 2 := by
  have size₁ : (unstuffBits words 32 10).toNat = (words 2).toNat % 2 ^ 10 := by
    have field := @toNat_field (words 2) 0 0x3ff 10 (by decide) (by decide)
    exact field.trans (by rw [UInt32.toNat_zero, Nat.pow_zero, Nat.div_one])
  have size₂ : (unstuffBits words 64 10).toNat = (words 1).toNat % 2 ^ 10 := by
    have field := @toNat_field (words 1) 0 0x3ff 10 (by decide) (by decide)
    exact field.trans (by rw [UInt32.toNat_zero, Nat.pow_zero, Nat.div_one])
  have high₁ := (words 1).toNat_lt
  have high₂ := (words 2).toNat_lt
  have small₁ : (words 1).toNat / 2 ^ 30 < 2 ^ 2 := by omega
  have small₂ : (words 2).toNat / 2 ^ 30 < 2 ^ 2 := by omega
  have top₁ : (unstuffBits words 94 2).toNat = (words 1).toNat / 2 ^ 30 :=
    (@toNat_field (words 1) 30 0x3 2 (by decide) (by decide)).trans (Nat.mod_eq_of_lt small₁)
  have top₂ : (unstuffBits words 62 2).toNat = (words 2).toNat / 2 ^ 30 :=
    (@toNat_field (words 2) 30 0x3 2 (by decide) (by decide)).trans (Nat.mod_eq_of_lt small₂)
  rw [← UInt32.toNat_inj, ← UInt32.toNat_inj, ← UInt32.toNat_inj, toNat_checked_cSize,
    toNat_unstuff_cSize, size₁, size₂, top₁, top₂]
  omega

/-! ## The count -/

/-- The least number of doublings of 81920 microseconds, of at most fifteen, that reaches a target. -/
structure LeastCount (target count : Nat) : Prop where
  limit : count ≤ 15
  reaches : target ≤ 81920 * 2 ^ count
  least : ∀ c < count, 81920 * 2 ^ c < target

theorem countUp_least {target step : UInt32} (reachable : target.toNat ≤ 2 ^ 31) {fuel count : Nat}
    (left : fuel + count = 15) (doubled : step.toNat = 81920 * 2 ^ count)
    (before : ∀ c < count, 81920 * 2 ^ c < target.toNat) :
    LeastCount target.toNat (countUp fuel target step count) := by
  induction fuel generalizing step count with
  | zero =>
      have last : count = 15 := by omega
      have enough : 2 ^ 31 ≤ 81920 * 2 ^ 15 := by decide
      rw [countUp, last]
      rw [last] at before
      exact ⟨Nat.le_refl 15, Nat.le_trans reachable enough, before⟩
  | succ fuel ih =>
      rw [countUp]
      by_cases short : step < target
      · have less := UInt32.lt_iff_toNat_lt.mp short
        rw [doubled] at less
        have next : ∀ c < count + 1, 81920 * 2 ^ c < target.toNat := by
          intro c below
          by_cases here : c = count
          · rw [here]
            exact less
          · exact before c (by omega)
        rw [if_pos short]
        by_cases full : count + 1 ≥ 0xf
        · have last : count + 1 = 15 := by omega
          rw [if_pos full, last]
          rw [last] at next
          exact ⟨Nat.le_refl 15, Nat.le_trans reachable (by decide), next⟩
        · rw [if_neg full]
          have room : 81920 * 2 ^ count * 2 < 2 ^ 32 := by
            have power : 2 ^ count ≤ 2 ^ 13 := Nat.pow_le_pow_right (by decide) (by omega)
            calc 81920 * 2 ^ count * 2 ≤ 81920 * 2 ^ 13 * 2 :=
                  Nat.mul_le_mul_right 2 (Nat.mul_le_mul_left 81920 power)
              _ < 2 ^ 32 := by decide
          apply ih (by omega) ?_ next
          rw [UInt32.toNat_shiftLeft, Nat.shiftLeft_eq, doubled]
          change 81920 * 2 ^ count * 2 % 2 ^ 32 = _
          rw [Nat.mod_eq_of_lt room, Nat.pow_succ, Nat.mul_assoc]
      · rw [if_neg short]
        have enough := Nat.not_lt.mp fun less => short (UInt32.lt_iff_toNat_lt.mpr less)
        rw [doubled] at enough
        exact ⟨by omega, enough, before⟩

/-- Two targets have one count exactly if no doubling is between them. -/
theorem leastCount_of_le {low high count : Nat} (ordered : low ≤ high) (least : LeastCount low count) :
    LeastCount high count ↔ ∀ c ≤ 15, ¬ (low ≤ 81920 * 2 ^ c ∧ 81920 * 2 ^ c < high) := by
  constructor
  · intro other c _ between
    have reached : count ≤ c := by
      by_contra early
      have short := least.least c (by omega)
      omega
    have power := Nat.mul_le_mul_left 81920 (Nat.pow_le_pow_right (show 0 < 2 by decide) reached)
    have reaches := other.reaches
    omega
  · intro apart
    refine ⟨least.limit, ?_, fun c below => Nat.lt_of_lt_of_le (least.least c below) ordered⟩
    have reaches := least.reaches
    have none_ := apart count least.limit
    omega

/-! ## The bodies -/

/-- The driver's `tacc_ns`. -/
def vendorTacc (words : Quad) : Nat := (taccNs (unstuffBits words 115 4) (unstuffBits words 112 3)).toNat

/-- The driver's `tacc_clks`. -/
def vendorClks (words : Quad) : Nat := (unstuffBits words 104 8).toNat * 100

/-- The target with the clock term in microseconds, `clks * 1000000 / host->clock`. -/
def statedTarget (tacc clks : Nat) : Nat := (10 * tacc + 999) / 1000 + clks * 1000000 / 400000

/-- The target with the clocks as nanoseconds. -/
def sourceTarget (tacc clks : Nat) : Nat := (10 * tacc + clks + 999) / 1000

def timeouts (words : Quad) : List DataTimeout :=
  [stSendExtCsdTimeout words true, stReadSingleBlockTimeout words true, stWriteSingleBlockTimeout words true]

theorem timeouts_eq {t : DataTimeout} (there : t ∈ timeouts words) : t = dataTimeout words true 15 := by
  simp only [timeouts, List.mem_cons, List.not_mem_nil, or_false] at there
  rcases there with rfl | rfl | rfl
  · rfl
  · rfl
  · rfl

theorem taccNs_le (m e : UInt32) : (taccNs m e).toNat ≤ 80000000 := by
  have unit : ∀ i : Nat, (stTaccExp.getD i 0).toNat ≤ 10000000 := by
    intro i
    rw [List.getD_eq_getElem?_getD]
    cases found : stTaccExp[i]? with
    | none => exact Nat.zero_le _
    | some u =>
        have all : stTaccExp.all (fun u => u.toNat ≤ 10000000) = true := by decide
        exact of_decide_eq_true (List.all_eq_true.mp all u (List.mem_of_getElem? found))
  have value : ∀ i : Nat, (stTaccMant.getD i 0).toNat ≤ 80 := by
    intro i
    rw [List.getD_eq_getElem?_getD]
    cases found : stTaccMant[i]? with
    | none => exact Nat.zero_le _
    | some u =>
        have all : stTaccMant.all (fun u => u.toNat ≤ 80) = true := by decide
        exact of_decide_eq_true (List.all_eq_true.mp all u (List.mem_of_getElem? found))
  have product := Nat.mul_le_mul (unit e.toNat) (value m.toNat)
  have nine : (9 : UInt32).toNat = 9 := rfl
  have ten : (10 : UInt32).toNat = 10 := rfl
  rw [taccNs, UInt32.toNat_div, UInt32.toNat_add, UInt32.toNat_mul, nine, ten]
  omega

theorem dataTimeout_target (words : Quad) (countMax : Nat) :
    (dataTimeout words true countMax).targetUs.toNat =
      sourceTarget (taccNs (unstuffBits words 112 4) (unstuffBits words 104 3)).toNat (vendorClks words) := by
  have small : (unstuffBits words 104 8).toNat < 2 ^ 8 := by
    have field := @toNat_field (words 0) 8 0xff 8 (by decide) (by decide)
    exact Nat.lt_of_le_of_lt (Nat.le_of_eq field) (Nat.mod_lt _ (by decide))
  have bound := taccNs_le (unstuffBits words 112 4) (unstuffBits words 104 3)
  have target : (dataTimeout words true countMax).targetUs =
      (taccNs (unstuffBits words 112 4) (unstuffBits words 104 3) * 10 + unstuffBits words 104 8 * 100 + 999) /
        1000 := rfl
  generalize taccNs (unstuffBits words 112 4) (unstuffBits words 104 3) = tacc at bound target ⊢
  have ten : (10 : UInt32).toNat = 10 := rfl
  have hundred : (100 : UInt32).toNat = 100 := rfl
  have rounding : (999 : UInt32).toNat = 999 := rfl
  have thousand : (1000 : UInt32).toNat = 1000 := rfl
  rw [target, UInt32.toNat_div, UInt32.toNat_add, UInt32.toNat_add, UInt32.toNat_mul, UInt32.toNat_mul,
    ten, hundred, rounding, thousand, sourceTarget, vendorClks]
  omega

theorem dataTimeout_least (words : Quad) :
    LeastCount (dataTimeout words true 15).targetUs.toNat (dataTimeout words true 15).count := by
  have small : (dataTimeout words true 15).targetUs.toNat ≤ 2 ^ 31 := by
    rw [dataTimeout_target, sourceTarget]
    have bound := taccNs_le (unstuffBits words 112 4) (unstuffBits words 104 3)
    have clks : vendorClks words < 2 ^ 32 * 100 := Nat.mul_lt_mul_of_pos_right (UInt32.toNat_lt _) (by decide)
    omega
  have least : LeastCount _ (countUp 15 (dataTimeout words true 15).targetUs
      (stSdhciToutStep0Numer / (stSetInitClock / stSdhciToutBaseDivisor)) 0) :=
    countUp_least small (Nat.add_zero 15) (by decide) fun c below => absurd below (Nat.not_lt_zero c)
  have count : (dataTimeout words true 15).count =
      if countUp 15 (dataTimeout words true 15).targetUs
          (stSdhciToutStep0Numer / (stSetInitClock / stSdhciToutBaseDivisor)) 0 ≥ 15 then 15
      else countUp 15 (dataTimeout words true 15).targetUs
        (stSdhciToutStep0Numer / (stSetInitClock / stSdhciToutBaseDivisor)) 0 := rfl
  rw [count]
  by_cases full : countUp 15 (dataTimeout words true 15).targetUs
      (stSdhciToutStep0Numer / (stSetInitClock / stSdhciToutBaseDivisor)) 0 ≥ 15
  · have last := Nat.le_antisymm least.limit full
    rw [if_pos full]
    rwa [last] at least
  · rwa [if_neg full]

/-! ## The definition -/

structure MatchesVendor (r : Quad) : Prop where
  words : quadValue (csdWords r) = responseBits r * 2 ^ 8
  published : (csdFields (csdWords r)).cSize = unstuffBits (csdWords r) 62 12 ∧
    (csdFields (csdWords r)).cSizeMult = unstuffBits (csdWords r) 47 3
  mantissa : ∀ t ∈ timeouts (csdWords r), t.m = unstuffBits (csdWords r) 115 4
  exponent : ∀ t ∈ timeouts (csdWords r), t.e = unstuffBits (csdWords r) 112 3
  nsac : ∀ t ∈ timeouts (csdWords r), t.nsac = unstuffBits (csdWords r) 104 8
  capacity : ∀ c, capacityCheck (csdWords r) true = some c →
    c.cz = unstuffBits (csdWords r) 62 12 ∧ c.cm = unstuffBits (csdWords r) 47 3
  count : ∀ t ∈ timeouts (csdWords r),
    LeastCount (statedTarget (vendorTacc (csdWords r)) (vendorClks (csdWords r))) t.count

/-- The bits that are read in a field's place are those of the field, and no doubling of the first
bound is between the two targets. -/
structure FieldsAgree (words : Quad) : Prop where
  mantissa : unstuffBits words 112 4 = unstuffBits words 115 4
  exponent : unstuffBits words 104 3 = unstuffBits words 112 3
  capacity : unstuffBits words 126 2 = 0 →
    (unstuffBits words 32 10 = unstuffBits words 64 10 ∧ unstuffBits words 94 2 = unstuffBits words 62 2) ∧
      unstuffBits words 79 3 = unstuffBits words 47 3
  doubling : ∀ c ≤ 15, ¬ (sourceTarget (vendorTacc words) (vendorClks words) ≤ 81920 * 2 ^ c ∧
    81920 * 2 ^ c < statedTarget (vendorTacc words) (vendorClks words))

theorem sourceTarget_le (tacc clks : Nat) : sourceTarget tacc clks ≤ statedTarget tacc clks := by
  have term : clks ≤ clks * 1000000 / 400000 := by omega
  have sum : (10 * tacc + clks + 999) / 1000 ≤ (10 * tacc + 999) / 1000 + clks := by omega
  rw [sourceTarget, statedTarget]
  exact Nat.le_trans sum (Nat.add_le_add_left term _)

theorem capacityCheck_eq (words : Quad) :
    capacityCheck words true =
      if unstuffBits words 126 2 = 0 then
        some ⟨((words 2 &&& 0x3ff) <<< 2) ||| ((words 1 >>> 30) &&& 0x3), unstuffBits words 79 3,
          ((((words 2 &&& 0x3ff) <<< 2) ||| ((words 1 >>> 30) &&& 0x3)) + 1) <<<
            (unstuffBits words 79 3 + 2)⟩
      else none := by
  rw [capacityCheck]
  simp only [true_and]
  rfl

/-- The count of any body is the least for the target that it computes. -/
theorem count_iff {t : DataTimeout} (there : t ∈ timeouts words)
    (mantissa : unstuffBits words 112 4 = unstuffBits words 115 4)
    (exponent : unstuffBits words 104 3 = unstuffBits words 112 3) :
    LeastCount (statedTarget (vendorTacc words) (vendorClks words)) t.count ↔
      ∀ c ≤ 15, ¬ (sourceTarget (vendorTacc words) (vendorClks words) ≤ 81920 * 2 ^ c ∧
        81920 * 2 ^ c < statedTarget (vendorTacc words) (vendorClks words)) := by
  have least := dataTimeout_least words
  rw [dataTimeout_target, mantissa, exponent, ← vendorTacc] at least
  rw [timeouts_eq there]
  exact leastCount_of_le (sourceTarget_le _ _) least

/-- For every response: the bodies follow the vendor's definition exactly if the bits agree. -/
theorem matchesVendor_iff (r : Quad) : MatchesVendor r ↔ FieldsAgree (csdWords r) := by
  have read : stReadSingleBlockTimeout (csdWords r) true ∈ timeouts (csdWords r) := .tail _ (.head _)
  constructor
  · intro matches_
    have mantissa := matches_.mantissa _ read
    have exponent := matches_.exponent _ read
    refine ⟨mantissa, exponent, ?_, ?_⟩
    · intro version
      have check := capacityCheck_eq (csdWords r)
      rw [if_pos version] at check
      obtain ⟨size, mult⟩ := matches_.capacity _ check
      exact ⟨(checked_cSize_iff _).mp size, mult⟩
    · exact (count_iff read mantissa exponent).mp (matches_.count _ read)
  · intro agree
    refine ⟨quadValue_csdWords r, ⟨rfl, rfl⟩, ?_, ?_, ?_, ?_, ?_⟩
    · intro t there
      rw [timeouts_eq there]
      exact agree.mantissa
    · intro t there
      rw [timeouts_eq there]
      exact agree.exponent
    · intro t there
      rw [timeouts_eq there]
      rfl
    · intro c taken
      rw [capacityCheck_eq] at taken
      by_cases version : unstuffBits (csdWords r) 126 2 = 0
      · rw [if_pos version] at taken
        obtain ⟨size, mult⟩ := agree.capacity version
        cases taken
        exact ⟨(checked_cSize_iff _).mpr size, mult⟩
      · rw [if_neg version] at taken
        cases taken
    · intro t there
      exact (count_iff there agree.mantissa agree.exponent).mpr agree.doubling

/-- A response with `TAAC` 0x4f: its mantissa is nine and the code takes fifteen. -/
def taacResponse : Quad
  | 3 => 0x00d04f01
  | _ => 0

theorem taacResponse_mismatch : ¬ MatchesVendor taacResponse := by
  intro matches_
  have mantissa := matches_.mantissa _ (.head _)
  exact absurd mantissa (by decide)

end Stage90.Storage

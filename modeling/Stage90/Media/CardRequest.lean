import Stage90.Media.CardStore

/-!
# One request of a card unit

`strategy_card_cases` says what `st_media_strategy` does with a request of a card unit
before it reaches the card: refuse it, end it at the end of the medium, or trim it.
What follows is what a read and a write then do to the content.
-/

set_option autoImplicit false

namespace Stage90.Media

open Stage90.Lib Stage90.Cow

def Buf.offset (bp : Buf) : Nat := bp.blkno.toUInt32.toNat * stMediaBlocksize

def Buf.block (bp : Buf) : Nat := bp.blkno.toUInt32.toNat

def isCardUnit (b : Build) (unit : Nat) : Bool :=
  b.emmcStrategy && (unit == stMediaDriver || stMediaRawUnit b unit)

def unitBase (d : Device) (unit : Nat) : Nat :=
  if unit == stMediaDriver then d.selectedLba.toNat else 0

def unitBlocks (d : Device) (unit : Nat) : Nat :=
  if unit == stMediaDriver then d.selectedCount.toNat else d.cardSectors.toNat

def servedBlocks (b : Build) (d : Device) (bp : Buf) : Nat :=
  min bp.count.toNat (strategyLen b d bp.unit - bp.offset) / stMediaBlocksize

theorem block_eq (bp : Buf) : bp.offset / stMediaBlocksize = bp.block :=
  Nat.mul_div_cancel _ (by decide)

@[simp] theorem rawUnit_driver (b : Build) : stMediaRawUnit b stMediaDriver = false := by
  simp [stMediaRawUnit, stMediaDriver, stMediaCardRaw]

theorem strategyLen_full (b : Build) (d : Device) (full : b.fullExtent = true) :
    strategyLen b d stMediaDriver = d.selectedCount.toNat * stMediaBlocksize := by
  simp [strategyLen, full, stMediumCardFullBytes]

theorem strategyLen_le (b : Build) (d : Device) {unit : Nat} (card : isCardUnit b unit = true) :
    strategyLen b d unit ≤ unitBlocks d unit * stMediaBlocksize := by
  have shorter : ∀ n, u32 n ≤ n := fun n => Nat.mod_le _ _
  simp only [isCardUnit, Bool.and_eq_true, Bool.or_eq_true] at card
  obtain ⟨emmc, unitIs⟩ := card
  by_cases driver : unit = stMediaDriver
  · subst driver
    simp only [strategyLen, rawUnit_driver, unitBlocks, beq_self_eq_true, Bool.false_eq_true, if_false,
      Bool.and_true, if_true, stMediumDiskBytes, emmc, stMediumCardFullBytes]
    split_ifs
    · exact Nat.le_refl _
    · exact Nat.zero_le _
    · exact shorter _
  · have raw : stMediaRawUnit b unit = true := by
      rcases unitIs with same | raw
      · exact absurd (by simpa using same) driver
      · exact raw
    simp [strategyLen, raw, unitBlocks, driver, stMediumCardBytes]

theorem served_inside (b : Build) (d : Device) (bp : Buf) (card : isCardUnit b bp.unit = true)
    (inside : bp.offset < strategyLen b d bp.unit) :
    bp.block + servedBlocks b d bp ≤ unitBlocks d bp.unit := by
  have len := strategyLen_le b d card
  have offset : bp.offset = bp.block * stMediaBlocksize := rfl
  have part : servedBlocks b d bp * stMediaBlocksize ≤ strategyLen b d bp.unit - bp.offset :=
    (Nat.div_mul_le_self _ _).trans (Nat.min_le_right _ _)
  have total : (bp.block + servedBlocks b d bp) * stMediaBlocksize ≤
      unitBlocks d bp.unit * stMediaBlocksize := by
    rw [Nat.add_mul, ← offset]
    omega
  exact Nat.le_of_mul_le_mul_right total (by decide)

section Request
variable {σ : Type} (door : Door σ) (d : Device) (b : Build)

def writable (b : Build) (unit : Nat) : Bool :=
  (b.hddWrite || b.cardCow) && unit == stMediaDriver

def Refused (bp : Buf) : Prop :=
  bp.unit ≥ stMediaDisks b ∨ strategyLen b d bp.unit = 0 ∨
    (bp.isRead = false ∧ writable b bp.unit = false) ∨
    strategyLen b d bp.unit < bp.offset ∨
    (bp.offset < strategyLen b d bp.unit ∧ bp.mapFails = true)

theorem strategy_card_cases (s : State σ) (bp : Buf) (card : isCardUnit b bp.unit = true) :
    (Refused d b bp ∧ ∃ e, stMediaStrategy door d b s bp = (⟨some e, none, bp.data, 0⟩, s)) ∨
    (¬ Refused d b bp ∧ bp.offset = strategyLen b d bp.unit ∧
      stMediaStrategy door d b s bp = (⟨none, none, bp.data, 0⟩, s)) ∨
    (¬ Refused d b bp ∧ bp.offset < strategyLen b d bp.unit ∧
      stMediaStrategy door d b s bp =
        cardStrategy door d b bp s
          (min bp.count.toNat (strategyLen b d bp.unit - bp.offset))) := by
  have offset : bp.blkno.toUInt32.toNat * stMediaBlocksize = bp.offset := rfl
  simp only [stMediaStrategy, offset]
  by_cases unitLt : bp.unit ≥ stMediaDisks b
  · exact Or.inl ⟨Or.inl unitLt, _, by rw [if_pos unitLt]⟩
  by_cases empty : strategyLen b d bp.unit = 0
  · exact Or.inl ⟨Or.inr (Or.inl empty), _, by rw [if_neg unitLt, if_pos empty]⟩
  by_cases write : (!bp.isRead && !((b.hddWrite || b.cardCow) && bp.unit == stMediaDriver)) = true
  · refine Or.inl ⟨Or.inr (Or.inr (Or.inl ?_)), _, by
      rw [if_neg unitLt, if_neg empty, if_pos write]⟩
    rwa [Bool.and_eq_true, Bool.not_eq_true', Bool.not_eq_true'] at write
  by_cases past : bp.offset > strategyLen b d bp.unit
  · exact Or.inl ⟨Or.inr (Or.inr (Or.inr (Or.inl past))), _, by
      rw [if_neg unitLt, if_neg empty, if_neg write, if_pos past]⟩
  have allowed : ¬ (bp.isRead = false ∧ writable b bp.unit = false) := by
    rwa [Bool.and_eq_true, Bool.not_eq_true', Bool.not_eq_true'] at write
  have accepted : ∀ (_ : ¬ (bp.offset < strategyLen b d bp.unit ∧ bp.mapFails = true)),
      ¬ Refused d b bp := by
    rintro mapped (h | h | h | h | h)
    · exact unitLt h
    · exact empty h
    · exact allowed h
    · exact past h
    · exact mapped h
  by_cases atEnd : bp.offset = strategyLen b d bp.unit
  · refine Or.inr (Or.inl ⟨accepted (by omega), atEnd, ?_⟩)
    rw [if_neg unitLt, if_neg empty, if_neg write, if_neg past, if_pos atEnd]
  have inside : bp.offset < strategyLen b d bp.unit := by omega
  have trim : (if bp.offset + bp.count.toNat > strategyLen b d bp.unit then
      u32 (strategyLen b d bp.unit - bp.offset) else bp.count.toNat) =
      min bp.count.toNat (strategyLen b d bp.unit - bp.offset) := by
    have countLt := bp.count.toNat_lt
    split
    · rw [u32_of_lt (by omega)]
      omega
    · omega
  have cardUnit : (b.emmcStrategy && (bp.unit == stMediaDriver || stMediaRawUnit b bp.unit)) =
      true := card
  by_cases map : bp.mapFails = true
  · refine Or.inl ⟨Or.inr (Or.inr (Or.inr (Or.inr ⟨inside, map⟩))), .efault, ?_⟩
    rw [if_neg unitLt, if_neg empty, if_neg write, if_neg past, if_neg atEnd, if_pos cardUnit,
      if_pos map]
  · refine Or.inr (Or.inr ⟨accepted fun h => map h.2, inside, ?_⟩)
    rw [if_neg unitLt, if_neg empty, if_neg write, if_neg past, if_neg atEnd, if_pos cardUnit,
      if_neg map, trim]

end Request

section Content
variable {σ : Type} {door : Door σ} {d : Device} {b : Build} {card : Nat → Sector}
  {good safe : σ → Prop}

/-- A read serves the blocks of the request inside the unit, and no other byte. -/
theorem strategy_read (honest : HonestDoor door card good) (bp : Buf)
    (cardUnit : isCardUnit b bp.unit = true) (isRead : bp.isRead = true)
    (limits : Limits door d safe (b.cardCow && bp.unit == stMediaDriver)
      (unitBase d bp.unit) (unitBlocks d bp.unit))
    {s : State σ} {content : Nat → Sector}
    (source : Source d card good safe (b.cardCow && bp.unit == stMediaDriver)
      (unitBase d bp.unit) s content) :
    let done := stMediaStrategy door d b s bp
    (done.1.error = none ↔ ¬ Refused d b bp) ∧
    (done.1.error = none → done.1.moved = servedBlocks b d bp * stMediaBlocksize) ∧
    (done.1.error ≠ none → done.1.moved = 0) ∧
    Source d card good safe (b.cardCow && bp.unit == stMediaDriver) (unitBase d bp.unit) done.2
      content ∧
    (good done.2.shadow.world → good s.shadow.world ∧
      ∀ k, k * stMediaBlocksize < done.1.moved →
        blockAt 512 done.1.data (k * stMediaBlocksize) = content (bp.block + k)) ∧
    ∀ a, done.1.moved ≤ a → done.1.data a = bp.data a := by
  intro done
  rcases strategy_card_cases door d b s bp cardUnit with
    ⟨refused, e, result⟩ | ⟨accepted, atEnd, result⟩ | ⟨accepted, inside, result⟩
  · have done_eq : done = _ := result
    rw [done_eq]
    refine ⟨by simp [refused], by simp, by simp, source, fun after => ⟨after, by simp⟩, fun _ _ => rfl⟩
  · have nothing : servedBlocks b d bp = 0 := by simp [servedBlocks, atEnd]
    have done_eq : done = _ := result
    rw [done_eq, nothing]
    refine ⟨by simp [accepted], by simp, by simp, source, fun after => ⟨after, by simp⟩, fun _ _ => rfl⟩
  · have limitLt : unitBlocks d bp.unit < 2 ^ 32 := by
      unfold unitBlocks
      split
      · exact d.selectedCount.toNat_lt
      · exact d.cardSectors.toNat_lt
    have blocks := served_inside b d bp cardUnit inside
    have blockEq : bp.blkno.toUInt32.toNat * stMediaBlocksize / stMediaBlocksize = bp.block :=
      block_eq bp
    obtain ⟨success, source', served, outside⟩ := cardReadLoop_served honest limits bp.block
      (servedBlocks b d bp) 0 (by omega) limitLt bp.data source
    have done_eq : done =
        (⟨none, some (sub32 bp.count.toNat
            (min bp.count.toNat (strategyLen b d bp.unit - bp.offset))),
          (cardReadLoop door d (b.cardCow && bp.unit == stMediaDriver) (unitBase d bp.unit)
            bp.block (servedBlocks b d bp) 0 bp.data s).2.2.1,
          servedBlocks b d bp * stMediaBlocksize⟩,
        (cardReadLoop door d (b.cardCow && bp.unit == stMediaDriver) (unitBase d bp.unit)
            bp.block (servedBlocks b d bp) 0 bp.data s).2.2.2) := by
      have nblk : min bp.count.toNat (strategyLen b d bp.unit - bp.offset) / stMediaBlocksize =
          servedBlocks b d bp := rfl
      have base : (if (bp.unit == stMediaDriver) = true then d.selectedLba.toNat else 0) =
          unitBase d bp.unit := rfl
      rw [show done = _ from result]
      simp only [cardStrategy, isRead, Bool.not_true, Bool.and_false, Bool.false_eq_true, if_false,
        blockEq, nblk, base]
      rcases loop : cardReadLoop door d (b.cardCow && bp.unit == stMediaDriver)
        (unitBase d bp.unit) bp.block (servedBlocks b d bp) 0 bp.data s with ⟨ok, i, data, s'⟩
      rw [loop] at success
      simp only at success
      rw [success]
    rw [done_eq]
    refine ⟨by simp [accepted], fun _ => rfl, by simp, source', ?_, ?_⟩
    · intro after
      obtain ⟨before, delivered⟩ := served after
      refine ⟨before, fun k hk => delivered k (Nat.zero_le k) ?_⟩
      rw [Nat.zero_add]
      exact Nat.lt_of_mul_lt_mul_right hk
    · intro a ha
      apply outside a
      right
      rw [Nat.zero_add]
      exact ha

/-- A write of the mount unit of a COW build takes a run of blocks of the request into the
content: all those inside the unit when it completes without error. -/
theorem strategy_cow_write (honest : HonestDoor door card good)
    (keeps : KeepsSafe door d.selectedLba.toNat d.selectedCount.toNat safe) (bp : Buf)
    (cow : b.cardCow = true) (driver : bp.unit = stMediaDriver) (isWrite : bp.isRead = false)
    {s : State σ} {content : Nat → Sector} (ready : Ready d card good safe s content) :
    let done := stMediaStrategy door d b s bp
    (done.1.error = none → done.1.moved = servedBlocks b d bp * stMediaBlocksize) ∧
    (good done.2.shadow.world → good s.shadow.world) ∧
    ∃ k ≤ servedBlocks b d bp, done.1.moved = k * stMediaBlocksize ∧
      Ready d card good safe done.2 (overwrite content bp.block bp.data 0 k) := by
  intro done
  have cardUnit : isCardUnit b bp.unit = true := by
    simp [isCardUnit, driver, b.cardCow_needs cow]
  rcases strategy_card_cases door d b s bp cardUnit with
    ⟨refused, e, result⟩ | ⟨accepted, atEnd, result⟩ | ⟨accepted, inside, result⟩
  · have done_eq : done = _ := result
    rw [done_eq]
    refine ⟨by simp, fun after => after, 0, Nat.zero_le _, by simp, ?_⟩
    rw [overwrite_self]
    exact ready
  · have nothing : servedBlocks b d bp = 0 := by simp [servedBlocks, atEnd]
    have done_eq : done = _ := result
    rw [done_eq, nothing]
    refine ⟨by simp, fun after => after, 0, Nat.le_refl _, by simp, ?_⟩
    rw [overwrite_self]
    exact ready
  · have blocks := served_inside b d bp cardUnit inside
    have unit : unitBlocks d bp.unit = d.selectedCount.toNat := by simp [unitBlocks, driver]
    have positive : 0 < d.selectedCount.toNat := by
      have len := strategyLen_le b d cardUnit
      rw [unit] at len
      rcases Nat.eq_zero_or_pos d.selectedCount.toNat with zero | positive
      · rw [zero, Nat.zero_mul] at len
        omega
      · exact positive
    rw [unit] at blocks
    obtain ⟨ready₁, bound, world⟩ := ready.ensureBound positive
    obtain ⟨back, _, high, complete, ready₂⟩ := cowWriteLoop_ready positive honest keeps bp.block
      bp.data (servedBlocks b d bp) 0 (by omega) ready₁ bound
    have blockEq : bp.blkno.toUInt32.toNat * stMediaBlocksize / stMediaBlocksize = bp.block :=
      block_eq bp
    have nblk : min bp.count.toNat (strategyLen b d bp.unit - bp.offset) / stMediaBlocksize =
        servedBlocks b d bp := rfl
    have notBound : ¬ ((stCowEnsureBound d s).bound ≠ 1) := not_not.mpr bound
    have done_eq : done = _ := result
    simp only [cardStrategy, cow, driver, isWrite, Bool.not_false, Bool.and_true,
      beq_self_eq_true, if_true, if_neg notBound] at done_eq
    rw [← driver, blockEq, nblk] at done_eq
    rcases loop : cowWriteLoop door d bp.block bp.data (servedBlocks b d bp) 0
      (stCowEnsureBound d s) with ⟨cr, i, s'⟩
    rw [loop] at back high complete ready₂ done_eq
    rw [Nat.zero_add] at high complete
    have back' : good s'.shadow.world → good s.shadow.world := fun after => world ▸ back after
    cases cr with
    | ok =>
        obtain rfl : i = servedBlocks b d bp := complete rfl
        rw [done_eq]
        exact ⟨fun _ => rfl, back', _, Nat.le_refl _, rfl, ready₂⟩
    | range =>
        rw [done_eq]
        exact ⟨by simp, back', i, high, rfl, ready₂⟩
    | noSpace =>
        rw [done_eq]
        exact ⟨by simp, back', i, high, rfl, ready₂⟩
    | io =>
        rw [done_eq]
        exact ⟨by simp, back', i, high, rfl, ready₂⟩
    | state =>
        rw [done_eq]
        exact ⟨by simp, back', i, high, rfl, ready₂⟩

end Content

end Stage90.Media

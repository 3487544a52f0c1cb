import Stage90.Media.BlockStore
import Stage90.Media.Residual
import Stage90.Media.CowPrepare
import Mathlib.Order.Interval.Finset.Nat

/-!
# Writes that fail

A write of the mount unit of a build with `CARD_COW` prepares and stores one block at a time.  Each
prepare proves the capacity for its own sector, so that the arena can be full behind blocks that
the same request has stored.  `demand` counts the slots that are taken once the loop has come
through a block; the loop stops at the first block whose demand is more than the arena has.
-/

set_option autoImplicit false

namespace Stage90.Cow

open Stage90.Lib

/-! ## One block -/

section Block
variable {σ : Type} {g : StCow} {s : Shadow σ} {sizeBits : Nat} {read512 : Read512 σ}
  {sector : Nat}

theorem lastPage_one (room : Addressable g sizeBits) (inside : sector < g.sectors) :
    lastPage g sector 1 = firstPage g sector := by
  have sectorsLt := room.geometry.sectors_lt
  unfold lastPage firstPage
  rw [Nat.add_sub_cancel, u64_of_lt (by omega)]

theorem requestPages_one (room : Addressable g sizeBits) (inside : sector < g.sectors) :
    requestPages g sector 1 = [sector / g.sectorsPerPage] := by
  have page := page_of_sector room inside
  have small : sector / g.sectorsPerPage < 2 ^ 32 := page ▸ u32_lt _
  unfold requestPages
  rw [lastPage_one room inside, firstPage, page, sub32_of_le le_rfl small, Nat.sub_self]
  simp [visited, page]

theorem spanPages_one (room : Addressable g sizeBits) (inside : sector < g.sectors) :
    spanPages g sector 1 = 1 := by
  have small : firstPage g sector < 2 ^ 64 := Nat.lt_trans (u32_lt _) (by decide)
  unfold spanPages
  rw [lastPage_one room inside, sub64_of_le le_rfl small, Nat.sub_self]
  rfl

open Classical in
/-- Preparing one sector: its page is there, or takes the next slot, or there is none. -/
theorem prepare_one (room : Addressable g sizeBits)
    (infallible : ∀ world lba out, (read512 world lba out).1 = 0) (sound : Sound g s)
    (inside : sector < g.sectors) :
    (g.capacity < s.c.used + (if Resident g s.entries (sector / g.sectorsPerPage) then 0 else 1) ∧
      (stCowPrepareWrite sizeBits read512 s sector 1).1 = .noSpace) ∨
    ((stCowPrepareWrite sizeBits read512 s sector 1).1 = .ok ∧
      (stCowPrepareWrite sizeBits read512 s sector 1).2.c.used =
        s.c.used + (if Resident g s.entries (sector / g.sectorsPerPage) then 0 else 1) ∧
      ∀ page, Resident g (stCowPrepareWrite sizeBits read512 s sector 1).2.entries page ↔
        Resident g s.entries page ∨ page = sector / g.sectorsPerPage) := by
  have range : InRange g sector 1 := ⟨Nat.one_pos, inside⟩
  have pages := requestPages_one room inside
  have missing : (absent g s.entries (requestPages g sector 1)).length =
      if Resident g s.entries (sector / g.sectorsPerPage) then 0 else 1 := by
    rw [pages, absent]
    by_cases resident : Resident g s.entries (sector / g.sectorsPerPage) <;> simp [resident]
  by_cases full : g.capacity < s.c.used +
      (if Resident g s.entries (sector / g.sectorsPerPage) then 0 else 1)
  · rw [← missing] at full
    exact .inl ⟨missing ▸ full, prepare_full room.geometry sound range full⟩
  right
  have enough : s.c.used + (absent g s.entries (requestPages g sector 1)).length ≤ g.capacity := by
    rw [missing]
    exact Nat.not_lt.mp full
  have one : spanPages g sector 1 ≤ g.capacity := by
    rw [spanPages_one room inside]
    exact room.geometry.capacity_pos
  have ok := prepare_ok room.geometry sizeBits read512 infallible sound range one enough
  rcases prepare_cases room.geometry sizeBits read512 sound sector 1 with
    ⟨_, found⟩ | ⟨_, _, _, _, _, _, _, found⟩ | ⟨_, _, _, _, _, found⟩ |
    ⟨taken, s₁, s₂, entries, collected, copied, published, found⟩
  · rw [found] at ok
    cases ok
  · rw [found] at ok
    cases ok
  · rw [found] at ok
    cases ok
  · obtain ⟨_, _, _, maps⟩ := collected.published room.geometry sizeBits read512 sound copied
      published
    have held : ∀ page, page ∈ taken ↔
        page = sector / g.sectorsPerPage ∧ ¬ Resident g s.entries page := by
      intro page
      rw [collected.pages_eq, mem_absent, pages, List.mem_singleton]
    refine ⟨ok, ?_, fun page => ?_⟩
    · rw [found, ← missing, ← collected.pages_eq]
    · rw [found, resident_iff_maps, resident_iff_maps]
      constructor
      · rintro ⟨slot, mapped⟩
        rcases (maps page slot).mp mapped with old | ⟨k, below, rfl, _⟩
        · exact .inl ⟨slot, old⟩
        · exact .inr ((held _).mp (List.getElem_mem below)).1
      · rintro (⟨slot, old⟩ | same)
        · exact ⟨slot, (maps page slot).mpr (.inl old)⟩
        · by_cases resident : Resident g s.entries page
          · obtain ⟨slot, old⟩ := resident_iff_maps.mp resident
            exact ⟨slot, (maps page slot).mpr (.inl old)⟩
          · obtain ⟨k, below, rfl⟩ := List.mem_iff_getElem.mp ((held page).mpr ⟨same, resident⟩)
            exact ⟨_, (maps _ _).mpr (.inr ⟨k, below, rfl, rfl⟩)⟩

theorem write_residency (room : Addressable g sizeBits) (sound : Sound g s)
    (bytes : Option Sector) :
    (stCowWritePreparedSector sizeBits s sector bytes).2.c.used = s.c.used ∧
      ∀ page, Resident g (stCowWritePreparedSector sizeBits s sector bytes).2.entries page ↔
        Resident g s.entries page := by
  rcases write_cases sizeBits s sector bytes with
    ⟨_, _, found⟩ | ⟨data, i, rfl, inside, found, result⟩
  · rw [found]
    exact ⟨rfl, fun _ => Iff.rfl⟩
  · rw [lookup_of_shape sound.shape] at found
    obtain ⟨hi, occ, _⟩ := lookup_some room.geometry found
    rw [result]
    cases dirty : (s.entries i).dirty with
    | true => exact ⟨rfl, fun _ => Iff.rfl⟩
    | false =>
        refine ⟨rfl, fun page => ?_⟩
        rw [resident_iff_maps, resident_iff_maps]
        exact exists_congr fun slot => sound.table.maps_markDirty hi occ page slot

end Block

/-! ## The arena's demand -/

open Classical in
/-- The slots in use when a write from `first` on has come through `i` sectors more. -/
noncomputable def demand {σ : Type} (g : StCow) (s : Shadow σ) (first i : Nat) : Nat :=
  s.c.used + ((Finset.Icc (first / g.sectorsPerPage) ((first + i) / g.sectorsPerPage)).filter
    fun page => ¬ Resident g s.entries page).card

section Demand
variable {σ : Type} {g : StCow} {s s' : Shadow σ} {first i j : Nat}

theorem demand_mono (le : i ≤ j) : demand g s first i ≤ demand g s first j := by
  classical
  unfold demand
  refine Nat.add_le_add_left (Finset.card_le_card (Finset.filter_subset_filter _ ?_)) _
  exact Finset.Icc_subset_Icc_right (Nat.div_le_div_right (Nat.add_le_add_left le first))

open Classical in
theorem demand_zero : demand g s first 0 =
    s.c.used + if Resident g s.entries (first / g.sectorsPerPage) then 0 else 1 := by
  unfold demand
  rw [Nat.add_zero, Finset.Icc_self, Finset.filter_singleton]
  by_cases resident : Resident g s.entries (first / g.sectorsPerPage) <;> simp [resident]

open Classical in
/-- The demand is the same seen from one sector further on. -/
theorem demand_succ
    (used : s'.c.used = s.c.used +
      if Resident g s.entries (first / g.sectorsPerPage) then 0 else 1)
    (residents : ∀ page, Resident g s'.entries page ↔
      Resident g s.entries page ∨ page = first / g.sectorsPerPage) :
    demand g s' (first + 1) i = demand g s first (i + 1) := by
  have start : first / g.sectorsPerPage ≤ (first + 1) / g.sectorsPerPage :=
    Nat.div_le_div_right (Nat.le_succ first)
  have next : (first + 1) / g.sectorsPerPage ≤ first / g.sectorsPerPage + 1 := by
    rw [Nat.succ_div]
    split_ifs <;> omega
  have far : (first + 1) / g.sectorsPerPage ≤ (first + (i + 1)) / g.sectorsPerPage :=
    Nat.div_le_div_right (by omega)
  have shift : first + 1 + i = first + (i + 1) := by omega
  unfold demand
  rw [used, shift, Nat.add_assoc]
  congr 1
  set page := first / g.sectorsPerPage
  have rest : (Finset.Icc ((first + 1) / g.sectorsPerPage)
      ((first + (i + 1)) / g.sectorsPerPage)).filter (fun q => ¬ Resident g s'.entries q) =
      ((Finset.Icc page ((first + (i + 1)) / g.sectorsPerPage)).filter
        fun q => ¬ Resident g s.entries q).erase page := by
    ext q
    simp only [Finset.mem_filter, Finset.mem_Icc, Finset.mem_erase, residents, not_or]
    constructor
    · rintro ⟨⟨low, high⟩, absent, other⟩
      exact ⟨other, ⟨by omega, high⟩, absent⟩
    · rintro ⟨other, ⟨low, high⟩, absent⟩
      exact ⟨⟨by omega, high⟩, absent, other⟩
  rw [rest]
  by_cases resident : Resident g s.entries page
  · rw [if_pos resident, Finset.erase_eq_of_notMem (by simp [resident]), Nat.zero_add]
  · have member : page ∈ (Finset.Icc page ((first + (i + 1)) / g.sectorsPerPage)).filter
        (fun q => ¬ Resident g s.entries q) := by
      simp only [Finset.mem_filter, Finset.mem_Icc]
      exact ⟨⟨le_rfl, start.trans far⟩, resident⟩
    rw [if_neg resident, Nat.add_comm, Finset.card_erase_add_one member]

end Demand

end Stage90.Cow

namespace Stage90.Media

open Stage90.Lib Stage90.Cow

section Loop
variable {σ : Type} {door : Door σ} {d : Device}

/-- The loop stops at the first block that the arena cannot hold. -/
theorem cowWriteLoop_stops (positive : 0 < d.selectedCount.toNat) (block : Nat)
    (data : Nat → UInt8) (left i : Nat) {s : State σ} (sound : Sound (cardGeometry d) s.shadow)
    (inside : block + (i + left) ≤ d.selectedCount.toNat) :
    let run := cowWriteLoop door d block data left i s
    (run.1 = .ok ∧
      ∀ j < left, demand (cardGeometry d) s.shadow (block + i) j ≤ (cardGeometry d).capacity) ∨
    (run.1 = .noSpace ∧ ∃ j < left, run.2.1 = i + j ∧
      (cardGeometry d).capacity < demand (cardGeometry d) s.shadow (block + i) j ∧
      ∀ k < j, demand (cardGeometry d) s.shadow (block + i) k ≤ (cardGeometry d).capacity) := by
  classical
  induction left generalizing i s with
  | zero => exact .inl ⟨rfl, fun j below => absurd below (Nat.not_lt_zero j)⟩
  | succ left ih =>
      have countLt := d.selectedCount.toNat_lt
      have sectorEq : u64 (block + i) = block + i := u64_of_lt (by omega)
      have room := card_addressable d positive
      have here : block + i < (cardGeometry d).sectors := by
        show block + i < d.selectedCount.toNat
        omega
      simp only [cowWriteLoop, sectorEq]
      rcases prepare_one room (@stCowBaseRead_infallible σ door d) sound here with
        ⟨full, refused⟩ | ⟨ok, used, residents⟩
      · refine .inr ?_
        rw [if_pos (by rw [refused]; decide)]
        refine ⟨refused, 0, Nat.succ_pos left, rfl, ?_,
          fun k below => absurd below (Nat.not_lt_zero k)⟩
        rw [demand_zero]
        exact full
      rw [if_neg (by rw [ok]; decide)]
      have sound₁ := sound.prepare room.geometry sizeTBits (stCowBaseRead door d) (block + i) 1
      have page := page_of_sector room here
      have stored := write_ok room.geometry sizeTBits sound₁ here
        ((residents _).mpr (.inr page)) (blockAt 512 data (i * stMediaBlocksize))
      rw [if_neg (by rw [stored]; decide)]
      have kept := @write_residency σ _ _ sizeTBits (block + i) room sound₁
        (some (blockAt 512 data (i * stMediaBlocksize)))
      have step : ∀ j, demand (cardGeometry d) (stCowWritePreparedSector sizeTBits
          (stCowPrepareWrite sizeTBits (stCowBaseRead door d) s.shadow (block + i) 1).2 (block + i)
          (some (blockAt 512 data (i * stMediaBlocksize)))).2 (block + (i + 1)) j =
          demand (cardGeometry d) s.shadow (block + i) (j + 1) := fun j =>
        demand_succ (kept.1.trans used) fun q => (kept.2 q).trans (residents q)
      have first : demand (cardGeometry d) s.shadow (block + i) 0 ≤ (cardGeometry d).capacity := by
        rw [demand_zero, ← used]
        exact sound₁.used_le
      have sound₂ := sound₁.write room.geometry sizeTBits (block + i)
        (some (blockAt 512 data (i * stMediaBlocksize)))
      rcases @ih (i + 1) { s with shadow := _, asked := s.asked ++ [block + i] ++ [block + i] }
          sound₂ (by omega) with
        ⟨done, fits⟩ | ⟨failed, j, below, stops, beyond, fits⟩
      · refine .inl ⟨done, fun j below => ?_⟩
        cases j with
        | zero => exact first
        | succ j =>
            rw [← step j]
            exact fits j (Nat.lt_of_succ_lt_succ below)
      · have next : i + 1 + j = i + (j + 1) := by omega
        refine .inr ⟨failed, j + 1, Nat.succ_lt_succ below, stops.trans next, ?_, fun k less => ?_⟩
        · rw [← step j]
          exact beyond
        · cases k with
          | zero => exact first
          | succ k =>
              rw [← step k]
              exact fits k (Nat.lt_of_succ_lt_succ less)

end Loop

/-! ## What a block holds -/

def heldBlock {σ : Type} (d : Device) (card : Nat → Sector) (s : State σ) : Nat → Sector :=
  contentOf (cardGeometry d) (unitMedium card d.selectedLba.toNat)
    (stCowEnsureBound d s).shadow.entries (stCowEnsureBound d s).shadow.arena

/-- The arena has the slots of the request's pages up to its block `k`. -/
def Holds {σ : Type} (d : Device) (s : State σ) (bp : Buf) (k : Nat) : Prop :=
  demand (cardGeometry d) (stCowEnsureBound d s).shadow bp.block k ≤ (cardGeometry d).capacity

theorem Holds.mono {σ : Type} {d : Device} {s : State σ} {bp : Buf} {j k : Nat} (le : j ≤ k)
    (holds : Holds d s bp k) : Holds d s bp j :=
  Nat.le_trans (demand_mono le) holds

section Held
variable {σ : Type} {door : Door σ} {d : Device} {b : Build} {card : Nat → Sector}
  {good safe : σ → Prop} {s : State σ} {content : Nat → Sector}

theorem heldBlock_eq (ready : Ready d card (fun _ => True) safe s content) {block : Nat}
    (inside : block < d.selectedCount.toNat) : heldBlock d card s block = content block := by
  have positive : 0 < d.selectedCount.toNat := Nat.zero_lt_of_lt inside
  obtain ⟨ready₁, bound, _⟩ := ready.ensureBound positive
  obtain ⟨sound, mirrors⟩ := ready₁.bound bound
  have room := card_addressable d positive
  have onMedium : block < (cardGeometry d).sectors := inside
  have known := view_eq room sound (mirrors trivial) block (card 0)
  have held := view_eq room sound (@mirrors_contentOf σ (cardGeometry d)
    (unitMedium card d.selectedLba.toNat) room.geometry _ sound) block (card 0)
  rw [held, if_pos onMedium, if_pos onMedium] at known
  exact Option.some.inj (congrArg Prod.snd known)

/-- A write of the mount unit is turned away, goes through, or stops at the first block that the
arena has no slot for, with the blocks before it stored. -/
theorem strategy_cow_write_stops (honest : HonestDoor door card good)
    (keeps : KeepsSafe door d.selectedLba.toNat d.selectedCount.toNat safe) (bp : Buf)
    (cow : b.cardCow = true) (driver : bp.unit = stMediaDriver) (isWrite : bp.isRead = false)
    (ready : Ready d card good safe s content) :
    let done := stMediaStrategy door d b s bp
    (Refused d b bp ∧ done.2 = s) ∨
    (done.1.error = none ∧ ∀ k < servedBlocks b d bp, Holds d s bp k) ∨
    (¬ Refused d b bp ∧ done.1.error = some .enospc ∧ bp.block + servedBlocks b d bp ≤
        d.selectedCount.toNat ∧
      ∃ j < servedBlocks b d bp, ¬ Holds d s bp j ∧ (∀ k < j, Holds d s bp k) ∧
        Ready d card good safe done.2 (overwrite content bp.block bp.data 0 j)) := by
  intro done
  have cardUnit : isCardUnit b bp.unit = true := by
    simp [isCardUnit, driver, b.cardCow_needs cow]
  rcases strategy_card_cases door d b s bp cardUnit with
    ⟨refused, e, result⟩ | ⟨accepted, atEnd, result⟩ | ⟨accepted, inside, result⟩
  · have done_eq : done = _ := result
    rw [done_eq]
    exact .inl ⟨refused, rfl⟩
  · have nothing : servedBlocks b d bp = 0 := by simp [servedBlocks, atEnd]
    have done_eq : done = _ := result
    rw [done_eq, nothing]
    exact .inr (.inl ⟨rfl, fun k below => absurd below (Nat.not_lt_zero k)⟩)
  · have blocks := served_inside b d bp cardUnit inside
    have unit : unitBlocks d bp.unit = d.selectedCount.toNat := by simp [unitBlocks, driver]
    rw [unit] at blocks
    have positive : 0 < d.selectedCount.toNat := by
      have len := strategyLen_le b d cardUnit
      rw [unit] at len
      rcases Nat.eq_zero_or_pos d.selectedCount.toNat with zero | positive
      · rw [zero, Nat.zero_mul] at len
        omega
      · exact positive
    obtain ⟨ready₁, bound, _⟩ := ready.ensureBound positive
    have loops := cowWriteLoop_ready positive honest keeps bp.block bp.data (servedBlocks b d bp) 0
      (by omega) ready₁ bound
    have stops := @cowWriteLoop_stops σ door d positive bp.block bp.data (servedBlocks b d bp) 0
      _ (ready₁.bound bound).1 (by omega)
    have blockEq : bp.blkno.toUInt32.toNat * stMediaBlocksize / stMediaBlocksize = bp.block :=
      block_eq bp
    have nblk : min bp.count.toNat (strategyLen b d bp.unit - bp.offset) / stMediaBlocksize =
        servedBlocks b d bp := rfl
    have notBound : ¬ ((stCowEnsureBound d s).bound ≠ 1) := not_not.mpr bound
    have done_eq : done = _ := result
    simp only [cardStrategy, cow, driver, isWrite, Bool.not_false, Bool.and_true,
      beq_self_eq_true, if_true, if_neg notBound] at done_eq
    rw [← driver, blockEq, nblk] at done_eq
    rcases loop : cowWriteLoop door d bp.block bp.data (servedBlocks b d bp) 0
      (stCowEnsureBound d s) with ⟨cr, i, s'⟩
    rw [loop] at loops stops done_eq
    simp only [Nat.add_zero, Nat.zero_add] at loops stops done_eq
    rcases stops with ⟨rfl, fits⟩ | ⟨rfl, j, below, rfl, full, fits⟩
    · rw [done_eq]
      exact .inr (.inl ⟨rfl, fits⟩)
    · rw [done_eq]
      exact .inr (.inr ⟨accepted, rfl, blocks, _, below, Nat.not_le.mpr full, fits,
        loops.2.2.2.2⟩)

end Held

/-! ## What the unit reads -/

/-- A block of the mount unit, into a map of zeros. -/
def oneBlock (block : UInt64) : Buf := ⟨stMediaDriver, block, 512, true, false, fun _ => 0⟩

def sectorRead {σ : Type} (door : Door σ) (d : Device) (b : Build) (s : State σ) (block : UInt64) :
    Nat → UInt8 :=
  (stMediaStrategy door d b s (oneBlock block)).1.data

/-- Where the write ends with an error, every sector of the unit reads as it did before. -/
def FailsClean {σ : Type} (door : Door σ) (d : Device) (b : Build) (s : State σ) (bp : Buf) :
    Prop :=
  (stMediaStrategy door d b s bp).1.error ≠ none → ∀ block,
    sectorRead door d b (stMediaStrategy door d b s bp).2 block = sectorRead door d b s block

/-- The request is turned away, or the arena has room for all of it, or the blocks that it has
room for hold the request's bytes already. -/
def Keeps {σ : Type} (d : Device) (b : Build) (card : Nat → Sector) (s : State σ) (bp : Buf) :
    Prop :=
  Refused d b bp ∨ (∀ k < servedBlocks b d bp, Holds d s bp k) ∨
    ∀ k < servedBlocks b d bp, Holds d s bp k →
      blockAt 512 bp.data (k * stMediaBlocksize) = heldBlock d card s (bp.block + k)

def OnUnit (b : Build) (d : Device) (block : Nat) : Prop :=
  (block + 1) * stMediaBlocksize ≤ strategyLen b d stMediaDriver

instance (b : Build) (d : Device) (block : Nat) : Decidable (OnUnit b d block) :=
  inferInstanceAs (Decidable (_ ≤ _))

section Reads
variable {σ : Type} {door : Door σ} {d : Device} {b : Build} {card : Nat → Sector} {s s' : State σ}
  {content content' : Nat → Sector}

theorem onUnit_iff {block : Nat} :
    OnUnit b d block ↔ (block + 1) * 512 ≤ strategyLen b d stMediaDriver := Iff.rfl

theorem driver_card (cow : b.cardCow = true) : isCardUnit b stMediaDriver = true := by
  simp [isCardUnit, b.cardCow_needs cow]

theorem onUnit_lt (cow : b.cardCow = true) {block : Nat} (inside : OnUnit b d block) :
    block < d.selectedCount.toNat := by
  have len := strategyLen_le b d (driver_card cow)
  exact Nat.le_of_mul_le_mul_right (Nat.le_trans inside len) (by decide)

theorem served_onUnit {bp : Buf} (driver : bp.unit = stMediaDriver) {k : Nat}
    (below : k < servedBlocks b d bp) : OnUnit b d (bp.block + k) := by
  have part : servedBlocks b d bp * stMediaBlocksize ≤ strategyLen b d bp.unit - bp.offset :=
    (Nat.div_mul_le_self _ _).trans (Nat.min_le_right _ _)
  have upTo : (k + 1) * stMediaBlocksize ≤ strategyLen b d bp.unit - bp.block * stMediaBlocksize :=
    (Nat.mul_le_mul_right _ below).trans part
  have positive : 0 < (k + 1) * stMediaBlocksize := Nat.mul_pos k.succ_pos (by decide)
  rw [driver] at upTo
  rw [OnUnit, Nat.add_assoc, Nat.add_mul]
  omega

theorem oneBlock_served (block : UInt64) :
    servedBlocks b d (oneBlock block) = if OnUnit b d block.toUInt32.toNat then 1 else 0 := by
  have count : (oneBlock block).count.toNat = 512 := rfl
  have offset : (oneBlock block).offset = block.toUInt32.toNat * 512 := rfl
  have unit : (oneBlock block).unit = stMediaDriver := rfl
  have size : stMediaBlocksize = 512 := rfl
  rw [servedBlocks, count, offset, unit, size]
  split_ifs with inside <;> rw [onUnit_iff] at inside <;> omega

theorem oneBlock_accepted (cow : b.cardCow = true) {block : UInt64}
    (inside : OnUnit b d block.toUInt32.toNat) : ¬ Refused d b (oneBlock block) := by
  have disks : ¬ stMediaDriver ≥ stMediaDisks b := by
    simp only [stMediaDisks, b.cardCow_needs cow, stMediaDriver]
    split_ifs <;> omega
  have offset : (oneBlock block).offset = block.toUInt32.toNat * 512 := rfl
  have unit : (oneBlock block).unit = stMediaDriver := rfl
  have isRead : (oneBlock block).isRead = true := rfl
  have maps : (oneBlock block).mapFails = false := rfl
  rw [onUnit_iff] at inside
  unfold Refused
  rw [unit, isRead, maps, offset]
  simp only [disks, false_or, Bool.true_eq_false, Bool.false_eq_true, false_and, and_false,
    or_false]
  omega

theorem sectorRead_eq (honest : HonestDoor door card fun _ => True) (cow : b.cardCow = true)
    (ready : Ready d card (fun _ => True) (fun _ => True) s content) (block : UInt64) :
    sectorRead door d b s block =
      if OnUnit b d block.toUInt32.toNat then
        copyBlock (fun _ => 0) 0 (content block.toUInt32.toNat)
      else fun _ => 0 := by
  have limits : Limits door d (fun _ => True) (b.cardCow && (oneBlock block).unit == stMediaDriver)
      (unitBase d (oneBlock block).unit) (unitBlocks d (oneBlock block).unit) := by
    rw [cow]
    exact ⟨fun _ => ⟨rfl, fun _ _ _ _ => trivial⟩, nofun⟩
  have source : Source d card (fun _ => True) (fun _ => True)
      (b.cardCow && (oneBlock block).unit == stMediaDriver) (unitBase d (oneBlock block).unit) s
      content := by
    rw [cow]
    exact ⟨fun _ => ready, nofun⟩
  obtain ⟨accepted, moved, nothing, _, served, rest⟩ := strategy_read honest (oneBlock block)
    (driver_card cow) rfl limits source
  have served := (served trivial).2
  rw [oneBlock_served] at moved
  funext a
  split_ifs at moved ⊢ with inside
  · have whole := moved (accepted.mpr (oneBlock_accepted cow inside))
    rw [whole] at served rest
    by_cases low : a < 512
    · have first := congrFun (served 0 (by decide)) ⟨a, low⟩
      rw [blockAt, Nat.zero_mul, Nat.zero_add, Nat.add_zero] at first
      rw [copyBlock, dif_pos ⟨Nat.zero_le a, by omega⟩]
      exact first
    · rw [copyBlock, dif_neg (by omega)]
      exact rest a (Nat.not_lt.mp low)
  · refine rest a ?_
    by_cases success : (stMediaStrategy door d b s (oneBlock block)).1.error = none
    · rw [moved success, Nat.zero_mul]
      exact Nat.zero_le a
    · rw [nothing success]
      exact Nat.zero_le a

theorem sectorRead_same (honest : HonestDoor door card fun _ => True) (cow : b.cardCow = true)
    (ready : Ready d card (fun _ => True) (fun _ => True) s content)
    (ready' : Ready d card (fun _ => True) (fun _ => True) s' content') :
    (∀ block, sectorRead door d b s' block = sectorRead door d b s block) ↔
      ∀ block, OnUnit b d block → content' block = content block := by
  constructor
  · intro same block inside
    have blockLt := Nat.lt_trans (onUnit_lt cow inside) d.selectedCount.toNat_lt
    have number : (UInt64.ofNat block).toUInt32.toNat = block := by
      simp
      omega
    have reads := same (UInt64.ofNat block)
    rw [sectorRead_eq honest cow ready', sectorRead_eq honest cow ready, number, if_pos inside,
      if_pos inside] at reads
    have blocks := congrArg (fun data => blockAt 512 data 0) reads
    simpa only [blockAt_copyBlock_same] using blocks
  · intro same block
    rw [sectorRead_eq honest cow ready', sectorRead_eq honest cow ready]
    split_ifs with inside
    · rw [same _ inside]
    · rfl

theorem fails_clean_iff (honest : HonestDoor door card fun _ => True) (cow : b.cardCow = true)
    (ready : Ready d card (fun _ => True) (fun _ => True) s content) {bp : Buf}
    (driver : bp.unit = stMediaDriver) (isWrite : bp.isRead = false) :
    FailsClean door d b s bp ↔ Keeps d b card s bp := by
  have keeps : KeepsSafe door d.selectedLba.toNat d.selectedCount.toNat fun _ => True :=
    fun _ _ _ _ => trivial
  rcases strategy_cow_write_stops honest keeps bp cow driver isWrite ready with
    ⟨refused, same⟩ | ⟨success, fits⟩ | ⟨accepted, failed, inside, j, below, full, fits, ready'⟩
  · refine iff_of_true (fun _ block => ?_) (.inl refused)
    rw [same]
  · exact iff_of_true (fun error => absurd success error) (.inr (.inl fits))
  · have stored : ∀ k, k < j ↔ k < servedBlocks b d bp ∧ Holds d s bp k := by
      intro k
      constructor
      · exact fun less => ⟨Nat.lt_trans less below, fits k less⟩
      · rintro ⟨_, holds⟩
        by_contra late
        exact full (holds.mono (Nat.not_lt.mp late))
    have changed : FailsClean door d b s bp ↔
        ∀ k < j, blockAt 512 bp.data (k * stMediaBlocksize) = content (bp.block + k) := by
      have error : (stMediaStrategy door d b s bp).1.error ≠ none := by
        rw [failed]
        exact Option.some_ne_none _
      unfold FailsClean
      rw [forall_prop_of_true error, sectorRead_same honest cow ready ready']
      constructor
      · intro same k less
        have here := same (bp.block + k) (served_onUnit driver (Nat.lt_trans less below))
        rw [overwrite, if_pos (by omega), Nat.add_sub_cancel_left] at here
        exact here
      · intro same block _
        unfold overwrite
        split_ifs with within
        · have here := same (block - bp.block) (by omega)
          rw [Nat.add_sub_cancel' (by omega)] at here
          exact here
        · rfl
    have notAll : ¬ ∀ k < servedBlocks b d bp, Holds d s bp k := fun all => full (all j below)
    rw [changed, Keeps, or_iff_right accepted, or_iff_right notAll]
    constructor
    · intro same k served holds
      rw [heldBlock_eq ready (by omega)]
      exact same k ((stored k).mpr ⟨served, holds⟩)
    · intro same k less
      rw [← heldBlock_eq ready (by omega)]
      exact same k ((stored k).mp less).1 ((stored k).mp less).2

end Reads

/-! ## Runs of any requests -/

section Run
variable {σ : Type} {door : Door σ} {d : Device} {b : Build} {card : Nat → Sector} {s : State σ}
  {bp : Buf}

theorem expectedBlock_other (medium : Nat → Sector) (history : List (Buf × Reply)) (reply : Reply)
    (other : bp.unit ≠ stMediaDriver) :
    expectedBlock medium (history ++ [(bp, reply)]) = expectedBlock medium history := by
  funext block
  simp [expectedBlock, storedBlock, List.foldl_append, other]

theorem strategy_array_state (array : isCardUnit b bp.unit = false) :
    (stMediaStrategy door d b s bp).2 = s := by
  have unit : (b.emmcStrategy && (bp.unit == stMediaDriver || stMediaRawUnit b bp.unit)) = false :=
    array
  obtain ⟨base, known⟩ := (@diskBase_card d b bp).mpr array
  simp only [stMediaStrategy, unit, known, Bool.false_eq_true, if_false]
  split_ifs <;> rfl

/-- The shadow after a run of any requests holds what the history says was stored. -/
theorem any_run_ready (honest : HonestDoor door card fun _ => True) (cow : b.cardCow = true)
    (arena : Nat → UInt8) (world : σ) (bufs : List Buf) :
    Ready d card (fun _ => True) (fun _ => True) (cardRun door d b arena world bufs).2
      (expectedBlock (unitMedium card d.selectedLba.toNat)
        (cardRun door d b arena world bufs).1) := by
  have noDirectWrite : b.hddWrite = false := by
    cases writes : b.hddWrite
    · rfl
    · exact absurd ⟨cow, writes⟩ b.one_write_branch
  apply execute_induction (fun history s => Ready d card (fun _ => True) (fun _ => True) s
    (expectedBlock (unitMedium card d.selectedLba.toNat) history))
  · exact ⟨.inl ⟨rfl, rfl, rfl⟩, by simp [unboundState], trivial⟩
  · intro history s bp ready
    cases unit : isCardUnit b bp.unit with
    | true =>
        refine (card_step honest noDirectWrite ready ⟨unit, ?_⟩).2
        refine ⟨fun driver => ⟨?_, fun _ _ _ _ => trivial⟩, fun _ _ _ _ _ => trivial⟩
        rw [unitBlocks, if_pos (Bool.and_eq_true_iff.mp driver).2]
    | false =>
        have other : bp.unit ≠ stMediaDriver := by
          intro driver
          rw [driver, driver_card cow] at unit
          cases unit
        rw [expectedBlock_other _ _ _ other, strategy_array_state unit]
        exact ready

end Run

/-- Which failed writes of the mount unit leave it as it was, after any requests.  One that fails
for want of arena does so only where the blocks it had room for held its bytes already. -/
theorem failed_write_iff (b : Build) (cow : b.cardCow = true) (d : Device) (card : Nat → Sector)
    (arena : Nat → UInt8) (bufs : List Buf) (bp : Buf) (driver : bp.unit = stMediaDriver)
    (isWrite : bp.isRead = false) :
    FailsClean (loggedDoor card) d b (cardRun (loggedDoor card) d b arena [] bufs).2 bp ↔
      Keeps d b card (cardRun (loggedDoor card) d b arena [] bufs).2 bp :=
  fails_clean_iff (loggedDoor_honest card) cow
    (any_run_ready (loggedDoor_honest card) cow arena [] bufs) driver isWrite

/-- A partition of 37 sectors at LBA 2, with a block stored, and a two-block write over it. -/
theorem failed_write_two_blocks :
    let d : Device := ⟨2, 37, 64, false, fun _ => 0, fun _ => 0, 0⟩
    let card : Nat → Sector := fun lba _ => UInt8.ofNat lba
    let stored : Buf := ⟨stMediaDriver, 8, 512, false, false, fun _ => 7⟩
    let bp : Buf := ⟨stMediaDriver, 7, 1024, false, false, fun _ => 9⟩
    let s := (cardRun (loggedDoor card) d (storeBuild false) (fun _ => 0) [] [stored]).2
    FailsClean (loggedDoor card) d (storeBuild false) s bp ↔ Keeps d (storeBuild false) card s bp :=
  failed_write_iff (storeBuild false) rfl _ _ (fun _ => 0) _ _ rfl rfl

/-! ## A write larger than the arena -/

theorem demand_fresh {σ : Type} (g : StCow) (arena : Nat → UInt8) (world : σ) (first i : Nat) :
    demand g (freshShadow g arena world) first i =
      g.used + ((first + i) / g.sectorsPerPage + 1 - first / g.sectorsPerPage) := by
  classical
  have nothing : ∀ page ∈ Finset.Icc (first / g.sectorsPerPage) ((first + i) / g.sectorsPerPage),
      ¬ Resident g (freshShadow g arena world).entries page := by
    intro page _ resident
    obtain ⟨slot, i, _, occupied, _⟩ := resident_iff_maps.mp resident
    simp [freshShadow, StCowEntry.occupied] at occupied
  unfold demand
  rw [Finset.filter_true_of_mem nothing, Nat.card_Icc]
  rfl

/-- Block 4096 is the first for which a fresh arena of 512 pages has no slot. -/
theorem large_write_kept :
    let d : Device := ⟨0, 8192, 8192, false, fun _ => 0, fun _ => 0, 0⟩
    let card : Nat → Sector := fun _ _ => 0
    let bp : Buf := ⟨stMediaDriver, 0, 2097664, false, false, fun _ => 7⟩
    ¬ FailsClean (loggedDoor card) d (storeBuild false)
      (cardRun (loggedDoor card) d (storeBuild false) (fun _ => 0) [] []).2 bp := by
  intro d card bp clean
  have positive : 0 < d.selectedCount.toNat := by decide
  have ready := @any_run_ready _ (loggedDoor card) d (storeBuild false) card
    (loggedDoor_honest card) rfl (fun _ => 0) [] []
  have fresh : (stCowEnsureBound d (unboundState (fun _ => 0) ([] : List Nat))).shadow =
      freshShadow (cardGeometry d) (fun _ => 0) [] := by
    simp only [stCowEnsureBound, stCowInit_card d positive, unboundState]
    rfl
  have holds (k : Nat) : Holds d (unboundState (fun _ => 0) ([] : List Nat)) bp k ↔ k < 4096 := by
    have block : bp.block = 0 := rfl
    rw [Holds, fresh, demand_fresh, block]
    change 0 + ((0 + k) / 8 + 1 - 0 / 8) ≤ 512 ↔ k < 4096
    omega
  have served : servedBlocks (storeBuild false) d bp = 4097 := by
    have count : bp.count.toNat = 2097664 := rfl
    have offset : bp.offset = bp.block * stMediaBlocksize := rfl
    have block : bp.block = 0 := rfl
    have total : d.selectedCount.toNat = 8192 := rfl
    have size : stMediaBlocksize = 512 := rfl
    rw [servedBlocks, strategyLen_full (storeBuild false) d rfl, count, offset, block,
      total, size]
    omega
  rcases (fails_clean_iff (loggedDoor_honest card) rfl ready rfl rfl).mp clean with
    refused | fits | same
  · rw [Refused, strategyLen_full (storeBuild false) d rfl] at refused
    exact absurd refused (by decide)
  · exact absurd ((holds 4096).mp (fits 4096 (by rw [served]; decide))) (Nat.lt_irrefl 4096)
  · have first := same 0 (by rw [served]; decide) ((holds 0).mpr (by decide))
    have inside : bp.block + 0 < d.selectedCount.toNat := positive
    rw [heldBlock_eq ready inside] at first
    exact absurd (congrFun first ⟨0, by decide⟩) (by decide)

end Stage90.Media

import Stage90.Media.CardRun

/-!
# The mount unit as a block store

Runs of whole-block requests against the mount unit of a build with `CARD_COW`,
`EMMC_STRATEGY` and `FULL_EXTENT`.  The door is a fixed function of the LBA that keeps
a log of what it was asked, so that its use can be bounded.
-/

set_option autoImplicit false

namespace Stage90.Media

open Stage90.Lib Stage90.Cow

def storeBuild (cardTotal : Bool) : Build where
  emmcStrategy := true
  cardTotal := cardTotal
  fullExtent := true
  cardCow := true
  hddWrite := false
  cardTotal_needs := fun _ => rfl
  fullExtent_needs := fun _ => rfl
  cardCow_needs := fun _ => rfl
  hddWrite_needs := fun _ => rfl
  one_write_branch := by decide

structure Request where
  blkno : UInt64
  count : UInt32
  whole : 512 ∣ count.toNat
  isRead : Bool
  data : Nat → UInt8

def Request.buf (r : Request) : Buf where
  unit := stMediaDriver
  blkno := r.blkno
  count := r.count
  isRead := r.isRead
  mapFails := false
  data := r.data

def loggedDoor (card : Nat → Sector) : Door (List Nat) where
  driverRead log lba := (card lba, log ++ [lba])
  driverWrite log _ _ := log

def storeRun (cardTotal : Bool) (d : Device) (card : Nat → Sector) (arena : Nat → UInt8)
    (requests : List Request) : List (Buf × Reply) × State (List Nat) :=
  cardRun (loggedDoor card) d (storeBuild cardTotal) arena [] (requests.map Request.buf)

section Run
variable (cardTotal : Bool) (d : Device) (card : Nat → Sector)

def InPartition (log : List Nat) : Prop :=
  ∀ lba ∈ log, d.selectedLba.toNat ≤ lba ∧ lba < d.selectedLba.toNat + d.selectedCount.toNat

theorem loggedDoor_honest : HonestDoor (loggedDoor card) card fun _ => True :=
  ⟨fun _ _ _ => trivial, fun _ _ _ => rfl⟩

variable (fits : d.selectedLba.toNat + d.selectedCount.toNat ≤ 2 ^ 32)
include fits

theorem partition_lba {block : Nat} (inside : block < d.selectedCount.toNat) :
    u32 (u64 (d.selectedLba.toNat + block)) = d.selectedLba.toNat + block := by
  rw [u64_of_lt (by omega), u32_of_lt (by omega)]

theorem loggedDoor_keeps :
    KeepsSafe (loggedDoor card) d.selectedLba.toNat d.selectedCount.toNat (InPartition d) := by
  intro log block inside before lba member
  rw [partition_lba d fits inside] at member
  rcases List.mem_append.mp member with old | new
  · exact before lba old
  · rw [List.mem_singleton.mp new]
    omega

omit fits in
theorem servedBlocks_request (r : Request) :
    servedBlocks (storeBuild cardTotal) d r.buf =
      min (r.count.toNat / stMediaBlocksize) (d.selectedCount.toNat - r.buf.block) := by
  have len := strategyLen_full (storeBuild cardTotal) d rfl
  obtain ⟨blocks, whole⟩ := r.whole
  have left : d.selectedCount.toNat * stMediaBlocksize - r.buf.offset =
      (d.selectedCount.toNat - r.buf.block) * stMediaBlocksize := by
    rw [Nat.sub_mul]
    rfl
  have count : r.count.toNat = blocks * stMediaBlocksize := by
    rw [whole, Nat.mul_comm]
    rfl
  have positive : 0 < stMediaBlocksize := by decide
  change min r.count.toNat (strategyLen (storeBuild cardTotal) d stMediaDriver - r.buf.offset) /
    stMediaBlocksize = _
  rw [len, left, count, Nat.mul_div_cancel _ positive, Nat.mul_min_mul_right,
    Nat.mul_div_cancel _ positive]

omit fits in
theorem refused_request (r : Request) (isRead : r.isRead = true) :
    Refused d (storeBuild cardTotal) r.buf ↔
      d.selectedCount.toNat = 0 ∨ d.selectedCount.toNat < r.buf.block := by
  have len := strategyLen_full (storeBuild cardTotal) d rfl
  have offset : r.buf.offset = r.buf.block * stMediaBlocksize := rfl
  have positive : 0 < stMediaBlocksize := by decide
  have noUnit : ¬ stMediaDriver ≥ stMediaDisks (storeBuild cardTotal) := by
    cases cardTotal <;> decide
  have empty : d.selectedCount.toNat * stMediaBlocksize = 0 ↔ d.selectedCount.toNat = 0 := by
    rw [Nat.mul_eq_zero]
    exact or_iff_left (Nat.ne_of_gt positive)
  change (stMediaDriver ≥ stMediaDisks (storeBuild cardTotal) ∨ _) ↔ _
  simp only [noUnit, false_or, Request.buf, isRead, Bool.true_eq_false, false_and, len, empty,
    Bool.false_eq_true, and_false, or_false]
  change (_ ∨ _ < r.buf.offset) ↔ _
  rw [offset, Nat.mul_lt_mul_right positive]
  exact Iff.rfl

theorem store_limits :
    Limits (loggedDoor card) d (InPartition d) true d.selectedLba.toNat d.selectedCount.toNat :=
  ⟨fun _ => ⟨rfl, loggedDoor_keeps d card fits⟩, fun plain => absurd plain (by decide)⟩

theorem request_admitted (r : Request) :
    Admitted (loggedDoor card) d (storeBuild cardTotal) (InPartition d) r.buf :=
  ⟨rfl, store_limits d card fits⟩

theorem store_run (arena : Nat → UInt8) (requests : List Request) :
    Ready d card (fun _ => True) (InPartition d) (storeRun cardTotal d card arena requests).2
      (expectedBlock (unitMedium card d.selectedLba.toNat)
        (storeRun cardTotal d card arena requests).1) := by
  apply card_run (loggedDoor_honest card) rfl arena
  · intro lba member
    exact absurd member List.not_mem_nil
  · intro bp member
    obtain ⟨r, _, rfl⟩ := List.mem_map.mp member
    exact request_admitted cardTotal d card fits r

end Run

structure StoreServes (d : Device) (card : Nat → Sector) (history : List (Buf × Reply))
    (before after : State (List Nat)) (r : Request) (reply : Reply) : Prop where
  exact_read : r.isRead = true → reply.error = none → ∀ k, k * stMediaBlocksize < reply.moved →
    blockAt 512 reply.data (k * stMediaBlocksize) =
      expectedBlock (fun block => card (d.selectedLba.toNat + block)) history (r.buf.block + k)
  rest_untouched : r.isRead = true → ∀ a, reply.moved ≤ a → reply.data a = r.data a
  whole : reply.error = none → reply.moved =
    min (r.count.toNat / stMediaBlocksize) (d.selectedCount.toNat - r.buf.block) *
      stMediaBlocksize
  part : ∃ k ≤ min (r.count.toNat / stMediaBlocksize) (d.selectedCount.toNat - r.buf.block),
    reply.error ≠ none → reply.moved = k * stMediaBlocksize
  completes : r.isRead = true → 0 < d.selectedCount.toNat → r.buf.block ≤ d.selectedCount.toNat →
    reply.error = none
  asked : ∀ block ∈ after.asked, block < d.selectedCount.toNat
  door : ∀ lba ∈ after.shadow.world,
    d.selectedLba.toNat ≤ lba ∧ lba < d.selectedLba.toNat + d.selectedCount.toNat

/-- After every run, a read delivers the latest bytes of each block of the partition, a
request is served for exactly its blocks inside, and nothing outside is reached. -/
theorem block_store_run (cardTotal : Bool) (d : Device) (card : Nat → Sector)
    (fits : d.selectedLba.toNat + d.selectedCount.toNat ≤ 2 ^ 32) (arena : Nat → UInt8)
    (requests : List Request) (r : Request) :
    let run := storeRun cardTotal d card arena requests
    let done := stMediaStrategy (loggedDoor card) d (storeBuild cardTotal) run.2 r.buf
    StoreServes d card run.1 run.2 done.2 r done.1 := by
  intro run done
  have ready := store_run cardTotal d card fits arena requests
  have honest := loggedDoor_honest card
  have next := (card_step honest rfl ready (request_admitted cardTotal d card fits r)).2
  have served := servedBlocks_request cardTotal d r
  cases direction : r.isRead with
  | true =>
      obtain ⟨accepted, moved, nothing, _, delivered, rest⟩ := strategy_read honest r.buf rfl
        direction (store_limits d card fits) (ready.source (b := storeBuild cardTotal) stMediaDriver)
      rw [served] at moved
      constructor
      case exact_read =>
        intro _ success k hk
        have inside : r.buf.block + k < d.selectedCount.toNat := by
          rw [moved success] at hk
          have := Nat.lt_of_mul_lt_mul_right hk
          omega
        rw [(delivered trivial).2 k hk]
        change expectedBlock (unitMedium card d.selectedLba.toNat) run.1 (r.buf.block + k) = _
        simp only [expectedBlock, unitMedium, partition_lba d fits inside]
      case rest_untouched => exact fun _ a ha => rest a ha
      case whole => exact moved
      case part =>
        refine ⟨0, Nat.zero_le _, fun failed => ?_⟩
        rw [Nat.zero_mul]
        exact nothing failed
      case completes =>
        intro _ positive inside
        rw [accepted, refused_request cardTotal d r direction]
        omega
      case asked => exact next.asked
      case door => exact next.world
  | false =>
      obtain ⟨moved, _, k, hk, part, _⟩ := strategy_cow_write (b := storeBuild cardTotal)
        honest (loggedDoor_keeps d card fits) r.buf rfl rfl direction ready
      rw [served] at moved hk
      constructor
      case exact_read => exact fun isRead => absurd isRead (by simp [direction])
      case rest_untouched => exact fun isRead => absurd isRead (by simp [direction])
      case whole => exact moved
      case part => exact ⟨k, hk, fun _ => part⟩
      case completes => exact fun isRead => absurd isRead (by simp [direction])
      case asked => exact next.asked
      case door => exact next.world

/-- A partition of 37 sectors at LBA 2, and a two-block write across its end. -/
theorem block_store_run_straddle :
    let d : Device := ⟨2, 37, 64, false, fun _ => 0, fun _ => 0, 0⟩
    let card : Nat → Sector := fun lba _ => UInt8.ofNat lba
    let r : Request := ⟨36, 1024, by decide, false, fun _ => 7⟩
    let run := storeRun false d card (fun _ => 0) [r]
    let done := stMediaStrategy (loggedDoor card) d (storeBuild false) run.2 r.buf
    StoreServes d card run.1 run.2 done.2 r done.1 :=
  block_store_run false _ _ (by decide) _ _ _

end Stage90.Media

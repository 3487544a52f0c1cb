import Stage90.Media.BlockStore
import Stage90.Storage.Ladder

/-!
# The strategy over the ladder's read door

The card units with `entry_storage_driver_read` behind them.  The door answers with the
ladder's buffer and the callback of the shadow with 0, so the door is honest only in the
runs where every call was delivered; in those a read serves what the card or the shadow
holds, and resident pages hold it too.
-/

set_option autoImplicit false

namespace Stage90.Media

open Stage90.Lib Stage90.Cow Stage90.Storage

def wordBytes (words : Words) : Sector :=
  fun i => (words ⟨i / 4, by omega⟩ >>> UInt32.ofNat (8 * (i % 4))).toUInt8

def cardBytes (card : Storage.Card) (lba : Nat) : Sector :=
  wordBytes (card.sector (UInt32.ofNat lba))

/-- Builds without the 905 write branch never reach the write door. -/
def ladderDoor (card : Storage.Card) (driverWrite : Ladder → Nat → Sector → Ladder) :
    Door Ladder where
  driverRead s lba :=
    let s := entryStorageDriverRead card s (UInt32.ofNat lba)
    (wordBytes s.readBlock, s)
  driverWrite := driverWrite

/-- Every call so far moved its whole block. -/
def Delivered (card : Storage.Card) (s : Ladder) : Prop :=
  ∀ i < s.calls, card.outcome i = .delivers

/-- The statics before the first request, with the calls counted from here. -/
def firstCall (s : Ladder) : Ladder := { s with calls := 0 }

section Run
variable (card : Storage.Card) (driverWrite : Ladder → Nat → Sector → Ladder)

theorem ladderDoor_honest :
    HonestDoor (ladderDoor card driverWrite) (cardBytes card) (Delivered card) := by
  have one_more (s : Ladder) (lba : UInt32)
      (after : Delivered card (entryStorageDriverRead card s lba)) :
      ∀ i < s.calls + 1, card.outcome i = .delivers := by
    intro i earlier
    apply after i
    rw [entryStorageDriverRead_calls]
    exact earlier
  constructor
  · intro s lba after i earlier
    exact one_more s _ after i (Nat.lt_succ_of_lt earlier)
  · intro s lba after
    have delivers := one_more s _ after s.calls (Nat.lt_succ_self _)
    exact congrArg wordBytes (entryStorageDriverRead_delivers card s _ delivers)

theorem ladder_admitted (d : Device) (b : Build) {bp : Buf}
    (cardUnit : isCardUnit b bp.unit = true) :
    Admitted (ladderDoor card driverWrite) d b (fun _ => True) bp := by
  refine ⟨cardUnit, ?_, ?_⟩
  · intro cow
    have driver : (bp.unit == stMediaDriver) = true := (Bool.and_eq_true_iff.mp cow).2
    exact ⟨by rw [unitBlocks, if_pos driver], fun _ _ _ _ => trivial⟩
  · exact fun _ _ _ _ _ => trivial

/-- A read that completes delivered every block of the request inside the unit, and the
resident pages hold the medium's bytes or those stored since. -/
structure NoStaleBlock (card : Storage.Card) (d : Device) (b : Build)
    (history : List (Buf × Reply)) (bp : Buf) (reply : Reply) (after : State Ladder) : Prop where
  read : bp.isRead = true → reply.error = none → ∀ k < servedBlocks b d bp,
    blockAt 512 reply.data (k * stMediaBlocksize) =
      unitContent b d (cardBytes card) history bp.unit (bp.block + k)
  resident : after.bound = 1 → ∀ page slot,
    Maps (cardGeometry d) after.shadow.entries page slot →
      ∀ k < 8, page * 8 + k < d.selectedCount.toNat →
        slotSector (cardGeometry d) after.shadow.arena slot k =
          expectedBlock (unitMedium (cardBytes card) d.selectedLba.toNat)
            (history ++ [(bp, reply)]) (page * 8 + k)

/-- In a run whose door calls all delivered, nothing stale is served or made resident. -/
theorem delivered_run_serves_no_stale_block (d : Device) (b : Build)
    (noDirectWrite : b.hddWrite = false) (arena : Nat → UInt8) (statics : Ladder)
    (bufs : List Buf) (bp : Buf) (onCard : ∀ asked ∈ bufs ++ [bp], isCardUnit b asked.unit = true) :
    let run := cardRun (ladderDoor card driverWrite) d b arena (firstCall statics) bufs
    let done := stMediaStrategy (ladderDoor card driverWrite) d b run.2 bp
    Delivered card done.2.shadow.world → NoStaleBlock card d b run.1 bp done.1 done.2 := by
  intro run done delivered
  have honest := ladderDoor_honest card driverWrite
  have last := ladder_admitted card driverWrite d b
    (onCard bp (List.mem_append_right _ (List.mem_singleton_self bp)))
  have ready : Ready d (cardBytes card) (Delivered card) (fun _ => True) run.2
      (expectedBlock (unitMedium (cardBytes card) d.selectedLba.toNat) run.1) :=
    card_run honest noDirectWrite arena trivial bufs fun asked member =>
      ladder_admitted card driverWrite d b (onCard asked (List.mem_append_left _ member))
  constructor
  case read =>
    intro isRead success k inside
    obtain ⟨_, moved, _, _, served, _⟩ := strategy_read honest bp last.cardUnit isRead last.limits
      (ready.source bp.unit)
    apply (served delivered).2 k
    rw [moved success]
    exact Nat.mul_lt_mul_of_pos_right inside (by decide)
  case resident =>
    intro bound page slot maps k inPage inside
    have after := (card_step honest noDirectWrite ready last).2
    exact ((after.bound bound).2 delivered).resident page slot maps k inPage inside

end Run

/-- The mount unit, one block, a card that always delivers. -/
theorem delivered_run_serves_no_stale_block_read :
    let card : Storage.Card := ⟨fun lba _ => lba, fun _ => .delivers, fun _ => 0⟩
    let d : Device := ⟨2, 37, 64, false, fun _ => 0, fun _ => 0, 0⟩
    let statics : Ladder := ⟨fun _ => 0, 0, 0, 0, 0, 0, 64, ⟨0, 0, 0, 0, 0, 0, 0, 0, fun _ => 0,
      fun _ => 0⟩, 0, fun _ => none, []⟩
    let bp : Buf := ⟨stMediaDriver, 0, 512, true, false, fun _ => 0⟩
    let door := ladderDoor card fun s _ _ => s
    let done := stMediaStrategy door d (storeBuild false)
      (cardRun door d (storeBuild false) (fun _ => 0) (firstCall statics) []).2 bp
    NoStaleBlock card d (storeBuild false) [] bp done.1 done.2 := by
  intro card d statics bp door done
  exact delivered_run_serves_no_stale_block card (fun s _ _ => s) d (storeBuild false) rfl
    (fun _ => 0) statics [] bp (by simp [isCardUnit, storeBuild, bp]) fun _ _ => rfl

/-- A gated card, and the buffer of zeros served as block 0 of the mount unit. -/
theorem gated_read_serves_stale_block :
    let card : Storage.Card := ⟨fun lba _ => lba, fun _ => .gated, fun _ => 0⟩
    let d : Device := ⟨2, 37, 64, false, fun _ => 0, fun _ => 0, 0⟩
    let statics : Ladder := ⟨fun _ => 0, 0, 0, 0, 0, 0, 64, ⟨0, 0, 0, 0, 0, 0, 0, 0, fun _ => 0,
      fun _ => 0⟩, 0, fun _ => none, []⟩
    let bp : Buf := ⟨stMediaDriver, 0, 512, true, false, fun _ => 0⟩
    let door := ladderDoor card fun s _ _ => s
    let done := stMediaStrategy door d (storeBuild false)
      (cardRun door d (storeBuild false) (fun _ => 0) (firstCall statics) []).2 bp
    ¬ NoStaleBlock card d (storeBuild false) [] bp done.1 done.2 := by
  intro card d statics bp door done served
  have completes : done.1.error = none := by decide
  have one : servedBlocks (storeBuild false) d bp = 1 := by decide
  have block := served.read rfl completes 0 (by rw [one]; decide)
  have medium : unitContent (storeBuild false) d (cardBytes card) [] bp.unit (bp.block + 0) 0 = 2 := by
    decide
  have zero : done.1.data (0 * stMediaBlocksize + (0 : Fin 512)) = 0 := by decide
  have first := congrFun block 0
  rw [medium, blockAt, zero] at first
  exact absurd first (by decide)

end Stage90.Media

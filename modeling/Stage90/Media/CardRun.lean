import Stage90.Lib.Execute
import Stage90.Media.CardRequest

/-!
# Runs of requests to the card units

Builds without the 905 write branch.  The requests may be for the mount unit and for the
raw unit in any order, and the door any that is honest; the shadow then holds what the
history says was stored.
-/

set_option autoImplicit false

namespace Stage90.Media

open Stage90.Lib Stage90.Cow

/-- Before the first request: not bound, over an arena of any contents. -/
def unboundState {σ : Type} (arena : Nat → UInt8) (world : σ) : State σ where
  bound := 0
  shadow := freshShadow ⟨0, 0, 0, 0, 0, 0, 0, 0⟩ arena world
  asked := []

/-- The bytes of `block` of the mount unit in the latest write that reached it. -/
def storedBlock (block : Nat) (history : List (Buf × Reply)) : Option Sector :=
  history.foldl
    (fun last answered =>
      let bp := answered.1
      if bp.unit = stMediaDriver ∧ bp.isRead = false ∧ bp.block ≤ block ∧
          (block - bp.block) * stMediaBlocksize < answered.2.moved then
        some (blockAt 512 bp.data ((block - bp.block) * stMediaBlocksize))
      else last)
    none

def expectedBlock (medium : Nat → Sector) (history : List (Buf × Reply)) (block : Nat) :
    Sector :=
  (storedBlock block history).getD (medium block)

section History
variable (medium : Nat → Sector) (history : List (Buf × Reply)) (bp : Buf) (reply : Reply)

theorem expectedBlock_read (isRead : bp.isRead = true) :
    expectedBlock medium (history ++ [(bp, reply)]) = expectedBlock medium history := by
  funext block
  simp [expectedBlock, storedBlock, List.foldl_append, isRead]

theorem expectedBlock_refused (nothing : reply.moved = 0) :
    expectedBlock medium (history ++ [(bp, reply)]) = expectedBlock medium history := by
  funext block
  simp [expectedBlock, storedBlock, List.foldl_append, nothing]

theorem expectedBlock_write (driver : bp.unit = stMediaDriver) (isWrite : bp.isRead = false)
    {k : Nat} (moved : reply.moved = k * stMediaBlocksize) :
    expectedBlock medium (history ++ [(bp, reply)]) =
      overwrite (expectedBlock medium history) bp.block bp.data 0 k := by
  funext block
  have reached : (block - bp.block) * stMediaBlocksize < k * stMediaBlocksize ↔
      block - bp.block < k := Nat.mul_lt_mul_right (by decide)
  by_cases low : bp.block ≤ block
  · by_cases high : block < bp.block + k
    · have inside : block - bp.block < k := by omega
      simp [expectedBlock, storedBlock, List.foldl_append, overwrite, driver, isWrite, moved, low,
        high, reached, inside]
    · have outside : ¬ block - bp.block < k := by omega
      simp [expectedBlock, storedBlock, List.foldl_append, overwrite, moved, high,
        reached, outside]
  · simp [expectedBlock, storedBlock, List.foldl_append, overwrite, low]

end History

section Plain
variable {σ : Type} (door : Door σ) (d : Device) {b : Build}

/-- A read past the shadow leaves everything but the state behind the door as it was. -/
theorem cardReadLoop_plain (baseLba block left i : Nat) (data : Nat → UInt8) (s : State σ) :
    ∃ world, (cardReadLoop door d false baseLba block left i data s).2.2.2 =
      { s with shadow := { s.shadow with world := world } } := by
  induction left generalizing i data s with
  | zero => exact ⟨s.shadow.world, rfl⟩
  | succ left ih =>
      obtain ⟨world, rest⟩ := ih (i + 1)
        (copyBlock data (i * stMediaBlocksize)
          (door.driverRead s.shadow.world (u32 (u64 (baseLba + block + i)))).1)
        { s with shadow := { s.shadow with
            world := (door.driverRead s.shadow.world (u32 (u64 (baseLba + block + i)))).2 } }
      refine ⟨world, ?_⟩
      simp only [cardReadLoop, cardReadBlock, Bool.false_and, Bool.false_eq_true, if_false]
      exact rest

theorem strategy_plain_read_state (bp : Buf) (cardUnit : isCardUnit b bp.unit = true)
    (isRead : bp.isRead = true) (plain : (b.cardCow && bp.unit == stMediaDriver) = false)
    (s : State σ) :
    ∃ world, (stMediaStrategy door d b s bp).2 =
      { s with shadow := { s.shadow with world := world } } := by
  rcases strategy_card_cases door d b s bp cardUnit with
    ⟨_, e, result⟩ | ⟨_, _, result⟩ | ⟨_, _, result⟩
  · exact ⟨s.shadow.world, by rw [result]⟩
  · exact ⟨s.shadow.world, by rw [result]⟩
  · rw [result]
    simp only [cardStrategy, plain, isRead, Bool.not_true, Bool.and_false, Bool.false_eq_true,
      if_false]
    obtain ⟨world, same⟩ := cardReadLoop_plain door d
      (if (bp.unit == stMediaDriver) = true then d.selectedLba.toNat else 0)
      (bp.blkno.toUInt32.toNat * stMediaBlocksize / stMediaBlocksize)
      (min bp.count.toNat (strategyLen b d bp.unit - bp.offset) / stMediaBlocksize) 0 bp.data s
    refine ⟨world, ?_⟩
    split
    · rename_i loop
      rw [loop] at same
      exact same
    · rename_i loop
      rw [loop] at same
      exact same

theorem strategy_write_refused (bp : Buf) (cardUnit : isCardUnit b bp.unit = true)
    (isWrite : bp.isRead = false) (refused : writable b bp.unit = false) (s : State σ) :
    (stMediaStrategy door d b s bp).1.moved = 0 ∧ (stMediaStrategy door d b s bp).2 = s := by
  have turned : Refused d b bp := Or.inr (Or.inr (Or.inl ⟨isWrite, refused⟩))
  rcases strategy_card_cases door d b s bp cardUnit with
    ⟨_, e, result⟩ | ⟨accepted, _⟩ | ⟨accepted, _⟩
  · rw [result]
    exact ⟨rfl, rfl⟩
  · exact absurd turned accepted
  · exact absurd turned accepted

end Plain

section Run
variable {σ : Type} {door : Door σ} {d : Device} {b : Build} {card : Nat → Sector}
  {good safe : σ → Prop}

theorem Ready.withWorld {s : State σ} {content : Nat → Sector}
    (ready : Ready d card good safe s content) {world : σ}
    (back : good world → good s.shadow.world) (kept : safe world) :
    Ready d card good safe { s with shadow := { s.shadow with world := world } } content := by
  constructor
  case state =>
    rcases ready.state with ⟨unbound, untouched, same⟩ | ⟨bound, sound, mirrors⟩
    · exact Or.inl ⟨unbound, untouched, same⟩
    · refine Or.inr ⟨bound, ?_, fun after => mirrors (back after)⟩
      exact ⟨sound.shape, sound.table, sound.used_le, sound.dirty_eq, sound.inside⟩
  case asked => exact ready.asked
  case world => exact kept

structure Admitted (door : Door σ) (d : Device) (b : Build) (safe : σ → Prop) (bp : Buf) : Prop where
  cardUnit : isCardUnit b bp.unit = true
  limits : Limits door d safe (b.cardCow && bp.unit == stMediaDriver) (unitBase d bp.unit)
    (unitBlocks d bp.unit)

/-- Where a read of the unit gets its blocks after `history`. -/
def unitContent (b : Build) (d : Device) (card : Nat → Sector) (history : List (Buf × Reply))
    (unit : Nat) : Nat → Sector :=
  if b.cardCow && unit == stMediaDriver then
    expectedBlock (unitMedium card d.selectedLba.toNat) history
  else unitMedium card (unitBase d unit)

theorem Ready.source {s : State σ} {history : List (Buf × Reply)}
    (ready : Ready d card good safe s (expectedBlock (unitMedium card d.selectedLba.toNat) history))
    (unit : Nat) :
    Source d card good safe (b.cardCow && unit == stMediaDriver) (unitBase d unit) s
      (unitContent b d card history unit) := by
  constructor
  · intro cow
    rw [unitContent, if_pos cow]
    exact ready
  · intro plain
    have notCow : ¬ (b.cardCow && unit == stMediaDriver) = true := by
      rw [plain]
      exact Bool.false_ne_true
    exact ⟨by rw [unitContent, if_neg notCow], ready.world⟩

/-- One request: the shadow follows the history, and the door was good before if it is after. -/
theorem card_step (honest : HonestDoor door card good) (noDirectWrite : b.hddWrite = false)
    {history : List (Buf × Reply)} {s : State σ}
    (ready : Ready d card good safe s (expectedBlock (unitMedium card d.selectedLba.toNat) history))
    {bp : Buf} (admitted : Admitted door d b safe bp) :
    let done := stMediaStrategy door d b s bp
    (good done.2.shadow.world → good s.shadow.world) ∧
      Ready d card good safe done.2
        (expectedBlock (unitMedium card d.selectedLba.toNat) (history ++ [(bp, done.1)])) := by
  intro done
  cases direction : bp.isRead with
  | true =>
      rw [expectedBlock_read _ _ _ _ direction]
      obtain ⟨_, _, _, source, served, _⟩ := strategy_read honest bp admitted.cardUnit direction
        admitted.limits (ready.source bp.unit)
      have back : good done.2.shadow.world → good s.shadow.world := fun after => (served after).1
      refine ⟨back, ?_⟩
      cases cow : (b.cardCow && bp.unit == stMediaDriver) with
      | true =>
          have after := source.shadow cow
          rwa [unitContent, if_pos cow] at after
      | false =>
          obtain ⟨world, same⟩ := strategy_plain_read_state door d bp
            admitted.cardUnit direction cow s
          have same : done.2 = { s with shadow := { s.shadow with world := world } } := same
          have kept : safe done.2.shadow.world := (source.plain cow).2
          rw [same] at back kept ⊢
          exact ready.withWorld back kept
  | false =>
      by_cases cow : (b.cardCow && bp.unit == stMediaDriver) = true
      · obtain ⟨cardCow, driver⟩ := Bool.and_eq_true_iff.mp cow
        have driver : bp.unit = stMediaDriver := by simpa using driver
        obtain ⟨_, back, k, _, moved, after⟩ := strategy_cow_write honest
          (admitted.limits.shadow cow).2 bp cardCow driver direction ready
        refine ⟨back, ?_⟩
        rw [expectedBlock_write _ _ _ _ driver direction moved]
        exact after
      · have refused : writable b bp.unit = false := by
          simpa [writable, noDirectWrite] using cow
        obtain ⟨nothing, same⟩ := strategy_write_refused door d bp
          admitted.cardUnit direction refused s
        have same : done.2 = s := same
        rw [expectedBlock_refused _ _ _ _ nothing, same]
        exact ⟨id, ready⟩

def cardRun (door : Door σ) (d : Device) (b : Build) (arena : Nat → UInt8) (world : σ)
    (bufs : List Buf) : List (Buf × Reply) × State σ :=
  execute (stMediaStrategy door d b) (unboundState arena world) bufs

theorem card_run (honest : HonestDoor door card good) (noDirectWrite : b.hddWrite = false)
    (arena : Nat → UInt8) {world : σ} (start : safe world) (bufs : List Buf)
    (admitted : ∀ bp ∈ bufs, Admitted door d b safe bp) :
    Ready d card good safe (cardRun door d b arena world bufs).2
      (expectedBlock (unitMedium card d.selectedLba.toNat)
        (cardRun door d b arena world bufs).1) := by
  apply execute_induction_mem (fun history s =>
    Ready d card good safe s (expectedBlock (unitMedium card d.selectedLba.toNat) history))
  · exact ⟨Or.inl ⟨rfl, rfl, rfl⟩, by simp [unboundState], start⟩
  · intro history s bp member ready
    exact (card_step honest noDirectWrite ready (admitted bp member)).2

end Run

end Stage90.Media

import Stage90.Media.FailedWrite

/-!
# The card under the two write branches

A door onto a card whose blocks change only by the writes it is handed.  In the 905 build the
mount unit is the card itself: after any run the card holds the latest bytes written to each block
of the partition, and both units read it.  In the 968 build no run changes the card, and the raw
unit reads what it held at the start.
-/

set_option autoImplicit false

namespace Stage90.Media

open Stage90.Lib Stage90.Cow

/-- `content` is what the card holds: a read delivers a block of it and a write replaces one. -/
structure OnCard {σ : Type} (door : Door σ) (content : σ → Nat → Sector) : Prop where
  read : ∀ world lba, (door.driverRead world lba).1 = content world lba
  read_keeps : ∀ world lba, content (door.driverRead world lba).2 = content world
  write : ∀ world lba bytes,
    content (door.driverWrite world lba bytes) = Function.update (content world) lba bytes

def mountLba (d : Device) (block : Nat) : Nat := u32 (u64 (d.selectedLba.toNat + block))

theorem mountLba_lt (d : Device) (block : Nat) : mountLba d block < 2 ^ 32 := u32_lt _

theorem mountLba_inj (d : Device) {x y : Nat} (hx : x < 2 ^ 32) (hy : y < 2 ^ 32)
    (same : mountLba d x = mountLba d y) : x = y := by
  have base := d.selectedLba.toNat_lt
  unfold mountLba at same
  rw [u64_of_lt (by omega), u64_of_lt (by omega)] at same
  unfold u32 at same
  omega

/-- Every LBA is that of one block, counted from the partition's first. -/
theorem mountLba_sub (d : Device) {lba : Nat} (small : lba < 2 ^ 32) :
    mountLba d (sub32 lba d.selectedLba.toNat) = lba := by
  have base := d.selectedLba.toNat_lt
  have block := u32_lt (lba + (2 ^ 32 - u32 d.selectedLba.toNat))
  unfold mountLba sub32
  rw [u64_of_lt (by omega)]
  unfold u32
  omega

section Elsewhere
variable {σ : Type} (door : Door σ) (d : Device) {b : Build}

theorem write_elsewhere (bp : Buf) (other : bp.unit ≠ stMediaDriver) (isWrite : bp.isRead = false)
    (s : State σ) : (stMediaStrategy door d b s bp).2 = s := by
  by_cases card : isCardUnit b bp.unit = true
  · have refused : writable b bp.unit = false := by simp [writable, other]
    exact (strategy_write_refused door d bp card isWrite refused s).2
  · exact strategy_array_state (Bool.eq_false_iff.mpr card)

end Elsewhere

section Card
variable {σ : Type} {door : Door σ} {content : σ → Nat → Sector} {d : Device} {b : Build}

theorem OnCard.honest (on : OnCard door content) (card : Nat → Sector) :
    HonestDoor door card fun world => content world = card := by
  constructor
  · intro world lba after
    rwa [on.read_keeps] at after
  · intro world lba after
    rw [on.read_keeps] at after
    rw [on.read, after]

theorem OnCard.keeps (on : OnCard door content) (card : Nat → Sector) (baseLba count : Nat) :
    KeepsSafe door baseLba count fun world => content world = card := by
  intro world block _ before
  rw [on.read_keeps, before]

theorem driverWriteLoop_content (on : OnCard door content) (block : Nat) (data : Nat → UInt8)
    (left i : Nat) (inside : block + (i + left) ≤ 2 ^ 32) (s : State σ) {at_ : Nat}
    (small : at_ < 2 ^ 32) :
    content (driverWriteLoop door d.selectedLba.toNat block data left i s).shadow.world
        (mountLba d at_) =
      overwrite (fun at_ => content s.shadow.world (mountLba d at_)) block data i (i + left)
        at_ := by
  induction left generalizing i s with
  | zero => rw [Nat.add_zero, overwrite_self, driverWriteLoop]
  | succ left ih =>
      have lba : u32 (u64 (d.selectedLba.toNat + block + i)) = mountLba d (block + i) := by
        rw [mountLba, Nat.add_assoc]
      have landed : ∀ at_ < 2 ^ 32,
          content (door.driverWrite s.shadow.world (mountLba d (block + i))
              (blockAt 512 data (i * stMediaBlocksize))) (mountLba d at_) =
            Function.update (fun at_ => content s.shadow.world (mountLba d at_)) (block + i)
              (blockAt 512 data (i * stMediaBlocksize)) at_ := by
        intro at_ small
        rw [on.write]
        by_cases same : at_ = block + i
        · rw [same, Function.update_self, Function.update_self]
        · have apart : mountLba d at_ ≠ mountLba d (block + i) := fun equal =>
            same (mountLba_inj d small (by omega) equal)
          rw [Function.update_of_ne apart, Function.update_of_ne same]
      rw [driverWriteLoop, lba, ih (i + 1) (by omega)]
      rw [← overwrite_step _ _ _ (show i < i + (left + 1) by omega)]
      rw [Nat.add_right_comm i 1 left, Nat.add_assoc]
      simp only [overwrite]
      split
      · rfl
      · exact landed at_ small

/-! ## Runs of the builds without that branch -/

/-- The mount unit of a build without the ladder does not exist. -/
theorem strategy_no_driver (bp : Buf) (driver : bp.unit = stMediaDriver)
    (other : isCardUnit b bp.unit = false) (s : State σ) :
    (stMediaStrategy door d b s bp).1.moved = 0 := by
  have absent : bp.unit ≥ stMediaDisks b := by
    have noLadder : b.emmcStrategy = false := by simpa [isCardUnit, driver] using other
    simp [driver, stMediaDisks, noLadder, stMediaDriver]
  rw [stMediaStrategy, if_pos absent]

section Shadow
variable {card : Nat → Sector} {good safe : σ → Prop} (honest : HonestDoor door card good)
  (keeps : ∀ baseLba count, KeepsSafe door baseLba count safe) (noDirectWrite : b.hddWrite = false)
include honest keeps noDirectWrite

theorem shadow_step {history : List (Buf × Reply)} {s : State σ}
    (ready : Ready d card good safe s (expectedBlock (unitMedium card d.selectedLba.toNat) history))
    (bp : Buf) :
    let done := stMediaStrategy door d b s bp
    Ready d card good safe done.2
      (expectedBlock (unitMedium card d.selectedLba.toNat) (history ++ [(bp, done.1)])) := by
  intro done
  cases unit : isCardUnit b bp.unit with
  | true =>
      refine (card_step honest noDirectWrite ready ⟨unit, fun cow => ⟨?_, keeps _ _⟩,
        fun _ => keeps _ _⟩).2
      rw [unitBlocks, if_pos (Bool.and_eq_true_iff.mp cow).2]
  | false =>
      have same : done.2 = s := strategy_array_state unit
      rw [same]
      by_cases driver : bp.unit = stMediaDriver
      · rwa [expectedBlock_refused _ _ _ _ (strategy_no_driver bp driver unit s)]
      · rwa [expectedBlock_other _ _ _ driver]

theorem shadow_run (arena : Nat → UInt8) {world : σ} (start : safe world) (bufs : List Buf) :
    let run := cardRun door d b arena world bufs
    Ready d card good safe run.2
      (expectedBlock (unitMedium card d.selectedLba.toNat) run.1) := by
  intro run
  apply execute_induction (fun history (s : State σ) =>
    Ready d card good safe s (expectedBlock (unitMedium card d.selectedLba.toNat) history))
  · exact ⟨Or.inl ⟨rfl, rfl, rfl⟩, by simp [unboundState], start⟩
  · intro history s bp ready
    exact shadow_step honest keeps noDirectWrite ready bp

end Shadow

/-! ## Runs of the 905 build -/

def landed (d : Device) (card : Nat → Sector) (history : List (Buf × Reply)) (lba : Nat) : Sector :=
  (storedBlock (sub32 lba d.selectedLba.toNat) history).getD (card lba)

theorem landed_mount (d : Device) (card : Nat → Sector) (history : List (Buf × Reply)) {block : Nat}
    (small : block < 2 ^ 32) :
    landed d card history (mountLba d block) =
      expectedBlock (unitMedium card d.selectedLba.toNat) history block := by
  have same : sub32 (mountLba d block) d.selectedLba.toNat = block :=
    mountLba_inj d (u32_lt _) small (mountLba_sub d (u32_lt _))
  rw [landed, same]
  rfl

def Follows (d : Device) (card : Nat → Sector) (history : List (Buf × Reply)) (now : Nat → Sector) :
    Prop :=
  ∀ lba < 2 ^ 32, now lba = landed d card history lba

theorem follows_iff {d : Device} {card : Nat → Sector} {history : List (Buf × Reply)}
    {now : Nat → Sector} :
    Follows d card history now ↔ ∀ block < 2 ^ 32, now (mountLba d block) =
      expectedBlock (unitMedium card d.selectedLba.toNat) history block := by
  constructor
  · intro follows block small
    rw [follows _ (mountLba_lt d block), landed_mount d card history small]
  · intro blocks lba small
    have block : sub32 lba d.selectedLba.toNat < 2 ^ 32 := u32_lt _
    rw [← mountLba_sub d small, blocks _ block, landed_mount d card history block]

variable (direct : b.hddWrite = true)
include direct

theorem direct_units : b.emmcStrategy = true ∧ b.cardCow = false :=
  ⟨b.hddWrite_needs direct, Bool.eq_false_iff.mpr fun cow => b.one_write_branch ⟨cow, direct⟩⟩

theorem direct_driver {unit : Nat} (driver : unit = stMediaDriver) : isCardUnit b unit = true := by
  simp [isCardUnit, (direct_units direct).1, driver]

/-- A read of a card unit delivers what the card holds, and no read changes it. -/
theorem direct_read (on : OnCard door content) (bp : Buf) (isRead : bp.isRead = true)
    (s : State σ) :
    let done := stMediaStrategy door d b s bp
    content done.2.shadow.world = content s.shadow.world ∧ (isCardUnit b bp.unit = true →
      (done.1.error = none ↔ ¬ Refused d b bp) ∧
        (done.1.error = none → done.1.moved = servedBlocks b d bp * stMediaBlocksize) ∧
        (done.1.error ≠ none → done.1.moved = 0) ∧
        ∀ k, k * stMediaBlocksize < done.1.moved →
          blockAt 512 done.1.data (k * stMediaBlocksize) =
            unitMedium (content s.shadow.world) (unitBase d bp.unit) (bp.block + k)) := by
  intro done
  have plain : (b.cardCow && bp.unit == stMediaDriver) = false := by
    rw [(direct_units direct).2, Bool.false_and]
  rw [← Bool.not_eq_true] at plain
  cases card : isCardUnit b bp.unit with
  | true =>
      let same world := content world = content s.shadow.world
      have before : Source d (content s.shadow.world) same same
          (b.cardCow && bp.unit == stMediaDriver) (unitBase d bp.unit) s
          (unitMedium (content s.shadow.world) (unitBase d bp.unit)) :=
        ⟨fun cow => absurd cow plain, fun _ => ⟨rfl, rfl⟩⟩
      obtain ⟨accepted, whole, nothing, source, served, _⟩ := strategy_read
        (on.honest (content s.shadow.world)) bp card isRead
        ⟨fun cow => absurd cow plain, fun _ => on.keeps _ _ _⟩ before
      have same := (source.plain (Bool.eq_false_iff.mpr plain)).2
      exact ⟨same, fun _ => ⟨accepted, whole, nothing, (served same).2⟩⟩
  | false =>
      have same : done.2 = s := strategy_array_state card
      exact ⟨by rw [same], fun unit => absurd unit Bool.false_ne_true⟩

/-- A write of the mount unit that is not turned away lands whole. -/
theorem direct_write (on : OnCard door content) (bp : Buf) (driver : bp.unit = stMediaDriver)
    (isWrite : bp.isRead = false) (s : State σ) :
    let done := stMediaStrategy door d b s bp
    (done.1.error = none ↔ ¬ Refused d b bp) ∧
      (done.1.error = none → done.1.moved = servedBlocks b d bp * stMediaBlocksize) ∧
      (done.1.error ≠ none → done.1.moved = 0) ∧
      ∃ k, done.1.moved = k * stMediaBlocksize ∧ (0 < k → bp.block + k ≤ d.selectedCount.toNat) ∧
        ∀ block < 2 ^ 32, content done.2.shadow.world (mountLba d block) =
          overwrite (fun block => content s.shadow.world (mountLba d block)) bp.block bp.data 0 k
            block := by
  intro done
  rcases strategy_card_cases door d b s bp (direct_driver direct driver) with
    ⟨refused, e, result⟩ | ⟨accepted, atEnd, result⟩ | ⟨accepted, inside, result⟩
  · rw [show done = _ from result]
    refine ⟨by simp [refused], by simp, by simp, 0, by simp, by simp, fun block _ => ?_⟩
    rw [overwrite_self]
  · have nothing : servedBlocks b d bp = 0 := by simp [servedBlocks, atEnd]
    rw [show done = _ from result, nothing]
    refine ⟨by simp [accepted], by simp, by simp, 0, by simp, by simp, fun block _ => ?_⟩
    rw [overwrite_self]
  · have blocks := served_inside b d bp (direct_driver direct driver) inside
    rw [unitBlocks, if_pos (by simp [driver])] at blocks
    have limit := d.selectedCount.toNat_lt
    have taken : cardStrategy door d b bp s
        (min bp.count.toNat (strategyLen b d bp.unit - bp.offset)) =
          (⟨none, some (sub32 bp.count.toNat
              (min bp.count.toNat (strategyLen b d bp.unit - bp.offset))), bp.data,
              servedBlocks b d bp * stMediaBlocksize⟩,
            driverWriteLoop door d.selectedLba.toNat bp.block bp.data (servedBlocks b d bp) 0
              s) := by
      have block : bp.blkno.toUInt32.toNat * stMediaBlocksize / stMediaBlocksize = bp.block :=
        block_eq bp
      simp only [cardStrategy, block, (direct_units direct).2, direct, isWrite, driver,
        Bool.false_and, Bool.false_eq_true, if_false, Bool.not_false, Bool.true_and, if_true,
        beq_self_eq_true, servedBlocks]
    rw [show done = _ from result, taken]
    refine ⟨by simp [accepted], fun _ => rfl, by simp, servedBlocks b d bp, rfl, fun _ => blocks,
      ?_⟩
    intro block small
    rw [driverWriteLoop_content on bp.block bp.data (servedBlocks b d bp) 0 (by omega) s small,
      Nat.zero_add]

theorem direct_step (on : OnCard door content) {card : Nat → Sector} {history : List (Buf × Reply)}
    {s : State σ} (follows : Follows d card history (content s.shadow.world)) (bp : Buf) :
    let done := stMediaStrategy door d b s bp
    Follows d card (history ++ [(bp, done.1)]) (content done.2.shadow.world) := by
  intro done
  rw [follows_iff] at follows ⊢
  intro block small
  -- the writes of the mount unit extend the history, and nothing else reaches the card
  cases direction : bp.isRead with
  | true =>
      rw [expectedBlock_read _ _ _ _ direction, (direct_read direct on bp direction s).1]
      exact follows block small
  | false =>
      by_cases driver : bp.unit = stMediaDriver
      · obtain ⟨_, _, _, k, moved, _, lands⟩ :=
          direct_write (d := d) direct on bp driver direction s
        rw [expectedBlock_write _ _ _ _ driver direction moved, lands block small]
        simp only [overwrite]
        split
        · rfl
        · exact follows block small
      · have same : done.2 = s := write_elsewhere door d bp driver direction s
        rw [expectedBlock_other _ _ _ driver, same]
        exact follows block small

def Contained (d : Device) (history : List (Buf × Reply)) : Prop :=
  ∀ block, d.selectedCount.toNat ≤ block → storedBlock block history = none

theorem contained_step (on : OnCard door content) {history : List (Buf × Reply)} {s : State σ}
    (contained : Contained d history) (bp : Buf) :
    Contained d (history ++ [(bp, (stMediaStrategy door d b s bp).1)]) := by
  intro block beyond
  rw [storedBlock, List.foldl_append]
  simp only [List.foldl_cons, List.foldl_nil]
  rw [if_neg]
  · exact contained block beyond
  · rintro ⟨driver, isWrite, low, reached⟩
    obtain ⟨_, _, _, k, moved, inside, _⟩ := direct_write (d := d) direct on bp driver isWrite s
    rw [moved] at reached
    have high := Nat.lt_of_mul_lt_mul_right reached
    have := inside (by omega)
    omega

theorem direct_run (on : OnCard door content) (arena : Nat → UInt8) (world : σ) (bufs : List Buf) :
    let run := cardRun door d b arena world bufs
    Follows d (content world) run.1 (content run.2.shadow.world) ∧ Contained d run.1 := by
  intro run
  apply execute_induction (fun history (s : State σ) =>
    Follows d (content world) history (content s.shadow.world) ∧ Contained d history)
  · exact ⟨fun lba _ => rfl, fun block _ => rfl⟩
  · rintro history s bp ⟨follows, contained⟩
    exact ⟨direct_step direct on follows bp, contained_step direct on contained bp⟩

end Card

/-- What a card unit answers after a run of the 905 build, and what the card holds before and
after its answer. -/
structure WritesThrough (b : Build) (d : Device) (card : Nat → Sector)
    (history : List (Buf × Reply)) (before after : Nat → Sector) (bp : Buf) (reply : Reply) :
    Prop where
  held : ∀ lba < 2 ^ 32, before lba = landed d card history lba
  outside : ∀ lba < 2 ^ 32, (∀ block < d.selectedCount.toNat, lba ≠ mountLba d block) →
    before lba = card lba
  accepted : reply.error = none ↔ ¬ Refused d b bp
  whole : reply.error = none → reply.moved = servedBlocks b d bp * stMediaBlocksize
  nothing : reply.error ≠ none → reply.moved = 0 ∧ ∀ lba < 2 ^ 32, after lba = before lba
  read : bp.isRead = true → after = before ∧ ∀ k, k * stMediaBlocksize < reply.moved →
    blockAt 512 reply.data (k * stMediaBlocksize) =
      landed d card history (u32 (u64 (unitBase d bp.unit + (bp.block + k))))

/-- In the 905 build the mount unit and the raw unit are two views of one card, which holds the
latest bytes written to each block of the partition and is otherwise as it was. -/
theorem card_writes_through {σ : Type} {door : Door σ} {content : σ → Nat → Sector} (d : Device)
    {b : Build} (direct : b.hddWrite = true) (on : OnCard door content) (arena : Nat → UInt8)
    (world : σ) (bufs : List Buf) (bp : Buf) (unit : isCardUnit b bp.unit = true) :
    let run := cardRun door d b arena world bufs
    let done := stMediaStrategy door d b run.2 bp
    WritesThrough b d (content world) run.1 (content run.2.shadow.world)
      (content done.2.shadow.world) bp done.1 := by
  intro run done
  obtain ⟨follows, contained⟩ := direct_run (d := d) direct on arena world bufs
  have outside : ∀ lba < 2 ^ 32, (∀ block < d.selectedCount.toNat, lba ≠ mountLba d block) →
      content run.2.shadow.world lba = content world lba := by
    intro lba small spared
    rw [follows lba small, landed, contained, Option.getD_none]
    by_contra inside
    exact spared _ (Nat.lt_of_not_le inside) (mountLba_sub d small).symm
  cases direction : bp.isRead with
  | true =>
      obtain ⟨same, card⟩ := direct_read (d := d) direct on bp direction run.2
      obtain ⟨accepted, whole, nothing, served⟩ := card unit
      refine ⟨follows, outside, accepted, whole, fun failed => ⟨nothing failed, fun _ _ => ?_⟩,
        fun _ => ⟨same, fun k inside => ?_⟩⟩
      · exact congrFun same _
      · rw [show blockAt 512 done.1.data _ = _ from served k inside, unitMedium,
          follows _ (u32_lt _)]
  | false =>
      by_cases driver : bp.unit = stMediaDriver
      · obtain ⟨accepted, whole, nothing, k, moved, _, lands⟩ :=
          direct_write (d := d) direct on bp driver direction run.2
        refine ⟨follows, outside, accepted, whole, fun failed => ⟨nothing failed, ?_⟩,
          fun isRead => absurd isRead (by simp [direction])⟩
        intro lba small
        have none_ : k = 0 := by
          rw [nothing failed] at moved
          exact (Nat.mul_eq_zero.mp moved.symm).resolve_right (by decide)
        have block : sub32 lba d.selectedLba.toNat < 2 ^ 32 := u32_lt _
        rw [← mountLba_sub d small]
        rw [show content done.2.shadow.world _ = _ from lands _ block, none_, overwrite_self]
      · have refused : Refused d b bp :=
          Or.inr (Or.inr (Or.inl ⟨direction, by simp [writable, driver]⟩))
        have same : done.2 = run.2 := write_elsewhere door d bp driver direction run.2
        obtain ⟨failed, nothing⟩ : done.1.error ≠ none ∧ done.1.moved = 0 := by
          rcases strategy_card_cases door d b run.2 bp unit with
            ⟨_, e, result⟩ | ⟨accepted, _⟩ | ⟨accepted, _⟩
          · rw [show done = _ from result]
            exact ⟨by simp, rfl⟩
          · exact absurd refused accepted
          · exact absurd refused accepted
        refine ⟨follows, outside, by simp [failed, refused], fun success => absurd success failed,
          fun _ => ⟨nothing, fun _ _ => by rw [same]⟩,
          fun isRead => absurd isRead (by simp [direction])⟩

def memoryDoor : Door (Nat → Sector) where
  driverRead card lba := (card lba, card)
  driverWrite card lba bytes := Function.update card lba bytes

theorem memoryDoor_onCard : OnCard memoryDoor id :=
  ⟨fun _ _ => rfl, fun _ _ => rfl, fun _ _ _ => rfl⟩

def directBuild : Build where
  emmcStrategy := true
  cardTotal := true
  fullExtent := true
  cardCow := false
  hddWrite := true
  cardTotal_needs := fun _ => rfl
  fullExtent_needs := fun _ => rfl
  cardCow_needs := fun _ => rfl
  hddWrite_needs := fun _ => rfl
  one_write_branch := by decide

/-- A partition of 37 sectors at LBA 2: a write across its end, then its last LBA raw. -/
theorem card_writes_through_straddle :
    let d : Device := ⟨2, 37, 64, false, fun _ => 0, fun _ => 0, 0⟩
    let write : Buf := ⟨stMediaDriver, 36, 1024, false, false, fun _ => 7⟩
    let read : Buf := ⟨stMediaCardRaw, 38, 512, true, false, fun _ => 0⟩
    let card : Nat → Sector := fun lba _ => UInt8.ofNat lba
    let run := cardRun memoryDoor d directBuild (fun _ => 0) card [write]
    let done := stMediaStrategy memoryDoor d directBuild run.2 read
    WritesThrough directBuild d card run.1 run.2.shadow.world done.2.shadow.world read done.1 :=
  card_writes_through _ rfl memoryDoor_onCard _ _ _ _ rfl

/-- In a build without the 905 branch no request changes the card.  The raw unit reads what it
held at the start, and the mount unit of a 968 build the latest bytes written over that. -/
theorem card_left_alone {σ : Type} {door : Door σ} {content : σ → Nat → Sector} (d : Device)
    {b : Build} (noDirectWrite : b.hddWrite = false) (on : OnCard door content)
    (arena : Nat → UInt8) (world : σ) (bufs : List Buf) (bp : Buf) :
    let run := cardRun door d b arena world bufs
    let done := stMediaStrategy door d b run.2 bp
    content done.2.shadow.world = content world ∧
      (isCardUnit b bp.unit = true → bp.isRead = true →
        (done.1.error = none ↔ ¬ Refused d b bp) ∧
          ∀ k, k * stMediaBlocksize < done.1.moved →
            blockAt 512 done.1.data (k * stMediaBlocksize) =
              unitContent b d (content world) run.1 bp.unit (bp.block + k)) := by
  intro run done
  have honest := on.honest (content world)
  have keeps := on.keeps (content world)
  have ready := shadow_run (d := d) honest keeps noDirectWrite arena rfl bufs
  have kept := (shadow_step honest keeps noDirectWrite ready bp).world
  refine ⟨kept, fun unit isRead => ?_⟩
  have limits : Limits door d (fun now => content now = content world)
      (b.cardCow && bp.unit == stMediaDriver) (unitBase d bp.unit) (unitBlocks d bp.unit) := by
    refine ⟨fun cow => ⟨?_, keeps _ _⟩, fun _ => keeps _ _⟩
    rw [unitBlocks, if_pos (Bool.and_eq_true_iff.mp cow).2]
  obtain ⟨accepted, _, _, _, served, _⟩ :=
    strategy_read honest bp unit isRead limits (ready.source bp.unit)
  exact ⟨accepted, (served kept).2⟩

/-- The same partition in a 968 build: a write of its last block, then the raw unit there. -/
theorem card_left_alone_raw :
    let d : Device := ⟨2, 37, 64, false, fun _ => 0, fun _ => 0, 0⟩
    let write : Buf := ⟨stMediaDriver, 36, 512, false, false, fun _ => 7⟩
    let read : Buf := ⟨stMediaCardRaw, 38, 512, true, false, fun _ => 0⟩
    let card : Nat → Sector := fun lba _ => UInt8.ofNat lba
    let run := cardRun memoryDoor d (storeBuild true) (fun _ => 0) card [write]
    let done := stMediaStrategy memoryDoor d (storeBuild true) run.2 read
    done.2.shadow.world = card ∧
      (isCardUnit (storeBuild true) read.unit = true → read.isRead = true →
        (done.1.error = none ↔ ¬ Refused d (storeBuild true) read) ∧
          ∀ k, k * stMediaBlocksize < done.1.moved →
            blockAt 512 done.1.data (k * stMediaBlocksize) =
              unitContent (storeBuild true) d card run.1 read.unit (read.block + k)) :=
  card_left_alone _ rfl memoryDoor_onCard _ _ _ _

end Stage90.Media

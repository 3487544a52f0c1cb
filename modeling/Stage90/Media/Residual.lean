import Stage90.Media.Capacity

/-!
# The residual of a request

What `buf_count` less the residual says has been moved, against what the strategy has moved: for
every unit, request and state.  The array units move the trimmed count.  The card units move whole
blocks of it, and the end of the medium leaves the residual that the caller's buffer came with.
-/

set_option autoImplicit false

namespace Stage90.Media

open Stage90.Lib Stage90.Cow

section Loops
variable {σ : Type} (door : Door σ) (d : Device)

/-- The blocks that the write loop puts to the shadow, each to prepare and to store. -/
def writeRun (block : Nat) (i left : Nat) : List Nat :=
  (List.range' i left).flatMap fun k => [u64 (block + k), u64 (block + k)]

theorem cowWriteLoop_ok (block : Nat) (data : Nat → UInt8) (left i : Nat) (s : State σ)
    (success : (cowWriteLoop door d block data left i s).1 = .ok) :
    (cowWriteLoop door d block data left i s).2.1 = i + left ∧
      (cowWriteLoop door d block data left i s).2.2.asked = s.asked ++ writeRun block i left := by
  induction left generalizing i s with
  | zero => simp [cowWriteLoop, writeRun]
  | succ left ih =>
      simp only [cowWriteLoop] at success ⊢
      split_ifs at success ⊢ with refused failed
      · exact absurd success refused
      · exact absurd success failed
      · obtain ⟨stops, asked⟩ := ih (i + 1) _ success
        refine ⟨by omega, ?_⟩
        rw [asked, writeRun, writeRun, List.range'_succ]
        simp

/-- The medium behind the door after blocks `i` to `i + left` of the map. -/
theorem driverWriteLoop_world (baseLba block : Nat) (data : Nat → UInt8) (left i : Nat)
    (s : State σ) : (driverWriteLoop door baseLba block data left i s).shadow.world =
      (List.range' i left).foldl (fun world k =>
        door.driverWrite world (u32 (u64 (baseLba + block + k)))
          (blockAt 512 data (k * stMediaBlocksize))) s.shadow.world := by
  induction left generalizing i s with
  | zero => rfl
  | succ left ih =>
      rw [driverWriteLoop, List.range'_succ, List.foldl_cons]
      exact ih (i + 1) _

theorem cardReadBlock_copies (cow : Bool) (baseLba block i : Nat) (data : Nat → UInt8)
    (s : State σ) : (cardReadBlock door d cow baseLba block i data s).2.1 = data ∨
      ∃ bytes : Sector, (cardReadBlock door d cow baseLba block i data s).2.1 =
        copyBlock data (i * stMediaBlocksize) bytes := by
  unfold cardReadBlock
  dsimp only
  generalize (if cow = true then stCowEnsureBound d s else s) = s'
  split
  · rcases (stCowReadSector sizeTBits (stCowBaseRead door d) _ _ _).2.1 with _ | bytes
    · exact .inl rfl
    · exact .inr ⟨bytes, rfl⟩
  · exact .inr ⟨_, rfl⟩

theorem cardReadBlock_outside (cow : Bool) (baseLba block i : Nat) (data : Nat → UInt8)
    (s : State σ) {a : Nat} (away : a < i * stMediaBlocksize ∨ (i + 1) * stMediaBlocksize ≤ a) :
    (cardReadBlock door d cow baseLba block i data s).2.1 a = data a := by
  rcases cardReadBlock_copies door d cow baseLba block i data s with same | ⟨bytes, copied⟩
  · rw [same]
  · rw [copied]
    refine copyBlock_apply_outside data _ a bytes ?_
    rw [Nat.add_mul] at away
    simpa [stMediaBlocksize] using away

/-- The read loop goes on from block to block, and each block stays as its turn has left it. -/
theorem cardReadLoop_turns (cow : Bool) (baseLba block left i : Nat) (data : Nat → UInt8)
    (s : State σ) (success : (cardReadLoop door d cow baseLba block left i data s).1 = true) :
    (∀ a, a < i * stMediaBlocksize ∨ (i + left) * stMediaBlocksize ≤ a →
      (cardReadLoop door d cow baseLba block left i data s).2.2.1 a = data a) ∧
    ∀ k < left, ∃ before : (Nat → UInt8) × State σ,
      cardReadLoop door d cow baseLba block k i data s = (true, i + k, before) ∧
        (cardReadBlock door d cow baseLba block (i + k) before.1 before.2).1 = true ∧
        blockAt 512 (cardReadLoop door d cow baseLba block left i data s).2.2.1
            ((i + k) * stMediaBlocksize) =
          blockAt 512 (cardReadBlock door d cow baseLba block (i + k) before.1 before.2).2.1
            ((i + k) * stMediaBlocksize) := by
  induction left generalizing i data s with
  | zero => exact ⟨fun _ _ => rfl, fun k below => absurd below (Nat.not_lt_zero k)⟩
  | succ left ih =>
      have outside := @cardReadBlock_outside σ door d cow baseLba block i data s
      rw [cardReadLoop] at success ⊢
      rcases turn : cardReadBlock door d cow baseLba block i data s with ⟨ok, data₁, s₁⟩
      rw [turn] at success outside
      cases ok with
      | false => exact absurd success (by simp)
      | true =>
          obtain ⟨rest, turns⟩ := ih (i + 1) data₁ s₁ success
          refine ⟨fun a away => ?_, fun k below => ?_⟩
          · have parts := outside_block away
            exact (rest a parts.1).trans (outside (by
              rcases away with low | high
              · exact .inl low
              · refine .inr (Nat.le_trans (Nat.mul_le_mul_right _ ?_) high)
                omega))
          · cases k with
            | zero =>
                refine ⟨(data, s), rfl, by rw [Nat.add_zero, turn], ?_⟩
                simp only [Nat.add_zero, turn]
                refine blockAt_congr fun a low high => rest a (.inl ?_)
                rw [Nat.add_mul]
                simpa [stMediaBlocksize] using high
            | succ k =>
                obtain ⟨before, reached, served, same⟩ := turns k (Nat.lt_of_succ_lt_succ below)
                have shift : i + 1 + k = i + (k + 1) := by omega
                rw [shift] at reached served same
                refine ⟨before, ?_, served, same⟩
                rw [cardReadLoop, turn]
                exact reached

end Loops

/-! ## What a request moves -/

/-- `buf_resid` behind a request, where it was `entry` before. -/
def residual (entry : UInt32) (reply : Reply) : Nat := reply.resid.getD entry.toNat

def trimmed (b : Build) (d : Device) (bp : Buf) : Nat :=
  min bp.count.toNat (strategyLen b d bp.unit - bp.offset)

section Request
variable {σ : Type} (door : Door σ) (d : Device) (b : Build) (s : State σ) (bp : Buf)

/-- The turn of a card unit's read loop for block `k` of the request. -/
def readTurn (k : Nat) : Bool × (Nat → UInt8) × State σ :=
  let before := cardReadLoop door d (b.cardCow && bp.unit == stMediaDriver) (unitBase d bp.unit)
    bp.block k 0 bp.data s
  cardReadBlock door d (b.cardCow && bp.unit == stMediaDriver) (unitBase d bp.unit) bp.block k
    before.2.2.1 before.2.2.2

/-- The first `moved` bytes of the map have been moved, to or from the offset that was asked for
and what follows it, and no other. -/
structure Moves (reply : Reply) (after : State σ) : Prop where
  rest : ∀ a, reply.moved ≤ a → reply.data a = bp.data a
  array : ∀ base, stMediumDiskBase b d bp.unit = some base →
    bp.isRead = true ∧ ∀ a < reply.moved, reply.data a = base (bp.offset + a)
  read : isCardUnit b bp.unit = true → bp.isRead = true →
    ∀ k, (k + 1) * stMediaBlocksize ≤ reply.moved → (readTurn door d b s bp k).1 = true ∧
      blockAt 512 reply.data (k * stMediaBlocksize) =
        blockAt 512 (readTurn door d b s bp k).2.1 (k * stMediaBlocksize)
  shadowed : bp.isRead = false → b.cardCow = true →
    after.asked = s.asked ++ writeRun bp.block 0 (reply.moved / stMediaBlocksize)
  written : bp.isRead = false → b.hddWrite = true →
    after.shadow.world = (List.range' 0 (reply.moved / stMediaBlocksize)).foldl
      (fun world k => door.driverWrite world (u32 (u64 (unitBase d bp.unit + bp.block + k)))
        (blockAt 512 bp.data (k * stMediaBlocksize))) s.shadow.world

structure Accurate (entry : UInt32) (reply : Reply) (after : State σ) : Prop where
  moves : Moves door d b s bp reply after
  residual : (bp.count.toNat : Int) - residual entry reply = reply.moved

/-- At the end of the medium, a buffer whose residual is its count; on a card unit, a request that
is cut to whole blocks. -/
def WholeMove (entry : UInt32) : Prop :=
  if bp.offset = strategyLen b d bp.unit then entry = bp.count
  else isCardUnit b bp.unit = true → stMediaBlocksize ∣ trimmed b d bp

end Request

section Array
variable {σ : Type} {door : Door σ} {d : Device} {b : Build} {s : State σ} {bp : Buf}

theorem diskBase_card : (∃ base, stMediumDiskBase b d bp.unit = some base) ↔
    isCardUnit b bp.unit = false := by
  unfold stMediumDiskBase isCardUnit
  split_ifs with card staged <;> simp [*]

theorem strategyLen_array (array : isCardUnit b bp.unit = false) :
    strategyLen b d bp.unit < 2 ^ 32 := by
  have small : ∀ n, u32 n < 2 ^ 32 := fun n => Nat.mod_lt _ (by decide)
  have raw : stMediaRawUnit b bp.unit = false := by
    cases emmc : b.emmcStrategy
    · simp [stMediaRawUnit, emmc]
    · simpa [isCardUnit, emmc] using (show _ ∧ _ by simpa [isCardUnit, emmc] using array).2
  have full : (b.fullExtent && bp.unit == stMediaDriver) = false := by
    cases full : b.fullExtent
    · rfl
    · have emmc := b.fullExtent_needs full
      have other := (show _ ∧ _ by simpa [isCardUnit, emmc] using array).1
      simp [other]
  unfold strategyLen stMediumDiskBytes
  rw [raw, full]
  simp only [Bool.false_eq_true, if_false]
  split_ifs
  · decide
  · exact small _
  · decide
  · exact d.ramBytes.toNat_lt

theorem strategy_array_success (array : isCardUnit b bp.unit = false)
    (success : (stMediaStrategy door d b s bp).1.error = none) :
    bp.isRead = true ∧
      ((bp.offset = strategyLen b d bp.unit ∧
        stMediaStrategy door d b s bp = (⟨none, none, bp.data, 0⟩, s)) ∨
      (bp.offset < strategyLen b d bp.unit ∧ ∃ base, stMediumDiskBase b d bp.unit = some base ∧
        stMediaStrategy door d b s bp =
          (⟨none, some (sub32 bp.count.toNat (trimmed b d bp)),
            copyBytes base bp.offset (trimmed b d bp) bp.data, trimmed b d bp⟩, s))) := by
  have offset : bp.blkno.toUInt32.toNat * stMediaBlocksize = bp.offset := rfl
  have unit : (b.emmcStrategy && (bp.unit == stMediaDriver || stMediaRawUnit b bp.unit)) = false :=
    array
  obtain ⟨base, known⟩ := (@diskBase_card d b bp).mpr array
  have short := @strategyLen_array d b bp array
  simp only [stMediaStrategy, offset, unit, known, Bool.false_eq_true, if_false] at success ⊢
  by_cases unitLt : bp.unit ≥ stMediaDisks b
  · rw [if_pos unitLt] at success
    cases success
  by_cases empty : strategyLen b d bp.unit = 0
  · rw [if_neg unitLt, if_pos empty] at success
    cases success
  by_cases write : (!bp.isRead && !((b.hddWrite || b.cardCow) && bp.unit == stMediaDriver)) = true
  · rw [if_neg unitLt, if_neg empty, if_pos write] at success
    cases success
  by_cases past : bp.offset > strategyLen b d bp.unit
  · rw [if_neg unitLt, if_neg empty, if_neg write, if_pos past] at success
    cases success
  have isRead : bp.isRead = true := by
    by_contra writes
    rw [Bool.not_eq_true] at writes
    have driver : ((b.hddWrite || b.cardCow) && bp.unit == stMediaDriver) = true := by
      rwa [writes, Bool.not_false, Bool.true_and, Bool.not_eq_true', Bool.not_eq_false] at write
    rw [Bool.and_eq_true, Bool.or_eq_true] at driver
    have emmc : b.emmcStrategy = true := driver.1.elim (b.hddWrite_needs ·) (b.cardCow_needs ·)
    simp [isCardUnit, emmc, driver.2] at array
  refine ⟨isRead, ?_⟩
  by_cases atEnd : bp.offset = strategyLen b d bp.unit
  · refine .inl ⟨atEnd, ?_⟩
    rw [if_neg unitLt, if_neg empty, if_neg write, if_neg past, if_pos atEnd]
  have inside : bp.offset < strategyLen b d bp.unit := by omega
  by_cases map : bp.mapFails = true
  · rw [if_neg unitLt, if_neg empty, if_neg write, if_neg past, if_neg atEnd, if_pos map] at success
    cases success
  refine .inr ⟨inside, base, rfl, ?_⟩
  have trim : (if bp.offset + bp.count.toNat > strategyLen b d bp.unit then
      u32 (strategyLen b d bp.unit - bp.offset) else bp.count.toNat) = trimmed b d bp := by
    unfold trimmed
    split
    · rw [u32_of_lt (by omega)]
      omega
    · omega
  rw [if_neg unitLt, if_neg empty, if_neg write, if_neg past, if_neg atEnd, if_neg map, trim,
    u32_of_lt (by omega)]

end Array

section Card
variable {σ : Type} {door : Door σ} {d : Device} {b : Build} {s : State σ} {bp : Buf}

theorem ensureBound_asked : (stCowEnsureBound d s).asked = s.asked := by
  unfold stCowEnsureBound
  split_ifs
  · rfl
  · rfl
  · split <;> rfl

/-- A card unit moves the whole blocks of the count it is given. -/
theorem cardStrategy_success (card : isCardUnit b bp.unit = true) {count : Nat}
    (allowed : bp.isRead = false → writable b bp.unit = true)
    (success : (cardStrategy door d b bp s count).1.error = none) :
    (cardStrategy door d b bp s count).1.moved = count / stMediaBlocksize * stMediaBlocksize ∧
      (cardStrategy door d b bp s count).1.resid = some (sub32 bp.count.toNat count) ∧
      Moves door d b s bp (cardStrategy door d b bp s count).1
        (cardStrategy door d b bp s count).2 := by
  have noArray : ∀ base, stMediumDiskBase b d bp.unit ≠ some base := fun base known => by
    have array := diskBase_card.mp ⟨base, known⟩
    rw [card] at array
    cases array
  have blockEq : bp.blkno.toUInt32.toNat * stMediaBlocksize / stMediaBlocksize = bp.block :=
    block_eq bp
  have base : (if (bp.unit == stMediaDriver) = true then d.selectedLba.toNat else 0) =
      unitBase d bp.unit := rfl
  have whole : count / stMediaBlocksize * stMediaBlocksize / stMediaBlocksize =
      count / stMediaBlocksize := Nat.mul_div_cancel _ (by decide)
  cases direction : bp.isRead with
  | false =>
      have writes := allowed direction
      rw [writable, Bool.and_eq_true] at writes
      obtain ⟨switch, driver⟩ := writes
      cases cow : b.cardCow with
      | true =>
          have plain : b.hddWrite = false := by
            by_contra hdd
            exact b.one_write_branch ⟨cow, by simpa using hdd⟩
          simp only [cardStrategy, cow, driver, direction, blockEq, Bool.not_false, Bool.and_true,
            if_true] at success ⊢
          split_ifs at success ⊢ with unbound
          rcases loop : cowWriteLoop door d bp.block bp.data (count / stMediaBlocksize) 0
            (stCowEnsureBound d s) with ⟨cr, i, s'⟩
          rw [loop] at success
          have done := cowWriteLoop_ok door d bp.block bp.data (count / stMediaBlocksize) 0
            (stCowEnsureBound d s)
          rw [loop] at done
          cases cr with
          | ok =>
              obtain ⟨_, asked⟩ := done rfl
              refine ⟨rfl, rfl, fun _ _ => rfl, fun base known => absurd known (noArray base), ?_, ?_, ?_⟩
              · intro _ isRead
                rw [direction] at isRead
                cases isRead
              · intro _ _
                rw [whole, ← @ensureBound_asked σ d s]
                exact asked
              · intro _ hdd
                rw [plain] at hdd
                cases hdd
          | range => cases success
          | noSpace => cases success
          | io => cases success
          | state => cases success
      | false =>
          have hdd : b.hddWrite = true := by simpa [cow] using switch
          simp only [cardStrategy, cow, hdd, direction, blockEq, base, Bool.false_and,
            Bool.false_eq_true, if_false, Bool.not_false, Bool.and_true, if_true]
          refine ⟨trivial, trivial, fun _ _ => rfl, fun base known => absurd known (noArray base),
            ?_, ?_, ?_⟩
          · intro _ isRead
            rw [direction] at isRead
            cases isRead
          · intro _ shadowed
            rw [cow] at shadowed
            cases shadowed
          · intro _ _
            rw [whole]
            exact driverWriteLoop_world door _ _ _ _ _ s
  | true =>
      simp only [cardStrategy, direction, blockEq, base, Bool.not_true, Bool.and_false,
        Bool.false_eq_true, if_false] at success ⊢
      have turns := @cardReadLoop_turns σ door d (b.cardCow && bp.unit == stMediaDriver)
        (unitBase d bp.unit) bp.block (count / stMediaBlocksize) 0 bp.data s
      rcases loop : cardReadLoop door d (b.cardCow && bp.unit == stMediaDriver)
        (unitBase d bp.unit) bp.block (count / stMediaBlocksize) 0 bp.data s with ⟨ok, i, data, s'⟩
      rw [loop] at success turns
      cases ok with
      | false => cases success
      | true =>
          obtain ⟨outside, turns⟩ := turns rfl
          refine ⟨rfl, rfl, ?_, fun base known => absurd known (noArray base), ?_, ?_, ?_⟩
          · intro a beyond
            refine outside a (.inr ?_)
            rw [Nat.zero_add]
            exact beyond
          · intro _ _ k below
            obtain ⟨before, reached, served, same⟩ :=
              turns k (Nat.le_of_mul_le_mul_right below (by decide))
            rw [Nat.zero_add] at reached served same
            unfold readTurn
            rw [reached]
            exact ⟨served, same⟩
          · intro isWrite
            rw [direction] at isWrite
            cases isWrite
          · intro isWrite
            rw [direction] at isWrite
            cases isWrite

end Card

/-! ## The residual -/

section Residual
variable {σ : Type} {door : Door σ} {d : Device} {b : Build} {s : State σ} {bp : Buf}

theorem moves_nothing (array : isCardUnit b bp.unit = false → bp.isRead = true) :
    Moves door d b s bp ⟨none, none, bp.data, 0⟩ s := by
  constructor
  case rest => exact fun _ _ => rfl
  case array =>
    intro base known
    exact ⟨array (diskBase_card.mp ⟨base, known⟩), fun a below => absurd below (Nat.not_lt_zero a)⟩
  case read =>
    intro _ _ k below
    rw [Nat.add_mul] at below
    exact absurd below (by simp [stMediaBlocksize])
  case shadowed => simp [writeRun]
  case written => simp

/-- At the end of the medium the residual is the caller's. -/
theorem accurate_end (entry : UInt32) (atEnd : bp.offset = strategyLen b d bp.unit)
    (array : isCardUnit b bp.unit = false → bp.isRead = true) :
    Accurate door d b s bp entry ⟨none, none, bp.data, 0⟩ s ↔ WholeMove d b bp entry := by
  rw [WholeMove, if_pos atEnd]
  constructor
  · rintro ⟨_, same⟩
    apply UInt32.toNat_inj.mp
    change (bp.count.toNat : Int) - (entry.toNat : Int) = ((0 : Nat) : Int) at same
    omega
  · rintro rfl
    exact ⟨moves_nothing array, sub_self _⟩

theorem residual_inside (entry : UInt32) {reply : Reply}
    (set_ : reply.resid = some (sub32 bp.count.toNat (trimmed b d bp))) :
    (bp.count.toNat : Int) - residual entry reply = trimmed b d bp := by
  have cut : trimmed b d bp ≤ bp.count.toNat := Nat.min_le_left _ _
  unfold residual
  rw [set_, Option.getD_some, sub32_of_le cut bp.count.toNat_lt]
  omega

/-- What is counted as moved has been moved, exactly where the cut is to whole blocks and, at the
end of the medium, where the buffer's residual was its count already. -/
theorem accurate_iff (entry : UInt32)
    (success : (stMediaStrategy door d b s bp).1.error = none) :
    Accurate door d b s bp entry (stMediaStrategy door d b s bp).1
        (stMediaStrategy door d b s bp).2 ↔ WholeMove d b bp entry := by
  cases card : isCardUnit b bp.unit with
  | false =>
      obtain ⟨isRead, ⟨atEnd, done⟩ | ⟨inside, base, known, done⟩⟩ :=
        strategy_array_success card success
      · rw [done]
        exact accurate_end entry atEnd fun _ => isRead
      · rw [done, WholeMove, if_neg (Nat.ne_of_lt inside), card]
        refine iff_of_true ⟨?_, residual_inside entry rfl⟩ nofun
        constructor
        case rest => exact fun a beyond => if_neg (Nat.not_lt.mpr beyond)
        case array =>
          intro other same
          rw [known] at same
          cases same
          exact ⟨isRead, fun a below => if_pos below⟩
        case read =>
          intro cards
          rw [card] at cards
          cases cards
        case shadowed =>
          intro isWrite
          rw [isRead] at isWrite
          cases isWrite
        case written =>
          intro isWrite
          rw [isRead] at isWrite
          cases isWrite
  | true =>
      rcases strategy_card_cases door d b s bp card with
        ⟨_, e, done⟩ | ⟨_, atEnd, done⟩ | ⟨accepted, inside, done⟩
      · rw [done] at success
        cases success
      · rw [done]
        exact accurate_end entry atEnd fun array => absurd (card.symm.trans array) (by decide)
      · rw [done] at success ⊢
        have allowed : bp.isRead = false → writable b bp.unit = true := by
          intro writes
          by_contra forbidden
          exact accepted (.inr (.inr (.inl ⟨writes, by simpa using forbidden⟩)))
        obtain ⟨moved, set_, moves⟩ := cardStrategy_success card allowed success
        have counted := residual_inside entry set_
        rw [WholeMove, if_neg (Nat.ne_of_lt inside), card]
        constructor
        · rintro ⟨_, same⟩ _
          rw [counted, moved] at same
          exact ⟨_, (Int.ofNat_inj.mp same).trans (Nat.mul_comm _ _)⟩
        · intro whole
          refine ⟨moves, ?_⟩
          rw [counted, moved]
          exact congrArg _ (Nat.div_mul_cancel (whole rfl)).symm

end Residual

/-! ## A card unit of eight blocks -/

def blankDoor : Door Unit := ⟨fun world _ => (fun _ => 0, world), fun world _ _ => world⟩

def idleState : State Unit := ⟨0, freshShadow ⟨0, 0, 0, 0, 0, 0, 0, 0⟩ (fun _ => 0) (), []⟩

def readOf (count : UInt32) : Buf := ⟨stMediaDriver, 0, count, true, false, fun _ => 0⟩

theorem accurate_block :
    (stMediaStrategy blankDoor (selection 8) strategyBuild idleState (readOf 512)).1.error = none ∧
      (Accurate blankDoor (selection 8) strategyBuild idleState (readOf 512) 0
          (stMediaStrategy blankDoor (selection 8) strategyBuild idleState (readOf 512)).1
          (stMediaStrategy blankDoor (selection 8) strategyBuild idleState (readOf 512)).2 ↔
        WholeMove (selection 8) strategyBuild (readOf 512) 0) :=
  ⟨rfl, accurate_iff 0 rfl⟩

/-- A hundred bytes are counted as read, and none is. -/
theorem part_block_counted :
    ¬ ∀ (bp : Buf) (entry : UInt32),
      (stMediaStrategy blankDoor (selection 8) strategyBuild idleState bp).1.error = none →
        Accurate blankDoor (selection 8) strategyBuild idleState bp entry
          (stMediaStrategy blankDoor (selection 8) strategyBuild idleState bp).1
          (stMediaStrategy blankDoor (selection 8) strategyBuild idleState bp).2 := by
  intro every
  have counted : (100 : Int) - 0 = 0 := (every (readOf 100) 0 rfl).residual
  exact absurd counted (by decide)

end Stage90.Media

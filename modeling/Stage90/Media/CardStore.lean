import Stage90.Media.CowStore
import Stage90.Media.Strategy

/-!
# The card unit as a store

`Ready` ties the shadow, bound or not yet bound, to an abstract `content` of the
partition.  The write loop overwrites a run of blocks of `content`, up to the block it
stopped at; the read loop copies a run of blocks out of it.  Both are stated for a door
that is `HonestDoor` in the states `good` behind it, and for any property `safe` of
those states that reads of the partition keep.
-/

set_option autoImplicit false

namespace Stage90.Media

open Stage90.Lib Stage90.Cow

structure HonestDoor {σ : Type} (door : Door σ) (card : Nat → Sector) (good : σ → Prop) : Prop where
  before : ∀ world lba, good (door.driverRead world lba).2 → good world
  bytes : ∀ world lba, good (door.driverRead world lba).2 →
    (door.driverRead world lba).1 = card lba

def unitMedium (card : Nat → Sector) (baseLba block : Nat) : Sector :=
  card (u32 (u64 (baseLba + block)))

def cardGeometry (d : Device) : StCow := ⟨d.selectedCount.toNat, 8, 4096, 512, 1024, 0, 0, 0⟩

/-- The mount unit's geometry is always accepted: a 32-bit sector count has its page numbers. -/
theorem stCowInit_card (d : Device) (positive : 0 < d.selectedCount.toNat) :
    stCowInit d.selectedCount.toUInt64 8 stCowArenaPages stCowHashSlots =
      some (cardGeometry d) := by
  have countLt := d.selectedCount.toNat_lt
  have nonzero : d.selectedCount.toUInt64 ≠ 0 := by
    intro zero
    have := congrArg UInt64.toNat zero
    simp at this
    omega
  have pages : ¬ (d.selectedCount.toUInt64 + (8 : UInt32).toUInt64 - 1) / (8 : UInt32).toUInt64 >
      0xffffffff := by
    rw [gt_iff_lt, UInt64.lt_iff_toNat_lt, UInt64.toNat_div, UInt64.toNat_sub, UInt64.toNat_add,
      UInt32.toNat_toUInt64]
    have eight : (8 : UInt32).toUInt64.toNat = 8 := rfl
    have one : (1 : UInt64).toNat = 1 := rfl
    have bound : (0xffffffff : UInt64).toNat = 0xffffffff := rfl
    rw [eight, one, bound]
    omega
  have tests : ¬ (8 : UInt32) &&& (8 - 1) ≠ 0 ∧ ¬ (stCowHashSlots = 0 ∨
      stCowHashSlots &&& (stCowHashSlots - 1) ≠ 0 ∨ stCowHashSlots < stCowArenaPages * 2) ∧
      ¬ stCowArenaPages > 0xffffffff / 8 := by decide
  have arguments : ¬ (d.selectedCount.toUInt64 = 0 ∨ (8 : UInt32) = 0 ∨ stCowArenaPages = 0) := by
    rintro (zero | absurd8 | absurd512)
    · exact nonzero zero
    · exact absurd absurd8 (by decide)
    · exact absurd absurd512 (by decide)
  simp only [stCowInit, if_neg arguments, if_neg tests.1, if_neg pages, if_neg tests.2.1,
    if_neg tests.2.2]
  rfl

theorem card_addressable (d : Device) (positive : 0 < d.selectedCount.toNat) :
    Addressable (cardGeometry d) sizeTBits := by
  have countLt := d.selectedCount.toNat_lt
  have arena : (512 : Nat) * 4096 ≤ 2 ^ sizeTBits := by decide
  refine ⟨geometry_of_init (stCowInit_card d positive) (by decide) (by decide), ?_, arena⟩
  show d.selectedCount.toNat + 8 ≤ 2 ^ 64
  omega

section Card
variable {σ : Type} {door : Door σ} {d : Device} {card : Nat → Sector} {good safe : σ → Prop}

theorem stCowBaseRead_honest (honest : HonestDoor door card good) :
    Honest (stCowBaseRead door d) (unitMedium card d.selectedLba.toNat) good := by
  constructor
  · exact fun world lba _ after => honest.before world _ after
  · exact fun world lba _ after _ => honest.bytes world _ after

theorem stCowBaseRead_infallible (world : σ) (lba : Nat) (out : Sector) :
    (stCowBaseRead door d world lba out).1 = 0 := rfl

/-- Reads of the partition keep `safe`. -/
def KeepsSafe (door : Door σ) (baseLba count : Nat) (safe : σ → Prop) : Prop :=
  ∀ world block, block < count → safe world →
    safe (door.driverRead world (u32 (u64 (baseLba + block)))).2

/-! ## The invariant -/

/-- The shadow is not bound yet and the partition is as the card has it, or it is bound and,
while the door has been `good`, mirrors `content`. -/
structure Ready (d : Device) (card : Nat → Sector) (good safe : σ → Prop) (s : State σ)
    (content : Nat → Sector) : Prop where
  state : (s.bound = 0 ∧ s.shadow.trace = [] ∧ content = unitMedium card d.selectedLba.toNat) ∨
    (s.bound = 1 ∧ Sound (cardGeometry d) s.shadow ∧ (good s.shadow.world →
      Mirrors (cardGeometry d) (unitMedium card d.selectedLba.toNat) s.shadow.entries
        s.shadow.arena content))
  asked : ∀ block ∈ s.asked, block < d.selectedCount.toNat
  world : safe s.shadow.world

/-- `st_cow_ensure_bound` binds, and changes neither the content nor the state behind the
door. -/
theorem Ready.ensureBound (positive : 0 < d.selectedCount.toNat) {s : State σ}
    {content : Nat → Sector} (ready : Ready d card good safe s content) :
    Ready d card good safe (stCowEnsureBound d s) content ∧ (stCowEnsureBound d s).bound = 1 ∧
      (stCowEnsureBound d s).shadow.world = s.shadow.world := by
  rcases ready.state with ⟨unbound, untouched, rfl⟩ | ⟨bound, sound, mirrors⟩
  · have room := card_addressable d positive
    have result : stCowEnsureBound d s = { s with
        bound := 1
        shadow := freshShadow (cardGeometry d) s.shadow.arena s.shadow.world } := by
      simp only [stCowEnsureBound, unbound, stCowInit_card d positive, untouched]
      rfl
    rw [result]
    refine ⟨⟨Or.inr ⟨rfl, Sound.fresh room.geometry _ _, fun _ => mirrors_fresh _ _ _⟩,
      ready.asked, ready.world⟩, rfl, rfl⟩
  · have result : stCowEnsureBound d s = s := by
      simp [stCowEnsureBound, bound]
    rw [result]
    exact ⟨ready, bound, rfl⟩

theorem Ready.bound {s : State σ} {content : Nat → Sector}
    (ready : Ready d card good safe s content) (bound : s.bound = 1) :
    Sound (cardGeometry d) s.shadow ∧ (good s.shadow.world →
      Mirrors (cardGeometry d) (unitMedium card d.selectedLba.toNat) s.shadow.entries
        s.shadow.arena content) := by
  rcases ready.state with ⟨unbound, _⟩ | ⟨_, sound, mirrors⟩
  · rw [bound] at unbound
    exact absurd unbound (by decide)
  · exact ⟨sound, mirrors⟩

theorem asked_snoc {s : State σ} {content : Nat → Sector}
    (ready : Ready d card good safe s content) {sector : Nat}
    (inside : sector < d.selectedCount.toNat) :
    ∀ block ∈ s.asked ++ [sector], block < d.selectedCount.toNat := by
  intro block member
  rcases List.mem_append.mp member with old | new
  · exact ready.asked block old
  · rw [List.mem_singleton.mp new]
    exact inside

theorem keeps_base (keeps : KeepsSafe door d.selectedLba.toNat d.selectedCount.toNat safe) :
    ∀ world lba out, lba < (cardGeometry d).sectors → safe world →
      safe (stCowBaseRead door d world lba out).2.2 :=
  fun world lba _ inside before => keeps world lba inside before

/-! ## The write loop -/

/-- `content` with blocks `block + lo` up to `block + hi` taken from the map. -/
def overwrite (content : Nat → Sector) (block : Nat) (data : Nat → UInt8) (lo hi : Nat) :
    Nat → Sector :=
  fun b => if block + lo ≤ b ∧ b < block + hi then
    blockAt 512 data ((b - block) * stMediaBlocksize) else content b

theorem overwrite_self (content : Nat → Sector) (block : Nat) (data : Nat → UInt8) (i : Nat) :
    overwrite content block data i i = content := by
  funext b
  have nothing : ¬ (block + i ≤ b ∧ b < block + i) := by omega
  rw [overwrite, if_neg nothing]

theorem overwrite_step (content : Nat → Sector) (block : Nat) (data : Nat → UInt8) {i hi : Nat}
    (more : i < hi) :
    overwrite (Function.update content (block + i) (blockAt 512 data (i * stMediaBlocksize)))
        block data (i + 1) hi =
      overwrite content block data i hi := by
  funext b
  simp only [overwrite]
  by_cases here : b = block + i
  · subst here
    rw [if_neg (by omega), if_pos (by omega), Function.update_self, Nat.add_sub_cancel_left]
  · rw [Function.update_of_ne here]
    have same : (block + (i + 1) ≤ b ∧ b < block + hi) ↔ (block + i ≤ b ∧ b < block + hi) := by
      omega
    simp only [same]

/-- One block prepared: the content stands, and the door was good before if it is after. -/
theorem Ready.prepare (positive : 0 < d.selectedCount.toNat) (honest : HonestDoor door card good)
    (keeps : KeepsSafe door d.selectedLba.toNat d.selectedCount.toNat safe) {s : State σ}
    {content : Nat → Sector} (ready : Ready d card good safe s content) (bound : s.bound = 1)
    {sector : Nat} (inside : sector < d.selectedCount.toNat) :
    let prepared := stCowPrepareWrite sizeTBits (stCowBaseRead door d) s.shadow sector 1
    (good prepared.2.world → good s.shadow.world) ∧
      Ready d card good safe { s with shadow := prepared.2, asked := s.asked ++ [sector] }
        content := by
  intro prepared
  obtain ⟨sound, mirrors⟩ := ready.bound bound
  have room := card_addressable d positive
  have base := stCowBaseRead_honest (d := d) honest
  have before : good prepared.2.world → good s.shadow.world :=
    prepare_good room base sound sector 1
  refine ⟨before, Or.inr ⟨bound, sound.prepare room.geometry sizeTBits _ sector 1, ?_⟩,
    asked_snoc ready inside, ?_⟩
  · intro after
    exact (mirrors (before after)).prepare room base sound sector 1 after
  · exact prepare_world (keeps_base keeps) room.geometry sizeTBits sound sector 1 ready.world

/-- One block written: it lands whole or not at all. -/
theorem Ready.write (positive : 0 < d.selectedCount.toNat) {s : State σ}
    {content : Nat → Sector} (ready : Ready d card good safe s content) (bound : s.bound = 1)
    {sector : Nat} (inside : sector < d.selectedCount.toNat) (bytes : Sector) :
    let written := stCowWritePreparedSector sizeTBits s.shadow sector (some bytes)
    written.2.world = s.shadow.world ∧
      Ready d card good safe { s with shadow := written.2, asked := s.asked ++ [sector] }
        (if written.1 = .ok then Function.update content sector bytes else content) := by
  intro written
  obtain ⟨sound, mirrors⟩ := ready.bound bound
  have room := card_addressable d positive
  have world : written.2.world = s.shadow.world := write_world sizeTBits s.shadow sector _
  refine ⟨world, Or.inr ⟨bound, sound.write room.geometry sizeTBits sector _, ?_⟩,
    asked_snoc ready inside, ?_⟩
  · intro after
    have before : good s.shadow.world := world ▸ after
    rcases (mirrors before).write room sound sector (some bytes) with
      ⟨refused, same⟩ | ⟨data, given, _, success, landed⟩
    · rw [if_neg refused]
      have unchanged : written.2 = s.shadow := same
      simpa only [unchanged] using mirrors before
    · obtain rfl : bytes = data := Option.some.inj given
      rw [if_pos success]
      exact landed
  · change safe written.2.world
    rw [world]
    exact ready.world

/-- The write loop takes the blocks up to the one it stopped at into the content. -/
theorem cowWriteLoop_ready (positive : 0 < d.selectedCount.toNat)
    (honest : HonestDoor door card good)
    (keeps : KeepsSafe door d.selectedLba.toNat d.selectedCount.toNat safe)
    (block : Nat) (data : Nat → UInt8) (left i : Nat)
    (inside : block + (i + left) ≤ d.selectedCount.toNat) {s : State σ}
    {content : Nat → Sector} (ready : Ready d card good safe s content) (bound : s.bound = 1) :
    let run := cowWriteLoop door d block data left i s
    (good run.2.2.shadow.world → good s.shadow.world) ∧ i ≤ run.2.1 ∧ run.2.1 ≤ i + left ∧
      (run.1 = .ok → run.2.1 = i + left) ∧
      Ready d card good safe run.2.2 (overwrite content block data i run.2.1) := by
  induction left generalizing i s content with
  | zero =>
      refine ⟨fun after => after, Nat.le_refl i, Nat.le_refl i, fun _ => rfl, ?_⟩
      simp only [cowWriteLoop, overwrite_self]
      exact ready
  | succ left ih =>
      have countLt := d.selectedCount.toNat_lt
      have sectorEq : u64 (block + i) = block + i := u64_of_lt (by omega)
      have sectorInside : block + i < d.selectedCount.toNat := by omega
      obtain ⟨before₁, ready₁⟩ := ready.prepare positive honest keeps bound sectorInside
      obtain ⟨before₂, ready₂⟩ := ready₁.write positive bound sectorInside
        (blockAt 512 data (i * stMediaBlocksize))
      simp only [cowWriteLoop, sectorEq]
      rcases prepareEq : stCowPrepareWrite sizeTBits (stCowBaseRead door d) s.shadow
        (block + i) 1 with ⟨cr₁, shadow₁⟩
      rw [prepareEq] at before₁ ready₁ before₂ ready₂
      simp only at before₁ ready₁ before₂ ready₂ ⊢
      by_cases refused : cr₁ ≠ .ok
      · rw [if_pos refused]
        refine ⟨before₁, Nat.le_refl i, Nat.le_add_right _ _, fun ok => absurd ok refused, ?_⟩
        rw [overwrite_self]
        exact ready₁
      rw [if_neg refused]
      rcases writeEq : stCowWritePreparedSector sizeTBits shadow₁ (block + i)
        (some (blockAt 512 data (i * stMediaBlocksize))) with ⟨cr₂, shadow₂⟩
      rw [writeEq] at before₂ ready₂
      simp only at before₂ ready₂ ⊢
      by_cases failed : cr₂ ≠ .ok
      · rw [if_pos failed]
        rw [if_neg failed] at ready₂
        refine ⟨fun after => before₁ (before₂ ▸ after), Nat.le_refl i, Nat.le_add_right _ _,
          fun ok => absurd ok failed, ?_⟩
        rw [overwrite_self]
        exact ready₂
      rw [if_neg failed]
      rw [if_pos (not_not.mp failed)] at ready₂
      obtain ⟨back, low, high, complete, ready₃⟩ := ih (i + 1) (by omega) ready₂ bound
      refine ⟨fun after => before₁ (before₂ ▸ back after), by omega, by omega, ?_, ?_⟩
      · intro ok
        rw [complete ok]
        omega
      · rwa [overwrite_step content block data (by omega)] at ready₃

/-! ## The read loop -/

/-- Where a read of a card unit gets its blocks: the shadow over the partition, or the card
from `baseLba` on. -/
structure Source (d : Device) (card : Nat → Sector) (good safe : σ → Prop) (cow : Bool)
    (baseLba : Nat) (s : State σ) (content : Nat → Sector) : Prop where
  shadow : cow = true → Ready d card good safe s content
  plain : cow = false → content = unitMedium card baseLba ∧ safe s.shadow.world

/-- The blocks a read may reach, and that reaching them keeps `safe`. -/
structure Limits (door : Door σ) (d : Device) (safe : σ → Prop) (cow : Bool) (baseLba limit : Nat) :
    Prop where
  shadow : cow = true → limit = d.selectedCount.toNat ∧
    KeepsSafe door d.selectedLba.toNat d.selectedCount.toNat safe
  plain : cow = false → KeepsSafe door baseLba limit safe

theorem cardReadBlock_served (honest : HonestDoor door card good) {cow : Bool}
    {baseLba limit : Nat} (limits : Limits door d safe cow baseLba limit) (block i : Nat)
    (inside : block + i < limit) (limitLt : limit < 2 ^ 32) (data : Nat → UInt8)
    {s : State σ} {content : Nat → Sector}
    (source : Source d card good safe cow baseLba s content) :
    let read := cardReadBlock door d cow baseLba block i data s
    read.1 = true ∧ Source d card good safe cow baseLba read.2.2 content ∧
      (good read.2.2.shadow.world → good s.shadow.world ∧
        blockAt 512 read.2.1 (i * stMediaBlocksize) = content (block + i)) ∧
      ∃ bytes : Sector, read.2.1 = copyBlock data (i * stMediaBlocksize) bytes := by
  cases cow with
  | false =>
      obtain ⟨rfl, before⟩ := source.plain rfl
      have lba : baseLba + block + i = baseLba + (block + i) := Nat.add_assoc _ _ _
      simp only [cardReadBlock, Bool.false_and, Bool.false_eq_true, if_false, lba]
      refine ⟨trivial, ⟨fun cow => absurd cow (by decide), fun _ => ⟨rfl, ?_⟩⟩, ?_, _, rfl⟩
      · exact limits.plain rfl _ _ inside before
      · intro after
        refine ⟨honest.before _ _ after, ?_⟩
        rw [blockAt_copyBlock_same, honest.bytes _ _ after]
        rfl
  | true =>
      obtain ⟨rfl, keeps⟩ := limits.shadow rfl
      have positive : 0 < d.selectedCount.toNat := by omega
      have room := card_addressable d positive
      have sectorEq : u64 (block + i) = block + i := u64_of_lt (by omega)
      obtain ⟨ready, bound, world⟩ := (source.shadow rfl).ensureBound positive
      obtain ⟨sound, mirrors⟩ := ready.bound bound
      simp only [cardReadBlock, if_true, bound, Bool.true_and, beq_self_eq_true, sectorEq]
      set s₁ := stCowEnsureBound d s with s₁_eq
      set old := blockAt 512 data (i * stMediaBlocksize) with old_eq
      have base := stCowBaseRead_honest (d := d) honest
      have onMedium : block + i < s₁.shadow.c.sectors := by
        rw [sectors_of_shape sound.shape]
        exact inside
      obtain ⟨bytes, success, out⟩ := read_ok sizeTBits (stCowBaseRead door d)
        stCowBaseRead_infallible s₁.shadow onMedium old
      have frame := read_frame room.geometry sizeTBits (stCowBaseRead door d) sound (block + i)
        (some old)
      obtain ⟨entries, arena⟩ := read_frame_store room.geometry sizeTBits (stCowBaseRead door d)
        sound (block + i) (some old)
      have before := read_good base sizeTBits sound (block + i) (some old)
      have content_eq := fun after => read_content room base sound (mirrors (before after)) inside
        old after
      have safeAfter := read_world (keeps_base keeps) sizeTBits sound (block + i) (some old)
        ready.world
      rcases result : stCowReadSector sizeTBits (stCowBaseRead door d) s₁.shadow (block + i)
        (some old) with ⟨cr, out', shadow₁⟩
      rw [result] at success out frame entries arena before content_eq safeAfter
      simp only at success out frame entries arena before content_eq safeAfter ⊢
      subst success
      subst out
      refine ⟨rfl, ⟨fun _ => ⟨Or.inr ⟨rfl, sound.of_frame frame, ?_⟩, asked_snoc ready inside,
        safeAfter⟩, fun plain => absurd plain (by decide)⟩, ?_, bytes, rfl⟩
      · intro after
        rw [entries, arena]
        exact mirrors (before after)
      · intro after
        refine ⟨world ▸ before after, ?_⟩
        rw [blockAt_copyBlock_same]
        rcases content_eq after with answer | ⟨failed, _⟩
        · exact Option.some.inj (congrArg (fun r => r.2.1) answer)
        · cases failed

theorem outside_block {a i left : Nat}
    (away : a < i * stMediaBlocksize ∨ (i + (left + 1)) * stMediaBlocksize ≤ a) :
    (a < (i + 1) * stMediaBlocksize ∨ (i + 1 + left) * stMediaBlocksize ≤ a) ∧
      (a < i * stMediaBlocksize ∨ i * stMediaBlocksize + 512 ≤ a) := by
  unfold stMediaBlocksize at away ⊢
  omega

/-- The read loop serves every block, and touches no other byte of the map. -/
theorem cardReadLoop_served (honest : HonestDoor door card good) {cow : Bool}
    {baseLba limit : Nat} (limits : Limits door d safe cow baseLba limit) (block left i : Nat)
    (inside : block + (i + left) ≤ limit) (limitLt : limit < 2 ^ 32) (data : Nat → UInt8)
    {s : State σ} {content : Nat → Sector}
    (source : Source d card good safe cow baseLba s content) :
    let read := cardReadLoop door d cow baseLba block left i data s
    read.1 = true ∧ Source d card good safe cow baseLba read.2.2.2 content ∧
      (good read.2.2.2.shadow.world → good s.shadow.world ∧
        ∀ k, i ≤ k → k < i + left →
          blockAt 512 read.2.2.1 (k * stMediaBlocksize) = content (block + k)) ∧
      ∀ a, a < i * stMediaBlocksize ∨ (i + left) * stMediaBlocksize ≤ a →
        read.2.2.1 a = data a := by
  induction left generalizing i data s with
  | zero =>
      exact ⟨rfl, source, fun after => ⟨after, fun k low high => by omega⟩, fun _ _ => rfl⟩
  | succ left ih =>
      obtain ⟨success, source₁, served, bytes, copied⟩ :=
        cardReadBlock_served honest limits block i (by omega) limitLt data source
      simp only [cardReadLoop]
      rcases result : cardReadBlock door d cow baseLba block i data s with ⟨ok, data₁, s₁⟩
      rw [result] at success source₁ served copied
      simp only at success source₁ served copied ⊢
      subst success
      subst copied
      simp only
      obtain ⟨success, source₂, rest, outside⟩ := ih (i + 1) (by omega) _ source₁
      have blocksize : stMediaBlocksize = 512 := rfl
      refine ⟨success, source₂, ?_, ?_⟩
      · intro after
        obtain ⟨good₁, blocks⟩ := rest after
        obtain ⟨good₀, first⟩ := served good₁
        refine ⟨good₀, fun k low high => ?_⟩
        by_cases here : k = i
        · subst here
          rw [← first]
          apply blockAt_congr
          intro a low high
          apply outside
          simp only [blocksize] at low high ⊢
          omega
        · exact blocks k (by omega) (by omega)
      · intro a away
        obtain ⟨rest, here⟩ := outside_block away
        exact (outside a rest).trans (copyBlock_apply_outside data _ a bytes here)

end Card

end Stage90.Media

import Stage90.Media.CardRequest
import Mathlib.Logic.Function.Basic

/-!
# The size of a unit, as answered and as served

The registrations of `stage90_root_media.c` (`entry_root_media_register`, the staged
sector's, the card unit's and the raw unit's) leave a block size and a block count for
each unit, and `st_media_ioctl` answers from them.  The strategy bounds a request by a
length it computes itself.

What the two read of the boot is fixed before the first registration: the ladder has run
(`entry_root_media_mount_disk` probes first), and the RAM disk is the link's own.
`bdevsw_add` is not in the repository, so its answer is an argument of each operation.
-/

set_option autoImplicit false

namespace Stage90.Media

open Stage90.Lib

/-- The link's `g_stage90_ramdisk`, and `g_stage90_root_hfs` where
`STAGE90_XNU_HFS_ROOT_MEDIA` is on. -/
structure RamDisk where
  bytes : UInt32
  hfs : Option UInt32

def stMediaBytes (r : RamDisk) : UInt32 := r.bytes

def stMediaStrategyBytes (r : RamDisk) : UInt32 :=
  match r.hfs with
  | some blob => blob
  | none => stMediaBytes r

/-- One entry of `st_media_major[]`, `st_media_blocksize[]` and `st_media_blockcount[]`. -/
structure Geometry where
  major : Int
  blocksize : UInt32
  blockcount : UInt32

/-- The arrays, and the `st_medium_*` cells of the handover. -/
structure Units where
  geometry : Nat → Geometry
  staged : Bool
  virt : List UInt32
  sector : UInt32
  pages : UInt32

def bss : Units where
  geometry _ := ⟨0, 0, 0⟩
  staged := false
  virt := List.replicate 128 0
  sector := 0
  pages := 0

/-- `dev_t` is a signed 32-bit word. -/
def makedev (major : Int) (disk : Nat) : Int := (major * 2 ^ 24 + disk).bmod (2 ^ 32)

def einval : Int := 22

def Units.set (u : Units) (disk : Nat) (g : Geometry) : Units :=
  { u with geometry := Function.update u.geometry disk g }

@[simp] theorem set_same (u : Units) (disk : Nat) (g : Geometry) :
    (u.set disk g).geometry disk = g := Function.update_self ..

theorem set_other (u : Units) {disk unit : Nat} (g : Geometry) (other : unit ≠ disk) :
    (u.set disk g).geometry unit = u.geometry unit := Function.update_of_ne other ..

section Registration
variable (b : Build) (r : RamDisk) (d : Device)

/-- A truncated block count is refused "with a visible zero rather than rounding". -/
def ramBlocks : UInt32 := if stMediaBytes r % 512 ≠ 0 then 0 else stMediaBytes r / 512

def entryRootMediaRegister (u : Units) (disk : Nat) (major : Int) : Int × Units :=
  if disk ≥ stMediaDisks b then (-1, u)
  else
    let u := u.set disk ⟨major, 512, ramBlocks r⟩
    if major < 0 then (major, u) else (makedev major disk, u)

def entryRootMediaRegisterCard (u : Units) (major : Int) : Int × Units :=
  if (u.geometry stMediaDriver).major ≠ 0 then
    (makedev (u.geometry stMediaDriver).major stMediaDriver, u)
  else if d.selectedCount = 0 then (einval, u)
  else
    let (dev, u) := entryRootMediaRegister b r u stMediaDriver major
    if dev < 0 then (dev, u)
    else (dev, u.set stMediaDriver ⟨major, 512, d.selectedCount⟩)

def entryRootMediaRegisterCardRaw (u : Units) (major : Int) : Int × Units :=
  if (u.geometry stMediaCardRaw).major ≠ 0 then
    (makedev (u.geometry stMediaCardRaw).major stMediaCardRaw, u)
  else if d.cardSectors = 0 then (einval, u)
  else
    let (dev, u) := entryRootMediaRegister b r u stMediaCardRaw major
    if dev < 0 then (dev, u)
    else (dev, u.set stMediaCardRaw ⟨major, 512, d.cardSectors⟩)

/-- An empty `words` is the null pointer and the zero count. -/
def entryRootMediaStage (u : Units) (sector pages : UInt32) (words : List UInt32)
    (major cardMajor : Int) : Int × Units :=
  if words = [] then (einval, u)
  else
    let copied := words.take 128
    let u := { u with
      virt := copied ++ List.replicate (128 - copied.length) 0
      sector := sector
      pages := if pages ≠ 0 then pages else 1 }
    let (dev, u) := entryRootMediaRegister b r u 1 major
    if dev < 0 then (dev, u)
    else
      let u := { u.set 1 ⟨major, 512, 1⟩ with staged := true }
      if b.emmcStrategy then (0, (entryRootMediaRegisterCard b r d u cardMajor).2) else (0, u)

/-- The calls `__wrap_mdevlookup` makes: the boot's RAM disk is `md0`, so `root` is
`entry_root_media_register(0)`. -/
inductive Registration where
  | root (major : Int)
  | stage (sector pages : UInt32) (words : List UInt32) (major cardMajor : Int)
  | card (major : Int)
  | cardRaw (major : Int)

def register (u : Units) : Registration → Units
  | .root major => (entryRootMediaRegister b r u 0 major).2
  | .stage sector pages words major cardMajor =>
      (entryRootMediaStage b r d u sector pages words major cardMajor).2
  | .card major => (entryRootMediaRegisterCard b r d u major).2
  | .cardRaw major => (entryRootMediaRegisterCardRaw b r d u major).2

def registered (calls : List Registration) : Units := calls.foldl (register b r d) bss

end Registration

/-! ## What `st_media_ioctl` answers -/

inductive DkIoc where
  | getBlockSize | getFeatures | getCommandPoolSize
  | getMaxBlockCountRead | getMaxBlockCountWrite
  | getMaxByteCountRead | getMaxByteCountWrite
  | getMaxSegmentCountRead | getMaxSegmentCountWrite
  | getMaxSegmentByteCountRead | getMaxSegmentByteCountWrite
  | getMinSegmentAlignmentByteCount | getThrottleMask | isVirtual | isSolidState
  | setBlockSize | getBlockCount | isWritable
  deriving DecidableEq, Repr

/-- `none` is `ENXIO`; a command that stores nothing answers `some none`. -/
def stMediaIoctl (b : Build) (u : Units) (unit : Nat) (cmd : DkIoc) : Option (Option Nat) :=
  if unit ≥ stMediaDisks b then none
  else
    let size := (u.geometry unit).blocksize.toNat
    let blocks := (u.geometry unit).blockcount.toNat
    some <|
      match cmd with
      | .getBlockSize => some size
      | .getFeatures => some 0
      | .getCommandPoolSize => some 1
      | .getMaxBlockCountRead | .getMaxBlockCountWrite => some blocks
      | .getMaxByteCountRead | .getMaxByteCountWrite => some (u64 (size * blocks))
      | .getMaxSegmentCountRead | .getMaxSegmentCountWrite => some 1
      | .getMaxSegmentByteCountRead | .getMaxSegmentByteCountWrite => some size
      | .getMinSegmentAlignmentByteCount => some size
      | .getThrottleMask => some 1
      | .isVirtual | .isSolidState => some 0
      | .setBlockSize => none
      | .getBlockCount => some blocks
      | .isWritable =>
          some (if (b.hddWrite || b.cardCow) && unit == stMediaDriver then 1 else 0)

/-! ## The registered units -/

section Agreement
variable (b : Build) (r : RamDisk) (d : Device)

def ownBlocks (unit : Nat) : UInt32 :=
  if unit = 0 then ramBlocks r
  else if unit = 1 then 1
  else if unit = stMediaDriver then d.selectedCount
  else d.cardSectors

/-- The module holds a device number for the unit. -/
def HandedOut (u : Units) (unit : Nat) : Prop :=
  0 < (u.geometry unit).major ∧ 0 ≤ makedev (u.geometry unit).major unit

structure Sized (u : Units) (unit : Nat) : Prop where
  inside : unit < stMediaDisks b
  blocksize : (u.geometry unit).blocksize = 512
  blockcount : (u.geometry unit).blockcount = ownBlocks r d unit
  staged : unit = 1 → u.staged = true

def AllSized (u : Units) : Prop := ∀ unit, HandedOut u unit → Sized b r d u unit

variable {b r d}

theorem AllSized.of_one {u v : Units} (sized : AllSized b r d u) (disk : Nat)
    (others : ∀ unit, unit ≠ disk → v.geometry unit = u.geometry unit)
    (keeps : u.staged = true → v.staged = true)
    (own : HandedOut v disk → Sized b r d v disk) : AllSized b r d v := by
  intro unit handed
  by_cases this : unit = disk
  · rw [this] at handed ⊢
    exact own handed
  have same := others unit this
  have before : HandedOut u unit := by rwa [HandedOut, same] at handed
  obtain ⟨inside, blocksize, blockcount, staged⟩ := sized unit before
  exact ⟨inside, by rw [same]; exact blocksize, by rw [same]; exact blockcount,
    fun one => keeps (staged one)⟩

/-- `entry_root_media_register` is refused, or leaves the unit the RAM disk's geometry and
the device number of it. -/
theorem register_cases (u : Units) (disk : Nat) (major : Int) :
    (stMediaDisks b ≤ disk ∧ entryRootMediaRegister b r u disk major = (-1, u)) ∨
    (disk < stMediaDisks b ∧ ∃ dev, entryRootMediaRegister b r u disk major =
        (dev, u.set disk ⟨major, 512, ramBlocks r⟩) ∧
      (dev < 0 → ¬ (0 < major ∧ 0 ≤ makedev major disk))) := by
  unfold entryRootMediaRegister
  by_cases outside : disk ≥ stMediaDisks b
  · rw [if_pos outside]
    exact Or.inl ⟨outside, rfl⟩
  rw [if_neg outside]
  refine Or.inr ⟨Nat.lt_of_not_ge outside, ?_⟩
  by_cases refused : major < 0
  · exact ⟨major, if_pos refused, fun _ handed => absurd handed.1 (by omega)⟩
  · exact ⟨makedev major disk, if_neg refused,
      fun negative handed => absurd handed.2 (Int.not_le.mpr negative)⟩

/-- A registration without a device number, and one the caller completes with the unit's own
geometry. -/
theorem AllSized.entry {u v : Units} {dev : Int} (sized : AllSized b r d u) {disk : Nat}
    {major : Int} (call : entryRootMediaRegister b r u disk major = (dev, v)) :
    (dev < 0 → AllSized b r d v) ∧
    (0 ≤ dev → ∀ w : Units, (∀ unit, unit ≠ disk → w.geometry unit = v.geometry unit) →
      w.geometry disk = ⟨major, 512, ownBlocks r d disk⟩ →
      (v.staged = true ∨ disk = 1 → w.staged = true) → AllSized b r d w) := by
  obtain ⟨_, refused⟩ | ⟨inside, number, accepted, handed⟩ :=
    register_cases (b := b) (r := r) u disk major
  · obtain ⟨rfl, rfl⟩ : -1 = dev ∧ u = v := by rw [refused] at call; simpa using call
    exact ⟨fun _ => sized, fun claims => absurd claims (by decide)⟩
  · obtain ⟨rfl, rfl⟩ : number = dev ∧ u.set disk ⟨major, 512, ramBlocks r⟩ = v := by
      rw [accepted] at call; simpa using call
    constructor
    · intro negative
      apply sized.of_one disk (fun unit other => set_other u _ other) (fun staged => staged)
      intro held
      rw [HandedOut, set_same] at held
      exact absurd held (handed negative)
    · intro _ w others own staged
      refine sized.of_one disk (fun unit other => ?_) (fun before => staged (Or.inl before)) ?_
      · rw [others unit other, set_other u _ other]
      · exact fun _ => ⟨inside, by rw [own], by rw [own], fun one => staged (Or.inr one)⟩

theorem AllSized.root {u : Units} (sized : AllSized b r d u) (major : Int) :
    AllSized b r d (entryRootMediaRegister b r u 0 major).2 := by
  rcases call : entryRootMediaRegister b r u 0 major with ⟨dev, v⟩
  obtain ⟨without, complete⟩ := sized.entry call
  by_cases negative : dev < 0
  · exact without negative
  have geometry : v.geometry 0 = ⟨major, 512, ownBlocks r d 0⟩ := by
    obtain ⟨outside, _⟩ | ⟨_, number, accepted, _⟩ :=
      register_cases (b := b) (r := r) u 0 major
    · simp [stMediaDisks] at outside
      split at outside <;> (try split at outside) <;> omega
    · rw [accepted] at call
      obtain ⟨-, rfl⟩ := Prod.mk.inj call
      exact set_same ..
  exact complete (Int.not_lt.mp negative) v (fun _ _ => rfl) geometry
    (fun staged => staged.resolve_right (by decide))

theorem AllSized.card {u : Units} (sized : AllSized b r d u) (major : Int) :
    AllSized b r d (entryRootMediaRegisterCard b r d u major).2 := by
  unfold entryRootMediaRegisterCard
  split_ifs
  · exact sized
  · exact sized
  rcases call : entryRootMediaRegister b r u stMediaDriver major with ⟨dev, v⟩
  obtain ⟨without, complete⟩ := sized.entry call
  by_cases negative : dev < 0
  · simpa only [if_pos negative] using without negative
  simp only [if_neg negative]
  exact complete (Int.not_lt.mp negative) _ (fun unit other => set_other v _ other) (set_same ..)
    (fun staged => staged.resolve_right (by decide))

theorem AllSized.cardRaw {u : Units} (sized : AllSized b r d u) (major : Int) :
    AllSized b r d (entryRootMediaRegisterCardRaw b r d u major).2 := by
  unfold entryRootMediaRegisterCardRaw
  split_ifs
  · exact sized
  · exact sized
  rcases call : entryRootMediaRegister b r u stMediaCardRaw major with ⟨dev, v⟩
  obtain ⟨without, complete⟩ := sized.entry call
  by_cases negative : dev < 0
  · simpa only [if_pos negative] using without negative
  simp only [if_neg negative]
  exact complete (Int.not_lt.mp negative) _ (fun unit other => set_other v _ other) (set_same ..)
    (fun staged => staged.resolve_right (by decide))

theorem AllSized.stage {u : Units} (sized : AllSized b r d u) (sector pages : UInt32)
    (words : List UInt32) (major cardMajor : Int) :
    AllSized b r d (entryRootMediaStage b r d u sector pages words major cardMajor).2 := by
  unfold entryRootMediaStage
  by_cases empty : words = []
  · rw [if_pos empty]
    exact sized
  rw [if_neg empty]
  -- The copy changes no geometry.
  have copied : ∀ w : Units, w.geometry = u.geometry → w.staged = u.staged → AllSized b r d w := by
    intro w geometry cell
    apply sized.of_one 0 (fun unit _ => by rw [geometry]) (fun staged => cell ▸ staged)
    intro handed
    rw [HandedOut, geometry] at handed
    obtain ⟨inside, blocksize, blockcount, staged⟩ := sized 0 handed
    exact ⟨inside, by rw [geometry]; exact blocksize, by rw [geometry]; exact blockcount,
      fun one => cell ▸ staged one⟩
  extract_lets _ w
  have taken : AllSized b r d w := copied w rfl rfl
  rcases call : entryRootMediaRegister b r w 1 major with ⟨dev, v⟩
  obtain ⟨without, complete⟩ := taken.entry call
  by_cases negative : dev < 0
  · simpa only [if_pos negative] using without negative
  simp only [if_neg negative]
  have staged : AllSized b r d { v.set 1 ⟨major, 512, 1⟩ with staged := true } :=
    complete (Int.not_lt.mp negative) _ (fun unit other => set_other v _ other)
      ((set_same v 1 _).trans rfl) (fun _ => rfl)
  split_ifs
  · exact staged.card cardMajor
  · exact staged

theorem AllSized.step {u : Units} (sized : AllSized b r d u) (call : Registration) :
    AllSized b r d (register b r d u call) := by
  cases call with
  | root major => exact sized.root major
  | stage sector pages words major cardMajor =>
      exact sized.stage sector pages words major cardMajor
  | card major => exact sized.card major
  | cardRaw major => exact sized.cardRaw major

theorem bss_sized : AllSized b r d bss := by
  intro unit handed
  exact absurd handed.1 (Int.lt_irrefl _)

/-- Whatever the order of the calls and the answers of `bdevsw_add`, a unit with a device
number has its own geometry. -/
theorem registered_sized (calls : List Registration) : AllSized b r d (registered b r d calls) := by
  suffices ∀ u, AllSized b r d u → AllSized b r d (calls.foldl (Media.register b r d) u) from
    this bss bss_sized
  induction calls with
  | nil => exact fun _ sized => sized
  | cons call calls ih => exact fun u sized => ih _ (sized.step call)

/-! ## The two lengths -/

variable (b r d)

/-- What the strategy reads once the units `u` are registered. -/
def served (u : Units) : Device :=
  { d with
    staged := u.staged
    stagedSector := fun a => ((u.virt.getD (a / 4) 0).toNat / 2 ^ (8 * (a % 4)) % 256).toUInt8
    ramBytes := stMediaStrategyBytes r }

/-- The length the strategy bounds by is the size answered, and a block lies wholly inside it
just when the device claims to have it. -/
structure SizesAgree (u : Units) (unit : Nat) : Prop where
  answered : ∃ blocks size, stMediaIoctl b u unit .getBlockCount = some (some blocks) ∧
    stMediaIoctl b u unit .getBlockSize = some (some size) ∧
    strategyLen b (served r d u) unit = blocks * size ∧
    ∀ n, n < blocks ↔ (n + 1) * size ≤ strategyLen b (served r d u) unit

/-- The mount unit's length survives the accessor it is computed by. -/
def Addressable (unit : Nat) : Prop :=
  unit = stMediaDriver → b.fullExtent = true ∨ d.selectedCount.toNat * 512 < 2 ^ 32

/-- The RAM disk's unit serves the sectors it was registered with. -/
def WholeSectors (unit : Nat) : Prop :=
  unit = 0 →
    (512 ∣ (stMediaBytes r).toNat ∧ stMediaStrategyBytes r = stMediaBytes r) ∨
    (¬ 512 ∣ (stMediaBytes r).toNat ∧ stMediaStrategyBytes r = 0)

variable {b r d}

theorem sizesAgree_iff_length {u : Units} {unit : Nat} (sized : Sized b r d u unit) :
    SizesAgree b r d u unit ↔
      strategyLen b (served r d u) unit = (ownBlocks r d unit).toNat * 512 := by
  have inside : ¬ unit ≥ stMediaDisks b := Nat.not_le.mpr sized.inside
  have count : stMediaIoctl b u unit .getBlockCount = some (some (ownBlocks r d unit).toNat) := by
    simp [stMediaIoctl, inside, sized.blockcount]
  have size : stMediaIoctl b u unit .getBlockSize = some (some 512) := by
    simp [stMediaIoctl, inside, sized.blocksize]
  constructor
  · rintro ⟨blocks, bytes, answerCount, answerSize, length, -⟩
    obtain rfl : blocks = (ownBlocks r d unit).toNat := by simpa [count] using answerCount.symm
    obtain rfl : bytes = 512 := by simpa [size] using answerSize.symm
    exact length
  · intro length
    refine ⟨_, 512, count, size, length, fun n => ?_⟩
    rw [length]
    omega

theorem ramBlocks_bytes :
    (ramBlocks r).toNat * 512 =
      if 512 ∣ (stMediaBytes r).toNat then (stMediaBytes r).toNat else 0 := by
  have rest : stMediaBytes r % 512 = 0 ↔ 512 ∣ (stMediaBytes r).toNat := by
    rw [← UInt32.toNat_inj, Nat.dvd_iff_mod_eq_zero]
    simp
  unfold ramBlocks
  by_cases whole : 512 ∣ (stMediaBytes r).toNat
  · rw [if_neg (not_not.mpr (rest.mpr whole)), if_pos whole, UInt32.toNat_div]
    exact Nat.div_mul_cancel whole
  · rw [if_pos (mt rest.mp whole), if_neg whole]
    rfl

/-- Unit 0 of every build is the RAM disk. -/
theorem root_length (u : Units) :
    strategyLen b (served r d u) 0 = (stMediaStrategyBytes r).toNat := by
  have inside : ¬ 0 ≥ stMediaDisks b := by
    unfold stMediaDisks
    split_ifs <;> decide
  simp [strategyLen, stMediumDiskBytes, stMediaRawUnit, stMediaDriver, stMediaCardRaw, inside, served]

theorem root_agrees_iff (u : Units) :
    strategyLen b (served r d u) 0 = (ownBlocks r d 0).toNat * 512 ↔ WholeSectors r 0 := by
  have own : ownBlocks r d 0 = ramBlocks r := rfl
  rw [root_length, own, ramBlocks_bytes]
  by_cases whole : 512 ∣ (stMediaBytes r).toNat
  · simp [WholeSectors, whole, UInt32.toNat_inj]
  · simp [WholeSectors, whole, ← UInt32.toNat_inj]

theorem staged_agrees {u : Units} (staged : u.staged = true) :
    strategyLen b (served r d u) 1 = (ownBlocks r d 1).toNat * 512 := by
  have inside : ¬ 1 ≥ stMediaDisks b := by
    unfold stMediaDisks
    split_ifs <;> decide
  simp [strategyLen, stMediumDiskBytes, stMediaRawUnit, stMediaDriver, stMediaCardRaw, inside,
    served, staged, stMediaBlocksize, ownBlocks]

/-- The 32-bit accessor is exact below 4 GiB and nowhere else. -/
theorem driver_agrees_iff {u : Units} (inside : stMediaDriver < stMediaDisks b) :
    strategyLen b (served r d u) stMediaDriver = (ownBlocks r d stMediaDriver).toNat * 512 ↔
      Addressable b d stMediaDriver := by
  have emmc : b.emmcStrategy = true := by
    by_contra off
    simp [stMediaDisks, stMediaDriver, off] at inside
  have own : ownBlocks r d stMediaDriver = d.selectedCount := rfl
  have count : (served r d u).selectedCount = d.selectedCount := rfl
  rw [own]
  by_cases full : b.fullExtent = true
  · simp [strategyLen_full b _ full, count, Addressable, full, stMediaBlocksize]
  have length : strategyLen b (served r d u) stMediaDriver = u32 (d.selectedCount.toNat * 512) := by
    simp [strategyLen, full, stMediumDiskBytes, emmc, Nat.not_le.mpr inside, count, stMediaBlocksize]
  rw [length]
  constructor
  · intro exact_ _
    exact Or.inr (exact_ ▸ u32_lt _)
  · intro addressable
    exact u32_of_lt ((addressable rfl).resolve_left full)

theorem raw_agrees {u : Units} (inside : stMediaCardRaw < stMediaDisks b) :
    strategyLen b (served r d u) stMediaCardRaw = (ownBlocks r d stMediaCardRaw).toNat * 512 := by
  have raw : stMediaRawUnit b stMediaCardRaw = true := by
    unfold stMediaDisks at inside
    split_ifs at inside with both
    · simpa [stMediaRawUnit] using both
    · exact absurd inside (by decide)
    · exact absurd inside (by decide)
  have own : ownBlocks r d stMediaCardRaw = d.cardSectors := rfl
  rw [own, strategyLen, if_pos raw]
  rfl

/-- Capacity and addressable length of every registered unit, in every build and after every
run of registrations. -/
theorem sizesAgree_iff (calls : List Registration) (unit : Nat)
    (handed : HandedOut (registered b r d calls) unit) :
    SizesAgree b r d (registered b r d calls) unit ↔
      Addressable b d unit ∧ WholeSectors r unit := by
  have sized := registered_sized calls unit handed
  have inside := sized.inside
  rw [sizesAgree_iff_length sized]
  have four : stMediaDisks b ≤ 4 := by
    unfold stMediaDisks
    split_ifs <;> decide
  obtain rfl | rfl | rfl | rfl :
      unit = 0 ∨ unit = 1 ∨ unit = stMediaDriver ∨ unit = stMediaCardRaw := by
    unfold stMediaDriver stMediaCardRaw
    omega
  · rw [root_agrees_iff]
    exact ⟨fun whole => ⟨fun driver => absurd driver (by decide), whole⟩, And.right⟩
  · exact iff_of_true (staged_agrees (sized.staged rfl))
      ⟨fun driver => absurd driver (by decide), fun root => absurd root (by decide)⟩
  · rw [driver_agrees_iff inside]
    exact ⟨fun fits => ⟨fits, fun root => absurd root (by decide)⟩, And.left⟩
  · exact iff_of_true (raw_agrees inside)
      ⟨fun driver => absurd driver (by decide), fun root => absurd root (by decide)⟩

end Agreement

/-! ## The `userdata` partition -/

/-- The card strategy alone, as it stood before `STAGE90_XNU_FULL_EXTENT`. -/
def strategyBuild : Build where
  emmcStrategy := true
  cardTotal := false
  fullExtent := false
  cardCow := false
  hddWrite := false
  cardTotal_needs := by decide
  fullExtent_needs := by decide
  cardCow_needs := by decide
  hddWrite_needs := by decide
  one_write_branch := by decide

/-- A selection of `count` sectors on the 16 GB part. -/
def selection (count : UInt32) : Device where
  selectedLba := 4194304
  selectedCount := count
  cardSectors := 0x01d5a000
  staged := false
  stagedSector := fun _ => 0
  ram := fun _ => 0
  ramBytes := 0

def mounted : List Registration := [.stage 4194306 1 [0x4858] 24 25, .root 26]

/-- A 2 GiB selection has the size it claims. -/
theorem sizesAgree_two_gib :
    HandedOut (registered strategyBuild ⟨8192, none⟩ (selection 4194304) mounted) stMediaDriver ∧
      SizesAgree strategyBuild ⟨8192, none⟩ (selection 4194304)
        (registered strategyBuild ⟨8192, none⟩ (selection 4194304) mounted) stMediaDriver :=
  have handed : HandedOut (registered strategyBuild ⟨8192, none⟩ (selection 4194304) mounted)
      stMediaDriver := by unfold HandedOut; decide
  ⟨handed, (sizesAgree_iff mounted stMediaDriver handed).mpr
    ⟨fun _ => Or.inr (by decide), fun root => absurd root (by decide)⟩⟩

/-- The 13,610,499,072 bytes of `userdata` are served as 725,597,184. -/
theorem userdata_cut :
    ¬ ∀ (b : Build) (r : RamDisk) (d : Device) (calls : List Registration) (unit : Nat),
      HandedOut (registered b r d calls) unit →
        SizesAgree b r d (registered b r d calls) unit := by
  intro every
  have handed : HandedOut (registered strategyBuild ⟨8192, none⟩ (selection 26583006) mounted)
      stMediaDriver := by unfold HandedOut; decide
  have agrees := every strategyBuild ⟨8192, none⟩ (selection 26583006) mounted _ handed
  have sized := registered_sized mounted _ handed
  have wide := (driver_agrees_iff sized.inside).mp ((sizesAgree_iff_length sized).mp agrees)
  exact absurd (wide rfl) (by decide)

end Stage90.Media

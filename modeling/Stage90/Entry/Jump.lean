import Stage90.Lib.ByteImage

/-!
# The jump into the kernel

`xnu_entry_jump.c` fills one window: the image, its BSS, the device tree and the `boot_args`.
The constants of the layout are those of the generated header.  The caller's `boot_args` lies
outside of the window; the image and the tree are read from the one flat memory that is written.
-/

set_option autoImplicit false

namespace Stage90.Entry

open Lib

/-- The generated header `xnu_arm_entry.h`. -/
structure Layout where
  base : UInt32
  size : UInt32
  entry : UInt32
  bssStart : UInt32
  bssEnd : UInt32
  argsOffset : UInt32
  topOfKernelDataOffset : UInt32
  dtOffset : UInt32
  dtMax : UInt32

def Layout.argsPa (l : Layout) : UInt32 := l.base + l.argsOffset

def Layout.dtPa (l : Layout) : UInt32 := l.base + l.dtOffset

def Layout.bssBytes (l : Layout) : UInt32 := l.bssEnd - l.bssStart

def bootLineLength : Nat := 256
def bootArgsRevision : UInt16 := 2
def bootArgsVersion : UInt16 := 2
def machineTypeMsm8974 : UInt32 := 0x9074

abbrev BootLine := { line : List UInt8 // line.length = bootLineLength }

structure BootArgs where
  revision : UInt16
  version : UInt16
  virtBase : UInt32
  physBase : UInt32
  memSize : UInt32
  topOfKernelData : UInt32
  /-- `v_baseAddr` to `v_depth`. -/
  video : UInt32 × UInt32 × UInt32 × UInt32 × UInt32 × UInt32
  machineType : UInt32
  deviceTreeP : UInt32
  deviceTreeLength : UInt32
  commandLine : BootLine
  bootFlags : UInt32
  memSizeActual : UInt32

def le16 (n : UInt16) : List UInt8 := [UInt8.ofNat n.toNat, UInt8.ofNat (n.toNat / 2 ^ 8)]

def BootArgs.encode (a : BootArgs) : List UInt8 :=
  le16 a.revision ++ le16 a.version ++ le32 a.virtBase.toNat ++ le32 a.physBase.toNat ++
    le32 a.memSize.toNat ++ le32 a.topOfKernelData.toNat ++ le32 a.video.1.toNat ++
    le32 a.video.2.1.toNat ++ le32 a.video.2.2.1.toNat ++ le32 a.video.2.2.2.1.toNat ++
    le32 a.video.2.2.2.2.1.toNat ++ le32 a.video.2.2.2.2.2.toNat ++ le32 a.machineType.toNat ++
    le32 a.deviceTreeP.toNat ++ le32 a.deviceTreeLength.toNat ++ a.commandLine.1 ++
    le32 a.bootFlags.toNat ++ le32 a.memSizeActual.toNat

def sizeofBootArgs : UInt32 := 320

theorem length_encode (a : BootArgs) : a.encode.length = sizeofBootArgs.toNat := by
  simp only [BootArgs.encode, le16, le32, List.length_append, List.length_cons, List.length_nil,
    a.commandLine.2]
  rfl

def storeBytes (mem : Mem) (dest : UInt32) (bytes : List UInt8) : Mem := fun a =>
  if (a - dest).toNat < bytes.length then bytes.getD (a - dest).toNat 0 else mem a

/-- The tree that `xnu_entry_copy_device_tree` copies. -/
def Accepts (l : Layout) (src : BootArgs) : Prop :=
  ¬ (src.deviceTreeP = 0 ∨ src.deviceTreeLength = 0 ∨ l.dtMax < src.deviceTreeLength)

instance (l : Layout) (src : BootArgs) : Decidable (Accepts l src) :=
  inferInstanceAs (Decidable (¬ _))

def xnuEntryCopyDeviceTree (l : Layout) (src : BootArgs) (mem : Mem) : Mem :=
  if Accepts l src then memcpy mem l.dtPa src.deviceTreeP src.deviceTreeLength else mem

def terminated (line : BootLine) : BootLine :=
  ⟨line.1.set (bootLineLength - 1) 0, by rw [List.length_set, line.2]⟩

def xnuEntryBuildArgs (l : Layout) (src : BootArgs) : BootArgs where
  revision := bootArgsRevision
  version := bootArgsVersion
  virtBase := l.base
  physBase := l.base
  memSize := l.size
  topOfKernelData := l.base + l.topOfKernelDataOffset
  video := (0, 0, 0, 0, 0, 0)
  machineType := machineTypeMsm8974
  deviceTreeP := l.dtPa
  deviceTreeLength := if src.deviceTreeLength ≤ l.dtMax then src.deviceTreeLength else 0
  commandLine := terminated src.commandLine
  bootFlags := 0
  memSizeActual := l.size

inductive Outcome
  | refused
  /-- What is in memory at the jump, and `r0` and `r1`. -/
  | jump (mem : Mem) (bootArgsPa entry : UInt32)

/-- The guard of `stage90_xnu_entry_run`. -/
def Passes (l : Layout) (blobSize : UInt32) : Prop :=
  ¬ (blobSize = 0 ∨ l.entry < l.base ∨ l.base + l.size ≤ l.entry ∨
    l.base + l.topOfKernelDataOffset < l.bssEnd)

instance (l : Layout) (blobSize : UInt32) : Decidable (Passes l blobSize) :=
  inferInstanceAs (Decidable (¬ _))

def copyImage (l : Layout) (blob blobSize : UInt32) (mem : Mem) : Mem :=
  memset (memcpy mem l.base blob blobSize) l.bssStart 0 l.bssBytes

def stage90XnuEntryRun (l : Layout) (blob blobSize : UInt32) (src : BootArgs) (mem : Mem) : Outcome :=
  if Passes l blobSize then
    let mem := xnuEntryCopyDeviceTree l src (copyImage l blob blobSize mem)
    .jump (storeBytes (memset mem l.argsPa 0 sizeofBootArgs) l.argsPa (xnuEntryBuildArgs l src).encode)
      l.argsPa l.entry
  else
    .refused

/-! ## What is handed over -/

/-- The address is one of the `n` from `dest` on. -/
def Covers (dest n a : UInt32) : Prop := a - dest < n

instance (dest n a : UInt32) : Decidable (Covers dest n a) := inferInstanceAs (Decidable (_ < _))

def Within (dest n dest' n' : UInt32) : Prop := ∀ a, Covers dest n a → Covers dest' n' a

def Apart (dest n dest' n' : UInt32) : Prop := ∀ a, Covers dest n a → ¬ Covers dest' n' a

section
variable (l : Layout) (blob blobSize : UInt32) (src : BootArgs) (start : Mem)

/-- What the kernel finds in memory, with the record that it is handed. -/
structure HandedOver (mem : Mem) (args : BootArgs) : Prop where
  blob_inside : Within l.base blobSize l.base l.size
  blob_bytes : ∀ a, Covers l.base blobSize a → ¬ Covers l.bssStart l.bssBytes a →
    mem a = start (blob + (a - l.base))
  bss_zero : ∀ a, Covers l.bssStart l.bssBytes a → mem a = 0
  args_there : LiesAt mem l.argsPa args.encode
  args_inside : Within l.argsPa sizeofBootArgs l.base l.size
  args_blob : Apart l.argsPa sizeofBootArgs l.base blobSize
  args_bss : Apart l.argsPa sizeofBootArgs l.bssStart l.bssBytes
  tree_inside : Accepts l src → Within l.dtPa src.deviceTreeLength l.base l.size
  tree_blob : Accepts l src → Apart l.dtPa src.deviceTreeLength l.base blobSize
  tree_bss : Accepts l src → Apart l.dtPa src.deviceTreeLength l.bssStart l.bssBytes
  tree_args : Accepts l src → Apart l.dtPa src.deviceTreeLength l.argsPa sizeofBootArgs
  /-- A length is handed over only with the bytes of the source's tree, which a NULL is not. -/
  tree_bytes : args.deviceTreeLength ≠ 0 →
    src.deviceTreeP ≠ 0 ∧ args.deviceTreeLength = src.deviceTreeLength ∧
      ∀ i, i < args.deviceTreeLength → mem (args.deviceTreeP + i) = start (src.deviceTreeP + i)

/-- The copy of the image reads no byte that it has changed. -/
def ImageSurvives : Prop :=
  ∀ i, i < blobSize → ¬ Covers l.bssStart l.bssBytes (l.base + i) →
    start (origin l.base blob i) = start (blob + i)

/-- The copy of the tree reads no byte that the image, the BSS or the copy itself has changed. -/
def TreeSurvives : Prop :=
  ∀ i, i < src.deviceTreeLength →
    let a := origin l.dtPa src.deviceTreeP i
    start (src.deviceTreeP + i) =
      if Covers l.bssStart l.bssBytes a then 0
      else if Covers l.base blobSize a then start (origin l.base blob (a - l.base))
      else start a

/-- What the guard leaves to the build and the caller: the ranges that are written lie in the
window, apart, and off what is still to be read. -/
structure LaidOut : Prop where
  blob_inside : Within l.base blobSize l.base l.size
  args_inside : Within l.argsPa sizeofBootArgs l.base l.size
  args_blob : Apart l.argsPa sizeofBootArgs l.base blobSize
  args_bss : Apart l.argsPa sizeofBootArgs l.bssStart l.bssBytes
  tree_inside : Accepts l src → Within l.dtPa src.deviceTreeLength l.base l.size
  tree_blob : Accepts l src → Apart l.dtPa src.deviceTreeLength l.base blobSize
  tree_bss : Accepts l src → Apart l.dtPa src.deviceTreeLength l.bssStart l.bssBytes
  tree_args : Accepts l src → Apart l.dtPa src.deviceTreeLength l.argsPa sizeofBootArgs
  image_survives : ImageSurvives l blob blobSize start
  tree_survives : Accepts l src → TreeSurvives l blob blobSize src start

/-- The tree is refused by the copy, and its length is not by the builder. -/
def HalfRefused : Prop :=
  src.deviceTreeP = 0 ∧ src.deviceTreeLength ≠ 0 ∧ src.deviceTreeLength ≤ l.dtMax

end

section Memory
variable {l : Layout} {blob blobSize : UInt32} {src : BootArgs} {start mem : Mem} {a : UInt32}

theorem covers_add {dest n i : UInt32} (inside : i < n) : Covers dest n (dest + i) := by
  rw [Covers, UInt32.add_comm, UInt32.add_sub_cancel]
  exact inside

theorem copyImage_apply : copyImage l blob blobSize mem a =
    if Covers l.bssStart l.bssBytes a then 0
    else if Covers l.base blobSize a then mem (origin l.base blob (a - l.base))
    else mem a := by
  rw [copyImage, memset, memcpy_apply]
  rfl

theorem copyImage_bss (there : Covers l.bssStart l.bssBytes a) :
    copyImage l blob blobSize mem a = 0 := by
  rw [copyImage_apply, if_pos there]

theorem copyImage_blob (bss : ¬ Covers l.bssStart l.bssBytes a) (there : Covers l.base blobSize a) :
    copyImage l blob blobSize mem a = mem (origin l.base blob (a - l.base)) := by
  rw [copyImage_apply, if_neg bss, if_pos there]

theorem treeSurvives_iff :
    TreeSurvives l blob blobSize src start ↔ ∀ i, i < src.deviceTreeLength →
      copyImage l blob blobSize start (origin l.dtPa src.deviceTreeP i) =
        start (src.deviceTreeP + i) := by
  apply forall₂_congr
  intro i _
  rw [copyImage_apply]
  exact eq_comm

theorem copyTree_there (accepts : Accepts l src) {i : UInt32} (inside : i < src.deviceTreeLength) :
    xnuEntryCopyDeviceTree l src mem (l.dtPa + i) = mem (origin l.dtPa src.deviceTreeP i) := by
  rw [xnuEntryCopyDeviceTree, if_pos accepts, memcpy_apply, UInt32.add_comm l.dtPa,
    UInt32.add_sub_cancel, if_pos inside]

/-- Where the tree is not put, or when none is, the copy changes nothing. -/
theorem copyTree_elsewhere (elsewhere : Accepts l src → ¬ Covers l.dtPa src.deviceTreeLength a) :
    xnuEntryCopyDeviceTree l src mem a = mem a := by
  rw [xnuEntryCopyDeviceTree]
  by_cases accepts : Accepts l src
  · rw [if_pos accepts]
    exact memcpy_outside (elsewhere accepts) mem
  · rw [if_neg accepts]

def withArgs (l : Layout) (args : BootArgs) (mem : Mem) : Mem :=
  storeBytes (memset mem l.argsPa 0 sizeofBootArgs) l.argsPa args.encode

theorem withArgs_outside {args : BootArgs} (outside : ¬ Covers l.argsPa sizeofBootArgs a) :
    withArgs l args mem a = mem a := by
  have far : ¬ (a - l.argsPa).toNat < args.encode.length := by
    rw [length_encode, ← UInt32.lt_iff_toNat_lt]
    exact outside
  rw [withArgs, storeBytes, if_neg far]
  exact if_neg outside

theorem liesAt_withArgs (args : BootArgs) : LiesAt (withArgs l args mem) l.argsPa args.encode := by
  intro i c there
  have inside := (List.getElem?_eq_some_iff.mp there).1
  have small : i < 2 ^ 32 := by
    rw [length_encode] at inside
    exact Nat.lt_trans inside (by decide)
  have offset : (l.argsPa + UInt32.ofNat i - l.argsPa).toNat = i := by
    rw [UInt32.add_comm, UInt32.add_sub_cancel, UInt32.toNat_ofNat_of_lt' small]
  rw [withArgs, storeBytes, offset, if_pos inside, List.getD_eq_getElem?_getD, there]
  rfl

/-- The length that the builder hands over is the source's when the copy is made, and 0 when the
length alone is refused. -/
theorem length_built (accepts : Accepts l src) :
    (xnuEntryBuildArgs l src).deviceTreeLength = src.deviceTreeLength := by
  have small : src.deviceTreeLength ≤ l.dtMax :=
    UInt32.not_lt.mp fun large => accepts (Or.inr (Or.inr large))
  exact if_pos small

theorem length_refused (whole : ¬ HalfRefused l src) (refuses : ¬ Accepts l src) :
    (xnuEntryBuildArgs l src).deviceTreeLength = 0 := by
  rw [Accepts, not_not] at refuses
  rcases refuses with null | none_ | large
  · by_cases none_ : src.deviceTreeLength = 0
    · simp only [xnuEntryBuildArgs, none_, ite_self]
    · exact if_neg fun small => whole ⟨null, none_, small⟩
  · simp only [xnuEntryBuildArgs, none_, ite_self]
  · exact if_neg (UInt32.not_le.mpr large)

def atJump (l : Layout) (blob blobSize : UInt32) (src : BootArgs) (start : Mem) : Mem :=
  withArgs l (xnuEntryBuildArgs l src)
    (xnuEntryCopyDeviceTree l src (copyImage l blob blobSize start))

theorem handedOver_of_laidOut (laid : LaidOut l blob blobSize src start)
    (whole : ¬ HalfRefused l src) :
    HandedOver l blob blobSize src start (atJump l blob blobSize src start)
      (xnuEntryBuildArgs l src) where
  blob_inside := laid.blob_inside
  blob_bytes a there bss := by
    rw [atJump, withArgs_outside fun args => laid.args_blob a args there,
      copyTree_elsewhere fun accepts tree => laid.tree_blob accepts a tree there,
      copyImage_blob bss there]
    have place : l.base + (a - l.base) = a := by rw [UInt32.add_comm, UInt32.sub_add_cancel]
    exact laid.image_survives (a - l.base) there (place.symm ▸ bss)
  bss_zero a there := by
    rw [atJump, withArgs_outside fun args => laid.args_bss a args there,
      copyTree_elsewhere fun accepts tree => laid.tree_bss accepts a tree there,
      copyImage_bss there]
  args_there := liesAt_withArgs _
  args_inside := laid.args_inside
  args_blob := laid.args_blob
  args_bss := laid.args_bss
  tree_inside := laid.tree_inside
  tree_blob := laid.tree_blob
  tree_bss := laid.tree_bss
  tree_args := laid.tree_args
  tree_bytes some_ := by
    by_cases accepts : Accepts l src
    · rw [length_built accepts]
      refine ⟨fun null => accepts (Or.inl null), rfl, ?_⟩
      intro i inside
      have tree : Covers l.dtPa src.deviceTreeLength (l.dtPa + i) := covers_add inside
      have kept := treeSurvives_iff.mp (laid.tree_survives accepts) i inside
      rw [atJump, xnuEntryBuildArgs, withArgs_outside (laid.tree_args accepts _ tree),
        copyTree_there accepts inside, kept]
    · exact absurd (length_refused whole accepts) some_

theorem laidOut_of_handedOver
    (handed : HandedOver l blob blobSize src start (atJump l blob blobSize src start)
      (xnuEntryBuildArgs l src)) : LaidOut l blob blobSize src start where
  blob_inside := handed.blob_inside
  args_inside := handed.args_inside
  args_blob := handed.args_blob
  args_bss := handed.args_bss
  tree_inside := handed.tree_inside
  tree_blob := handed.tree_blob
  tree_bss := handed.tree_bss
  tree_args := handed.tree_args
  image_survives i inside bss := by
    have there : Covers l.base blobSize (l.base + i) := covers_add inside
    have byte := handed.blob_bytes _ there bss
    have offset : l.base + i - l.base = i := by rw [UInt32.add_comm, UInt32.add_sub_cancel]
    rw [atJump, withArgs_outside fun args => handed.args_blob _ args there,
      copyTree_elsewhere fun accepts tree => handed.tree_blob accepts _ tree there,
      copyImage_blob bss there, offset] at byte
    exact byte
  tree_survives accepts := by
    apply treeSurvives_iff.mpr
    intro i inside
    have length := length_built accepts
    have some_ : (xnuEntryBuildArgs l src).deviceTreeLength ≠ 0 := by
      rw [length]
      exact fun none_ => accepts (Or.inr (Or.inl none_))
    have tree : Covers l.dtPa src.deviceTreeLength (l.dtPa + i) := covers_add inside
    have same := (handed.tree_bytes some_).2.2 i (length ▸ inside)
    rw [atJump, xnuEntryBuildArgs, withArgs_outside (handed.tree_args accepts _ tree),
      copyTree_there accepts inside] at same
    exact same

theorem not_halfRefused_of_handedOver
    (handed : HandedOver l blob blobSize src start mem (xnuEntryBuildArgs l src)) :
    ¬ HalfRefused l src := by
  intro half
  obtain ⟨null, some_, small⟩ := half
  have length : (xnuEntryBuildArgs l src).deviceTreeLength = src.deviceTreeLength := if_pos small
  exact (handed.tree_bytes (length ▸ some_)).1 null

theorem run_jumps (passes : Passes l blobSize) :
    stage90XnuEntryRun l blob blobSize src start =
      .jump (atJump l blob blobSize src start) l.argsPa l.entry :=
  if_pos passes

/-- Behind its guard, and unless the tree is refused by the copy alone, the run hands over what it
was given just when the layout keeps apart what the guard does not look at. -/
theorem handedOver_iff_laidOut (passes : Passes l blobSize) (whole : ¬ HalfRefused l src) :
    (∃ mem, stage90XnuEntryRun l blob blobSize src start = .jump mem l.argsPa l.entry ∧
        HandedOver l blob blobSize src start mem (xnuEntryBuildArgs l src)) ↔
      LaidOut l blob blobSize src start := by
  constructor
  · intro there
    obtain ⟨mem, jumps, handed⟩ := there
    rw [run_jumps passes, Outcome.jump.injEq] at jumps
    rw [← jumps.1] at handed
    exact laidOut_of_handedOver handed
  · intro laid
    exact ⟨_, run_jumps passes, handedOver_of_laidOut laid whole⟩

end Memory

/-! ## What the build checks -/

/-- The refusals of `build_entry.sh`, for an image of `binSize` bytes. -/
structure Built (l : Layout) (binSize : UInt32) : Prop where
  bss_behind_image : l.base.toNat + binSize.toNat ≤ l.bssStart.toNat
  bss_ordered : l.bssStart.toNat ≤ l.bssEnd.toNat
  args_behind_bss : l.bssEnd.toNat ≤ l.base.toNat + l.argsOffset.toNat
  tree_behind_args : l.argsOffset.toNat + 0x1000 ≤ l.dtOffset.toNat
  tree_inside : l.dtOffset.toNat + l.dtMax.toNat ≤ l.size.toNat

section Build
variable {l : Layout} {blobSize : UInt32}

theorem apart_of_before {base o n o' n' : UInt32} (before : o.toNat + n.toNat ≤ o'.toNat)
    (fits : o'.toNat + n'.toNat ≤ 2 ^ 32) : Apart (base + o') n' (base + o) n := by
  intro a there other
  have same : o + (a - (base + o)) = o' + (a - (base + o')) := by grind
  have sum := congrArg UInt32.toNat same
  have small := o'.toNat_lt
  rw [Covers, UInt32.lt_iff_toNat_lt] at there other
  rw [UInt32.toNat_add, UInt32.toNat_add, Nat.mod_eq_of_lt (by omega),
    Nat.mod_eq_of_lt (by omega)] at sum
  omega

theorem within_of_le {base o n size : UInt32} (fits : o.toNat + n.toNat ≤ size.toNat) :
    Within (base + o) n base size := by
  intro a there
  have offset : a - base = o + (a - (base + o)) := by grind
  have small := size.toNat_lt
  rw [Covers, UInt32.lt_iff_toNat_lt] at there ⊢
  rw [offset, UInt32.toNat_add, Nat.mod_eq_of_lt (by omega)]
  omega

/-- A layout that the build lets through leaves open only where the image and the source's tree
come from. -/
theorem laidOut_of_built (built : Built l blobSize) {blob : UInt32} {src : BootArgs} {start : Mem}
    (image : ImageSurvives l blob blobSize start)
    (tree : Accepts l src → TreeSurvives l blob blobSize src start) :
    LaidOut l blob blobSize src start := by
  obtain ⟨behind, ordered, args, record, inside⟩ := built
  have size := l.size.toNat_lt
  have sizeof : sizeofBootArgs.toNat = 320 := rfl
  have first : (0 : UInt32).toNat = 0 := rfl
  have base : l.base + 0 = l.base := UInt32.add_zero l.base
  have bss : l.base + (l.bssStart - l.base) = l.bssStart := by grind
  have bssOffset : (l.bssStart - l.base).toNat = l.bssStart.toNat - l.base.toNat :=
    UInt32.toNat_sub_of_le _ _ (UInt32.le_iff_toNat_le.mpr (by omega))
  have bssBytes : l.bssBytes.toNat = l.bssEnd.toNat - l.bssStart.toNat :=
    UInt32.toNat_sub_of_le _ _ (UInt32.le_iff_toNat_le.mpr ordered)
  have length : Accepts l src → src.deviceTreeLength.toNat ≤ l.dtMax.toNat := by
    intro accepts
    have small : src.deviceTreeLength ≤ l.dtMax :=
      UInt32.not_lt.mp fun large => accepts (Or.inr (Or.inr large))
    exact UInt32.le_iff_toNat_le.mp small
  have blob_inside : Within (l.base + 0) blobSize l.base l.size := within_of_le (by omega)
  have args_blob : Apart l.argsPa sizeofBootArgs (l.base + 0) blobSize :=
    apart_of_before (by omega) (by omega)
  have args_bss : Apart l.argsPa sizeofBootArgs (l.base + (l.bssStart - l.base)) l.bssBytes :=
    apart_of_before (by omega) (by omega)
  have tree_blob (accepts : Accepts l src) :
      Apart l.dtPa src.deviceTreeLength (l.base + 0) blobSize := by
    have small := length accepts
    exact apart_of_before (by omega) (by omega)
  have tree_bss (accepts : Accepts l src) :
      Apart l.dtPa src.deviceTreeLength (l.base + (l.bssStart - l.base)) l.bssBytes := by
    have small := length accepts
    exact apart_of_before (by omega) (by omega)
  rw [base] at blob_inside args_blob tree_blob
  rw [bss] at args_bss tree_bss
  exact
    { blob_inside := blob_inside
      args_inside := within_of_le (by omega)
      args_blob := args_blob
      args_bss := args_bss
      tree_inside := fun accepts => within_of_le (by
        have small := length accepts
        omega)
      tree_blob := tree_blob
      tree_bss := tree_bss
      tree_args := fun accepts => apart_of_before (by omega) (by
        have small := length accepts
        omega)
      image_survives := image
      tree_survives := tree }

theorem Apart.symm {dest n dest' n' : UInt32} (apart : Apart dest n dest' n') :
    Apart dest' n' dest n :=
  fun a there other => apart a other there

/-- An image that ends before the window does, or starts behind it, is copied as it is. -/
theorem imageSurvives_of_clear {blob : UInt32} {start : Mem} (clear : blobSize ≤ l.base - blob) :
    ImageSurvives l blob blobSize start := by
  intro i inside _
  rw [origin_clear clear inside]

/-- A tree outside of the image, the BSS and its own place is copied as it is. -/
theorem treeSurvives_of_apart {blob : UInt32} {src : BootArgs} {start : Mem}
    (image : Apart src.deviceTreeP src.deviceTreeLength l.base blobSize)
    (bss : Apart src.deviceTreeP src.deviceTreeLength l.bssStart l.bssBytes)
    (clear : src.deviceTreeLength ≤ l.dtPa - src.deviceTreeP) :
    TreeSurvives l blob blobSize src start := by
  intro i inside
  have there : Covers src.deviceTreeP src.deviceTreeLength (src.deviceTreeP + i) :=
    covers_add inside
  rw [origin_clear clear inside]
  dsimp only
  rw [if_neg (bss _ there), if_neg (image _ there)]

end Build

section Sample

def sampleLayout : Layout where
  base := 0x80000000
  size := 0x04000000
  entry := 0x80000074
  bssStart := 0x80130a00
  bssEnd := 0x80168000
  argsOffset := 0x169000
  topOfKernelDataOffset := 0x300000
  dtOffset := 0x2e0000
  dtMax := 0x20000

def sampleArgs (deviceTreeP deviceTreeLength : UInt32) : BootArgs where
  revision := bootArgsRevision
  version := bootArgsVersion
  virtBase := 0x80000000
  physBase := 0x80000000
  memSize := 0x04000000
  topOfKernelData := 0
  video := (0, 0, 0, 0, 0, 0)
  machineType := machineTypeMsm8974
  deviceTreeP := deviceTreeP
  deviceTreeLength := deviceTreeLength
  commandLine := ⟨List.replicate bootLineLength 0, List.length_replicate⟩
  bootFlags := 0
  memSizeActual := 0

theorem sampleLayout_built : Built sampleLayout 0x130940 := by
  constructor <;> decide

/-- A tree of 0x7294 bytes at 3 MB, and an image at 1 MB. -/
theorem handedOver_sample :
    ∃ mem, stage90XnuEntryRun sampleLayout 0x100000 0x130940 (sampleArgs 0x300000 0x7294)
        (fun a => a.toUInt8) = .jump mem 0x80169000 0x80000074 ∧
      HandedOver sampleLayout 0x100000 0x130940 (sampleArgs 0x300000 0x7294) (fun a => a.toUInt8) mem
        (xnuEntryBuildArgs sampleLayout (sampleArgs 0x300000 0x7294)) := by
  apply (handedOver_iff_laidOut (by decide) (fun half => absurd half.1 (by decide))).mpr
  apply laidOut_of_built sampleLayout_built
  · exact imageSurvives_of_clear (by decide)
  · intro _
    apply treeSurvives_of_apart _ _ (by decide)
    · exact (@apart_of_before 0 0x300000 0x7294 0x80000000 0x130940 (by decide) (by decide)).symm
    · exact (@apart_of_before 0 0x300000 0x7294 0x80130a00 0x37600 (by decide) (by decide)).symm

/-- The guard passes a layout that puts the record over the image; and with the layout of a build,
a NULL tree of 0x40 bytes is not copied, but its length is handed over. -/
theorem handedOver_fails :
    (Passes { sampleLayout with argsOffset := 0 } 0x130940 ∧
        ∀ mem, ¬ HandedOver { sampleLayout with argsOffset := 0 } 0x100000 0x130940
          (sampleArgs 0x300000 0x7294) (fun a => a.toUInt8) mem
          (xnuEntryBuildArgs { sampleLayout with argsOffset := 0 } (sampleArgs 0x300000 0x7294))) ∧
      Passes sampleLayout 0x130940 ∧
        (xnuEntryBuildArgs sampleLayout (sampleArgs 0 0x40)).deviceTreeLength = 0x40 ∧
        ∀ mem, ¬ HandedOver sampleLayout 0x100000 0x130940 (sampleArgs 0 0x40) (fun a => a.toUInt8)
          mem (xnuEntryBuildArgs sampleLayout (sampleArgs 0 0x40)) := by
  refine ⟨⟨by decide, fun mem handed => ?_⟩, by decide, rfl, fun mem handed => ?_⟩
  · exact handed.args_blob 0x80000000 (by decide) (by decide)
  · exact not_halfRefused_of_handedOver handed ⟨rfl, by decide, by decide⟩

end Sample

end Stage90.Entry

import Stage90.Media.DirectWrite

/-!
# What the arena is spent on

In a build with `CARD_COW` a slot of the arena is taken by the first write that stores a block of
its page, and by nothing else: no read takes one, and no later write of the page does.  So the
slots in use are the pages the history has stored blocks of, and a write runs out of them exactly
where those and its own are more than `ST_COW_ARENA_PAGES`.
-/

set_option autoImplicit false

namespace Stage90.Media

open Stage90.Lib Stage90.Cow

/-! ## Pages -/

/-- The pages of `n` blocks from `first` on. -/
def pagesOf (first n : Nat) : Finset Nat := (Finset.range n).image fun k => (first + k) / 8

theorem mem_pagesOf {first n page : Nat} :
    page ∈ pagesOf first n ↔ ∃ k < n, (first + k) / 8 = page := by
  simp [pagesOf]

theorem pagesOf_succ (first n : Nat) :
    pagesOf first (n + 1) = insert (first / 8) (pagesOf (first + 1) n) := by
  ext page
  rw [Finset.mem_insert, mem_pagesOf, mem_pagesOf]
  constructor
  · rintro ⟨k, below, rfl⟩
    cases k with
    | zero => exact .inl rfl
    | succ k => exact .inr ⟨k, by omega, by rw [Nat.add_right_comm, Nat.add_assoc]⟩
  · rintro (rfl | ⟨k, below, rfl⟩)
    · exact ⟨0, by omega, rfl⟩
    · exact ⟨k + 1, by omega, by rw [Nat.add_right_comm, Nat.add_assoc]⟩

theorem pagesOf_mono (first : Nat) {m n : Nat} (le : m ≤ n) :
    pagesOf first m ⊆ pagesOf first n := by
  intro page member
  obtain ⟨k, below, same⟩ := mem_pagesOf.mp member
  exact mem_pagesOf.mpr ⟨k, by omega, same⟩

def writtenPages (history : List (Buf × Reply)) : Finset Nat :=
  history.foldl
    (fun pages answered =>
      if answered.1.unit = stMediaDriver ∧ answered.1.isRead = false then
        pages ∪ pagesOf answered.1.block (answered.2.moved / stMediaBlocksize)
      else pages)
    ∅

theorem writtenPages_snoc (history : List (Buf × Reply)) (bp : Buf) (reply : Reply) :
    writtenPages (history ++ [(bp, reply)]) =
      if bp.unit = stMediaDriver ∧ bp.isRead = false then
        writtenPages history ∪ pagesOf bp.block (reply.moved / stMediaBlocksize)
      else writtenPages history := by
  rw [writtenPages, List.foldl_append]
  rfl

theorem writtenPages_other (history : List (Buf × Reply)) (bp : Buf) (reply : Reply)
    (other : ¬ (bp.unit = stMediaDriver ∧ bp.isRead = false)) :
    writtenPages (history ++ [(bp, reply)]) = writtenPages history := by
  rw [writtenPages_snoc, if_neg other]

/-! ## The slots in use -/

/-- The slots in use are those of `pages`. -/
structure Counts {σ : Type} (d : Device) (s : Shadow σ) (pages : Finset Nat) : Prop where
  used : s.c.used = pages.card
  resident : ∀ page, Resident (cardGeometry d) s.entries page ↔ page ∈ pages

section Counts
variable {σ : Type} {door : Door σ} {d : Device} {b : Build}

theorem Counts.of_frame {s s' : Shadow σ} {pages : Finset Nat} (counts : Counts d s pages)
    (frame : Frame (cardGeometry d) s s') : Counts d s' pages := by
  refine ⟨frame.used.trans counts.used, ?_⟩
  rw [frame.entries]
  exact counts.resident

theorem Counts.of_refused {s : Shadow σ} {pages : Finset Nat} (counts : Counts d s pages)
    (geo : Cow.Geometry (cardGeometry d)) (sound : Sound (cardGeometry d) s) {sector : Nat}
    (refused : (stCowPrepareWrite sizeTBits (stCowBaseRead door d) s sector 1).1 = .noSpace) :
    Counts d (stCowPrepareWrite sizeTBits (stCowBaseRead door d) s sector 1).2 pages := by
  rcases prepare_cases geo sizeTBits (stCowBaseRead door d) sound sector 1 with
    ⟨_, found⟩ | ⟨_, _, s₁, frame, _, _, _, found⟩ | ⟨_, _, _, _, _, found⟩ |
    ⟨_, _, _, _, _, _, _, found⟩
  · rw [found] at refused
    cases refused
  · rw [found]
    exact counts.of_frame frame
  · rw [found] at refused
    cases refused
  · rw [found] at refused
    cases refused

/-- Preparing one block takes its page, if the arena has a slot for it. -/
theorem prepare_counts (positive : 0 < d.selectedCount.toNat) {s : Shadow σ}
    (sound : Sound (cardGeometry d) s) {sector : Nat} (inside : sector < (cardGeometry d).sectors)
    {pages : Finset Nat} (counts : Counts d s pages) :
    let prepared := stCowPrepareWrite sizeTBits (stCowBaseRead door d) s sector 1
    (512 < (insert (sector / 8) pages).card ∧ prepared.1 = .noSpace) ∨
      (prepared.1 = .ok ∧ Counts d prepared.2 (insert (sector / 8) pages)) := by
  classical
  have room := card_addressable d positive
  have one : ∀ P : Prop, ∀ [Decidable P], (P ↔ sector / 8 ∈ pages) →
      pages.card + (if P then 0 else 1) = (insert (sector / 8) pages).card := by
    intro P _ same
    by_cases member : sector / 8 ∈ pages
    · rw [if_pos (same.mpr member), Finset.insert_eq_of_mem member, Nat.add_zero]
    · rw [if_neg (mt same.mp member), Finset.card_insert_of_notMem member]
  rcases prepare_one room (@stCowBaseRead_infallible σ door d) sound inside with
    ⟨full, refused⟩ | ⟨ok, used, residents⟩
  · rw [counts.used] at full
    exact .inl ⟨full.trans_eq (one _ (counts.resident _)), refused⟩
  · rw [counts.used] at used
    refine .inr ⟨ok, used.trans (one _ (counts.resident _)), fun page => (residents page).trans ?_⟩
    rw [counts.resident, Finset.mem_insert, or_comm]
    exact Iff.rfl

/-- The write loop takes the pages of the blocks it stores, and stops at the first it cannot. -/
theorem cowWriteLoop_counts (positive : 0 < d.selectedCount.toNat) (block : Nat)
    (data : Nat → UInt8) (left i : Nat) {s : State σ} (sound : Sound (cardGeometry d) s.shadow)
    (inside : block + (i + left) ≤ d.selectedCount.toNat) {pages : Finset Nat}
    (counts : Counts d s.shadow pages) :
    let run := cowWriteLoop door d block data left i s
    ∃ j ≤ left, run.2.1 = i + j ∧ Counts d run.2.2.shadow (pages ∪ pagesOf (block + i) j) ∧
      (pages ∪ pagesOf (block + i) j).card ≤ 512 ∧
      ((run.1 = .ok ∧ j = left) ∨
        (run.1 = .noSpace ∧ j < left ∧ 512 < (pages ∪ pagesOf (block + i) (j + 1)).card)) := by
  induction left generalizing i s pages with
  | zero =>
      have nothing : pages ∪ pagesOf (block + i) 0 = pages := Finset.union_empty pages
      refine ⟨0, Nat.le_refl 0, rfl, ?_, ?_, .inl ⟨rfl, rfl⟩⟩
      · rw [nothing]
        exact counts
      · rw [nothing, ← counts.used]
        exact sound.used_le
  | succ left ih =>
      have countLt := d.selectedCount.toNat_lt
      have sectorEq : u64 (block + i) = block + i := u64_of_lt (by omega)
      have room := card_addressable d positive
      have here : block + i < (cardGeometry d).sectors := by
        show block + i < d.selectedCount.toNat
        omega
      have shift : ∀ n, pages ∪ pagesOf (block + i) (n + 1) =
          insert ((block + i) / 8) pages ∪ pagesOf (block + (i + 1)) n := by
        intro n
        rw [pagesOf_succ, Finset.union_insert, Finset.insert_union, Nat.add_assoc]
      simp only [cowWriteLoop, sectorEq]
      rcases prepare_counts positive sound here counts with ⟨full, refused⟩ | ⟨ok, counts₁⟩
      · -- the page is new and the arena is full: nothing more is taken
        rw [if_pos (by rw [refused]; decide)]
        have nothing : pages ∪ pagesOf (block + i) 0 = pages := Finset.union_empty pages
        refine ⟨0, Nat.zero_le _, rfl, ?_, ?_, .inr ⟨refused, Nat.succ_pos left, ?_⟩⟩
        · rw [nothing]
          exact counts.of_refused room.geometry sound refused
        · rw [nothing, ← counts.used]
          exact sound.used_le
        · rw [shift, pagesOf, Finset.range_zero, Finset.image_empty, Finset.union_empty]
          exact full
      rw [if_neg (by rw [ok]; decide)]
      have sound₁ := sound.prepare room.geometry sizeTBits (stCowBaseRead door d) (block + i) 1
      have page := page_of_sector room here
      have stored := write_ok room.geometry sizeTBits sound₁ here
        ((counts₁.resident _).mpr (by rw [page]; exact Finset.mem_insert_self _ _))
        (blockAt 512 data (i * stMediaBlocksize))
      rw [if_neg (by rw [stored]; decide)]
      have kept := @write_residency σ _ _ sizeTBits (block + i) room sound₁
        (some (blockAt 512 data (i * stMediaBlocksize)))
      have sound₂ := sound₁.write room.geometry sizeTBits (block + i)
        (some (blockAt 512 data (i * stMediaBlocksize)))
      obtain ⟨j, le, stops, counts₂, small, answer⟩ :=
        @ih (i + 1) { s with shadow := _, asked := s.asked ++ [block + i] ++ [block + i] }
          sound₂ (by omega) (insert ((block + i) / 8) pages)
          ⟨kept.1.trans counts₁.used, fun q => (kept.2 q).trans (counts₁.resident q)⟩
      rw [← shift] at counts₂ small
      refine ⟨j + 1, Nat.succ_le_succ le, by rw [stops]; omega, counts₂, small, ?_⟩
      rcases answer with ⟨done, all⟩ | ⟨failed, less, beyond⟩
      · exact .inl ⟨done, by rw [all]⟩
      · rw [← shift] at beyond
        exact .inr ⟨failed, Nat.succ_lt_succ less, beyond⟩

theorem cowWriteLoop_bound (block : Nat) (data : Nat → UInt8) (left i : Nat) (s : State σ) :
    (cowWriteLoop door d block data left i s).2.2.bound = s.bound := by
  induction left generalizing i s with
  | zero => rfl
  | succ left ih =>
      simp only [cowWriteLoop]
      split_ifs
      · rfl
      · rfl
      · exact ih (i + 1) _

theorem counts_fresh (d : Device) (arena : Nat → UInt8) (world : σ) :
    Counts d (freshShadow (cardGeometry d) arena world) ∅ := by
  refine ⟨rfl, fun page => ?_⟩
  rw [resident_iff_maps]
  simp only [Finset.notMem_empty, iff_false]
  rintro ⟨slot, i, _, occupied, _⟩
  simp [freshShadow, StCowEntry.occupied] at occupied

/-! ## Requests -/

theorem ensureBound_of_bound {s : State σ} (bound : s.bound = 1) : stCowEnsureBound d s = s := by
  rw [stCowEnsureBound, if_pos (by rw [bound]; decide)]

theorem cardReadBlock_frame (positive : 0 < d.selectedCount.toNat) (baseLba block i : Nat)
    (data : Nat → UInt8) {s : State σ} (bound : s.bound = 1)
    (sound : Sound (cardGeometry d) s.shadow) :
    let out := (cardReadBlock door d true baseLba block i data s).2.2
    out.bound = 1 ∧ Frame (cardGeometry d) s.shadow out.shadow := by
  have geo := (card_addressable d positive).geometry
  simp only [cardReadBlock, if_true, ensureBound_of_bound bound, Bool.true_and, bound,
    beq_self_eq_true]
  exact ⟨trivial, read_frame geo sizeTBits (stCowBaseRead door d) sound _ _⟩

theorem cardReadLoop_frame (positive : 0 < d.selectedCount.toNat) (baseLba block left i : Nat)
    (data : Nat → UInt8) {s : State σ} (bound : s.bound = 1)
    (sound : Sound (cardGeometry d) s.shadow) :
    let out := (cardReadLoop door d true baseLba block left i data s).2.2.2
    out.bound = 1 ∧ Frame (cardGeometry d) s.shadow out.shadow := by
  induction left generalizing i data s with
  | zero => exact ⟨bound, Frame.refl _ _⟩
  | succ left ih =>
      have one := @cardReadBlock_frame σ door d positive baseLba block i data s bound sound
      simp only [cardReadLoop]
      rcases read : cardReadBlock door d true baseLba block i data s with ⟨ok, data₁, s₁⟩
      rw [read] at one
      obtain ⟨bound₁, frame⟩ := one
      cases ok with
      | false => exact ⟨bound₁, frame⟩
      | true =>
          obtain ⟨bound₂, rest⟩ := ih (i + 1) data₁ bound₁ (sound.of_frame frame)
          exact ⟨bound₂, frame.trans rest⟩

/-- A loop over no blocks does nothing, and any other begins by binding the shadow. -/
theorem cardReadLoop_binds (baseLba block left i : Nat) (data : Nat → UInt8) (s : State σ)
    (bound : (stCowEnsureBound d s).bound = 1) :
    (cardReadLoop door d true baseLba block left i data s).2.2.2 = s ∨
      cardReadLoop door d true baseLba block left i data s =
        cardReadLoop door d true baseLba block left i data (stCowEnsureBound d s) := by
  cases left with
  | zero => exact .inl rfl
  | succ left =>
      right
      have same : cardReadBlock door d true baseLba block i data s =
          cardReadBlock door d true baseLba block i data (stCowEnsureBound d s) := by
        simp only [cardReadBlock, if_true, ensureBound_of_bound bound]
      rw [cardReadLoop, cardReadLoop, same]

/-- Any door keeps the shadow sound, whatever it delivers. -/
theorem bare_honest : HonestDoor door (fun _ _ => 0) fun _ => False :=
  ⟨fun _ _ good => good, fun _ _ good => good.elim⟩

theorem bare_keeps (baseLba count : Nat) : KeepsSafe door baseLba count fun _ => True :=
  fun _ _ _ _ => trivial

theorem ensureBound_world (s : State σ) (world : σ) :
    (stCowEnsureBound d { s with shadow := { s.shadow with world := world } }).shadow =
      { (stCowEnsureBound d s).shadow with world := world } := by
  unfold stCowEnsureBound
  split_ifs
  · rfl
  · rfl
  · cases stCowInit d.selectedCount.toUInt64 8 stCowArenaPages stCowHashSlots <;> rfl

theorem Counts.withWorld {s : State σ} {pages : Finset Nat}
    (counts : Counts d (stCowEnsureBound d s).shadow pages) (world : σ) :
    Counts d (stCowEnsureBound d { s with shadow := { s.shadow with world := world } }).shadow
      pages := by
  rw [ensureBound_world]
  exact ⟨counts.used, counts.resident⟩

section Step
variable (positive : 0 < d.selectedCount.toNat) {s : State σ}
  {content : Nat → Sector} {pages : Finset Nat}
  (ready : Ready d (fun _ _ => 0) (fun _ => False) (fun _ => True) s content)
  (counts : Counts d (stCowEnsureBound d s).shadow pages)
include positive ready counts

theorem cardReadLoop_counts (baseLba block left : Nat) (data : Nat → UInt8) :
    let out := (cardReadLoop door d true baseLba block left 0 data s).2.2.2
    Counts d (stCowEnsureBound d out).shadow pages := by
  intro out
  obtain ⟨ready₁, bound, _⟩ := ready.ensureBound positive
  rcases cardReadLoop_binds baseLba block left 0 data s bound with same | same
  · rwa [show out = s from same]
  · obtain ⟨still, frame⟩ := cardReadLoop_frame positive baseLba block left 0 data bound
      (ready₁.bound bound).1
    rw [← same] at still frame
    rw [ensureBound_of_bound still]
    exact counts.of_frame frame

theorem counts_read (bp : Buf) (isRead : bp.isRead = true) :
    Counts d (stCowEnsureBound d (stMediaStrategy door d b s bp).2).shadow pages := by
  cases unit : isCardUnit b bp.unit with
  | false => rwa [strategy_array_state unit]
  | true =>
      cases shadowed : (b.cardCow && bp.unit == stMediaDriver) with
      | false =>
          obtain ⟨world, same⟩ := strategy_plain_read_state door d bp unit isRead shadowed s
          rw [same]
          exact counts.withWorld world
      | true =>
          rcases strategy_card_cases door d b s bp unit with
            ⟨_, e, result⟩ | ⟨_, _, result⟩ | ⟨_, _, result⟩
          · rwa [result]
          · rwa [result]
          · rw [result]
            simp only [cardStrategy, isRead, shadowed, Bool.not_true, Bool.and_false,
              Bool.false_eq_true, if_false]
            have after := @cardReadLoop_counts σ door d positive s content pages ready counts
              (if (bp.unit == stMediaDriver) = true then d.selectedLba.toNat else 0)
              (bp.blkno.toUInt32.toNat * stMediaBlocksize / stMediaBlocksize)
              (min bp.count.toNat (strategyLen b d bp.unit - bp.offset) / stMediaBlocksize) bp.data
            split
            · rename_i loop
              rwa [loop] at after
            · rename_i loop
              rwa [loop] at after

/-- A write of the mount unit that is not turned away stores blocks until the pages of the history
and its own are more than the arena has. -/
theorem counts_write (cow : b.cardCow = true) (bp : Buf) (driver : bp.unit = stMediaDriver)
    (isWrite : bp.isRead = false) :
    let done := stMediaStrategy door d b s bp
    ∃ j, done.1.moved = j * stMediaBlocksize ∧
      Counts d (stCowEnsureBound d done.2).shadow (pages ∪ pagesOf bp.block j) ∧
      (¬ Refused d b bp → j ≤ servedBlocks b d bp ∧ (pages ∪ pagesOf bp.block j).card ≤ 512 ∧
        ((done.1.error = none ∧ j = servedBlocks b d bp) ∨
          (done.1.error = some .enospc ∧ j < servedBlocks b d bp ∧
            512 < (pages ∪ pagesOf bp.block (j + 1)).card))) := by
  intro done
  have nothing : pages ∪ pagesOf bp.block 0 = pages := Finset.union_empty pages
  obtain ⟨ready₁, bound, _⟩ := ready.ensureBound positive
  have sound := (ready₁.bound bound).1
  have small : pages.card ≤ 512 := by
    rw [← counts.used]
    exact sound.used_le
  have unit : isCardUnit b bp.unit = true := by rw [driver, driver_card cow]
  rcases strategy_card_cases door d b s bp unit with
    ⟨refused, e, result⟩ | ⟨accepted, atEnd, result⟩ | ⟨accepted, inside, result⟩
  · have done_eq : done = _ := result
    rw [done_eq]
    refine ⟨0, rfl, ?_, fun accepted => absurd refused accepted⟩
    rwa [nothing]
  · have none_ : servedBlocks b d bp = 0 := by simp [servedBlocks, atEnd]
    have done_eq : done = _ := result
    rw [done_eq]
    refine ⟨0, rfl, by rwa [nothing], fun _ => ⟨Nat.zero_le _, by rwa [nothing], .inl ?_⟩⟩
    exact ⟨rfl, none_.symm⟩
  · have blocks := served_inside b d bp unit inside
    rw [unitBlocks, if_pos (by simp [driver])] at blocks
    have blockEq : bp.blkno.toUInt32.toNat * stMediaBlocksize / stMediaBlocksize = bp.block :=
      block_eq bp
    have nblk : min bp.count.toNat (strategyLen b d bp.unit - bp.offset) / stMediaBlocksize =
        servedBlocks b d bp := rfl
    have notBound : ¬ ((stCowEnsureBound d s).bound ≠ 1) := not_not.mpr bound
    have done_eq : done = _ := result
    simp only [cardStrategy, cow, driver, isWrite, Bool.not_false, Bool.and_true,
      beq_self_eq_true, if_true, if_neg notBound] at done_eq
    rw [← driver, blockEq, nblk] at done_eq
    obtain ⟨j, le, stops, counts', fits, answer⟩ := @cowWriteLoop_counts σ door d positive bp.block
      bp.data (servedBlocks b d bp) 0 _ sound (by omega) pages counts
    have kept := @cowWriteLoop_bound σ door d bp.block bp.data (servedBlocks b d bp) 0
      (stCowEnsureBound d s)
    rcases loop : cowWriteLoop door d bp.block bp.data (servedBlocks b d bp) 0
      (stCowEnsureBound d s) with ⟨cr, at_, s'⟩
    rw [loop] at stops counts' answer kept done_eq
    obtain rfl : at_ = j := stops.trans (Nat.zero_add j)
    have same : stCowEnsureBound d s' = s' := ensureBound_of_bound (kept.trans bound)
    rcases answer with ⟨rfl, all⟩ | ⟨rfl, less, beyond⟩
    · rw [done_eq]
      refine ⟨at_, by rw [all], ?_, fun _ => ⟨le, fits, .inl ⟨rfl, all⟩⟩⟩
      rw [same]
      exact counts'
    · rw [done_eq]
      refine ⟨at_, rfl, ?_, fun _ => ⟨le, fits, .inr ⟨rfl, less, beyond⟩⟩⟩
      rw [same]
      exact counts'

end Step

/-- After any run the slots in use are the pages the history stored blocks of. -/
theorem counts_run (positive : 0 < d.selectedCount.toNat) (cow : b.cardCow = true)
    (arena : Nat → UInt8) (world : σ) (bufs : List Buf) :
    let run := cardRun door d b arena world bufs
    (∃ content, Ready d (fun _ _ => 0) (fun _ => False) (fun _ => True) run.2 content) ∧
      Counts d (stCowEnsureBound d run.2).shadow (writtenPages run.1) := by
  intro run
  have noDirectWrite : b.hddWrite = false :=
    Bool.eq_false_iff.mpr fun direct => b.one_write_branch ⟨cow, direct⟩
  suffices run_counts : Ready d (fun _ _ => 0) (fun _ => False) (fun _ => True) run.2
        (expectedBlock (unitMedium (fun _ _ => 0) d.selectedLba.toNat) run.1) ∧
      Counts d (stCowEnsureBound d run.2).shadow (writtenPages run.1) from
    ⟨⟨_, run_counts.1⟩, run_counts.2⟩
  apply execute_induction (fun history (s : State σ) =>
    Ready d (fun _ _ => 0) (fun _ => False) (fun _ => True) s
        (expectedBlock (unitMedium (fun _ _ => 0) d.selectedLba.toNat) history) ∧
      Counts d (stCowEnsureBound d s).shadow (writtenPages history))
  · refine ⟨⟨Or.inl ⟨rfl, rfl, rfl⟩, by simp [unboundState], trivial⟩, ?_⟩
    have fresh : (stCowEnsureBound d (unboundState arena world)).shadow =
        freshShadow (cardGeometry d) arena world := by
      simp only [stCowEnsureBound, stCowInit_card d positive, unboundState]
      rfl
    rw [fresh]
    exact counts_fresh d arena world
  · rintro history s bp ⟨ready, counts⟩
    refine ⟨shadow_step bare_honest bare_keeps noDirectWrite ready bp, ?_⟩
    cases direction : bp.isRead with
    | true =>
        rw [writtenPages_other _ _ _ (by simp [direction])]
        exact counts_read positive ready counts bp direction
    | false =>
        by_cases driver : bp.unit = stMediaDriver
        · obtain ⟨j, moved, counts', _⟩ :=
            @counts_write σ door d b positive s _ _ ready counts cow bp driver direction
          rw [writtenPages_snoc, if_pos ⟨driver, direction⟩, moved,
            Nat.mul_div_cancel _ (by decide)]
          exact counts'
        · rw [writtenPages_other _ _ _ fun own => driver own.1,
            write_elsewhere door d bp driver direction s]
          exact counts

end Counts

/-- In any run of a 968 build the slots in use are the pages stored so far.  A write of the
mount unit goes through exactly when these and its own are at most those of the arena; one that
does not stores the blocks before the first page too many. -/
theorem write_fits_iff {σ : Type} (door : Door σ) (d : Device) (b : Build) (cow : b.cardCow = true)
    (arena : Nat → UInt8) (world : σ) (bufs : List Buf) (bp : Buf)
    (driver : bp.unit = stMediaDriver) (isWrite : bp.isRead = false) (accepted : ¬ Refused d b bp) :
    let run := cardRun door d b arena world bufs
    let done := stMediaStrategy door d b run.2 bp
    let pages := writtenPages run.1
    (stCowEnsureBound d run.2).shadow.c.used = pages.card ∧
      (done.1.error = none ↔ (pages ∪ pagesOf bp.block (servedBlocks b d bp)).card ≤ 512) ∧
      (done.1.error ≠ none → done.1.error = some .enospc ∧ ∃ j < servedBlocks b d bp,
        done.1.moved = j * stMediaBlocksize ∧ (pages ∪ pagesOf bp.block j).card ≤ 512 ∧
          512 < (pages ∪ pagesOf bp.block (j + 1)).card) := by
  intro run done pages
  have positive : 0 < d.selectedCount.toNat := by
    have unit : isCardUnit b bp.unit = true := by rw [driver, driver_card cow]
    have length := strategyLen_le b d unit
    rw [unitBlocks, if_pos (by simp [driver])] at length
    have nonempty : strategyLen b d bp.unit ≠ 0 := fun empty => accepted (.inr (.inl empty))
    by_contra zero
    rw [Nat.eq_zero_of_not_pos zero, Nat.zero_mul] at length
    exact nonempty (Nat.eq_zero_of_le_zero length)
  obtain ⟨⟨content, ready⟩, counts⟩ := @counts_run σ door d b positive cow arena world bufs
  obtain ⟨j, moved, _, answer⟩ :=
    @counts_write σ door d b positive _ content _ ready counts cow bp driver isWrite
  obtain ⟨le, fits, ⟨success, all⟩ | ⟨failed, less, beyond⟩⟩ := answer accepted
  · have success : done.1.error = none := success
    rw [all] at fits
    exact ⟨counts.used, ⟨fun _ => fits, fun _ => success⟩, fun failed => absurd success failed⟩
  · have failed : done.1.error = some .enospc := failed
    have grows : (pages ∪ pagesOf bp.block (j + 1)).card ≤
        (pages ∪ pagesOf bp.block (servedBlocks b d bp)).card :=
      Finset.card_le_card (Finset.union_subset_union_right (pagesOf_mono bp.block less))
    refine ⟨counts.used, ⟨fun success => ?_, fun small => ?_⟩,
      fun _ => ⟨failed, j, less, moved, fits, beyond⟩⟩
    · rw [success] at failed
      cases failed
    · exact absurd (beyond.trans_le grows) (Nat.not_lt.mpr small)

/-- A partition of 37 sectors, with block 8 stored, and a two-block write over it. -/
theorem write_fits_two_blocks :
    let d : Device := ⟨2, 37, 64, false, fun _ => 0, fun _ => 0, 0⟩
    let stored : Buf := ⟨stMediaDriver, 8, 512, false, false, fun _ => 7⟩
    let bp : Buf := ⟨stMediaDriver, 7, 1024, false, false, fun _ => 9⟩
    let run := cardRun memoryDoor d (storeBuild false) (fun _ => 0) (fun _ _ => 0) [stored]
    let done := stMediaStrategy memoryDoor d (storeBuild false) run.2 bp
    let pages := writtenPages run.1
    (stCowEnsureBound d run.2).shadow.c.used = pages.card ∧
      (done.1.error = none ↔
        (pages ∪ pagesOf bp.block (servedBlocks (storeBuild false) d bp)).card ≤ 512) ∧
      (done.1.error ≠ none → done.1.error = some .enospc ∧
        ∃ j < servedBlocks (storeBuild false) d bp,
          done.1.moved = j * stMediaBlocksize ∧ (pages ∪ pagesOf bp.block j).card ≤ 512 ∧
            512 < (pages ∪ pagesOf bp.block (j + 1)).card) :=
  write_fits_iff memoryDoor _ _ rfl _ _ _ _ rfl rfl (by unfold Refused; decide)

end Stage90.Media

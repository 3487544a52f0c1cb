import Stage90.Media.CowInvariant

/-!
# Safety of every run of the shadow

`prepare_cases` says once what `st_cow_prepare_write` can do.  From it and the two
short operations, every call keeps `Sound`, so every run does.
-/

set_option autoImplicit false

namespace Stage90.Cow

open Stage90.Lib

section Calls
variable {σ : Type} {g : StCow}

/-- What the first loop leaves behind when there is room: the pages to copy. -/
structure Collected (g : StCow) (first count : Nat) (s : Shadow σ) (pages : List Nat)
    (s₁ : Shadow σ) : Prop where
  range : InRange g first count
  pages_eq : pages = absent g s.entries (requestPages g first count)
  frame : Frame g s s₁
  sameC : s₁.c = s.c
  sameArena : s₁.arena = s.arena
  sameWorld : s₁.world = s.world
  room : s.c.used + pages.length ≤ g.capacity

theorem Collected.nodup {first count : Nat} {s s₁ : Shadow σ} {pages : List Nat}
    (collected : Collected g first count s pages s₁) : pages.Nodup := by
  rw [collected.pages_eq]
  exact (requestPages_nodup g first count).filter _

theorem Collected.fresh {first count : Nat} {s s₁ : Shadow σ} {pages : List Nat}
    (collected : Collected g first count s pages s₁) :
    ∀ page ∈ pages, ¬ Resident g s.entries page := by
  intro page member
  rw [collected.pages_eq] at member
  exact (mem_absent.mp member).2

theorem Collected.onMedium (geo : Geometry g) {first count : Nat} {s s₁ : Shadow σ}
    {pages : List Nat} (collected : Collected g first count s pages s₁) :
    ∀ page ∈ pages, page * g.sectorsPerPage < g.sectors := by
  intro page member
  rw [collected.pages_eq] at member
  exact requestPages_onMedium geo collected.range page (mem_absent.mp member).1

/-- What `st_cow_prepare_write` can do: refuse the arguments, run out of room, fail in
the copy, or publish the pages it copied. -/
theorem prepare_cases (geo : Geometry g) (sizeBits : Nat) (read512 : Read512 σ) {s : Shadow σ}
    (sound : Sound g s) (first count : Nat) :
    (¬ InRange g first count ∧
      stCowPrepareWrite sizeBits read512 s first count = (.range, s)) ∨
    (InRange g first count ∧
      (g.capacity < spanPages g first count ∨
        g.capacity < s.c.used + (absent g s.entries (requestPages g first count)).length) ∧
      ∃ s₁, Frame g s s₁ ∧ s₁.c = s.c ∧ s₁.arena = s.arena ∧ s₁.world = s.world ∧
        stCowPrepareWrite sizeBits read512 s first count = (.noSpace, s₁)) ∨
    (∃ pages s₁ s₂, Collected g first count s pages s₁ ∧
      copyPages sizeBits read512 pages 0 s₁ = (.io, s₂) ∧
      stCowPrepareWrite sizeBits read512 s first count = (.io, s₂)) ∨
    (∃ pages s₁ s₂ entries, Collected g first count s pages s₁ ∧
      copyPages sizeBits read512 pages 0 s₁ = (.ok, s₂) ∧
      publishPages pages 0 s₂ = (.ok, { s₂ with entries := entries }) ∧
      stCowPrepareWrite sizeBits read512 s first count =
        (.ok, { s₂ with
          entries := entries
          c := { s₂.c with used := s.c.used + pages.length } })) := by
  have capacityLt := geo.capacity_lt
  by_cases valid : InRange g first count
  swap
  · refine Or.inl ⟨valid, ?_⟩
    have refused := mt (inRange_iff geo first count).mp valid
    rw [not_not] at refused
    rw [stCowPrepareWrite, sectors_of_shape sound.shape, if_pos refused]
  have accepted := (inRange_iff geo first count).mpr valid
  by_cases span : spanPages g first count > g.capacity
  · refine Or.inr (Or.inl ⟨valid, Or.inl span, s, Frame.refl g s, rfl, rfl, rfl, ?_⟩)
    simp only [stCowPrepareWrite, sectors_of_shape sound.shape, spp_of_shape sound.shape,
      capacity_of_shape sound.shape, if_neg accepted]
    exact if_pos span
  have unfolded := stCowPrepareWrite_taken sizeBits read512 (s := s)
    (by rw [sectors_of_shape sound.shape]; exact accepted)
    (show _ = firstPage g first by rw [spp_of_shape sound.shape, firstPage])
    (show _ = lastPage g first count by rw [spp_of_shape sound.shape, lastPage])
    (by rw [capacity_of_shape sound.shape]; exact span)
  obtain ⟨s₁, frame₁, sameC, sameArena, sameWorld, ⟨⟨_, full⟩, exceeds⟩ | ⟨collect, room⟩⟩ :=
    collectPages_spec geo (sub32 (lastPage g first count) (firstPage g first))
      (show firstPage g first < 2 ^ 32 from u32_lt _) sound []
      (by simpa using sound.used_le)
  · refine Or.inr (Or.inl ⟨valid, Or.inr exceeds, s₁, frame₁, sameC, sameArena, sameWorld, ?_⟩)
    rw [unfolded, full]
  set pages := absent g s.entries (requestPages g first count) with pages_eq
  have collect : collectPages (sub32 (lastPage g first count) (firstPage g first))
      (firstPage g first) [] s = (.ok, pages, s₁) := collect
  have room : s.c.used + pages.length ≤ g.capacity := room
  have collected : Collected g first count s pages s₁ :=
    ⟨valid, pages_eq, frame₁, sameC, sameArena, sameWorld, room⟩
  obtain ⟨frame₂, status⟩ := copyPages_frame geo sizeBits read512 pages 0 s₁
    (frame₁.shape.trans sound.shape) (by rw [frame₁.used]; omega) (collected.onMedium geo)
  rcases copied : copyPages sizeBits read512 pages 0 s₁ with ⟨answer, s₂⟩
  rw [copied] at frame₂ status
  rcases status with rfl | rfl
  swap
  · refine Or.inr (Or.inr (Or.inl ⟨pages, s₁, s₂, collected, copied, ?_⟩))
    rw [unfolded, collect]
    simp only [copied]
  have frame := frame₁.trans frame₂
  have sound₂ := sound.of_frame frame
  obtain ⟨entries, published, _, _, _⟩ := publishPages_spec geo pages 0 s₂ sound₂.shape
    sound₂.table (by rw [frame.used]; omega) collected.nodup
    (by rw [frame.entries]; exact collected.fresh) (collected.onMedium geo)
  refine Or.inr (Or.inr (Or.inr ⟨pages, s₁, s₂, entries, collected, copied, published, ?_⟩))
  rw [unfolded, collect]
  have used : s₂.c.used = s.c.used := frame.used
  simp only [copied, published, used]
  rw [u32_of_lt (by omega)]

theorem prepare_ne_state (geo : Geometry g) (sizeBits : Nat) (read512 : Read512 σ)
    {s : Shadow σ} (sound : Sound g s) (first count : Nat) :
    (stCowPrepareWrite sizeBits read512 s first count).1 ≠ .state := by
  rcases prepare_cases geo sizeBits read512 sound first count with
    ⟨_, found⟩ | ⟨_, _, _, _, _, _, _, found⟩ | ⟨_, _, _, _, _, found⟩ |
    ⟨_, _, _, _, _, _, _, found⟩
  all_goals simp [found]

theorem Collected.published (geo : Geometry g) (sizeBits : Nat) (read512 : Read512 σ)
    {first count : Nat} {s s₁ s₂ : Shadow σ} (sound : Sound g s) {pages : List Nat}
    (collected : Collected g first count s pages s₁) {entries : Nat → StCowEntry}
    (copied : copyPages sizeBits read512 pages 0 s₁ = (.ok, s₂))
    (published : publishPages pages 0 s₂ = (.ok, { s₂ with entries := entries })) :
    Frame g s s₂ ∧ TableSound g entries (s.c.used + pages.length) ∧
      Probe.count g.hashSlots StCowEntry.dirty entries =
        Probe.count g.hashSlots StCowEntry.dirty s.entries ∧
      ∀ page slot, Maps g entries page slot ↔ Maps g s.entries page slot ∨
        ∃ k, ∃ h : k < pages.length, page = pages[k] ∧ slot = s.c.used + k := by
  have room := collected.room
  have copy := (copyPages_frame geo sizeBits read512 pages 0 s₁
    (collected.frame.shape.trans sound.shape) (by rw [collected.frame.used]; omega)
    (collected.onMedium geo)).1
  rw [copied] at copy
  have frame := collected.frame.trans copy
  have sound₂ := sound.of_frame frame
  obtain ⟨entries', published', table, dirty, maps⟩ := publishPages_spec geo pages 0 s₂
    sound₂.shape sound₂.table (by rw [frame.used]; omega) collected.nodup
    (by rw [frame.entries]; exact collected.fresh) (collected.onMedium geo)
  obtain rfl : entries' = entries := by
    rw [published] at published'
    exact (congrArg (fun r => r.2.entries) published').symm
  rw [frame.used] at table maps
  rw [frame.entries] at dirty maps
  exact ⟨frame, table, dirty, maps⟩

theorem prepare_resident (geo : Geometry g) (sizeBits : Nat) (read512 : Read512 σ)
    {s : Shadow σ} (sound : Sound g s) {first count : Nat}
    (success : (stCowPrepareWrite sizeBits read512 s first count).1 = .ok) :
    ∀ page ∈ requestPages g first count,
      Resident g (stCowPrepareWrite sizeBits read512 s first count).2.entries page := by
  rcases prepare_cases geo sizeBits read512 sound first count with
    ⟨_, found⟩ | ⟨_, _, _, _, _, _, _, found⟩ | ⟨_, _, _, _, _, found⟩ |
    ⟨pages, s₁, s₂, entries, collected, copied, published, found⟩
  · simp [found] at success
  · simp [found] at success
  · simp [found] at success
  · obtain ⟨_, _, _, maps⟩ := collected.published geo sizeBits read512 sound copied published
    rw [found]
    intro page member
    by_cases before : Resident g s.entries page
    · obtain ⟨slot, old⟩ := resident_iff_maps.mp before
      exact resident_iff_maps.mpr ⟨slot, (maps page slot).mpr (Or.inl old)⟩
    · have pending : page ∈ pages := by
        rw [collected.pages_eq]
        exact mem_absent.mpr ⟨member, before⟩
      obtain ⟨k, hk, rfl⟩ := List.mem_iff_getElem.mp pending
      exact resident_iff_maps.mpr ⟨_, (maps _ _).mpr (Or.inr ⟨k, hk, rfl, rfl⟩)⟩

theorem copySectors_ok (sizeBits : Nat) {read512 : Read512 σ}
    (infallible : ∀ world lba out, (read512 world lba out).1 = 0) (page slot left j : Nat)
    (s : Shadow σ) : (copySectors sizeBits read512 page slot left j s).1 = .ok := by
  induction left generalizing j s with
  | zero => rfl
  | succ left ih =>
      have delivered : (callBase read512 s (u64 (page * s.c.sectorsPerPage + j))
          (blockAt 512 s.arena (arenaOffset sizeBits s.c slot j))).1 = 0 := infallible _ _ _
      simp only [copySectors, delivered, ne_eq, not_true_eq_false, if_false]
      exact ih _ _

theorem copyPages_ok (sizeBits : Nat) {read512 : Read512 σ}
    (infallible : ∀ world lba out, (read512 world lba out).1 = 0) (pending : List Nat) (i : Nat)
    (s : Shadow σ) : (copyPages sizeBits read512 pending i s).1 = .ok := by
  induction pending generalizing i s with
  | nil => rfl
  | cons page pending ih =>
      have copied := copySectors_ok sizeBits infallible page (u32 (s.c.used + i))
        (pageSectors s.c page) 0 s
      rw [copyPages]
      rcases result : copySectors sizeBits read512 page (u32 (s.c.used + i)) (pageSectors s.c page)
        0 s with ⟨answer, s₁⟩
      obtain rfl : answer = .ok := by simpa [result] using copied
      exact ih (i + 1) s₁

/-- Over a base that never fails, a valid request is refused for lack of room only. -/
theorem prepare_ok (geo : Geometry g) (sizeBits : Nat) (read512 : Read512 σ)
    (infallible : ∀ world lba out, (read512 world lba out).1 = 0) {s : Shadow σ}
    (sound : Sound g s) {first count : Nat} (range : InRange g first count)
    (span : spanPages g first count ≤ g.capacity)
    (slots : s.c.used + (absent g s.entries (requestPages g first count)).length ≤ g.capacity) :
    (stCowPrepareWrite sizeBits read512 s first count).1 = .ok := by
  rcases prepare_cases geo sizeBits read512 sound first count with
    ⟨outside, _⟩ | ⟨_, full, _⟩ | ⟨pages, s₁, s₂, _, copied, _⟩ | ⟨_, _, _, _, _, _, _, found⟩
  · exact absurd range outside
  · omega
  · have := copyPages_ok sizeBits infallible pages 0 s₁
    simp [copied] at this
  · rw [found]

theorem Sound.prepare (geo : Geometry g) (sizeBits : Nat) (read512 : Read512 σ) {s : Shadow σ}
    (sound : Sound g s) (first count : Nat) :
    Sound g (stCowPrepareWrite sizeBits read512 s first count).2 := by
  rcases prepare_cases geo sizeBits read512 sound first count with
    ⟨_, found⟩ | ⟨_, _, _, frame, _, _, _, found⟩ | ⟨pages, s₁, s₂, collected, copied, found⟩ |
    ⟨pages, s₁, s₂, entries, collected, copied, published, found⟩
  · rw [found]
    exact sound
  · rw [found]
    exact sound.of_frame frame
  · have room := collected.room
    have copy := (copyPages_frame geo sizeBits read512 pages 0 s₁
      (collected.frame.shape.trans sound.shape) (by rw [collected.frame.used]; omega)
      (collected.onMedium geo)).1
    rw [copied] at copy
    rw [found]
    exact sound.of_frame (collected.frame.trans copy)
  · obtain ⟨frame, table, dirty, _⟩ :=
      collected.published geo sizeBits read512 sound copied published
    have sound₂ := sound.of_frame frame
    rw [found]
    refine ⟨sound₂.shape, table, collected.room, ?_, sound₂.inside⟩
    show s₂.c.dirty = _
    rw [frame.dirty, sound.dirty_eq, dirty]

theorem inPage_lt (geo : Geometry g) (sector : Nat) :
    u32 (sector % g.sectorsPerPage) < g.sectorsPerPage := by
  have := Nat.mod_lt sector geo.spp_pos
  have sppLt := geo.spp_lt
  rwa [u32_of_lt (by omega)]

theorem read_frame (geo : Geometry g) (sizeBits : Nat) (read512 : Read512 σ) {s : Shadow σ}
    (sound : Sound g s) (sector : Nat) (out : Option Sector) :
    Frame g s (stCowReadSector sizeBits read512 s sector out).2.2 := by
  cases out with
  | none => exact Frame.refl g s
  | some old =>
      simp only [stCowReadSector, sectors_of_shape sound.shape, spp_of_shape sound.shape,
        lookup_of_shape sound.shape, arenaOffset_of_shape sound.shape]
      split
      · exact Frame.refl g s
      · next inside =>
        split
        · next i found =>
          obtain ⟨hi, occ, _⟩ := lookup_some geo found
          have slot : (s.entries i).slot < g.capacity :=
            (sound.table.slot_lt i hi occ).trans_le sound.used_le
          exact Frame.note s (arenaOffset_inside geo sizeBits slot (inPage_lt geo sector))
        · have base := callBase_frame (g := g) read512 s sector old (by omega)
          split
          · exact ⟨base.shape, base.used, base.dirty, base.entries, base.trace⟩
          · exact base

theorem read_ok (sizeBits : Nat) (read512 : Read512 σ)
    (infallible : ∀ world lba out, (read512 world lba out).1 = 0) (s : Shadow σ) {sector : Nat}
    (inside : sector < s.c.sectors) (old : Sector) :
    ∃ bytes, (stCowReadSector sizeBits read512 s sector (some old)).1 = .ok ∧
      (stCowReadSector sizeBits read512 s sector (some old)).2.1 = some bytes := by
  have delivered : (callBase read512 s sector old).1 = 0 := infallible _ _ _
  simp only [stCowReadSector, if_neg (Nat.not_le.mpr inside), delivered, ne_eq,
    not_true_eq_false, if_false]
  split
  · exact ⟨_, rfl, rfl⟩
  · exact ⟨_, rfl, rfl⟩

theorem write_cases (sizeBits : Nat) (s : Shadow σ) (sector : Nat) (bytes : Option Sector) :
    (∃ status, status ≠ .ok ∧
      stCowWritePreparedSector sizeBits s sector bytes = (status, s)) ∨
    (∃ data i, bytes = some data ∧ sector < s.c.sectors ∧
      stCowLookup s.c s.entries (u32 (sector / s.c.sectorsPerPage)) false = some i ∧
      stCowWritePreparedSector sizeBits s sector bytes =
        let offset := arenaOffset sizeBits s.c (s.entries i).slot
          (u32 (sector % s.c.sectorsPerPage))
        let stored := { s.note (.arenaWrite offset) with arena := copyBlock s.arena offset data }
        (.ok, if (s.entries i).dirty then stored
          else { stored with
            entries := markDirty s.entries i
            c := { s.c with dirty := u32 (s.c.dirty + 1) } })) := by
  cases bytes with
  | none => exact Or.inl ⟨.range, by decide, rfl⟩
  | some data =>
      by_cases outside : sector ≥ s.c.sectors
      · exact Or.inl ⟨.range, by decide, if_pos outside⟩
      rw [stCowWritePreparedSector, if_neg outside]
      cases found : stCowLookup s.c s.entries (u32 (sector / s.c.sectorsPerPage)) false with
      | none => exact Or.inl ⟨.state, by decide, rfl⟩
      | some i =>
          refine Or.inr ⟨data, i, rfl, by omega, rfl, ?_⟩
          cases dirty : (s.entries i).dirty with
          | true => simp [dirty]
          | false =>
              simp only [dirty, Bool.false_eq_true, if_false]
              rfl

theorem write_ok (geo : Geometry g) (sizeBits : Nat) {s : Shadow σ} (sound : Sound g s)
    {sector : Nat} (inside : sector < g.sectors)
    (resident : Resident g s.entries (u32 (sector / g.sectorsPerPage))) (data : Sector) :
    (stCowWritePreparedSector sizeBits s sector (some data)).1 = .ok := by
  obtain ⟨i, _, found, _⟩ := lookup_resident geo sound.table resident false
  simp only [stCowWritePreparedSector, sectors_of_shape sound.shape, spp_of_shape sound.shape,
    lookup_of_shape sound.shape, if_neg (Nat.not_le.mpr inside), found]
  split <;> rfl

theorem Sound.write (geo : Geometry g) (sizeBits : Nat) {s : Shadow σ} (sound : Sound g s)
    (sector : Nat) (bytes : Option Sector) :
    Sound g (stCowWritePreparedSector sizeBits s sector bytes).2 := by
  rcases write_cases sizeBits s sector bytes with ⟨_, _, found⟩ | ⟨data, i, _, inside, found, result⟩
  · rw [found]
    exact sound
  · rw [lookup_of_shape sound.shape] at found
    rw [arenaOffset_of_shape sound.shape, spp_of_shape sound.shape] at result
    obtain ⟨hi, occ, _⟩ := lookup_some geo found
    have slot : (s.entries i).slot < g.capacity :=
      (sound.table.slot_lt i hi occ).trans_le sound.used_le
    have write := Frame.note s (a := .arenaWrite
      (arenaOffset sizeBits g (s.entries i).slot (u32 (sector % g.sectorsPerPage))))
      (arenaOffset_inside geo sizeBits slot (inPage_lt geo sector))
    have noted := sound.of_frame write
    rw [result]
    cases dirty : (s.entries i).dirty with
    | true => exact ⟨noted.shape, noted.table, noted.used_le, noted.dirty_eq, noted.inside⟩
    | false =>
        have count := sound.table.count_markDirty hi occ dirty
        have marked := sound.table.markDirty hi occ
        have dirtyLe := marked.dirty_le
        have used := sound.used_le
        have capacityLt := geo.capacity_lt
        refine ⟨noted.shape, marked, noted.used_le, ?_, noted.inside⟩
        show u32 (s.c.dirty + 1) = Probe.count g.hashSlots StCowEntry.dirty (markDirty s.entries i)
        rw [count, sound.dirty_eq, u32_of_lt (by omega)]

theorem Sound.call (geo : Geometry g) (sizeBits : Nat) (read512 : Read512 σ) {s : Shadow σ}
    (sound : Sound g s) (call : Call) : Sound g (stCowCall sizeBits read512 s call).2 := by
  cases call with
  | read sector out => exact sound.of_frame (read_frame geo sizeBits read512 sound _ out)
  | prepare first count => exact sound.prepare geo sizeBits read512 _ _
  | write sector bytes => exact sound.write geo sizeBits _ bytes

theorem Sound.fresh {c : StCow} (geo : Geometry c) (arena : Nat → UInt8) (world : σ) :
    Sound c (freshShadow c arena world) := by
  have cleared : c.used = 0 ∧ c.dirty = 0 := by
    rw [← geo.fresh]
    exact ⟨rfl, rfl⟩
  refine ⟨geo.fresh, ?_, ?_, ?_, ?_⟩
  · show TableSound c _ c.used
    rw [cleared.1]
    exact tableSound_fresh c
  · show c.used ≤ c.capacity
    rw [cleared.1]
    exact Nat.zero_le _
  · show c.dirty = _
    rw [cleared.2]
    exact (Probe.count_eq_zero _ _ _ fun _ _ => by simp [freshShadow, StCowEntry.dirty]).symm
  · intro a ha
    cases ha

end Calls

/-! ## Runs -/

/-- The shadow after `st_cow_init` and a list of calls, with the answers they gave. -/
def stCowRun {σ : Type} (sizeBits : Nat) (read512 : Read512 σ) (c : StCow)
    (arena : Nat → UInt8) (world : σ) (calls : List Call) :
    List (Call × Answer) × Shadow σ :=
  execute (stCowCall sizeBits read512) (freshShadow c arena world) calls

theorem Sound.run {σ : Type} {c : StCow} (geo : Geometry c) (sizeBits : Nat)
    (read512 : Read512 σ) (arena : Nat → UInt8) (world : σ) (calls : List Call) :
    Sound c (stCowRun sizeBits read512 c arena world calls).2 :=
  execute_invariant (Sound c) (Sound.fresh geo arena world)
    (fun _ call sound => sound.call geo sizeBits read512 call) calls

theorem prepare_answers_ne_state {σ : Type} {c : StCow} (geo : Geometry c) (sizeBits : Nat)
    (read512 : Read512 σ) (arena : Nat → UInt8) (world : σ) (calls : List Call) :
    ∀ first count answer,
      (Call.prepare first count, answer) ∈ (stCowRun sizeBits read512 c arena world calls).1 →
        answer.status ≠ .state := by
  refine (execute_induction (fun (history : List (Call × Answer)) s => Sound c s ∧ ∀ first count answer,
    (Call.prepare first count, answer) ∈ history → answer.status ≠ .state)
    ⟨Sound.fresh geo arena world, by simp⟩ ?_ calls).2
  rintro history s call ⟨sound, earlier⟩
  refine ⟨sound.call geo sizeBits read512 call, ?_⟩
  intro first count answer member
  rcases List.mem_append.mp member with old | new
  · exact earlier first count answer old
  · obtain ⟨rfl, rfl⟩ := Prod.mk.inj (List.mem_singleton.mp new)
    exact prepare_ne_state geo sizeBits read512 sound _ _

/-- What holds after a run over a medium of `sectors` sectors. -/
structure RunStructure {σ : Type} (sectors : Nat) (c : StCow) (history : List (Call × Answer))
    (s : Shadow σ) : Prop where
  pages_distinct : ∀ i < c.hashSlots, ∀ i' < c.hashSlots, (s.entries i).occupied →
    (s.entries i').occupied → i ≠ i' → (s.entries i).page ≠ (s.entries i').page
  slots_distinct : ∀ i < c.hashSlots, ∀ i' < c.hashSlots, (s.entries i).occupied →
    (s.entries i').occupied → i ≠ i' → (s.entries i).slot ≠ (s.entries i').slot
  slots_lt : ∀ i < c.hashSlots, (s.entries i).occupied → (s.entries i).slot < s.c.used
  used_eq : s.c.used = Probe.count c.hashSlots StCowEntry.occupied s.entries
  used_le : s.c.used ≤ c.capacity
  capacity_lt : c.capacity < c.hashSlots
  dirty_eq : s.c.dirty = Probe.count c.hashSlots StCowEntry.dirty s.entries
  dirty_le : s.c.dirty ≤ s.c.used
  arena_writes : ∀ offset, .arenaWrite offset ∈ s.trace → offset + 512 ≤ c.capacity * c.pageBytes
  pending_writes : ∀ index, .pendingWrite index ∈ s.trace → index < c.capacity
  base_reads : ∀ lba, .baseRead lba ∈ s.trace → lba < sectors
  never_state : ∀ first count answer, (Call.prepare first count, answer) ∈ history →
    answer.status ≠ .state

/-- Structure, counters and bounds hold in every state a run reaches, for any base and
any arguments. -/
theorem cow_run_structure {σ : Type} (sizeBits : Nat) (read512 : Read512 σ)
    (sectors : UInt64) (sectorsPerPage capacity hashSlots : UInt32) (c : StCow)
    (accepted : stCowInit sectors sectorsPerPage capacity hashSlots = some c)
    (pageFits : sectorsPerPage.toNat * 512 < 2 ^ 32) (tableFits : 2 * capacity.toNat < 2 ^ 32)
    (arena : Nat → UInt8) (world : σ) (calls : List Call) :
    RunStructure sectors.toNat c (stCowRun sizeBits read512 c arena world calls).1
      (stCowRun sizeBits read512 c arena world calls).2 := by
  have geo := geometry_of_init accepted pageFits tableFits
  have sound := Sound.run geo sizeBits read512 arena world calls
  have sectorsEq : c.sectors = sectors.toNat := by
    obtain ⟨_, _, _, _, _, _, _, rfl⟩ := stCowInit_eq_some accepted
    rfl
  constructor
  case pages_distinct =>
    intro i hi i' hi' occ occ' different same
    exact different (sound.table.chained.distinct i hi i' hi' occ occ' same)
  case slots_distinct =>
    intro i hi i' hi' occ occ' different same
    exact different (sound.table.slots i hi i' hi' occ occ' same)
  case slots_lt => exact sound.table.slot_lt
  case used_eq => exact sound.table.load.symm
  case used_le => exact sound.used_le
  case capacity_lt =>
    have double := geo.capacity_double
    have positive := geo.capacity_pos
    omega
  case dirty_eq => exact sound.dirty_eq
  case dirty_le =>
    rw [sound.dirty_eq]
    exact sound.table.dirty_le
  case arena_writes => exact fun _ member => sound.inside _ member
  case pending_writes => exact fun _ member => sound.inside _ member
  case base_reads =>
    intro lba member
    rw [← sectorsEq]
    exact sound.inside _ member
  case never_state => exact prepare_answers_ne_state geo sizeBits read512 arena world calls

/-- A base that delivers five reads, as many as the tail page has sectors, and fails from then on. -/
def fiveReads : Read512 Nat := fun reads _ bytes =>
  if reads < 5 then (0, fun _ => 0x5a, reads + 1) else (-1, bytes, reads + 1)

/-- The tail page is prepared and written, the next page fails and the tail reads back. -/
def tailPageRun : List (Call × Answer) × Shadow Nat :=
  stCowRun 32 fiveReads ⟨37, 8, 4096, 2, 4, 0, 0, 0⟩ (fun _ => 0) 0
    [.prepare 36 1, .write 36 (some fun _ => 1), .prepare 0 1, .read 36 (some fun _ => 0)]

theorem cow_run_structure_tail_page :
    tailPageRun.1.map (fun p => p.2.status) = [.ok, .ok, .io, .ok] ∧
      tailPageRun.2.c.used = 1 ∧ tailPageRun.2.c.dirty = 1 ∧
      RunStructure 37 ⟨37, 8, 4096, 2, 4, 0, 0, 0⟩ tailPageRun.1 tailPageRun.2 :=
  ⟨by decide +kernel, by decide +kernel, by decide +kernel,
    cow_run_structure 32 _ 37 8 2 4 _ (by decide) (by decide) (by decide) _ 0 _⟩

end Stage90.Cow

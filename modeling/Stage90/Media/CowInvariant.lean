import Stage90.Lib.Execute
import Stage90.Media.CowTable

/-!
# The structural invariant of the shadow

`Sound` ties the entries, the counters and the recorded accesses together.  Each loop
of `st_cow_prepare_write` has one lemma that says what it changes; the invariant of a
call, and by `execute_invariant` of a run, is assembled from them.  Base reads may fail
at any call.
-/

set_option autoImplicit false

namespace Stage90.Cow

open Stage90.Lib

def Access.Inside (g : StCow) : Access → Prop
  | .baseRead lba => lba < g.sectors
  | .arenaRead offset => offset + 512 ≤ g.capacity * g.pageBytes
  | .arenaWrite offset => offset + 512 ≤ g.capacity * g.pageBytes
  | .pendingWrite index => index < g.capacity

structure Sound {σ : Type} (g : StCow) (s : Shadow σ) : Prop where
  shape : s.c.shape = g
  table : TableSound g s.entries s.c.used
  used_le : s.c.used ≤ g.capacity
  dirty_eq : s.c.dirty = Probe.count g.hashSlots StCowEntry.dirty s.entries
  inside : ∀ a ∈ s.trace, a.Inside g

section Shape
variable {c g : StCow}

theorem sectors_of_shape (shape : c.shape = g) : c.sectors = g.sectors := by
  rw [← shape]
  rfl

theorem spp_of_shape (shape : c.shape = g) : c.sectorsPerPage = g.sectorsPerPage := by
  rw [← shape]
  rfl

theorem capacity_of_shape (shape : c.shape = g) : c.capacity = g.capacity := by
  rw [← shape]
  rfl

theorem lookup_of_shape (shape : c.shape = g) (entries : Nat → StCowEntry) (page : Nat)
    (wantEmpty : Bool) : stCowLookup c entries page wantEmpty =
      stCowLookup g entries page wantEmpty := by
  rw [← shape]
  rfl

theorem arenaOffset_of_shape (shape : c.shape = g) (sizeBits slot inPage : Nat) :
    arenaOffset sizeBits c slot inPage = arenaOffset sizeBits g slot inPage := by
  rw [← shape]
  rfl

theorem pageSectors_of_shape (shape : c.shape = g) (page : Nat) :
    pageSectors c page = pageSectors g page := by
  rw [← shape]
  rfl

end Shape

section Arithmetic
variable {g : StCow} (geo : Geometry g)
include geo

theorem Geometry.hashSlots_lt : g.hashSlots < 2 ^ 32 := by
  obtain ⟨m, hm, pow⟩ := geo.hashSlots_pow
  rw [pow]
  exact Nat.pow_lt_pow_right (by decide) hm

theorem Geometry.capacity_lt : g.capacity < 2 ^ 31 := by
  have := geo.capacity_double
  have := geo.hashSlots_lt
  omega

theorem Geometry.spp_lt : g.sectorsPerPage < 2 ^ 23 := by
  have := geo.pageBytes_lt
  omega

/-- Sector `inPage` of a slot in the arena; `size_t` can only shorten the offset. -/
theorem arenaOffset_inside (sizeBits : Nat) {slot inPage : Nat} (hslot : slot < g.capacity)
    (hpage : inPage < g.sectorsPerPage) :
    arenaOffset sizeBits g slot inPage + 512 ≤ g.capacity * g.pageBytes := by
  have block := gridOffset_add_le 512 hslot hpage
  rw [gridOffset, ← geo.pageBytes_eq] at block
  have shorter : arenaOffset sizeBits g slot inPage ≤ slot * g.pageBytes + inPage * 512 :=
    Nat.mod_le _ _
  omega

theorem pageSectors_eq {page : Nat} (inside : page * g.sectorsPerPage < g.sectors) :
    pageSectors g page = min g.sectorsPerPage (g.sectors - page * g.sectorsPerPage) := by
  have sectorsLt := geo.sectors_lt
  have sppLt := geo.spp_lt
  simp only [pageSectors, sub64_of_le (Nat.le_of_lt inside) sectorsLt]
  split
  · rw [u32_of_lt (by omega)]
    omega
  · omega

end Arithmetic

/-! ## Frames -/

/-- `s'` differs from `s` in the arena, the base and `backend_error` at most, and every
access made since is in bounds. -/
structure Frame {σ : Type} (g : StCow) (s s' : Shadow σ) : Prop where
  shape : s'.c.shape = s.c.shape
  used : s'.c.used = s.c.used
  dirty : s'.c.dirty = s.c.dirty
  entries : s'.entries = s.entries
  trace : ∀ a ∈ s'.trace, a ∈ s.trace ∨ a.Inside g

section Frame
variable {σ : Type} {g : StCow} {s s' s'' : Shadow σ}

theorem Frame.refl (g : StCow) (s : Shadow σ) : Frame g s s :=
  ⟨rfl, rfl, rfl, rfl, fun _ h => Or.inl h⟩

theorem Frame.trans (first : Frame g s s') (second : Frame g s' s'') : Frame g s s'' := by
  refine ⟨second.shape.trans first.shape, second.used.trans first.used,
    second.dirty.trans first.dirty, second.entries.trans first.entries, ?_⟩
  intro a ha
  rcases second.trace a ha with old | inside
  · exact first.trace a old
  · exact Or.inr inside

theorem Frame.note (s : Shadow σ) {a : Access} (inside : a.Inside g) : Frame g s (s.note a) := by
  refine ⟨rfl, rfl, rfl, rfl, ?_⟩
  intro b hb
  rcases List.mem_append.mp hb with old | new
  · exact Or.inl old
  · rw [List.mem_singleton.mp new]
    exact Or.inr inside

theorem Sound.of_frame (sound : Sound g s) (frame : Frame g s s') : Sound g s' := by
  refine ⟨frame.shape.trans sound.shape, ?_, ?_, ?_, ?_⟩
  · rw [frame.entries, frame.used]
    exact sound.table
  · rw [frame.used]
    exact sound.used_le
  · rw [frame.dirty, frame.entries]
    exact sound.dirty_eq
  · intro a ha
    rcases frame.trace a ha with old | inside
    · exact sound.inside a old
    · exact inside

theorem callBase_frame (read512 : Read512 σ) (s : Shadow σ) (lba : Nat) (out : Sector)
    (inside : lba < g.sectors) : Frame g s (callBase read512 s lba out).2.2 :=
  let noted := Frame.note (g := g) s (a := .baseRead lba) inside
  ⟨rfl, rfl, rfl, rfl, noted.trace⟩

end Frame

/-! ## The loops of `st_cow_prepare_write` -/

section Loops
variable {σ : Type} {g : StCow}

def visited (page left : Nat) : List Nat := (List.range (left + 1)).map fun k => u32 (page + k)

theorem visited_succ (page left : Nat) (hpage : page < 2 ^ 32) :
    visited page (left + 1) = page :: visited (u32 (page + 1)) left := by
  have shifted : ∀ k, u32 (page + (k + 1)) = u32 (u32 (page + 1) + k) := by
    intro k
    simp only [u32]
    omega
  simp only [visited, List.range_succ_eq_map (n := left + 1), List.map_cons, List.map_map,
    Nat.add_zero, u32_of_lt hpage]
  congr 1
  apply List.map_congr_left
  intro k _
  exact shifted k

theorem visited_nodup (page : Nat) {left : Nat} (hleft : left < 2 ^ 32) :
    (visited page left).Nodup := by
  refine List.Nodup.map_on ?_ List.nodup_range
  intro a ha b hb same
  simp only [List.mem_range] at ha hb
  simp only [u32] at same
  omega

open Classical in
noncomputable def absent (g : StCow) (entries : Nat → StCowEntry) (pages : List Nat) : List Nat :=
  pages.filter fun page => ¬ Resident g entries page

theorem mem_absent {entries : Nat → StCowEntry} {pages : List Nat} {page : Nat} :
    page ∈ absent g entries pages ↔ page ∈ pages ∧ ¬ Resident g entries page := by
  simp [absent]

/-- One turn of the first loop: it runs out of room exactly when the page is absent and the
arena has no slot left for it. -/
theorem pendPage_spec (geo : Geometry g) {s : Shadow σ} (sound : Sound g s) (page : Nat)
    {pending : List Nat} (room : s.c.used + pending.length ≤ g.capacity) :
    ∃ s', Frame g s s' ∧ s'.c = s.c ∧ s'.arena = s.arena ∧ s'.world = s.world ∧
      (pendPage s page pending = (.noSpace, pending, s) ∧
          g.capacity < s.c.used + (pending ++ absent g s.entries [page]).length ∨
        pendPage s page pending = (.ok, pending ++ absent g s.entries [page], s') ∧
          s.c.used + (pending ++ absent g s.entries [page]).length ≤ g.capacity) := by
  have look := lookup_of_shape sound.shape s.entries page false
  have capacity := capacity_of_shape sound.shape
  have capacityLt := geo.capacity_lt
  have left : sub32 s.c.capacity s.c.used = g.capacity - s.c.used := by
    rw [capacity]
    exact sub32_of_le sound.used_le (by omega)
  cases found : stCowLookup g s.entries page false with
  | some i =>
      have resident : Resident g s.entries page := ⟨i, lookup_some geo found⟩
      have none : absent g s.entries [page] = [] := by simp [absent, resident]
      refine ⟨s, Frame.refl g s, rfl, rfl, rfl, Or.inr ⟨?_, ?_⟩⟩
      · simp [pendPage, look, found, none]
      · simpa [none] using room
  | none =>
      have notResident := (lookup_eq_none geo sound.table).mp found
      have one : absent g s.entries [page] = [page] := by simp [absent, notResident]
      by_cases full : pending.length ≥ g.capacity - s.c.used
      · refine ⟨s, Frame.refl g s, rfl, rfl, rfl, Or.inl ⟨?_, ?_⟩⟩
        · simp [pendPage, look, found, left, full]
        · simp only [one, List.length_append, List.length_singleton]
          omega
      · have inside : (Access.pendingWrite pending.length).Inside g := by
          simp only [Access.Inside]
          omega
        refine ⟨_, Frame.note s inside, rfl, rfl, rfl, Or.inr ⟨?_, ?_⟩⟩
        · simp [pendPage, look, found, left, full, one]
        · simp only [one, List.length_append, List.length_singleton]
          omega

theorem collectPages_spec (geo : Geometry g) (left : Nat) {page : Nat} (hpage : page < 2 ^ 32)
    {s : Shadow σ} (sound : Sound g s) (pending : List Nat)
    (room : s.c.used + pending.length ≤ g.capacity) :
    ∃ s', Frame g s s' ∧ s'.c = s.c ∧ s'.arena = s.arena ∧ s'.world = s.world ∧
      ((∃ some, collectPages left page pending s = (.noSpace, some, s')) ∧
          g.capacity < s.c.used + (pending ++ absent g s.entries (visited page left)).length ∨
        collectPages left page pending s =
            (.ok, pending ++ absent g s.entries (visited page left), s') ∧
          s.c.used + (pending ++ absent g s.entries (visited page left)).length ≤
            g.capacity) := by
  induction left generalizing page s pending with
  | zero =>
      have only : visited page 0 = [page] := by simp [visited, u32_of_lt hpage]
      obtain ⟨s', frame, sameC, sameArena, sameWorld, ⟨full, exceeds⟩ | ⟨found, fits⟩⟩ :=
        pendPage_spec geo sound page room
      · rw [only]
        exact ⟨s, Frame.refl g s, rfl, rfl, rfl, Or.inl ⟨⟨_, full⟩, exceeds⟩⟩
      · refine ⟨s', frame, sameC, sameArena, sameWorld, Or.inr ?_⟩
        rw [only]
        exact ⟨found, fits⟩
  | succ left ih =>
      have pages : absent g s.entries (visited page (left + 1)) =
          absent g s.entries [page] ++ absent g s.entries (visited (u32 (page + 1)) left) := by
        rw [visited_succ page left hpage]
        simp only [absent, ← List.filter_append, List.singleton_append]
      obtain ⟨s₁, frame₁, sameC₁, sameArena₁, sameWorld₁, ⟨full, exceeds⟩ | ⟨found, fits⟩⟩ :=
        pendPage_spec geo sound page room
      · refine ⟨s, Frame.refl g s, rfl, rfl, rfl, Or.inl ⟨⟨pending, ?_⟩, ?_⟩⟩
        · simp [collectPages, full]
        · simp only [pages, List.length_append] at exceeds ⊢
          omega
      · obtain ⟨s₂, frame₂, sameC₂, sameArena₂, sameWorld₂, rest⟩ :=
          ih (u32_lt _) (sound.of_frame frame₁) _ (by rw [frame₁.used]; exact fits)
        refine ⟨s₂, frame₁.trans frame₂, sameC₂.trans sameC₁, sameArena₂.trans sameArena₁,
          sameWorld₂.trans sameWorld₁, ?_⟩
        rw [frame₁.entries, frame₁.used] at rest
        rw [pages, ← List.append_assoc]
        simpa only [collectPages, found] using rest

theorem copySectors_frame (geo : Geometry g) (sizeBits : Nat) (read512 : Read512 σ)
    (page : Nat) {slot : Nat} (hslot : slot < g.capacity) (left : Nat) {j : Nat}
    (inPage : j + left ≤ g.sectorsPerPage)
    (onMedium : page * g.sectorsPerPage + (j + left) ≤ g.sectors)
    (s : Shadow σ) (shape : s.c.shape = g) :
    Frame g s (copySectors sizeBits read512 page slot left j s).2 ∧
      ((copySectors sizeBits read512 page slot left j s).1 = .ok ∨
        (copySectors sizeBits read512 page slot left j s).1 = .io) := by
  induction left generalizing j s with
  | zero => exact ⟨Frame.refl g s, Or.inl rfl⟩
  | succ left ih =>
      have sectorsLt := geo.sectors_lt
      have lba : u64 (page * s.c.sectorsPerPage + j) < g.sectors := by
        rw [spp_of_shape shape, u64_of_lt (by omega)]
        omega
      have write : (Access.arenaWrite (arenaOffset sizeBits s.c slot j)).Inside g := by
        rw [arenaOffset_of_shape shape]
        exact arenaOffset_inside geo sizeBits hslot (by omega)
      have base := callBase_frame read512 s _
        (blockAt 512 s.arena (arenaOffset sizeBits s.c slot j)) lba
      simp only [copySectors]
      set answer := callBase read512 s (u64 (page * s.c.sectorsPerPage + j))
        (blockAt 512 s.arena (arenaOffset sizeBits s.c slot j)) with _
      have stored : Frame g s
          { answer.2.2.note (.arenaWrite (arenaOffset sizeBits s.c slot j)) with
            arena := copyBlock answer.2.2.arena (arenaOffset sizeBits s.c slot j)
              answer.2.1 } := by
        have noted := base.trans (Frame.note answer.2.2 write)
        exact ⟨noted.shape, noted.used, noted.dirty, noted.entries, noted.trace⟩
      by_cases failed : answer.1 ≠ 0
      · rw [if_pos failed]
        exact ⟨⟨stored.shape, stored.used, stored.dirty, stored.entries, stored.trace⟩,
          Or.inr rfl⟩
      · rw [if_neg failed]
        obtain ⟨rest, status⟩ := ih (j := j + 1) (by omega) (by omega) _ (stored.shape.trans shape)
        exact ⟨stored.trans rest, status⟩

theorem copyPages_frame (geo : Geometry g) (sizeBits : Nat) (read512 : Read512 σ)
    (pending : List Nat) (i : Nat) (s : Shadow σ) (shape : s.c.shape = g)
    (room : s.c.used + i + pending.length ≤ g.capacity)
    (onMedium : ∀ page ∈ pending, page * g.sectorsPerPage < g.sectors) :
    Frame g s (copyPages sizeBits read512 pending i s).2 ∧
      ((copyPages sizeBits read512 pending i s).1 = .ok ∨
        (copyPages sizeBits read512 pending i s).1 = .io) := by
  induction pending generalizing i s with
  | nil => exact ⟨Frame.refl g s, Or.inl rfl⟩
  | cons page pending ih =>
      have capacityLt := geo.capacity_lt
      simp only [List.length_cons] at room
      have pageInside := onMedium page List.mem_cons_self
      have sectors := pageSectors_eq geo pageInside
      have slot : u32 (s.c.used + i) < g.capacity := by
        rw [u32_of_lt (by omega)]
        omega
      obtain ⟨frame, status⟩ := copySectors_frame geo sizeBits read512 page slot
        (pageSectors g page) (j := 0) (by omega) (by omega) s shape
      rw [copyPages, pageSectors_of_shape shape]
      rcases copied : copySectors sizeBits read512 page (u32 (s.c.used + i)) (pageSectors g page)
        0 s with ⟨answer, s₁⟩
      rw [copied] at frame status
      rcases status with rfl | rfl
      · obtain ⟨rest, statusRest⟩ := ih (i + 1) s₁ (frame.shape.trans shape)
          (by rw [frame.used]; omega) (fun p hp => onMedium p (List.mem_cons_of_mem _ hp))
        exact ⟨frame.trans rest, statusRest⟩
      · exact ⟨frame, Or.inr rfl⟩

theorem publishPages_spec (geo : Geometry g) (pending : List Nat) (i : Nat) (s : Shadow σ)
    (shape : s.c.shape = g) (table : TableSound g s.entries (s.c.used + i))
    (room : s.c.used + i + pending.length ≤ g.capacity) (nodup : pending.Nodup)
    (fresh : ∀ page ∈ pending, ¬ Resident g s.entries page)
    (onMedium : ∀ page ∈ pending, page * g.sectorsPerPage < g.sectors) :
    ∃ entries, publishPages pending i s = (.ok, { s with entries := entries }) ∧
      TableSound g entries (s.c.used + i + pending.length) ∧
      Probe.count g.hashSlots StCowEntry.dirty entries =
        Probe.count g.hashSlots StCowEntry.dirty s.entries ∧
      ∀ page slot, Maps g entries page slot ↔ Maps g s.entries page slot ∨
        ∃ k, ∃ h : k < pending.length, page = pending[k] ∧ slot = s.c.used + i + k := by
  induction pending generalizing i s with
  | nil => exact ⟨s.entries, rfl, table, rfl, by simp⟩
  | cons page pending ih =>
      have capacityLt := geo.capacity_lt
      simp only [List.length_cons] at room
      obtain ⟨notAgain, nodup⟩ := List.nodup_cons.mp nodup
      obtain ⟨e, found, vacant⟩ :=
        lookup_free geo table (by omega) (fresh page List.mem_cons_self)
      have slot : u32 (s.c.used + i) = s.c.used + i := u32_of_lt (by omega)
      obtain ⟨he, empty⟩ := Probe.probe_vacant _ _ _ vacant
      set next : Shadow σ := { s with
        entries := Function.update s.entries e ⟨page, s.c.used + i, stCowOccupied⟩ } with next_eq
      have step : publishPages (page :: pending) i s = publishPages pending (i + 1) next := by
        rw [publishPages, lookup_of_shape shape, found]
        simp only [slot, next_eq]
      have nextTable : TableSound g next.entries (next.c.used + (i + 1)) :=
        table.publish vacant (onMedium page List.mem_cons_self)
      have nextFresh : ∀ p ∈ pending, ¬ Resident g next.entries p := by
        intro p hp resident
        rcases (resident_publish vacant _ p).mp resident with rfl | old
        · exact notAgain hp
        · exact fresh p (List.mem_cons_of_mem _ hp) old
      obtain ⟨entries, published, sound, dirty, maps⟩ := ih (i + 1) next shape nextTable
        (by simp only [next_eq]; omega) nodup nextFresh
        (fun p hp => onMedium p (List.mem_cons_of_mem _ hp))
      refine ⟨entries, step.trans published, ?_, ?_, ?_⟩
      · rw [List.length_cons, show s.c.used + i + (pending.length + 1) =
          next.c.used + (i + 1) + pending.length by simp only [next_eq]; omega]
        exact sound
      · rw [dirty]
        have clean : StCowEntry.dirty ⟨page, s.c.used + i, stCowOccupied⟩ =
            (s.entries e).dirty := by
          rcases table.flags e he with zero | one | three
          · simp [StCowEntry.dirty, zero, stCowOccupied, stCowDirty]
          · simp [StCowEntry.dirty, one, stCowOccupied, stCowDirty]
          · simp [layout, StCowEntry.occupied, three, stCowOccupied] at empty
        exact Probe.count_update_same _ _ _ clean
      · intro p slot'
        rw [maps, maps_publish vacant]
        constructor
        · rintro ((old | ⟨rfl, rfl⟩) | ⟨k, hk, rfl, rfl⟩)
          · exact Or.inl old
          · exact Or.inr ⟨0, by simp, by simp, by simp⟩
          · exact Or.inr ⟨k + 1, by simpa using hk, by simp, by simp only [next_eq]; omega⟩
        · rintro (old | ⟨k, hk, rfl, rfl⟩)
          · exact Or.inl (Or.inl old)
          · cases k with
            | zero => exact Or.inl (Or.inr ⟨by simp, by simp⟩)
            | succ k =>
                exact Or.inr ⟨k, by simpa using hk, by simp, by simp only [next_eq]; omega⟩

end Loops

/-! ## The pages of a request -/

section Pages
variable {g : StCow} {first count : Nat}

def firstPage (g : StCow) (first : Nat) : Nat := u32 (first / g.sectorsPerPage)

def lastPage (g : StCow) (first count : Nat) : Nat :=
  u32 (u64 (first + count - 1) / g.sectorsPerPage)

/-- The pages `st_cow_prepare_write` covers. -/
def requestPages (g : StCow) (first count : Nat) : List Nat :=
  visited (firstPage g first) (sub32 (lastPage g first count) (firstPage g first))

/-- How many pages those are, as `st_cow_prepare_write` counts them. -/
def spanPages (g : StCow) (first count : Nat) : Nat :=
  u64 (sub64 (lastPage g first count) (firstPage g first) + 1)

/-- The range check at the head of `st_cow_prepare_write`. -/
structure InRange (g : StCow) (first count : Nat) : Prop where
  positive : 0 < count
  inside : first + count ≤ g.sectors

theorem inRange_iff (geo : Geometry g) (first count : Nat) :
    ¬ (count = 0 ∨ first ≥ g.sectors ∨ count > sub64 g.sectors first) ↔
      InRange g first count := by
  have sectorsLt := geo.sectors_lt
  constructor
  · intro valid
    have left := sub64_of_le (a := g.sectors) (b := first) (by omega) sectorsLt
    exact ⟨by omega, by omega⟩
  · rintro ⟨positive, inside⟩
    have left := sub64_of_le (a := g.sectors) (b := first) (by omega) sectorsLt
    omega

theorem requestPages_nodup (g : StCow) (first count : Nat) : (requestPages g first count).Nodup :=
  visited_nodup _ (u32_lt _)

theorem requestPages_of_fits (geo : Geometry g) (fits : g.sectors + g.sectorsPerPage ≤ 2 ^ 64)
    (range : InRange g first count) (page : Nat) :
    page ∈ requestPages g first count ↔ first / g.sectorsPerPage ≤ page ∧
      page ≤ (first + count - 1) / g.sectorsPerPage := by
  obtain ⟨positive, inside⟩ := range
  have sectorsLt := geo.sectors_lt
  have firstEq : firstPage g first = first / g.sectorsPerPage :=
    u32_of_lt (geo.pages_lt fits first (by omega))
  have lastLt := geo.pages_lt fits (first + count - 1) (by omega)
  have lastEq : lastPage g first count = (first + count - 1) / g.sectorsPerPage := by
    rw [lastPage, u64_of_lt (by omega), u32_of_lt lastLt]
  have ordered : first / g.sectorsPerPage ≤ (first + count - 1) / g.sectorsPerPage :=
    Nat.div_le_div_right (by omega)
  rw [requestPages, firstEq, lastEq, sub32_of_le ordered lastLt]
  simp only [visited, List.mem_map, List.mem_range]
  constructor
  · rintro ⟨k, hk, rfl⟩
    rw [u32_of_lt (by omega)]
    omega
  · rintro ⟨low, high⟩
    refine ⟨page - first / g.sectorsPerPage, by omega, ?_⟩
    rw [Nat.add_sub_cancel' low, u32_of_lt (by omega)]

theorem requestPages_onMedium (geo : Geometry g) (range : InRange g first count) :
    ∀ page ∈ requestPages g first count, page * g.sectorsPerPage < g.sectors := by
  intro page member
  by_cases fits : g.sectors + g.sectorsPerPage ≤ 2 ^ 64
  · have high := ((requestPages_of_fits geo fits range page).mp member).2
    have start : page * g.sectorsPerPage ≤ first + count - 1 :=
      (Nat.mul_le_mul_right _ high).trans (Nat.div_mul_le_self _ _)
    have inside := range.inside
    have positive := range.positive
    omega
  · have sppLt := geo.spp_lt
    obtain ⟨k, _, rfl⟩ := List.mem_map.mp member
    have pageLt := u32_lt (firstPage g first + k)
    have : u32 (firstPage g first + k) * g.sectorsPerPage < 2 ^ 32 * 2 ^ 23 :=
      Nat.mul_lt_mul'' pageLt sppLt
    omega

end Pages

end Stage90.Cow

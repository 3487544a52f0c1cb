import Stage90.Media.CowSafety

/-!
# The shadow as a store of sectors

`Mirrors` relates the shadow to an abstract store `content`: a resident page holds its
sectors of `content`, and elsewhere `content` is still the medium.  Reads answer
`content`, writes update one sector of it, and preparing a write leaves it alone.

The base is `Honest` when a successful read delivers the medium's bytes; `good` says in
which states behind the callback that is promised, so that a base which hides its
failures can still be used in the runs where it had none.
-/

set_option autoImplicit false

namespace Stage90.Cow

open Stage90.Lib

structure Honest {σ : Type} (read512 : Read512 σ) (medium : Nat → Sector) (good : σ → Prop) :
    Prop where
  before : ∀ world lba out, good (read512 world lba out).2.2 → good world
  bytes : ∀ world lba out, good (read512 world lba out).2.2 → (read512 world lba out).1 = 0 →
    (read512 world lba out).2.1 = medium lba

/-- A base that is a fixed function and never fails. -/
def fixedBase (medium : Nat → Sector) : Read512 Unit := fun world lba _ => (0, medium lba, world)

theorem fixedBase_honest (medium : Nat → Sector) :
    Honest (fixedBase medium) medium fun _ => True :=
  ⟨fun _ _ _ _ => trivial, fun _ _ _ _ _ => rfl⟩

def slotSector (g : StCow) (arena : Nat → UInt8) (slot k : Nat) : Sector :=
  blockAt 512 arena (gridOffset 512 g.sectorsPerPage slot k)

/-- The geometry numbers every page below `2 ^ 32`, and the arena is an object whose
offsets `size_t` can name. -/
structure Addressable (g : StCow) (sizeBits : Nat) : Prop where
  geometry : Geometry g
  fits : g.sectors + g.sectorsPerPage ≤ 2 ^ 64
  arena : g.capacity * g.pageBytes ≤ 2 ^ sizeBits

section Offsets
variable {g : StCow} {sizeBits : Nat} (room : Addressable g sizeBits)
include room

theorem arenaOffset_eq {slot k : Nat} (hslot : slot < g.capacity) (hk : k < g.sectorsPerPage) :
    arenaOffset sizeBits g slot k = gridOffset 512 g.sectorsPerPage slot k := by
  have inside := gridOffset_add_le 512 hslot hk
  have page := room.geometry.pageBytes_eq
  have arena := room.arena
  rw [arenaOffset, page]
  rw [page] at arena
  exact Nat.mod_eq_of_lt (by unfold gridOffset at inside; omega)

theorem page_of_sector {sector : Nat} (inside : sector < g.sectors) :
    u32 (sector / g.sectorsPerPage) = sector / g.sectorsPerPage :=
  u32_of_lt (room.geometry.pages_lt room.fits sector inside)

theorem inPage_of_sector (sector : Nat) :
    u32 (sector % g.sectorsPerPage) = sector % g.sectorsPerPage := by
  have := Nat.mod_lt sector room.geometry.spp_pos
  have sppLt := room.geometry.spp_lt
  exact u32_of_lt (by omega)

end Offsets

section Store
variable {σ : Type} {g : StCow} {sizeBits : Nat} {read512 : Read512 σ}
  {medium content : Nat → Sector} {good : σ → Prop}

theorem slotSector_copyBlock_same (arena : Nat → UInt8) (slot k : Nat) (bytes : Sector) :
    slotSector g (copyBlock arena (gridOffset 512 g.sectorsPerPage slot k) bytes) slot k =
      bytes :=
  blockAt_copyBlock_same _ _ _

theorem slotSector_copyBlock_other (arena : Nat → UInt8) {slot k slot' k' : Nat}
    (bytes : Sector) (hk : k < g.sectorsPerPage) (hk' : k' < g.sectorsPerPage)
    (different : slot' ≠ slot ∨ k' ≠ k) :
    slotSector g (copyBlock arena (gridOffset 512 g.sectorsPerPage slot k) bytes) slot' k' =
      slotSector g arena slot' k' :=
  blockAt_copyBlock_disjoint _ _ _ _ (grid_disjoint hk' hk different)

/-! ## Copying pages in -/

/-- The inner loop fills sectors `j ..` of its slot from the medium and touches no other. -/
theorem copySectors_blocks (room : Addressable g sizeBits) (honest : Honest read512 medium good)
    (page : Nat) {slot : Nat} (hslot : slot < g.capacity) (left : Nat) {j : Nat}
    (inPage : j + left ≤ g.sectorsPerPage)
    (onMedium : page * g.sectorsPerPage + (j + left) ≤ g.sectors)
    (s : Shadow σ) (shape : s.c.shape = g)
    (after : good (copySectors sizeBits read512 page slot left j s).2.world) :
    good s.world ∧
    (∀ slot' k, k < g.sectorsPerPage → slot' ≠ slot ∨ k < j ∨ j + left ≤ k →
      slotSector g (copySectors sizeBits read512 page slot left j s).2.arena slot' k =
        slotSector g s.arena slot' k) ∧
    ((copySectors sizeBits read512 page slot left j s).1 = .ok →
      ∀ k, j ≤ k → k < j + left →
        slotSector g (copySectors sizeBits read512 page slot left j s).2.arena slot k =
          medium (page * g.sectorsPerPage + k)) := by
  induction left generalizing j s with
  | zero => exact ⟨after, fun _ _ _ _ => rfl, fun _ k low high => by omega⟩
  | succ left ih =>
      have sectorsLt := room.geometry.sectors_lt
      have lba : u64 (page * g.sectorsPerPage + j) = page * g.sectorsPerPage + j :=
        u64_of_lt (by omega)
      simp only [copySectors, arenaOffset_of_shape shape, spp_of_shape shape, lba,
        arenaOffset_eq room hslot (show j < g.sectorsPerPage by omega)] at after ⊢
      set offset := gridOffset 512 g.sectorsPerPage slot j with offset_eq
      set answer := callBase read512 s (page * g.sectorsPerPage + j)
        (blockAt 512 s.arena offset) with answer_eq
      have arena : answer.2.2.arena = s.arena := rfl
      have shape₁ : answer.2.2.c.shape = g := shape
      by_cases failed : answer.1 ≠ 0
      · rw [if_pos failed] at after ⊢
        refine ⟨honest.before _ _ _ after, ?_, by simp⟩
        intro slot' k hk outside
        show slotSector g (copyBlock s.arena offset answer.2.1) slot' k = _
        exact slotSector_copyBlock_other s.arena answer.2.1 (by omega) hk (by omega)
      · rw [if_neg failed] at after ⊢
        set next : Shadow σ := { answer.2.2.note (.arenaWrite offset) with
          arena := copyBlock answer.2.2.arena offset answer.2.1 } with next_eq
        obtain ⟨goodNext, frame, filled⟩ := ih (j := j + 1) (by omega) (by omega) next shape₁ after
        have goodHere : good answer.2.2.world := goodNext
        have delivered : answer.2.1 = medium (page * g.sectorsPerPage + j) :=
          honest.bytes _ _ _ goodHere (not_not.mp failed)
        refine ⟨honest.before _ _ _ goodHere, ?_, ?_⟩
        · intro slot' k hk outside
          rw [frame slot' k hk (by omega)]
          exact slotSector_copyBlock_other s.arena answer.2.1 (by omega) hk (by omega)
        · intro success k low high
          by_cases here : k = j
          · subst here
            rw [frame slot k (by omega) (by omega)]
            calc slotSector g next.arena slot k = answer.2.1 :=
                  slotSector_copyBlock_same s.arena slot k answer.2.1
              _ = medium (page * g.sectorsPerPage + k) := delivered
          · exact filled success k (by omega) (by omega)

theorem copyPages_blocks (room : Addressable g sizeBits) (honest : Honest read512 medium good)
    (pending : List Nat) (i : Nat) (s : Shadow σ) (shape : s.c.shape = g)
    (slots : s.c.used + i + pending.length ≤ g.capacity)
    (onMedium : ∀ page ∈ pending, page * g.sectorsPerPage < g.sectors)
    (after : good (copyPages sizeBits read512 pending i s).2.world) :
    good s.world ∧
    (∀ slot k, k < g.sectorsPerPage → slot < s.c.used + i →
      slotSector g (copyPages sizeBits read512 pending i s).2.arena slot k =
        slotSector g s.arena slot k) ∧
    ((copyPages sizeBits read512 pending i s).1 = .ok →
      ∀ n, ∀ h : n < pending.length, ∀ k < g.sectorsPerPage,
        pending[n] * g.sectorsPerPage + k < g.sectors →
        slotSector g (copyPages sizeBits read512 pending i s).2.arena (s.c.used + i + n) k =
          medium (pending[n] * g.sectorsPerPage + k)) := by
  induction pending generalizing i s with
  | nil => exact ⟨after, fun _ _ _ _ => rfl, fun _ n h => by simp at h⟩
  | cons page pending ih =>
      have geo := room.geometry
      have capacityLt := geo.capacity_lt
      simp only [List.length_cons] at slots
      have pageInside := onMedium page List.mem_cons_self
      have sectors := pageSectors_eq geo pageInside
      have slot : u32 (s.c.used + i) = s.c.used + i := u32_of_lt (by omega)
      have slotLt : s.c.used + i < g.capacity := by omega
      rw [copyPages, pageSectors_of_shape shape, slot] at after ⊢
      obtain ⟨frame, status⟩ := copySectors_frame geo sizeBits read512 page slotLt
        (pageSectors g page) (j := 0) (by omega) (by omega) s shape
      have blocks := copySectors_blocks room honest page slotLt
        (pageSectors g page) (j := 0) (by omega) (by omega) s shape
      rcases copied : copySectors sizeBits read512 page (s.c.used + i) (pageSectors g page) 0 s
        with ⟨answer, s₁⟩
      rw [copied] at after frame status blocks
      rcases status with rfl | rfl
      · simp only at after ⊢
        obtain ⟨goodNext, untouched, filled⟩ := ih (i + 1) s₁ (frame.shape.trans shape)
          (by rw [frame.used]; omega) (fun p hp => onMedium p (List.mem_cons_of_mem _ hp)) after
        rw [frame.used] at untouched filled
        obtain ⟨goodHere, others, own⟩ := blocks goodNext
        refine ⟨goodHere, ?_, ?_⟩
        · intro slot k hk below
          rw [untouched slot k hk (by omega)]
          exact others slot k hk (Or.inl (by omega))
        · intro success n hn k hk inside
          cases n with
          | zero =>
              simp only [List.getElem_cons_zero] at inside ⊢
              rw [untouched _ k hk (by omega)]
              exact own rfl k (by omega) (by omega)
          | succ n =>
              simp only [List.getElem_cons_succ] at inside ⊢
              rw [show s.c.used + i + (n + 1) = s.c.used + (i + 1) + n by omega]
              exact filled success n (by simpa using hn) k hk inside
      · obtain ⟨goodHere, others, _⟩ := blocks after
        exact ⟨goodHere, fun slot k hk below => others slot k hk (Or.inl (by omega)), by simp⟩

/-! ## The state behind the callback -/

section World
variable {safe : σ → Prop}
  (keeps : ∀ world lba out, lba < g.sectors → safe world → safe (read512 world lba out).2.2)
include keeps

/-- The operations reach the callback with sectors of the medium only. -/
theorem copySectors_world (geo : Geometry g) (sizeBits : Nat) (page slot left : Nat) {j : Nat}
    (onMedium : page * g.sectorsPerPage + (j + left) ≤ g.sectors) (s : Shadow σ)
    (shape : s.c.shape = g) (before : safe s.world) :
    safe (copySectors sizeBits read512 page slot left j s).2.world := by
  induction left generalizing j s with
  | zero => exact before
  | succ left ih =>
      have sectorsLt := geo.sectors_lt
      have lba : u64 (page * s.c.sectorsPerPage + j) < g.sectors := by
        rw [spp_of_shape shape, u64_of_lt (by omega)]
        omega
      simp only [copySectors]
      set answer := callBase read512 s (u64 (page * s.c.sectorsPerPage + j))
        (blockAt 512 s.arena (arenaOffset sizeBits s.c slot j)) with _
      have next : safe answer.2.2.world := keeps _ _ _ lba before
      by_cases failed : answer.1 ≠ 0
      · rw [if_pos failed]
        exact next
      · rw [if_neg failed]
        exact ih (j := j + 1) (by omega) _ shape next

theorem copyPages_world (geo : Geometry g) (sizeBits : Nat) (pending : List Nat) (i : Nat)
    (s : Shadow σ) (shape : s.c.shape = g)
    (room : s.c.used + i + pending.length ≤ g.capacity)
    (onMedium : ∀ page ∈ pending, page * g.sectorsPerPage < g.sectors)
    (before : safe s.world) : safe (copyPages sizeBits read512 pending i s).2.world := by
  induction pending generalizing i s with
  | nil => exact before
  | cons page pending ih =>
      have capacityLt := geo.capacity_lt
      simp only [List.length_cons] at room
      have pageInside := onMedium page List.mem_cons_self
      have sectors := pageSectors_eq geo pageInside
      have slot : u32 (s.c.used + i) < g.capacity := by
        rw [u32_of_lt (by omega)]
        omega
      have frame := (copySectors_frame geo sizeBits read512 page slot (pageSectors g page)
        (j := 0) (by omega) (by omega) s shape).1
      have next := copySectors_world keeps geo sizeBits page (u32 (s.c.used + i))
        (pageSectors g page) (j := 0) (by omega) s shape before
      rw [copyPages, pageSectors_of_shape shape]
      rcases copied : copySectors sizeBits read512 page (u32 (s.c.used + i)) (pageSectors g page)
        0 s with ⟨answer, s₁⟩
      rw [copied] at frame next
      cases answer with
      | ok =>
          apply ih (i + 1) s₁ (frame.shape.trans shape)
          · rw [frame.used]
            omega
          · exact fun p hp => onMedium p (List.mem_cons_of_mem _ hp)
          · exact next
      | range => exact next
      | noSpace => exact next
      | io => exact next
      | state => exact next

theorem prepare_world (geo : Geometry g) (sizeBits : Nat) {s : Shadow σ} (sound : Sound g s)
    (first count : Nat) (before : safe s.world) :
    safe (stCowPrepareWrite sizeBits read512 s first count).2.world := by
  rcases prepare_cases geo sizeBits read512 sound first count with
    ⟨_, found⟩ | ⟨_, _, s₁, _, _, _, world, found⟩ | ⟨pages, s₁, s₂, collected, copied, found⟩ |
    ⟨pages, s₁, s₂, entries, collected, copied, _, found⟩
  · rw [found]
    exact before
  · rw [found]
    simpa only [world] using before
  all_goals
    have room := collected.room
    have after := copyPages_world keeps geo sizeBits pages 0 s₁
      (collected.frame.shape.trans sound.shape) (by rw [collected.frame.used]; omega)
      (collected.onMedium geo) (by rw [collected.sameWorld]; exact before)
    rw [copied] at after
    rw [found]
    exact after

theorem read_world (sizeBits : Nat) {s : Shadow σ} (sound : Sound g s) (sector : Nat)
    (out : Option Sector) (before : safe s.world) :
    safe (stCowReadSector sizeBits read512 s sector out).2.2.world := by
  cases out with
  | none => exact before
  | some old =>
      simp only [stCowReadSector, sectors_of_shape sound.shape]
      split
      · exact before
      · next inside =>
        split
        · exact before
        · have next : safe (callBase read512 s sector old).2.2.world :=
            keeps s.world sector old (by omega) before
          split <;> exact next

end World

/-- Callbacks never repair a state that is not `good`. -/
theorem Honest.bad (honest : Honest read512 medium good) (world : σ) (lba : Nat) (out : Sector)
    (_ : lba < g.sectors) (bad : ¬ good world) : ¬ good (read512 world lba out).2.2 :=
  fun after => bad (honest.before world lba out after)

theorem prepare_good (room : Addressable g sizeBits) (honest : Honest read512 medium good)
    {s : Shadow σ} (sound : Sound g s) (first count : Nat)
    (after : good (stCowPrepareWrite sizeBits read512 s first count).2.world) :
    good s.world := by
  by_contra bad
  exact prepare_world (honest.bad (g := g)) room.geometry sizeBits sound first count bad after

theorem read_good (honest : Honest read512 medium good) (sizeBits : Nat) {s : Shadow σ}
    (sound : Sound g s) (sector : Nat) (out : Option Sector)
    (after : good (stCowReadSector sizeBits read512 s sector out).2.2.world) :
    good s.world := by
  by_contra bad
  exact read_world (honest.bad (g := g)) sizeBits sound sector out bad after

theorem write_world (sizeBits : Nat) (s : Shadow σ) (sector : Nat) (bytes : Option Sector) :
    (stCowWritePreparedSector sizeBits s sector bytes).2.world = s.world := by
  rcases write_cases sizeBits s sector bytes with ⟨_, _, found⟩ | ⟨data, i, _, _, _, result⟩
  · rw [found]
  · rw [result]
    cases dirty : (s.entries i).dirty <;> rfl

/-! ## The simulation -/

/-- Page `page`'s sectors are those of `content`, in its slot or on the medium. -/
structure Mirrors (g : StCow) (medium : Nat → Sector) (entries : Nat → StCowEntry)
    (arena : Nat → UInt8) (content : Nat → Sector) : Prop where
  resident : ∀ page slot, Maps g entries page slot → ∀ k < g.sectorsPerPage,
    page * g.sectorsPerPage + k < g.sectors →
      slotSector g arena slot k = content (page * g.sectorsPerPage + k)
  absent : ∀ page, ¬ Resident g entries page → ∀ k < g.sectorsPerPage,
    page * g.sectorsPerPage + k < g.sectors →
      content (page * g.sectorsPerPage + k) = medium (page * g.sectorsPerPage + k)

theorem mirrors_fresh (g : StCow) (medium : Nat → Sector) (arena : Nat → UInt8) :
    Mirrors g medium (fun _ => ⟨0, 0, 0⟩) arena medium := by
  refine ⟨?_, fun _ _ _ _ _ => rfl⟩
  rintro page slot ⟨i, _, occ, _⟩
  simp [StCowEntry.occupied] at occ

theorem sector_eq (g : StCow) (sector : Nat) :
    sector / g.sectorsPerPage * g.sectorsPerPage + sector % g.sectorsPerPage = sector :=
  Nat.div_add_mod' sector g.sectorsPerPage

/-- A read answers `content`, unless the base failed. -/
theorem read_content (room : Addressable g sizeBits) (honest : Honest read512 medium good)
    {s : Shadow σ} (sound : Sound g s) (mirrors : Mirrors g medium s.entries s.arena content)
    {sector : Nat} (inside : sector < g.sectors) (old : Sector)
    (after : good (stCowReadSector sizeBits read512 s sector (some old)).2.2.world) :
    stCowReadSector sizeBits read512 s sector (some old) =
        (.ok, some (content sector),
          (stCowReadSector sizeBits read512 s sector (some old)).2.2) ∨
      ((stCowReadSector sizeBits read512 s sector (some old)).1 = .io ∧
        (read512 s.world sector old).1 ≠ 0) := by
  have geo := room.geometry
  have inPage := Nat.mod_lt sector geo.spp_pos
  have here := sector_eq g sector
  simp only [stCowReadSector, sectors_of_shape sound.shape, spp_of_shape sound.shape,
    lookup_of_shape sound.shape, arenaOffset_of_shape sound.shape, page_of_sector room inside,
    inPage_of_sector room, if_neg (Nat.not_le.mpr inside)] at after ⊢
  cases found : stCowLookup g s.entries (sector / g.sectorsPerPage) false with
  | some i =>
      have maps := maps_of_lookup geo found
      have slot := (sound.table.maps_lt maps).trans_le sound.used_le
      have stored := mirrors.resident _ _ maps _ inPage (by rw [here]; exact inside)
      rw [here] at stored
      left
      simp only [arenaOffset_eq room slot inPage, Prod.mk.injEq, true_and, and_true]
      exact congrArg some stored
  | none =>
      have absent := (lookup_eq_none geo sound.table).mp found
      simp only [found] at after ⊢
      by_cases failed : (callBase read512 s sector old).1 ≠ 0
      · rw [if_pos failed]
        exact Or.inr ⟨rfl, failed⟩
      · rw [if_neg failed] at after ⊢
        have delivered : (callBase read512 s sector old).2.1 = medium sector :=
          honest.bytes s.world sector old after (not_not.mp failed)
        have same := mirrors.absent _ absent _ inPage (by rw [here]; exact inside)
        rw [here] at same
        left
        rw [delivered, same]

theorem read_frame_store (geo : Geometry g) (sizeBits : Nat) (read512 : Read512 σ)
    {s : Shadow σ} (sound : Sound g s) (sector : Nat)
    (out : Option Sector) :
    (stCowReadSector sizeBits read512 s sector out).2.2.entries = s.entries ∧
      (stCowReadSector sizeBits read512 s sector out).2.2.arena = s.arena := by
  refine ⟨(read_frame geo sizeBits read512 sound sector out).entries, ?_⟩
  cases out with
  | none => rfl
  | some old =>
      simp only [stCowReadSector]
      split
      · rfl
      · split
        · rfl
        · split <;> rfl

/-- Preparing a write changes no sector, whether or not it succeeds. -/
theorem Mirrors.prepare (room : Addressable g sizeBits) (honest : Honest read512 medium good)
    {s : Shadow σ} (sound : Sound g s) (mirrors : Mirrors g medium s.entries s.arena content)
    (first count : Nat)
    (after : good (stCowPrepareWrite sizeBits read512 s first count).2.world) :
    Mirrors g medium (stCowPrepareWrite sizeBits read512 s first count).2.entries
      (stCowPrepareWrite sizeBits read512 s first count).2.arena content := by
  have geo := room.geometry
  rcases prepare_cases geo sizeBits read512 sound first count with
    ⟨_, found⟩ | ⟨_, _, s₁, frame, _, arena, _, found⟩ | ⟨pages, s₁, s₂, collected, copied, found⟩ |
    ⟨pages, s₁, s₂, entries, collected, copied, published, found⟩
  · rw [found]
    exact mirrors
  · rw [found]
    simpa only [frame.entries, arena] using mirrors
  · have slots := collected.room
    rw [found] at after ⊢
    have blocks := copyPages_blocks room honest pages 0 s₁
      (collected.frame.shape.trans sound.shape) (by rw [collected.frame.used]; omega)
      (collected.onMedium geo) (by rw [copied]; exact after)
    have frame := (copyPages_frame geo sizeBits read512 pages 0 s₁
      (collected.frame.shape.trans sound.shape) (by rw [collected.frame.used]; omega)
      (collected.onMedium geo)).1
    rw [copied] at blocks frame
    have entries : s₂.entries = s.entries := (collected.frame.trans frame).entries
    rw [collected.frame.used, collected.sameArena] at blocks
    show Mirrors g medium s₂.entries s₂.arena content
    rw [entries]
    refine ⟨?_, mirrors.absent⟩
    intro page slot maps k hk inside
    rw [blocks.2.1 slot k hk (sound.table.maps_lt maps)]
    exact mirrors.resident page slot maps k hk inside
  · have slots := collected.room
    obtain ⟨_, _, _, maps_iff⟩ :=
      collected.published geo sizeBits read512 sound copied published
    rw [found] at after ⊢
    have blocks := copyPages_blocks room honest pages 0 s₁
      (collected.frame.shape.trans sound.shape) (by rw [collected.frame.used]; omega)
      (collected.onMedium geo) (by rw [copied]; exact after)
    rw [copied, collected.frame.used, collected.sameArena] at blocks
    obtain ⟨_, untouched, filled⟩ := blocks
    show Mirrors g medium entries s₂.arena content
    constructor
    · intro page slot maps k hk inside
      rcases (maps_iff page slot).mp maps with old | ⟨n, hn, rfl, rfl⟩
      · rw [untouched slot k hk (sound.table.maps_lt old)]
        exact mirrors.resident page slot old k hk inside
      · have fresh := collected.fresh pages[n] (List.getElem_mem hn)
        rw [mirrors.absent _ fresh k hk inside]
        exact filled rfl n hn k hk inside
    · intro page notResident k hk inside
      refine mirrors.absent page ?_ k hk inside
      intro resident
      obtain ⟨slot, maps⟩ := resident_iff_maps.mp resident
      exact notResident (resident_iff_maps.mpr ⟨slot, (maps_iff page slot).mpr (Or.inl maps)⟩)

/-- A write that answers `ST_COW_OK` changes exactly its sector, and one that does not
changes nothing. -/
theorem Mirrors.write (room : Addressable g sizeBits) {s : Shadow σ} (sound : Sound g s)
    (mirrors : Mirrors g medium s.entries s.arena content) (sector : Nat)
    (bytes : Option Sector) :
    ((stCowWritePreparedSector sizeBits s sector bytes).1 ≠ .ok ∧
      (stCowWritePreparedSector sizeBits s sector bytes).2 = s) ∨
    (∃ data, bytes = some data ∧ sector < g.sectors ∧
      (stCowWritePreparedSector sizeBits s sector bytes).1 = .ok ∧
      Mirrors g medium (stCowWritePreparedSector sizeBits s sector bytes).2.entries
        (stCowWritePreparedSector sizeBits s sector bytes).2.arena
        (Function.update content sector data)) := by
  have geo := room.geometry
  rcases write_cases sizeBits s sector bytes with
    ⟨status, refused, found⟩ | ⟨data, i, rfl, inside, found, result⟩
  · left
    rw [found]
    exact ⟨refused, rfl⟩
  right
  rw [sectors_of_shape sound.shape] at inside
  rw [lookup_of_shape sound.shape, spp_of_shape sound.shape, page_of_sector room inside] at found
  rw [arenaOffset_of_shape sound.shape, spp_of_shape sound.shape, inPage_of_sector room] at result
  obtain ⟨hi, occ, _⟩ := lookup_some geo found
  have maps := maps_of_lookup geo found
  have inPage := Nat.mod_lt sector geo.spp_pos
  have here := sector_eq g sector
  have slotLt := (sound.table.maps_lt maps).trans_le sound.used_le
  rw [arenaOffset_eq room slotLt inPage] at result
  refine ⟨data, rfl, inside, by rw [result], ?_⟩
  -- the new entries map pages to slots as the old ones do
  set s' := (stCowWritePreparedSector sizeBits s sector (some data)).2 with s'_eq
  have sameMaps : ∀ page slot, Maps g s'.entries page slot ↔ Maps g s.entries page slot := by
    intro page slot
    rw [s'_eq, result]
    cases dirty : (s.entries i).dirty with
    | true => exact Iff.rfl
    | false => exact sound.table.maps_markDirty hi occ page slot
  have arena : s'.arena = copyBlock s.arena (gridOffset 512 g.sectorsPerPage (s.entries i).slot
      (sector % g.sectorsPerPage)) data := by
    rw [s'_eq, result]
    cases dirty : (s.entries i).dirty <;> rfl
  rw [arena]
  constructor
  · intro page slot pageMaps k hk pageInside
    rw [sameMaps] at pageMaps
    by_cases same : page * g.sectorsPerPage + k = sector
    · obtain ⟨rfl, rfl⟩ : page = sector / g.sectorsPerPage ∧ k = sector % g.sectorsPerPage :=
        grid_index_injective hk inPage (same.trans here.symm)
      obtain rfl := sound.table.maps_slot pageMaps maps
      rw [same, Function.update_self]
      exact slotSector_copyBlock_same s.arena _ _ data
    · rw [Function.update_of_ne same]
      have different : slot ≠ (s.entries i).slot ∨ k ≠ sector % g.sectorsPerPage := by
        by_contra both
        push Not at both
        obtain ⟨rfl, rfl⟩ := both
        obtain rfl := sound.table.maps_page pageMaps maps
        exact same here
      rw [slotSector_copyBlock_other s.arena data inPage hk different]
      exact mirrors.resident page slot pageMaps k hk pageInside
  · intro page notResident k hk pageInside
    have notBefore : ¬ Resident g s.entries page := by
      intro resident
      obtain ⟨slot, pageMaps⟩ := resident_iff_maps.mp resident
      exact notResident (resident_iff_maps.mpr ⟨slot, (sameMaps page slot).mpr pageMaps⟩)
    have other : page * g.sectorsPerPage + k ≠ sector := by
      intro same
      obtain ⟨rfl, _⟩ := grid_index_injective hk inPage (same.trans here.symm)
      exact notBefore (resident_iff_maps.mpr ⟨_, maps⟩)
    rw [Function.update_of_ne other]
    exact mirrors.absent page notBefore k hk pageInside

end Store

end Stage90.Cow

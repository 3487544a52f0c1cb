import Stage90.Media.CowOverlay

/-!
# Preparing a write, all or nothing

What a failed `st_cow_prepare_write` leaves behind, what the same call does afterwards, and what a
reader sees.
-/

set_option autoImplicit false

namespace Stage90.Cow

open Stage90.Lib

section Reader
variable {σ τ : Type}

def Shadow.rebase (s : Shadow σ) (world : τ) : Shadow τ :=
  { c := s.c, entries := s.entries, arena := s.arena, world := world, trace := s.trace }

/-- What a read answers while the base can be read. -/
def view (sizeBits : Nat) (medium : Nat → Sector) (s : Shadow σ) (sector : Nat) (out : Sector) :
    Status × Option Sector :=
  let read := stCowReadSector sizeBits (fixedBase medium) (s.rebase ()) sector (some out)
  (read.1, read.2.1)

/-- The same call over a base that can be read. -/
def prepareAgain (sizeBits : Nat) (medium : Nat → Sector) (s : Shadow σ) (first count : Nat) :
    Status × Shadow Unit :=
  stCowPrepareWrite sizeBits (fixedBase medium) (s.rebase ()) first count

def Access.read : Access → Option Nat
  | .baseRead lba => some lba
  | _ => none

def Shadow.baseReads (s : Shadow σ) : List Nat := s.trace.filterMap Access.read

theorem Sound.rebase {g : StCow} {s : Shadow σ} (sound : Sound g s) (world : τ) :
    Sound g (s.rebase world) :=
  ⟨sound.shape, sound.table, sound.used_le, sound.dirty_eq, sound.inside⟩

end Reader

/-! ## What a reader sees -/

section Content
variable {σ : Type} {g : StCow} {sizeBits : Nat} {medium content : Nat → Sector}

def contentOf (g : StCow) (medium : Nat → Sector) (entries : Nat → StCowEntry)
    (arena : Nat → UInt8) (sector : Nat) : Sector :=
  match stCowLookup g entries (sector / g.sectorsPerPage) false with
  | some i => slotSector g arena (entries i).slot (sector % g.sectorsPerPage)
  | none => medium sector

theorem mirrors_contentOf (geo : Geometry g) {s : Shadow σ} (sound : Sound g s) :
    Mirrors g medium s.entries s.arena (contentOf g medium s.entries s.arena) := by
  have page (page k : Nat) (hk : k < g.sectorsPerPage) :
      (page * g.sectorsPerPage + k) / g.sectorsPerPage = page := by
    rw [Nat.mul_comm, Nat.mul_add_div geo.spp_pos, Nat.div_eq_of_lt hk, Nat.add_zero]
  have index (page k : Nat) (hk : k < g.sectorsPerPage) :
      (page * g.sectorsPerPage + k) % g.sectorsPerPage = k := by
    rw [Nat.mul_comm, Nat.mul_add_mod, Nat.mod_eq_of_lt hk]
  constructor
  · intro p slot maps k hk _
    obtain ⟨i, _, found, _⟩ :=
      lookup_resident geo sound.table (resident_iff_maps.mpr ⟨slot, maps⟩) false
    rw [contentOf, page p k hk, index p k hk, found]
    rw [← sound.table.maps_slot (maps_of_lookup geo found) maps]
  · intro p notResident k hk _
    rw [contentOf, page p k hk, (lookup_eq_none geo sound.table).mpr notResident]

theorem view_eq (room : Addressable g sizeBits) {s : Shadow σ} (sound : Sound g s)
    (mirrors : Mirrors g medium s.entries s.arena content) (sector : Nat) (out : Sector) :
    view sizeBits medium s sector out =
      if sector < g.sectors then (.ok, some (content sector)) else (.range, some out) := by
  rw [view]
  by_cases inside : sector < g.sectors
  · rw [if_pos inside]
    rcases read_content room (fixedBase_honest medium) (sound.rebase ()) mirrors inside out trivial
      with read | ⟨_, failed⟩
    · rw [read]
    · exact absurd rfl failed
  · have refused : sector ≥ (s.rebase ()).c.sectors := by
      rw [sectors_of_shape (sound.rebase ()).shape]
      exact Nat.not_lt.mp inside
    rw [if_neg inside, stCowReadSector]
    dsimp only
    rw [if_pos refused]

/-- A prepare changes nothing that a reader can see. -/
theorem prepare_view (room : Addressable g sizeBits) {read512 : Read512 σ}
    (honest : Honest read512 medium fun _ => True) {s : Shadow σ} (sound : Sound g s)
    (first count sector : Nat) (out : Sector) :
    view sizeBits medium (stCowPrepareWrite sizeBits read512 s first count).2 sector out =
      view sizeBits medium s sector out := by
  have geo := room.geometry
  have before := @mirrors_contentOf σ g medium geo s sound
  have after := before.prepare room honest sound first count trivial
  rw [view_eq room (sound.prepare geo sizeBits read512 first count) after,
    view_eq room sound before]

end Content

/-! ## A refused call -/

section Refused
variable {σ : Type} (sizeBits : Nat) (read512 : Read512 σ)

theorem pendPage_reads (s : Shadow σ) (page : Nat) (pending : List Nat) :
    (pendPage s page pending).2.2.baseReads = s.baseReads := by
  rw [pendPage]
  split
  · rfl
  · split
    · rfl
    · rw [Shadow.baseReads, Shadow.note, List.filterMap_append]
      exact List.append_nil _

theorem collectPages_reads (left page : Nat) (pending : List Nat) (s : Shadow σ) :
    (collectPages left page pending s).2.2.baseReads = s.baseReads := by
  induction left generalizing page pending s with
  | zero => exact pendPage_reads s page pending
  | succ left ih =>
      have first := pendPage_reads s page pending
      rw [collectPages]
      split
      · rename_i pended
        rw [pended] at first
        exact (ih _ _ _).trans first
      · exact first

theorem copySectors_status (page slot left j : Nat) (s : Shadow σ) :
    (copySectors sizeBits read512 page slot left j s).1 = .ok ∨
      (copySectors sizeBits read512 page slot left j s).1 = .io := by
  induction left generalizing j s with
  | zero => exact Or.inl rfl
  | succ left ih =>
      rw [copySectors]
      dsimp only
      split
      · exact Or.inr rfl
      · exact ih _ _

theorem copyPages_status (pending : List Nat) (i : Nat) (s : Shadow σ) :
    (copyPages sizeBits read512 pending i s).1 = .ok ∨
      (copyPages sizeBits read512 pending i s).1 = .io := by
  induction pending generalizing i s with
  | nil => exact Or.inl rfl
  | cons page pending ih =>
      rw [copyPages]
      split
      · exact ih _ _
      · exact copySectors_status sizeBits read512 _ _ _ _ _

theorem publishPages_status (pending : List Nat) (i : Nat) (s : Shadow σ) :
    (publishPages pending i s).1 = .ok ∨ (publishPages pending i s).1 = .state := by
  induction pending generalizing i s with
  | nil => exact Or.inl rfl
  | cons page pending ih =>
      rw [publishPages]
      split
      · exact Or.inr rfl
      · exact ih _ _

def Unread (s : Shadow σ) (out : Status × Shadow σ) : Prop :=
  out.1 = .noSpace ∨ out.1 = .range → out.2.baseReads = s.baseReads

theorem unread_of_status {s : Shadow σ} {out : Status × Shadow σ}
    (status : out.1 = .ok ∨ out.1 = .io ∨ out.1 = .state) : Unread s out := by
  intro refused
  rcases status with status | status | status
  all_goals
    rw [status] at refused
    exact absurd refused (by decide)

/-- Room is proved before any base read. -/
theorem prepare_unread (s : Shadow σ) (first count : Nat) :
    Unread s (stCowPrepareWrite sizeBits read512 s first count) := by
  rw [stCowPrepareWrite]
  split
  · exact fun _ => rfl
  · dsimp only
    split
    · exact fun _ => rfl
    · have collected := collectPages_reads
        (sub32 (u32 (u64 (first + count - 1) / s.c.sectorsPerPage))
          (u32 (first / s.c.sectorsPerPage))) (u32 (first / s.c.sectorsPerPage)) [] s
      split
      · rename_i pending s₁ _
        have copied := copyPages_status sizeBits read512 pending 0 s₁
        split
        · rename_i s₂ _
          have published := publishPages_status pending 0 s₂
          split
          · exact unread_of_status (Or.inl rfl)
          · exact unread_of_status (published.imp_right Or.inr)
        · exact unread_of_status (copied.imp_right Or.inl)
      · rename_i refused
        rw [refused] at collected
        exact fun _ => collected

variable {sizeBits read512}

theorem prepare_failed {g : StCow} (geo : Geometry g) {s : Shadow σ} (sound : Sound g s)
    (first count : Nat) (failed : (stCowPrepareWrite sizeBits read512 s first count).1 ≠ .ok) :
    (stCowPrepareWrite sizeBits read512 s first count).2.c.used = s.c.used ∧
      (stCowPrepareWrite sizeBits read512 s first count).2.c.dirty = s.c.dirty ∧
      (stCowPrepareWrite sizeBits read512 s first count).2.entries = s.entries := by
  rcases prepare_cases geo sizeBits read512 sound first count with
    ⟨_, found⟩ | ⟨_, _, s₁, frame, _, _, _, found⟩ | ⟨pages, s₁, s₂, collected, copied, found⟩ |
    ⟨_, _, _, _, _, _, _, found⟩
  · rw [found]
    exact ⟨rfl, rfl, rfl⟩
  · rw [found]
    exact ⟨frame.used, frame.dirty, frame.entries⟩
  · have room := collected.room
    have copy := (copyPages_frame geo sizeBits read512 pages 0 s₁
      (collected.frame.shape.trans sound.shape) (by rw [collected.frame.used]; omega)
      (collected.onMedium geo)).1
    rw [copied] at copy
    have frame := collected.frame.trans copy
    rw [found]
    exact ⟨frame.used, frame.dirty, frame.entries⟩
  · rw [found] at failed
    exact absurd rfl failed

end Refused

/-! ## The same call once more -/

section Again
variable {σ : Type} {g : StCow} {sizeBits : Nat} {read512 : Read512 σ} {s s' : Shadow σ}

theorem prepare_outside (geo : Geometry g) (sound : Sound g s) {first count : Nat}
    (outside : ¬ InRange g first count) :
    (stCowPrepareWrite sizeBits read512 s first count).1 = .range := by
  rcases prepare_cases geo sizeBits read512 sound first count with
    ⟨_, found⟩ | ⟨range, _⟩ | ⟨_, _, _, collected, _⟩ | ⟨_, _, _, _, collected, _⟩
  · rw [found]
  · exact absurd range outside
  · exact absurd collected.range outside
  · exact absurd collected.range outside

theorem prepare_span (geo : Geometry g) (sound : Sound g s) {first count : Nat}
    (range : InRange g first count) (span : g.capacity < spanPages g first count) :
    (stCowPrepareWrite sizeBits read512 s first count).1 = .noSpace := by
  have accepted := (inRange_iff geo first count).mpr range
  simp only [stCowPrepareWrite, sectors_of_shape sound.shape, spp_of_shape sound.shape,
    capacity_of_shape sound.shape, if_neg accepted]
  exact congrArg Prod.fst (if_pos span)

theorem prepare_full (geo : Geometry g) (sound : Sound g s) {first count : Nat}
    (range : InRange g first count)
    (full : g.capacity < s.c.used + (absent g s.entries (requestPages g first count)).length) :
    (stCowPrepareWrite sizeBits read512 s first count).1 = .noSpace := by
  rcases prepare_cases geo sizeBits read512 sound first count with
    ⟨outside, _⟩ | ⟨_, _, _, _, _, _, _, found⟩ | ⟨_, _, _, collected, _⟩ |
    ⟨_, _, _, _, collected, _⟩
  · exact absurd range outside
  · rw [found]
  all_goals
    have room := collected.room
    rw [collected.pages_eq] at room
    exact absurd room (Nat.not_le.mpr full)

/-- Over a base that can be read, the answer depends on the entries alone. -/
theorem prepare_status_eq (geo : Geometry g)
    (infallible : ∀ world lba out, (read512 world lba out).1 = 0) (sound : Sound g s)
    (sound' : Sound g s') (entries : s'.entries = s.entries) (used : s'.c.used = s.c.used)
    (first count : Nat) :
    (stCowPrepareWrite sizeBits read512 s' first count).1 =
      (stCowPrepareWrite sizeBits read512 s first count).1 := by
  by_cases range : InRange g first count
  · by_cases span : g.capacity < spanPages g first count
    · rw [prepare_span geo sound range span, prepare_span geo sound' range span]
    · by_cases full :
          g.capacity < s.c.used + (absent g s.entries (requestPages g first count)).length
      · have full' := full
        rw [← entries, ← used] at full'
        rw [prepare_full geo sound range full, prepare_full geo sound' range full']
      · have room := Nat.not_lt.mp full
        have room' := room
        rw [← entries, ← used] at room'
        rw [prepare_ok geo sizeBits read512 infallible sound range (Nat.not_lt.mp span) room,
          prepare_ok geo sizeBits read512 infallible sound' range (Nat.not_lt.mp span) room']
  · rw [prepare_outside geo sound range, prepare_outside geo sound' range]

theorem publishPages_entries (pending : List Nat) (i : Nat) (shape : s.c.shape = g)
    (shape' : s'.c.shape = g) (entries : s'.entries = s.entries) (used : s'.c.used = s.c.used) :
    (publishPages pending i s').2.entries = (publishPages pending i s).2.entries := by
  induction pending generalizing i s s' with
  | nil => exact entries
  | cons page pending ih =>
      rw [publishPages, publishPages, lookup_of_shape shape, lookup_of_shape shape', entries, used]
      cases stCowLookup g s.entries page true with
      | none => exact entries
      | some e => exact @ih _ _ (i + 1) shape shape' rfl used

/-- What a call that succeeds leaves: the missing pages published over a copied shadow. -/
theorem prepare_published (geo : Geometry g) (sound : Sound g s) {first count : Nat}
    (ok : (stCowPrepareWrite sizeBits read512 s first count).1 = .ok) :
    ∃ s₂ : Shadow σ, s₂.c.shape = g ∧ s₂.entries = s.entries ∧ s₂.c.used = s.c.used ∧
      s₂.c.dirty = s.c.dirty ∧
      stCowPrepareWrite sizeBits read512 s first count = (.ok, { s₂ with
        entries :=
          (publishPages (absent g s.entries (requestPages g first count)) 0 s₂).2.entries
        c := { s₂.c with used := s.c.used +
          (absent g s.entries (requestPages g first count)).length } }) := by
  rcases prepare_cases geo sizeBits read512 sound first count with
    ⟨_, found⟩ | ⟨_, _, _, _, _, _, _, found⟩ | ⟨_, _, _, _, _, found⟩ |
    ⟨pages, s₁, s₂, entries, collected, copied, published, found⟩
  · rw [found] at ok
    exact absurd ok Status.noConfusion
  · rw [found] at ok
    exact absurd ok Status.noConfusion
  · rw [found] at ok
    exact absurd ok Status.noConfusion
  · have frame := (collected.published geo sizeBits read512 sound copied published).1
    rw [collected.pages_eq] at published found
    refine ⟨s₂, frame.shape.trans sound.shape, frame.entries, frame.used, frame.dirty, ?_⟩
    rw [found, published]

/-- What is published depends on the entries alone. -/
theorem prepare_ok_entries (geo : Geometry g) (sound : Sound g s) (sound' : Sound g s')
    (entries : s'.entries = s.entries) (used : s'.c.used = s.c.used) (dirty : s'.c.dirty = s.c.dirty)
    {first count : Nat} (ok : (stCowPrepareWrite sizeBits read512 s first count).1 = .ok)
    (ok' : (stCowPrepareWrite sizeBits read512 s' first count).1 = .ok) :
    (stCowPrepareWrite sizeBits read512 s' first count).2.c.used =
        (stCowPrepareWrite sizeBits read512 s first count).2.c.used ∧
      (stCowPrepareWrite sizeBits read512 s' first count).2.c.dirty =
        (stCowPrepareWrite sizeBits read512 s first count).2.c.dirty ∧
      (stCowPrepareWrite sizeBits read512 s' first count).2.entries =
        (stCowPrepareWrite sizeBits read512 s first count).2.entries := by
  obtain ⟨t, shape, tEntries, tUsed, tDirty, found⟩ := prepare_published geo sound ok
  obtain ⟨t', shape', tEntries', tUsed', tDirty', found'⟩ := prepare_published geo sound' ok'
  rw [entries, used] at found'
  rw [found, found']
  refine ⟨rfl, tDirty'.trans (dirty.trans tDirty.symm), ?_⟩
  apply publishPages_entries _ 0 shape shape'
  · exact tEntries'.trans (entries.trans tEntries.symm)
  · exact tUsed'.trans (used.trans tUsed.symm)

end Again

/-! ## Runs -/

structure AllOrNothing {σ : Type} (sizeBits : Nat) (medium : Nat → Sector) (c : StCow)
    (s : Shadow σ) (first count : Nat) (out : Status × Shadow σ) : Prop where
  /-- A refused call publishes nothing. -/
  refused : out.1 ≠ .ok →
    out.2.c.used = s.c.used ∧ out.2.c.dirty = s.c.dirty ∧ out.2.entries = s.entries
  unread : out.1 = .noSpace ∨ out.1 = .range → out.2.baseReads = s.baseReads
  /-- Refused or not, every sector reads as before. -/
  reads : ∀ sector bytes,
    view sizeBits medium out.2 sector bytes = view sizeBits medium s sector bytes
  /-- Once the base can be read, the call does what it would have done at first. -/
  again : out.1 ≠ .ok →
    (prepareAgain sizeBits medium out.2 first count).1 =
        (prepareAgain sizeBits medium s first count).1 ∧
      (prepareAgain sizeBits medium out.2 first count).2.c.used =
        (prepareAgain sizeBits medium s first count).2.c.used ∧
      (prepareAgain sizeBits medium out.2 first count).2.c.dirty =
        (prepareAgain sizeBits medium s first count).2.c.dirty ∧
      (prepareAgain sizeBits medium out.2 first count).2.entries =
        (prepareAgain sizeBits medium s first count).2.entries ∧
      ∀ sector bytes,
        view sizeBits medium (prepareAgain sizeBits medium out.2 first count).2 sector bytes =
          view sizeBits medium (prepareAgain sizeBits medium s first count).2 sector bytes
  /-- Only the base stood in the way of a call that ended with `ST_COW_IO`. -/
  recovers : out.1 = .io → (prepareAgain sizeBits medium out.2 first count).1 = .ok
  resident : out.1 = .ok → ∀ page, first / c.sectorsPerPage ≤ page →
    page ≤ (first + count - 1) / c.sectorsPerPage → Resident c out.2.entries page

section Promise
variable {σ : Type} {g : StCow} {sizeBits : Nat} {read512 : Read512 σ} {s : Shadow σ}
  {medium : Nat → Sector}

theorem prepare_again (geo : Geometry g) (sound : Sound g s) (first count : Nat)
    (failed : (stCowPrepareWrite sizeBits read512 s first count).1 ≠ .ok) :
    let out := (stCowPrepareWrite sizeBits read512 s first count).2
    (prepareAgain sizeBits medium out first count).1 =
        (prepareAgain sizeBits medium s first count).1 ∧
      (prepareAgain sizeBits medium out first count).2.c.used =
        (prepareAgain sizeBits medium s first count).2.c.used ∧
      (prepareAgain sizeBits medium out first count).2.c.dirty =
        (prepareAgain sizeBits medium s first count).2.c.dirty ∧
      (prepareAgain sizeBits medium out first count).2.entries =
        (prepareAgain sizeBits medium s first count).2.entries := by
  intro out
  obtain ⟨used, dirty, entries⟩ := prepare_failed geo sound first count failed
  have now := sound.rebase ()
  have later := (sound.prepare geo sizeBits read512 first count).rebase ()
  have status : (prepareAgain sizeBits medium out first count).1 =
      (prepareAgain sizeBits medium s first count).1 :=
    prepare_status_eq geo (fun _ _ _ => rfl) now later entries used first count
  refine ⟨status, ?_⟩
  by_cases ok : (prepareAgain sizeBits medium s first count).1 = .ok
  · exact prepare_ok_entries geo now later entries used dirty ok (status.trans ok)
  · obtain ⟨used₁, dirty₁, entries₁⟩ := prepare_failed geo now first count ok
    obtain ⟨used₂, dirty₂, entries₂⟩ :=
      prepare_failed geo later first count fun ok' => ok (status.symm.trans ok')
    exact ⟨used₂.trans (used.trans used₁.symm), dirty₂.trans (dirty.trans dirty₁.symm),
      entries₂.trans (entries.trans entries₁.symm)⟩

/-- A call that got as far as the base has the room it needs. -/
theorem prepare_recovers (geo : Geometry g) (sound : Sound g s) (first count : Nat)
    (io : (stCowPrepareWrite sizeBits read512 s first count).1 = .io) :
    (prepareAgain sizeBits medium s first count).1 = .ok := by
  have range : InRange g first count := by
    by_contra outside
    rw [prepare_outside geo sound outside] at io
    exact Status.noConfusion io
  have span : spanPages g first count ≤ g.capacity := by
    by_contra span
    rw [prepare_span geo sound range (Nat.not_le.mp span)] at io
    exact Status.noConfusion io
  have slots : s.c.used + (absent g s.entries (requestPages g first count)).length ≤
      g.capacity := by
    by_contra full
    rw [prepare_full geo sound range (Nat.not_le.mp full)] at io
    exact Status.noConfusion io
  exact prepare_ok geo sizeBits (fixedBase medium) (fun _ _ _ => rfl) (sound.rebase ()) range span
    slots

/-- `st_cow_prepare_write` in every state that keeps the invariant. -/
theorem allOrNothing_of_sound (room : Addressable g sizeBits)
    (honest : Honest read512 medium fun _ => True) (sound : Sound g s) (first count : Nat) :
    AllOrNothing sizeBits medium g s first count
      (stCowPrepareWrite sizeBits read512 s first count) := by
  have geo := room.geometry
  constructor
  case refused => exact prepare_failed geo sound first count
  case unread => exact prepare_unread sizeBits read512 s first count
  case reads => exact prepare_view room honest sound first count
  case again =>
    intro failed
    obtain ⟨status, used, dirty, entries⟩ := @prepare_again _ _ _ _ _ medium geo sound first count failed
    refine ⟨status, used, dirty, entries, ?_⟩
    intro sector bytes
    have later := (sound.prepare geo sizeBits read512 first count).rebase ()
    have base := fixedBase_honest medium
    calc view sizeBits medium (prepareAgain sizeBits medium
            (stCowPrepareWrite sizeBits read512 s first count).2 first count).2 sector bytes
        = view sizeBits medium (stCowPrepareWrite sizeBits read512 s first count).2 sector bytes :=
          prepare_view room base later first count sector bytes
      _ = view sizeBits medium s sector bytes :=
          prepare_view room honest sound first count sector bytes
      _ = view sizeBits medium (prepareAgain sizeBits medium s first count).2 sector bytes :=
          (prepare_view room base (sound.rebase ()) first count sector bytes).symm
  case recovers =>
    intro io
    have failed : (stCowPrepareWrite sizeBits read512 s first count).1 ≠ .ok := by
      rw [io]
      exact Status.noConfusion
    rw [(@prepare_again _ _ _ _ _ medium geo sound first count failed).1]
    exact prepare_recovers geo sound first count io
  case resident =>
    intro ok page low high
    have range : InRange g first count := by
      by_contra outside
      rw [prepare_outside geo sound outside] at ok
      exact Status.noConfusion ok
    apply prepare_resident geo sizeBits read512 sound ok
    exact (requestPages_of_fits geo room.fits range page).mpr ⟨low, high⟩

end Promise

/-- In every state that a run reaches over a geometry whose page count does not wrap. -/
theorem prepare_all_or_nothing {σ : Type} (sizeBits : Nat) (read512 : Read512 σ)
    (medium : Nat → Sector) (honest : Honest read512 medium fun _ => True) (sectors : UInt64)
    (sectorsPerPage capacity hashSlots : UInt32) (c : StCow)
    (accepted : stCowInit sectors sectorsPerPage capacity hashSlots = some c)
    (count_ : sectors.toNat + sectorsPerPage.toNat ≤ 2 ^ 64)
    (pageFits : sectorsPerPage.toNat * 512 < 2 ^ 32) (tableFits : 2 * capacity.toNat < 2 ^ 32)
    (arenaFits : capacity.toNat * (sectorsPerPage.toNat * 512) ≤ 2 ^ sizeBits)
    (arena : Nat → UInt8) (world : σ) (calls : List Call) (first count : UInt64) :
    let s := (stCowRun sizeBits read512 c arena world calls).2
    AllOrNothing sizeBits medium c s first.toNat count.toNat
      (stCowPrepareWrite sizeBits read512 s first.toNat count.toNat) := by
  intro s
  have geo := geometry_of_init accepted pageFits tableFits
  have fields : c.sectors = sectors.toNat ∧ c.sectorsPerPage = sectorsPerPage.toNat ∧
      c.capacity = capacity.toNat := by
    obtain ⟨_, _, _, _, _, _, _, rfl⟩ := stCowInit_eq_some accepted
    exact ⟨rfl, rfl, rfl⟩
  obtain ⟨sectorsEq, sppEq, capacityEq⟩ := fields
  have room : Addressable c sizeBits := by
    refine ⟨geo, ?_, ?_⟩
    · rw [sectorsEq, sppEq]
      exact count_
    · rw [geo.pageBytes_eq, capacityEq, sppEq]
      exact arenaFits
  apply allOrNothing_of_sound room honest
  exact Sound.run geo sizeBits read512 arena world calls

/-- A medium of sevens whose third read fails. -/
def thirdFails : Read512 Nat := fun reads _ out =>
  if reads = 2 then (-5, out, reads + 1) else (0, fun _ => 7, reads + 1)

theorem thirdFails_honest : Honest thirdFails (fun _ _ => 7) fun _ => True where
  before := fun _ _ _ _ => trivial
  bytes := by
    intro reads lba out _ success
    rw [thirdFails] at success ⊢
    split at success
    · exact absurd success (by decide : (-5 : Int) ≠ 0)
    · rename_i other
      rw [if_neg other]

/-- The read fails in the middle of the one page of the arena. -/
theorem third_read_fails :
    let s := (stCowRun 32 thirdFails ⟨16, 8, 4096, 1, 2, 0, 0, 0⟩ (fun _ => 0) 0 []).2
    AllOrNothing 32 (fun _ _ => 7) ⟨16, 8, 4096, 1, 2, 0, 0, 0⟩ s 0 1
      (stCowPrepareWrite 32 thirdFails s 0 1) :=
  prepare_all_or_nothing 32 thirdFails _ thirdFails_honest 16 8 1 2 _ (by decide) (by decide)
    (by decide) (by decide) (by decide) (fun _ => 0) 0 [] 0 1

/-- On a medium of `2 ^ 64 - 1` sectors, preparing sector 0 changes the one `2 ^ 32` pages on. -/
theorem prepare_changes_wrapped :
    ∃ c, stCowInit 0xffffffffffffffff 8 1 2 = some c ∧
      let medium : Nat → Sector := fun lba _ => if lba = 0 then 1 else 0
      let s := freshShadow c (fun _ => 0) ()
      (stCowPrepareWrite 32 (fixedBase medium) s 0 1).1 = .ok ∧
        ¬ AllOrNothing 32 medium c s 0 1 (stCowPrepareWrite 32 (fixedBase medium) s 0 1) := by
  refine ⟨_, rfl, by decide, ?_⟩
  intro promised
  have same := promised.reads 0x800000000 fun _ => 0
  have first := congrArg (fun answer => answer.2.map fun sector => sector 0) same
  exact absurd first (by decide)

end Stage90.Cow

import Stage90.Media.CowStore

/-!
# The overlay over whole runs

`st_cow_init` bounds the page count "(the hash key)" at 32 bits, but forms it from
`sectors + spp - 1` in 64 bits.  While that sum does not wrap, every run reads back the
last write or the base.  When it wraps, page numbers are truncated and two sectors
share a page: the overlay is exact precisely on the other geometries.
-/

set_option autoImplicit false

namespace Stage90.Cow

open Stage90.Lib

def lastWritten (sector : Nat) (history : List (Call × Answer)) : Option Sector :=
  history.foldl
    (fun last answered =>
      match answered.1 with
      | .write s (some bytes) =>
          if s.toNat = sector ∧ answered.2.status = .ok then some bytes else last
      | _ => last)
    none

def expected (medium : Nat → Sector) (history : List (Call × Answer)) (sector : Nat) : Sector :=
  (lastWritten sector history).getD (medium sector)

/-- After every run, a read of a sector on the medium succeeds and is exact. -/
def Overlay (sizeBits : Nat) (medium : Nat → Sector) (c : StCow) (arena : Nat → UInt8) : Prop :=
  ∀ (calls : List Call) (sector : UInt64), sector.toNat < c.sectors → ∀ out : Sector,
    let run := stCowRun sizeBits (fixedBase medium) c arena () calls
    (stCowCall sizeBits (fixedBase medium) run.2 (.read sector (some out))).1 =
      ⟨.ok, some (expected medium run.1 sector.toNat)⟩

section History
variable (medium : Nat → Sector) (history : List (Call × Answer))

theorem expected_of_written (sector : UInt64) (bytes : Sector) (answer : Answer)
    (success : answer.status = .ok) :
    expected medium (history ++ [(.write sector (some bytes), answer)]) =
      Function.update (expected medium history) sector.toNat bytes := by
  funext s
  by_cases same : sector.toNat = s
  · subst same
    simp [expected, lastWritten, List.foldl_append, success]
  · have other : s ≠ sector.toNat := fun h => same h.symm
    simp [expected, lastWritten, List.foldl_append, same, other]

theorem expected_of_refused (sector : UInt64) (bytes : Option Sector) (answer : Answer)
    (refused : answer.status ≠ .ok) :
    expected medium (history ++ [(.write sector bytes, answer)]) = expected medium history := by
  funext s
  cases bytes <;> simp [expected, lastWritten, List.foldl_append, refused]

theorem expected_of_other (call : Call) (answer : Answer)
    (other : ∀ sector bytes, call ≠ .write sector bytes) :
    expected medium (history ++ [(call, answer)]) = expected medium history := by
  funext s
  cases call with
  | read => simp [expected, lastWritten, List.foldl_append]
  | prepare => simp [expected, lastWritten, List.foldl_append]
  | write sector bytes => exact absurd rfl (other sector bytes)

end History

/-! ## Geometries whose pages fit -/

section Exact
variable {c : StCow} {sizeBits : Nat} (room : Addressable c sizeBits) (medium : Nat → Sector)
include room

theorem Mirrors.call {s : Shadow Unit} (sound : Sound c s) {history : List (Call × Answer)}
    (mirrors : Mirrors c medium s.entries s.arena (expected medium history)) (call : Call) :
    let next := stCowCall sizeBits (fixedBase medium) s call
    Mirrors c medium next.2.entries next.2.arena
      (expected medium (history ++ [(call, next.1)])) := by
  intro next
  have honest := fixedBase_honest medium
  cases call with
  | read sector out =>
      obtain ⟨entries, arena⟩ := read_frame_store room.geometry sizeBits
        (fixedBase medium) sound sector.toNat out
      rw [expected_of_other _ _ _ _ (by simp)]
      show Mirrors c medium (stCowReadSector sizeBits (fixedBase medium) s sector.toNat out).2.2.entries
        (stCowReadSector sizeBits (fixedBase medium) s sector.toNat out).2.2.arena _
      rwa [entries, arena]
  | prepare first count =>
      rw [expected_of_other _ _ _ _ (by simp)]
      exact mirrors.prepare room honest sound first.toNat count.toNat trivial
  | write sector bytes =>
      rcases mirrors.write room sound sector.toNat bytes with
        ⟨refused, same⟩ | ⟨data, rfl, _, success, after⟩
      · rw [expected_of_refused _ _ _ _ _ refused]
        show Mirrors c medium (stCowWritePreparedSector sizeBits s sector.toNat bytes).2.entries
          (stCowWritePreparedSector sizeBits s sector.toNat bytes).2.arena _
        rwa [same]
      · rw [expected_of_written _ _ _ _ _ success]
        exact after

theorem Mirrors.run (arena : Nat → UInt8) (calls : List Call) :
    let run := stCowRun sizeBits (fixedBase medium) c arena () calls
    Mirrors c medium run.2.entries run.2.arena (expected medium run.1) := by
  refine (execute_induction
    (fun (history : List (Call × Answer)) s =>
      Sound c s ∧ Mirrors c medium s.entries s.arena (expected medium history))
    ⟨Sound.fresh room.geometry arena (), mirrors_fresh c medium arena⟩ ?_ calls).2
  rintro history s call ⟨sound, mirrors⟩
  exact ⟨sound.call room.geometry sizeBits _ call, mirrors.call room medium sound call⟩

theorem overlay_of_addressable (arena : Nat → UInt8) : Overlay sizeBits medium c arena := by
  intro calls sector inside out run
  have sound := Sound.run room.geometry sizeBits (fixedBase medium) arena () calls
  have mirrors := Mirrors.run room medium arena calls
  rcases read_content room (fixedBase_honest medium) sound mirrors inside out trivial with
    answer | ⟨_, failed⟩
  · simp only [stCowCall]
    rw [answer]
  · exact absurd rfl failed

end Exact

/-! ## Geometries whose page count wraps -/

/-- Two sectors with the same truncated page number and the same place in the page are one
sector to the shadow. -/
theorem read_of_aliased {σ : Type} {g : StCow} (geo : Geometry g) (sizeBits : Nat)
    (read512 : Read512 σ) {s : Shadow σ} (sound : Sound g s) (sector sector' : Nat)
    (inside : sector < g.sectors) (inside' : sector' < g.sectors)
    (samePage : u32 (sector' / g.sectorsPerPage) = u32 (sector / g.sectorsPerPage))
    (sameIndex : sector' % g.sectorsPerPage = sector % g.sectorsPerPage)
    (resident : Resident g s.entries (u32 (sector / g.sectorsPerPage))) (data out : Sector) :
    let after := (stCowWritePreparedSector sizeBits s sector (some data)).2
    (stCowReadSector sizeBits read512 after sector' (some out)).1 = .ok ∧
      (stCowReadSector sizeBits read512 after sector' (some out)).2.1 = some data := by
  intro after
  have soundAfter : Sound g after := sound.write geo sizeBits sector (some data)
  have success := write_ok geo sizeBits sound inside resident data
  rcases write_cases sizeBits s sector (some data) with
    ⟨_, refused, found⟩ | ⟨written, i, same, _, found, result⟩
  · rw [found] at success
    exact absurd success refused
  obtain rfl : data = written := Option.some.inj same
  rw [lookup_of_shape sound.shape, spp_of_shape sound.shape] at found
  rw [arenaOffset_of_shape sound.shape, spp_of_shape sound.shape] at result
  obtain ⟨hi, occ, _⟩ := lookup_some geo found
  have maps : Maps g after.entries (u32 (sector / g.sectorsPerPage)) (s.entries i).slot := by
    have before := maps_of_lookup geo found
    simp only [after, result]
    cases dirty : (s.entries i).dirty with
    | true => exact before
    | false => exact (sound.table.maps_markDirty hi occ _ _).mpr before
  have arena : after.arena = copyBlock s.arena
      (arenaOffset sizeBits g (s.entries i).slot (u32 (sector % g.sectorsPerPage))) data := by
    simp only [after, result]
    cases dirty : (s.entries i).dirty <;> rfl
  obtain ⟨i', _, found', _⟩ := lookup_resident geo soundAfter.table
    (resident_iff_maps.mpr ⟨_, maps⟩) false
  have slot := soundAfter.table.maps_slot (maps_of_lookup geo found') maps
  simp only [stCowReadSector, sectors_of_shape soundAfter.shape, spp_of_shape soundAfter.shape,
    lookup_of_shape soundAfter.shape, arenaOffset_of_shape soundAfter.shape,
    if_neg (Nat.not_le.mpr inside'), samePage, sameIndex, found', slot, arena, true_and]
  exact congrArg some (blockAt_copyBlock_same _ _ _)

/-- On a wrapped geometry, a write of sector 0 is read back `2 ^ 32` pages further on. -/
theorem not_overlay_of_wrapped {c : StCow} (geo : Geometry c)
    (wraps : 2 ^ 64 < c.sectors + c.sectorsPerPage) (sizeBits : Nat) (medium : Nat → Sector)
    (arena : Nat → UInt8) : ¬ Overlay sizeBits medium c arena := by
  intro overlay
  have sppLt := geo.spp_lt
  have sppPos := geo.spp_pos
  have capacityPos := geo.capacity_pos
  set far : Nat := c.sectorsPerPage * 2 ^ 32 with far_eq
  have farLt : far < 2 ^ 64 := by omega
  have farToNat : (UInt64.ofNat far).toNat = far := by
    rw [UInt64.toNat_ofNat', Nat.mod_eq_of_lt farLt]
  set data : Sector := fun i => medium far i + 1 with data_eq
  have fresh := Sound.fresh (σ := Unit) geo arena ()
  have range : InRange c 0 1 := ⟨by decide, by omega⟩
  have pages : requestPages c 0 1 = [0] := by
    simp [requestPages, firstPage, lastPage, visited, u32, u64, sub32]
  have prepared := prepare_ok geo sizeBits (fixedBase medium) (fun _ _ _ => rfl) fresh
    range (by simpa [spanPages, firstPage, lastPage, u32, u64, sub64] using
      Nat.one_le_iff_ne_zero.mpr (Nat.ne_of_gt capacityPos))
    (by
      have used : (freshShadow c arena ()).c.used = 0 := by
        show c.used = 0
        rw [← geo.fresh]
        rfl
      rw [used, pages]
      exact (Nat.zero_add _).trans_le ((List.length_filter_le _ _).trans capacityPos))
  have resident := prepare_resident geo sizeBits (fixedBase medium) fresh prepared
  have sound := fresh.prepare geo sizeBits (fixedBase medium) 0 1
  rw [pages] at resident
  set s := (stCowPrepareWrite sizeBits (fixedBase medium) (freshShadow c arena ()) 0 1).2
    with s_eq
  have aliased := read_of_aliased geo sizeBits (fixedBase medium) sound 0 far
    (by omega) (by omega)
    (by simp [far_eq, Nat.mul_div_cancel_left _ sppPos, u32])
    (by simp [far_eq])
    (by simpa [u32] using resident 0 (by simp)) data data
  have answer := congrArg Answer.out
    (overlay [.prepare 0 1, .write 0 (some data)] (UInt64.ofNat far) (by rw [farToNat]; omega) data)
  have medium_far : expected medium
      (stCowRun sizeBits (fixedBase medium) c arena () [.prepare 0 1, .write 0 (some data)]).1 far =
        medium far := by
    have farPos : ¬ (0 = far) := by omega
    simp [stCowRun, execute, expected, lastWritten, farPos]
  rw [farToNat, medium_far] at answer
  have ran : (stCowRun sizeBits (fixedBase medium) c arena ()
      [.prepare 0 1, .write 0 (some data)]).2 =
        (stCowWritePreparedSector sizeBits s 0 (some data)).2 := rfl
  have same : some data = some (medium far) := by
    rw [← aliased.2]
    simpa only [stCowCall, farToNat, ran] using answer
  have differ : data 0 = medium far 0 := congrFun (Option.some.inj same) 0
  have apart : medium far 0 + 1 ≠ medium far 0 := by
    intro h
    have value := congrArg UInt8.toNat h
    have below := (medium far 0).toNat_lt
    rw [UInt8.toNat_add, UInt8.toNat_one] at value
    omega
  exact apart differ

/-- The overlay is exact precisely when the page count did not wrap: for every geometry
`st_cow_init` accepts over an arena `size_t` can address. -/
theorem cow_overlay_iff (sizeBits : Nat) (sectors : UInt64)
    (sectorsPerPage capacity hashSlots : UInt32) (c : StCow)
    (accepted : stCowInit sectors sectorsPerPage capacity hashSlots = some c)
    (pageFits : sectorsPerPage.toNat * 512 < 2 ^ 32) (tableFits : 2 * capacity.toNat < 2 ^ 32)
    (arenaFits : capacity.toNat * (sectorsPerPage.toNat * 512) ≤ 2 ^ sizeBits)
    (medium : Nat → Sector) (arena : Nat → UInt8) :
    Overlay sizeBits medium c arena ↔ sectors.toNat + sectorsPerPage.toNat ≤ 2 ^ 64 := by
  have geo := geometry_of_init accepted pageFits tableFits
  have fields : c.sectors = sectors.toNat ∧ c.sectorsPerPage = sectorsPerPage.toNat ∧
      c.capacity = capacity.toNat := by
    obtain ⟨_, _, _, _, _, _, _, rfl⟩ := stCowInit_eq_some accepted
    exact ⟨rfl, rfl, rfl⟩
  obtain ⟨sectorsEq, sppEq, capacityEq⟩ := fields
  constructor
  · intro overlay
    by_contra wraps
    exact not_overlay_of_wrapped geo (by rw [sectorsEq, sppEq]; omega) sizeBits medium arena overlay
  · intro fits
    refine overlay_of_addressable ⟨geo, by rw [sectorsEq, sppEq]; exact fits, ?_⟩ medium arena
    rw [geo.pageBytes_eq, capacityEq, sppEq]
    exact arenaFits

/-- Two pages of eight sectors, over an arena of one page. -/
theorem cow_overlay_sixteen_sectors :
    Overlay 32 (fun _ _ => 0) ⟨16, 8, 4096, 1, 2, 0, 0, 0⟩ (fun _ => 0) :=
  (cow_overlay_iff 32 16 8 1 2 _ (by decide) (by decide) (by decide) (by decide) _ _).mpr
    (by decide)

/-- `2 ^ 64 - 1` sectors of eight to the page: the sum wraps to 6 and passes the check. -/
theorem cow_overlay_wrapped_counterexample :
    stCowInit 0xffffffffffffffff 8 1 2 = some ⟨0xffffffffffffffff, 8, 4096, 1, 2, 0, 0, 0⟩ ∧
      ¬ Overlay 32 (fun _ _ => 0) ⟨0xffffffffffffffff, 8, 4096, 1, 2, 0, 0, 0⟩ (fun _ => 0) :=
  ⟨by decide, not_overlay_of_wrapped
    (geometry_of_init (show stCowInit 0xffffffffffffffff 8 1 2 = _ by decide) (by decide)
      (by decide)) (by decide) _ _ _⟩

end Stage90.Cow

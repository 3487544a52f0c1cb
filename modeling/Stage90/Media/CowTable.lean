import Stage90.Lib.ProbeTable
import Stage90.Media.Cow

/-!
# The shadow's hash table

What `st_cow_init` accepts (`Geometry`), `st_cow_lookup` as a probe of the library's
ring, and `TableSound`: the entries are a chained table of `n` pages, with the arena
slots below `n` handed out once each.  Publishing one page takes `n` to `n + 1`.
-/

set_option autoImplicit false

namespace Stage90.Cow

open Stage90.Lib

/-- The fields of `c` that no operation changes. -/
def StCow.shape (c : StCow) : StCow := { c with used := 0, dirty := 0, backendError := 0 }

/-- What a geometry accepted by `st_cow_init`, whose page size and table bound do not
overflow, guarantees. -/
structure Geometry (g : StCow) : Prop where
  sectors_pos : 0 < g.sectors
  sectors_lt : g.sectors < 2 ^ 64
  spp_pos : 0 < g.sectorsPerPage
  pageBytes_eq : g.pageBytes = g.sectorsPerPage * 512
  pageBytes_lt : g.sectorsPerPage * 512 < 2 ^ 32
  capacity_pos : 0 < g.capacity
  hashSlots_pow : ∃ m < 32, g.hashSlots = 2 ^ m
  capacity_double : 2 * g.capacity ≤ g.hashSlots
  pages_lt : g.sectors + g.sectorsPerPage ≤ 2 ^ 64 →
    ∀ sector < g.sectors, sector / g.sectorsPerPage < 2 ^ 32
  fresh : g.shape = g

theorem pow_of_and_pred_eq_zero {x : UInt32} (nonzero : x ≠ 0) (mask : x &&& (x - 1) = 0) :
    ∃ m < 32, x.toNat = 2 ^ m := by
  have positive : x.toNat ≠ 0 := fun zero => nonzero (UInt32.toNat_inj.mp (by simpa using zero))
  have one : (1 : UInt32) ≤ x := by
    rw [UInt32.le_iff_toNat_le]
    have : (1 : UInt32).toNat = 1 := rfl
    omega
  have masked : x.toNat &&& (x.toNat - 1) = 0 := by
    have := congrArg UInt32.toNat mask
    rwa [UInt32.toNat_and, UInt32.toNat_sub_of_le _ _ one] at this
  obtain ⟨m, hm⟩ := (Nat.and_sub_one_eq_zero_iff_isPowerOfTwo positive).mp masked
  refine ⟨m, ?_, hm⟩
  have := x.toNat_lt
  rw [hm] at this
  exact (Nat.pow_lt_pow_iff_right (by omega)).mp this

theorem stCowInit_eq_some {sectors : UInt64} {spp capacity hashSlots : UInt32} {c : StCow}
    (accepted : stCowInit sectors spp capacity hashSlots = some c) :
    sectors ≠ 0 ∧ spp ≠ 0 ∧ capacity ≠ 0 ∧
      (sectors + spp.toUInt64 - 1) / spp.toUInt64 ≤ 0xffffffff ∧
      hashSlots ≠ 0 ∧ hashSlots &&& (hashSlots - 1) = 0 ∧ capacity * 2 ≤ hashSlots ∧
      c = ⟨sectors.toNat, spp.toNat, (spp * 512).toNat, capacity.toNat, hashSlots.toNat,
        0, 0, 0⟩ := by
  simp only [stCowInit] at accepted
  split_ifs at accepted with h1 h2 h3 h4 h5
  simp only [not_or, not_not, UInt32.not_lt] at h1 h4
  exact ⟨h1.1, h1.2.1, h1.2.2, UInt64.not_lt.mp h3, h4.1, h4.2.1, h4.2.2,
    (Option.some.inj accepted).symm⟩

theorem geometry_of_init {sectors : UInt64} {spp capacity hashSlots : UInt32} {c : StCow}
    (accepted : stCowInit sectors spp capacity hashSlots = some c)
    (pageFits : spp.toNat * 512 < 2 ^ 32) (tableFits : 2 * capacity.toNat < 2 ^ 32) :
    Geometry c := by
  obtain ⟨hs, hspp, hcap, hpages, hh, hmask, hdouble, rfl⟩ := stCowInit_eq_some accepted
  have sppPos : 0 < spp.toNat :=
    Nat.pos_of_ne_zero fun zero => hspp (UInt32.toNat_inj.mp (by simpa using zero))
  have sppLt := spp.toNat_lt
  constructor
  · exact Nat.pos_of_ne_zero fun zero => hs (UInt64.toNat_inj.mp (by simpa using zero))
  · exact sectors.toNat_lt
  · exact sppPos
  · simp only [UInt32.toNat_mul]
    exact Nat.mod_eq_of_lt pageFits
  · exact pageFits
  · exact Nat.pos_of_ne_zero fun zero => hcap (UInt32.toNat_inj.mp (by simpa using zero))
  · exact pow_of_and_pred_eq_zero hh hmask
  · rw [UInt32.le_iff_toNat_le, UInt32.toNat_mul] at hdouble
    have two : (2 : UInt32).toNat = 2 := rfl
    rw [two] at hdouble
    show 2 * capacity.toNat ≤ hashSlots.toNat
    omega
  · intro fits sector hsector
    simp only at fits hsector ⊢
    have quotient : (sectors.toNat + spp.toNat - 1) / spp.toNat ≤ 0xffffffff := by
      rw [UInt64.le_iff_toNat_le, UInt64.toNat_div, UInt64.toNat_sub, UInt64.toNat_add,
        UInt32.toNat_toUInt64] at hpages
      have one : (1 : UInt64).toNat = 1 := rfl
      have bound : (0xffffffff : UInt64).toNat = 0xffffffff := rfl
      rw [one, bound] at hpages
      have exact : (2 ^ 64 - 1 + (sectors.toNat + spp.toNat) % 2 ^ 64) % 2 ^ 64 =
          sectors.toNat + spp.toNat - 1 := by
        have := sectors.toNat_lt
        omega
      rwa [exact] at hpages
    have below : sector / spp.toNat ≤ (sectors.toNat + spp.toNat - 1) / spp.toNat :=
      Nat.div_le_div_right (by omega)
    omega
  · rfl

/-! ## Lookup is a probe -/

def layout (g : StCow) : Probe.Layout StCowEntry Nat where
  size := g.hashSlots
  occupied := StCowEntry.occupied
  key := StCowEntry.page
  home := fun page => u32 (page * 2654435761)

def Resident (g : StCow) (entries : Nat → StCowEntry) (page : Nat) : Prop :=
  Probe.Holds (layout g) entries page

def Maps (g : StCow) (entries : Nat → StCowEntry) (page slot : Nat) : Prop :=
  ∃ i < g.hashSlots, (entries i).occupied ∧ (entries i).page = page ∧ (entries i).slot = slot

theorem resident_iff_maps {g : StCow} {entries : Nat → StCowEntry} {page : Nat} :
    Resident g entries page ↔ ∃ slot, Maps g entries page slot := by
  constructor
  · rintro ⟨i, hi, occ, key⟩
    exact ⟨_, i, hi, occ, key, rfl⟩
  · rintro ⟨_, i, hi, occ, key, _⟩
    exact ⟨i, hi, occ, key⟩

def ofOutcome (wantEmpty : Bool) : Probe.Outcome → Option Nat
  | .hit i => some i
  | .vacant i => if wantEmpty then some i else none
  | .full => none

theorem stCowProbe_eq {g : StCow} {m : Nat} (hm : m < 32) (pow : g.hashSlots = 2 ^ m)
    (entries : Nat → StCowEntry) (page : Nat) (wantEmpty : Bool) (fuel slot : Nat) :
    stCowProbe g.hashSlots entries page wantEmpty fuel slot =
      ofOutcome wantEmpty (Probe.probeFrom (layout g) entries page fuel slot) := by
  induction fuel generalizing slot with
  | zero => rfl
  | succ fuel ih =>
      have next : u32 (slot + 1) &&& (g.hashSlots - 1) = (slot + 1) % g.hashSlots := by
        rw [pow, Nat.and_two_pow_sub_one_eq_mod, u32,
          Nat.mod_mod_of_dvd _ (pow_dvd_pow 2 (show m ≤ 32 by omega))]
      simp only [stCowProbe, Probe.probeFrom]
      cases occ : (entries slot).occupied with
      | false => cases wantEmpty <;> simp [layout, occ, ofOutcome]
      | true =>
          by_cases key : (entries slot).page = page
          · simp [layout, occ, key, ofOutcome]
          · simp only [Bool.true_eq_false, if_false, key, next, ih]
            simp [layout, occ, key]

theorem stCowLookup_eq {g : StCow} (geo : Geometry g) (entries : Nat → StCowEntry)
    (page : Nat) (wantEmpty : Bool) :
    stCowLookup g entries page wantEmpty =
      ofOutcome wantEmpty (Probe.probe (layout g) entries page) := by
  obtain ⟨m, hm, pow⟩ := geo.hashSlots_pow
  have home : u32 (page * 2654435761) &&& (g.hashSlots - 1) =
      (layout g).home page % (layout g).size := by
    simp [layout, pow, Nat.and_two_pow_sub_one_eq_mod]
  rw [stCowLookup, home, stCowProbe_eq hm pow]
  rfl

/-! ## The table invariant -/

structure TableSound (g : StCow) (entries : Nat → StCowEntry) (n : Nat) : Prop where
  chained : Probe.Chained (layout g) entries
  flags : ∀ i < g.hashSlots,
    (entries i).flags = 0 ∨ (entries i).flags = 1 ∨ (entries i).flags = 3
  slot_lt : ∀ i < g.hashSlots, (entries i).occupied → (entries i).slot < n
  slots : ∀ i < g.hashSlots, ∀ i' < g.hashSlots, (entries i).occupied → (entries i').occupied →
    (entries i).slot = (entries i').slot → i = i'
  pages : ∀ i < g.hashSlots, (entries i).occupied →
    (entries i).page * g.sectorsPerPage < g.sectors
  load : Probe.count g.hashSlots StCowEntry.occupied entries = n

variable {g : StCow} {entries : Nat → StCowEntry} {n page : Nat}

theorem lookup_resident (geo : Geometry g) (table : TableSound g entries n)
    (resident : Resident g entries page) (wantEmpty : Bool) :
    ∃ i < g.hashSlots, stCowLookup g entries page wantEmpty = some i ∧
      (entries i).occupied ∧ (entries i).page = page := by
  obtain ⟨i, hi, found, occ, key⟩ := Probe.probe_of_holds table.chained resident
  exact ⟨i, hi, by rw [stCowLookup_eq geo, found]; rfl, occ, key⟩

theorem lookup_some (geo : Geometry g) {i : Nat}
    (found : stCowLookup g entries page false = some i) :
    i < g.hashSlots ∧ (entries i).occupied ∧ (entries i).page = page := by
  rw [stCowLookup_eq geo] at found
  cases result : Probe.probe (layout g) entries page with
  | hit j =>
      obtain rfl : j = i := by simpa [result, ofOutcome] using found
      exact Probe.probe_hit _ _ _ result
  | vacant j => simp [result, ofOutcome] at found
  | full => simp [result, ofOutcome] at found

theorem lookup_eq_none (geo : Geometry g) (table : TableSound g entries n) :
    stCowLookup g entries page false = none ↔ ¬ Resident g entries page := by
  constructor
  · intro absent resident
    obtain ⟨i, _, found, _⟩ := lookup_resident geo table resident false
    rw [absent] at found
    cases found
  · intro absent
    cases found : stCowLookup g entries page false with
    | none => rfl
    | some i => exact absurd ⟨i, lookup_some geo found⟩ absent

theorem maps_of_lookup (geo : Geometry g) {i : Nat}
    (found : stCowLookup g entries page false = some i) :
    Maps g entries page (entries i).slot := by
  obtain ⟨hi, occ, key⟩ := lookup_some geo found
  exact ⟨i, hi, occ, key, rfl⟩

theorem TableSound.maps_slot (table : TableSound g entries n) {slot slot' : Nat}
    (maps : Maps g entries page slot) (maps' : Maps g entries page slot') : slot = slot' := by
  obtain ⟨i, hi, occ, key, rfl⟩ := maps
  obtain ⟨i', hi', occ', key', rfl⟩ := maps'
  rw [table.chained.distinct i hi i' hi' occ occ' (key.trans key'.symm)]

theorem TableSound.maps_page (table : TableSound g entries n) {page' slot : Nat}
    (maps : Maps g entries page slot) (maps' : Maps g entries page' slot) : page = page' := by
  obtain ⟨i, hi, occ, rfl, sloti⟩ := maps
  obtain ⟨i', hi', occ', rfl, sloti'⟩ := maps'
  rw [table.slots i hi i' hi' occ occ' (sloti.trans sloti'.symm)]

theorem TableSound.maps_lt (table : TableSound g entries n) {slot : Nat}
    (maps : Maps g entries page slot) : slot < n := by
  obtain ⟨i, hi, occ, _, rfl⟩ := maps
  exact table.slot_lt i hi occ

theorem tableSound_fresh (g : StCow) : TableSound g (fun _ => ⟨0, 0, 0⟩) 0 := by
  have empty : ¬ (StCowEntry.mk 0 0 0).occupied = true := by decide
  constructor
  · constructor
    · intro i _ i' _ occ
      exact absurd occ empty
    · intro i _ occ
      exact absurd occ empty
  · intro i _
    exact Or.inl rfl
  · intro i _ occ
    exact absurd occ empty
  · intro i _ i' _ occ
    exact absurd occ empty
  · intro i _ occ
    exact absurd occ empty
  · exact Probe.count_eq_zero _ _ _ fun i _ => by simpa using empty

/-- An absent page finds a free entry as long as the arena has room: the table is twice
the arena. -/
theorem lookup_free (geo : Geometry g) (table : TableSound g entries n) (room : n < g.capacity)
    (absent : ¬ Resident g entries page) :
    ∃ e, stCowLookup g entries page true = some e ∧
      Probe.probe (layout g) entries page = .vacant e := by
  have short : Probe.count g.hashSlots StCowEntry.occupied entries < g.hashSlots := by
    have := geo.capacity_double
    rw [table.load]
    omega
  obtain ⟨e, found⟩ := Probe.probe_of_not_holds absent (Probe.exists_not_of_count_lt _ _ _ short)
  exact ⟨e, by rw [stCowLookup_eq geo, found]; rfl, found⟩

@[simp] theorem occupied_published (page slot : Nat) :
    (StCowEntry.mk page slot stCowOccupied).occupied = true := by
  simp [StCowEntry.occupied, stCowOccupied]

theorem TableSound.publish (table : TableSound g entries n) {e : Nat}
    (found : Probe.probe (layout g) entries page = .vacant e)
    (inside : page * g.sectorsPerPage < g.sectors) :
    TableSound g (Function.update entries e ⟨page, n, stCowOccupied⟩) (n + 1) := by
  obtain ⟨he, empty⟩ := Probe.probe_vacant _ _ _ found
  have old : ∀ i, i ≠ e → Function.update entries e ⟨page, n, stCowOccupied⟩ i = entries i :=
    fun i other => Function.update_of_ne other _ _
  have new : Function.update entries e ⟨page, n, stCowOccupied⟩ e = ⟨page, n, stCowOccupied⟩ :=
    Function.update_self _ _ _
  constructor
  · exact table.chained.insert found (occupied_published page n) rfl
  · intro i hi
    by_cases ie : i = e
    · rw [ie, new]
      exact Or.inr (Or.inl rfl)
    · rw [old i ie]
      exact table.flags i hi
  · intro i hi occ
    by_cases ie : i = e
    · rw [ie, new]
      exact Nat.lt_succ_self n
    · rw [old i ie] at occ ⊢
      exact Nat.lt_succ_of_lt (table.slot_lt i hi occ)
  · intro i hi i' hi' occ occ' same
    by_cases ie : i = e <;> by_cases ie' : i' = e
    · rw [ie, ie']
    · rw [ie, new, old i' ie'] at same
      rw [old i' ie'] at occ'
      exact absurd same (Nat.ne_of_gt (table.slot_lt i' hi' occ'))
    · rw [ie', new, old i ie] at same
      rw [old i ie] at occ
      exact absurd same (Nat.ne_of_lt (table.slot_lt i hi occ))
    · rw [old i ie] at occ same
      rw [old i' ie'] at occ' same
      exact table.slots i hi i' hi' occ occ' same
  · intro i hi occ
    by_cases ie : i = e
    · rw [ie, new]
      exact inside
    · rw [old i ie] at occ ⊢
      exact table.pages i hi occ
  · rw [Probe.count_update_gain g.hashSlots StCowEntry.occupied entries he empty
      (occupied_published page n), table.load]

theorem maps_publish {e : Nat} (found : Probe.probe (layout g) entries page = .vacant e)
    (slot page' slot' : Nat) :
    Maps g (Function.update entries e ⟨page, slot, stCowOccupied⟩) page' slot' ↔
      Maps g entries page' slot' ∨ (page' = page ∧ slot' = slot) := by
  obtain ⟨he, empty⟩ := Probe.probe_vacant _ _ _ found
  constructor
  · rintro ⟨i, hi, occ, key, slots⟩
    by_cases ie : i = e
    · subst ie
      rw [Function.update_self] at key slots
      exact Or.inr ⟨key.symm, slots.symm⟩
    · rw [Function.update_of_ne ie] at occ key slots
      exact Or.inl ⟨i, hi, occ, key, slots⟩
  · rintro (⟨i, hi, occ, key, slots⟩ | ⟨rfl, rfl⟩)
    · have other : i ≠ e := by
        rintro rfl
        exact absurd (occ.symm.trans empty) (by decide)
      refine ⟨i, hi, ?_⟩
      rw [Function.update_of_ne other]
      exact ⟨occ, key, slots⟩
    · refine ⟨e, he, ?_⟩
      rw [Function.update_self]
      exact ⟨occupied_published _ _, rfl, rfl⟩

theorem resident_publish {e : Nat} (found : Probe.probe (layout g) entries page = .vacant e)
    (slot page' : Nat) :
    Resident g (Function.update entries e ⟨page, slot, stCowOccupied⟩) page' ↔
      page = page' ∨ Resident g entries page' := by
  obtain ⟨he, empty⟩ := Probe.probe_vacant _ _ _ found
  exact Probe.holds_insert he empty (occupied_published page slot) page'

/-! ## Marking an entry dirty -/

section MarkDirty
variable {e : Nat}

def markDirty (entries : Nat → StCowEntry) (e : Nat) : Nat → StCowEntry :=
  Function.update entries e { entries e with flags := (entries e).flags ||| stCowDirty }

@[simp] theorem markDirty_page (i : Nat) : (markDirty entries e i).page = (entries i).page := by
  by_cases ie : i = e <;> simp [markDirty, ie]

@[simp] theorem markDirty_slot (i : Nat) : (markDirty entries e i).slot = (entries i).slot := by
  by_cases ie : i = e <;> simp [markDirty, ie]

theorem TableSound.markDirty_flags (table : TableSound g entries n) (he : e < g.hashSlots)
    (occ : (entries e).occupied) : (markDirty entries e e).flags = 3 := by
  rcases table.flags e he with zero | one | three
  · simp [StCowEntry.occupied, zero] at occ
  · simp [markDirty, one, stCowDirty]
  · simp [markDirty, three, stCowDirty]

theorem TableSound.markDirty_occupied (table : TableSound g entries n) (he : e < g.hashSlots)
    (occ : (entries e).occupied) (i : Nat) :
    (markDirty entries e i).occupied = (entries i).occupied := by
  by_cases ie : i = e
  · rw [ie, occ, StCowEntry.occupied, table.markDirty_flags he occ]
    simp [stCowOccupied]
  · simp [markDirty, ie]

theorem TableSound.markDirty (table : TableSound g entries n) (he : e < g.hashSlots)
    (occ : (entries e).occupied) : TableSound g (markDirty entries e) n := by
  have sameOcc := table.markDirty_occupied he occ
  constructor
  · refine table.chained.rewrite occ ?_ ?_
    · have marked := sameOcc e
      rw [Cow.markDirty, Function.update_self] at marked
      exact marked.trans occ
    · rfl
  · intro i hi
    by_cases ie : i = e
    · rw [ie]
      exact Or.inr (Or.inr (table.markDirty_flags he occ))
    · simpa [Cow.markDirty, ie] using table.flags i hi
  · simpa only [sameOcc, markDirty_slot] using table.slot_lt
  · simpa only [sameOcc, markDirty_slot] using table.slots
  · simpa only [sameOcc, markDirty_page] using table.pages
  · have same := sameOcc e
    rw [Cow.markDirty, Function.update_self] at same
    rw [Cow.markDirty, Probe.count_update_same _ _ _ same, table.load]

theorem TableSound.maps_markDirty (table : TableSound g entries n) (he : e < g.hashSlots)
    (occ : (entries e).occupied) (page slot : Nat) :
    Maps g (Cow.markDirty entries e) page slot ↔ Maps g entries page slot := by
  simp only [Maps, table.markDirty_occupied he occ, markDirty_page, markDirty_slot]

theorem TableSound.count_markDirty (table : TableSound g entries n) (he : e < g.hashSlots)
    (occ : (entries e).occupied) (clean : (entries e).dirty = false) :
    Probe.count g.hashSlots StCowEntry.dirty (Cow.markDirty entries e) =
      Probe.count g.hashSlots StCowEntry.dirty entries + 1 := by
  have flags := table.markDirty_flags he occ
  rw [Cow.markDirty, Function.update_self] at flags
  have marked : StCowEntry.dirty
      { entries e with flags := (entries e).flags ||| stCowDirty } = true := by
    rw [StCowEntry.dirty, flags]
    decide
  exact Probe.count_update_gain _ _ _ he clean marked

theorem TableSound.dirty_le (table : TableSound g entries n) :
    Probe.count g.hashSlots StCowEntry.dirty entries ≤ n := by
  calc Probe.count g.hashSlots StCowEntry.dirty entries
      ≤ Probe.count g.hashSlots StCowEntry.occupied entries := by
        apply Probe.count_mono
        intro i hi dirty
        rcases table.flags i hi with zero | one | three
        · simp [StCowEntry.dirty, zero] at dirty
        · simp [StCowEntry.occupied, one, stCowOccupied]
        · simp [StCowEntry.occupied, three, stCowOccupied]
    _ = n := table.load

end MarkDirty

end Stage90.Cow

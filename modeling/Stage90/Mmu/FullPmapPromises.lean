import Stage90.Lib.ShortDescriptor
import Stage90.MachO.LoaderRun
import Stage90.Mmu.FullPmapPhases

/-!
# What the live page map promises

Where walks through the built tables end, for every image that the windows have room for, and what
becomes of an image that is too large for the pool.
-/

set_option autoImplicit false

namespace Stage90.FullPmap

open Stage90.Lib
open Stage90.MachO (statusOk statusFail)

variable {b : Build} {m : Machine} {t : Tables} {mem : Nat → UInt32} {va : UInt32}

/-! ## Walks -/

structure Holds (b : Build) (t : Tables) (mem : Nat → UInt32) : Prop where
  l1 : ∀ i : UInt32, i.toNat < 4096 → mem (b.candidateL1.toNat + 4 * i.toNat) = t.l1 i
  pool : ∀ j : UInt32, j.toNat < 32768 → mem (b.l2Pool.toNat + 4 * j.toNat) = t.pool j

/-- The walk with `candidate_l1` in `TTBR0` and `TTBCR` zero. -/
def translation (b : Build) (mem : Nat → UInt32) (va : UInt32) : Translation :=
  walk mem b.candidateL1 ⟨0, rfl⟩ 0 va

def Takes (b : Build) (mem : Nat → UInt32) (va : UInt32) (pa : Nat) : Prop :=
  (translation b mem va).output va = some pa

def sectionType (desc : UInt32) : MemoryType :=
  memoryType (desc.toNat / 2 ^ 12 % 8) (desc.toNat / 8 % 2) (desc.toNat / 4 % 2)

theorem walk_first (aligned : b.candidateL1.toNat % 2 ^ 14 = 0) (holds : Holds b t mem) {i : UInt32}
    (slot : va.toNat / 2 ^ 20 = i.toNat) :
    mem (level1 b.candidateL1 ⟨0, rfl⟩ 0 va).addr = t.l1 i := by
  have below := va.toNat_lt
  have base : b.candidateL1.toNat / 2 ^ 14 * 2 ^ 14 = b.candidateL1.toNat := by omega
  rw [level1_zero, Slot.addr, base, slot]
  exact holds.l1 i (by omega)

theorem takes_section (aligned : b.candidateL1.toNat % 2 ^ 14 = 0) (holds : Holds b t mem) {i : UInt32}
    {p : Nat} {d : UInt32} (slot : va.toNat / 2 ^ 20 = i.toNat) (known : SectionDesc d)
    (word : IsSection (t.l1 i) p d) :
    Takes b mem va (p * 2 ^ 20 + va.toNat % 2 ^ 20) ∧
      (translation b mem va).memoryType = some (sectionType d) := by
  obtain ⟨low, type⟩ := sectionDesc_lt known
  have first := walk_first aligned holds slot
  rw [IsSection] at word
  have ends := walk_block mem b.candidateL1 ⟨0, rfl⟩ 0 va first (by omega) (by omega)
  have place : (t.l1 i).toNat / 2 ^ 20 = p := by omega
  have tex : (t.l1 i).toNat / 2 ^ 12 % 8 = d.toNat / 2 ^ 12 % 8 := by omega
  have c : (t.l1 i).toNat / 8 % 2 = d.toNat / 8 % 2 := by omega
  have bufferable : (t.l1 i).toNat / 4 % 2 = d.toNat / 4 % 2 := by omega
  rw [Takes, translation, ends]
  constructor
  · rw [Translation.output, place]
  · rw [Translation.memoryType, tex, c, bufferable, sectionType]

theorem takes_page (aligned : b.candidateL1.toNat % 2 ^ 14 = 0) (pool : b.l2Pool.toNat % 2 ^ 10 = 0)
    (holds : Holds b t mem) {i j : UInt32} {k : Nat} (slot : va.toNat / 2 ^ 20 = i.toNat)
    (entry : IsTable b (t.l1 i) k) (small : k < 128)
    (leaf : j.toNat = 256 * k + va.toNat / 2 ^ 12 % 2 ^ 8) (word : IsPage b.mode (t.pool j) j.toNat) :
    Takes b mem va (j.toNat * 2 ^ 12 + va.toNat % 2 ^ 12) := by
  obtain ⟨low, type⟩ := pageDram_lt b.mode
  have first := walk_first aligned holds slot
  rw [IsTable] at entry
  rw [IsPage] at word
  have second : (level2 (t.l1 i) va).addr = b.l2Pool.toNat + 4 * j.toNat := by
    rw [level2, Slot.addr, entry, leaf]
    dsimp only
    omega
  have there : t.pool j = mem (level2 (t.l1 i) va).addr := by
    rw [second]
    exact (holds.pool j (by omega)).symm
  have ends := (walk_smallPage mem b.candidateL1 ⟨0, rfl⟩ 0 va _ (level2 (t.l1 i) va) (t.pool j)).mpr
    ⟨rfl, by rw [first]; omega, by rw [first], there, by omega⟩
  have place : (t.pool j).toNat / 2 ^ 12 = j.toNat := by omega
  rw [Takes, translation, ends, Translation.output, place]

/-! ## The promises -/

/-- The windows beside RAM, as slot, megabyte and type.  The console's pages never take the type of
the DRAM descriptor under a cacheable mode. -/
def statedWindows (mode : AttrMode) : List (Nat × Nat × MemoryType) :=
  [(0xde5, 0xde5, sectionType mode.sectionRamConsole), (0xde6, 0xde6, sectionType mode.sectionRamConsole),
    (0xf90, 0xf90, .stronglyOrdered), (0xfa0, 0xfa0, .stronglyOrdered), (0xfc4, 0xfc4, .stronglyOrdered),
    (0xc41, 0xde5, sectionType mode.sectionRamConsole), (0xc40, 0xf90, .stronglyOrdered)]

structure Promises (b : Build) (mem : Nat → UInt32) : Prop where
  image : ∀ va, va.toNat < megabytes b.imageEnd * 2 ^ 20 → Takes b mem va va.toNat
  virt : ∀ va, 0x80000000 ≤ va.toNat → va.toNat < 0x80000000 + megabytes b.imageEnd * 2 ^ 20 →
    Takes b mem va (va.toNat - 0x80000000)
  high : ∀ va, 0xc0000000 ≤ va.toNat → va.toNat < 0xc0000000 + megabytes b.imageEnd * 2 ^ 20 →
    Takes b mem va (va.toNat - 0xc0000000)
  ram : ∀ va, 0x80200000 ≤ va.toNat → va.toNat < 0x90200000 →
    0x80000000 + megabytes b.imageEnd * 2 ^ 20 ≤ va.toNat → Takes b mem va va.toNat
  windows : ∀ w ∈ statedWindows b.mode, ∀ va, va.toNat / 2 ^ 20 = w.1 →
    Takes b mem va (w.2.1 * 2 ^ 20 + va.toNat % 2 ^ 20) ∧
      (translation b mem va).memoryType = some w.2.2
  l1 : ∀ va, b.candidateL1.toNat ≤ va.toNat → va.toNat < b.candidateL1.toNat + 2 ^ 14 →
    Takes b mem va va.toNat
  pool : ∀ va, b.l2Pool.toNat ≤ va.toNat → va.toNat < b.l2Pool.toNat + 2 ^ 17 → Takes b mem va va.toNat

theorem exists_slot (va : UInt32) : ∃ i : UInt32, va.toNat / 2 ^ 20 = i.toNat := by
  have below := va.toNat_lt
  refine ⟨UInt32.ofNat (va.toNat / 2 ^ 20), (UInt32.toNat_ofNat_of_lt' ?_).symm⟩
  have size : UInt32.size = 2 ^ 32 := rfl
  omega

/-- A stated window has a call of its own, with the stated type but for the console's. -/
theorem stated_fixed {mode : AttrMode} (uncached : mode ≠ .normalWb) {w : Nat × Nat × MemoryType}
    (stated : w ∈ statedWindows mode) :
    ∃ d, (w.1, w.2.1, d) ∈ fixedWindows mode ∧ sectionType d = w.2.2 := by
  have console : mode.sectionRamConsole = mode.sectionDram := by
    cases mode with
    | soOnly => rfl
    | normalNc => rfl
    | normalWb => exact absurd rfl uncached
  have device : sectionType descSectionSo = .stronglyOrdered := by decide
  rw [statedWindows, console] at stated
  simp only [fixedWindows]
  simp only [List.mem_cons, List.not_mem_nil, or_false] at stated
  rcases stated with rfl | rfl | rfl | rfl | rfl | rfl | rfl
  · exact ⟨_, .head _, rfl⟩
  · exact ⟨_, .tail _ (.head _), rfl⟩
  · exact ⟨_, .tail _ (.tail _ (.head _)), device⟩
  · exact ⟨_, .tail _ (.tail _ (.tail _ (.head _))), device⟩
  · exact ⟨_, .tail _ (.tail _ (.tail _ (.tail _ (.head _)))), device⟩
  · exact ⟨_, .tail _ (.tail _ (.tail _ (.tail _ (.tail _ (.head _))))), rfl⟩
  · exact ⟨_, .tail _ (.tail _ (.tail _ (.tail _ (.tail _ (.tail _ (.head _)))))), device⟩

/-- The built tables keep all promises, unless the mode is write-back. -/
theorem built_promises (inside : Inside b) (fits : b.imageEnd.toNat ≤ 2 ^ 26)
    (built : Built b (megabytes b.imageEnd) t) (uncached : b.mode ≠ .normalWb)
    (holds : Holds b t mem) : Promises b mem := by
  have aligned := inside.l1Aligned
  have room₁ := inside.l1
  have room₂ := inside.pool
  have count : megabytes b.imageEnd = (b.imageEnd.toNat + 2 ^ 20 - 1) / 2 ^ 20 := rfl
  have image : ∀ va : UInt32, va.toNat < megabytes b.imageEnd * 2 ^ 20 → Takes b mem va va.toNat := by
    intro va below
    obtain ⟨i, slot⟩ := exists_slot va
    have takes := (takes_section aligned holds slot (sectionDesc_dram b.mode)
      (built.image i (by omega))).1
    have whole : i.toNat * 2 ^ 20 + va.toNat % 2 ^ 20 = va.toNat := by omega
    rwa [whole] at takes
  have written : ∀ (va : UInt32) p d, Written b (megabytes b.imageEnd) (va.toNat / 2 ^ 20) p d →
      Takes b mem va (p * 2 ^ 20 + va.toNat % 2 ^ 20) ∧
        (translation b mem va).memoryType = some (sectionType d) := by
    intro va p d there
    obtain ⟨i, slot⟩ := exists_slot va
    rw [slot] at there
    exact takes_section aligned holds slot (written_desc there) (built.written i p d there)
  refine ⟨image, ?_, ?_, ?_, ?_, fun va _ below => image va (by omega), fun va _ below => image va (by omega)⟩
  · intro va above below
    obtain ⟨i, slot⟩ := exists_slot va
    have leaf : (UInt32.ofNat ((va.toNat - 0x80000000) / 2 ^ 12)).toNat =
        256 * (i.toNat - 0x800) + va.toNat / 2 ^ 12 % 2 ^ 8 := by
      rw [UInt32.toNat_ofNat']
      omega
    have takes := takes_page aligned inside.poolAligned holds slot
      (built.windows i (by omega) (by omega)) (by omega) leaf (built.pages _ (by omega))
    have whole : (256 * (i.toNat - 0x800) + va.toNat / 2 ^ 12 % 2 ^ 8) * 2 ^ 12 + va.toNat % 2 ^ 12 =
        va.toNat - 0x80000000 := by omega
    rwa [leaf, whole] at takes
  · intro va above below
    have takes := (written va (va.toNat / 2 ^ 20 - 0xc00) b.mode.sectionDram
      (.inr (.inr (.inl ⟨va.toNat / 2 ^ 20 - 0xc00, by omega, by omega, rfl, rfl⟩)))).1
    have whole : (va.toNat / 2 ^ 20 - 0xc00) * 2 ^ 20 + va.toNat % 2 ^ 20 = va.toNat - 0xc0000000 := by
      omega
    rwa [whole] at takes
  · intro va above below spared
    have takes := (written va (va.toNat / 2 ^ 20) b.mode.sectionDram
      (.inl ⟨by omega, by omega, by omega, rfl, rfl⟩)).1
    have whole : va.toNat / 2 ^ 20 * 2 ^ 20 + va.toNat % 2 ^ 20 = va.toNat := by omega
    rwa [whole] at takes
  · intro w stated va slot
    obtain ⟨d, fixed, type⟩ := stated_fixed uncached stated
    rw [← slot] at fixed
    have takes := written va w.2.1 d (.inr (.inl fixed))
    rwa [type] at takes

/-! ## Runs -/

def Reaches (b : Build) (m : Machine) : Prop :=
  m.postPe = some statusOk ∧ bootArgsValid m.args = true ∧ b.candidateL1 &&& 0x3fff = 0

/-- What a run owes: tables that keep the promises, and a failure without a write of `TTBR0` where the
pool has too few tables. -/
structure KeepsPromises (b : Build) (m : Machine) : Prop where
  tables : Reaches b m → Inside b → b.imageEnd.toNat ≤ 2 ^ 26 →
    ∀ mem, Holds b (stage90XnuArmVmInitFullPmapRun b m).tables mem → Promises b mem
  exhausts : 128 < megabytes b.imageEnd →
    (stage90XnuArmVmInitFullPmapRun b m).returned = some false ∧
      (stage90XnuArmVmInitFullPmapRun b m).ttbr0Writes = []

theorem check_failure (masks : Masks) (good : Bool) (satisfied : UInt32) {failure : UInt32}
    (failed : masks.failure ≠ 0) : (masks.check good satisfied failure).failure ≠ 0 := by
  rw [Masks.check]
  cases good with
  | true => exact failed
  | false => exact fun none_ => failed (UInt32.or_eq_zero_iff.mp none_).1

theorem finish_fails (t : Tables) (writes : List UInt32) {masks : Masks} (failed : masks.failure ≠ 0) :
    (finish t masks writes).returned = some false := by
  rw [finish]
  dsimp only
  rw [if_neg fun ok => check_failure (masks.pass _) _ _ failed ok.2,
    decide_eq_false (MachO.statusFail_ne _)]

theorem fail_ne_zero (masks : Masks) {bit : UInt32} (some_ : bit ≠ 0) : (masks.fail bit).failure ≠ 0 :=
  fun none_ => some_ (UInt32.or_eq_zero_iff.mp none_).2

theorem finish_early (t : Tables) (masks : Masks) {bit : UInt32} (some_ : bit ≠ 0) :
    (finish t (masks.fail bit) []).returned = some false ∧ (finish t (masks.fail bit) []).ttbr0Writes = [] :=
  ⟨finish_fails t [] (fail_ne_zero masks some_), rfl⟩

theorem run_stopped (stopped : ¬ Reaches b m) :
    (stage90XnuArmVmInitFullPmapRun b m).returned = some false ∧
      (stage90XnuArmVmInitFullPmapRun b m).ttbr0Writes = [] := by
  rw [stage90XnuArmVmInitFullPmapRun]
  by_cases source : m.postPe = some statusOk
  · rw [if_neg (not_not.mpr source)]
    by_cases args : bootArgsValid m.args = true
    · rw [if_neg (not_not.mpr args)]
      by_cases aligned : b.candidateL1 &&& 0x3fff = 0
      · exact absurd ⟨source, args, aligned⟩ stopped
      · rw [if_pos aligned]
        exact finish_early _ _ (by decide)
    · rw [if_pos args]
      exact finish_early _ _ (by decide)
  · rw [if_pos source]
    exact finish_early _ _ (by decide)

/-- Past the first checks the tables are built, for an image that the loops can count. -/
theorem run_reaches (reaches : Reaches b m) :
    ∃ masks, stage90XnuArmVmInitFullPmapRun b m =
      match imageOffsets b.imageEnd with
      | none =>
          { tables := noTables.mapSections (phase1 b.mode everyOffset), masks, ttbr0Writes := []
            status := MachO.statusBase, returned := none }
      | some offsets =>
          if (buildTables b offsets).1 then runWithTables b m (buildTables b offsets).2 masks
          else finish (buildTables b offsets).2 (masks.fail failL2Alloc) [] := by
  obtain ⟨source, args, aligned⟩ := reaches
  rw [stage90XnuArmVmInitFullPmapRun, if_neg (not_not.mpr source), if_neg (not_not.mpr args),
    if_neg (not_not.mpr aligned)]
  exact ⟨_, rfl⟩

theorem runWithTables_tables (b : Build) (m : Machine) (t : Tables) (masks : Masks) :
    (runWithTables b m t masks).tables = t := by
  rw [runWithTables]
  by_cases enabled : m.original.sctlr &&& 1 = 0
  · rw [if_pos enabled, finish]
  · rw [if_neg enabled, finish]

theorem run_tables (reaches : Reaches b m) (small : b.imageEnd.toNat ≤ 0xfff00000)
    (built : buildTables b ((List.range (megabytes b.imageEnd)).map megabyte) = (true, t)) :
    (stage90XnuArmVmInitFullPmapRun b m).tables = t := by
  obtain ⟨masks, run⟩ := run_reaches reaches
  rw [run, imageOffsets_eq small]
  dsimp only
  rw [built, if_pos rfl]
  exact runWithTables_tables b m t masks

theorem buildTables_lost (offsets : List UInt32) (small : b.imageEnd.toNat ≤ 0xfff00000)
    (many : 128 < megabytes b.imageEnd) : (buildTables b offsets).1 = false := by
  have zero : UInt32.ofNat 0 = 0 := rfl
  have lost : (phase2 b (imageWindows b.imageEnd).toNat 0
      (noTables.mapSections (phase1 b.mode offsets))).1 = false := by
    rw [imageWindows_eq small, ← zero]
    exact phase2_exhausts (by omega) (by omega) rfl
  rw [buildTables, if_neg (by rw [lost]; exact Bool.false_ne_true), lost]

theorem run_exhausted (reaches : Reaches b m) (small : b.imageEnd.toNat ≤ 0xfff00000)
    (many : 128 < megabytes b.imageEnd) :
    (stage90XnuArmVmInitFullPmapRun b m).returned = some false ∧
      (stage90XnuArmVmInitFullPmapRun b m).ttbr0Writes = [] := by
  obtain ⟨masks, run⟩ := run_reaches reaches
  have failed : ¬ (buildTables b ((List.range (megabytes b.imageEnd)).map megabyte)).1 = true := by
    rw [buildTables_lost _ small many]
    exact Bool.false_ne_true
  rw [imageOffsets_eq small] at run
  dsimp only at run
  rw [if_neg failed] at run
  rw [run]
  exact finish_early _ _ (by decide)

theorem run_endless (reaches : Reaches b m) (large : 0xfff00000 < b.imageEnd.toNat) :
    (stage90XnuArmVmInitFullPmapRun b m).returned = none := by
  obtain ⟨masks, run⟩ := run_reaches reaches
  rw [run, imageOffsets_none large]

def tableMemory (b : Build) (t : Tables) (a : Nat) : UInt32 :=
  if b.candidateL1.toNat ≤ a ∧ a < b.candidateL1.toNat + 2 ^ 14 then
    t.l1 (UInt32.ofNat ((a - b.candidateL1.toNat) / 4))
  else t.pool (UInt32.ofNat ((a - b.l2Pool.toNat) / 4))

theorem tableMemory_holds (inside : Inside b) (t : Tables) : Holds b t (tableMemory b t) := by
  have apart := inside.apart
  constructor
  · intro i below
    have index : (b.candidateL1.toNat + 4 * i.toNat - b.candidateL1.toNat) / 4 = i.toNat := by omega
    rw [tableMemory, if_pos ⟨by omega, by omega⟩, index, UInt32.ofNat_toNat]
  · intro j below
    have index : (b.l2Pool.toNat + 4 * j.toNat - b.l2Pool.toNat) / 4 = j.toNat := by omega
    rw [tableMemory, if_neg (by omega), index, UInt32.ofNat_toNat]

/-- Under write-back, the console's window is write-back. -/
theorem writeBack_breaks (inside : Inside b) (built : Built b (megabytes b.imageEnd) t)
    (cached : b.mode = .normalWb) (holds : Holds b t mem) : ¬ Promises b mem := by
  intro promises
  have slot : (0xde500000 : UInt32).toNat / 2 ^ 20 = (0xde5 : UInt32).toNat := by decide
  have fixed : (0xde5, 0xde5, descSectionNormalWb) ∈ fixedWindows b.mode := by
    rw [cached]
    exact .head _
  have taken := (takes_section inside.l1Aligned holds slot (.inr (.inr rfl))
    (built.written _ 0xde5 _ (.inr (.inl fixed)))).2
  have stated := (promises.windows (0xde5, 0xde5, sectionType b.mode.sectionRamConsole) (.head _)
    0xde500000 slot).2
  have types : sectionType b.mode.sectionRamConsole = sectionType descSectionNormalWb :=
    Option.some.inj (stated.symm.trans taken)
  rw [cached] at types
  exact absurd types (by decide)

/-- A run keeps all promises exactly in the modes that leave the console uncached, and if the image's
end is not in the last megabyte. -/
theorem keepsPromises_iff (b : Build) (m : Machine) :
    KeepsPromises b m ↔ (Reaches b m →
      (Inside b → b.imageEnd.toNat ≤ 2 ^ 26 → b.mode ≠ .normalWb) ∧ b.imageEnd.toNat ≤ 0xfff00000) := by
  constructor
  · intro keeps reaches
    constructor
    · intro inside fits cached
      obtain ⟨t, ends, built⟩ := buildTables_built inside fits
      have tables := run_tables reaches (by omega) ends
      have holds := tableMemory_holds inside t
      refine writeBack_breaks inside built cached holds (keeps.tables reaches inside fits _ ?_)
      rw [tables]
      exact holds
    · by_contra large
      have count : megabytes b.imageEnd = (b.imageEnd.toNat + 2 ^ 20 - 1) / 2 ^ 20 := rfl
      have returned := (keeps.exhausts (by omega)).1
      rw [run_endless reaches (by omega)] at returned
      exact absurd returned (by decide)
  · intro condition
    constructor
    · intro reaches inside fits mem holds
      obtain ⟨t, ends, built⟩ := buildTables_built inside fits
      rw [run_tables reaches (by omega) ends] at holds
      exact built_promises inside fits built ((condition reaches).1 inside fits) holds
    · intro many
      by_cases reaches : Reaches b m
      · exact run_exhausted reaches (condition reaches).2 many
      · exact run_stopped reaches

/-- A write-back build of a seven-megabyte image. -/
def cachedBuild : Build := ⟨.normalWb, 0x00666000, 0x00600000, 0x00640000⟩

def bootedMachine : Machine where
  postPe := some statusOk
  args := some ⟨2, 2, 0x00008000, 0x9074, 0x5e500000⟩
  original := ⟨0x00100000, 0, 1, 1⟩
  live := ⟨0x00600000, 0, 1, 1⟩
  restored := ⟨0x00100000, 0, 1, 1⟩
  aliasProbe := 0x11223344
  ramConsole := 0x43474244
  ramConsoleAgain := 0x43474244
  ramConsoleIdentity := 0x43474244
  gicd := 1
  gicdAgain := 1
  gicdIdentity := 1
  highVa := 0xaabbccdd
  highVaAgain := 0xaabbccdd
  highVaIdentity := 0xaabbccdd

theorem cachedBuild_breaks : ¬ KeepsPromises cachedBuild bootedMachine := by
  intro keeps
  have reaches : Reaches cachedBuild bootedMachine := ⟨rfl, by decide, by decide⟩
  have inside : Inside cachedBuild := by constructor <;> decide
  have fits : cachedBuild.imageEnd.toNat ≤ 2 ^ 26 := by decide
  obtain ⟨t, ends, built⟩ := buildTables_built inside fits
  have tables := run_tables reaches (by decide) ends
  have holds := tableMemory_holds inside t
  refine writeBack_breaks inside built rfl holds (keeps.tables reaches inside fits _ ?_)
  rw [tables]
  exact holds

end Stage90.FullPmap

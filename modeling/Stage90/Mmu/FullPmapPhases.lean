import Mathlib.Data.List.Nodup
import Mathlib.Data.List.TakeWhile
import Stage90.Mmu.FullPmapSlots

/-!
# The slots after all phases

The calls of phases 3 to 6 as a relation of slots, and what each slot of the built tables holds.
-/

set_option autoImplicit false

namespace Stage90.FullPmap

open Stage90.Lib

/-! ## The calls of the phases -/

def aliasCalls (mode : AttrMode) : List SectionCall :=
  [⟨ramConsoleAliasBase, ramConsoleBase, mode.sectionDram⟩,
    ⟨gicAliasBase, 0xf9000000, descSectionSo⟩, ⟨0x0fa00000, 0x0fa00000, descSectionSo⟩]

def fixedWindows (mode : AttrMode) : List (Nat × Nat × UInt32) :=
  [(0xde5, 0xde5, mode.sectionDram), (0xde6, 0xde6, mode.sectionDram), (0xf90, 0xf90, descSectionSo),
    (0xfa0, 0xfa0, descSectionSo), (0xfc4, 0xfc4, descSectionSo), (0xc41, 0xde5, mode.sectionDram),
    (0xc40, 0xf90, descSectionSo), (0x0fa, 0x0fa, descSectionSo)]

theorem fixed_calls (mode : AttrMode) :
    phase4 mode ++ aliasCalls mode =
      (fixedWindows mode).map fun w => ⟨megabyte w.1, megabyte w.2.1, w.2.2⟩ := by
  have console : megabyte 0xde5 = 0xde500000 := rfl
  have next : megabyte 0xde6 = 0xde600000 := rfl
  have gic : megabyte 0xf90 = 0xf9000000 := rfl
  have fa0 : megabyte 0xfa0 = 0xfa000000 := rfl
  have fc4 : megabyte 0xfc4 = 0xfc400000 := rfl
  have consoleAlias : megabyte 0xc41 = ramConsoleAliasBase := rfl
  have gicAlias : megabyte 0xc40 = gicAliasBase := rfl
  have shared : megabyte 0x0fa = 0x0fa00000 := rfl
  have second : ramConsoleBase + l1SectionSize = 0xde600000 := rfl
  rw [phase4, aliasCalls, second]
  simp only [fixedWindows, List.map_cons, List.map_nil, console, next, gic, fa0, fc4, consoleAlias,
    gicAlias, shared]
  rfl

theorem fixed_nodup (mode : AttrMode) : ((fixedWindows mode).map Prod.fst).Nodup := by
  simp only [fixedWindows, List.map_cons, List.map_nil]
  decide

theorem fixed_slot {mode : AttrMode} {i p : Nat} {d : UInt32} (fixed : (i, p, d) ∈ fixedWindows mode) :
    i < 0x1000 ∧ p < 0x1000 ∧ (i = 0xfa ∨ 0x902 ≤ i ∧ (i < 0xc00 ∨ 0xc40 ≤ i)) := by
  simp only [fixedWindows, List.mem_cons, List.not_mem_nil, or_false, Prod.mk.injEq] at fixed
  omega

/-- What phases 3 to 6 write for an image of `n` megabytes. -/
def Written (b : Build) (n i p : Nat) (d : UInt32) : Prop :=
  (0x802 ≤ i ∧ i < 0x902 ∧ 0x800 + n ≤ i ∧ p = i ∧ d = b.mode.sectionDram) ∨
    (i, p, d) ∈ fixedWindows b.mode ∨ (∃ k < n, i = 0xc00 + k ∧ p = k ∧ d = b.mode.sectionDram) ∨
    ((i = b.candidateL1.toNat / 2 ^ 20 ∨ i = b.l2Pool.toNat / 2 ^ 20) ∧ p = i ∧ d = b.mode.sectionDram)

def lateCalls (b : Build) (n : Nat) : List SectionCall :=
  phase3 b.mode (UInt32.ofNat (max n 1)) ++ phase4 b.mode ++
    phase5 b.mode ((List.range n).map megabyte) ++ phase6 b

variable {b : Build} {n i p : Nat} {d : UInt32}

theorem mem_phase3 (small : n ≤ 64) {c : SectionCall} :
    c ∈ phase3 b.mode (UInt32.ofNat (max n 1)) ↔
      ∃ k < 256, 0x800 + max n 1 ≤ 0x802 + k ∧
        c = ⟨megabyte (0x802 + k), megabyte (0x802 + k), b.mode.sectionDram⟩ := by
  have first : ∀ k, 0x80200000 + UInt32.ofNat k * l1SectionSize = megabyte (0x802 + k) := by
    intro k
    have base : (0x80200000 : UInt32) = megabyte 0x802 := rfl
    rw [base, ofNat_mul_section, megabyte, megabyte, megabyte, ← UInt32.ofNat_add, ← Nat.add_mul]
  have window : virtBase + UInt32.ofNat (max n 1) * l1SectionSize = megabyte (0x800 + max n 1) := by
    have base : virtBase = megabyte 0x800 := rfl
    rw [base, ofNat_mul_section, megabyte, megabyte, megabyte, ← UInt32.ofNat_add, ← Nat.add_mul]
  have above : ∀ k < 256, ¬ megabyte (0x802 + k) < megabyte (0x800 + max n 1) ↔
      0x800 + max n 1 ≤ 0x802 + k := by
    intro k inside
    rw [UInt32.lt_iff_toNat_lt, toNat_megabyte (by omega), toNat_megabyte (by omega)]
    omega
  rw [phase3, window, List.mem_map]
  simp only [List.mem_filter, List.mem_map, List.mem_range, first, decide_eq_true_eq]
  constructor
  · rintro ⟨va, ⟨⟨k, inside, same⟩, spared⟩, call⟩
    rw [← same] at spared call
    exact ⟨k, inside, (above k inside).mp spared, call.symm⟩
  · rintro ⟨k, inside, spared, call⟩
    exact ⟨megabyte (0x802 + k), ⟨⟨k, inside, rfl⟩, (above k inside).mpr spared⟩, call.symm⟩

theorem phase5_eq (mode : AttrMode) (small : n ≤ 64) :
    phase5 mode ((List.range n).map megabyte) =
      ((List.range n).map fun k => ⟨megabyte (0xc00 + k), megabyte k, mode.sectionDram⟩) ++
        aliasCalls mode := by
  have alias_ : ∀ k, highAliasBase + megabyte k = megabyte (0xc00 + k) := by
    intro k
    have base : highAliasBase = megabyte 0xc00 := rfl
    rw [base, megabyte, megabyte, megabyte, ← UInt32.ofNat_add, ← Nat.add_mul]
  have all : ((List.range n).map megabyte).takeWhile (fun off => highAliasBase + off < imageAliasLimit) =
      (List.range n).map megabyte := by
    rw [List.takeWhile_eq_self_iff]
    intro off there
    obtain ⟨k, inside, rfl⟩ := List.mem_map.mp there
    have below := List.mem_range.mp inside
    have limit : imageAliasLimit = megabyte 0xc40 := rfl
    rw [decide_eq_true_iff, alias_, limit, UInt32.lt_iff_toNat_lt, toNat_megabyte (by omega),
      toNat_megabyte (by omega)]
    omega
  rw [phase5, all, List.map_map, aliasCalls]
  simp only [Function.comp_def, alias_]

theorem mem_lateCalls (small : n ≤ 64) {c : SectionCall} :
    c ∈ lateCalls b n ↔
      (∃ k < 256, 0x800 + max n 1 ≤ 0x802 + k ∧
        c = ⟨megabyte (0x802 + k), megabyte (0x802 + k), b.mode.sectionDram⟩) ∨
      c ∈ phase4 b.mode ++ aliasCalls b.mode ∨
      (∃ k < n, c = ⟨megabyte (0xc00 + k), megabyte k, b.mode.sectionDram⟩) ∨
      c = ⟨b.candidateL1, b.candidateL1, b.mode.sectionDram⟩ ∨
      c = ⟨b.l2Pool, b.l2Pool, b.mode.sectionDram⟩ := by
  have regroup : ∀ p q r s t : Prop, ((p ∨ q) ∨ (r ∨ s)) ∨ t ↔ p ∨ (q ∨ s) ∨ r ∨ t := by
    intro p q r s t
    tauto
  have aliases : c ∈ (List.range n).map (fun k => (⟨megabyte (0xc00 + k), megabyte k, b.mode.sectionDram⟩ :
      SectionCall)) ↔ ∃ k < n, c = ⟨megabyte (0xc00 + k), megabyte k, b.mode.sectionDram⟩ := by
    rw [List.mem_map]
    simp only [List.mem_range, eq_comm]
  rw [lateCalls, phase5_eq b.mode small, phase6, List.mem_append, List.mem_append, List.mem_append,
    List.mem_append, List.mem_append, mem_phase3 small, aliases, List.mem_cons, List.mem_singleton]
  exact regroup _ _ _ _ _

theorem written_of_mem (small : n ≤ 64) {c : SectionCall} (there : c ∈ lateCalls b n) :
    Written b n (c.va.toNat / 2 ^ 20) (c.pa.toNat / 2 ^ 20) c.desc := by
  rcases (mem_lateCalls small).mp there with ⟨k, inside, spared, rfl⟩ | fixed | ⟨k, inside, rfl⟩ | rfl | rfl
  · have slot := @toNat_megabyte (0x802 + k) (by omega)
    left
    dsimp only
    rw [slot]
    refine ⟨?_, ?_, ?_, rfl, rfl⟩
    · omega
    · omega
    · omega
  · right
    left
    rw [fixed_calls, List.mem_map] at fixed
    obtain ⟨⟨i, p, d⟩, window, rfl⟩ := fixed
    have inside := fixed_slot window
    dsimp only
    rw [toNat_megabyte inside.1, toNat_megabyte inside.2.1, Nat.mul_div_cancel i (by decide),
      Nat.mul_div_cancel p (by decide)]
    exact window
  · have slot := @toNat_megabyte (0xc00 + k) (by omega)
    have place := @toNat_megabyte k (by omega)
    right
    right
    left
    dsimp only
    refine ⟨k, inside, ?_, ?_, rfl⟩
    · rw [slot]
      omega
    · rw [place]
      omega
  · exact .inr (.inr (.inr ⟨.inl rfl, rfl, rfl⟩))
  · exact .inr (.inr (.inr ⟨.inr rfl, rfl, rfl⟩))

theorem mem_of_written (small : n ≤ 64) (some_ : 1 ≤ n) (written : Written b n i p d) :
    ∃ c ∈ lateCalls b n, Writes c i p d := by
  rcases written with ⟨low, high, spared, same, dram⟩ | fixed | ⟨k, inside, same, place, dram⟩ |
    ⟨self, same, dram⟩
  · have slot := @toNat_megabyte i (by omega)
    have here : 0x802 + (i - 0x802) = i := by omega
    refine ⟨⟨megabyte i, megabyte i, b.mode.sectionDram⟩, (mem_lateCalls small).mpr (.inl ?_), ?_, ?_,
      dram.symm⟩
    · refine ⟨i - 0x802, by omega, by omega, ?_⟩
      rw [here]
    · rw [slot]
      omega
    · rw [slot, same]
      omega
  · have inside := fixed_slot fixed
    refine ⟨⟨megabyte i, megabyte p, d⟩, (mem_lateCalls small).mpr (.inr (.inl ?_)), ?_, ?_, rfl⟩
    · rw [fixed_calls, List.mem_map]
      exact ⟨(i, p, d), fixed, rfl⟩
    · dsimp only
      rw [toNat_megabyte inside.1, Nat.mul_div_cancel i (by decide)]
    · dsimp only
      rw [toNat_megabyte inside.2.1, Nat.mul_div_cancel p (by decide)]
  · have slot := @toNat_megabyte (0xc00 + k) (by omega)
    have start := @toNat_megabyte k (by omega)
    refine ⟨⟨megabyte (0xc00 + k), megabyte k, b.mode.sectionDram⟩,
      (mem_lateCalls small).mpr (.inr (.inr (.inl ⟨k, inside, rfl⟩))), ?_, ?_, dram.symm⟩
    · rw [slot, same]
      omega
    · rw [start, place]
      omega
  · rw [same, dram]
    rcases self with rfl | rfl
    · exact ⟨_, (mem_lateCalls small).mpr (.inr (.inr (.inr (.inl rfl)))), rfl, rfl, rfl⟩
    · exact ⟨_, (mem_lateCalls small).mpr (.inr (.inr (.inr (.inr rfl)))), rfl, rfl, rfl⟩

/-! ## The slots at the end -/

/-- The tables are in the image, where the linker puts them. -/
structure Inside (b : Build) : Prop where
  l1Aligned : b.candidateL1.toNat % 2 ^ 14 = 0
  poolAligned : b.l2Pool.toNat % 2 ^ 10 = 0
  l1 : b.candidateL1.toNat + 2 ^ 14 ≤ b.imageEnd.toNat
  pool : b.l2Pool.toNat + 2 ^ 17 ≤ b.imageEnd.toNat
  apart : b.candidateL1.toNat + 2 ^ 14 ≤ b.l2Pool.toNat ∨ b.l2Pool.toNat + 2 ^ 17 ≤ b.candidateL1.toNat

/-- No two phases disagree about a slot, for the tables are below the image's end. -/
theorem written_unique (small : n ≤ 64) (self₁ : b.candidateL1.toNat / 2 ^ 20 < n)
    (self₂ : b.l2Pool.toNat / 2 ^ 20 < n) {p' : Nat} {d' : UInt32} (one : Written b n i p d)
    (other : Written b n i p' d') : p' = p ∧ d' = d := by
  rcases one with ⟨low, high, spared, same, dram⟩ | fixed | ⟨k, inside, same, place, dram⟩ |
    ⟨self, same, dram⟩
  · rcases other with ⟨-, -, -, same', dram'⟩ | fixed' | ⟨k', inside', same', -⟩ | ⟨self', -⟩
    · exact ⟨same'.trans same.symm, dram'.trans dram.symm⟩
    · have slot := fixed_slot fixed'
      omega
    · omega
    · omega
  · have slot := fixed_slot fixed
    rcases other with ⟨low', high', -⟩ | fixed' | ⟨k', inside', same', -⟩ | ⟨self', -⟩
    · omega
    · have both := List.inj_on_of_nodup_map (fixed_nodup b.mode) fixed' fixed rfl
      rw [Prod.mk.injEq, Prod.mk.injEq] at both
      exact both.2
    · omega
    · omega
  · rcases other with ⟨low', high', -⟩ | fixed' | ⟨k', inside', same', place', dram'⟩ | ⟨self', -⟩
    · omega
    · have slot := fixed_slot fixed'
      omega
    · exact ⟨by omega, dram'.trans dram.symm⟩
    · omega
  · rcases other with ⟨low', -⟩ | fixed' | ⟨k', inside', same', -⟩ | ⟨-, same', dram'⟩
    · omega
    · have slot := fixed_slot fixed'
      omega
    · omega
    · exact ⟨same'.trans same.symm, dram'.trans dram.symm⟩

/-- Where the sections of the tables are, and which slots have the tables of the windows. -/
structure Built (b : Build) (n : Nat) (t : Tables) : Prop where
  image : ∀ i, i.toNat < n → IsSection (t.l1 i) i.toNat b.mode.sectionDram
  windows : ∀ i, 0x800 ≤ i.toNat → i.toNat < 0x800 + n → IsTable b (t.l1 i) (i.toNat - 0x800)
  pages : ∀ j, j.toNat < 256 * n → IsPage b.mode (t.pool j) j.toNat
  written : ∀ i p d, Written b n i.toNat p d → IsSection (t.l1 i) p d

theorem written_desc (written : Written b n i p d) : SectionDesc d := by
  rcases written with ⟨-, -, -, -, rfl⟩ | fixed | ⟨-, -, -, -, rfl⟩ | ⟨-, -, rfl⟩
  · exact sectionDesc_dram b.mode
  · have known := sectionDesc_dram b.mode
    simp only [fixedWindows, List.mem_cons, List.not_mem_nil, or_false, Prod.mk.injEq] at fixed
    rcases fixed with h | h | h | h | h | h | h | h
    all_goals
      rw [h.2.2]
      first
        | exact known
        | exact .inl rfl
  · exact sectionDesc_dram b.mode
  · exact sectionDesc_dram b.mode

theorem mem_phase1 (mode : AttrMode) {c : SectionCall} :
    c ∈ phase1 mode ((List.range n).map megabyte) ↔
      ∃ k < n, c = ⟨megabyte k, megabyte k, mode.sectionDram⟩ := by
  rw [phase1, List.map_map, List.mem_map]
  simp only [List.mem_range, Function.comp_apply, eq_comm]

theorem buildTables_built (inside : Inside b) (fits : b.imageEnd.toNat ≤ 2 ^ 26) :
    ∃ t, buildTables b ((List.range (megabytes b.imageEnd)).map megabyte) = (true, t) ∧
      Built b (megabytes b.imageEnd) t := by
  have in₁ := inside.l1
  have in₂ := inside.pool
  have windows := @imageWindows_eq b.imageEnd (by omega)
  generalize count : megabytes b.imageEnd = n at windows
  rw [megabytes] at count
  have small : n ≤ 64 := by omega
  have some_ : max n 1 = n := by omega
  have self₁ : b.candidateL1.toNat / 2 ^ 20 < n := by omega
  have self₂ : b.l2Pool.toNat / 2 ^ 20 < n := by omega
  have words : imageWindows b.imageEnd = UInt32.ofNat (max n 1) := by
    rw [← windows, UInt32.ofNat_toNat]
  rw [some_] at windows
  have placed : PoolPlaced b := ⟨inside.poolAligned, by omega⟩
  have zero : UInt32.ofNat 0 = 0 := rfl
  obtain ⟨t₂, runs, mapped⟩ := @phase2_mapped b placed n 0
    (noTables.mapSections (phase1 b.mode ((List.range n).map megabyte))) (by omega) rfl
  rw [zero] at runs
  rw [Nat.zero_add] at mapped
  have ends : buildTables b ((List.range n).map megabyte) = (true, t₂.mapSections (lateCalls b n)) := by
    rw [buildTables, windows, runs, if_pos rfl, words, lateCalls]
  refine ⟨_, ends, ?_, ?_, ?_, ?_⟩
  · intro i below
    apply mapSections_slot (sectionDesc_dram b.mode)
    · intro c there same
      have written := written_of_mem small there
      rw [same] at written
      rcases written with ⟨low, -⟩ | fixed | ⟨k, inside, alias_, -⟩ | ⟨-, place, dram⟩
      · omega
      · have slot := fixed_slot fixed
        omega
      · omega
      · exact ⟨same, place, dram⟩
    · left
      rw [mapped.spared i (by omega)]
      apply mapSections_slot (sectionDesc_dram b.mode)
      · intro c there same
        obtain ⟨k, inside, rfl⟩ := (mem_phase1 b.mode).mp there
        exact ⟨same, same, rfl⟩
      · right
        refine ⟨_, (mem_phase1 b.mode).mpr ⟨i.toNat, below, rfl⟩, ?_⟩
        dsimp only
        rw [toNat_megabyte (by omega), Nat.mul_div_cancel _ (by decide)]
  · intro i above below
    have spared : (lateCalls b n).foldl mapL1SectionDesc t₂.l1 i = t₂.l1 i := by
      apply mapSections_spared
      intro c there same
      have written := written_of_mem small there
      rw [same] at written
      rcases written with ⟨low, high, spared, -⟩ | fixed | ⟨k, inside, alias_, -⟩ | ⟨self, -⟩
      · omega
      · have slot := fixed_slot fixed
        omega
      · omega
      · omega
    rw [Tables.mapSections]
    dsimp only
    rw [spared]
    exact mapped.tables i (by omega) below
  · intro j below
    exact mapped.pages j (by omega) below
  · intro i p d written
    apply mapSections_slot (written_desc written)
    · intro c there same
      have other := written_of_mem small there
      rw [same] at other
      obtain ⟨place, desc⟩ := written_unique small self₁ self₂ written other
      exact ⟨same, place, desc⟩
    · right
      obtain ⟨c, there, writes⟩ := mem_of_written small (by omega) written
      exact ⟨c, there, writes.slot⟩

end Stage90.FullPmap

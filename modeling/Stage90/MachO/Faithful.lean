import Stage90.Lib.Overwrite
import Stage90.MachO.LoaderRun
import Stage90.MachO.Materialize
import Stage90.MachO.ProbeExact

/-!
# What is in the arena

A successful materialization is a list of overwrites, one for each entry of the load plan.  Nothing
keeps two of them apart.
-/

set_option autoImplicit false

namespace Stage90.Probe

open Stage90.Lib

/-! ## The statement -/

/-- The byte at an offset of a segment: of the artifact, or zero behind its content. -/
def content (mem : Mem) (artifact : UInt32) (load : LoadPlanEntry) (i : UInt32) : UInt8 :=
  if i < load.filesize then mem (artifact + load.fileoff + i) else 0

def Faithful (artifact arena : UInt32) (mem mem' : Mem) (r : Result) : Prop :=
  ∀ load ∈ r.loadPlan.entries, ∀ i < load.vmsize,
    mem' (arena + (load.vmaddr - r.minVmaddr) + i) = content mem artifact load i

/-- Segments that meet at an address have the same byte there. -/
def OverlapsAgree (artifact : UInt32) (mem : Mem) (r : Result) : Prop :=
  ∀ load ∈ r.loadPlan.entries, ∀ load' ∈ r.loadPlan.entries, ∀ i i',
    i < load.vmsize → i' < load'.vmsize → load.vmaddr + i = load'.vmaddr + i' →
      content mem artifact load i = content mem artifact load' i'

/-! ## One entry -/

variable {mem : Mem} {artifact artifactSize arena : UInt32} {staging : StagingPlan}
  {load : LoadPlanEntry} {r : Result}

/-- The ranges of an entry lie in the artifact and in the arena. -/
structure Stageable (artifactSize : UInt32) (staging : StagingPlan) (load : LoadPlanEntry) : Prop where
  base : staging.vmBase.toNat ≤ load.vmaddr.toNat
  content : load.filesize.toNat ≤ load.vmsize.toNat
  source : load.fileoff.toNat + load.filesize.toNat ≤ artifactSize.toNat
  room : load.vmaddr.toNat - staging.vmBase.toNat + load.vmsize.toNat ≤ staging.arenaSize.toNat

def stagedAt (arena vmBase : UInt32) (load : LoadPlanEntry) : UInt32 := arena + (load.vmaddr - vmBase)

def Stages (arena vmBase : UInt32) (load : LoadPlanEntry) (a : UInt32) : Prop :=
  a - stagedAt arena vmBase load < load.vmsize

instance (arena vmBase : UInt32) (load : LoadPlanEntry) (a : UInt32) :
    Decidable (Stages arena vmBase load a) := inferInstanceAs (Decidable (_ < _))

def stagedByte (mem : Mem) (artifact arena vmBase : UInt32) (load : LoadPlanEntry) (a : UInt32) :
    UInt8 := content mem artifact load (a - stagedAt arena vmBase load)

theorem stage_fail_ne_zero {bits : UInt32} (some_ : bits ≠ 0) :
    (staging.fail bits).failureMask ≠ 0 := by
  intro none_
  exact some_ (UInt32.or_eq_zero_iff.mp none_).2

theorem staged_bounds :
    ¬ (load.vmaddr < staging.vmBase ∨ load.vmsize < load.filesize) ∧
        ¬ (addOverflowU32 load.fileoff load.filesize = true ∨
          artifactSize < load.fileoff + load.filesize) ∧
          ¬ (addOverflowU32 (load.vmaddr - staging.vmBase) load.vmsize = true ∨
            staging.arenaSize < load.vmaddr - staging.vmBase + load.vmsize ∨
              addOverflowU32 (load.vmaddr - staging.vmBase) load.filesize = true ∨
                staging.arenaSize < load.vmaddr - staging.vmBase + load.filesize) ↔
      Stageable artifactSize staging load := by
  rw [checked_le_iff, ← or_assoc, not_or (p := _ ∨ _) (q := _ ∨ _), checked_le_iff, checked_le_iff,
    not_or, UInt32.lt_iff_toNat_lt, UInt32.lt_iff_toNat_lt, Nat.not_lt, Nat.not_lt]
  constructor
  · intro ⟨⟨base, within⟩, source, room, _⟩
    have delta : (load.vmaddr - staging.vmBase).toNat =
        load.vmaddr.toNat - staging.vmBase.toNat :=
      UInt32.toNat_sub_of_le _ _ (UInt32.le_iff_toNat_le.mpr base)
    rw [delta] at room
    exact ⟨base, within, source, room⟩
  · intro fits
    have delta : (load.vmaddr - staging.vmBase).toNat =
        load.vmaddr.toNat - staging.vmBase.toNat :=
      UInt32.toNat_sub_of_le _ _ (UInt32.le_iff_toNat_le.mpr fits.base)
    have room := fits.room
    have within := fits.content
    rw [delta]
    exact ⟨⟨fits.base, within⟩, fits.source, room, by omega⟩

structure Extends (staging staging' : StagingPlan) : Prop where
  failureMask : staging'.failureMask = staging.failureMask
  vmBase : staging'.vmBase = staging.vmBase
  arenaSize : staging'.arenaSize = staging.arenaSize

theorem stageEntry_extends (fits : Stageable artifactSize staging load) :
    Extends staging (stageEntry artifact artifactSize arena mem staging load).1 := by
  obtain ⟨base, source, room⟩ := staged_bounds.mpr fits
  rw [stageEntry, if_neg base]
  dsimp only
  rw [if_neg source, if_neg room]
  exact ⟨rfl, rfl, rfl⟩

/-- No byte of the artifact lies in the arena's first `size` bytes. -/
def Apart (artifact artifactSize arena size : UInt32) : Prop :=
  ∀ a, a - artifact < artifactSize → ¬ a - arena < size

theorem stages_inside {a : UInt32} (fits : Stageable artifactSize staging load)
    (stages : Stages arena staging.vmBase load a) : a - arena < staging.arenaSize := by
  have base := UInt32.le_iff_toNat_le.mpr fits.base
  have delta := UInt32.toNat_sub_of_le _ _ base
  have room := fits.room
  have split_ : a - arena =
      (load.vmaddr - staging.vmBase) + (a - stagedAt arena staging.vmBase load) := by
    rw [stagedAt]
    grind
  have below := staging.arenaSize.toNat_lt
  rw [Stages, UInt32.lt_iff_toNat_lt] at stages
  rw [split_, UInt32.lt_iff_toNat_lt, toNat_add_of_lt (by omega), delta]
  omega

theorem copy_clear (apart : Apart artifact artifactSize arena staging.arenaSize)
    (fits : Stageable artifactSize staging load) :
    load.filesize ≤ stagedAt arena staging.vmBase load - (artifact + load.fileoff) := by
  apply clear_of_apart
  intro a inside copied
  have source := fits.source
  have offset : a - artifact = load.fileoff + (a - (artifact + load.fileoff)) := by grind
  rw [UInt32.lt_iff_toNat_lt] at inside
  have content : a - artifact < artifactSize := by
    have below := artifactSize.toNat_lt
    rw [offset, UInt32.lt_iff_toNat_lt, toNat_add_of_lt (by omega)]
    omega
  have staged : Stages arena staging.vmBase load a :=
    UInt32.lt_of_lt_of_le copied (UInt32.le_iff_toNat_le.mpr fits.content)
  exact apart a content (stages_inside fits staged)

theorem stageEntry_stages (apart : Apart artifact artifactSize arena staging.arenaSize)
    (fits : Stageable artifactSize staging load) :
    (stageEntry artifact artifactSize arena mem staging load).2 =
      overwrite (Stages arena staging.vmBase) (stagedByte mem artifact arena staging.vmBase) mem
        load := by
  obtain ⟨base, source, room⟩ := staged_bounds.mpr fits
  rw [stageEntry, if_neg base]
  dsimp only
  rw [if_neg source, if_neg room]
  dsimp only
  simp only [← UInt32.pos_iff_ne_zero]
  rw [memcpy_guard, memset_guard]
  funext a
  exact memcpy_memset mem (copy_clear apart fits) (UInt32.le_iff_toNat_le.mpr fits.content) a

theorem stageEntry_fails (fails : ¬ Stageable artifactSize staging load) :
    (stageEntry artifact artifactSize arena mem staging load).1.failureMask ≠ 0 := by
  rw [← staged_bounds] at fails
  rw [stageEntry]
  by_cases base : load.vmaddr < staging.vmBase ∨ load.vmsize < load.filesize
  · rw [if_pos base]
    exact stage_fail_ne_zero (by decide)
  · rw [if_neg base]
    dsimp only
    by_cases source : addOverflowU32 load.fileoff load.filesize = true ∨
        artifactSize < load.fileoff + load.filesize
    · rw [if_pos source]
      exact stage_fail_ne_zero (by decide)
    · rw [if_neg source]
      by_cases room : addOverflowU32 (load.vmaddr - staging.vmBase) load.vmsize = true ∨
          staging.arenaSize < load.vmaddr - staging.vmBase + load.vmsize ∨
            addOverflowU32 (load.vmaddr - staging.vmBase) load.filesize = true ∨
              staging.arenaSize < load.vmaddr - staging.vmBase + load.filesize
      · rw [if_pos room]
        exact stage_fail_ne_zero (by decide)
      · exact absurd ⟨base, source, room⟩ fails

/-! ## All entries -/

theorem stageEntry_arenaSize :
    (stageEntry artifact artifactSize arena mem staging load).1.arenaSize = staging.arenaSize := by
  rw [stageEntry]
  split
  · rfl
  dsimp only
  split
  · rfl
  split
  · rfl
  · rfl

theorem stageEntries_clear {loads : List LoadPlanEntry}
    (apart : Apart artifact artifactSize arena staging.arenaSize)
    (none_ : (stageEntries artifact artifactSize arena loads staging mem).1.failureMask = 0) :
    staging.failureMask = 0 ∧ (∀ load ∈ loads, Stageable artifactSize staging load) ∧
      (stageEntries artifact artifactSize arena loads staging mem).2 =
        loads.foldl (fun memory load => overwrite (Stages arena staging.vmBase)
          (stagedByte memory artifact arena staging.vmBase) memory load) mem := by
  induction loads generalizing staging mem with
  | nil => exact ⟨none_, fun load there => absurd there List.not_mem_nil, rfl⟩
  | cons load loads ih =>
      rw [stageEntries] at none_ ⊢
      by_cases full : stagingPlanMax ≤ staging.entries.length
      · rw [if_pos full] at none_
        exact absurd none_ (stage_fail_ne_zero (by decide))
      · rw [if_neg full] at none_ ⊢
        dsimp only at none_ ⊢
        have size := @stageEntry_arenaSize mem artifact artifactSize arena staging load
        obtain ⟨before, rest, folds⟩ := ih (size.symm ▸ apart) none_
        by_cases fits : Stageable artifactSize staging load
        · have extends_ := @stageEntry_extends mem artifact artifactSize arena staging load fits
          have stages := @stageEntry_stages mem artifact artifactSize arena staging load apart fits
          rw [extends_.failureMask] at before
          rw [List.forall_mem_cons]
          refine ⟨before, ⟨fits, ?_⟩, ?_⟩
          · intro other there
            have here := rest other there
            exact ⟨extends_.vmBase ▸ here.base, here.content, here.source,
              extends_.arenaSize ▸ extends_.vmBase ▸ here.room⟩
          · rw [folds, extends_.vmBase, stages, List.foldl_cons]
        · exact absurd before (stageEntry_fails fits)

/-! ## The artifact is not written -/

theorem content_congr {memory : Mem} (fits : Stageable artifactSize staging load)
    (same : ∀ a, a - artifact < artifactSize → memory a = mem a) (i : UInt32) :
    content memory artifact load i = content mem artifact load i := by
  rw [content, content]
  by_cases inside : i < load.filesize
  · rw [if_pos inside, if_pos inside]
    apply same
    have source := fits.source
    have below := artifactSize.toNat_lt
    have offset : artifact + load.fileoff + i - artifact = load.fileoff + i := by grind
    rw [UInt32.lt_iff_toNat_lt] at inside
    rw [offset, UInt32.lt_iff_toNat_lt, toNat_add_of_lt (by omega)]
    omega
  · rw [if_neg inside, if_neg inside]

theorem foldl_overwrite {loads : List LoadPlanEntry} {memory : Mem}
    (apart : Apart artifact artifactSize arena staging.arenaSize)
    (fits : ∀ load ∈ loads, Stageable artifactSize staging load)
    (same : ∀ a, a - artifact < artifactSize → memory a = mem a) :
    loads.foldl (fun memory load => overwrite (Stages arena staging.vmBase)
        (stagedByte memory artifact arena staging.vmBase) memory load) memory =
      overwriteAll (Stages arena staging.vmBase) (stagedByte mem artifact arena staging.vmBase) memory
        loads := by
  induction loads generalizing memory with
  | nil => rfl
  | cons load loads ih =>
      rw [List.forall_mem_cons] at fits
      have step : overwrite (Stages arena staging.vmBase)
          (stagedByte memory artifact arena staging.vmBase) memory load =
          overwrite (Stages arena staging.vmBase) (stagedByte mem artifact arena staging.vmBase)
            memory load := by
        funext a
        rw [overwrite, overwrite, stagedByte, stagedByte, content_congr fits.1 same]
      rw [List.foldl_cons, step, ih fits.2]
      · rfl
      · intro a inside
        have spared : ¬ Stages arena staging.vmBase load a :=
          fun stages => apart a inside (stages_inside fits.1 stages)
        exact (if_neg spared).trans (same a inside)

/-! ## The checks before the copies -/

theorem failIf_fields (c : Prop) [Decidable c] (bits : UInt32) :
    (if c then staging.fail bits else staging).vmBase = staging.vmBase ∧
      (if c then staging.fail bits else staging).arenaBase = staging.arenaBase ∧
        (if c then staging.fail bits else staging).arenaEnd = staging.arenaEnd ∧
          (if c then staging.fail bits else staging).arenaSize = staging.arenaSize := by
  split
  · exact ⟨rfl, rfl, rfl, rfl⟩
  · exact ⟨rfl, rfl, rfl, rfl⟩

theorem stage_failIf_clear {c : Prop} [Decidable c] {bits : UInt32} (some_ : bits ≠ 0)
    (none_ : (if c then staging.fail bits else staging).failureMask = 0) :
    staging.failureMask = 0 ∧ ¬ c := by
  by_cases fails : c
  · rw [if_pos fails] at none_
    exact absurd none_ (stage_fail_ne_zero some_)
  · rw [if_neg fails] at none_
    exact ⟨none_, fails⟩

theorem checkArenaAliases_fields :
    (machoCheckArenaAliases r staging artifact artifactSize).vmBase = staging.vmBase ∧
      (machoCheckArenaAliases r staging artifact artifactSize).arenaSize = staging.arenaSize := by
  rw [machoCheckArenaAliases]
  split
  · exact ⟨rfl, rfl⟩
  · dsimp only
    refine ⟨?_, ?_⟩
    · rw [(failIf_fields _ _).1, (failIf_fields _ _).1, (failIf_fields _ _).1, (failIf_fields _ _).1]
    · rw [(failIf_fields _ _).2.2.2, (failIf_fields _ _).2.2.2, (failIf_fields _ _).2.2.2,
        (failIf_fields _ _).2.2.2]

theorem checkArenaAliases_clear
    (none_ : (machoCheckArenaAliases r staging artifact artifactSize).failureMask = 0) :
    artifact.toNat + artifactSize.toNat < 2 ^ 32 ∧
      ¬ (staging.arenaBase < artifact + artifactSize ∧ artifact < staging.arenaEnd) := by
  have some_ : failStageArenaAlias ≠ 0 := by decide
  rw [machoCheckArenaAliases] at none_
  by_cases wraps : addOverflowU32 artifact artifactSize = true
  · rw [if_pos wraps] at none_
    exact absurd none_ (stage_fail_ne_zero some_)
  · rw [if_neg wraps] at none_
    dsimp only at none_
    have first := (stage_failIf_clear some_ none_).1
    have second := (stage_failIf_clear some_ first).1
    have third := (stage_failIf_clear some_ second).1
    rw [addOverflowU32_iff] at wraps
    exact ⟨Nat.not_le.mp wraps, (stage_failIf_clear some_ third).2⟩

structure Ready (artifact artifactSize arena : UInt32) (r : Result) (staging : StagingPlan) : Prop where
  vmBase : staging.vmBase = r.minVmaddr
  room : staging.arenaSize ≤ stagingArenaCap
  apart : Apart artifact artifactSize arena stagingArenaCap

theorem Ready.used_apart (ready : Ready artifact artifactSize arena r staging) :
    Apart artifact artifactSize arena staging.arenaSize :=
  fun a inside used => ready.apart a inside (UInt32.lt_of_lt_of_le used ready.room)

/-- The plan of an image with a span of `size` bytes in whole pages. -/
def spanned (arena : UInt32) (r : Result) (size : UInt32) : StagingPlan :=
  { version := 1, status := MachO.statusBase, arenaBase := arena
    arenaEnd := arena + stagingArenaCap, vmBase := r.minVmaddr, vmEnd := r.maxVmaddr
    vmSpan := r.maxVmaddr - r.minVmaddr, arenaSize := size, materializedHeader := arena }

theorem stageSpan_clear (none_ : (stageSpan artifact artifactSize arena r).failureMask = 0) :
    ∃ size, alignUpCheckedU32 (r.maxVmaddr - r.minVmaddr) pageSize = some size ∧
      r.minVmaddr < r.maxVmaddr ∧ size ≤ stagingArenaCap ∧
        ¬ addOverflowU32 arena stagingArenaCap = true ∧
          stageSpan artifact artifactSize arena r =
            machoCheckArenaAliases r (spanned arena r size) artifact artifactSize := by
  have some_ : failStageSpan ≠ 0 := by decide
  rw [stageSpan] at none_ ⊢
  by_cases wraps : addOverflowU32 arena stagingArenaCap = true
  · rw [if_pos wraps] at none_
    exact absurd none_ (stage_fail_ne_zero some_)
  · rw [if_neg wraps] at none_ ⊢
    dsimp only at none_ ⊢
    by_cases span : r.minVmaddr = 0 ∨ r.maxVmaddr ≤ r.minVmaddr
    · rw [if_pos span] at none_
      exact absurd none_ (stage_fail_ne_zero some_)
    · rw [if_neg span] at none_ ⊢
      rw [not_or, UInt32.not_le] at span
      cases align : alignUpCheckedU32 (r.maxVmaddr - r.minVmaddr) pageSize with
      | none =>
          rw [align] at none_
          exact absurd none_ (stage_fail_ne_zero some_)
      | some size =>
          rw [align] at none_
          dsimp only at none_ ⊢
          by_cases large : stagingArenaCap < size
          · rw [if_pos large] at none_
            exact absurd none_ (stage_fail_ne_zero some_)
          · rw [if_neg large]
            exact ⟨size, rfl, span.2, UInt32.not_lt.mp large, wraps, rfl⟩

theorem stageSpan_ready (none_ : (stageSpan artifact artifactSize arena r).failureMask = 0) :
    Ready artifact artifactSize arena r (stageSpan artifact artifactSize arena r) := by
  have cap : stagingArenaCap.toNat = 65536 := rfl
  obtain ⟨size, -, -, room, wraps, checked⟩ := stageSpan_clear none_
  have fields := @checkArenaAliases_fields artifact artifactSize (spanned arena r size) r
  rw [checked] at none_ ⊢
  obtain ⟨fits, apart⟩ := checkArenaAliases_clear none_
  refine ⟨fields.1, ?_, ?_⟩
  · rw [fields.2]
    exact room
  · rw [addOverflowU32_iff, cap] at wraps
    have ends := toNat_add_of_lt fits
    have arenaEnd : (arena + stagingArenaCap).toNat = arena.toNat + 65536 :=
      toNat_add_of_lt (Nat.not_le.mp wraps)
    rw [spanned] at apart
    dsimp only at apart
    rw [UInt32.lt_iff_toNat_lt, UInt32.lt_iff_toNat_lt, ends, arenaEnd] at apart
    intro a inside inside'
    rw [offset_lt_iff (Nat.le_of_lt fits)] at inside
    rw [offset_lt_iff (by omega), cap] at inside'
    omega

/-! ## The arena -/

theorem finishStaging_clear (ok : (finishStaging r staging).1 = true) : staging.failureMask = 0 := by
  rw [finishStaging] at ok
  dsimp only at ok
  rw [decide_eq_true_iff] at ok
  by_contra some_
  rw [if_neg fun both => some_ both.1] at ok
  exact MachO.statusFail_ne _ ok

theorem stageAll_clear
    (none_ : (stageAll mem artifact artifactSize arena r staging).1.failureMask = 0) :
    (stageEntries artifact artifactSize arena r.loadPlan.entries staging mem).1.failureMask = 0 ∧
      (stageAll mem artifact artifactSize arena r staging).2 =
        (stageEntries artifact artifactSize arena r.loadPlan.entries staging mem).2 := by
  refine ⟨?_, rfl⟩
  rw [stageAll] at none_
  dsimp only at none_
  by_cases short : (stageEntries artifact artifactSize arena r.loadPlan.entries staging
      mem).1.entries.length ≠ r.loadPlan.entries.length
  · rw [if_pos short] at none_
    have failed := @stage_fail_ne_zero (stageEntries artifact artifactSize arena r.loadPlan.entries
      staging mem).1 failStageCopy (by decide)
    rw [if_neg failed] at none_
    exact absurd none_ failed
  · rw [if_neg short] at none_
    by_contra failed
    rw [if_neg failed] at none_
    exact failed none_

/-- After a success, memory is the cleared arena overwritten by the entries. -/
theorem materialize_overwrites (mem : Mem) (artifact artifactSize arena : UInt32) (r : Result)
    (ok : (machoMaterializeToArena mem artifact artifactSize arena r).1 = true) :
    (machoMaterializeToArena mem artifact artifactSize arena r).2.2 =
      overwriteAll (Stages arena r.minVmaddr) (stagedByte mem artifact arena r.minVmaddr)
        (memset mem arena 0 stagingArenaCap) r.loadPlan.entries := by
  -- unfolded as a whole function: applied, the kernel would run the stages first
  have body : machoMaterializeToArena = machoMaterializeToArena := rfl
  conv at body =>
    rhs
    delta machoMaterializeToArena
  generalize result : machoMaterializeToArena mem artifact artifactSize arena r = out at ok ⊢
  rewrite [body] at result
  dsimp -iota -proj only at result
  by_cases refused : (stageSpan artifact artifactSize arena r).failureMask ≠ 0
  · rw [if_pos refused] at result
    rw [← result] at ok
    exact absurd (@finishStaging_clear _ r ok) refused
  · rw [if_neg refused] at result
    have ready := stageSpan_ready (not_ne_iff.mp refused)
    have apart := ready.used_apart
    generalize staged : stageAll (memset mem arena 0 stagingArenaCap) artifact artifactSize arena r
      (stageSpan artifact artifactSize arena r) = both at result
    obtain ⟨staging, final⟩ := both
    rw [← result] at ok ⊢
    have clear : (staging, final).1.failureMask = 0 := @finishStaging_clear _ r ok
    rw [← staged] at clear
    obtain ⟨entries, memory⟩ := stageAll_clear clear
    obtain ⟨_, fits, folds⟩ := stageEntries_clear apart entries
    have moved : final = (stageAll (memset mem arena 0 stagingArenaCap) artifact artifactSize arena r
        (stageSpan artifact artifactSize arena r)).2 := by rw [staged]
    dsimp only
    rw [moved, memory, folds, @foldl_overwrite mem _ _ _ _ _ _ apart fits, ready.vmBase]
    intro a inside
    exact if_neg (ready.apart a inside)

/-- A successful materialization is faithful exactly if the segments agree where they meet. -/
theorem materialize_faithful_iff (mem : Mem) (artifact artifactSize arena : UInt32)
    (ok : (machoMaterializeToArena mem artifact artifactSize arena
      (stage90MachoProbe mem artifact artifactSize).2).1 = true) :
    Faithful artifact arena mem
        (machoMaterializeToArena mem artifact artifactSize arena
          (stage90MachoProbe mem artifact artifactSize).2).2.2
        (stage90MachoProbe mem artifact artifactSize).2 ↔
      OverlapsAgree artifact mem (stage90MachoProbe mem artifact artifactSize).2 := by
  rw [materialize_overwrites _ _ _ _ _ ok]
  generalize (stage90MachoProbe mem artifact artifactSize).2 = r
  have back := @overwriteAll_reads_back _ _ _ (Stages arena r.minVmaddr) _
    (stagedByte mem artifact arena r.minVmaddr) (memset mem arena 0 stagingArenaCap)
    r.loadPlan.entries
  have place : ∀ (load : LoadPlanEntry) (i : UInt32),
      stagedAt arena r.minVmaddr load + i - stagedAt arena r.minVmaddr load = i := by
    intro load i
    rw [UInt32.add_comm, UInt32.add_sub_cancel]
  constructor
  · intro faithful load there load' there' i i' inside inside' meet
    have same : stagedAt arena r.minVmaddr load + i = stagedAt arena r.minVmaddr load' + i' := by
      rw [stagedAt, stagedAt]
      grind
    have one := faithful load there i inside
    have two := faithful load' there' i' inside'
    rw [← one, ← two]
    exact congrArg _ same
  · intro agree load there i inside
    have reads := back.mpr ?_ load there (stagedAt arena r.minVmaddr load + i) ?_
    · rw [stagedByte, place] at reads
      exact reads
    · intro load there load' there' a stages stages'
      apply agree load there load' there' _ _ stages stages'
      rw [stagedAt, stagedAt]
      grind
    · rw [Stages, place]
      exact inside

/-- Segments that do not wrap and lie apart do not meet. -/
theorem overlapsAgree_of_apart {r : Result}
    (flat : ∀ load ∈ r.loadPlan.entries, load.vmaddr.toNat + load.vmsize.toNat ≤ 2 ^ 32)
    (apart : ∀ load ∈ r.loadPlan.entries, ∀ load' ∈ r.loadPlan.entries, load = load' ∨
      load.vmaddr.toNat + load.vmsize.toNat ≤ load'.vmaddr.toNat ∨
        load'.vmaddr.toNat + load'.vmsize.toNat ≤ load.vmaddr.toNat) :
    OverlapsAgree artifact mem r := by
  have place : ∀ load ∈ r.loadPlan.entries, ∀ i < load.vmsize,
      i.toNat < load.vmsize.toNat ∧ (load.vmaddr + i).toNat = load.vmaddr.toNat + i.toNat := by
    intro load there i inside
    have short := UInt32.lt_iff_toNat_lt.mp inside
    have ends := flat load there
    refine ⟨short, ?_⟩
    rw [UInt32.toNat_add]
    exact Nat.mod_eq_of_lt (by omega)
  intro load there load' there' i i' inside inside' meet
  obtain ⟨short, address⟩ := place load there i inside
  obtain ⟨short', address'⟩ := place load' there' i' inside'
  rcases apart load there load' there' with rfl | behind
  · rw [(UInt32.add_right_inj load.vmaddr).mp meet]
  · rw [meet, address'] at address
    omega

/-- The two calls on a small image with `__DATA` at `vmaddr`. -/
def smallImageMem (vmaddr : UInt32) : Mem := ofWords smallImageBase (smallImage vmaddr)

def smallImageProbe (vmaddr : UInt32) : Bool × Result :=
  stage90MachoProbe (smallImageMem vmaddr) smallImageBase 460

def smallImageArena (vmaddr : UInt32) : Bool × (StagingPlan × Result) × Mem :=
  machoMaterializeToArena (smallImageMem vmaddr) smallImageBase 460 0x200000 (smallImageProbe vmaddr).2

def textEntry : LoadPlanEntry := ⟨0, segText, 0x80001000, 460, 0, 460, 0x80000000, 0x1000, 1⟩

def dataEntry : LoadPlanEntry := ⟨1, segData, 0x80002000, 4, 456, 4, 0x80001000, 0x1000, 1⟩

/-- With `__DATA` behind `__TEXT`, no two segments meet. -/
theorem smallImage_faithful :
    (smallImageProbe 0x80002000).1 = true ∧
      Faithful smallImageBase 0x200000 (smallImageMem 0x80002000) (smallImageArena 0x80002000).2.2
        (smallImageProbe 0x80002000).2 := by
  have ok : (smallImageProbe 0x80002000).1 = true ∧ (smallImageArena 0x80002000).1 = true ∧
      (smallImageProbe 0x80002000).2.loadPlan.entries = [textEntry, dataEntry] := by
    decide +kernel
  have agree : OverlapsAgree smallImageBase (smallImageMem 0x80002000)
      (smallImageProbe 0x80002000).2 := by
    apply overlapsAgree_of_apart
    · rw [ok.2.2]
      simp [textEntry, dataEntry]
    · rw [ok.2.2]
      simp [textEntry, dataEntry]
  unfold smallImageArena smallImageProbe at *
  exact ⟨ok.1, (materialize_faithful_iff _ _ _ _ ok.2.1).mpr agree⟩

/-- With `__DATA` over a word of `__TEXT`, both calls succeed and the word of `__TEXT` is gone. -/
theorem smallImage_overwritten :
    (smallImageProbe 0x800011c4).1 = true ∧ (smallImageArena 0x800011c4).1 = true ∧
      ¬ Faithful smallImageBase 0x200000 (smallImageMem 0x800011c4) (smallImageArena 0x800011c4).2.2
        (smallImageProbe 0x800011c4).2 := by
  have calls : (smallImageProbe 0x800011c4).1 = true ∧ (smallImageArena 0x800011c4).1 = true ∧
      textEntry ∈ (smallImageProbe 0x800011c4).2.loadPlan.entries ∧
        (smallImageArena 0x800011c4).2.2
            (0x200000 + (textEntry.vmaddr - (smallImageProbe 0x800011c4).2.minVmaddr) + 452) ≠
          content (smallImageMem 0x800011c4) smallImageBase textEntry 452 := by
    decide +kernel
  refine ⟨calls.1, calls.2.1, ?_⟩
  intro faithful
  exact calls.2.2.2 (faithful textEntry calls.2.2.1 452 (by decide))

end Stage90.Probe

import Stage90.MachO.Faithful
import Stage90.MachO.Placement
import Stage90.MachO.ProbeReads

/-!
# What the staging reads and writes

The accesses of `stage90_macho_materialize_to_arena` in the artifact and in the arena, in the order
in which the source makes them.  The copies, the parse of the arena and the check of the zero fill
stay inside.  The check of a marker looks where the marker starts, not where it ends.
-/

set_option autoImplicit false

namespace Stage90.Probe

open Stage90.Lib
open Stage90.MachO (Access)

inductive Buffer where
  | source
  | arena
  deriving DecidableEq

/-- An access through a pointer into one of the two. -/
structure StagingAccess where
  buffer : Buffer
  access : Access

def StagingAccess.Contained (x : StagingAccess) (artifact artifactSize arena : UInt32) : Prop :=
  match x.buffer with
  | .source => Within x.access artifact artifactSize
  | .arena => Within x.access arena stagingArenaCap

/-! ## The copies -/

def stageEntryAccesses (artifact artifactSize arena : UInt32) (staging : StagingPlan)
    (load : LoadPlanEntry) : List StagingAccess :=
  if load.vmaddr < staging.vmBase ∨ load.vmsize < load.filesize then []
  else
    let arenaOffset := load.vmaddr - staging.vmBase
    if addOverflowU32 load.fileoff load.filesize ∨ artifactSize < load.fileoff + load.filesize then []
    else if addOverflowU32 arenaOffset load.vmsize ∨ staging.arenaSize < arenaOffset + load.vmsize ∨
        addOverflowU32 arenaOffset load.filesize ∨
          staging.arenaSize < arenaOffset + load.filesize then []
    else
      let zeroSize := load.vmsize - load.filesize
      (if load.filesize ≠ 0 then
        [⟨.source, ⟨.read, artifact + load.fileoff, load.filesize.toNat⟩⟩,
          ⟨.arena, ⟨.write, arena + arenaOffset, load.filesize.toNat⟩⟩]
      else []) ++
        if zeroSize ≠ 0 then
          [⟨.arena, ⟨.write, arena + arenaOffset + load.filesize, zeroSize.toNat⟩⟩]
        else []

def stageEntriesAccesses (artifact artifactSize arena : UInt32) :
    List LoadPlanEntry → StagingPlan → Mem → List StagingAccess
  | [], _, _ => []
  | load :: loads, staging, mem =>
      if stagingPlanMax ≤ staging.entries.length then []
      else
        let (staging', mem') := stageEntry artifact artifactSize arena mem staging load
        stageEntryAccesses artifact artifactSize arena staging load ++
          stageEntriesAccesses artifact artifactSize arena loads staging' mem'

/-! ## The checks -/

/-- The bytes that `bytes_prefix_eq` looks at. -/
def prefixReads (mem : Mem) : UInt32 → List UInt8 → Nat
  | _, [] => 0
  | p, c :: cs => if mem p ≠ c then 1 else prefixReads mem (p + 1) cs + 1

def verifyMarkerAccesses (mem : Mem) (arena : UInt32) (staging : StagingPlan) (vmaddr : UInt32)
    (marker : List UInt8) : List StagingAccess :=
  if vmaddr < staging.vmBase then []
  else
    let offset := vmaddr - staging.vmBase
    if staging.arenaSize ≤ offset then []
    else [⟨.arena, ⟨.read, arena + offset, prefixReads mem (arena + offset) marker⟩⟩]

/-- The bytes of the zero fill that are looked at, up to one that is not zero. -/
def zeroReads (mem : Mem) : Nat → UInt32 → Nat
  | 0, _ => 0
  | n + 1, p => if mem p ≠ 0 then 1 else zeroReads mem n (p + 1) + 1

/-- A turn of the loop of `stage90_macho_verify_zero_fill`. -/
def verifyZeroAccesses (mem : Mem) (arena : UInt32) (staging : StagingPlan)
    (entry : StagingPlanEntry) : List StagingAccess :=
  if entry.zeroSize = 0 then []
  else if staging.arenaSize < entry.arenaOffset + entry.copySize + entry.zeroSize then []
  else
    let zeroOffset := entry.arenaOffset + entry.copySize
    [⟨.arena, ⟨.read, arena + zeroOffset, zeroReads mem entry.zeroSize.toNat (arena + zeroOffset)⟩⟩]

/-- The checks write to the plan, but not to the fields that decide what they read. -/
def verifyStagedAccesses (mem : Mem) (arena : UInt32) (r : Result) (staging : StagingPlan) :
    List StagingAccess :=
  (probeReads mem arena staging.arenaSize).map (StagingAccess.mk .arena) ++
    verifyMarkerAccesses mem arena staging r.textSection.vmaddr textMarker ++
    verifyMarkerAccesses mem arena staging r.dataConst.vmaddr dataMarker ++
    verifyMarkerAccesses mem arena staging r.prelinkTextSection.vmaddr prelinkTextMarker ++
    staging.entries.flatMap (verifyZeroAccesses mem arena staging)

def stageAllAccesses (mem : Mem) (artifact artifactSize arena : UInt32) (r : Result)
    (staging : StagingPlan) : List StagingAccess :=
  let (staging', mem') :=
    stageEntries artifact artifactSize arena r.loadPlan.entries staging mem
  let staging' :=
    if staging'.entries.length ≠ r.loadPlan.entries.length then staging'.fail failStageCopy
    else staging'
  stageEntriesAccesses artifact artifactSize arena r.loadPlan.entries staging mem ++
    if staging'.failureMask = 0 then verifyStagedAccesses mem' arena r staging' else []

def materializeAccesses (mem : Mem) (artifact artifactSize arena : UInt32) (r : Result) :
    List StagingAccess :=
  let mem := memset mem arena 0 stagingArenaCap
  let staging := stageSpan artifact artifactSize arena r
  ⟨.arena, ⟨.write, arena, stagingArenaCap.toNat⟩⟩ ::
    if staging.failureMask ≠ 0 then []
    else stageAllAccesses mem artifact artifactSize arena r staging

/-! ## The statement -/

/-- The byte that the copies put at an address: of the last segment that covers it. -/
def imageByte (mem : Mem) (artifact : UInt32) (loads : List LoadPlanEntry) (v : UInt32) : UInt8 :=
  loads.foldl (fun c load =>
    if v - load.vmaddr < load.vmsize then content mem artifact load (v - load.vmaddr) else c) 0

/-- The image gets past the checks that come before the arena is looked at. -/
structure Copies (artifact artifactSize arena : UInt32) (r : Result) : Prop where
  span : (stageSpan artifact artifactSize arena r).failureMask = 0
  content : ∀ load ∈ r.loadPlan.entries, load.filesize ≤ load.vmsize

/-- From `vmaddr` to the end of the arena there are fewer bytes than the marker has, and they are
the first bytes of the marker. -/
structure RunsOff (mem : Mem) (artifact : UInt32) (r : Result) (vmaddr : UInt32)
    (marker : List UInt8) : Prop where
  base : r.minVmaddr.toNat ≤ vmaddr.toNat
  inside : vmaddr.toNat - r.minVmaddr.toNat < roundUp (r.maxVmaddr.toNat - r.minVmaddr.toNat)
  short : stagingArenaCap.toNat < vmaddr.toNat - r.minVmaddr.toNat + marker.length
  same : ∀ i < stagingArenaCap.toNat - (vmaddr.toNat - r.minVmaddr.toNat),
    imageByte mem artifact r.loadPlan.entries (vmaddr + UInt32.ofNat i) = marker.getD i 0

/-- None of the three comparisons runs off. -/
structure MarkersEnd (mem : Mem) (artifact : UInt32) (r : Result) : Prop where
  text : ¬ RunsOff mem artifact r r.textSection.vmaddr textMarker
  data : ¬ RunsOff mem artifact r r.dataConst.vmaddr dataMarker
  prelinkText : ¬ RunsOff mem artifact r r.prelinkTextSection.vmaddr prelinkTextMarker

/-- The probe reads in the artifact only, and behind a probe that accepts it the staging stays in
the artifact and in the arena. -/
def StaysInside (mem : Mem) (artifact artifactSize arena : UInt32) : Prop :=
  (∀ x ∈ probeReads mem artifact artifactSize, Within x artifact artifactSize) ∧
    ((stage90MachoProbe mem artifact artifactSize).1 = true →
      ∀ x ∈ materializeAccesses mem artifact artifactSize arena
          (stage90MachoProbe mem artifact artifactSize).2,
        x.Contained artifact artifactSize arena)

section
variable {mem : Mem} {artifact artifactSize arena : UInt32} {staging : StagingPlan}
  {load : LoadPlanEntry} {r : Result}

theorem arena_contained {kind : MachO.AccessKind} {offset : UInt32} {n : Nat}
    (fits : offset.toNat + n ≤ stagingArenaCap.toNat) :
    (StagingAccess.mk .arena ⟨kind, arena + offset, n⟩).Contained artifact artifactSize arena :=
  within_of_endsBy ⟨offset, rfl, fits⟩

theorem none_contained :
    ∀ x ∈ ([] : List StagingAccess), x.Contained artifact artifactSize arena :=
  fun _ there => absurd there List.not_mem_nil

/-! ## The copies stay inside -/

structure Continues (staging staging' : StagingPlan) : Prop where
  vmBase : staging'.vmBase = staging.vmBase
  arenaSize : staging'.arenaSize = staging.arenaSize

def EntriesFit (staging : StagingPlan) : Prop :=
  ∀ entry ∈ staging.entries,
    entry.arenaOffset.toNat + entry.copySize.toNat + entry.zeroSize.toNat ≤ staging.arenaSize.toNat

theorem stageEntry_keeps (fit : EntriesFit staging) :
    EntriesFit (stageEntry artifact artifactSize arena mem staging load).1 ∧
      Continues staging (stageEntry artifact artifactSize arena mem staging load).1 := by
  rw [stageEntry]
  split
  · exact ⟨fit, rfl, rfl⟩
  · rename_i base
    dsimp only
    split
    · exact ⟨fit, rfl, rfl⟩
    · rename_i source
      split
      · exact ⟨fit, rfl, rfl⟩
      · rename_i room
        have stageable := staged_bounds.mp ⟨base, source, room⟩
        refine ⟨?_, rfl, rfl⟩
        intro entry there
        rcases List.mem_append.mp there with before | last
        · exact fit entry before
        · rw [List.mem_singleton.mp last]
          have offset := UInt32.toNat_sub_of_le _ _ (UInt32.le_iff_toNat_le.mpr stageable.base)
          have zero := UInt32.toNat_sub_of_le _ _ (UInt32.le_iff_toNat_le.mpr stageable.content)
          have ends := stageable.room
          have within := stageable.content
          change (load.vmaddr - staging.vmBase).toNat + load.filesize.toNat +
            (load.vmsize - load.filesize).toNat ≤ staging.arenaSize.toNat
          rw [offset, zero]
          omega

theorem stageEntryAccesses_contained (small : staging.arenaSize ≤ stagingArenaCap) :
    ∀ x ∈ stageEntryAccesses artifact artifactSize arena staging load,
      x.Contained artifact artifactSize arena := by
  rw [UInt32.le_iff_toNat_le] at small
  rw [stageEntryAccesses]
  split
  · exact none_contained
  · rename_i base
    dsimp only
    split
    · exact none_contained
    · rename_i source
      split
      · exact none_contained
      · rename_i room
        have stageable := staged_bounds.mp ⟨base, source, room⟩
        have offset := UInt32.toNat_sub_of_le _ _ (UInt32.le_iff_toNat_le.mpr stageable.base)
        have zero := UInt32.toNat_sub_of_le _ _ (UInt32.le_iff_toNat_le.mpr stageable.content)
        have ends := stageable.room
        have within := stageable.content
        have below := stagingArenaCap.toNat_lt
        have start : (load.vmaddr - staging.vmBase + load.filesize).toNat =
            load.vmaddr.toNat - staging.vmBase.toNat + load.filesize.toNat := by
          rw [toNat_add_of_lt (by omega), offset]
        rw [List.forall_mem_append]
        refine ⟨?_, ?_⟩
        · split
          · rw [List.forall_mem_cons, List.forall_mem_singleton]
            refine ⟨within_of_endsBy ⟨load.fileoff, rfl, stageable.source⟩, arena_contained ?_⟩
            omega
          · exact none_contained
        · split
          · rw [List.forall_mem_singleton, UInt32.add_assoc]
            apply arena_contained
            omega
          · exact none_contained

theorem stageEntries_keeps {loads : List LoadPlanEntry} (fit : EntriesFit staging) :
    EntriesFit (stageEntries artifact artifactSize arena loads staging mem).1 ∧
      Continues staging (stageEntries artifact artifactSize arena loads staging mem).1 := by
  induction loads generalizing staging mem with
  | nil => exact ⟨fit, rfl, rfl⟩
  | cons load loads ih =>
      rw [stageEntries]
      split
      · exact ⟨fit, rfl, rfl⟩
      · obtain ⟨fit', step⟩ := @stageEntry_keeps mem artifact artifactSize arena staging load fit
        have rest := @ih (stageEntry artifact artifactSize arena mem staging load).2
          (stageEntry artifact artifactSize arena mem staging load).1 fit'
        exact ⟨rest.1, rest.2.vmBase.trans step.vmBase, rest.2.arenaSize.trans step.arenaSize⟩

theorem stageEntriesAccesses_contained {loads : List LoadPlanEntry} (fit : EntriesFit staging)
    (small : staging.arenaSize ≤ stagingArenaCap) :
    ∀ x ∈ stageEntriesAccesses artifact artifactSize arena loads staging mem,
      x.Contained artifact artifactSize arena := by
  induction loads generalizing staging mem with
  | nil => exact none_contained
  | cons load loads ih =>
      rw [stageEntriesAccesses]
      split
      · exact none_contained
      · obtain ⟨fit', step⟩ := @stageEntry_keeps mem artifact artifactSize arena staging load fit
        dsimp only
        rw [List.forall_mem_append]
        refine ⟨stageEntryAccesses_contained small, ih fit' ?_⟩
        rw [step.arenaSize]
        exact small

/-! ## What the checks read -/

/-- A comparison looks at no more than `n` bytes unless the first `n` are the marker's. -/
theorem prefixReads_le_iff (mem : Mem) (p : UInt32) (marker : List UInt8) (n : Nat) :
    prefixReads mem p marker ≤ n ↔
      ¬ (n < marker.length ∧ ∀ i < n, mem (p + UInt32.ofNat i) = marker.getD i 0) := by
  induction marker generalizing p n with
  | nil => exact ⟨fun _ both => absurd both.1 (Nat.not_lt_zero n), fun _ => Nat.zero_le n⟩
  | cons c marker ih =>
      rw [prefixReads]
      cases n with
      | zero =>
          have same : ∀ i < 0, mem (p + UInt32.ofNat i) = (c :: marker).getD i 0 :=
            fun i none_ => absurd none_ (Nat.not_lt_zero i)
          constructor
          · intro none_
            split at none_
            · exact absurd none_ (Nat.not_succ_le_zero 0)
            · exact absurd none_ (Nat.not_succ_le_zero _)
          · intro stops
            exact absurd ⟨Nat.succ_pos _, same⟩ stops
      | succ n =>
          have first : mem (p + UInt32.ofNat 0) = mem p := congrArg mem (UInt32.add_zero p)
          have next (i : Nat) : mem (p + UInt32.ofNat (i + 1)) = mem (p + 1 + UInt32.ofNat i) := by
            rw [UInt32.ofNat_add, UInt32.add_comm (UInt32.ofNat i), ← UInt32.add_assoc]
            rfl
          split
          · rename_i differs
            refine ⟨fun _ both => differs ?_, fun _ => Nat.succ_le_succ (Nat.zero_le n)⟩
            rw [← first]
            exact both.2 0 (Nat.succ_pos n)
          · rename_i same
            rw [not_ne_iff] at same
            rw [Nat.succ_le_succ_iff, ih, List.length_cons, Nat.succ_lt_succ_iff]
            apply not_congr
            apply and_congr_right
            intro _
            constructor
            · intro all i inside
              cases i with
              | zero => exact first.trans same
              | succ i =>
                  rw [next]
                  exact all i (Nat.lt_of_succ_lt_succ inside)
            · intro all i inside
              rw [← next]
              exact all (i + 1) (Nat.succ_lt_succ inside)

theorem zeroReads_le (mem : Mem) (n : Nat) (p : UInt32) : zeroReads mem n p ≤ n := by
  induction n generalizing p with
  | zero => exact Nat.le_refl 0
  | succ n ih =>
      rw [zeroReads]
      split
      · exact Nat.succ_le_succ (Nat.zero_le n)
      · exact Nat.succ_le_succ (ih _)

theorem verifyZeroAccesses_contained {entry : StagingPlanEntry} (fit : EntriesFit staging)
    (small : staging.arenaSize ≤ stagingArenaCap) (there : entry ∈ staging.entries) :
    ∀ x ∈ verifyZeroAccesses mem arena staging entry,
      x.Contained artifact artifactSize arena := by
  have ends := fit entry there
  have below := stagingArenaCap.toNat_lt
  rw [UInt32.le_iff_toNat_le] at small
  rw [verifyZeroAccesses]
  split
  · exact none_contained
  · split
    · exact none_contained
    · have start : (entry.arenaOffset + entry.copySize).toNat =
          entry.arenaOffset.toNat + entry.copySize.toNat := toNat_add_of_lt (by omega)
      have reads := zeroReads_le mem entry.zeroSize.toNat
        (arena + (entry.arenaOffset + entry.copySize))
      rw [List.forall_mem_singleton]
      apply arena_contained
      omega

/-- A marker's comparison leaves the arena exactly if the arena ends within the marker. -/
theorem verifyMarkerAccesses_contained_iff {vmaddr : UInt32} {marker : List UInt8}
    (some_ : 0 < marker.length) (small : staging.arenaSize ≤ stagingArenaCap) :
    (∀ x ∈ verifyMarkerAccesses mem arena staging vmaddr marker,
        x.Contained artifact artifactSize arena) ↔
      ¬ (staging.vmBase.toNat ≤ vmaddr.toNat ∧
        vmaddr.toNat - staging.vmBase.toNat < staging.arenaSize.toNat ∧
          stagingArenaCap.toNat < vmaddr.toNat - staging.vmBase.toNat + marker.length ∧
            ∀ i < stagingArenaCap.toNat - (vmaddr.toNat - staging.vmBase.toNat),
              mem (arena + (vmaddr - staging.vmBase) + UInt32.ofNat i) = marker.getD i 0) := by
  rw [UInt32.le_iff_toNat_le] at small
  rw [verifyMarkerAccesses]
  split
  · rename_i below
    rw [UInt32.lt_iff_toNat_lt] at below
    refine ⟨fun _ all => ?_, fun _ => none_contained⟩
    omega
  · rename_i base
    rw [UInt32.not_lt] at base
    have offset := UInt32.toNat_sub_of_le _ _ base
    rw [UInt32.le_iff_toNat_le] at base
    dsimp only
    split
    · rename_i outside
      rw [UInt32.le_iff_toNat_le, offset] at outside
      refine ⟨fun _ all => ?_, fun _ => none_contained⟩
      omega
    · rename_i inside
      rw [UInt32.not_le, UInt32.lt_iff_toNat_lt, offset] at inside
      have positive : 0 < prefixReads mem (arena + (vmaddr - staging.vmBase)) marker := by
        rw [← Nat.not_le, prefixReads_le_iff, not_not]
        exact ⟨some_, fun i none_ => absurd none_ (Nat.not_lt_zero i)⟩
      have reads := prefixReads_le_iff mem (arena + (vmaddr - staging.vmBase)) marker
        (stagingArenaCap.toNat - (vmaddr.toNat - staging.vmBase.toNat))
      have contained : (StagingAccess.mk .arena ⟨.read, arena + (vmaddr - staging.vmBase),
          prefixReads mem (arena + (vmaddr - staging.vmBase)) marker⟩).Contained artifact
            artifactSize arena ↔ (vmaddr - staging.vmBase).toNat +
              prefixReads mem (arena + (vmaddr - staging.vmBase)) marker ≤ stagingArenaCap.toNat :=
        range_within_iff positive
      rw [List.forall_mem_singleton, contained, offset]
      constructor
      · intro fits all
        refine reads.mp ?_ ⟨?_, all.2.2.2⟩
        · omega
        · omega
      · intro stops
        have le := reads.mpr fun both => stops ⟨base, inside, by omega, both.2⟩
        omega

/-- Of the accesses of the checks, only a marker's can be outside. -/
theorem verifyStagedAccesses_contained_iff (fit : EntriesFit staging)
    (small : staging.arenaSize ≤ stagingArenaCap) :
    (∀ x ∈ verifyStagedAccesses mem arena r staging, x.Contained artifact artifactSize arena) ↔
      (∀ x ∈ verifyMarkerAccesses mem arena staging r.textSection.vmaddr textMarker,
          x.Contained artifact artifactSize arena) ∧
        (∀ x ∈ verifyMarkerAccesses mem arena staging r.dataConst.vmaddr dataMarker,
            x.Contained artifact artifactSize arena) ∧
          ∀ x ∈ verifyMarkerAccesses mem arena staging r.prelinkTextSection.vmaddr prelinkTextMarker,
            x.Contained artifact artifactSize arena := by
  have parse : ∀ x ∈ (probeReads mem arena staging.arenaSize).map (StagingAccess.mk .arena),
      x.Contained artifact artifactSize arena := by
    rw [List.forall_mem_map]
    intro x there
    exact within_of_endsBy
      ((probeReads_endsBy mem arena _ x there).mono (UInt32.le_iff_toNat_le.mp small))
  have zeros : ∀ x ∈ staging.entries.flatMap (verifyZeroAccesses mem arena staging),
      x.Contained artifact artifactSize arena := by
    intro x there
    obtain ⟨entry, among, reads⟩ := List.mem_flatMap.mp there
    exact verifyZeroAccesses_contained fit small among x reads
  rw [verifyStagedAccesses, List.forall_mem_append, List.forall_mem_append, List.forall_mem_append,
    List.forall_mem_append]
  constructor
  · intro ⟨⟨⟨⟨_, text⟩, data⟩, prelinkText⟩, _⟩
    exact ⟨text, data, prelinkText⟩
  · intro ⟨text, data, prelinkText⟩
    exact ⟨⟨⟨⟨parse, text⟩, data⟩, prelinkText⟩, zeros⟩

/-! ## When the checks are reached -/

/-- The entry is staged if its ranges are sound, and the loop goes on. -/
theorem stageEntry_length (stageable : Stageable artifactSize staging load) :
    (stageEntry artifact artifactSize arena mem staging load).1.entries.length =
      staging.entries.length + 1 := by
  obtain ⟨base, source, room⟩ := staged_bounds.mpr stageable
  rw [stageEntry, if_neg base]
  dsimp only
  rw [if_neg source, if_neg room]
  exact List.length_append

theorem stageEntries_complete {loads : List LoadPlanEntry}
    (stageable : ∀ load ∈ loads, Stageable artifactSize staging load)
    (few : staging.entries.length + loads.length ≤ stagingPlanMax) :
    (stageEntries artifact artifactSize arena loads staging mem).1.failureMask =
        staging.failureMask ∧
      (stageEntries artifact artifactSize arena loads staging mem).1.entries.length =
        staging.entries.length + loads.length := by
  induction loads generalizing staging mem with
  | nil => exact ⟨rfl, rfl⟩
  | cons load loads ih =>
      rw [List.forall_mem_cons] at stageable
      rw [List.length_cons] at few ⊢
      have room : ¬ stagingPlanMax ≤ staging.entries.length := by omega
      have extends_ := @stageEntry_extends mem artifact artifactSize arena staging load stageable.1
      have longer := @stageEntry_length mem artifact artifactSize arena staging load stageable.1
      have rest : ∀ other ∈ loads, Stageable artifactSize
          (stageEntry artifact artifactSize arena mem staging load).1 other := by
        intro other there
        have here := stageable.2 other there
        exact ⟨extends_.vmBase ▸ here.base, here.content, here.source,
          extends_.arenaSize ▸ extends_.vmBase ▸ here.room⟩
      rw [stageEntries, if_neg room]
      obtain ⟨clear, length⟩ := @ih (stageEntry artifact artifactSize arena mem staging load).2
        (stageEntry artifact artifactSize arena mem staging load).1 rest (by omega)
      refine ⟨clear.trans extends_.failureMask, length.trans ?_⟩
      omega

/-- The size of the arena's used part. -/
theorem stageSpan_size (none_ : (stageSpan artifact artifactSize arena r).failureMask = 0) :
    r.minVmaddr.toNat < r.maxVmaddr.toNat ∧
      (stageSpan artifact artifactSize arena r).arenaSize.toNat =
        roundUp (r.maxVmaddr.toNat - r.minVmaddr.toNat) := by
  obtain ⟨size, align, above, -, -, checked⟩ := stageSpan_clear none_
  have fields := @checkArenaAliases_fields artifact artifactSize (spanned arena r size) r
  have span := UInt32.toNat_sub_of_le _ _ (UInt32.le_of_lt above)
  rw [alignUpCheckedU32_page, span] at align
  refine ⟨UInt32.lt_iff_toNat_lt.mp above, ?_⟩
  rw [checked, fields.2]
  by_cases room : r.maxVmaddr.toNat - r.minVmaddr.toNat + 4095 < 2 ^ 32
  · rw [if_pos room, Option.some_inj] at align
    change size.toNat = _
    rw [← align, UInt32.toNat_ofNat_of_lt']
    exact Nat.lt_of_le_of_lt (Nat.div_mul_le_self _ _) room
  · rw [if_neg room] at align
    exact absurd align.symm (Option.some_ne_none size)

theorem failIf_entries (c : Prop) [Decidable c] (bits : UInt32) :
    (if c then staging.fail bits else staging).entries = staging.entries := by
  split
  · rfl
  · rfl

theorem stageSpan_entries (none_ : (stageSpan artifact artifactSize arena r).failureMask = 0) :
    (stageSpan artifact artifactSize arena r).entries = [] := by
  obtain ⟨size, -, -, -, -, checked⟩ := stageSpan_clear none_
  rw [checked, machoCheckArenaAliases]
  split
  · rfl
  · dsimp only
    rw [failIf_entries, failIf_entries, failIf_entries, failIf_entries]
    rfl

theorem copies_stageable (copies : Copies artifact artifactSize arena r)
    (ranges : ∀ load ∈ r.loadPlan.entries, EntryRange artifactSize r load) :
    ∀ load ∈ r.loadPlan.entries,
      Stageable artifactSize (stageSpan artifact artifactSize arena r) load := by
  intro load there
  have ready := stageSpan_ready copies.span
  obtain ⟨above, size⟩ := stageSpan_size copies.span
  obtain ⟨base, within, file⟩ := ranges load there
  have rounded := le_roundUp (r.maxVmaddr.toNat - r.minVmaddr.toNat)
  have based : (stageSpan artifact artifactSize arena r).vmBase.toNat = r.minVmaddr.toNat :=
    congrArg UInt32.toNat ready.vmBase
  refine ⟨?_, UInt32.le_iff_toNat_le.mp (copies.content load there), file, ?_⟩
  · rw [based]
    exact base
  · rw [based, size]
    omega

def copyLoop (mem : Mem) (artifact artifactSize arena : UInt32) (r : Result) : StagingPlan × Mem :=
  stageEntries artifact artifactSize arena r.loadPlan.entries
    (stageSpan artifact artifactSize arena r) (memset mem arena 0 stagingArenaCap)

theorem copied_imageByte (none_ : (stageSpan artifact artifactSize arena r).failureMask = 0)
    (clear : (copyLoop mem artifact artifactSize arena r).1.failureMask = 0)
    {v : UInt32} (inside : v - r.minVmaddr < stagingArenaCap) :
    (copyLoop mem artifact artifactSize arena r).2 (arena + (v - r.minVmaddr)) =
      imageByte mem artifact r.loadPlan.entries v := by
  have ready := stageSpan_ready none_
  have apart := ready.used_apart
  obtain ⟨-, stageable, folds⟩ := stageEntries_clear apart clear
  have cleared : memset mem arena 0 stagingArenaCap (arena + (v - r.minVmaddr)) = 0 := by
    have offset : arena + (v - r.minVmaddr) - arena = v - r.minVmaddr := by
      rw [UInt32.add_comm, UInt32.add_sub_cancel]
    rw [memset, offset, if_pos inside]
  rw [copyLoop, folds, @foldl_overwrite mem _ _ _ _ _ _ apart stageable, overwriteAll_apply, cleared,
    ready.vmBase, imageByte]
  · congr 1
    funext c load
    have place : arena + (v - r.minVmaddr) - stagedAt arena r.minVmaddr load = v - load.vmaddr := by
      rw [stagedAt]
      grind
    rw [stagedByte, place]
    congr 1
    rw [Stages, place]
  · intro a inside
    exact if_neg (ready.apart a inside)

theorem marker_contained_iff (none_ : (stageSpan artifact artifactSize arena r).failureMask = 0)
    (clear : (copyLoop mem artifact artifactSize arena r).1.failureMask = 0)
    (continues : Continues (stageSpan artifact artifactSize arena r) staging) {vmaddr : UInt32}
    {marker : List UInt8} (some_ : 0 < marker.length) :
    (∀ x ∈ verifyMarkerAccesses (copyLoop mem artifact artifactSize arena r).2 arena staging vmaddr
        marker, x.Contained artifact artifactSize arena) ↔
      ¬ RunsOff mem artifact r vmaddr marker := by
  have ready := stageSpan_ready none_
  obtain ⟨-, size⟩ := stageSpan_size none_
  have small : staging.arenaSize ≤ stagingArenaCap := continues.arenaSize ▸ ready.room
  have based : staging.vmBase = r.minVmaddr := continues.vmBase.trans ready.vmBase
  rw [verifyMarkerAccesses_contained_iff some_ small, based, continues.arenaSize, size]
  apply not_congr
  have byte (base : r.minVmaddr.toNat ≤ vmaddr.toNat) {i : Nat}
      (inside : i < stagingArenaCap.toNat - (vmaddr.toNat - r.minVmaddr.toNat)) :
      (copyLoop mem artifact artifactSize arena r).2
          (arena + (vmaddr - r.minVmaddr) + UInt32.ofNat i) =
        imageByte mem artifact r.loadPlan.entries (vmaddr + UInt32.ofNat i) := by
    have cap : stagingArenaCap.toNat = 65536 := rfl
    have wide : i < UInt32.size :=
      Nat.lt_of_lt_of_le inside (Nat.le_trans (Nat.sub_le _ _) (by decide))
    have step : (UInt32.ofNat i).toNat = i := UInt32.toNat_ofNat_of_lt' wide
    have offset := UInt32.toNat_sub_of_le _ _ (UInt32.le_iff_toNat_le.mpr base)
    have place : arena + (vmaddr - r.minVmaddr) + UInt32.ofNat i =
        arena + (vmaddr + UInt32.ofNat i - r.minVmaddr) := by grind
    have shift : vmaddr + UInt32.ofNat i - r.minVmaddr =
        vmaddr - r.minVmaddr + UInt32.ofNat i := by grind
    rw [place]
    apply copied_imageByte none_ clear
    rw [shift, UInt32.lt_iff_toNat_lt, toNat_add_of_lt (by omega), offset, step]
    omega
  constructor
  · intro ⟨base, inside, short, same⟩
    exact ⟨base, inside, short, fun i near => (byte base near).symm.trans (same i near)⟩
  · intro ⟨base, inside, short, same⟩
    exact ⟨base, inside, short, fun i near => (byte base near).trans (same i near)⟩

/-! ## The whole call -/

theorem stageAllAccesses_contained_iff
    (none_ : (stageSpan artifact artifactSize arena r).failureMask = 0)
    (few : r.loadPlan.entries.length ≤ loadPlanMax)
    (ranges : ∀ load ∈ r.loadPlan.entries, EntryRange artifactSize r load) :
    (∀ x ∈ stageAllAccesses (memset mem arena 0 stagingArenaCap) artifact artifactSize arena r
        (stageSpan artifact artifactSize arena r), x.Contained artifact artifactSize arena) ↔
      (Copies artifact artifactSize arena r → MarkersEnd mem artifact r) := by
  have ready := stageSpan_ready none_
  have empty := stageSpan_entries none_
  have fresh : EntriesFit (stageSpan artifact artifactSize arena r) := by
    intro entry there
    rw [empty] at there
    exact absurd there List.not_mem_nil
  have fits : (stageSpan artifact artifactSize arena r).entries.length +
      r.loadPlan.entries.length ≤ stagingPlanMax := by
    rw [empty]
    exact (Nat.zero_add _).trans_le few
  obtain ⟨fit, continues⟩ : EntriesFit (copyLoop mem artifact artifactSize arena r).1 ∧
      Continues (stageSpan artifact artifactSize arena r)
        (copyLoop mem artifact artifactSize arena r).1 := stageEntries_keeps fresh
  have copied := @stageEntriesAccesses_contained (memset mem arena 0 stagingArenaCap) artifact
    artifactSize arena _ r.loadPlan.entries fresh ready.room
  have small := continues.arenaSize ▸ ready.room
  have complete (stageable : ∀ load ∈ r.loadPlan.entries,
      Stageable artifactSize (stageSpan artifact artifactSize arena r) load) :
      (copyLoop mem artifact artifactSize arena r).1.failureMask = 0 ∧
        (copyLoop mem artifact artifactSize arena r).1.entries.length =
          r.loadPlan.entries.length := by
    obtain ⟨clear, length⟩ := @stageEntries_complete (memset mem arena 0 stagingArenaCap) artifact
      artifactSize arena _ r.loadPlan.entries stageable fits
    rw [empty, List.length_nil, Nat.zero_add] at length
    exact ⟨clear.trans none_, length⟩
  rw [stageAllAccesses]
  dsimp only
  rw [List.forall_mem_append, ← copyLoop]
  by_cases clear : (copyLoop mem artifact artifactSize arena r).1.failureMask = 0
  · obtain ⟨-, stageable, -⟩ := stageEntries_clear ready.used_apart clear
    have copies : Copies artifact artifactSize arena r :=
      ⟨none_, fun load there => UInt32.le_iff_toNat_le.mpr (stageable load there).content⟩
    rw [if_neg (not_not.mpr (complete stageable).2), if_pos clear,
      verifyStagedAccesses_contained_iff fit small,
      marker_contained_iff none_ clear continues (by decide),
      marker_contained_iff none_ clear continues (by decide),
      marker_contained_iff none_ clear continues (by decide)]
    constructor
    · intro ⟨_, text, data, prelinkText⟩ _
      exact ⟨text, data, prelinkText⟩
    · intro ends
      obtain ⟨text, data, prelinkText⟩ := ends copies
      exact ⟨copied, text, data, prelinkText⟩
  · have refused : ¬ Copies artifact artifactSize arena r :=
      fun copies => clear (complete (copies_stageable copies ranges)).1
    refine ⟨fun _ copies => absurd copies refused, fun _ => ⟨copied, ?_⟩⟩
    rw [if_neg fun none_' => clear (stage_failIf_clear (by decide) none_').1]
    exact none_contained

/-- The probe and the staging stay in their buffers exactly if no marker's comparison runs off the
end of the arena. -/
theorem staging_inside_iff (mem : Mem) (artifact artifactSize arena : UInt32) :
    StaysInside mem artifact artifactSize arena ↔
      ((stage90MachoProbe mem artifact artifactSize).1 = true →
        Copies artifact artifactSize arena (stage90MachoProbe mem artifact artifactSize).2 →
          MarkersEnd mem artifact (stage90MachoProbe mem artifact artifactSize).2) := by
  have probe := probeReads_within mem artifact artifactSize
  rw [StaysInside, and_iff_right probe]
  apply imp_congr_right
  intro ok
  obtain ⟨few, ranges⟩ := probe_ranges ok
  generalize (stage90MachoProbe mem artifact artifactSize).2 = r at *
  have clears : (StagingAccess.mk .arena ⟨.write, arena, stagingArenaCap.toNat⟩).Contained artifact
      artifactSize arena :=
    within_of_endsBy ⟨0, (UInt32.add_zero arena).symm, Nat.le_of_eq (Nat.zero_add _)⟩
  rw [materializeAccesses, List.forall_mem_cons, and_iff_right clears]
  by_cases refused : (stageSpan artifact artifactSize arena r).failureMask ≠ 0
  · rw [if_pos refused]
    exact ⟨fun _ copies => absurd copies.span refused, fun _ => none_contained⟩
  · rw [if_neg refused]
    exact stageAllAccesses_contained_iff (not_ne_iff.mp refused) few ranges

end

/-! ## An image that fills the arena -/

/-- `__DATA` is the last word of the 64 KiB from `0x80001000` on, and its section is the last byte,
the first letter of the marker. -/
def fullImage : List UInt32 :=
  [MachO.mhMagic, cpuTypeArm, cpuSubtypeArmV7, filetypeExecute, 4, 312, 0] ++
    segmentWords 124 textWords 0x80001000 344 0 344 1 ++
      sectionWords sectTextWords textWords 0x80001154 4 340 ++
    segmentWords 124 dataWords 0x80010ffc 4 340 4 1 ++
      sectionWords sectConstWords dataWords 0x80010fff 1 343 ++
    segmentWords 56 linkeditWords 0x80001000 0 0 0 0 ++
    [lcMain, 8, 0x53000000]

def fullImageProbe : Bool × Result :=
  stage90MachoProbe (ofWords smallImageBase fullImage) smallImageBase 344

/-- The probe accepts it, and the comparison of the second marker reads the byte behind the arena. -/
theorem fullImage_runs_off :
    fullImageProbe.1 = true ∧
      ¬ StaysInside (ofWords smallImageBase fullImage) smallImageBase 344 0x200000 := by
  have reads : fullImageProbe.1 = true ∧
      ∃ x ∈ materializeAccesses (ofWords smallImageBase fullImage) smallImageBase 344 0x200000
          fullImageProbe.2,
        x.buffer = .arena ∧ x.access.start = 0x20ffff ∧ x.access.size = 2 := by
    decide +kernel
  obtain ⟨ok, x, there, buffer, start, size⟩ := reads
  refine ⟨ok, ?_⟩
  intro stays
  have contained := stays.2 ok x there
  rw [StagingAccess.Contained, buffer] at contained
  have covers : x.access.Covers 0x210000 := by
    rw [Access.Covers, start, size]
    decide
  exact absurd (contained 0x210000 covers) (by decide)

end Stage90.Probe

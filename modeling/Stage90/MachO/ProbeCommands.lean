import Mathlib.Data.List.Induction
import Stage90.MachO.ProbeSteps

/-!
# The commands of an artifact

One command after another: which ones fail, and what is recorded when none does.  Then the loop
over them.
-/

set_option autoImplicit false

namespace Stage90.Probe

open Stage90.Lib
open Stage90.MachO (mhMagic lcSegment lcUnixThread)

variable {mem : Mem} {bytes o : UInt32} {r : Result}

/-! ## One command -/

theorem fail_ne_zero {bits : UInt32} (some_ : bits ≠ 0) : (r.fail bits).failureMask ≠ 0 := by
  intro none_
  exact some_ (UInt32.or_eq_zero_iff.mp none_).2

theorem failIf_eq_zero {c : Prop} [Decidable c] {bits : UInt32} (some_ : bits ≠ 0) :
    (if c then r.fail bits else r).failureMask = 0 ↔ r.failureMask = 0 ∧ ¬ c := by
  have failure := congrArg Core.failureMask (failIf_core r c bits)
  dsimp only [Result.core] at failure
  rw [failure, UInt32.or_eq_zero_iff, ite_fault_eq_zero some_]

theorem parseSegmentSections_eq_zero
    (range : (segmentOf mem bytes o).vmaddr.toNat + (segmentOf mem bytes o).vmsize.toNat < 2 ^ 32) :
    (parseSegmentSections mem bytes o (segmentOf mem bytes o) r).failureMask = 0 ↔
      r.failureMask = 0 ∧
        56 + 68 * (segmentOf mem bytes o).nsects.toNat ≤ (cmdsizeAt mem bytes o).toNat ∧
          ∀ sect ∈ sectionsOf mem bytes o,
            SectionFits r.artifactSize.toNat (segmentOf mem bytes o) sect := by
  by_cases room : 56 + 68 * (segmentOf mem bytes o).nsects.toNat ≤ (cmdsizeAt mem bytes o).toNat
  · have failure := congrArg Core.failureMask
      (foldl_recordSection_core (segmentOf mem bytes o) (sectionsOf mem bytes o) r)
    dsimp only [Result.core] at failure
    rw [parseSegmentSections_room room, failure, UInt32.or_eq_zero_iff, orAll_eq_zero_iff,
      List.forall_mem_map]
    simp only [sectionFaults_eq_zero range, room, true_and]
  · rw [parseSegmentSections_cramped room]
    constructor
    · exact fun none_ => absurd none_ (fail_ne_zero (by decide))
    · exact fun all => absurd all.2.1 room

theorem parseSegmentSections_failed (failed : r.failureMask ≠ 0) :
    (parseSegmentSections mem bytes o (segmentOf mem bytes o) r).failureMask ≠ 0 := by
  by_cases room : 56 + 68 * (segmentOf mem bytes o).nsects.toNat ≤ (cmdsizeAt mem bytes o).toNat
  · have failure := congrArg Core.failureMask
      (foldl_recordSection_core (segmentOf mem bytes o) (sectionsOf mem bytes o) r)
    dsimp only [Result.core] at failure
    rw [parseSegmentSections_room room, failure]
    exact fun none_ => failed (UInt32.or_eq_zero_iff.mp none_).1
  · rw [parseSegmentSections_cramped room]
    exact fail_ne_zero (by decide)

/-- The result when the loop has counted a command, and a segment command among them. -/
def counted (r : Result) : Result := { r with loadCommandCountSeen := r.loadCommandCountSeen + 1 }

def seenSegment (r : Result) : Result :=
  { counted r with loadCommandSeenMask := r.loadCommandSeenMask ||| cmdSegment }

theorem recordCommand_segment (command : cmdAt mem bytes o = lcSegment) :
    recordCommand mem bytes r o =
      if cmdsizeAt mem bytes o < segmentCommandSize then (counted r).fail failCommandSize
      else parseSegmentSections mem bytes o (segmentOf mem bytes o)
        (recordSegment (seenSegment r) (segmentOf mem bytes o)) := by
  rw [recordCommand]
  exact if_pos command

def HasEntry (plan : LoadPlan) (segment : SegmentCommand) : Prop :=
  segment.vmsize ≠ 0 → plan.entries.length < 8

theorem recordCommand_segment_eq_zero (command : cmdAt mem bytes o = lcSegment) :
    (recordCommand mem bytes r o).failureMask = 0 ↔
      r.failureMask = 0 ∧ SegmentFits mem bytes r.artifactSize.toNat o ∧
        HasEntry r.loadPlan (segmentOf mem bytes o) := by
  have head : segmentCommandSize.toNat = 56 := rfl
  rw [recordCommand_segment command]
  by_cases short : cmdsizeAt mem bytes o < segmentCommandSize
  · rw [if_pos short]
    rw [UInt32.lt_iff_toNat_lt, head] at short
    constructor
    · exact fun none_ => absurd none_ (fail_ne_zero (by decide))
    · intro ⟨_, fits, _⟩
      have room := fits.room
      omega
  · rw [if_neg short]
    by_cases range : (segmentOf mem bytes o).vmaddr.toNat + (segmentOf mem bytes o).vmsize.toNat <
        2 ^ 32
    · have core := @recordSegment_core (seenSegment r) (segmentOf mem bytes o) range
      have failure := congrArg Core.failureMask core
      have size := congrArg Core.artifactSize core
      dsimp only [Result.core] at failure size
      have extent : failSegmentExtent ≠ 0 := by decide
      have full : failLoadPlanFull ≠ 0 := by decide
      rw [parseSegmentSections_eq_zero range, failure, size, UInt32.or_eq_zero_iff,
        UInt32.or_eq_zero_iff, ite_fault_eq_zero extent, ite_fault_eq_zero full, checked_le_iff,
        not_and, Nat.not_le]
      constructor
      · intro ⟨⟨⟨none_, file⟩, entry⟩, room, sects⟩
        exact ⟨none_, ⟨room, range, file, sects⟩, entry⟩
      · intro ⟨none_, fits, entry⟩
        exact ⟨⟨⟨none_, fits.file⟩, entry⟩, fits.room, fits.sections⟩
    · constructor
      · exact fun none_ => absurd none_ (parseSegmentSections_failed (recordSegment_over range))
      · exact fun all => absurd all.2.1.range range

theorem recordCommand_symtab_core (command : cmdAt mem bytes o = lcSymtab) :
    (recordCommand mem bytes r o).core =
      { r.core with
        loadCommandCountSeen := r.loadCommandCountSeen + 1
        failureMask := r.failureMask |||
          if symtabCommandSize ≤ cmdsizeAt mem bytes o ∧
              (addOverflowU32 (stroffAt mem bytes o) (strsizeAt mem bytes o) ∨
                r.artifactSize < stroffAt mem bytes o + strsizeAt mem bytes o) then
            failSegmentExtent
          else 0 } := by
  have other : ¬ cmdAt mem bytes o = lcSegment := by
    rw [command]
    decide
  rw [recordCommand]
  refine (congrArg Result.core ((if_neg other).trans (if_pos command))).trans ?_
  by_cases large : symtabCommandSize ≤ cmdsizeAt mem bytes o
  · refine (congrArg Result.core (if_pos large)).trans ?_
    rw [failIf_core]
    simp only [large, true_and]
    rfl
  · refine (congrArg Result.core (if_neg large)).trans ?_
    rw [if_neg fun both => large both.1, UInt32.or_zero]
    rfl

def entryBits (mem : Mem) (bytes o : UInt32) : UInt32 :=
  if cmdAt mem bytes o = lcUnixThread then entryUnixthread
  else if cmdAt mem bytes o = lcMain then entryMain else 0

theorem recordCommand_other_core (segment : cmdAt mem bytes o ≠ lcSegment)
    (symtab : cmdAt mem bytes o ≠ lcSymtab) :
    (recordCommand mem bytes r o).core =
      { r.core with
        loadCommandCountSeen := r.loadCommandCountSeen + 1
        entryKindMask := r.entryKindMask ||| entryBits mem bytes o } := by
  rw [recordCommand, entryBits]
  refine (congrArg Result.core ((if_neg segment).trans (if_neg symtab))).trans ?_
  by_cases thread : cmdAt mem bytes o = lcUnixThread
  · rw [if_pos thread]
    refine (congrArg Result.core (if_pos thread)).trans ?_
    dsimp only
    split
    · rfl
    · rfl
  · rw [if_neg thread]
    refine (congrArg Result.core (if_neg thread)).trans ?_
    by_cases main : cmdAt mem bytes o = lcMain
    · rw [if_pos main]
      exact congrArg Result.core (if_pos main)
    · rw [if_neg main, UInt32.or_zero]
      exact congrArg Result.core (if_neg main)

theorem recordCommand_eq_zero :
    (recordCommand mem bytes r o).failureMask = 0 ↔
      r.failureMask = 0 ∧ CommandFits mem bytes r.artifactSize.toNat o ∧
        (cmdAt mem bytes o = lcSegment → HasEntry r.loadPlan (segmentOf mem bytes o)) := by
  by_cases segment : cmdAt mem bytes o = lcSegment
  · have other : ¬ cmdAt mem bytes o = lcSymtab := by
      rw [segment]
      decide
    rw [recordCommand_segment_eq_zero segment]
    constructor
    · intro ⟨none_, fits, entry⟩
      exact ⟨none_, ⟨fun _ => fits, fun symtab => absurd symtab other⟩, fun _ => entry⟩
    · intro ⟨none_, fits, entry⟩
      exact ⟨none_, fits.segment segment, entry segment⟩
  · by_cases symtab : cmdAt mem bytes o = lcSymtab
    · have failure := congrArg Core.failureMask (@recordCommand_symtab_core mem bytes o r symtab)
      dsimp only [Result.core] at failure
      have extent : failSegmentExtent ≠ 0 := by decide
      have large : symtabCommandSize.toNat = 24 := rfl
      rw [failure, UInt32.or_eq_zero_iff, ite_fault_eq_zero extent, not_and, checked_le_iff,
        UInt32.le_iff_toNat_le, large]
      constructor
      · intro ⟨none_, file⟩
        exact ⟨none_, ⟨fun is => absurd is segment, fun _ => file⟩, fun is => absurd is segment⟩
      · intro ⟨none_, fits, _⟩
        exact ⟨none_, fits.symtab symtab⟩
    · have failure := congrArg Core.failureMask (@recordCommand_other_core mem bytes o r segment symtab)
      dsimp only [Result.core] at failure
      rw [failure]
      constructor
      · intro none_
        exact ⟨none_, ⟨fun is => absurd is segment, fun is => absurd is symtab⟩,
          fun is => absurd is segment⟩
      · exact fun all => all.1

theorem recordCommand_segment_core (command : cmdAt mem bytes o = lcSegment)
    (fits : SegmentFits mem bytes r.artifactSize.toNat o) :
    (recordCommand mem bytes r o).core =
      { r.core with
        failureMask := (recordCommand mem bytes r o).failureMask
        loadCommandCountSeen := r.loadCommandCountSeen + 1
        validationMask := r.validationMask ||| validSegmentCommand
        segmentCount := r.segmentCount + 1
        segmentSeenMask :=
          r.segmentSeenMask ||| segmentMaskForName (segmentOf mem bytes o).segname
        sectionSeenMask :=
          r.sectionSeenMask ||| orAll ((sectionsOf mem bytes o).map sectionBit)
        minVmaddr :=
          if r.segmentCount + 1 = 1 ∨ (segmentOf mem bytes o).vmaddr < r.minVmaddr then
            (segmentOf mem bytes o).vmaddr
          else r.minVmaddr
        maxVmaddr :=
          if r.maxVmaddr < (segmentOf mem bytes o).vmaddr + (segmentOf mem bytes o).vmsize then
            (segmentOf mem bytes o).vmaddr + (segmentOf mem bytes o).vmsize
          else r.maxVmaddr
        loadPlan := extended r.loadPlan (segmentOf mem bytes o) } := by
  have head : segmentCommandSize.toNat = 56 := rfl
  have long : ¬ cmdsizeAt mem bytes o < segmentCommandSize := by
    have room := fits.room
    rw [UInt32.lt_iff_toNat_lt, head]
    omega
  rw [recordCommand_segment command, if_neg long, parseSegmentSections_room fits.room,
    foldl_recordSection_core, recordSegment_core fits.range]
  have core := congrArg Core.sectionSeenMask
    (@recordSegment_core (seenSegment r) (segmentOf mem bytes o) fits.range)
  dsimp only [Result.core] at core
  rw [core]
  have failure := congrArg Core.failureMask (foldl_recordSection_core (segmentOf mem bytes o)
    (sectionsOf mem bytes o) (recordSegment (seenSegment r) (segmentOf mem bytes o)))
  dsimp only [Result.core] at failure
  rw [failure]
  rfl

theorem recordCommand_plain_core (segment : cmdAt mem bytes o ≠ lcSegment) :
    (recordCommand mem bytes r o).core =
      { r.core with
        failureMask := (recordCommand mem bytes r o).failureMask
        loadCommandCountSeen := r.loadCommandCountSeen + 1
        entryKindMask := r.entryKindMask ||| entryBits mem bytes o } := by
  by_cases symtab : cmdAt mem bytes o = lcSymtab
  · have core := @recordCommand_symtab_core mem bytes o r symtab
    have failure := congrArg Core.failureMask core
    dsimp only [Result.core] at failure
    have thread : ¬ cmdAt mem bytes o = lcUnixThread := by
      rw [symtab]
      decide
    have main : ¬ cmdAt mem bytes o = lcMain := by
      rw [symtab]
      decide
    rw [core, failure, entryBits, if_neg thread, if_neg main, UInt32.or_zero]
    rfl
  · have core := @recordCommand_other_core mem bytes o r segment symtab
    have failure := congrArg Core.failureMask core
    dsimp only [Result.core] at failure
    rw [core, failure]
    rfl

/-! ## All commands -/

def unplaced (index : Nat) (segment : SegmentCommand) : LoadPlanEntry where
  index := UInt32.ofNat index
  segmentMask := segmentMaskForName segment.segname
  vmaddr := segment.vmaddr
  vmsize := segment.vmsize
  fileoff := segment.fileoff
  filesize := segment.filesize
  physaddr := 0
  physsize := 0
  flags := loadPlanFlags segment (segmentMaskForName segment.segname)

/-- What has been recorded of a list of commands none of which has failed. -/
structure Recorded (mem : Mem) (bytes : UInt32) (r₀ : Result) (commands : List UInt32) (r : Result) :
    Prop where
  size : r.artifactSize = r₀.artifactSize
  header : r.header = r₀.header
  count : r.loadCommandCountSeen = UInt32.ofNat commands.length
  entryKind : r.entryKindMask = r₀.entryKindMask ||| orAll (commands.map (entryBits mem bytes))
  segmentCount : r.segmentCount = UInt32.ofNat (segments mem bytes commands).length
  segmentSeen : r.segmentSeenMask =
    orAll ((segments mem bytes commands).map fun s => segmentMaskForName s.segname)
  sectionSeen : r.sectionSeenMask =
    orAll (((segmentOffsets mem bytes commands).flatMap (sectionsOf mem bytes)).map sectionBit)
  valid : r.validationMask = r₀.validationMask |||
    if segments mem bytes commands = [] then 0 else validSegmentCommand
  least : segments mem bytes commands ≠ [] →
    (∃ s ∈ segments mem bytes commands, s.vmaddr = r.minVmaddr) ∧
      ∀ s ∈ segments mem bytes commands, r.minVmaddr ≤ s.vmaddr
  greatest : ∀ s ∈ segments mem bytes commands,
    s.vmaddr.toNat + s.vmsize.toNat ≤ r.maxVmaddr.toNat
  plan : r.loadPlan =
    { r₀.loadPlan with entries := (loaded (segments mem bytes commands)).mapIdx unplaced }

theorem segments_concat_plain {commands : List UInt32} (plain : cmdAt mem bytes o ≠ lcSegment) :
    segmentOffsets mem bytes (commands ++ [o]) = segmentOffsets mem bytes commands := by
  simp [segmentOffsets, plain]

theorem segments_concat_segment {commands : List UInt32} (command : cmdAt mem bytes o = lcSegment) :
    segmentOffsets mem bytes (commands ++ [o]) = segmentOffsets mem bytes commands ++ [o] := by
  simp [segmentOffsets, command]

theorem recorded_plain {r₀ : Result} {commands : List UInt32}
    (recorded : Recorded mem bytes r₀ commands r) (plain : cmdAt mem bytes o ≠ lcSegment) :
    Recorded mem bytes r₀ (commands ++ [o]) (recordCommand mem bytes r o) := by
  have core := @recordCommand_plain_core mem bytes o r plain
  have same := @segments_concat_plain mem bytes o commands plain
  have sames : segments mem bytes (commands ++ [o]) = segments mem bytes commands := by
    rw [segments, same, segments]
  constructor
  · exact (congrArg Core.artifactSize core).trans recorded.size
  · exact (congrArg Core.header core).trans recorded.header
  · rw [List.length_append, List.length_singleton, UInt32.ofNat_add, UInt32.ofNat_one,
      ← recorded.count]
    exact congrArg Core.loadCommandCountSeen core
  · rw [List.map_append, List.map_singleton, orAll_concat, ← UInt32.or_assoc, ← recorded.entryKind]
    exact congrArg Core.entryKindMask core
  · rw [sames]
    exact (congrArg Core.segmentCount core).trans recorded.segmentCount
  · rw [sames]
    exact (congrArg Core.segmentSeenMask core).trans recorded.segmentSeen
  · rw [same]
    exact (congrArg Core.sectionSeenMask core).trans recorded.sectionSeen
  · rw [sames]
    exact (congrArg Core.validationMask core).trans recorded.valid
  · have min : (recordCommand mem bytes r o).minVmaddr = r.minVmaddr := congrArg Core.minVmaddr core
    rw [sames, min]
    exact recorded.least
  · have max : (recordCommand mem bytes r o).maxVmaddr = r.maxVmaddr := congrArg Core.maxVmaddr core
    rw [sames, max]
    exact recorded.greatest
  · rw [sames]
    exact (congrArg Core.loadPlan core).trans recorded.plan

theorem loaded_concat (segs : List SegmentCommand) (segment : SegmentCommand) :
    loaded (segs ++ [segment]) =
      if segment.vmsize = 0 then loaded segs else loaded segs ++ [segment] := by
  by_cases empty : segment.vmsize = 0
  · simp [loaded, empty]
  · simp [loaded, empty]

theorem recorded_segment {r₀ : Result} {commands : List UInt32}
    (recorded : Recorded mem bytes r₀ commands r) (command : cmdAt mem bytes o = lcSegment)
    (fits : SegmentFits mem bytes r.artifactSize.toNat o)
    (entry : HasEntry r.loadPlan (segmentOf mem bytes o))
    (few : (segments mem bytes commands).length + 1 < 2 ^ 32) :
    Recorded mem bytes r₀ (commands ++ [o]) (recordCommand mem bytes r o) := by
  have core := @recordCommand_segment_core mem bytes o r command fits
  have next := @segments_concat_segment mem bytes o commands command
  have nexts : segments mem bytes (commands ++ [o]) =
      segments mem bytes commands ++ [segmentOf mem bytes o] := by
    rw [segments, next, List.map_append, List.map_singleton, segments]
  have none_ : entryBits mem bytes o = 0 := by
    rw [entryBits, command, if_neg (by decide), if_neg (by decide)]
  have first : r.segmentCount + 1 = 1 ↔ segments mem bytes commands = [] := by
    have small : (segments mem bytes commands).length < 2 ^ 32 := by omega
    rw [recorded.segmentCount, ← UInt32.toNat_inj, UInt32.toNat_add,
      UInt32.toNat_ofNat_of_lt' small, UInt32.toNat_one, Nat.mod_eq_of_lt few,
      ← List.length_eq_zero_iff]
    omega
  constructor
  · exact (congrArg Core.artifactSize core).trans recorded.size
  · exact (congrArg Core.header core).trans recorded.header
  · rw [List.length_append, List.length_singleton, UInt32.ofNat_add, UInt32.ofNat_one,
      ← recorded.count]
    exact congrArg Core.loadCommandCountSeen core
  · rw [List.map_append, List.map_singleton, orAll_concat, none_, UInt32.or_zero,
      ← recorded.entryKind]
    exact congrArg Core.entryKindMask core
  · rw [nexts, List.length_append, List.length_singleton, UInt32.ofNat_add, UInt32.ofNat_one,
      ← recorded.segmentCount]
    exact congrArg Core.segmentCount core
  · rw [nexts, List.map_append, List.map_singleton, orAll_concat, ← recorded.segmentSeen]
    exact congrArg Core.segmentSeenMask core
  · rw [next, List.flatMap_append, List.flatMap_singleton, List.map_append, orAll_append,
      ← recorded.sectionSeen]
    exact congrArg Core.sectionSeenMask core
  · have valid : (recordCommand mem bytes r o).validationMask =
        r.validationMask ||| validSegmentCommand := congrArg Core.validationMask core
    have some_ : segments mem bytes (commands ++ [o]) ≠ [] := by
      rw [nexts]
      exact List.append_ne_nil_of_right_ne_nil _ (List.cons_ne_nil _ _)
    rw [valid, recorded.valid, if_neg some_, UInt32.or_assoc]
    congr 1
    split
    · exact UInt32.zero_or
    · exact UInt32.or_self
  · have min : (recordCommand mem bytes r o).minVmaddr =
        if r.segmentCount + 1 = 1 ∨ (segmentOf mem bytes o).vmaddr < r.minVmaddr then
          (segmentOf mem bytes o).vmaddr
        else r.minVmaddr := congrArg Core.minVmaddr core
    intro _
    rw [nexts, min]
    by_cases lower : r.segmentCount + 1 = 1 ∨ (segmentOf mem bytes o).vmaddr < r.minVmaddr
    · rw [if_pos lower]
      refine ⟨⟨_, List.mem_concat_self, rfl⟩, ?_⟩
      intro s there
      rcases List.mem_append.mp there with old | new
      · have below := (recorded.least (List.ne_nil_of_mem old)).2 s old
        rcases lower with alone | lower
        · rw [first.mp alone] at old
          exact absurd old List.not_mem_nil
        · exact UInt32.le_trans (UInt32.le_of_lt lower) below
      · rw [List.mem_singleton.mp new]
        exact UInt32.le_refl _
    · rw [if_neg lower]
      rw [not_or, first] at lower
      obtain ⟨⟨s, there, same⟩, below⟩ := recorded.least lower.1
      refine ⟨⟨s, List.mem_append_left _ there, same⟩, ?_⟩
      intro s there
      rcases List.mem_append.mp there with old | new
      · exact below s old
      · rw [List.mem_singleton.mp new]
        exact UInt32.not_lt.mp lower.2
  · have max : (recordCommand mem bytes r o).maxVmaddr =
        if r.maxVmaddr < (segmentOf mem bytes o).vmaddr + (segmentOf mem bytes o).vmsize then
          (segmentOf mem bytes o).vmaddr + (segmentOf mem bytes o).vmsize
        else r.maxVmaddr := congrArg Core.maxVmaddr core
    have sum := toNat_add_of_lt fits.range
    intro s there
    rw [nexts] at there
    rw [max]
    by_cases higher : r.maxVmaddr < (segmentOf mem bytes o).vmaddr + (segmentOf mem bytes o).vmsize
    · rw [if_pos higher, sum]
      rw [UInt32.lt_iff_toNat_lt, sum] at higher
      rcases List.mem_append.mp there with old | new
      · have within := recorded.greatest s old
        omega
      · rw [List.mem_singleton.mp new]
    · rw [if_neg higher]
      rw [UInt32.lt_iff_toNat_lt, sum] at higher
      rcases List.mem_append.mp there with old | new
      · exact recorded.greatest s old
      · rw [List.mem_singleton.mp new]
        omega
  · have plan : (recordCommand mem bytes r o).loadPlan = extended r.loadPlan (segmentOf mem bytes o) :=
      congrArg Core.loadPlan core
    rw [nexts, plan, extended, loaded_concat]
    by_cases empty : (segmentOf mem bytes o).vmsize = 0
    · rw [if_pos (Or.inl empty), if_pos empty]
      exact recorded.plan
    · have room : ¬ loadPlanMax ≤ r.loadPlan.entries.length := Nat.not_le.mpr (entry empty)
      rw [if_neg empty, if_neg (not_or.mpr ⟨empty, room⟩), List.mapIdx_concat,
        recorded.plan]
      have length : ((loaded (segments mem bytes commands)).mapIdx unplaced).length =
          (loaded (segments mem bytes commands)).length := List.length_mapIdx
      simp only [freshEntry, unplaced, LoadPlan.entryCount, length]

theorem recorded_entries {r₀ : Result} {commands : List UInt32}
    (recorded : Recorded mem bytes r₀ commands r) :
    r.loadPlan.entries.length = (loaded (segments mem bytes commands)).length := by
  rw [recorded.plan]
  exact List.length_mapIdx

theorem loaded_length_concat (commands : List UInt32) :
    (loaded (segments mem bytes (commands ++ [o]))).length ≤ 8 ↔
      (loaded (segments mem bytes commands)).length ≤ 8 ∧
        (cmdAt mem bytes o = lcSegment → (segmentOf mem bytes o).vmsize ≠ 0 →
          (loaded (segments mem bytes commands)).length < 8) := by
  by_cases command : cmdAt mem bytes o = lcSegment
  · have nexts : segments mem bytes (commands ++ [o]) =
        segments mem bytes commands ++ [segmentOf mem bytes o] := by
      rw [segments, segments_concat_segment command, List.map_append, List.map_singleton, segments]
    rw [nexts, loaded_concat]
    by_cases empty : (segmentOf mem bytes o).vmsize = 0
    · rw [if_pos empty]
      exact ⟨fun few => ⟨few, fun _ some_ => absurd empty some_⟩, fun both => both.1⟩
    · rw [if_neg empty, List.length_append, List.length_singleton]
      constructor
      · exact fun few => ⟨Nat.le_of_succ_le few, fun _ _ => few⟩
      · exact fun both => both.2 command empty
  · have sames : segments mem bytes (commands ++ [o]) = segments mem bytes commands := by
      rw [segments, segments_concat_plain command, segments]
    rw [sames]
    exact ⟨fun few => ⟨few, fun is => absurd is command⟩, fun both => both.1⟩

theorem segments_length_le (commands : List UInt32) :
    (segments mem bytes commands).length ≤ commands.length := by
  rw [segments, List.length_map]
  exact List.length_filter_le _ _

theorem foldl_recordCommand {r₀ : Result} (fresh : Recorded mem bytes r₀ [] r₀)
    (none_ : r₀.failureMask = 0) (commands : List UInt32) (few : commands.length < 2 ^ 32) :
    ((commands.foldl (recordCommand mem bytes) r₀).failureMask = 0 ↔
        (∀ o ∈ commands, CommandFits mem bytes r₀.artifactSize.toNat o) ∧
          (loaded (segments mem bytes commands)).length ≤ 8) ∧
      ((commands.foldl (recordCommand mem bytes) r₀).failureMask = 0 →
        Recorded mem bytes r₀ commands (commands.foldl (recordCommand mem bytes) r₀)) := by
  induction commands using List.reverseRecOn with
  | nil =>
      refine ⟨⟨fun _ => ⟨fun o there => absurd there List.not_mem_nil, Nat.zero_le 8⟩,
        fun _ => none_⟩, fun _ => fresh⟩
  | append_singleton commands o ih =>
      rw [List.length_append, List.length_singleton] at few
      obtain ⟨outcome, records⟩ := ih (by omega)
      have room : (segments mem bytes commands).length + 1 < 2 ^ 32 := by
        have less := @segments_length_le mem bytes commands
        omega
      rw [List.foldl_append, List.foldl_cons, List.foldl_nil, recordCommand_eq_zero]
      constructor
      · rw [loaded_length_concat]
        simp only [List.forall_mem_append, List.forall_mem_singleton]
        constructor
        · intro ⟨before, fits, entry⟩
          have recorded := records before
          have all := outcome.mp before
          rw [recorded.size] at fits
          refine ⟨⟨all.1, fits⟩, all.2, ?_⟩
          intro command some_
          rw [← recorded_entries recorded]
          exact entry command some_
        · intro ⟨⟨fits, fit⟩, few', entry⟩
          have before := outcome.mpr ⟨fits, few'⟩
          have recorded := records before
          rw [recorded.size]
          refine ⟨before, fit, ?_⟩
          intro command some_
          rw [recorded_entries recorded]
          exact entry command some_
      · intro ⟨before, fits, entry⟩
        have recorded := records before
        by_cases command : cmdAt mem bytes o = lcSegment
        · exact recorded_segment recorded command (fits.segment command) (entry command) room
        · exact recorded_plain recorded command

/-! ## The command loop -/

theorem and_three_eq_zero_iff {n : UInt32} : n &&& 3 = 0 ↔ 4 ∣ n.toNat := by
  have three : (3 : UInt32).toNat = 2 ^ 2 - 1 := rfl
  rw [← UInt32.toNat_inj, UInt32.toNat_and, three, Nat.and_two_pow_sub_one_eq_mod, UInt32.toNat_zero]
  exact (Nat.dvd_iff_mod_eq_zero).symm

theorem tiles_le {stop start : Nat} {commands : List UInt32}
    (tiles : Tiles mem bytes stop start commands) : start ≤ stop := by
  induction commands generalizing start with
  | nil => exact Nat.le_of_eq tiles
  | cons o rest ih => exact Nat.le_trans (Nat.le_add_right _ _) (ih tiles.2.2.2)

theorem tiles_length {stop start : Nat} {commands : List UInt32}
    (tiles : Tiles mem bytes stop start commands) : start + 8 * commands.length ≤ stop := by
  induction commands generalizing start with
  | nil => exact Nat.le_of_eq tiles
  | cons o rest ih =>
      have behind := ih tiles.2.2.2
      have size := tiles.2.1
      rw [List.length_cons]
      omega

theorem commandLoop_succ (stop : UInt32) (left : Nat) (offset : UInt32) (r : Result) :
    commandLoop mem bytes stop (left + 1) offset r =
      if offset < stop then
        if stop - offset < loadCommandSize then (offset, r.fail failCommandBounds)
        else if cmdsizeAt mem bytes offset < loadCommandSize ∨ cmdsizeAt mem bytes offset &&& 3 ≠ 0 ∨
            addOverflowU32 offset (cmdsizeAt mem bytes offset) = true ∨
              stop < offset + cmdsizeAt mem bytes offset then
          (offset, r.fail failCommandSize)
        else
          commandLoop mem bytes stop left (offset + cmdsizeAt mem bytes offset)
            (recordCommand mem bytes r offset)
      else (offset, r) := rfl

theorem command_bounds {stop offset cmdsize : UInt32} :
    ¬ (cmdsize < loadCommandSize ∨ cmdsize &&& 3 ≠ 0 ∨ addOverflowU32 offset cmdsize = true ∨
        stop < offset + cmdsize) ↔
      8 ≤ cmdsize.toNat ∧ 4 ∣ cmdsize.toNat ∧ offset.toNat + cmdsize.toNat ≤ stop.toNat := by
  have eight : loadCommandSize.toNat = 8 := rfl
  rw [not_or, not_or, not_ne_iff, and_three_eq_zero_iff, checked_le_iff, UInt32.lt_iff_toNat_lt,
    eight, Nat.not_lt]

/-- Through commands that tile the region, the loop gets to its end. -/
theorem commandLoop_tiles {stop : UInt32} {commands : List UInt32} :
    ∀ {left : Nat} {offset : UInt32} {r : Result},
      Tiles mem bytes stop.toNat offset.toNat commands → commands.length ≤ left →
        commandLoop mem bytes stop left offset r =
          (stop, commands.foldl (recordCommand mem bytes) r) := by
  induction commands with
  | nil =>
      intro left offset r tiles _
      have same : offset = stop := UInt32.toNat_inj.mp tiles
      rw [same]
      cases left with
      | zero => rfl
      | succ left => exact if_neg (UInt32.lt_irrefl stop)
  | cons o rest ih =>
      intro left offset r tiles within
      obtain ⟨here, size, words, behind⟩ := tiles
      have same : o = offset := UInt32.toNat_inj.mp here
      rw [same] at size words behind
      have ends := tiles_le behind
      have below := stop.toNat_lt
      have inside : offset < stop := by
        rw [UInt32.lt_iff_toNat_lt]
        omega
      have room : ¬ stop - offset < loadCommandSize := by
        have eight : loadCommandSize.toNat = 8 := rfl
        rw [UInt32.lt_iff_toNat_lt, UInt32.toNat_sub_of_le _ _ (UInt32.le_of_lt inside), eight]
        omega
      have next : (offset + cmdsizeAt mem bytes offset).toNat =
          offset.toNat + (cmdsizeAt mem bytes offset).toNat := toNat_add_of_lt (by omega)
      cases left with
      | zero => exact absurd within (Nat.not_succ_le_zero _)
      | succ left =>
          rw [commandLoop_succ, if_pos inside, if_neg room,
            if_neg (command_bounds.mpr ⟨size, words, ends⟩), List.foldl_cons, same]
          apply ih
          · rw [← next] at behind
            exact behind
          · exact Nat.le_of_succ_le_succ within

/-- If the loop gets to the end without a failure, the commands tile the region. -/
theorem commandLoop_sound {stop : UInt32} {left : Nat} :
    ∀ {offset : UInt32} {r : Result},
      (commandLoop mem bytes stop left offset r).1 = stop →
        (commandLoop mem bytes stop left offset r).2.failureMask = 0 →
          ∃ commands, Tiles mem bytes stop.toNat offset.toNat commands ∧ commands.length ≤ left ∧
            (commandLoop mem bytes stop left offset r).2 =
              commands.foldl (recordCommand mem bytes) r := by
  induction left with
  | zero => exact fun ends _ => ⟨[], congrArg UInt32.toNat ends, Nat.le_refl 0, rfl⟩
  | succ left ih =>
      intro offset r
      rw [commandLoop_succ]
      by_cases inside : offset < stop
      · rw [if_pos inside]
        by_cases room : stop - offset < loadCommandSize
        · rw [if_pos room]
          exact fun _ none_ => absurd none_ (fail_ne_zero (by decide))
        · rw [if_neg room]
          by_cases fails : cmdsizeAt mem bytes offset < loadCommandSize ∨
              cmdsizeAt mem bytes offset &&& 3 ≠ 0 ∨
                addOverflowU32 offset (cmdsizeAt mem bytes offset) = true ∨
                  stop < offset + cmdsizeAt mem bytes offset
          · rw [if_pos fails]
            exact fun _ none_ => absurd none_ (fail_ne_zero (by decide))
          · rw [if_neg fails]
            obtain ⟨size, words, ends⟩ := command_bounds.mp fails
            have below := stop.toNat_lt
            have next : (offset + cmdsizeAt mem bytes offset).toNat =
                offset.toNat + (cmdsizeAt mem bytes offset).toNat := toNat_add_of_lt (by omega)
            intro arrives none_
            obtain ⟨rest, tiles, within, folds⟩ := ih arrives none_
            rw [next] at tiles
            exact ⟨offset :: rest, ⟨rfl, size, words, tiles⟩, Nat.succ_le_succ within, folds⟩
      · rw [if_neg inside]
        exact fun ends _ => ⟨[], congrArg UInt32.toNat ends, Nat.zero_le _, rfl⟩

end Stage90.Probe

import Stage90.MachO.ProbeAccepts

/-!
# The probe against the grammar
-/

set_option autoImplicit false

namespace Stage90.Probe

open Stage90.Lib
open Stage90.MachO (lcSegment lcUnixThread)

variable {mem : Mem} {bytes o : UInt32} {r r₀ : Result} {commands : List UInt32}

/-! ## What the commands have to show -/

theorem segments_width {s : SegmentCommand} (there : s ∈ segments mem bytes commands) :
    s.segname.length = 16 := by
  obtain ⟨o, _, rfl⟩ := List.mem_map.mp there
  exact fixed16_length _ _

theorem sections_width {sect : Section} (there : sect ∈ sectionsOf mem bytes o) :
    sect.segname.length = 16 ∧ sect.sectname.length = 16 := by
  obtain ⟨j, _, rfl⟩ := List.mem_map.mp there
  exact ⟨fixed16_length _ _, fixed16_length _ _⟩

theorem bit_segmentSeen {name : List UInt8} {m : UInt32} {i : Nat}
    (there : (name, m) ∈ segmentNames) (has : bit m i = true)
    (only : (segmentNames.all fun test => !bit test.2 i || test.1 == name) = true) :
    bit (orAll ((segments mem bytes commands).map fun s => segmentMaskForName s.segname)) i = true ↔
      ∃ s ∈ segments mem bytes commands, Named s.segname name := by
  rw [bit_orAll]
  simp only [List.mem_map, exists_exists_and_eq_and]
  constructor
  · intro ⟨s, among, flag⟩
    exact ⟨s, among, (bit_segmentMaskForName (segments_width among) there has only).mp flag⟩
  · intro ⟨s, among, named⟩
    exact ⟨s, among, (bit_segmentMaskForName (segments_width among) there has only).mpr named⟩

theorem bit_sectionSeen {name : List UInt8 × List UInt8} {m : UInt32} {i : Nat}
    (there : (name, m) ∈ sectionNames) (has : bit m i = true)
    (only : (sectionNames.all fun test => !bit test.2 i || test.1 == name) = true) :
    bit (orAll (((segmentOffsets mem bytes commands).flatMap (sectionsOf mem bytes)).map
        sectionBit)) i = true ↔
      ∃ o ∈ segmentOffsets mem bytes commands, ∃ sect ∈ sectionsOf mem bytes o,
        Named sect.segname name.1 ∧ Named sect.sectname name.2 := by
  rw [bit_orAll]
  simp only [List.mem_map, List.mem_flatMap, exists_exists_and_eq_and]
  constructor
  · intro ⟨sect, ⟨o, among, within⟩, flag⟩
    have width := sections_width within
    exact ⟨o, among, sect, within, (bit_sectionBit width.1 width.2 there has only).mp flag⟩
  · intro ⟨o, among, sect, within, named⟩
    have width := sections_width within
    exact ⟨sect, ⟨o, among, within⟩, (bit_sectionBit width.1 width.2 there has only).mpr named⟩

theorem entryBits_meets :
    entryBits mem bytes o &&& (entryUnixthread ||| entryMain) ≠ 0 ↔
      cmdAt mem bytes o = lcUnixThread ∨ cmdAt mem bytes o = lcMain := by
  rw [entryBits]
  by_cases thread : cmdAt mem bytes o = lcUnixThread
  · rw [if_pos thread]
    exact ⟨fun _ => Or.inl thread, fun _ => by decide⟩
  · rw [if_neg thread]
    by_cases main : cmdAt mem bytes o = lcMain
    · rw [if_pos main]
      exact ⟨fun _ => Or.inr main, fun _ => by decide⟩
    · rw [if_neg main]
      exact ⟨fun some_ => absurd UInt32.zero_and some_, fun either => absurd either (not_or.mpr ⟨thread, main⟩)⟩

theorem entry_meets :
    (entryNotExecuted ||| orAll (commands.map (entryBits mem bytes))) &&&
        (entryUnixthread ||| entryMain) ≠ 0 ↔
      ∃ o ∈ commands, cmdAt mem bytes o = lcUnixThread ∨ cmdAt mem bytes o = lcMain := by
  have base : entryNotExecuted &&& (entryUnixthread ||| entryMain) = 0 := by decide
  rw [or_and, base, UInt32.zero_or, orAll_and, ne_eq, orAll_eq_zero_iff]
  simp only [List.mem_map, exists_exists_and_eq_and, forall_exists_index, and_imp,
    forall_apply_eq_imp_iff₂, not_forall]
  constructor
  · intro ⟨o, there, some_⟩
    exact ⟨o, there, entryBits_meets.mp some_⟩
  · intro ⟨o, there, either⟩
    exact ⟨o, there, entryBits_meets.mpr either⟩

structure Shows (mem : Mem) (bytes : UInt32) (commands : List UInt32) : Prop where
  required : ∀ name ∈ [textName, dataName, linkeditName],
    ∃ s ∈ segments mem bytes commands, Named s.segname name
  sections : ∀ name ∈ [(textName, sectTextName), (dataName, sectConstName)],
    ∃ o ∈ segmentOffsets mem bytes commands, ∃ sect ∈ sectionsOf mem bytes o,
      Named sect.segname name.1 ∧ Named sect.sectname name.2
  entry : ∃ o ∈ commands, cmdAt mem bytes o = lcUnixThread ∨ cmdAt mem bytes o = lcMain

theorem seen_iff (recorded : Recorded mem bytes r₀ commands r)
    (start : r₀.entryKindMask = entryNotExecuted) : Seen r ↔ Shows mem bytes commands := by
  have segs : r.segmentSeenMask &&& segRequired = segRequired ↔
      ∀ name ∈ [textName, dataName, linkeditName],
        ∃ s ∈ segments mem bytes commands, Named s.segname name := by
    rw [@covers_required _ segRequired 3 (by decide), recorded.segmentSeen]
    simp only [List.forall_mem_cons, List.not_mem_nil, false_imp_iff, implies_true, and_true]
    rw [← @bit_segmentSeen mem bytes commands textName segText 0 (by decide) (by decide) (by decide),
      ← @bit_segmentSeen mem bytes commands dataName segData 1 (by decide) (by decide) (by decide),
      ← @bit_segmentSeen mem bytes commands linkeditName segLinkedit 2 (by decide) (by decide)
        (by decide)]
    exact ⟨fun all => ⟨all 0 (by decide), all 1 (by decide), all 2 (by decide)⟩,
      fun all i below => match i, below with
        | 0, _ => all.1
        | 1, _ => all.2.1
        | 2, _ => all.2.2⟩
  have sects : r.sectionSeenMask &&& sectRequired = sectRequired ↔
      ∀ name ∈ [(textName, sectTextName), (dataName, sectConstName)],
        ∃ o ∈ segmentOffsets mem bytes commands, ∃ sect ∈ sectionsOf mem bytes o,
          Named sect.segname name.1 ∧ Named sect.sectname name.2 := by
    rw [@covers_required _ sectRequired 2 (by decide), recorded.sectionSeen]
    simp only [List.forall_mem_cons, List.not_mem_nil, false_imp_iff, implies_true, and_true]
    rw [← @bit_sectionSeen mem bytes commands (textName, sectTextName) sectTextText 0 (by decide)
        (by decide) (by decide),
      ← @bit_sectionSeen mem bytes commands (dataName, sectConstName) sectDataConst 1 (by decide)
        (by decide) (by decide)]
    exact ⟨fun all => ⟨all 0 (by decide), all 1 (by decide)⟩,
      fun all i below => match i, below with
        | 0, _ => all.1
        | 1, _ => all.2⟩
  have entry : r.entryKindMask &&& (entryUnixthread ||| entryMain) ≠ 0 ↔
      ∃ o ∈ commands, cmdAt mem bytes o = lcUnixThread ∨ cmdAt mem bytes o = lcMain := by
    rw [recorded.entryKind, start]
    exact entry_meets
  constructor
  · exact fun seen => ⟨segs.mp seen.segments, sects.mp seen.sections, entry.mp seen.entry⟩
  · exact fun shows => ⟨segs.mpr shows.required, sects.mpr shows.sections, entry.mpr shows.entry⟩

/-! ## The plan -/

theorem vmBase_eq {segs : List SegmentCommand} {low : UInt32}
    (least : (∃ s ∈ segs, s.vmaddr = low) ∧ ∀ s ∈ segs, low ≤ s.vmaddr) :
    vmBase segs = low.toNat := by
  have min : (segs.map fun s => s.vmaddr.toNat).min? = some low.toNat := by
    rw [List.min?_eq_some_iff]
    constructor
    · obtain ⟨s, there, same⟩ := least.1
      rw [← same]
      exact List.mem_map_of_mem there
    · intro n there
      obtain ⟨s, among, rfl⟩ := List.mem_map.mp there
      exact UInt32.le_iff_toNat_le.mp (least.2 s among)
  rw [vmBase, min, Option.getD_some]

theorem mem_loaded {segs : List SegmentCommand} {s : SegmentCommand} (there : s ∈ loaded segs) :
    s ∈ segs ∧ s.vmsize ≠ 0 := by
  have both := List.mem_filter.mp there
  exact ⟨both.1, of_decide_eq_true both.2⟩

structure Plans (segs : List SegmentCommand) : Prop where
  based : vmBase segs ≠ 0
  some_ : 1 ≤ (loaded segs).length
  few : (loaded segs).length ≤ 8
  placed : ∀ s ∈ loaded segs, placedAt (vmBase segs) s + roundUp s.vmsize.toNat ≤
    ramConsoleBase.toNat

theorem recorded_base (recorded : Recorded mem bytes r₀ commands r)
    (some_ : segments mem bytes commands ≠ []) :
    vmBase (segments mem bytes commands) = r.minVmaddr.toNat :=
  vmBase_eq (recorded.least some_)

theorem entries_placed (recorded : Recorded mem bytes r₀ commands r)
    (some_ : segments mem bytes commands ≠ []) :
    (∀ entry ∈ r.loadPlan.entries, PlacedIn r.minVmaddr entry) ↔
      ∀ s ∈ loaded (segments mem bytes commands),
        placedAt (vmBase (segments mem bytes commands)) s + roundUp s.vmsize.toNat ≤
          ramConsoleBase.toNat := by
  have least := (recorded.least some_).2
  rw [recorded.plan, recorded_base recorded some_]
  constructor
  · intro placed s there
    obtain ⟨i, inside, same⟩ := List.mem_iff_getElem.mp there
    have entry := placed (unplaced i s)
      (List.mem_mapIdx.mpr ⟨i, inside, congrArg (unplaced i) same⟩)
    exact entry.below
  · intro placed entry there
    obtain ⟨i, inside, rfl⟩ := List.mem_mapIdx.mp there
    have member := List.getElem_mem inside
    exact ⟨UInt32.le_iff_toNat_le.mp (least _ (mem_loaded member).1), placed _ member⟩

theorem plans_iff (recorded : Recorded mem bytes r₀ commands r)
    (few : (loaded (segments mem bytes commands)).length ≤ 8) :
    (¬ (r.loadPlan.entryCount = 0 ∨ r.minVmaddr = 0 ∨ r.maxVmaddr ≤ r.minVmaddr) ∧
        ∀ entry ∈ r.loadPlan.entries, PlacedIn r.minVmaddr entry) ↔
      Plans (segments mem bytes commands) := by
  have count : r.loadPlan.entryCount = 0 ↔ (loaded (segments mem bytes commands)).length = 0 := by
    have small : (loaded (segments mem bytes commands)).length < 2 ^ 32 := by omega
    rw [LoadPlan.entryCount, recorded_entries recorded, ← UInt32.toNat_inj,
      UInt32.toNat_ofNat_of_lt' small, UInt32.toNat_zero]
  have nonempty : (loaded (segments mem bytes commands)).length ≠ 0 →
      segments mem bytes commands ≠ [] := by
    intro some_ none_
    rw [none_] at some_
    exact some_ rfl
  constructor
  · rintro ⟨bounds, placed⟩
    rw [not_or, not_or, count] at bounds
    have some_ := nonempty bounds.1
    refine ⟨?_, Nat.one_le_iff_ne_zero.mpr bounds.1, few, (entries_placed recorded some_).mp placed⟩
    rw [recorded_base recorded some_]
    exact fun zero => bounds.2.1 (UInt32.toNat_inj.mp zero)
  · intro plans
    have some_ := nonempty (Nat.one_le_iff_ne_zero.mp plans.some_)
    refine ⟨?_, (entries_placed recorded some_).mpr plans.placed⟩
    rw [not_or, not_or, count]
    refine ⟨Nat.one_le_iff_ne_zero.mp plans.some_, ?_, ?_⟩
    · intro zero
      apply plans.based
      rw [recorded_base recorded some_, zero, UInt32.toNat_zero]
    · -- a loaded segment starts at the minimum or above, and ends at the maximum or below
      obtain ⟨s, there⟩ := List.exists_mem_of_length_pos plans.some_
      obtain ⟨among, size⟩ := mem_loaded there
      have above := UInt32.le_iff_toNat_le.mp ((recorded.least some_).2 s among)
      have below := recorded.greatest s among
      have positive : s.vmsize.toNat ≠ 0 := fun zero => size (UInt32.toNat_inj.mp zero)
      rw [UInt32.le_iff_toNat_le]
      omega

theorem entries_planned (recorded : Recorded mem bytes r₀ commands r)
    (some_ : segments mem bytes commands ≠ []) :
    r.loadPlan.entries.map (place r.minVmaddr) = planOf (segments mem bytes commands) := by
  rw [recorded.plan, planOf, recorded_base recorded some_]
  apply List.ext_getElem
  · rw [List.length_map, List.length_mapIdx, List.length_mapIdx]
  · intro i one two
    rw [List.getElem_map, List.getElem_mapIdx, List.getElem_mapIdx]
    rfl

/-! ## The probe -/

def start (artifact size : UInt32) (header : Header) : Result :=
  checkHeader (.init artifact size) header |>.pass validCommandBounds

theorem start_recorded {artifact size : UInt32} {header : Header} (fits : HeaderFits header) :
    Recorded mem artifact (start artifact size header) [] (start artifact size header) := by
  rw [start, checkHeader_eq fits]
  constructor
  · rfl
  · rfl
  · rfl
  · exact UInt32.or_zero.symm
  · rfl
  · rfl
  · rfl
  · exact UInt32.or_zero.symm
  · exact fun some_ => absurd rfl some_
  · exact fun s there => absurd there List.not_mem_nil
  · rfl

/-- With all of the parser's bits there, the outcome is the failure mask's. -/
theorem done_iff (covers : r.failureMask = 0 → r.validationMask &&& parserRequired = parserRequired) :
    (done r).1 = true ↔ r.failureMask = 0 := by
  rw [done]
  by_cases none_ : r.failureMask = 0
  · rw [if_pos ⟨covers none_, none_⟩]
    exact ⟨fun _ => none_, fun _ => rfl⟩
  · rw [if_neg fun both => none_ both.2]
    exact ⟨fun ok => absurd ok Bool.false_ne_true, fun none_' => absurd none_' none_⟩

def probed (mem : Mem) (artifact size : UInt32) : Result :=
  afterCommands (probeCommands mem artifact size
    (checkHeader (.init artifact size) (headerAt mem artifact)))

theorem header_region {artifact size : UInt32} (large : 28 ≤ size.toNat) (object : artifact ≠ 0) :
    stage90MachoProbe mem artifact size = done (probed mem artifact size) := by
  have room : ¬ size < headerSize := by
    have head : headerSize.toNat = 28 := rfl
    rw [UInt32.lt_iff_toNat_lt, head]
    omega
  rw [stage90MachoProbe, if_neg object, if_neg room, probed]

structure Parts (mem : Mem) (artifact : UInt32) (size : Nat) (commands : List UInt32) : Prop where
  header : HeaderFits (headerAt mem artifact)
  region : RegionFits size (headerAt mem artifact)
  tiles : Tiles mem artifact (28 + (headerAt mem artifact).sizeofcmds.toNat) 28 commands
  count : commands.length = (headerAt mem artifact).ncmds.toNat
  fits : ∀ o ∈ commands, CommandFits mem artifact size o
  shows : Shows mem artifact commands
  plans : Plans (segments mem artifact commands)

theorem grammar_iff {artifact : UInt32} {size : Nat} :
    Grammar mem artifact size commands ↔ 28 ≤ size ∧ Parts mem artifact size commands := by
  constructor
  · intro g
    exact ⟨g.header, ⟨g.magic, g.cputype, g.cpusubtype, g.filetype⟩, ⟨g.words, g.region⟩, g.tiles,
      g.count, g.fits, ⟨g.required, g.sections, g.entry⟩, ⟨g.based, g.some_, g.few, g.placed⟩⟩
  · intro ⟨large, p⟩
    exact ⟨large, p.header.magic, p.header.cputype, p.header.cpusubtype, p.header.filetype,
      p.region.words, p.region.region, p.tiles, p.count, p.fits, p.shows.required, p.shows.sections,
      p.shows.entry, p.plans.based, p.plans.some_, p.plans.few, p.plans.placed⟩

def recordedAll (mem : Mem) (artifact size : UInt32) (commands : List UInt32) : Result :=
  commands.foldl (recordCommand mem artifact) (start artifact size (headerAt mem artifact))

theorem foldl_sticky (none_ : (commands.foldl (recordCommand mem bytes) r).failureMask = 0) :
    r.failureMask = 0 := by
  induction commands generalizing r with
  | nil => exact none_
  | cons o commands ih => exact (recordCommand_eq_zero.mp (ih none_)).1

theorem finalizeLoadPlan_iff (recorded : Recorded mem bytes r₀ commands r)
    (few : (loaded (segments mem bytes commands)).length ≤ 8) (clear : (checkSeen r).failureMask = 0) :
    (finalizeLoadPlan (checkSeen r)).failureMask = 0 ↔ Plans (segments mem bytes commands) := by
  obtain ⟨report, core⟩ := checkSeen_core clear
  have plan : (checkSeen r).loadPlan = r.loadPlan := congrArg Core.loadPlan core
  have min : (checkSeen r).minVmaddr = r.minVmaddr := congrArg Core.minVmaddr core
  have max : (checkSeen r).maxVmaddr = r.maxVmaddr := congrArg Core.maxVmaddr core
  rw [finalizeLoadPlan_eq_zero, plan, min, max, plans_iff recorded few]
  exact ⟨fun both => both.2, fun plans => ⟨clear, plans⟩⟩

theorem recordedAll_iff {artifact size : UInt32} (header : HeaderFits (headerAt mem artifact))
    (small : commands.length < 2 ^ 32) :
    ((recordedAll mem artifact size commands).failureMask = 0 ↔
        (∀ o ∈ commands, CommandFits mem artifact size.toNat o) ∧
          (loaded (segments mem artifact commands)).length ≤ 8) ∧
      ((recordedAll mem artifact size commands).failureMask = 0 →
        Recorded mem artifact (start artifact size (headerAt mem artifact)) commands
          (recordedAll mem artifact size commands)) := by
  have fresh := @start_recorded mem artifact size _ header
  have clear : (start artifact size (headerAt mem artifact)).failureMask = 0 := by
    rw [start, checkHeader_eq header]
    rfl
  have same : (start artifact size (headerAt mem artifact)).artifactSize = size := by
    rw [start, checkHeader_eq header]
    rfl
  have all := foldl_recordCommand fresh clear commands small
  rw [same] at all
  exact all

theorem start_entryKind {artifact size : UInt32} {header : Header} (fits : HeaderFits header) :
    (start artifact size header).entryKindMask = entryNotExecuted := by
  rw [start, checkHeader_eq fits]
  rfl

theorem checkHeader_header {artifact size : UInt32} {header : Header} (fits : HeaderFits header) :
    (checkHeader (.init artifact size) header).header = header := by
  rw [checkHeader_eq fits]
  rfl

structure Accepted (mem : Mem) (artifact size : UInt32) (commands : List UInt32) : Prop where
  parts : Parts mem artifact size.toNat commands
  recorded : Recorded mem artifact (start artifact size (headerAt mem artifact)) commands
    (recordedAll mem artifact size commands)
  seen : (checkSeen (recordedAll mem artifact size commands)).failureMask = 0
  planned : (finalizeLoadPlan (checkSeen (recordedAll mem artifact size commands))).failureMask = 0
  result : probed mem artifact size =
    finalized (checkSeen (recordedAll mem artifact size commands))

theorem probed_sound {artifact size : UInt32} (none_ : (probed mem artifact size).failureMask = 0) :
    ∃ commands, Accepted mem artifact size commands := by
  obtain ⟨clear, -⟩ := finalizeLoadPlan_eq_zero.mp none_
  obtain ⟨commanded, seen⟩ := checkSeen_eq_zero.mp clear
  obtain ⟨region, commands, tiles, within, folds, count⟩ := probeCommands_sound commanded
  have started := foldl_sticky (folds ▸ commanded)
  have header := (checkHeader_eq_zero.mp started).2
  rw [checkHeader_header header] at region tiles within count
  have small : commands.length < 2 ^ 32 := Nat.lt_of_le_of_lt within (UInt32.toNat_lt _)
  have all := @recordedAll_iff mem commands artifact size header small
  have same : probeCommands mem artifact size (checkHeader (.init artifact size) (headerAt mem artifact))
      = recordedAll mem artifact size commands := folds
  rw [same] at commanded seen count clear
  obtain ⟨fits, few⟩ := all.1.mp commanded
  have recorded := all.2 commanded
  have planned : (finalizeLoadPlan (checkSeen (recordedAll mem artifact size commands))).failureMask
      = 0 := by
    rw [← same]
    exact none_
  refine ⟨commands, ⟨header, region, tiles, ?_, fits, ?_, ?_⟩, recorded, clear, planned, ?_⟩
  · rw [recorded.count] at count
    rw [← count, UInt32.toNat_ofNat_of_lt' small]
  · exact (seen_iff recorded (start_entryKind header)).mp seen
  · exact (finalizeLoadPlan_iff recorded few clear).mp planned
  · rw [← finalizeLoadPlan_eq planned, ← same]
    rfl

theorem probed_complete {artifact size : UInt32} (parts : Parts mem artifact size.toNat commands) :
    Accepted mem artifact size commands ∧ (probed mem artifact size).failureMask = 0 := by
  have small : commands.length < 2 ^ 32 := by
    rw [parts.count]
    exact UInt32.toNat_lt _
  have all := @recordedAll_iff mem commands artifact size parts.header small
  have commanded := all.1.mpr ⟨parts.fits, parts.plans.few⟩
  have recorded := all.2 commanded
  have same : probeCommands mem artifact size (checkHeader (.init artifact size) (headerAt mem artifact))
      = recordedAll mem artifact size commands := by
    have head := @checkHeader_header artifact size _ parts.header
    apply probeCommands_complete
    · rw [head]
      exact parts.region
    · rw [head]
      exact parts.tiles
    · rw [head, parts.count]
    · rw [head]
      refine recorded.count.trans ?_
      rw [parts.count, UInt32.ofNat_toNat]
  have seen := (seen_iff recorded (start_entryKind parts.header)).mpr parts.shows
  have clear := checkSeen_eq_zero.mpr ⟨commanded, seen⟩
  have planned := (finalizeLoadPlan_iff recorded parts.plans.few clear).mpr parts.plans
  have none_ : (probed mem artifact size).failureMask = 0 := by
    rw [probed, afterCommands, same]
    exact planned
  refine ⟨⟨parts, recorded, clear, planned, ?_⟩, none_⟩
  rw [← finalizeLoadPlan_eq planned, ← same]
  rfl

theorem accepted_covers {artifact size : UInt32} (accepted : Accepted mem artifact size commands) :
    (probed mem artifact size).validationMask &&& parserRequired = parserRequired := by
  obtain ⟨report, core⟩ := checkSeen_core accepted.seen
  have header := accepted.parts.header
  have some_ : segments mem artifact commands ≠ [] := by
    intro none_
    have one := accepted.parts.plans.some_
    rw [none_] at one
    exact absurd one (by decide)
  have seen := congrArg Core.validationMask core
  have began : (start artifact size (headerAt mem artifact)).validationMask = 0x3f := by
    rw [start, checkHeader_eq header]
    change 0 ||| (validMagic ||| validEndian) ||| validCpu ||| validSubtype ||| validFiletype |||
      validCommandBounds = 0x3f
    decide
  have before := accepted.recorded.valid
  rw [if_neg some_, began] at before
  dsimp only [Result.core] at seen
  rw [before] at seen
  rw [accepted.result]
  change ((checkSeen _).validationMask ||| validLoadPlan) &&& parserRequired = _
  rw [seen]
  have apart : 0x3f ||| validSegmentCommand ||| validRequiredSegments ||| validRequiredSections |||
        validFileExtents ||| validSectionBounds ||| report ||| validEntryNotExecuted ||| validLoadPlan =
      (0x3f ||| validSegmentCommand ||| validRequiredSegments ||| validRequiredSections |||
        validFileExtents ||| validSectionBounds ||| validEntryNotExecuted ||| validLoadPlan) |||
          report := by ac_rfl
  rw [apart]
  exact covers_or_left report (by decide)

theorem accepted_plan {artifact size : UInt32} (accepted : Accepted mem artifact size commands) :
    (finalized (checkSeen (recordedAll mem artifact size commands))).loadPlan.entries =
      planOf (segments mem artifact commands) := by
  obtain ⟨report, core⟩ := checkSeen_core accepted.seen
  obtain ⟨-, -, placed⟩ := finalizeLoadPlan_eq_zero.mp accepted.planned
  have some_ : segments mem artifact commands ≠ [] := by
    intro none_
    have one := accepted.parts.plans.some_
    rw [none_] at one
    exact absurd one (by decide)
  have plan : (checkSeen (recordedAll mem artifact size commands)).loadPlan =
      (recordedAll mem artifact size commands).loadPlan := congrArg Core.loadPlan core
  have min : (checkSeen (recordedAll mem artifact size commands)).minVmaddr =
      (recordedAll mem artifact size commands).minVmaddr := congrArg Core.minVmaddr core
  refine (finalizeEntries_placed placed).trans ?_
  rw [plan, min]
  exact entries_planned accepted.recorded some_

/-- The probe accepts exactly the images of the grammar, and its plan is the plan of their
segments. -/
theorem probe_exact (mem : Mem) (artifact size : UInt32) (object : artifact ≠ 0) :
    ((stage90MachoProbe mem artifact size).1 = true ↔
        ∃ commands, Grammar mem artifact size.toNat commands) ∧
      ∀ commands, Grammar mem artifact size.toNat commands →
        (stage90MachoProbe mem artifact size).2.loadPlan.entries =
          planOf (segments mem artifact commands) := by
  by_cases large : 28 ≤ size.toNat
  · rw [header_region large object]
    have verdict : (done (probed mem artifact size)).1 = true ↔
        (probed mem artifact size).failureMask = 0 := by
      apply done_iff
      intro none_
      obtain ⟨commands, accepted⟩ := probed_sound none_
      exact accepted_covers accepted
    have plan : (done (probed mem artifact size)).2.loadPlan = (probed mem artifact size).loadPlan := by
      rw [done]
      split
      · rfl
      · rfl
    refine ⟨?_, ?_⟩
    · rw [verdict]
      constructor
      · intro none_
        obtain ⟨commands, accepted⟩ := probed_sound none_
        exact ⟨commands, grammar_iff.mpr ⟨large, accepted.parts⟩⟩
      · intro ⟨commands, grammar⟩
        exact (probed_complete (grammar_iff.mp grammar).2).2
    · intro commands grammar
      obtain ⟨accepted, none_⟩ := probed_complete (grammar_iff.mp grammar).2
      rw [plan, accepted.result]
      exact accepted_plan accepted
  · have refused : stage90MachoProbe mem artifact size =
        done ((Result.init artifact size).fail failSize) := by
      have short : size < headerSize := by
        have head : headerSize.toNat = 28 := rfl
        rw [UInt32.lt_iff_toNat_lt, head]
        omega
      rw [stage90MachoProbe, if_neg object, if_pos short]
    refine ⟨⟨fun ok => ?_, fun ⟨_, grammar⟩ => absurd grammar.header large⟩,
      fun _ grammar => absurd grammar.header large⟩
    rw [refused, done, if_neg fun both => absurd both.2 (fail_ne_zero (by decide))] at ok
    exact absurd ok Bool.false_ne_true

/-! ## A small image -/

def segmentWords (cmdsize : UInt32) (name : List UInt32) (vmaddr vmsize fileoff filesize nsects : UInt32) :
    List UInt32 :=
  [lcSegment, cmdsize] ++ name ++ [vmaddr, vmsize, fileoff, filesize, 7, 7, nsects, 0]

def sectionWords (sectname segname : List UInt32) (addr size offset : UInt32) : List UInt32 :=
  sectname ++ segname ++ [addr, size, offset, 0, 0, 0, 0, 0, 0]

def textWords : List UInt32 := [0x45545f5f, 0x5458, 0, 0]
def dataWords : List UInt32 := [0x41445f5f, 0x4154, 0, 0]
def linkeditWords : List UInt32 := [0x494c5f5f, 0x44454b4e, 0x5449, 0]
def prelinkTextWords : List UInt32 := [0x52505f5f, 0x4e494c45, 0x45545f4b, 0x5458]
def sectTextWords : List UInt32 := [0x65745f5f, 0x7478, 0, 0]
def sectConstWords : List UInt32 := [0x6f635f5f, 0x74736e, 0, 0]

/-- The three markers, and a word that no section covers. -/
def markerWords : List UInt32 :=
  [0x30395453, 0x5845542d, 0x54, 0x30395453, 0x5441442d, 0x41, 0x30395453, 0x4552502d, 0x4b4e494c,
    0x5845542d, 0x54, 0x11111111]

/-- An image of 460 bytes at `0x80001000`: `__TEXT` is all of it, `__DATA` is its last word, loaded
at `vmaddr`. -/
def smallImage (vmaddr : UInt32) : List UInt32 :=
  [MachO.mhMagic, cpuTypeArm, cpuSubtypeArmV7, filetypeExecute, 4, 380, 0] ++
    segmentWords 260 textWords 0x80001000 460 0 460 3 ++
      sectionWords sectTextWords textWords 0x80001198 9 408 ++
      sectionWords sectConstWords dataWords 0x800011a4 9 420 ++
      sectionWords sectTextWords prelinkTextWords 0x800011b0 17 432 ++
    segmentWords 56 dataWords vmaddr 4 456 4 0 ++
    segmentWords 56 linkeditWords 0x80001000 0 0 0 0 ++
    [lcMain, 8] ++ markerWords ++ [0x22222222]

def smallImageBase : UInt32 := 0x100000

/-- With `__DATA` behind `__TEXT`, the probe accepts it. -/
theorem smallImage_exact :
    (stage90MachoProbe (ofWords smallImageBase (smallImage 0x80002000)) smallImageBase 460).1 = true ∧
      ∃ commands,
        Grammar (ofWords smallImageBase (smallImage 0x80002000)) smallImageBase 460 commands := by
  have accepts : (stage90MachoProbe (ofWords smallImageBase (smallImage 0x80002000)) smallImageBase
      460).1 = true := by decide +kernel
  exact ⟨accepts, (probe_exact _ smallImageBase 460 (by decide)).1.mp accepts⟩

end Stage90.Probe

import Stage90.MachO.FixtureImage

/-!
# The generator and the probe

The probe accepts a fixture exactly if the last sections of two segments end in them.  The generator
looks where a section starts.
-/

set_option autoImplicit false

namespace Stage90.Fixture

open Stage90.Lib
open Stage90.Probe (cmdAt cmdsizeAt segmentOf sectionsOf stage90MachoProbe)

/-! ## The statement -/

def fileRange (image : List UInt8) (sect : Probe.Section) : List UInt8 :=
  (image.drop sect.offset.toNat).take sect.size.toNat

/-- The probe accepts the image, and the sections of its commands hold the generator's payloads. -/
structure Agrees (mem : Mem) (base : UInt32) (image : List UInt8) (segments : List Segment) :
    Prop where
  accepts : (stage90MachoProbe mem base (UInt32.ofNat image.length)).1 = true
  payloads : ∃ commands,
    Probe.Tiles mem base (28 + (Probe.headerAt mem base).sizeofcmds.toNat) 28 commands ∧
      (Probe.segmentOffsets mem base commands).map
          (fun o => (sectionsOf mem base o).map (fileRange image)) =
        segments.map fun segment => segment.sections.map Section.payload

/-! ## Reading a fixture -/

theorem same_payloads {segments segments' : List Segment}
    (same : List.Forall₂ SameSegment segments segments') :
    (segments'.map fun segment => segment.sections.map Section.payload) =
      segments.map fun segment => segment.sections.map Section.payload := by
  induction same with
  | nil => rfl
  | cons one _ ih =>
      have payloads := same_map (f := Section.payload) (fun _ _ same => by rw [same]) one.sections
      rw [List.map_cons, List.map_cons, ih, payloads]

theorem readSection_ends {segment : Segment} {sect : Section} (words : SegmentWords segment)
    (there : sect ∈ segment.sections) :
    (readSection segment.name sect).addr.toNat + (readSection segment.name sect).size.toNat ≤
        (readSegment segment).vmaddr.toNat + (readSegment segment).vmsize.toNat ↔
      sect.addr + sect.payload.length ≤ segment.vmaddr + segment.vmsize := by
  obtain ⟨addr, size, -⟩ := words.sections sect there
  rw [readSection, readSegment]
  dsimp only
  rw [UInt32.toNat_ofNat_of_lt' addr, UInt32.toNat_ofNat_of_lt' size,
    UInt32.toNat_ofNat_of_lt' words.vmaddr, UInt32.toNat_ofNat_of_lt' words.vmsize]

section
variable {mem : Mem} {base : UInt32} {stageNumber : Nat} {metadata : Option (List UInt8)}
  {image : List UInt8} {segments : List Segment} {commands : List (List UInt8)}
  (written : Written stageNumber metadata image segments commands) (lies : LiesAt mem base image)
include written lies

theorem segmentOffsets_eq :
    Probe.segmentOffsets mem base (commandOffsets commands image.length) =
      offsets (writesFrom 28 commands) := by
  obtain ⟨-, reads⟩ := written.reads lies
  have tail := written.tail lies
  have own : ∀ o ∈ offsets (writesFrom 28 commands),
      decide (cmdAt mem base o = MachO.lcSegment) = true :=
    fun o there => decide_eq_true ((reads_segments reads).1 o there)
  have others : [908, 932].filter (fun o => cmdAt mem base o = MachO.lcSegment) = [] := by
    rw [List.filter_eq_nil_iff, List.forall_mem_cons, List.forall_mem_singleton, tail.symtab,
      tail.unixthread]
    decide
  rw [written.offsets_eq lies, Probe.segmentOffsets, List.filter_append, List.filter_eq_self.mpr own,
    others, List.append_nil]

theorem segments_eq :
    Probe.segments mem base (commandOffsets commands image.length) = segments.map readSegment := by
  obtain ⟨-, reads⟩ := written.reads lies
  rw [Probe.segments, segmentOffsets_eq written lies]
  exact (reads_segments reads).2.1

omit lies in
theorem core_there {segment : Segment} (there : segment ∈ segments) : segment.core ∈ cores := by
  rw [← written.core_mem]
  exact List.mem_map_of_mem there

omit lies in
theorem core_named {core : List Char × Nat × Nat × List (List Char)} (there : core ∈ cores) :
    ∃ segment ∈ segments, segment.core = core := by
  rw [← written.core_mem] at there
  exact List.mem_map.mp there

/-- The probe checks the end of every section. -/
theorem fits_of_grammar {others : List UInt32}
    (grammar : Probe.Grammar mem base image.length others) : Fits stageNumber metadata := by
  obtain ⟨-, reads⟩ := written.reads lies
  have tiles := grammar.tiles
  rw [written.headerAt lies] at tiles
  have same := tiles_unique tiles (written.tiles lies)
  rw [← allEnd_iff, ← written.laid.fits]
  intro segment there sect among
  obtain ⟨w, place, read⟩ := reads_of reads segment there
  have command : UInt32.ofNat w.1 ∈ others := by
    rw [same, written.offsets_eq lies]
    exact List.mem_append_left _ (List.mem_map_of_mem place)
  have fits := (grammar.fits _ command).segment read.cmd
  have ends := fits.sections (readSection segment.name sect) (by
    rw [read.sections]
    exact List.mem_map_of_mem among)
  rw [read.command] at ends
  exact (readSection_ends read.words among).mp ends.ends

omit lies in
theorem readSegment_core {segment : Segment} (there : segment ∈ segments) :
    (readSegment segment).vmaddr.toNat + (readSegment segment).vmsize.toNat < 2 ^ 32 ∧
      (readSegment segment).vmsize ≠ 0 ∧
        Probe.placedAt vmBase (readSegment segment) +
            Probe.roundUp (readSegment segment).vmsize.toNat ≤ Probe.ramConsoleBase.toNat := by
  have all : ∀ core ∈ cores,
      (UInt32.ofNat core.2.1).toNat + (UInt32.ofNat core.2.2.1).toNat < 2 ^ 32 ∧
        UInt32.ofNat core.2.2.1 ≠ 0 ∧
          Probe.ramPhysBase.toNat + ((UInt32.ofNat core.2.1).toNat - vmBase) +
              Probe.roundUp (UInt32.ofNat core.2.2.1).toNat ≤ Probe.ramConsoleBase.toNat := by
    decide
  exact all _ (core_there written there)

omit lies in
theorem segment_fits (fits : Fits stageNumber metadata) {segment : Segment} {w : Write UInt8}
    (there : segment ∈ segments) (read : ReadsSegment mem base segment w) :
    Probe.SegmentFits mem base image.length (UInt32.ofNat w.1) := by
  have words := read.words
  have ends := written.laid.fits.mpr ((allEnd_iff stageNumber metadata).mpr fits) segment there
  have size : cmdsizeAt mem base (UInt32.ofNat w.1) = UInt32.ofNat segment.cmdsize :=
    congrArg Probe.SegmentCommand.cmdsize read.command
  refine ⟨?_, ?_, ?_, ?_⟩
  · have count : segment.sections.length < 2 ^ 32 := by
      have total := words.cmdsize
      rw [Segment.cmdsize] at total
      omega
    rw [size, read.command, UInt32.toNat_ofNat_of_lt' words.cmdsize, Segment.cmdsize]
    change 56 + 68 * (UInt32.ofNat segment.sections.length).toNat ≤ _
    rw [UInt32.toNat_ofNat_of_lt' count]
    omega
  · rw [read.command]
    exact (readSegment_core written there).1
  · rw [read.command]
    change (UInt32.ofNat segment.fileoff).toNat + (UInt32.ofNat segment.filesize).toNat ≤ _
    rw [UInt32.toNat_ofNat_of_lt' words.fileoff, UInt32.toNat_ofNat_of_lt' words.filesize]
    exact written.laid.file segment there
  · rw [read.sections, List.forall_mem_map, read.command]
    intro sect among
    obtain ⟨addr, length, offset⟩ := words.sections sect among
    refine ⟨?_, (readSection_ends words among).mpr (ends sect among), fun _ _ => ?_⟩
    · change (UInt32.ofNat segment.vmaddr).toNat ≤ (UInt32.ofNat sect.addr).toNat
      rw [UInt32.toNat_ofNat_of_lt' words.vmaddr, UInt32.toNat_ofNat_of_lt' addr]
      exact written.laid.starts segment there sect among
    · change (UInt32.ofNat sect.offset).toNat + (UInt32.ofNat sect.payload.length).toNat ≤ _
      rw [UInt32.toNat_ofNat_of_lt' offset, UInt32.toNat_ofNat_of_lt' length]
      exact written.laid.row.below sect (List.mem_flatMap.mpr ⟨segment, there, among⟩)

omit lies in
theorem segment_named {core : List Char × Nat × Nat × List (List Char)} {name : List UInt8}
    (there : core ∈ cores) (named : Probe.Named ((fixed16 core.1).getD []) name) :
    ∃ s ∈ segments.map readSegment, Probe.Named s.segname name := by
  obtain ⟨segment, among, rfl⟩ := core_named written there
  exact ⟨_, List.mem_map_of_mem among, named⟩

theorem section_named {core : List Char × Nat × Nat × List (List Char)} {sectname : List Char}
    {name : List UInt8 × List UInt8} (there : core ∈ cores) (has : sectname ∈ core.2.2.2)
    (segment : Probe.Named ((fixed16 core.1).getD []) name.1)
    (named : Probe.Named ((fixed16 sectname).getD []) name.2) :
    ∃ o ∈ offsets (writesFrom 28 commands), ∃ sect ∈ sectionsOf mem base o,
      Probe.Named sect.segname name.1 ∧ Probe.Named sect.sectname name.2 := by
  obtain ⟨-, reads⟩ := written.reads lies
  obtain ⟨owner, among, rfl⟩ := core_named written there
  obtain ⟨sect, inside, rfl⟩ := List.mem_map.mp has
  obtain ⟨w, place, read⟩ := reads_of reads owner among
  refine ⟨_, List.mem_map_of_mem place, readSection owner.name sect, ?_, segment, named⟩
  rw [read.sections]
  exact List.mem_map_of_mem inside

theorem command_fits (fits : Fits stageNumber metadata) :
    ∀ o ∈ commandOffsets commands image.length, Probe.CommandFits mem base image.length o := by
  obtain ⟨-, reads⟩ := written.reads lies
  have tail := written.tail lies
  have symtab : ∀ o, cmdAt mem base o = MachO.lcSegment → cmdAt mem base o ≠ Probe.lcSymtab := by
    intro o segment same
    rw [segment] at same
    exact absurd same (by decide)
  rw [written.offsets_eq lies, List.forall_mem_append]
  refine ⟨?_, ?_⟩
  · intro o there
    obtain ⟨w, place, rfl⟩ := List.mem_map.mp there
    obtain ⟨segment, among, read⟩ := reads_at reads w place
    exact ⟨fun _ => segment_fits written fits among read,
      fun symtab' => absurd symtab' (symtab _ read.cmd)⟩
  · rw [List.forall_mem_cons, List.forall_mem_singleton]
    refine ⟨⟨?_, ?_⟩, ⟨?_, ?_⟩⟩
    · intro segment
      exact absurd tail.symtab (symtab _ segment)
    · intro _ _
      rw [tail.stroff, tail.strsize, UInt32.toNat_ofNat_of_lt' written.small]
      exact Nat.le_refl _
    · intro segment
      rw [tail.unixthread] at segment
      exact absurd segment (by decide)
    · intro symtab'
      rw [tail.unixthread] at symtab'
      exact absurd symtab' (by decide)

theorem grammar_of_fits (fits : Fits stageNumber metadata) :
    Probe.Grammar mem base image.length (commandOffsets commands image.length) := by
  obtain ⟨-, reads⟩ := written.reads lies
  have head := written.headerAt lies
  have tail := written.tail lies
  have size : 960 ≤ image.length := written.laid.row.le
  have loads : Probe.loaded (segments.map readSegment) = segments.map readSegment := by
    rw [Probe.loaded, List.filter_eq_self, List.forall_mem_map]
    exact fun segment there => decide_eq_true (readSegment_core written there).2.1
  have six : segments.length = 6 := written.laid.same.length_eq.symm
  have least : Probe.vmBase (segments.map readSegment) = vmBase := by
    have addresses : (segments.map readSegment).map (fun s => s.vmaddr.toNat) =
        cores.map fun core => (UInt32.ofNat core.2.1).toNat := by
      rw [← written.core_mem, List.map_map, List.map_map]
      rfl
    rw [Probe.vmBase, addresses]
    decide
  refine ⟨by omega, ?_, ?_, ?_, ?_, ?_, ?_, ?_, ?_, command_fits written lies fits, ?_, ?_, ?_, ?_,
    ?_, ?_, ?_⟩
  · rw [head]
  · rw [head]
  · rw [head]
    exact Or.inr rfl
  · rw [head]
    exact Or.inr rfl
  · rw [head]
    decide
  · rw [head]
    exact Nat.le_trans (by decide) size
  · rw [head]
    exact written.tiles lies
  · rw [head, written.offsets_eq lies, List.length_append, offsets, List.length_map,
      ← reads.length_eq, six]
    rfl
  · rw [segments_eq written lies, List.forall_mem_cons, List.forall_mem_cons,
      List.forall_mem_singleton]
    exact ⟨@segment_named _ _ _ _ _ written cores[0] _ (by decide) rfl,
      @segment_named _ _ _ _ _ written cores[1] _ (by decide) rfl,
      @segment_named _ _ _ _ _ written cores[2] _ (by decide) rfl⟩
  · rw [segmentOffsets_eq written lies, List.forall_mem_cons, List.forall_mem_singleton]
    exact ⟨@section_named _ _ _ _ _ _ _ written lies cores[0] sectTextName _ (by decide) (by decide)
        rfl rfl,
      @section_named _ _ _ _ _ _ _ written lies cores[1] sectConstName _ (by decide) (by decide)
        rfl rfl⟩
  · exact ⟨932, by rw [written.offsets_eq lies]; exact List.mem_append_right _ (by decide),
      Or.inl tail.unixthread⟩
  · rw [segments_eq written lies, least]
    decide
  · rw [segments_eq written lies, loads, List.length_map, six]
    decide
  · rw [segments_eq written lies, loads, List.length_map, six]
    decide
  · rw [segments_eq written lies, loads, least, List.forall_mem_map]
    exact fun segment there => (readSegment_core written there).2.2

/-- The file ranges of the section headers hold the generator's payloads. -/
theorem payloads_eq :
    (Probe.segmentOffsets mem base (commandOffsets commands image.length)).map
        (fun o => (sectionsOf mem base o).map (fileRange image)) =
      (buildSegments stageNumber metadata).map fun segment =>
        segment.sections.map Section.payload := by
  obtain ⟨-, reads⟩ := written.reads lies
  have sections := (reads_segments reads).2.2
  have ranges : ∀ segment ∈ segments,
      (segment.sections.map (readSection segment.name)).map (fileRange image) =
        segment.sections.map Section.payload := by
    intro segment there
    obtain ⟨w, -, read⟩ := reads_of reads segment there
    rw [List.map_map]
    apply List.map_congr_left
    intro sect among
    obtain ⟨-, length, offset⟩ := read.words.sections sect among
    change (image.drop (UInt32.ofNat sect.offset).toNat).take
      (UInt32.ofNat sect.payload.length).toNat = sect.payload
    rw [UInt32.toNat_ofNat_of_lt' offset, UInt32.toNat_ofNat_of_lt' length]
    exact (written.payloads segment there sect among).take
  have own := same_payloads written.laid.same
  calc (Probe.segmentOffsets mem base (commandOffsets commands image.length)).map
        (fun o => (sectionsOf mem base o).map (fileRange image))
      = ((offsets (writesFrom 28 commands)).map (sectionsOf mem base)).map
          (List.map (fileRange image)) := by
        rw [segmentOffsets_eq written lies, List.map_map]
        rfl
    _ = segments.map fun segment => segment.sections.map Section.payload := by
        rw [sections, List.map_map]
        exact List.map_congr_left ranges
    _ = _ := own

end

/-- The probe and the generator agree on a fixture exactly if the last sections of
`__PRELINK_INFO` and of `__PRELINK_STATE` end in their segments. -/
theorem fixture_agrees_iff {stageNumber : Nat} {metadata : Option (List UInt8)} {image : List UInt8}
    (later : 45 ≤ stageNumber) (built : buildFixture stageNumber metadata = some image) {mem : Mem}
    {base : UInt32} (object : base ≠ 0) (lies : LiesAt mem base image) :
    Agrees mem base image (buildSegments stageNumber metadata) ↔ Fits stageNumber metadata := by
  obtain ⟨segments, commands, written⟩ := buildFixture_written later built
  have exact_ := (Probe.probe_exact mem base (UInt32.ofNat image.length) object).1
  rw [UInt32.toNat_ofNat_of_lt' written.small] at exact_
  constructor
  · intro agrees
    obtain ⟨others, grammar⟩ := exact_.mp agrees.accepts
    exact fits_of_grammar written lies grammar
  · intro fits
    refine ⟨exact_.mpr ⟨_, grammar_of_fits written lies fits⟩, commandOffsets commands image.length,
      ?_, payloads_eq written lies⟩
    rw [written.headerAt lies]
    exact written.tiles lies

/-- The fixture of stage 84, without metadata. -/
theorem fixture_agrees_84 : ∃ image, buildFixture 84 none = some image ∧
    Agrees (ofBytes 0x100000 image) 0x100000 image (buildSegments 84 none) := by
  have some_ : (buildFixture 84 none).isSome = true := by decide +kernel
  have fits : Fits 84 none := by decide +kernel
  obtain ⟨image, built⟩ := Option.isSome_iff_exists.mp some_
  obtain ⟨_, _, written⟩ := buildFixture_written (by decide) built
  have lies : LiesAt (ofBytes 0x100000 image) 0x100000 image :=
    liesAt_ofBytes 0x100000 (Nat.le_of_lt written.small)
  exact ⟨image, built, (fixture_agrees_iff (by decide) built (by decide) lies).mpr fits⟩

/-- With 8051 bytes of metadata, `__kexts` starts in `__PRELINK_INFO` and ends behind it. -/
def longMetadata : List UInt8 := List.replicate 8051 1

set_option maxRecDepth 100000 in
theorem fixture_refused : ∃ image, buildFixture 84 (some longMetadata) = some image ∧
    ¬ Agrees (ofBytes 0x100000 image) 0x100000 image (buildSegments 84 (some longMetadata)) := by
  have some_ : (buildFixture 84 (some longMetadata)).isSome = true := by decide +kernel
  have misfit : ¬ Fits 84 (some longMetadata) := by decide +kernel
  obtain ⟨image, built⟩ := Option.isSome_iff_exists.mp some_
  obtain ⟨_, _, written⟩ := buildFixture_written (by decide) built
  have lies : LiesAt (ofBytes 0x100000 image) 0x100000 image :=
    liesAt_ofBytes 0x100000 (Nat.le_of_lt written.small)
  refine ⟨image, built, ?_⟩
  intro agrees
  have accepts := (Probe.probe_exact _ 0x100000 _ (by decide)).1.mp agrees.accepts
  rw [UInt32.toNat_ofNat_of_lt' written.small] at accepts
  obtain ⟨others, grammar⟩ := accepts
  exact misfit (fits_of_grammar written lies grammar)

end Stage90.Fixture

import Stage90.MachO.FixtureLayout
import Stage90.MachO.ProbeExact

/-!
# The fixture under the probe

What the probe reads of a fixture in memory is what the generator has packed.
-/

set_option autoImplicit false

namespace Stage90.Fixture

open Stage90.Lib
open Stage90.Probe (cmdAt cmdsizeAt segmentOf sectionsOf sectionAt segmentCommandAt headerAt)

/-! ## Packing -/

theorem packWords_some {words : List Nat} {bytes : List UInt8}
    (packed : packWords words = some bytes) :
    (∀ w ∈ words, w < 2 ^ 32) ∧ bytes = words.flatMap le32 := by
  rw [packWords] at packed
  split at packed
  · rename_i small
    rw [List.all_eq_true] at small
    exact ⟨fun w there => of_decide_eq_true (small w there), (Option.some_inj.mp packed).symm⟩
  · exact absurd packed.symm (Option.some_ne_none bytes)

theorem fixed16_some {name : List Char} {field : List UInt8} (packed : fixed16 name = some field) :
    field.length = 16 := by
  rw [fixed16] at packed
  split at packed
  · exact absurd packed.symm (Option.some_ne_none field)
  · rw [Option.some_inj] at packed
    rw [← packed, List.length_append, List.length_replicate]
    omega

theorem length_words (words : List Nat) : (words.flatMap le32).length = 4 * words.length := by
  induction words with
  | nil => rfl
  | cons word words ih =>
      rw [List.flatMap_cons, List.length_append, ih, List.length_cons, Nat.mul_succ, Nat.add_comm]
      rfl

section
variable {mem : Mem} {base : UInt32} {image bytes : List UInt8} {offset : Nat}

theorem fixed16_read {name : List Char} {field : List UInt8} (lies : LiesAt mem base image)
    (packed : fixed16 name = some field) {start k : Nat} (stands : StandsAt image start field)
    (place : start = offset + k) :
    Probe.fixed16 mem (base + UInt32.ofNat offset + UInt32.ofNat k) = field := by
  have read := map_standsAt lies stands
  rw [fixed16_some packed, place, ← offset_add] at read
  exact read

/-! ## Sections -/

def readSection (segname : List Char) (sect : Section) : Probe.Section where
  sectname := (fixed16 sect.sectname).getD []
  segname := (fixed16 segname).getD []
  addr := UInt32.ofNat sect.addr
  size := UInt32.ofNat sect.payload.length
  offset := UInt32.ofNat sect.offset

structure SectionWords (sect : Section) : Prop where
  addr : sect.addr < 2 ^ 32
  size : sect.payload.length < 2 ^ 32
  offset : sect.offset < 2 ^ 32

theorem packSection_read {segname : List Char} {sect : Section} (lies : LiesAt mem base image)
    (stands : StandsAt image offset bytes) (packed : packSection segname sect = some bytes) :
    bytes.length = 68 ∧ SectionWords sect ∧
      sectionAt mem (base + UInt32.ofNat offset) = readSection segname sect := by
  rw [packSection] at packed
  obtain ⟨sectname, one, rest⟩ := Option.bind_eq_some_iff.mp packed
  obtain ⟨segment, two, rest⟩ := Option.bind_eq_some_iff.mp rest
  obtain ⟨words, three, same⟩ := Option.bind_eq_some_iff.mp rest
  obtain ⟨small, flat⟩ := packWords_some three
  have first := fixed16_some one
  have second := fixed16_some two
  rw [Option.some_inj, flat] at same
  rw [← same] at stands ⊢
  rw [standsAt_append, standsAt_append, List.length_append, first, second] at stands
  obtain ⟨⟨sectname', segment'⟩, words'⟩ := stands
  refine ⟨?_, ⟨?_, ?_, ?_⟩, ?_⟩
  · rw [List.length_append, List.length_append, first, second, length_words]
    rfl
  · exact small _ (@List.mem_of_getElem? _ _ 0 _ rfl)
  · exact small _ (@List.mem_of_getElem? _ _ 1 _ rfl)
  · exact small _ (@List.mem_of_getElem? _ _ 2 _ rfl)
  · rw [sectionAt, readSection, one, two, Probe.Section.mk.injEq]
    refine ⟨?_, ?_, ?_, ?_, ?_⟩
    · have read := fixed16_read lies one sectname' (Nat.add_zero offset).symm
      rw [offset_add, Nat.add_zero] at read
      exact read
    · exact fixed16_read lies two segment' rfl
    · exact @read32_field _ _ _ _ _ _ 32 0 _ lies words' rfl rfl
    · exact @read32_field _ _ _ _ _ _ 36 1 _ lies words' rfl rfl
    · exact @read32_field _ _ _ _ _ _ 40 2 _ lies words' rfl rfl

theorem packSections_read {segname : List Char} {sects : List Section} (lies : LiesAt mem base image)
    (stands : StandsAt image offset bytes) (packed : packSections segname sects = some bytes) :
    bytes.length = 68 * sects.length ∧ (∀ sect ∈ sects, SectionWords sect) ∧
      (List.range sects.length).map
          (fun i => sectionAt mem (base + UInt32.ofNat (offset + 68 * i))) =
        sects.map (readSection segname) := by
  induction sects generalizing offset bytes with
  | nil =>
      rw [packSections, Option.some_inj] at packed
      rw [← packed]
      exact ⟨rfl, fun _ there => absurd there List.not_mem_nil, rfl⟩
  | cons sect sects ih =>
      rw [packSections] at packed
      obtain ⟨one, first, rest⟩ := Option.bind_eq_some_iff.mp packed
      obtain ⟨others, second, same⟩ := Option.bind_eq_some_iff.mp rest
      rw [Option.some_inj] at same
      rw [← same, standsAt_append] at stands
      obtain ⟨length, words, read⟩ := packSection_read lies stands.1 first
      rw [length] at stands
      obtain ⟨length', words', read'⟩ := ih stands.2 second
      refine ⟨?_, List.forall_mem_cons.mpr ⟨words, words'⟩, ?_⟩
      · rw [← same, List.length_append, length, length', List.length_cons, Nat.mul_succ, Nat.add_comm]
      · rw [List.length_cons, List.range_succ_eq_map, List.map_cons, List.map_cons, List.map_map,
          ← read']
        refine List.cons_eq_cons.mpr ⟨read, ?_⟩
        apply List.map_congr_left
        intro i _
        change sectionAt mem (base + UInt32.ofNat (offset + 68 * (i + 1))) = _
        rw [Nat.mul_succ, Nat.add_comm (68 * i), ← Nat.add_assoc]

/-! ## Segments -/

def readSegment (segment : Segment) : Probe.SegmentCommand where
  cmdsize := UInt32.ofNat segment.cmdsize
  segname := (fixed16 segment.name).getD []
  vmaddr := UInt32.ofNat segment.vmaddr
  vmsize := UInt32.ofNat segment.vmsize
  fileoff := UInt32.ofNat segment.fileoff
  filesize := UInt32.ofNat segment.filesize
  nsects := UInt32.ofNat segment.sections.length

structure SegmentWords (segment : Segment) : Prop where
  cmdsize : segment.cmdsize < 2 ^ 32
  vmaddr : segment.vmaddr < 2 ^ 32
  vmsize : segment.vmsize < 2 ^ 32
  fileoff : segment.fileoff < 2 ^ 32
  filesize : segment.filesize < 2 ^ 32
  sections : ∀ sect ∈ segment.sections, SectionWords sect

structure ReadsSegment (mem : Mem) (base : UInt32) (segment : Segment) (w : Write UInt8) : Prop where
  length : w.2.length = segment.cmdsize
  words : SegmentWords segment
  cmd : cmdAt mem base (UInt32.ofNat w.1) = MachO.lcSegment
  command : segmentOf mem base (UInt32.ofNat w.1) = readSegment segment
  sections : sectionsOf mem base (UInt32.ofNat w.1) =
    segment.sections.map (readSection segment.name)

theorem packSegment_read {segment : Segment} (lies : LiesAt mem base image)
    (stands : StandsAt image offset bytes) (packed : packSegment segment = some bytes) :
    ReadsSegment mem base segment (offset, bytes) := by
  rw [packSegment] at packed
  obtain ⟨name, one, rest⟩ := Option.bind_eq_some_iff.mp packed
  obtain ⟨head, two, rest⟩ := Option.bind_eq_some_iff.mp rest
  obtain ⟨words, three, rest⟩ := Option.bind_eq_some_iff.mp rest
  obtain ⟨sections, four, same⟩ := Option.bind_eq_some_iff.mp rest
  obtain ⟨small, flat⟩ := packWords_some two
  obtain ⟨small', flat'⟩ := packWords_some three
  have first := fixed16_some one
  rw [Option.some_inj, flat, flat'] at same
  rw [← same] at stands ⊢
  rw [standsAt_append, standsAt_append, standsAt_append] at stands
  simp only [List.length_append, first, length_words] at stands
  obtain ⟨⟨⟨head', name'⟩, words'⟩, sections'⟩ := stands
  obtain ⟨length, sectionWords, read⟩ := packSections_read lies sections' four
  have segment' : segmentOf mem base (UInt32.ofNat offset) = readSegment segment := by
    rw [segmentOf, segmentCommandAt, readSegment, one, Probe.SegmentCommand.mk.injEq]
    refine ⟨?_, ?_, ?_, ?_, ?_, ?_, ?_⟩
    · exact @read32_field _ _ _ _ _ _ 4 1 _ lies head' rfl rfl
    · exact fixed16_read lies one name' rfl
    · exact @read32_field _ _ _ _ _ _ 24 0 _ lies words' rfl rfl
    · exact @read32_field _ _ _ _ _ _ 28 1 _ lies words' rfl rfl
    · exact @read32_field _ _ _ _ _ _ 32 2 _ lies words' rfl rfl
    · exact @read32_field _ _ _ _ _ _ 36 3 _ lies words' rfl rfl
    · exact @read32_field _ _ _ _ _ _ 48 6 _ lies words' rfl rfl
  refine ⟨?_, ⟨?_, ?_, ?_, ?_, ?_, sectionWords⟩, ?_, segment', ?_⟩
  · dsimp only
    rw [List.length_append, List.length_append, List.length_append, first, length_words,
      length_words, length, Segment.cmdsize, Nat.mul_comm 68]
    rfl
  · exact small _ (@List.mem_of_getElem? _ _ 1 _ rfl)
  · exact small' _ (@List.mem_of_getElem? _ _ 0 _ rfl)
  · exact small' _ (@List.mem_of_getElem? _ _ 1 _ rfl)
  · exact small' _ (@List.mem_of_getElem? _ _ 2 _ rfl)
  · exact small' _ (@List.mem_of_getElem? _ _ 3 _ rfl)
  · have read := @read32_field _ _ _ offset _ _ 0 0 _ lies head' rfl rfl
    rw [offset_add, Nat.add_zero] at read
    exact read
  · have count : segment.sections.length < 2 ^ 32 :=
      small' _ (@List.mem_of_getElem? _ _ 6 _ rfl)
    have nsects : (readSegment segment).nsects.toNat = segment.sections.length :=
      UInt32.toNat_ofNat_of_lt' count
    rw [sectionsOf, segment', nsects, ← read]
    apply List.map_congr_left
    intro j _
    have place : base + (UInt32.ofNat offset + Probe.segmentCommandSize +
        UInt32.ofNat j * Probe.sectionSize) = base + UInt32.ofNat (offset + 56 + 68 * j) := by
      rw [UInt32.ofNat_add, UInt32.ofNat_add, UInt32.ofNat_mul, UInt32.mul_comm]
      rfl
    exact congrArg (sectionAt mem) place

theorem packSegments_read {segments : List Segment} {commands : List (List UInt8)}
    (lies : LiesAt mem base image) (packed : packSegments segments = some commands)
    (stands : ∀ w ∈ writesFrom offset commands, StandsAt image w.1 w.2) :
    commands.map List.length = segments.map Segment.cmdsize ∧
      List.Forall₂ (ReadsSegment mem base) segments (writesFrom offset commands) := by
  induction segments generalizing offset commands with
  | nil =>
      rw [packSegments, Option.some_inj] at packed
      rw [← packed]
      exact ⟨rfl, List.Forall₂.nil⟩
  | cons segment segments ih =>
      rw [packSegments] at packed
      obtain ⟨command, one, rest⟩ := Option.bind_eq_some_iff.mp packed
      obtain ⟨others, two, same⟩ := Option.bind_eq_some_iff.mp rest
      rw [Option.some_inj] at same
      rw [← same, writesFrom, List.forall_mem_cons] at stands
      have reads := packSegment_read lies stands.1 one
      obtain ⟨lengths, rest⟩ := ih two stands.2
      rw [← same, List.map_cons, List.map_cons, reads.length, lengths]
      exact ⟨rfl, List.Forall₂.cons reads rest⟩

def offsets (writes : List (Write UInt8)) : List UInt32 := writes.map fun w => UInt32.ofNat w.1

theorem tiles_writesFrom {strings : List (List UInt8)}
    (sizes : ∀ w ∈ writesFrom offset strings,
      (cmdsizeAt mem base (UInt32.ofNat w.1)).toNat = w.2.length ∧ 8 ≤ w.2.length ∧ 4 ∣ w.2.length)
    (small : offset + strings.flatten.length < 2 ^ 32) :
    Probe.Tiles mem base (offset + strings.flatten.length) offset
      (offsets (writesFrom offset strings)) := by
  induction strings generalizing offset with
  | nil => rfl
  | cons bytes strings ih =>
      rw [List.flatten_cons, List.length_append, ← Nat.add_assoc] at small ⊢
      rw [writesFrom, List.forall_mem_cons] at sizes
      obtain ⟨⟨size, eight, four⟩, sizes⟩ := sizes
      have start : (UInt32.ofNat offset).toNat = offset :=
        UInt32.toNat_ofNat_of_lt' (Nat.lt_of_le_of_lt (by omega) small)
      dsimp only at size
      refine ⟨start, ?_, ?_, ?_⟩
      · rw [size]
        exact eight
      · rw [size]
        exact four
      · rw [size]
        exact ih sizes small

end

/-! ## Writing -/

theorem writeCommands_eq (strings : List (List UInt8)) (out : List UInt8) (offset : Nat) :
    writeCommands strings out offset =
      (assignAll out (writesFrom offset strings), offset + strings.flatten.length) := by
  induction strings generalizing out offset with
  | nil => rfl
  | cons bytes strings ih =>
      rw [writeCommands, ih, writesFrom, List.flatten_cons, List.length_append, Nat.add_assoc]
      rfl

/-- The words of `LC_SYMTAB` and of `LC_UNIXTHREAD`. -/
def tailWords (fileSize : Nat) : List (List Nat) :=
  [[lcSymtab, symtabSize, 0, 0, fileSize, 0], [lcUnixthread, unixthreadSize, 0, vmBase]]

/-- The commands of a file of `fileSize` bytes. -/
def allCommands (commands : List (List UInt8)) (fileSize : Nat) : List (List UInt8) :=
  commands ++ (tailWords fileSize).map fun words => words.flatMap le32

structure Written (stageNumber : Nat) (metadata : Option (List UInt8)) (image : List UInt8)
    (segments : List Segment) (commands : List (List UInt8)) : Prop where
  laid : LaidOut true 960 (buildSegments stageNumber metadata) segments image.length
  packed : packSegments segments = some commands
  small : image.length < 2 ^ 32
  header : StandsAt image 0
    ([mhMagic, cpuTypeArm, cpuSubtypeArmV7, mhPreload, 8, 920, 0].flatMap le32)
  stands : ∀ w ∈ writesFrom 28 (allCommands commands image.length), StandsAt image w.1 w.2
  payloads : ∀ segment ∈ segments, ∀ sect ∈ segment.sections,
    StandsAt image sect.offset sect.payload

/-- The strings of the commands and the payloads of a row behind them are all read back. -/
theorem stands_all {strings : List (List UInt8)} {sects : List Section} {start size : Nat}
    (room : strings.flatten.length ≤ start) (row : Row start sects size) :
    let writes := writesFrom 0 strings ++ sects.map fun sect => (sect.offset, sect.payload)
    (assignAll (List.replicate size (0 : UInt8)) writes).length = size ∧
      ∀ w ∈ writes, StandsAt (assignAll (List.replicate size 0) writes) w.1 w.2 := by
  dsimp only
  have fits : ∀ w ∈ writesFrom 0 strings ++ sects.map fun sect => (sect.offset, sect.payload),
      w.stop ≤ (List.replicate size (0 : UInt8)).length := by
    rw [List.length_replicate, List.forall_mem_append, List.forall_mem_map]
    refine ⟨?_, row.below⟩
    intro w there
    have bounds := writesFrom_bounds 0 strings w there
    have le := row.le
    omega
  have ordered : (writesFrom 0 strings ++ sects.map fun sect =>
      (sect.offset, sect.payload)).Pairwise fun a b => a.stop ≤ b.1 := by
    rw [List.pairwise_append, List.pairwise_map]
    refine ⟨writesFrom_ordered 0 strings, row.ordered, ?_⟩
    intro w there w' there'
    obtain ⟨sect, among, rfl⟩ := List.mem_map.mp there'
    have bounds := writesFrom_bounds 0 strings w there
    have above := row.above sect among
    change w.stop ≤ sect.offset
    omega
  refine ⟨?_, standsAt_assignAll ordered fits⟩
  rw [length_assignAll fits, List.length_replicate]

theorem sum_cmdsize (stageNumber : Nat) (metadata : Option (List UInt8)) :
    ((buildSegments stageNumber metadata).map Segment.cmdsize).sum = 880 := by
  simp only [buildSegments, Segment.cmdsize, List.map_cons, List.map_nil, List.length_cons,
    List.length_nil, List.sum_cons, List.sum_nil, Nat.reduceAdd, Nat.reduceMul]

theorem align_sections (stageNumber : Nat) (metadata : Option (List UInt8)) :
    ∀ segment ∈ buildSegments stageNumber metadata, ∀ sect ∈ segment.sections, sect.align ≤ 4 := by
  simp [buildSegments]

theorem buildFixture_written {stageNumber : Nat} {metadata : Option (List UInt8)}
    {image : List UInt8} (later : 45 ≤ stageNumber)
    (built : buildFixture stageNumber metadata = some image) :
    ∃ segments commands, Written stageNumber metadata image segments commands := by
  rw [buildFixture] at built
  obtain ⟨⟨segments, fileSize⟩, laid, rest⟩ := Option.bind_eq_some_iff.mp built
  obtain ⟨header, one, rest⟩ := Option.bind_eq_some_iff.mp rest
  obtain ⟨commands, two, rest⟩ := Option.bind_eq_some_iff.mp rest
  obtain ⟨symtab, three, rest⟩ := Option.bind_eq_some_iff.mp rest
  obtain ⟨unixthread, four, rest⟩ := Option.bind_eq_some_iff.mp rest
  rw [writeCommands_eq] at rest
  dsimp only at rest one three
  have start : align (28 + (880 + symtabSize + unixthreadSize)) 0x10 = 960 := by decide
  rw [sum_cmdsize] at rest laid one
  rw [layoutSegments, start, decide_eq_true later] at laid
  have layout : LaidOut true 960 (buildSegments stageNumber metadata) segments fileSize :=
    layoutFrom_laid (by decide) (align_sections stageNumber metadata) laid
  have count : segments.length = 6 := layout.same.length_eq.symm
  obtain ⟨-, rfl⟩ := packWords_some one
  obtain ⟨small, rfl⟩ := packWords_some three
  obtain ⟨-, rfl⟩ := packWords_some four
  split at rest
  · exact absurd rest.symm (Option.some_ne_none image)
  · rename_i total
    rw [not_ne_iff, Nat.zero_add] at total
    rw [Option.some_inj, writePayloads, ← assignAll_append, ← List.map_flatMap] at rest
    change _ = 948 at total
    have room : _ ≤ 960 := Nat.le_trans (Nat.le_of_eq total) (by omega)
    obtain ⟨length, stands⟩ := stands_all room layout.row
    rw [rest] at length stands
    rw [count] at stands
    rw [List.forall_mem_append, List.singleton_append, List.cons_append, writesFrom,
      List.forall_mem_cons, List.forall_mem_map] at stands
    obtain ⟨⟨first, commanded⟩, payloads⟩ := stands
    have within : fileSize < 2 ^ 32 := small _ (@List.mem_of_getElem? _ _ 4 _ rfl)
    rw [← length] at layout within commanded
    refine ⟨segments, commands, layout, two, within, first, commanded, ?_⟩
    intro segment there sect among
    exact payloads sect (List.mem_flatMap.mpr ⟨segment, there, among⟩)

/-! ## Reading -/

/-- What the layout leaves of a segment, whatever its sections hold. -/
def Segment.core (segment : Segment) : List Char × Nat × Nat × List (List Char) :=
  (segment.name, segment.vmaddr, segment.vmsize, segment.sections.map Section.sectname)

theorem same_map {α : Type} {f : Section → α}
    (keeps : ∀ sect sect', SameSection sect sect' → f sect' = f sect) {sects sects' : List Section}
    (same : List.Forall₂ SameSection sects sects') : sects'.map f = sects.map f := by
  induction same with
  | nil => rfl
  | cons one _ ih => rw [List.map_cons, List.map_cons, ih, keeps _ _ one]

theorem same_core {segments segments' : List Segment}
    (same : List.Forall₂ SameSegment segments segments') :
    segments'.map Segment.core = segments.map Segment.core := by
  induction same with
  | nil => rfl
  | @cons segment segment' _ _ one _ ih =>
      have names := same_map (f := Section.sectname) (fun _ _ same => by rw [same]) one.sections
      have core : segment'.core = segment.core := by
        rw [Segment.core, names, one.fields]
        rfl
      rw [List.map_cons, List.map_cons, ih, core]

def cores : List (List Char × Nat × Nat × List (List Char)) :=
  [(textName, 0x80008000, 0x2000, [sectTextName]), (dataName, 0x8000a000, 0x2000, [sectConstName]),
    (linkeditName, 0x8000c000, 0x1000, []), (prelinkTextName, 0x8000d000, 0x1000, [sectTextName]),
    (prelinkInfoName, 0x8000e000, 0x2000, [sectInfoName, sectKernelName, sectKextsName]),
    (prelinkStateName, 0x80010000, 0x1000, [sectKernelName, sectKextsName])]

theorem cores_eq (stageNumber : Nat) (metadata : Option (List UInt8)) :
    (buildSegments stageNumber metadata).map Segment.core = cores := rfl

section
variable {mem : Mem} {base : UInt32} {stageNumber : Nat} {metadata : Option (List UInt8)}
  {image : List UInt8} {segments : List Segment} {commands : List (List UInt8)}

theorem Written.core_mem (written : Written stageNumber metadata image segments commands) :
    segments.map Segment.core = cores :=
  (same_core written.laid.same).trans (cores_eq stageNumber metadata)

theorem Written.reads (written : Written stageNumber metadata image segments commands)
    (lies : LiesAt mem base image) :
    commands.flatten.length = 880 ∧
      List.Forall₂ (ReadsSegment mem base) segments (writesFrom 28 commands) := by
  have stands := written.stands
  rw [allCommands, writesFrom_append, List.forall_mem_append] at stands
  obtain ⟨lengths, reads⟩ := packSegments_read lies written.packed stands.1
  refine ⟨?_, reads⟩
  have sizes : segments.map Segment.cmdsize = cores.map fun core => 56 + core.2.2.2.length * 68 := by
    rw [← written.core_mem, List.map_map]
    apply List.map_congr_left
    intro segment _
    change _ = 56 + (segment.sections.map Section.sectname).length * 68
    rw [List.length_map]
    rfl
  rw [List.length_flatten, lengths, sizes]
  decide

theorem reads_at {writes : List (Write UInt8)}
    (reads : List.Forall₂ (ReadsSegment mem base) segments writes) :
    ∀ w ∈ writes, ∃ segment ∈ segments, ReadsSegment mem base segment w := by
  induction reads with
  | nil => exact fun _ there => absurd there List.not_mem_nil
  | cons one _ ih =>
      rw [List.forall_mem_cons]
      refine ⟨⟨_, List.mem_cons_self, one⟩, ?_⟩
      intro w there
      obtain ⟨segment, among, read⟩ := ih w there
      exact ⟨segment, List.mem_cons_of_mem _ among, read⟩

theorem reads_of {writes : List (Write UInt8)}
    (reads : List.Forall₂ (ReadsSegment mem base) segments writes) :
    ∀ segment ∈ segments, ∃ w ∈ writes, ReadsSegment mem base segment w := by
  induction reads with
  | nil => exact fun _ there => absurd there List.not_mem_nil
  | cons one _ ih =>
      rw [List.forall_mem_cons]
      refine ⟨⟨_, List.mem_cons_self, one⟩, ?_⟩
      intro segment there
      obtain ⟨w, among, read⟩ := ih segment there
      exact ⟨w, List.mem_cons_of_mem _ among, read⟩

theorem reads_segments {writes : List (Write UInt8)}
    (reads : List.Forall₂ (ReadsSegment mem base) segments writes) :
    (∀ o ∈ offsets writes, cmdAt mem base o = MachO.lcSegment) ∧
      (offsets writes).map (segmentOf mem base) = segments.map readSegment ∧
        (offsets writes).map (sectionsOf mem base) =
          segments.map fun segment => segment.sections.map (readSection segment.name) := by
  induction reads with
  | nil => exact ⟨fun _ there => absurd there List.not_mem_nil, rfl, rfl⟩
  | cons one _ ih =>
      obtain ⟨cmds, segments', sections⟩ := ih
      rw [offsets, List.map_cons, List.forall_mem_cons, List.map_cons, List.map_cons, List.map_cons,
        List.map_cons]
      exact ⟨⟨one.cmd, cmds⟩, List.cons_eq_cons.mpr ⟨one.command, segments'⟩,
        List.cons_eq_cons.mpr ⟨one.sections, sections⟩⟩

structure TailReads (mem : Mem) (base : UInt32) (size : Nat) : Prop where
  symtab : cmdAt mem base 908 = Probe.lcSymtab
  symtabSize : cmdsizeAt mem base 908 = 24
  stroff : Probe.stroffAt mem base 908 = UInt32.ofNat size
  strsize : Probe.strsizeAt mem base 908 = 0
  unixthread : cmdAt mem base 932 = MachO.lcUnixThread
  unixthreadSize : cmdsizeAt mem base 932 = 16

theorem Written.tail (written : Written stageNumber metadata image segments commands)
    (lies : LiesAt mem base image) : TailReads mem base image.length := by
  obtain ⟨length, -⟩ := written.reads lies
  have stands := written.stands
  rw [allCommands, writesFrom_append, List.forall_mem_append, length] at stands
  have symtab := stands.2 _ List.mem_cons_self
  have unixthread := stands.2 _ (List.mem_cons_of_mem _ List.mem_cons_self)
  dsimp only at symtab unixthread
  rw [length_words] at unixthread
  have start (o : Nat) : base + UInt32.ofNat o + UInt32.ofNat 0 = base + UInt32.ofNat o :=
    UInt32.add_zero _
  refine ⟨?_, ?_, ?_, ?_, ?_, ?_⟩
  · have read := @read32_field _ _ _ 908 _ _ 0 0 _ lies symtab rfl rfl
    rw [start] at read
    exact read
  · exact @read32_field _ _ _ 908 _ _ 4 1 _ lies symtab rfl rfl
  · exact @read32_field _ _ _ 908 _ _ 16 4 _ lies symtab rfl rfl
  · exact @read32_field _ _ _ 908 _ _ 20 5 _ lies symtab rfl rfl
  · have read := @read32_field _ _ _ 932 _ _ 0 0 _ lies unixthread rfl rfl
    rw [start] at read
    exact read
  · exact @read32_field _ _ _ 932 _ _ 4 1 _ lies unixthread rfl rfl

theorem Written.headerAt (written : Written stageNumber metadata image segments commands)
    (lies : LiesAt mem base image) :
    headerAt mem base = ⟨MachO.mhMagic, Probe.cpuTypeArm, Probe.cpuSubtypeArmV7,
      Probe.filetypePreload, 8, 920, 0⟩ := by
  have start (k : UInt32) : base + UInt32.ofNat 0 + k = base + k :=
    congrArg (· + k) (UInt32.add_zero base)
  have zero : base + UInt32.ofNat 0 = base := UInt32.add_zero base
  have field (k i w : Nat) (there : [mhMagic, cpuTypeArm, cpuSubtypeArmV7, mhPreload, 8, 920,
      0][i]? = some w) (place : 0 + 4 * i = 0 + k) :
      read32 mem (base + UInt32.ofNat k) = UInt32.ofNat w := by
    rw [← start]
    exact @read32_field _ _ _ 0 _ _ k i w lies written.header there place
  rw [Probe.headerAt, Probe.Header.mk.injEq]
  refine ⟨?_, ?_, ?_, ?_, ?_, ?_, ?_⟩
  · have read := field 0 0 _ rfl rfl
    rw [zero] at read
    exact read
  · exact field 4 1 _ rfl rfl
  · exact field 8 2 _ rfl rfl
  · exact field 12 3 _ rfl rfl
  · exact field 16 4 _ rfl rfl
  · exact field 20 5 _ rfl rfl
  · exact field 24 6 _ rfl rfl

def commandOffsets (commands : List (List UInt8)) (size : Nat) : List UInt32 :=
  offsets (writesFrom 28 (allCommands commands size))

theorem Written.offsets_eq (written : Written stageNumber metadata image segments commands)
    (lies : LiesAt mem base image) :
    commandOffsets commands image.length = offsets (writesFrom 28 commands) ++ [908, 932] := by
  obtain ⟨length, -⟩ := written.reads lies
  rw [commandOffsets, allCommands, writesFrom_append, length, offsets, List.map_append]
  rfl

theorem Written.tiles (written : Written stageNumber metadata image segments commands)
    (lies : LiesAt mem base image) :
    Probe.Tiles mem base 948 28 (commandOffsets commands image.length) := by
  obtain ⟨length, reads⟩ := written.reads lies
  have tail := written.tail lies
  have total : (allCommands commands image.length).flatten.length = 920 := by
    rw [allCommands, List.flatten_append, List.length_append, length]
    rfl
  have tiles := @tiles_writesFrom mem base 28 (allCommands commands image.length)
  rw [total] at tiles
  apply tiles _ (by decide)
  rw [allCommands, writesFrom_append, List.forall_mem_append, length]
  refine ⟨?_, ?_⟩
  · intro w there
    obtain ⟨segment, -, read⟩ := reads_at reads w there
    have size : cmdsizeAt mem base (UInt32.ofNat w.1) = UInt32.ofNat segment.cmdsize :=
      congrArg Probe.SegmentCommand.cmdsize read.command
    rw [size, UInt32.toNat_ofNat_of_lt' read.words.cmdsize, read.length, Segment.cmdsize]
    omega
  · have symtab : (cmdsizeAt mem base 908).toNat = 24 := congrArg UInt32.toNat tail.symtabSize
    have unixthread : (cmdsizeAt mem base 932).toNat = 16 :=
      congrArg UInt32.toNat tail.unixthreadSize
    have none_ : ∀ w ∈ ([] : List (Write UInt8)),
        (cmdsizeAt mem base (UInt32.ofNat w.1)).toNat = w.2.length ∧ 8 ≤ w.2.length ∧
          4 ∣ w.2.length := fun _ there => absurd there List.not_mem_nil
    have sizes : 8 ≤ 24 ∧ 4 ∣ 24 ∧ 8 ≤ 16 ∧ 4 ∣ 16 := by decide
    exact List.forall_mem_cons.mpr ⟨⟨symtab, sizes.1, sizes.2.1⟩,
      List.forall_mem_cons.mpr ⟨⟨unixthread, sizes.2.2.1, sizes.2.2.2⟩, none_⟩⟩

theorem tiles_unique {stop start : Nat} {commands others : List UInt32}
    (one : Probe.Tiles mem base stop start commands) (two : Probe.Tiles mem base stop start others) :
    commands = others := by
  induction commands generalizing start others with
  | nil =>
      cases others with
      | nil => rfl
      | cons o others =>
          have le := Probe.tiles_length two
          rw [List.length_cons] at le
          change start = stop at one
          omega
  | cons o commands ih =>
      cases others with
      | nil =>
          have le := Probe.tiles_length one
          rw [List.length_cons] at le
          change start = stop at two
          omega
      | cons o' others =>
          obtain ⟨here, -, -, rest⟩ := one
          obtain ⟨here', -, -, rest'⟩ := two
          have same : o = o' := UInt32.toNat_inj.mp (here.trans here'.symm)
          rw [← same] at rest' ⊢
          rw [ih rest rest']

end

end Stage90.Fixture

import Stage90.MachO.LoaderAccess
import Stage90.MachO.ProbeAccepts
import Mathlib.Data.Bool.AllAny

/-!
# What the probe reads

The reads of `stage90_macho_probe` in the artifact, in the order in which the source makes them.
All of them lie in the artifact, whatever it holds.
-/

set_option autoImplicit false

namespace Stage90.Probe

open Stage90.Lib
open Stage90.MachO (Access field lcSegment lcUnixThread)

def Within (x : Access) (base size : UInt32) : Prop := ∀ a, x.Covers a → a - base < size

/-! ## Names -/

/-- The bytes of the field that `fixed16_eq` looks at. -/
def fixed16Reads : List UInt8 → List UInt8 → Nat
  | [], _ => 0
  | c :: fixed, name =>
      let expected := name.headD 0
      if c ≠ expected then 1
      else if expected = 0 then 1
      else fixed16Reads fixed name.tail + 1

/-- `fixed16_eq` on the field at `p`. -/
def compareFixed16 (mem : Mem) (p : UInt32) (name : List UInt8) : Access :=
  ⟨.read, p, fixed16Reads (fixed16 mem p) name⟩

/-- The comparisons of `segment_mask_for_name`, up to the name that is found. -/
def segmentNameReads (mem : Mem) (p : UInt32) : List (List UInt8 × UInt32) → List Access
  | [] => []
  | (name, _) :: names =>
      compareFixed16 mem p name ::
        if fixed16Eq (fixed16 mem p) name then [] else segmentNameReads mem p names

/-- The comparisons of `record_section_match`. -/
def sectionNameReads (mem : Mem) (p : UInt32) :
    List ((List UInt8 × List UInt8) × UInt32) → List Access
  | [] => []
  | ((segname, sectname), _) :: names =>
      compareFixed16 mem (p + 16) segname ::
        if fixed16Eq (fixed16 mem (p + 16)) segname then
          compareFixed16 mem p sectname ::
            if fixed16Eq (fixed16 mem p) sectname then [] else sectionNameReads mem p names
        else sectionNameReads mem p names

/-! ## The reads of each function -/

def recordSegmentReads (mem : Mem) (p : UInt32) : List Access :=
  let segment := segmentCommandAt mem p
  segmentNameReads mem (p + 8) segmentNames ++ [field p 24, field p 28] ++
    if addOverflowU32 segment.vmaddr segment.vmsize then [] else [field p 32, field p 36]

/-- Of a section at `p`, and of its segment command. -/
def recordSectionReads (mem : Mem) (segment p : UInt32) : List Access :=
  sectionNameReads mem p sectionNames ++
    [field p 32, field p 36, field segment 24, field segment 28, field p 40]

def recordSectionsReads (mem : Mem) (bytes segment : UInt32) : Nat → UInt32 → List Access
  | 0, _ => []
  | left + 1, sectionOffset =>
      recordSectionReads mem segment (bytes + sectionOffset) ++
        recordSectionsReads mem bytes segment left (sectionOffset + sectionSize)

def parseSegmentSectionsReads (mem : Mem) (bytes commandOffset : UInt32) : List Access :=
  let segment := segmentCommandAt mem (bytes + commandOffset)
  let sectionBytes := segment.nsects * sectionSize
  [field (bytes + commandOffset) 48, field (bytes + commandOffset) 4] ++
    if mulOverflowU32 segment.nsects sectionSize ∨ addOverflowU32 segmentCommandSize sectionBytes ∨
        segment.cmdsize < segmentCommandSize + sectionBytes then []
    else
      recordSectionsReads mem bytes (bytes + commandOffset) segment.nsects.toNat
        (commandOffset + segmentCommandSize)

def recordCommandReads (mem : Mem) (bytes offset : UInt32) : List Access :=
  let cmd := read32 mem (bytes + offset)
  let cmdsize := read32 mem (bytes + offset + 4)
  field (bytes + offset) 0 ::
    if cmd = lcSegment then
      if cmdsize < segmentCommandSize then []
      else recordSegmentReads mem (bytes + offset) ++ parseSegmentSectionsReads mem bytes offset
    else if cmd = lcSymtab then
      if symtabCommandSize ≤ cmdsize then [field (bytes + offset) 16, field (bytes + offset) 20]
      else []
    else if cmd = lcUnixThread then
      if 16 ≤ cmdsize then [field (bytes + offset) 12] else []
    else []

def commandLoopReads (mem : Mem) (bytes commandsEnd : UInt32) : Nat → UInt32 → List Access
  | 0, _ => []
  | left + 1, offset =>
      if offset < commandsEnd then
        if commandsEnd - offset < loadCommandSize then []
        else
          let cmdsize := read32 mem (bytes + offset + 4)
          field (bytes + offset) 4 ::
            if cmdsize < loadCommandSize ∨ cmdsize &&& 3 ≠ 0 ∨ addOverflowU32 offset cmdsize ∨
                commandsEnd < offset + cmdsize then []
            else
              recordCommandReads mem bytes offset ++
                commandLoopReads mem bytes commandsEnd left (offset + cmdsize)
      else []

def headerReads (artifact : UInt32) : List Access :=
  [field artifact 0, field artifact 4, field artifact 8, field artifact 12, field artifact 16,
    field artifact 20, field artifact 24]

def probeReads (mem : Mem) (artifact artifactSize : UInt32) : List Access :=
  if artifact = 0 then []
  else if artifactSize < headerSize then []
  else
    let header := headerAt mem artifact
    let commandsEnd := headerSize + header.sizeofcmds
    headerReads artifact ++
      if addOverflowU32 headerSize header.sizeofcmds ∨ artifactSize < commandsEnd ∨
          header.sizeofcmds &&& 3 ≠ 0 then []
      else commandLoopReads mem artifact commandsEnd header.ncmds.toNat headerSize

/-! ## Reads before an offset -/

/-- The access starts in the bytes from `base` on, and ends at the offset `stop` or before. -/
def EndsBy (base : UInt32) (stop : Nat) (x : Access) : Prop :=
  ∃ offset : UInt32, x.start = base + offset ∧ offset.toNat + x.size ≤ stop

theorem within_of_endsBy {base size : UInt32} {x : Access} (ends : EndsBy base size.toNat x) :
    Within x base size := by
  obtain ⟨offset, start, fits⟩ := ends
  intro a covers
  rw [Access.Covers, start] at covers
  exact (range_within_iff (Nat.zero_lt_of_lt covers)).mpr fits a covers

section
variable {base : UInt32} {stop : Nat} {x : Access}

theorem EndsBy.mono {stop' : Nat} (ends : EndsBy base stop x) (le : stop ≤ stop') :
    EndsBy base stop' x := by
  obtain ⟨offset, start, fits⟩ := ends
  exact ⟨offset, start, Nat.le_trans fits le⟩

theorem all_nil : ∀ x ∈ ([] : List Access), EndsBy base stop x :=
  fun _ there => absurd there List.not_mem_nil

theorem read_endsBy {offset k : UInt32} {n : Nat} (some_ : 0 < n)
    (below : stop < UInt32.size) (fits : offset.toNat + k.toNat + n ≤ stop) :
    EndsBy base stop ⟨.read, base + offset + k, n⟩ := by
  have sum : (offset + k).toNat = offset.toNat + k.toNat := by
    apply toNat_add_of_lt
    change stop < 2 ^ 32 at below
    omega
  refine ⟨offset + k, UInt32.add_assoc _ _ _, ?_⟩
  rw [sum]
  exact fits

theorem field_endsBy {offset k : UInt32} (below : stop < UInt32.size)
    (fits : offset.toNat + k.toNat + 4 ≤ stop) : EndsBy base stop (field (base + offset) k) :=
  read_endsBy (by decide) below fits

end

theorem fixed16Reads_le (fixed name : List UInt8) : fixed16Reads fixed name ≤ fixed.length := by
  induction fixed generalizing name with
  | nil => exact Nat.le_refl 0
  | cons c fixed ih =>
      rw [fixed16Reads, List.length_cons]
      split
      · exact Nat.le_add_left 1 _
      · split
        · exact Nat.le_add_left 1 _
        · exact Nat.succ_le_succ (ih _)

section
variable {base : UInt32} {stop : Nat} (below : stop < UInt32.size)
include below

theorem compareFixed16_endsBy {mem : Mem} {offset k : UInt32} {name : List UInt8}
    (fits : offset.toNat + k.toNat + 16 ≤ stop) :
    EndsBy base stop (compareFixed16 mem (base + offset + k) name) := by
  have width := fixed16Reads_le (fixed16 mem (base + offset + k)) name
  rw [fixed16_length] at width
  have sum : (offset + k).toNat = offset.toNat + k.toNat := by
    apply toNat_add_of_lt
    change stop < 2 ^ 32 at below
    omega
  refine ⟨offset + k, UInt32.add_assoc _ _ _, ?_⟩
  rw [sum]
  exact Nat.le_trans (Nat.add_le_add_left width _) fits

theorem segmentNameReads_endsBy {mem : Mem} {offset k : UInt32}
    (fits : offset.toNat + k.toNat + 16 ≤ stop) (names : List (List UInt8 × UInt32)) :
    ∀ x ∈ segmentNameReads mem (base + offset + k) names, EndsBy base stop x := by
  induction names with
  | nil => exact all_nil
  | cons name names ih =>
      rw [segmentNameReads, List.forall_mem_cons]
      refine ⟨compareFixed16_endsBy below fits, ?_⟩
      split
      · exact all_nil
      · exact ih

theorem sectionNameReads_endsBy {mem : Mem} {offset : UInt32} (fits : offset.toNat + 32 ≤ stop)
    (names : List ((List UInt8 × List UInt8) × UInt32)) :
    ∀ x ∈ sectionNameReads mem (base + offset) names, EndsBy base stop x := by
  have segname (name : List UInt8) :
      EndsBy base stop (compareFixed16 mem (base + offset + 16) name) :=
    compareFixed16_endsBy below fits
  have sectname (name : List UInt8) :
      EndsBy base stop (compareFixed16 mem (base + offset) name) := by
    have first : offset.toNat + (0 : UInt32).toNat + 16 ≤ stop :=
      Nat.le_trans (Nat.add_le_add_left (by decide) offset.toNat) fits
    have here := @compareFixed16_endsBy base stop below mem offset 0 name first
    rw [UInt32.add_zero] at here
    exact here
  induction names with
  | nil => exact all_nil
  | cons name names ih =>
      rw [sectionNameReads, List.forall_mem_cons]
      refine ⟨segname _, ?_⟩
      split
      · rw [List.forall_mem_cons]
        refine ⟨sectname _, ?_⟩
        split
        · exact all_nil
        · exact ih
      · exact ih

theorem fields_endsBy {offset : UInt32} {ks : List UInt32} {n : Nat}
    (fits : offset.toNat + n ≤ stop) (fields : ∀ k ∈ ks, k.toNat + 4 ≤ n) :
    ∀ x ∈ ks.map (field (base + offset)), EndsBy base stop x := by
  rw [List.forall_mem_map]
  intro k there
  apply field_endsBy below
  have last := fields k there
  omega

theorem recordSegmentReads_endsBy {mem : Mem} {offset : UInt32} (fits : offset.toNat + 56 ≤ stop) :
    ∀ x ∈ recordSegmentReads mem (base + offset), EndsBy base stop x := by
  have name : offset.toNat + (8 : UInt32).toNat + 16 ≤ stop := by
    change offset.toNat + 24 ≤ stop
    omega
  have names := @segmentNameReads_endsBy base stop below mem offset 8 name segmentNames
  have addresses := @fields_endsBy base stop below offset [24, 28] 56 fits (List.all_iff_forall_prop.mp rfl)
  have files := @fields_endsBy base stop below offset [32, 36] 56 fits (List.all_iff_forall_prop.mp rfl)
  rw [recordSegmentReads, List.forall_mem_append, List.forall_mem_append]
  refine ⟨⟨names, addresses⟩, ?_⟩
  split
  · exact all_nil
  · exact files

theorem recordSectionReads_endsBy {mem : Mem} {segment offset : UInt32}
    (command : segment.toNat + 56 ≤ stop) (fits : offset.toNat + 68 ≤ stop) :
    ∀ x ∈ recordSectionReads mem (base + segment) (base + offset), EndsBy base stop x := by
  have names := @sectionNameReads_endsBy base stop below mem offset
    (Nat.le_trans (Nat.add_le_add_left (by decide) _) fits) sectionNames
  have address := @fields_endsBy base stop below offset [32, 36] 68 fits (List.all_iff_forall_prop.mp rfl)
  have range := @fields_endsBy base stop below segment [24, 28] 56 command (List.all_iff_forall_prop.mp rfl)
  have file := @fields_endsBy base stop below offset [40] 68 fits (List.all_iff_forall_prop.mp rfl)
  rw [recordSectionReads, List.forall_mem_append]
  refine ⟨names, ?_⟩
  exact List.forall_mem_append.mpr
    ⟨address, List.forall_mem_append.mpr ⟨range, file⟩⟩

theorem recordSectionsReads_endsBy {mem : Mem} {segment : UInt32}
    (command : segment.toNat + 56 ≤ stop) {left : Nat} {offset : UInt32}
    (fits : offset.toNat + 68 * left ≤ stop) :
    ∀ x ∈ recordSectionsReads mem base (base + segment) left offset, EndsBy base stop x := by
  induction left generalizing offset with
  | zero => exact all_nil
  | succ left ih =>
      rw [Nat.mul_succ, Nat.add_comm (68 * left), ← Nat.add_assoc] at fits
      have here : offset.toNat + 68 ≤ stop := Nat.le_trans (Nat.le_add_right _ _) fits
      have next : (offset + sectionSize).toNat = offset.toNat + 68 :=
        toNat_add_of_lt (Nat.lt_of_le_of_lt here below)
      rw [recordSectionsReads, List.forall_mem_append]
      refine ⟨recordSectionReads_endsBy below command here, ?_⟩
      apply ih
      rw [next]
      exact fits

theorem parseSegmentSectionsReads_endsBy {mem : Mem} {offset : UInt32}
    (large : 56 ≤ (segmentCommandAt mem (base + offset)).cmdsize.toNat)
    (fits : offset.toNat + (segmentCommandAt mem (base + offset)).cmdsize.toNat ≤ stop) :
    ∀ x ∈ parseSegmentSectionsReads mem base offset, EndsBy base stop x := by
  have command : offset.toNat + 56 ≤ stop := Nat.le_trans (Nat.add_le_add_left large _) fits
  have counts := @fields_endsBy base stop below offset [48, 4] 56 command (List.all_iff_forall_prop.mp rfl)
  rw [parseSegmentSectionsReads, List.forall_mem_append]
  refine ⟨counts, ?_⟩
  split
  · exact all_nil
  · rename_i room
    rw [sections_bounds] at room
    have first : (offset + segmentCommandSize).toNat = offset.toNat + 56 :=
      toNat_add_of_lt (Nat.lt_of_le_of_lt command below)
    apply recordSectionsReads_endsBy below command
    rw [first]
    omega

theorem recordCommandReads_endsBy {mem : Mem} {offset : UInt32}
    (large : 8 ≤ (read32 mem (base + offset + 4)).toNat)
    (fits : offset.toNat + (read32 mem (base + offset + 4)).toNat ≤ stop) :
    ∀ x ∈ recordCommandReads mem base offset, EndsBy base stop x := by
  have cmd : EndsBy base stop (field (base + offset) 0) := by
    apply field_endsBy below
    change offset.toNat + 4 ≤ stop
    omega
  rw [recordCommandReads, List.forall_mem_cons]
  refine ⟨cmd, ?_⟩
  split
  · -- LC_SEGMENT
    split
    · exact all_nil
    · rename_i room
      rw [UInt32.lt_iff_toNat_lt, Nat.not_lt] at room
      rw [List.forall_mem_append]
      exact ⟨recordSegmentReads_endsBy below (Nat.le_trans (Nat.add_le_add_left room _) fits),
        parseSegmentSectionsReads_endsBy below room fits⟩
  · split
    · -- LC_SYMTAB
      split
      · rename_i room
        rw [UInt32.le_iff_toNat_le] at room
        exact @fields_endsBy base stop below offset [16, 20] 24
          (Nat.le_trans (Nat.add_le_add_left room _) fits) (List.all_iff_forall_prop.mp rfl)
      · exact all_nil
    · split
      · -- LC_UNIXTHREAD
        split
        · rename_i room
          rw [UInt32.le_iff_toNat_le] at room
          exact @fields_endsBy base stop below offset [12] 16
            (Nat.le_trans (Nat.add_le_add_left room _) fits) (List.all_iff_forall_prop.mp rfl)
        · exact all_nil
      · exact all_nil

end

/-- A turn reads its command only when the command ends in the region. -/
theorem commandLoopReads_endsBy {mem : Mem} {base commandsEnd offset : UInt32} {left : Nat} :
    ∀ x ∈ commandLoopReads mem base commandsEnd left offset, EndsBy base commandsEnd.toNat x := by
  have below := commandsEnd.toNat_lt
  induction left generalizing offset with
  | zero => exact all_nil
  | succ left ih =>
      rw [commandLoopReads]
      split
      · rename_i before
        split
        · exact all_nil
        · rename_i room
          have eight : loadCommandSize.toNat = 8 := rfl
          rw [UInt32.lt_iff_toNat_lt] at before
          rw [UInt32.lt_iff_toNat_lt, Nat.not_lt, eight,
            UInt32.toNat_sub_of_le _ _ (UInt32.le_iff_toNat_le.mpr (Nat.le_of_lt before))] at room
          have cmdsize : EndsBy base commandsEnd.toNat (field (base + offset) 4) := by
            apply field_endsBy below
            change offset.toNat + 8 ≤ commandsEnd.toNat
            omega
          rw [List.forall_mem_cons]
          refine ⟨cmdsize, ?_⟩
          split
          · exact all_nil
          · rename_i bounds
            obtain ⟨large, -, fits⟩ := command_bounds.mp bounds
            rw [List.forall_mem_append]
            exact ⟨recordCommandReads_endsBy below large fits, ih⟩
      · exact all_nil

theorem probeReads_endsBy (mem : Mem) (artifact artifactSize : UInt32) :
    ∀ x ∈ probeReads mem artifact artifactSize, EndsBy artifact artifactSize.toNat x := by
  have below := artifactSize.toNat_lt
  rw [probeReads]
  split
  · exact all_nil
  · split
    · exact all_nil
    · rename_i room
      rw [UInt32.lt_iff_toNat_lt, Nat.not_lt] at room
      have first : (0 : UInt32).toNat + 28 ≤ artifactSize.toNat := room
      have header := @fields_endsBy artifact artifactSize.toNat below 0 [0, 4, 8, 12, 16, 20, 24] 28
        first (List.all_iff_forall_prop.mp rfl)
      rw [UInt32.add_zero] at header
      rw [List.forall_mem_append]
      refine ⟨header, ?_⟩
      split
      · exact all_nil
      · rename_i region
        rw [← or_assoc, not_or, checked_le_iff] at region
        have ends : (headerSize + (headerAt mem artifact).sizeofcmds).toNat ≤ artifactSize.toNat := by
          rw [toNat_add_of_lt (Nat.lt_of_le_of_lt region.1 below)]
          exact region.1
        intro x there
        exact (commandLoopReads_endsBy x there).mono ends

/-- The probe reads nothing but the artifact. -/
theorem probeReads_within (mem : Mem) (artifact artifactSize : UInt32) :
    ∀ x ∈ probeReads mem artifact artifactSize, Within x artifact artifactSize :=
  fun x there => within_of_endsBy (probeReads_endsBy mem artifact artifactSize x there)

end Stage90.Probe

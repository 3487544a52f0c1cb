import Mathlib.Data.List.Forall2
import Stage90.MachO.Fixture

/-!
# The layout of the fixture

Where the generator puts the sections, in the file and in the address space, and which of them end
in their segment.
-/

set_option autoImplicit false

namespace Stage90.Fixture

open Stage90.Lib
open Stage90.Probe (cstring)

/-! ## Alignment -/

theorem align_eq (value k : Nat) :
    align value (1 <<< k) = (value + 2 ^ k - 1) / 2 ^ k * 2 ^ k := by
  rw [align, Nat.shiftLeft_eq, Nat.one_mul, Nat.and_two_pow_sub_one_eq_mod]
  have parts := Nat.div_add_mod (value + 2 ^ k - 1) (2 ^ k)
  rw [Nat.mul_comm] at parts
  omega

theorem le_align (value k : Nat) : value ≤ align value (1 <<< k) := by
  have positive := Nat.two_pow_pos k
  have parts := Nat.div_add_mod (value + 2 ^ k - 1) (2 ^ k)
  have rest := Nat.mod_lt (value + 2 ^ k - 1) positive
  rw [align_eq, Nat.mul_comm]
  omega

theorem dvd_align (value k : Nat) : 2 ^ k ∣ align value (1 <<< k) := by
  rw [align_eq]
  exact Nat.dvd_mul_left _ _

/-- Alignment looks only at the distance from an aligned start. -/
theorem align_add {start k : Nat} (value : Nat) (aligned : 2 ^ k ∣ start) :
    align (start + value) (1 <<< k) = start + align value (1 <<< k) := by
  obtain ⟨q, rfl⟩ := aligned
  have positive := Nat.two_pow_pos k
  have shift : 2 ^ k * q + value + 2 ^ k - 1 = value + 2 ^ k - 1 + 2 ^ k * q := by omega
  rw [align_eq, align_eq, shift, Nat.add_mul_div_left _ _ positive, Nat.add_mul, Nat.mul_comm q,
    Nat.add_comm]

theorem sixteen : (0x10 : Nat) = 1 <<< 4 := rfl

/-! ## The sections of a segment -/

def Section.stop (sect : Section) : Nat := sect.offset + sect.payload.length

/-- A section and the same with its place, in a segment whose payload starts at `payloadStart`. -/
structure Placed (vmaddr payloadStart : Nat) (sect sect' : Section) : Prop where
  same : sect' = { sect with offset := sect'.offset, addr := sect'.addr }
  start : payloadStart ≤ sect'.offset
  addr : sect'.addr = vmaddr + (sect'.offset - payloadStart)

def endCursor : List Section → Nat → Nat
  | [], cursor => cursor
  | sect :: sects, cursor => endCursor sects (align cursor (1 <<< sect.align) + sect.payload.length)

structure Row (cursor : Nat) (sects : List Section) (cursor' : Nat) : Prop where
  le : cursor ≤ cursor'
  ordered : sects.Pairwise fun a b => a.stop ≤ b.offset
  above : ∀ sect ∈ sects, cursor ≤ sect.offset
  below : ∀ sect ∈ sects, sect.stop ≤ cursor'

theorem Row.nil {cursor cursor' : Nat} (le : cursor ≤ cursor') : Row cursor [] cursor' :=
  ⟨le, List.Pairwise.nil, fun _ there => absurd there List.not_mem_nil,
    fun _ there => absurd there List.not_mem_nil⟩

theorem Row.append {cursor middle cursor' : Nat} {sects others : List Section}
    (one : Row cursor sects middle) (two : Row middle others cursor') :
    Row cursor (sects ++ others) cursor' := by
  refine ⟨Nat.le_trans one.le two.le, ?_, ?_, ?_⟩
  · rw [List.pairwise_append]
    exact ⟨one.ordered, two.ordered,
      fun a first b second => Nat.le_trans (one.below a first) (two.above b second)⟩
  · rw [List.forall_mem_append]
    exact ⟨one.above, fun sect there => Nat.le_trans one.le (two.above sect there)⟩
  · rw [List.forall_mem_append]
    exact ⟨fun sect there => Nat.le_trans (one.below sect there) two.le, two.below⟩

theorem Row.single {cursor cursor' : Nat} {sect : Section} (above : cursor ≤ sect.offset)
    (below : sect.stop ≤ cursor') : Row cursor [sect] cursor' := by
  refine ⟨?_, List.pairwise_singleton _ _, List.forall_mem_singleton.mpr above,
    List.forall_mem_singleton.mpr below⟩
  exact Nat.le_trans above (Nat.le_trans (Nat.le_add_right _ _) below)

theorem layoutSections_row {vmaddr vmsize payloadStart cursor cursor' maxEnd' : Nat}
    {sects sects' : List Section} (start : payloadStart ≤ cursor)
    (laid : layoutSections vmaddr vmsize payloadStart sects cursor cursor =
      some (sects', cursor', maxEnd')) :
    List.Forall₂ (Placed vmaddr payloadStart) sects sects' ∧ Row cursor sects' cursor' ∧
      maxEnd' = cursor' ∧ cursor' = endCursor sects cursor ∧
        (sects = [] ∨ ∃ sect ∈ sects', sect.stop = cursor') := by
  induction sects generalizing cursor sects' with
  | nil =>
      obtain ⟨rfl, rfl, rfl⟩ : sects' = [] ∧ cursor' = cursor ∧ maxEnd' = cursor := by
        rw [layoutSections, Option.some_inj, Prod.mk.injEq, Prod.mk.injEq] at laid
        exact ⟨laid.1.symm, laid.2.1.symm, laid.2.2.symm⟩
      exact ⟨List.Forall₂.nil, Row.nil (Nat.le_refl _), rfl, rfl, Or.inl rfl⟩
  | cons sect sects ih =>
      rw [layoutSections] at laid
      dsimp only at laid
      have aligned := le_align cursor sect.align
      have next : cursor ≤ align cursor (1 <<< sect.align) + sect.payload.length :=
        Nat.le_trans aligned (Nat.le_add_right _ _)
      split at laid
      · exact absurd laid.symm (Option.some_ne_none _)
      · rw [Nat.max_eq_right next] at laid
        obtain ⟨⟨rest, last, most⟩, laid', same⟩ := Option.bind_eq_some_iff.mp laid
        rw [Option.some_inj, Prod.mk.injEq, Prod.mk.injEq] at same
        obtain ⟨rfl, rfl, rfl⟩ := same
        obtain ⟨placed, row, most_, ends, end_⟩ := ih (Nat.le_trans start next) laid'
        refine ⟨List.Forall₂.cons ⟨rfl, Nat.le_trans start aligned, rfl⟩ placed, ?_, most_, ends, ?_⟩
        · exact Row.append (Row.single aligned (Nat.le_refl _)) row
        · right
          rcases end_ with rfl | ⟨s, there, stop⟩
          · refine ⟨_, List.mem_cons_self, ?_⟩
            rw [ends]
            rfl
          · exact ⟨s, List.mem_cons_of_mem _ there, stop⟩

theorem endCursor_add {start : Nat} {sects : List Section} (aligned : 16 ∣ start)
    (small : ∀ sect ∈ sects, sect.align ≤ 4) (cursor : Nat) :
    endCursor sects (start + cursor) = start + endCursor sects cursor := by
  induction sects generalizing cursor with
  | nil => rfl
  | cons sect sects ih =>
      rw [List.forall_mem_cons] at small
      have power : 2 ^ sect.align ∣ start :=
        Nat.dvd_trans (Nat.pow_dvd_pow 2 small.1) aligned
      rw [endCursor, endCursor, align_add cursor power, Nat.add_assoc, ih small.2]

/-! ## A segment -/

/-- Whether the sections of a segment end in it.  The first segment also holds the file up to its
first section. -/
def SectionsEnd (headerInText : Bool) (cursor : Nat) (segment : Segment) : Prop :=
  segment.sections = [] ∨
    (if headerInText then cursor else 0) + endCursor segment.sections 0 ≤ segment.vmsize

structure LaidSegment (headerInText : Bool) (cursor : Nat) (segment segment' : Segment)
    (cursor' : Nat) : Prop where
  same : segment' = { segment with
    sections := segment'.sections, fileoff := segment'.fileoff, filesize := segment'.filesize }
  placed : List.Forall₂ (Placed segment.vmaddr (if headerInText then 0 else cursor))
    segment.sections segment'.sections
  row : Row cursor segment'.sections cursor'
  aligned : 16 ∣ cursor'
  file : segment'.fileoff + segment'.filesize ≤ cursor'
  fits : (∀ sect ∈ segment'.sections,
      sect.addr + sect.payload.length ≤ segment.vmaddr + segment.vmsize) ↔
    SectionsEnd headerInText cursor segment

/-- Of sections in a row, the last one decides whether all of them end in the segment. -/
theorem fits_iff {vmaddr vmsize base cursor cursor' : Nat} {sects sects' : List Section}
    (placed : List.Forall₂ (Placed vmaddr base) sects sects') (row : Row cursor sects' cursor')
    (end_ : sects = [] ∨ ∃ sect ∈ sects', sect.stop = cursor') :
    (∀ sect ∈ sects', sect.addr + sect.payload.length ≤ vmaddr + vmsize) ↔
      sects = [] ∨ cursor' - base ≤ vmsize := by
  have place : ∀ sect' ∈ sects', base ≤ sect'.offset ∧
      sect'.addr = vmaddr + (sect'.offset - base) := by
    intro sect' there
    obtain ⟨i, inside, same⟩ := List.mem_iff_getElem.mp there
    have here := List.forall₂_iff_get.mp placed
    have one := here.2 i (here.1 ▸ inside) inside
    rw [List.get_eq_getElem, List.get_eq_getElem, same] at one
    exact ⟨one.start, one.addr⟩
  constructor
  · intro all
    rcases end_ with none_ | ⟨sect, there, stop⟩
    · exact Or.inl none_
    · right
      have here := all sect there
      have start := place sect there
      rw [Section.stop] at stop
      omega
  · intro fits sect there
    have start := place sect there
    have below := row.below sect there
    rw [Section.stop] at below
    rcases fits with none_ | fits
    · rw [none_] at placed
      rw [List.forall₂_nil_left_iff.mp placed] at there
      exact absurd there List.not_mem_nil
    · omega

theorem Row.readdress {cursor cursor' : Nat} {sects : List Section} (addr : Section → Nat)
    (row : Row cursor sects cursor') :
    Row cursor (sects.map fun sect => { sect with addr := addr sect }) cursor' :=
  ⟨row.le, List.pairwise_map.mpr row.ordered, List.forall_mem_map.mpr row.above,
    List.forall_mem_map.mpr row.below⟩

theorem Row.widen {cursor middle cursor' : Nat} {sects : List Section}
    (row : Row cursor sects middle) (le : middle ≤ cursor') : Row cursor sects cursor' :=
  ⟨Nat.le_trans row.le le, row.ordered, row.above,
    fun sect there => Nat.le_trans (row.below sect there) le⟩

theorem layoutSegment_laid {headerInText : Bool} {cursor cursor' : Nat} {segment segment' : Segment}
    (aligned : 16 ∣ cursor) (small : ∀ sect ∈ segment.sections, sect.align ≤ 4)
    (laid : layoutSegment headerInText segment cursor = some (segment', cursor')) :
    LaidSegment headerInText cursor segment segment' cursor' := by
  rw [layoutSegment] at laid
  obtain ⟨⟨sections, last, most⟩, laid', rest⟩ := Option.bind_eq_some_iff.mp laid
  obtain ⟨placed, row, rfl, ends, end_⟩ := layoutSections_row (Nat.le_refl _) laid'
  have relative : endCursor segment.sections cursor = cursor + endCursor segment.sections 0 :=
    endCursor_add aligned small 0
  dsimp only at rest
  by_cases none_ : segment.sections.isEmpty = true
  · rw [if_pos none_, Option.some_inj, Prod.mk.injEq] at rest
    obtain ⟨rfl, rfl⟩ := rest
    rw [List.isEmpty_iff] at none_
    rw [none_] at placed ends
    change most = cursor at ends
    rw [ends]
    refine ⟨rfl, ?_, ?_, aligned, Nat.le_refl _, ?_⟩
    · change List.Forall₂ _ segment.sections segment.sections
      rw [none_]
      exact List.Forall₂.nil
    · change Row cursor segment.sections cursor
      rw [none_]
      exact Row.nil (Nat.le_refl _)
    · refine ⟨fun _ => Or.inl none_, fun _ sect there => ?_⟩
      change sect ∈ segment.sections at there
      rw [none_] at there
      exact absurd there List.not_mem_nil
  · rw [if_neg none_] at rest
    have end_' : segment.sections = [] ∨ ∃ sect ∈ sections, sect.stop = most := end_
    have le := row.le
    have pages := le_align (most - cursor) 4
    rw [← sixteen] at pages
    have within : most ≤ cursor + align (most - cursor) 0x10 := by omega
    have next : 16 ∣ cursor + align (most - cursor) 0x10 :=
      Nat.dvd_add aligned (dvd_align (most - cursor) 4)
    cases headerInText with
    | false =>
        rw [if_neg Bool.false_ne_true, Option.some_inj, Prod.mk.injEq] at rest
        obtain ⟨rfl, rfl⟩ := rest
        refine ⟨rfl, placed, row.widen within, next, Nat.le_refl _, ?_⟩
        have fits := @fits_iff segment.vmaddr segment.vmsize _ _ _ _ _ placed row end_'
        rw [ends, relative, Nat.add_sub_cancel_left] at fits
        rw [SectionsEnd, if_neg Bool.false_ne_true, Nat.zero_add]
        exact fits
    | true =>
        rw [if_pos rfl, Option.some_inj, Prod.mk.injEq] at rest
        obtain ⟨rfl, rfl⟩ := rest
        have placed' : List.Forall₂ (Placed segment.vmaddr 0) segment.sections
            (sections.map fun sect => { sect with addr := segment.vmaddr + sect.offset }) := by
          rw [List.forall₂_map_right_iff]
          refine placed.imp ?_
          intro a b one
          refine ⟨?_, Nat.zero_le _, rfl⟩
          exact congrArg (fun s : Section => { s with addr := segment.vmaddr + b.offset }) one.same
        have moved := row.readdress fun sect => segment.vmaddr + sect.offset
        have size : align most 0x10 = cursor + align (most - cursor) 0x10 := by
          rw [sixteen, ← align_add _ aligned, Nat.add_sub_of_le le]
        refine ⟨rfl, placed', moved.widen within, next, ?_, ?_⟩
        · change 0 + align most 0x10 ≤ _
          rw [size, Nat.zero_add]
        · have last : segment.sections = [] ∨ ∃ sect ∈ sections.map fun sect =>
              { sect with addr := segment.vmaddr + sect.offset }, sect.stop = most := by
            rcases end_' with nothing | ⟨sect, there, stop⟩
            · exact Or.inl nothing
            · exact Or.inr ⟨_, List.mem_map_of_mem there, stop⟩
          have fits := @fits_iff segment.vmaddr segment.vmsize _ _ _ _ _ placed' moved last
          rw [ends, relative, Nat.sub_zero] at fits
          rw [SectionsEnd, if_pos rfl]
          exact fits

/-! ## All segments -/

def SameSection (sect sect' : Section) : Prop :=
  sect' = { sect with offset := sect'.offset, addr := sect'.addr }

structure SameSegment (segment segment' : Segment) : Prop where
  fields : segment' = { segment with
    sections := segment'.sections, fileoff := segment'.fileoff, filesize := segment'.filesize }
  sections : List.Forall₂ SameSection segment.sections segment'.sections

/-- Whether all sections end in their segments, with the header in the first one. -/
def AllEnd (cursor : Nat) : Bool → List Segment → Prop
  | _, [] => True
  | headerInText, segment :: segments =>
      SectionsEnd headerInText cursor segment ∧ AllEnd cursor false segments

structure LaidOut (headerInText : Bool) (cursor : Nat) (segments segments' : List Segment)
    (cursor' : Nat) : Prop where
  same : List.Forall₂ SameSegment segments segments'
  row : Row cursor (segments'.flatMap Segment.sections) cursor'
  starts : ∀ segment ∈ segments', ∀ sect ∈ segment.sections, segment.vmaddr ≤ sect.addr
  file : ∀ segment ∈ segments', segment.fileoff + segment.filesize ≤ cursor'
  fits : (∀ segment ∈ segments', ∀ sect ∈ segment.sections,
      sect.addr + sect.payload.length ≤ segment.vmaddr + segment.vmsize) ↔
    AllEnd cursor headerInText segments

theorem AllEnd.moved {cursor cursor' : Nat} {segments : List Segment} :
    AllEnd cursor false segments ↔ AllEnd cursor' false segments := by
  induction segments with
  | nil => exact Iff.rfl
  | cons segment segments ih => exact and_congr_right fun _ => ih

theorem placed_starts {vmaddr base : Nat} {sects sects' : List Section}
    (placed : List.Forall₂ (Placed vmaddr base) sects sects') :
    ∀ sect ∈ sects', vmaddr ≤ sect.addr := by
  induction placed with
  | nil => exact fun _ there => absurd there List.not_mem_nil
  | cons one _ ih =>
      rw [List.forall_mem_cons]
      exact ⟨one.addr ▸ Nat.le_add_right _ _, ih⟩

theorem layoutFrom_laid {headerInText : Bool} {cursor cursor' : Nat}
    {segments segments' : List Segment} (aligned : 16 ∣ cursor)
    (small : ∀ segment ∈ segments, ∀ sect ∈ segment.sections, sect.align ≤ 4)
    (laid : layoutFrom headerInText segments cursor = some (segments', cursor')) :
    LaidOut headerInText cursor segments segments' cursor' := by
  induction segments generalizing headerInText cursor segments' with
  | nil =>
      rw [layoutFrom, Option.some_inj, Prod.mk.injEq] at laid
      obtain ⟨rfl, rfl⟩ := laid
      have none_ (P : Segment → Prop) : ∀ segment ∈ ([] : List Segment), P segment :=
        fun _ there => absurd there List.not_mem_nil
      exact ⟨List.Forall₂.nil, Row.nil (Nat.le_refl _), none_ _, none_ _,
        fun _ => trivial, fun _ => none_ _⟩
  | cons segment segments ih =>
      rw [List.forall_mem_cons] at small
      rw [layoutFrom] at laid
      obtain ⟨⟨first, middle⟩, one, rest⟩ := Option.bind_eq_some_iff.mp laid
      obtain ⟨⟨others, last⟩, two, same⟩ := Option.bind_eq_some_iff.mp rest
      rw [Option.some_inj, Prod.mk.injEq] at same
      obtain ⟨rfl, rfl⟩ := same
      have here := layoutSegment_laid aligned small.1 one
      have behind := ih here.aligned small.2 two
      have vmaddr : first.vmaddr = segment.vmaddr := by rw [here.same]
      have vmsize : first.vmsize = segment.vmsize := by rw [here.same]
      refine ⟨?_, here.row.append behind.row, ?_, ?_, ?_⟩
      · exact List.Forall₂.cons ⟨here.same, here.placed.imp fun _ _ placed => placed.same⟩ behind.same
      · rw [List.forall_mem_cons, vmaddr]
        exact ⟨placed_starts here.placed, behind.starts⟩
      · rw [List.forall_mem_cons]
        exact ⟨Nat.le_trans here.file behind.row.le, behind.file⟩
      · rw [List.forall_mem_cons, vmaddr, vmsize, here.fits, behind.fits]
        exact and_congr_right fun _ => AllEnd.moved

/-! ## The generator's segments -/

def infoLength (stageNumber : Nat) (metadata : Option (List UInt8)) : Nat :=
  (Nat.toDigits 10 stageNumber).length + 78 +
    match metadata with
    | none | some [] => 0
    | some metadata => (rstripNul metadata).length + 2

/-- `__kexts`, the last of the sections of `__PRELINK_INFO` and of `__PRELINK_STATE`, ends in its
segment. -/
structure Fits (stageNumber : Nat) (metadata : Option (List UInt8)) : Prop where
  info : align (align (infoLength stageNumber metadata) 4 +
      ((Nat.toDigits 10 stageNumber).length + 27)) 4 +
        ((Nat.toDigits 10 stageNumber).length + 26) ≤ 0x2000
  state : align ((Nat.toDigits 10 stageNumber).length + 24) 4 +
      ((Nat.toDigits 10 stageNumber).length + 23) ≤ 0x1000

instance (stageNumber : Nat) (metadata : Option (List UInt8)) :
    Decidable (Fits stageNumber metadata) :=
  decidable_of_iff (_ ∧ _) ⟨fun both => ⟨both.1, both.2⟩, fun fits => ⟨fits.info, fits.state⟩⟩

theorem length_stageText (before : List Char) (stageNumber : Nat) (behind : List Char) :
    (stageText before stageNumber behind).length =
      (Nat.toDigits 10 stageNumber).length + (before.length + behind.length + 1) := by
  rw [stageText, List.length_append, cstring, List.length_map, List.length_append,
    List.length_append, List.length_singleton]
  omega

theorem length_infoPayload (stageNumber : Nat) (metadata : Option (List UInt8)) :
    (infoPayload stageNumber metadata).length = infoLength stageNumber metadata := by
  have element := length_stageText ['<', 's', 't', 'a', 'g', 'e'] stageNumber infoAttributes
  change _ = (Nat.toDigits 10 stageNumber).length + 78 at element
  cases metadata with
  | none => exact element
  | some bytes =>
      cases bytes with
      | nil => exact element
      | cons c bytes =>
          change (stageText ['<', 's', 't', 'a', 'g', 'e'] stageNumber infoAttributes ++ [10] ++
            rstripNul (c :: bytes) ++ [0]).length = (Nat.toDigits 10 stageNumber).length + 78 +
              ((rstripNul (c :: bytes)).length + 2)
          rw [List.length_append, List.length_append, List.length_append, element,
            List.length_singleton, List.length_singleton]
          omega

theorem align_zero (k : Nat) : align 0 (1 <<< k) = 0 := by
  have below : 0 + 2 ^ k - 1 < 2 ^ k := by
    have positive := Nat.two_pow_pos k
    omega
  rw [align_eq, Nat.div_eq_of_lt below, Nat.zero_mul]

/-- The two last sections decide whether all sections end in their segments. -/
theorem allEnd_iff (stageNumber : Nat) (metadata : Option (List UInt8)) :
    AllEnd 960 true (buildSegments stageNumber metadata) ↔ Fits stageNumber metadata := by
  have pages := le_align ((Nat.toDigits 10 stageNumber).length + 24) 2
  have four : (1 <<< 2 : Nat) = 4 := rfl
  have first : align 0 4 = 0 := align_zero 2
  simp only [buildSegments, AllEnd, SectionsEnd, endCursor, align_zero, Nat.zero_add, stText,
    length_stageText, length_infoPayload, textNoexec, prelinkDash, kernelText, kextsText,
    metadataDash, stateDash, List.cons_append, List.nil_append, List.length_cons, List.length_nil,
    List.cons_ne_nil, false_or, true_or, true_and, and_true, if_true, if_false,
    Bool.false_eq_true, four, first, Nat.reduceAdd]
  rw [four] at pages
  constructor
  · intro ⟨_, _, _, info, state⟩
    exact ⟨info, state⟩
  · intro ⟨info, state⟩
    refine ⟨?_, ?_, ?_, info, state⟩
    · omega
    · omega
    · omega

end Stage90.Fixture

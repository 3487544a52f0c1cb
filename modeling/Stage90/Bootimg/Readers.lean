import Stage90.Bootimg.Image

/-!
# The two readers of the command line

The parser joins the two fields and takes what is before the first NUL, the patcher takes
what is before the first NUL of each and joins that.
-/

set_option autoImplicit false

namespace Stage90.Bootimg

open Lib

section Fields
variable {data : Bytes} {offset size : Nat}

theorem field_take {n : Nat} (inside : offset + size ≤ n) :
    field (data.take n) offset size = field data offset size := by
  rw [field, field, List.drop_take, List.take_take, Nat.min_eq_left (by omega)]

theorem word_take {data : Bytes} {n : Nat} (inside : offset + 4 ≤ n) :
    word (data.take n) offset = word data offset := by
  rw [word, word, field_take inside]

theorem length_field (inside : offset + size ≤ data.length) : (field data offset size).length = size := by
  rw [field, List.length_take, List.length_drop]
  omega

theorem beforeNul_append_of_mem {a b : Bytes} (ends : 0 ∈ a) : beforeNul (a ++ b) = beforeNul a := by
  induction a with
  | nil => exact absurd ends List.not_mem_nil
  | cons x a ih =>
      rw [beforeNul, beforeNul, List.cons_append, List.takeWhile_cons, List.takeWhile_cons]
      by_cases nul : x = 0
      · simp [nul]
      · have later : 0 ∈ a := (List.mem_cons.mp ends).resolve_left (Ne.symm nul)
        simp only [nul, ne_eq, not_false_eq_true, decide_true, if_true]
        rw [← beforeNul, ← beforeNul, ih later]

theorem beforeNul_append_of_not_mem {a b : Bytes} (full : 0 ∉ a) :
    beforeNul (a ++ b) = a ++ beforeNul b := by
  induction a with
  | nil => rfl
  | cons x a ih =>
      have other : x ≠ 0 := fun nul => full (nul ▸ List.mem_cons_self)
      have later : 0 ∉ a := fun mem => full (List.mem_cons_of_mem x mem)
      rw [beforeNul, List.cons_append, List.takeWhile_cons, if_pos (decide_eq_true other),
        ← beforeNul, ih later, List.cons_append]

theorem beforeNul_of_not_mem {a : Bytes} (full : 0 ∉ a) : beforeNul a = a := by
  have joined := @beforeNul_append_of_not_mem a [] full
  rw [List.append_nil] at joined
  rw [joined, beforeNul, List.takeWhile_nil, List.append_nil]

theorem beforeNul_eq_nil_iff {a : Bytes} (some_byte : a ≠ []) :
    beforeNul a = [] ↔ a.head? = some 0 := by
  cases a with
  | nil => exact absurd rfl some_byte
  | cons x a =>
      rw [beforeNul, List.takeWhile_cons, List.head?_cons, Option.some_inj]
      by_cases nul : x = 0 <;> simp [nul]

theorem length_decodeAscii (raw : Bytes) : (decodeAscii raw).length = raw.length := List.length_map _

/-- Joined before or after the cut, two fields read the same just when the first has no NUL
or the second begins with one. -/
theorem joined_iff {main extra : Bytes} (some_byte : extra ≠ []) :
    cString (main ++ extra) = decodeAscii (beforeNul main ++ beforeNul extra) ↔
      0 ∉ main ∨ extra.head? = some 0 := by
  rw [cString, ← beforeNul_eq_nil_iff some_byte]
  by_cases ends : 0 ∈ main
  · rw [beforeNul_append_of_mem ends]
    constructor
    · intro same
      have lengths := congrArg List.length same
      rw [length_decodeAscii, length_decodeAscii, List.length_append] at lengths
      exact Or.inr (List.eq_nil_of_length_eq_zero (by omega))
    · intro either
      rw [either.resolve_left (not_not.mpr ends), List.append_nil]
  · rw [beforeNul_append_of_not_mem ends, beforeNul_of_not_mem ends]
    exact ⟨fun _ => Or.inl ends, fun _ => rfl⟩

end Fields

section Printed
variable {data : Bytes} (long : headerSize ≤ data.length) (magic : field data 0 8 = bootMagic)
include long magic

theorem parse_eq (page : word data 36 ≠ 0) :
    parseBootImage data = (unpack (data.take headerSize)).ended
      (readParts data (unpack (data.take headerSize)).parts) := by
  have magic' : (unpack (data.take headerSize)).magic = bootMagic :=
    (field_take (by decide)).trans magic
  have page' : (unpack (data.take headerSize)).pageSize ≠ 0 := by
    intro none
    exact page ((word_take (by decide)).symm.trans none)
  unfold parseBootImage
  rw [if_neg (Nat.not_lt.mpr long)]
  dsimp only
  rw [if_neg (not_not.mpr magic'), if_neg page']

theorem printed_eq (page : word data 36 ≠ 0) :
    printed data = some ((unpack (data.take headerSize)).report
      (readParts data (unpack (data.take headerSize)).parts).1) := by
  unfold printed
  rw [parse_eq long magic page, Header.ended]
  cases (readParts data (unpack (data.take headerSize)).parts).2 <;> rfl

/-- Whatever becomes of the parts, the command line that the parser prints is the one that the
patcher reads just when the first field has no NUL or the second begins with one. -/
theorem command_lines_agree_iff (page : word data 36 ≠ 0) :
    ∃ report, printed data = some report ∧
      (report.cmdline = readCmdline data ↔
        0 ∉ field data cmdlineOff cmdlineLen ∨
          (field data extraCmdlineOff extraCmdlineLen).head? = some 0) := by
  refine ⟨_, printed_eq long magic page, ?_⟩
  have main : field (data.take headerSize) cmdlineOff cmdlineLen =
      field data cmdlineOff cmdlineLen := field_take (by decide)
  have extra : field (data.take headerSize) extraCmdlineOff extraCmdlineLen =
      field data extraCmdlineOff extraCmdlineLen := field_take (by decide)
  have some_byte : field data extraCmdlineOff extraCmdlineLen ≠ [] := by
    apply List.ne_nil_of_length_pos
    rw [length_field long]
    decide
  have joined := @joined_iff (field data cmdlineOff cmdlineLen) _ some_byte
  rw [← main, ← extra] at joined ⊢
  rw [readCmdline, ← main, ← extra]
  exact joined

end Printed

/-- A header with a letter in each of the two fields, and nothing behind it. -/
def twoFields (kernelSize : Nat) (first second : UInt8) : Bytes :=
  bootMagic ++ le32 kernelSize ++ zeros 24 ++ le32 2048 ++ zeros 24 ++ (first :: zeros 511) ++
    zeros 32 ++ (second :: zeros 1023)

/-- The kernel is cut short, and the lines are out all the same. -/
theorem command_lines_agree_one_field :
    ∃ report, printed (twoFields 1 0x61 0) = some report ∧
      report.cmdline = readCmdline (twoFields 1 0x61 0) := by
  obtain ⟨report, shown, agree⟩ :=
    @command_lines_agree_iff (twoFields 1 0x61 0) (by decide +kernel) (by decide +kernel)
      (by decide +kernel)
  have empty : (field (twoFields 1 0x61 0) extraCmdlineOff extraCmdlineLen).head? = some 0 := by
    decide +kernel
  exact ⟨report, shown, agree.mpr (Or.inr empty)⟩

theorem twoFields_printed : (printed (twoFields 0 0x61 0x62)).map Report.cmdline = some ['a'] := by
  decide +kernel

/-- With a letter in each field the parser reads the first and the patcher both. -/
theorem two_fields_disagree :
    ¬ ∀ (data : Bytes) (report : Report), printed data = some report →
      report.cmdline = readCmdline data := by
  intro agree
  obtain ⟨report, shown, line⟩ := Option.map_eq_some_iff.mp twoFields_printed
  have both : readCmdline (twoFields 0 0x61 0x62) = ['a', 'b'] := by decide +kernel
  have same := agree _ report shown
  rw [line, both] at same
  exact absurd same (by decide)

end Stage90.Bootimg

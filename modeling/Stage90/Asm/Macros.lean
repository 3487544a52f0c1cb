import Stage90.Asm.Translate
import Mathlib.Data.Bool.AllAny

/-!
# The declarations of a text

What the translator finds at a declaration and at the end of a macro, and the edits that its
loop amounts to.  A declaration that starts within a macro that has been converted is written
a second time.
-/

set_option autoImplicit false

namespace Stage90.Asm

open Lib Re

section Lines
variable {word : Char → Bool} {text : Text} {i : Nat} {m : Match}

def decls (word : Char → Bool) (text : Text) : List Match := macroDecl.finditer word text

theorem run_lineStart {gs : Groups} {found : Nat × Groups}
    (mem : found ∈ run word text .lineStart i gs) :
    found = (i, gs) ∧ (i = 0 ∨ text[i - 1]? = some '\n') := by
  rw [run] at mem
  split at mem
  · exact ⟨List.mem_singleton.mp mem, by assumption⟩
  · exact absurd mem List.not_mem_nil

/-- A directive at the start of a line, behind blanks. -/
def Directive (text : Text) (i : Nat) (name : String) : Prop :=
  (i = 0 ∨ text[i - 1]? = some '\n') ∧
    ∃ k ≤ runLength isBlank (text.drop i), name.toList <+: text.drop (i + k)

theorem decl_directive (found : macroDecl.matchAt word text i = some m) :
    Directive text i ".macro" ∧ i < m.stop := by
  obtain ⟨rfl, found⟩ := matchAt_eq_some found
  obtain ⟨r0, start, found⟩ := mem_run_seq.mp found
  obtain ⟨rfl, at_line⟩ := run_lineStart start
  obtain ⟨r1, indent, found⟩ := mem_run_seq.mp found
  obtain ⟨r2, blanks, rfl⟩ := mem_run_group.mp indent
  obtain ⟨k, short, rfl⟩ := mem_run_many.mp blanks
  obtain ⟨r3, name, found⟩ := mem_run_seq.mp found
  obtain ⟨rfl, stands⟩ := mem_run_chars.mp name
  have onward := (run_over (over_true _) found).1
  refine ⟨⟨at_line, k, short, stands⟩, ?_⟩
  have six : ".macro".toList.length = 6 := by decide
  dsimp only at onward
  omega

theorem end_directive (found : macroEnd.matchAt word text i = some m) :
    Directive text i ".end" := by
  obtain ⟨rfl, found⟩ := matchAt_eq_some found
  obtain ⟨r0, start, found⟩ := mem_run_seq.mp found
  obtain ⟨rfl, at_line⟩ := run_lineStart start
  obtain ⟨r1, blanks, found⟩ := mem_run_seq.mp found
  obtain ⟨k, short, rfl⟩ := mem_run_many.mp blanks
  obtain ⟨r3, name, found⟩ := mem_run_seq.mp found
  obtain ⟨rfl, stands⟩ := mem_run_chars.mp name
  exact ⟨at_line, k, short, stands⟩

theorem blanks_before_dot {k : Nat} {cs : Text} (short : k ≤ runLength isBlank (text.drop i))
    (stands : '.' :: cs <+: text.drop (i + k)) : k = runLength isBlank (text.drop i) := by
  by_contra other
  obtain ⟨c, at_k, blank⟩ :=
    getElem?_of_lt_runLength (show k < runLength isBlank (text.drop i) by omega)
  obtain ⟨rest, same⟩ := stands
  have dot := (drop_eq_cons_iff.mp same.symm).1
  rw [List.getElem?_drop, dot, Option.some_inj] at at_k
  rw [← at_k] at blank
  exact absurd blank (by decide)

theorem directive_unique (decl : Directive text i ".macro") : ¬ Directive text i ".end" := by
  intro stop
  obtain ⟨_, k, short, stands⟩ := decl
  obtain ⟨_, k', short', stands'⟩ := stop
  obtain rfl := blanks_before_dot short stands
  obtain rfl := blanks_before_dot short' stands'
  obtain ⟨rest, same⟩ := stands
  obtain ⟨rest', same'⟩ := stands'
  have both := same.trans same'.symm
  simp at both

theorem ne_newline {p : Char → Bool} (no : p '\n' = false) : ∀ c, p c → c ≠ '\n' := by
  intro c fits same
  rw [same, no] at fits
  exact absurd fits Bool.false_ne_true

theorem macroDecl_over : macroDecl.Over (· ≠ '\n') := by
  have blank := @ne_newline isBlank (by decide)
  have start := @ne_newline nameStart (by decide)
  have char := @ne_newline nameChar (by decide)
  exact ⟨trivial, blank, over_chars (List.all_iff_forall_prop.mp rfl), ⟨blank, blank⟩,
    ⟨start, char⟩, blank, trivial, trivial⟩

theorem macroEnd_over : macroEnd.Over (· ≠ '\n') := by
  have blank := @ne_newline isBlank (by decide)
  exact ⟨trivial, blank, over_chars (List.all_iff_forall_prop.mp rfl),
    ⟨over_chars (List.all_iff_forall_prop.mp rfl), over_chars (List.all_iff_forall_prop.mp rfl)⟩, trivial,
    trivial⟩

theorem not_within {r : Re} (crosses : r.Over (· ≠ '\n')) (found : r.matchAt word text i = some m)
    {j : Nat} (line : j = 0 ∨ text[j - 1]? = some '\n') (behind : i < j) : m.stop < j := by
  obtain ⟨rfl, mem⟩ := matchAt_eq_some found
  by_contra inside
  obtain ⟨c, at_j, other⟩ := (run_over crosses mem).2 (j - 1) (by omega) (by omega)
  rcases line with first | newline
  · omega
  · rw [newline, Option.some_inj] at at_j
    exact other at_j.symm

/-- A declaration that starts before the end of an end directive is over before it. -/
theorem decl_before_end {e : Match} (decl : macroDecl.matchAt word text m.start = some m)
    (stop : macroEnd.matchAt word text e.start = some e) (before : m.start < e.stop) :
    m.stop < e.start := by
  have line := (decl_directive decl).1
  have line' := end_directive stop
  rcases Nat.lt_trichotomy m.start e.start with first | same | later
  · exact not_within macroDecl_over decl line'.1 first
  · rw [same] at line
    exact absurd line' (directive_unique line)
  · have := not_within macroEnd_over stop line.1 later
    omega

end Lines

section Edits
variable (alnum : Char → Bool) (text : Text)

/-- What the loop writes for a declaration, and how far it goes on. -/
def macroEdit (m : Match) : Edit :=
  match conversion alnum text m with
  | none => ⟨m.start, m.stop, m.text text⟩
  | some c => ⟨m.start, c.stop.stop, header text m c.params ++ c.newBody ++ c.stop.text text⟩

def macroEdits : List Edit := (decls (isWord alnum) text).map (macroEdit alnum text)

theorem macroStep_eq (s : MacroLoop) (m : Match) :
    (macroStep alnum text s m).out.flatten = s.out.flatten ++ slice text s.pos m.start ++
      (macroEdit alnum text m).new ∧
      (macroStep alnum text s m).pos = (macroEdit alnum text m).stop := by
  rw [macroStep, macroEdit]
  cases conversion alnum text m with
  | none => simp
  | some c => simp

theorem macroLoop_eq (ms : List Match) : ∀ s : MacroLoop,
    ((ms.foldl (macroStep alnum text) s).out ++
        [text.drop (ms.foldl (macroStep alnum text) s).pos]).flatten =
      s.out.flatten ++ splice text s.pos (ms.map (macroEdit alnum text)) := by
  induction ms with
  | nil =>
      intro s
      simp [splice]
  | cons m ms ih =>
      intro s
      obtain ⟨out, pos⟩ := macroStep_eq alnum text s m
      have start : (macroEdit alnum text m).start = m.start := by
        rw [macroEdit]
        cases conversion alnum text m <;> rfl
      rw [List.foldl_cons, ih, out, pos, List.map_cons, splice, start]
      simp only [List.append_assoc]

/-- The loop makes an edit for each declaration, one behind another. -/
theorem translateMacros_eq :
    (translateMacros alnum text).1 = splice text 0 (macroEdits alnum text) :=
  macroLoop_eq alnum text _ ⟨[], 0, 0⟩

/-- No declaration starts within a macro that is converted. -/
def Apart : Prop :=
  (decls (isWord alnum) text).Pairwise fun m m' =>
    ∀ c, conversion alnum text m = some c → c.stop.stop ≤ m'.start

variable {alnum text}

theorem search_of_conversion {m : Match} {c : Conversion}
    (converted : conversion alnum text m = some c) :
    macroEnd.search (isWord alnum) text m.stop = some c.stop := by
  rw [conversion] at converted
  cases found : macroEnd.search (isWord alnum) text m.stop with
  | none =>
      rw [found] at converted
      exact absurd converted (Option.some_ne_none c).symm
  | some stop =>
      rw [found] at converted
      dsimp only at converted
      split at converted
      · exact absurd converted (Option.some_ne_none c).symm
      · rw [← Option.some.inj converted]

theorem macroEdit_start (m : Match) : (macroEdit alnum text m).start = m.start := by
  rw [macroEdit]
  cases conversion alnum text m <;> rfl

/-- The end of a macro that is converted is the end directive of a declaration within it. -/
theorem search_within {m m' stop : Match}
    (decl : macroDecl.matchAt (isWord alnum) text m'.start = some m')
    (found : macroEnd.search (isWord alnum) text m.stop = some stop) (behind : m.stop ≤ m'.start)
    (before : m'.start < stop.stop) :
    m'.stop < stop.start ∧ macroEnd.search (isWord alnum) text m'.stop = some stop := by
  obtain ⟨_, inside, here, none_before⟩ := search_eq_some.mp found
  have past := decl_before_end decl here before
  have forward := start_le_stop decl
  refine ⟨past, search_eq_some.mpr ⟨Nat.le_of_lt past, inside, here, fun i reached => ?_⟩⟩
  exact none_before i (by omega)

theorem macroEdit_stop_le {m m' : Match}
    (decl : macroDecl.matchAt (isWord alnum) text m'.start = some m') (behind : m.stop ≤ m'.start)
    (before : m'.start < (macroEdit alnum text m).stop) :
    (macroEdit alnum text m').stop ≤ (macroEdit alnum text m).stop := by
  cases converted : conversion alnum text m with
  | none =>
      have stop : (macroEdit alnum text m).stop = m.stop := by rw [macroEdit, converted]
      omega
  | some c =>
      have found := search_of_conversion converted
      have stop : (macroEdit alnum text m).stop = c.stop.stop := by rw [macroEdit, converted]
      rw [stop] at before ⊢
      obtain ⟨past, found'⟩ := search_within decl found behind before
      have forward := start_le_stop (search_eq_some.mp found).2.2.1
      cases converted' : conversion alnum text m' with
      | none =>
          rw [macroEdit, converted']
          dsimp only
          omega
      | some c' =>
          have same := found'.symm.trans (search_of_conversion converted')
          rw [macroEdit, converted']
          dsimp only
          rw [Option.some.inj same]

theorem macroEdit_sized {m : Match} (mem : m ∈ decls (isWord alnum) text) :
    (macroEdit alnum text m).start ≤ (macroEdit alnum text m).stop ∧
      (macroEdit alnum text m).stop ≤ text.length ∧ (macroEdit alnum text m).new ≠ [] := by
  obtain ⟨within, found⟩ := mem_finditer mem
  have forward := start_le_stop found
  have inside := stop_le_length within found
  have long := (decl_directive found).2
  cases converted : conversion alnum text m with
  | none =>
      rw [macroEdit, converted]
      refine ⟨forward, inside, List.ne_nil_of_length_pos ?_⟩
      dsimp only
      rw [Match.text, length_slice inside]
      omega
  | some c =>
      obtain ⟨reached, within', here, _⟩ := search_eq_some.mp (search_of_conversion converted)
      have forward' := start_le_stop here
      rw [macroEdit, converted]
      refine ⟨by dsimp only; omega, stop_le_length within' here, ?_⟩
      simp [header]

theorem macroEdits_pairwise : (macroEdits alnum text).Pairwise
    fun e e' => e'.start < e.stop → e'.stop ≤ e.stop := by
  rw [macroEdits, List.pairwise_map]
  apply (pairwise_finditer macroDecl).imp_of_mem
  intro m m' _ mem' behind before
  rw [macroEdit_start] at before
  exact macroEdit_stop_le (mem_finditer mem').2 behind before

/-- The loop edits in place just when no macro that it converts has a declaration in it. -/
theorem macros_spliced_iff :
    Spliced text (macroEdits alnum text) (translateMacros alnum text).1 ↔ Apart alnum text := by
  have sized : ∀ e ∈ macroEdits alnum text,
      e.start ≤ e.stop ∧ e.stop ≤ text.length ∧ e.new ≠ [] := by
    intro e mem
    obtain ⟨m, among, rfl⟩ := List.mem_map.mp mem
    exact macroEdit_sized among
  rw [translateMacros_eq, spliced_iff sized macroEdits_pairwise,
    inOrder_iff fun e mem => (sized e mem).1, macroEdits, List.pairwise_map]
  have behind := @pairwise_finditer text (isWord alnum) macroDecl
  constructor
  · intro ⟨_, pairs⟩
    apply pairs.imp
    intro m m' before c converted
    rw [macroEdit_start, macroEdit, converted] at before
    exact before
  · intro apart
    refine ⟨fun e _ => Nat.zero_le e.start, behind.imp₂ (fun m m' past inner => ?_) apart⟩
    rw [macroEdit_start, macroEdit]
    cases converted : conversion alnum text m with
    | none => exact past
    | some c => exact inner c converted

end Edits

end Stage90.Asm

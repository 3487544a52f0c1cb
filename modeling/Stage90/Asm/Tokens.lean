import Stage90.Asm.Mnemonics

/-!
# The rewritten tokens

What the two mnemonic rules find at a match, and which of their rewrites keep the instruction.
-/

set_option autoImplicit false

namespace Stage90.Asm

open Lib Re

section Matches
variable {word : Char → Bool} {text : Text}

theorem run_group_oneOf {k : Nat} {ws : List String} {i : Nat} {gs : Groups} {found : Nat × Groups}
    (mem : found ∈ run word text (group k (oneOf ws)) i gs) :
    ∃ w ∈ ws, found = (i + w.toList.length, (k, i, i + w.toList.length) :: gs) ∧
      w.toList <+: text.drop i := by
  obtain ⟨inner, first, rfl⟩ := mem_run_group.mp mem
  obtain ⟨w, among, read⟩ := mem_run_oneOf first
  obtain ⟨rfl, stands⟩ := mem_run_chars.mp read
  exact ⟨w, among, rfl, stands⟩

theorem run_wordEdge {i : Nat} {gs : Groups} {found : Nat × Groups}
    (mem : found ∈ run word text .wordEdge i gs) : found = (i, gs) := by
  rw [run] at mem
  split at mem
  · exact List.mem_singleton.mp mem
  · exact absurd mem List.not_mem_nil

theorem group_eq {m : Match} {k s : Nat} {cs : Text}
    (span : m.groups.lookup k = some (s, s + cs.length)) (stands : cs <+: text.drop s) :
    m.group text k = cs := by
  rw [Match.group, span]
  exact slice_of_prefix stands

theorem text_of_three {m : Match} {a b c : Text}
    (stop : m.stop = m.start + a.length + b.length + c.length)
    (first : a <+: text.drop m.start) (second : b <+: text.drop (m.start + a.length))
    (third : c <+: text.drop (m.start + a.length + b.length)) : m.text text = a ++ b ++ c := by
  have stands : a ++ b ++ c <+: text.drop m.start := by
    apply prefix_append (prefix_append first second)
    rw [List.length_append, ← Nat.add_assoc]
    exact third
  have same := slice_of_prefix stands
  rw [List.length_append, List.length_append, ← Nat.add_assoc, ← Nat.add_assoc, ← stop] at same
  exact same

theorem blockFd_new (m : Match) :
    blockFd.new text m = m.group text 1 ++ "ia".toList ++ m.group text 2 := rfl

theorem userT_new (m : Match) :
    userT.new text m = m.group text 1 ++ m.group text 3 ++ m.group text 2 := rfl

theorem blockFd_match {m : Match} (mem : m ∈ blockFd.pattern.finditer word text) :
    ∃ op ∈ ["ldm", "stm"], ∃ c ∈ cond, m.group text 1 = op.toList ∧
      m.text text = op.toList ++ c.toList ++ "fd".toList ∧
      blockFd.new text m = op.toList ++ "ia".toList ++ c.toList := by
  obtain ⟨start, found⟩ := matchAt_eq_some (mem_finditer mem).2
  obtain ⟨r0, edge, found⟩ := mem_run_seq.mp found
  obtain rfl := run_wordEdge edge
  obtain ⟨r1, first, found⟩ := mem_run_seq.mp found
  obtain ⟨op, is_op, rfl, op_stands⟩ := run_group_oneOf first
  obtain ⟨r2, second, found⟩ := mem_run_seq.mp found
  obtain ⟨c, is_cond, rfl, c_stands⟩ := run_group_oneOf second
  obtain ⟨r3, third, found⟩ := mem_run_seq.mp found
  obtain ⟨rfl, fd_stands⟩ := mem_run_chars.mp third
  obtain ⟨r4, edge, found⟩ := mem_run_seq.mp found
  obtain rfl := run_wordEdge edge
  rw [List.foldr_nil, run, List.mem_singleton, Prod.mk.injEq] at found
  obtain ⟨stop, groups⟩ := found
  have group1 : m.group text 1 = op.toList := group_eq (by rw [groups]; rfl) op_stands
  have group2 : m.group text 2 = c.toList := group_eq (by rw [groups]; rfl) c_stands
  refine ⟨op, is_op, c, is_cond, group1, text_of_three stop op_stands c_stands fd_stands, ?_⟩
  rw [blockFd_new, group1, group2]

theorem run_suffix {i : Nat} {gs : Groups} {found : Nat × Groups}
    (mem : found ∈ run word text
      (group 3 (alt (.seq (alt (lit "b") empty) (lit "t")) (lit "b"))) i gs) :
    ∃ form ∈ ["bt", "t", "b"],
      found = (i + form.toList.length, (3, i, i + form.toList.length) :: gs) ∧
        form.toList <+: text.drop i := by
  obtain ⟨inner, body, rfl⟩ := mem_run_group.mp mem
  cases mem_run_alt.mp body with
  | inl user =>
      obtain ⟨mid, byte, letter⟩ := mem_run_seq.mp user
      obtain ⟨rfl, t_stands⟩ := mem_run_chars.mp letter
      cases mem_run_alt.mp byte with
      | inl b =>
          obtain ⟨rfl, b_stands⟩ := mem_run_chars.mp b
          exact ⟨"bt", by decide, rfl, prefix_append b_stands t_stands⟩
      | inr none =>
          obtain rfl := List.mem_singleton.mp none
          exact ⟨"t", by decide, rfl, t_stands⟩
  | inr b =>
      obtain ⟨rfl, b_stands⟩ := mem_run_chars.mp b
      exact ⟨"b", by decide, rfl, b_stands⟩

theorem userT_match {m : Match} (mem : m ∈ userT.pattern.finditer word text) :
    ∃ op ∈ ["ldr", "str"], ∃ c ∈ cond, ∃ form ∈ ["bt", "t", "b"],
      m.text text = op.toList ++ c.toList ++ form.toList ∧
      userT.new text m = op.toList ++ form.toList ++ c.toList := by
  obtain ⟨start, found⟩ := matchAt_eq_some (mem_finditer mem).2
  obtain ⟨r0, edge, found⟩ := mem_run_seq.mp found
  obtain rfl := run_wordEdge edge
  obtain ⟨r1, first, found⟩ := mem_run_seq.mp found
  obtain ⟨op, is_op, rfl, op_stands⟩ := run_group_oneOf first
  obtain ⟨r2, second, found⟩ := mem_run_seq.mp found
  obtain ⟨c, is_cond, rfl, c_stands⟩ := run_group_oneOf second
  obtain ⟨r3, third, found⟩ := mem_run_seq.mp found
  obtain ⟨form, is_form, rfl, form_stands⟩ := run_suffix third
  obtain ⟨r4, edge, found⟩ := mem_run_seq.mp found
  obtain rfl := run_wordEdge edge
  rw [List.foldr_nil, run, List.mem_singleton, Prod.mk.injEq] at found
  obtain ⟨stop, groups⟩ := found
  have group1 : m.group text 1 = op.toList := group_eq (by rw [groups]; rfl) op_stands
  have group2 : m.group text 2 = c.toList := group_eq (by rw [groups]; rfl) c_stands
  have group3 : m.group text 3 = form.toList := group_eq (by rw [groups]; rfl) form_stands
  refine ⟨op, is_op, c, is_cond, form, is_form,
    text_of_three stop op_stands c_stands form_stands, ?_⟩
  rw [userT_new, group1, group2, group3]

/-- A rewritten block transfer stays the same instruction where it loads. -/
theorem sameInstruction_block_iff {m : Match} (mem : m ∈ blockFd.pattern.finditer word text) :
    SameInstruction (m.text text) (blockFd.new text m) ↔ m.group text 1 ≠ "stm".toList := by
  obtain ⟨op, is_op, c, is_cond, group1, before, after⟩ := blockFd_match mem
  rw [before, after, group1, block_same op is_op c is_cond]
  exact not_congr String.toList_inj.symm

theorem sameInstruction_user {m : Match} (mem : m ∈ userT.pattern.finditer word text) :
    SameInstruction (m.text text) (userT.new text m) := by
  obtain ⟨op, is_op, c, is_cond, form, is_form, before, after⟩ := userT_match mem
  rw [before, after]
  exact user_same op is_op c is_cond form is_form

end Matches

end Stage90.Asm

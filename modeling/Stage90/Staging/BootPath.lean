import Stage90.Lib.PyText

/-!
# The boot-path patcher

`patch_d13_boot_path.py`: the fast path of `locore.s` is removed and a loop that zeroes the boot
table is put in.  The tool writes the file before its last checks, so a text that only these turn
down is left changed.
-/

set_option autoImplicit false

namespace Stage90.Staging.BootPath

open Stage90.Lib PyText

/-! ## The texts -/

def anchor1 : PyText :=
  "    /* If MMU is initialized, go the quick way. */
    mrc     p15, 0, r4, c1, c0, 0
    and     r4, #0x1
    cmp     r4, #0x1
    beq     mmu_initialized
".toList

def replacement1 : PyText :=
  "    /* 970g edit 1: the fast path is REMOVED (tools/patch_d13_boot_path.py).
     *
     * D13's `__start` branched to `mmu_initialized` when the MMU was already on, and the payload
     * always jumps in with SCTLR.M=1 - so this branch was ALWAYS taken and the boot path below
     * was dead.  That left the payload's LOW table (`0x6c4000`) as TTBR0 and never built the boot
     * table at `topOfKernelData`, so the entry's console window guard refused (`entry_stubs.c:2308`)
     * and the whole Darwin-13 entry line was silent (doc section 6f).
     *
     * 4570's `start.s` has no such branch: it writes TTBR0 = topOfKernelData|attr unconditionally
     * and builds the boot table, and it boots.  This removes the branch so D13 does the same. */
".toList

def marker1Gone : PyText := "beq     mmu_initialized".toList

def marker1Present : PyText := "mmu_reinitialize:".toList

def token1 : PyText := "970g edit 1: the fast path is REMOVED".toList

def anchor2 : PyText :=
  "    /* Now, we have to set our TTB to this value. */
    mcr     p15, 0, r5, c2, c0, 0

    /* Make our section mappings now. */
".toList

def replacement2 : PyText :=
  "    /* Now, we have to set our TTB to this value. */
    mcr     p15, 0, r5, c2, c0, 0

    /* 970g edit 2: zero the boot translation table, as 4570's start.s does.
     *
     * 4570 start.s:159-167 writes ARM_TTE_TYPE_FAULT (0) over 10240 entries starting at
     * topOfKernelData; that is (PGBYTES/4 + PGBYTES/4*4)*2 = 0xa000 bytes, the same table size the
     * entry layout reserves (STAGE90_XNU_ENTRY_TABLE_BYTES).  D13's boot path omitted the loop, so
     * every slot the `map:` loop below does not reach - including the entry console's own L1 slot
     * (0xde500000 >> 20 = 0xde5), which is far above memSize - kept stale DRAM.  The entry's
     * `entry_section_install` refuses an occupied slot (entry_stubs.c:2122), so without this the
     * console is refused even with a HIGH table; the working 4570 capture reads
     * xnu_live_slot_before=0x00000000, i.e. the slot was zero before the install.
     *
     * Registers: r5 <- r4 (the table base); the pointer walks 10240 words.  r4, r10, r11, r12 and
     * r0 are untouched for the `map:` loop; r2/r3/r5 are free here. */
    mov     r5, r4              /* r5 = boot table base (topOfKernelData) */
    mov     r3, #0              /* fault template: ARM_TTE_TYPE_FAULT == 0 */
    mov     r2, #1024           /* r2 = PGBYTES >> 2 (TTEs per page) */
    add     r2, r2, r2, LSL #2  /* r2 *= 5 (8 ttes + 2 ptes to clear) */
    mov     r2, r2, LSL #1      /* r2 *= 2 -> 10240 words = 0xa000 bytes */
_970g_zero_tte:
    str     r3, [r5], #4
    subs    r2, r2, #1
    bne     _970g_zero_tte

    /* Make our section mappings now. */
".toList

def marker2Gone : PyText := "_970g_zero_tte".toList

def token2 : PyText := "_970g_zero_tte".toList

/-! ## The file -/

/-- What a read in text mode makes of the line ends. -/
def universalNewlines : PyText → PyText
  | [] => []
  | '\r' :: '\n' :: text => '\n' :: universalNewlines text
  | '\r' :: text => '\n' :: universalNewlines text
  | c :: text => c :: universalNewlines text

/-- `fh.read()`.  Under utf-8 with `surrogateescape` every file decodes and encodes again, and an
ASCII character stands for its byte and nothing else does; the texts of the tool are ASCII, so that
each byte may be the character of its number. -/
def read (file : List UInt8) : PyText := universalNewlines (file.map fun b => Char.ofNat b.toNat)

/-- `fh.write(src)` -/
def write (src : PyText) : List UInt8 := src.map fun c => UInt8.ofNat c.toNat

/-! ## The tool -/

inductive Failure
  | anchors (name : String) (n : Nat)
  | notInserted (name : String)
  | assertion (message : String)
  deriving DecidableEq

/-- `patch_once`: the text and whether it changed. -/
def patchOnce (src anchor replacement patchedToken : PyText) (name : String) :
    Except Failure (PyText × Bool) :=
  if within patchedToken src then .ok (src, false)
  else if count anchor src ≠ 1 then .error (.anchors name (count anchor src))
  else
    let out := replaceFirst anchor replacement src
    if out = src ∨ within patchedToken out = false then .error (.notInserted name)
    else .ok (out, true)

/-- The two edits of `main`. -/
def edits (src : PyText) : Except Failure PyText :=
  (patchOnce src anchor1 replacement1 token1 "edit 1 (fast path)").bind fun one =>
    (patchOnce one.1 anchor2 replacement2 token2 "edit 2 (zero boot table)").map Prod.fst

/-- The assertions at the end of `main`. -/
def checks (final : PyText) : Except Failure Unit :=
  if within marker1Gone final then .error (.assertion "edit 1 did not take")
  else if !within marker2Gone final then .error (.assertion "edit 2 did not take")
  else if !within marker1Present final then
    .error (.assertion "the boot path label vanished")
  else .ok ()

/-- `main`, of one argument: how it ends, `.ok` being exit 0, and the file behind it. -/
def main (file : List UInt8) : Except Failure Unit × List UInt8 :=
  match edits (read file) with
  | .error failure => (.error failure, file)
  | .ok src => (checks (read (write src)), write src)

/-! ## What a run is to do -/

/-- The loop that edit 2 puts in. -/
def zeroingLoop : PyText :=
  "_970g_zero_tte:
    str     r3, [r5], #4
    subs    r2, r2, #1
    bne     _970g_zero_tte
".toList

structure Patched (file : List UInt8) : Prop where
  branch : ¬ marker1Gone <:+: read file
  loop : count zeroingLoop (read file) = 1
  again : main file = (.ok (), file)

structure Meets (file : List UInt8) : Prop where
  atomic : ((main file).1 = .ok () ∧ Patched (main file).2) ∨
    ((main file).1 ≠ .ok () ∧ (main file).2 = file)
  half : Xor (token1 <:+: read file) (token2 <:+: read file) →
    ((main file).1 = .ok () ∧ token1 <:+: read (main file).2 ∧ token2 <:+: read (main file).2) ∨
      (main file).2 = file

/-- Each edit is there or can be made. -/
structure Editable (text : PyText) : Prop where
  one : token1 <:+: text ∨ count anchor1 text = 1
  two : token2 <:+: text ∨ count anchor2 text = 1

structure Passes (text : PyText) : Prop where
  branch : if token1 <:+: text then ¬ marker1Gone <:+: text else count marker1Gone text = 1
  label : marker1Present <:+: text

/-! ## The texts do not run into one another -/

structure Holds (part text front back : PyText) : Prop where
  split : text = front ++ (part ++ back)
  front : avoids part front = true
  back : keepsOff part back = true

def isPlain (c : Char) : Bool := c != '\r' && c.toNat < 256

structure Apart (a₁ r₁ t₁ gone present a₂ r₂ t₂ zeroing : PyText) : Prop where
  plain : r₁.all isPlain = true ∧ r₂.all isPlain = true
  tokens : within t₁ r₁ = true ∧ within t₂ r₂ = true ∧ within t₂ zeroing = true
  token1 : avoids t₁ a₂ = true ∧ avoids t₁ r₂ = true
  token2 : avoids t₂ a₁ = true ∧ avoids t₂ r₁ = true
  anchor : avoids a₂ a₁ = true ∧ avoids a₂ r₁ = true
  label : (avoids present a₁ = true ∧ avoids present r₁ = true) ∧
    avoids present a₂ = true ∧ avoids present r₂ = true
  branch : avoids gone r₁ = true ∧ avoids gone a₂ = true ∧ avoids gone r₂ = true
  branches : Holds gone a₁ (a₁.take 131) (a₁.drop 154)
  loop : avoids zeroing a₁ = true ∧ avoids zeroing r₁ = true
  loops : Holds zeroing r₂ (r₂.take 1470) (r₂.drop 1561)

-- used as `(texts_apart)`: a longer name is looked up in its proof as well, which takes long
set_option maxRecDepth 8000 in
theorem texts_apart : Apart anchor1 replacement1 token1 marker1Gone marker1Present anchor2
    replacement2 token2 zeroingLoop := by
  refine of_chars (P := fun text => Apart text replacement1 token1 marker1Gone marker1Present
    anchor2 replacement2 token2 zeroingLoop) _ rfl ?_
  refine of_chars (P := fun text => Apart _ text token1 marker1Gone marker1Present
    anchor2 replacement2 token2 zeroingLoop) _ rfl ?_
  refine of_chars (P := fun text => Apart _ _ text marker1Gone marker1Present
    anchor2 replacement2 token2 zeroingLoop) _ rfl ?_
  refine of_chars (P := fun text => Apart _ _ _ text marker1Present
    anchor2 replacement2 token2 zeroingLoop) _ rfl ?_
  refine of_chars (P := fun text => Apart _ _ _ _ text
    anchor2 replacement2 token2 zeroingLoop) _ rfl ?_
  refine of_chars (P := fun text => Apart _ _ _ _ _ text replacement2 token2 zeroingLoop) _ rfl ?_
  refine of_chars (P := fun text => Apart _ _ _ _ _ _ text token2 zeroingLoop) _ rfl ?_
  refine of_chars (P := fun text => Apart _ _ _ _ _ _ _ text zeroingLoop) _ rfl ?_
  refine of_chars (P := fun text => Apart _ _ _ _ _ _ _ _ text) _ rfl ?_
  constructor
  case branches => constructor <;> decide +kernel
  case loops => constructor <;> decide +kernel
  all_goals decide +kernel

/-! ## Reading and writing -/

def Plain (text : PyText) : Prop := ∀ c ∈ text, c ≠ '\r' ∧ c.toNat < 256

theorem plain_of_all {text : PyText} (all : text.all isPlain = true) : Plain text := by
  intro c member
  simpa [isPlain] using List.all_eq_true.mp all c member

theorem universalNewlines_mem {c : Char} {text : PyText} (member : c ∈ universalNewlines text) :
    c ≠ '\r' ∧ (c ∈ text ∨ c = '\n') := by
  fun_induction universalNewlines text with
  | case1 => simp at member
  | case2 text ih => grind
  | case3 text _ ih => grind
  | case4 d text _ _ ih => grind

theorem universalNewlines_of_free {text : PyText} (free : '\r' ∉ text) :
    universalNewlines text = text := by
  fun_induction universalNewlines text with
  | case1 => rfl
  | case2 text ih => simp at free
  | case3 text _ ih => simp at free
  | case4 d text _ _ ih => rw [ih (List.not_mem_of_not_mem_cons free)]

theorem toNat_ofNat {n : Nat} (small : n < 256) : (Char.ofNat n).toNat = n := by
  unfold Char.ofNat
  rw [dif_pos (.inl (by omega))]
  rfl

theorem plain_read (file : List UInt8) : Plain (read file) := by
  intro c member
  obtain ⟨other, inside | rfl⟩ := universalNewlines_mem member
  · obtain ⟨b, _, rfl⟩ := List.mem_map.mp inside
    exact ⟨other, by rw [toNat_ofNat b.toNat_lt]; exact b.toNat_lt⟩
  · exact ⟨other, by decide⟩

theorem read_write {text : PyText} (plain : Plain text) : read (write text) = text := by
  have same : ((write text).map fun b => Char.ofNat b.toNat) = text := by
    rw [write, List.map_map]
    refine (List.map_congr_left fun c member => ?_).trans (List.map_id text)
    rw [Function.comp_apply, UInt8.toNat_ofNat_of_lt' (plain c member).2, Char.ofNat_toNat, id]
  unfold read
  rw [same]
  exact universalNewlines_of_free fun member => (plain _ member).1 rfl

theorem write_read {file : List UInt8} (free : 0x0D ∉ file) : write (read file) = file := by
  have clean : '\r' ∉ file.map fun b => Char.ofNat b.toNat := by
    intro member
    obtain ⟨b, inside, same⟩ := List.mem_map.mp member
    have number := toNat_ofNat b.toNat_lt
    rw [same] at number
    have same_ : b = 0x0D := UInt8.toNat_inj.mp (number.symm.trans rfl)
    exact free (same_ ▸ inside)
  unfold read write
  rw [universalNewlines_of_free clean, List.map_map]
  refine (List.map_congr_left fun b _ => ?_).trans (List.map_id file)
  rw [Function.comp_apply, toNat_ofNat b.toNat_lt, UInt8.ofNat_toNat, id]

theorem free_write {text : PyText} (plain : Plain text) : 0x0D ∉ write text := by
  intro member
  obtain ⟨c, inside, same⟩ := List.mem_map.mp member
  obtain ⟨other, small⟩ := plain c inside
  have number := congrArg UInt8.toNat same
  rw [UInt8.toNat_ofNat_of_lt' small] at number
  exact other (Char.toNat_inj.mp number)

/-! ## One edit -/

def edited (src anchor replacement patchedToken : PyText) : PyText :=
  if within patchedToken src then src else replaceFirst anchor replacement src

section Edit
variable {src anchor replacement token part : PyText} {name : String}

theorem patchOnce_of_editable (brings : within token replacement = true)
    (editable : token <:+: src ∨ count anchor src = 1) :
    patchOnce src anchor replacement token name =
      .ok (edited src anchor replacement token, !within token src) := by
  unfold patchOnce edited
  by_cases carries : within token src = true
  · simp [carries]
  · have once := editable.resolve_left fun found => carries (within_iff.mpr found)
    have found : anchor <:+: src := infix_of_once once
    have carried : within token (replaceFirst anchor replacement src) = true :=
      within_iff.mpr ((within_iff.mp brings).trans (new_infix_replaceFirst found))
    have other : replaceFirst anchor replacement src ≠ src := fun same =>
      carries (same ▸ carried)
    simp [carries, once, carried, other]

theorem patchOnce_of_not_editable (refused : ¬ (token <:+: src ∨ count anchor src = 1)) :
    patchOnce src anchor replacement token name = .error (.anchors name (count anchor src)) := by
  obtain ⟨fresh, several⟩ := not_or.mp refused
  unfold patchOnce
  rw [if_neg (fun found => fresh (within_iff.mp found)), if_pos several]

theorem count_edited (leaves : avoids part anchor = true) (brings : avoids part replacement = true) :
    count part (edited src anchor replacement token) = count part src := by
  unfold edited
  split
  · rfl
  · exact count_replaceFirst leaves brings

theorem infix_edited (some_ : part ≠ []) (leaves : avoids part anchor = true)
    (brings : avoids part replacement = true) :
    part <:+: edited src anchor replacement token ↔ part <:+: src := by
  rw [← not_iff_not, ← count_eq_zero_iff some_, ← count_eq_zero_iff some_,
    count_edited leaves brings]

theorem token_infix_edited (brings : within token replacement = true)
    (editable : token <:+: src ∨ count anchor src = 1) :
    token <:+: edited src anchor replacement token := by
  unfold edited
  split_ifs with carries
  · exact within_iff.mp carries
  · have once := editable.resolve_left fun found => carries (within_iff.mpr found)
    exact (within_iff.mp brings).trans (new_infix_replaceFirst (infix_of_once once))

theorem plain_edited (plain : Plain src) (brings : Plain replacement) :
    Plain (edited src anchor replacement token) := by
  intro c member
  unfold edited at member
  split at member
  · exact plain c member
  · rcases mem_replaceFirst member with old | new
    · exact plain c old
    · exact brings c new

end Edit

/-! ## Both edits -/

theorem plain_replacements : Plain replacement1 ∧ Plain replacement2 :=
  (texts_apart).plain.imp plain_of_all plain_of_all

def patched (text : PyText) : PyText :=
  edited (edited text anchor1 replacement1 token1) anchor2 replacement2 token2

section Both
variable {text : PyText}

theorem token1_ne_nil : token1 ≠ [] := nofun

theorem token2_ne_nil : token2 ≠ [] := nofun

theorem marker1Gone_ne_nil : marker1Gone ≠ [] := nofun

theorem marker1Present_ne_nil : marker1Present ≠ [] := nofun

theorem zeroingLoop_ne_nil : zeroingLoop ≠ [] := nofun

/-- Whether edit 2 is there or can be made does not depend on edit 1. -/
theorem second_iff :
    (token2 <:+: edited text anchor1 replacement1 token1 ∨
      count anchor2 (edited text anchor1 replacement1 token1) = 1) ↔
    token2 <:+: text ∨ count anchor2 text = 1 := by
  obtain ⟨leaves, brings⟩ := (texts_apart).token2
  obtain ⟨leaves', brings'⟩ := (texts_apart).anchor
  rw [infix_edited token2_ne_nil leaves brings, count_edited leaves' brings']

theorem edits_of_editable (editable : Editable text) : edits text = .ok (patched text) := by
  unfold edits
  rw [patchOnce_of_editable (texts_apart).tokens.1 editable.one, Except.bind,
    patchOnce_of_editable (texts_apart).tokens.2.1 (second_iff.mpr editable.two)]
  rfl

theorem edits_of_not_editable (refused : ¬ Editable text) :
    ∃ failure, edits text = .error failure := by
  unfold edits
  by_cases one : token1 <:+: text ∨ count anchor1 text = 1
  · have two : ¬ (token2 <:+: text ∨ count anchor2 text = 1) := fun two => refused ⟨one, two⟩
    rw [patchOnce_of_editable (texts_apart).tokens.1 one, Except.bind,
      patchOnce_of_not_editable fun found => two (second_iff.mp found)]
    exact ⟨_, rfl⟩
  · rw [patchOnce_of_not_editable one]
    exact ⟨_, rfl⟩

theorem plain_patched (plain : Plain text) : Plain (patched text) :=
  plain_edited (plain_edited plain plain_replacements.1) plain_replacements.2

theorem patched_of_tokens (one : token1 <:+: text) (two : token2 <:+: text) :
    patched text = text := by
  simp [patched, edited, within_iff.mpr one, within_iff.mpr two]

theorem tokens_patched (editable : Editable text) :
    token1 <:+: patched text ∧ token2 <:+: patched text := by
  obtain ⟨leaves, brings⟩ := (texts_apart).token1
  constructor
  · exact (infix_edited token1_ne_nil leaves brings).mpr
      (token_infix_edited (texts_apart).tokens.1 editable.one)
  · exact token_infix_edited (texts_apart).tokens.2.1 (second_iff.mpr editable.two)

theorem label_patched : marker1Present <:+: patched text ↔ marker1Present <:+: text := by
  obtain ⟨⟨leaves, brings⟩, leaves', brings'⟩ := (texts_apart).label
  unfold patched
  rw [infix_edited marker1Present_ne_nil leaves' brings',
    infix_edited marker1Present_ne_nil leaves brings]

theorem branch_patched (editable : Editable text) : ¬ marker1Gone <:+: patched text ↔
    if token1 <:+: text then ¬ marker1Gone <:+: text else count marker1Gone text = 1 := by
  obtain ⟨brings, leaves', brings'⟩ := (texts_apart).branch
  have second : count marker1Gone (patched text) =
      count marker1Gone (edited text anchor1 replacement1 token1) := count_edited leaves' brings'
  rw [← count_eq_zero_iff marker1Gone_ne_nil, second]
  unfold edited
  split_ifs with carries found found
  · exact count_eq_zero_iff marker1Gone_ne_nil
  · exact absurd (within_iff.mp carries) found
  · exact absurd (within_iff.mpr found) carries
  · obtain ⟨before, after, rfl, at_⟩ :=
      index_of_infix (infix_of_once (editable.one.resolve_left found))
    obtain ⟨split, front, back⟩ := (texts_apart).branches
    have taken : count marker1Gone (before ++ (anchor1 ++ after)) =
        count marker1Gone before + 1 + count marker1Gone after := by
      conv_lhs => rw [split]
      rw [List.append_assoc, List.append_assoc, count_around marker1Gone_ne_nil front back]
    have left_ : count marker1Gone (replaceFirst anchor1 replacement1 (before ++ (anchor1 ++ after)))
        = count marker1Gone before + count marker1Gone after := by
      rw [replaceFirst_of_index at_, List.take_left, ← List.drop_drop, List.drop_left,
        List.drop_left, List.append_assoc, count_avoids brings]
    omega

theorem loop_patched (editable : Editable text) : count zeroingLoop (patched text) = 1 ↔
    (token2 <:+: text → count zeroingLoop text = 1) := by
  obtain ⟨leaves, brings⟩ := (texts_apart).loop
  obtain ⟨leaves', brings'⟩ := (texts_apart).token2
  obtain ⟨_, _, named⟩ := (texts_apart).tokens
  have first : count zeroingLoop (edited text anchor1 replacement1 token1) =
      count zeroingLoop text := count_edited leaves brings
  have same := @infix_edited text anchor1 replacement1 token1 token2 token2_ne_nil leaves' brings'
  have can := second_iff.mpr editable.two
  rw [← same, ← first]
  unfold patched
  rw [edited]
  split_ifs with carries
  · simp [within_iff.mp carries]
  · have fresh : ¬ token2 <:+: edited text anchor1 replacement1 token1 := fun found =>
      carries (within_iff.mpr found)
    obtain ⟨before, after, whole, at_⟩ := index_of_infix (infix_of_once (can.resolve_left fresh))
    obtain ⟨split, front, back⟩ := (texts_apart).loops
    have none_ : ∀ part : PyText, part <:+: edited text anchor1 replacement1 token1 →
        count zeroingLoop part = 0 := fun part inside =>
      (count_eq_zero_iff zeroingLoop_ne_nil).mpr fun found =>
        fresh (((within_iff.mp named).trans found).trans inside)
    have before_ : count zeroingLoop before = 0 :=
      none_ before (whole ▸ (List.prefix_append _ _).isInfix)
    have after_ : count zeroingLoop after = 0 := by
      refine none_ after ?_
      rw [whole, ← List.append_assoc]
      exact (List.suffix_append _ _).isInfix
    have once : count zeroingLoop (before ++ (replacement2 ++ after)) = 1 := by
      conv_lhs => rw [split]
      rw [List.append_assoc, List.append_assoc, count_around zeroingLoop_ne_nil front back, before_,
        after_]
    rw [replaceFirst_of_index at_]
    conv_lhs => rw [whole]
    rw [List.take_left, ← List.drop_drop, List.drop_left, List.drop_left, List.append_assoc, once]
    simp [fresh]

theorem checks_patched (editable : Editable text) :
    checks (patched text) = .ok () ↔ Passes text := by
  have two : within marker2Gone (patched text) = true :=
    within_iff.mpr (tokens_patched editable).2
  have meaning : Passes text ↔
      ¬ marker1Gone <:+: patched text ∧ marker1Present <:+: patched text := by
    rw [branch_patched editable, label_patched]
    exact ⟨fun passes => ⟨passes.branch, passes.label⟩, fun both => ⟨both.1, both.2⟩⟩
  rw [meaning, ← within_iff, ← within_iff]
  unfold checks
  cases within marker1Gone (patched text) <;> cases within marker1Present (patched text) <;>
    simp [two]

end Both

/-! ## The run -/

theorem Passes.branch_once {text : PyText} (passes : Passes text) (fresh : ¬ token1 <:+: text) :
    count marker1Gone text = 1 := by
  have branch := passes.branch
  rwa [if_neg fresh] at branch

section Run
variable {file : List UInt8}

theorem main_of_editable (editable : Editable (read file)) :
    main file = (checks (patched (read file)), write (patched (read file))) := by
  unfold main
  rw [edits_of_editable editable]
  simp only [read_write (plain_patched (plain_read file))]

theorem main_of_not_editable (refused : ¬ Editable (read file)) :
    (main file).1 ≠ .ok () ∧ (main file).2 = file := by
  obtain ⟨failure, ends⟩ := edits_of_not_editable refused
  unfold main
  rw [ends]
  exact ⟨nofun, rfl⟩

/-- A file that a run has accepted is accepted again, as it is. -/
theorem main_again (editable : Editable (read file)) (passes : Passes (read file)) :
    main (write (patched (read file))) = (.ok (), write (patched (read file))) := by
  obtain ⟨one, two⟩ := tokens_patched editable
  have reads : read (write (patched (read file))) = patched (read file) :=
    read_write (plain_patched (plain_read file))
  have again : Editable (read (write (patched (read file)))) :=
    ⟨.inl (reads.symm ▸ one), .inl (reads.symm ▸ two)⟩
  rw [main_of_editable again, reads, patched_of_tokens one two,
    (checks_patched editable).mpr passes]

theorem patched_iff (editable : Editable (read file)) (passes : Passes (read file)) :
    Patched (write (patched (read file))) ↔
      (token2 <:+: read file → count zeroingLoop (read file) = 1) := by
  have reads : read (write (patched (read file))) = patched (read file) :=
    read_write (plain_patched (plain_read file))
  rw [← loop_patched editable]
  constructor
  · exact fun done => reads ▸ done.loop
  · intro once
    refine ⟨?_, ?_, main_again editable passes⟩
    · rw [reads, branch_patched editable]
      exact passes.branch
    · rw [reads, once]

/-- The file is written as it was read where both edits are there and no line end changes. -/
theorem written_iff : write (patched (read file)) = file ∧ Editable (read file) ↔
    token1 <:+: read file ∧ token2 <:+: read file ∧ 0x0D ∉ file := by
  have plain := plain_patched (plain_read file)
  constructor
  · rintro ⟨same, editable⟩
    obtain ⟨one, two⟩ := tokens_patched editable
    have reads : read file = patched (read file) := by
      conv_lhs => rw [← same]
      exact read_write plain
    have free := free_write plain
    rw [same] at free
    exact ⟨reads ▸ one, reads ▸ two, free⟩
  · rintro ⟨one, two, free⟩
    rw [patched_of_tokens one two]
    exact ⟨write_read free, .inl one, .inl two⟩

theorem atomic_of_failing (editable : Editable (read file)) (fails : ¬ Passes (read file)) :
    Meets file ↔ write (patched (read file)) = file := by
  have bad : (main file).1 ≠ .ok () := by
    rw [main_of_editable editable]
    exact fun ends => fails ((checks_patched editable).mp ends)
  have after : (main file).2 = write (patched (read file)) := by rw [main_of_editable editable]
  constructor
  · rintro ⟨⟨good, _⟩ | ⟨_, same⟩, _⟩
    · exact absurd good bad
    · exact after ▸ same
  · exact fun same => ⟨.inr ⟨bad, after.trans same⟩, fun _ => .inr (after.trans same)⟩

theorem atomic_of_passing (editable : Editable (read file)) (passes : Passes (read file)) :
    Meets file ↔ (token2 <:+: read file → count zeroingLoop (read file) = 1) := by
  have run := main_of_editable editable
  rw [(checks_patched editable).mpr passes] at run
  rw [← patched_iff editable passes]
  constructor
  · rintro ⟨⟨_, done⟩ | ⟨bad, _⟩, _⟩
    · rwa [run] at done
    · rw [run] at bad
      exact absurd rfl bad
  · intro done
    refine ⟨.inl ?_, fun _ => .inl ?_⟩
    · rw [run]
      exact ⟨rfl, done⟩
    · rw [run, read_write (plain_patched (plain_read file))]
      exact ⟨rfl, tokens_patched editable⟩

end Run

theorem boot_path_iff (file : List UInt8) : Meets file ↔
    ¬ Editable (read file) ∨
      (Passes (read file) ∧ (token2 <:+: read file → count zeroingLoop (read file) = 1)) ∨
      (¬ Passes (read file) ∧ token1 <:+: read file ∧ token2 <:+: read file ∧ 0x0D ∉ file) := by
  by_cases editable : Editable (read file)
  · by_cases passes : Passes (read file)
    · rw [atomic_of_passing editable passes]
      simp [editable, passes]
    · rw [atomic_of_failing editable passes, ← written_iff]
      simp [editable, passes]
  · have kept := main_of_not_editable editable
    exact ⟨fun _ => .inl editable, fun _ => ⟨.inr kept, fun _ => .inr kept.2⟩⟩

/-! ## A second branch to the label -/

def twoBranches : PyText :=
  anchor1 ++ anchor2 ++ "mmu_reinitialize:\n    beq     mmu_initialized\n".toList

structure Second (text a₁ a₂ t₁ gone : PyText) : Prop where
  plain : text.all isPlain = true
  once : count a₁ text = 1 ∧ count a₂ text = 1
  fresh : within t₁ text = false
  twice : count gone text = 2

set_option maxRecDepth 4000 in
theorem twoBranches_facts : Second twoBranches anchor1 anchor2 token1 marker1Gone := by
  unfold twoBranches
  refine of_chars (P := fun rest =>
    Second (anchor1 ++ anchor2 ++ rest) anchor1 anchor2 token1 marker1Gone) _ rfl ?_
  refine of_chars (P := fun a =>
    Second (a ++ anchor2 ++ _) a anchor2 token1 marker1Gone) _ rfl ?_
  refine of_chars (P := fun a => Second (_ ++ a ++ _) _ a token1 marker1Gone) _ rfl ?_
  refine of_chars (P := fun token => Second _ _ _ token marker1Gone) _ rfl ?_
  refine of_chars (P := fun marker => Second _ _ _ _ marker) _ rfl ?_
  constructor <;> decide +kernel

/-- The branch that the edit leaves is found when the file is written. -/
theorem twoBranches_written : ¬ Meets (write twoBranches) := by
  have reads : read (write twoBranches) = twoBranches := 
    read_write (plain_of_all twoBranches_facts.plain)
  have fresh : ¬ token1 <:+: twoBranches := by
    rw [← within_iff]
    exact Bool.eq_false_iff.mp twoBranches_facts.fresh
  have editable : Editable twoBranches :=
    ⟨.inr twoBranches_facts.once.1, .inr twoBranches_facts.once.2⟩
  have fails : ¬ Passes twoBranches := fun passes => by
    have one := passes.branch_once fresh
    rw [twoBranches_facts.twice] at one
    exact absurd one (by decide)
  rw [atomic_of_failing (by rwa [reads]) (by rwa [reads])]
  intro same
  have carried := (written_iff.mp ⟨same, by rwa [reads]⟩).1
  rw [reads] at carried
  exact fresh carried

end Stage90.Staging.BootPath

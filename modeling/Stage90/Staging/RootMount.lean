import Stage90.Lib.PyLines
import Mathlib.Algebra.Order.BigOperators.Group.List
import Mathlib.Algebra.Order.Ring.Nat

/-!
# Staging the read-write root

`stage` of `patch_d13_hfs_rw_root.py`: the chunk that clears `MNT_RDONLY` is put before the root
`hfs_mountfs` call of a text that does not carry it, or carries an older form of it.
-/

set_option autoImplicit false

namespace Stage90.Staging

open Stage90.Lib PyText

/-! ## The texts -/

def identity : PyText := "int\nhfs_mountroot(mount_t mp, vnode_t rvp, vfs_context_t context)".toList

def switch : PyText := "STAGE90_HFS_ROOT_RW".toList

def mark : PyText := "/* IOS7HFSRW_BEGIN */".toList

def markEnd : PyText := "/* IOS7HFSRW_END */".toList

def anchor : PyText :=
  "\tif ((error = hfs_mountfs(rvp, mp, NULL, 0, context))) \x7b\n".toList

def legacy : PyText :=
  "#if STAGE90_HFS_ROOT_RW
\t/* 905: the root mount is read-only by construction (vfs_subr.c hard-codes MNT_RDONLY |
\t * MNT_ROOTFS); clear it here, before hfs_mountfs latches HFS_READ_ONLY from it, so the
\t * card unit's write path is reachable. Guarded: the port-off image is byte-identical. */
\tvfs_clearflags(mp, (u_int64_t)MNT_RDONLY);\n#endif\n".toList

def chunk : PyText := mark ++ ['\n'] ++ legacy ++ markEnd ++ ['\n']

/-! ## The tool -/

inductive Refusal
  | anchors (n : Nat)
  | legacyEdited
  | legacyMoved
  | endsOnly (ends : Nat)
  | legacyRepeated (n : Nat)
  | foreign
  | markers (marks ends : Nat)
  | identityRemoved
  | regions (n : Nat) (unterminated : Bool)
  deriving DecidableEq

/-- The exit code: 3 for an anchor or a block that does not match, 4 for a partial edit. -/
def Refusal.code : Refusal → Nat
  | .anchors 0 => 3
  | .legacyEdited | .legacyMoved | .foreign => 3
  | _ => 4

/-- `_insert`.  An anchor that is counted is found. -/
def insert (old : PyText) : Except Refusal PyText :=
  if count anchor old ≠ 1 then .error (.anchors (count anchor old))
  else
    let i := (index anchor old).getD 0
    .ok (old.take i ++ chunk ++ old.drop i)

def normaliseLegacy (old : PyText) : Except Refusal PyText :=
  if count legacy old ≠ 1 then .error .legacyEdited
  else if count anchor old ≠ 1 then .error (.anchors (count anchor old))
  else
    let i := (index legacy old).getD 0 + legacy.length
    if !anchor.isPrefixOf (old.drop i) then .error .legacyMoved
    else .ok (replaceFirst legacy (mark ++ ['\n'] ++ legacy ++ markEnd ++ ['\n']) old)

/-- The loop of `strip_marked`: the lines kept, whether it ends within a region, and the number
of regions. -/
def outsideRegions : Bool → List PyText → List PyText × Bool × Nat
  | inside, [] => ([], inside, 0)
  | inside, line :: lines =>
      let opens := !inside && within mark line
      if inside || opens then
        let later := outsideRegions (!within markEnd line) lines
        (later.1, later.2.1, later.2.2 + (if opens then 1 else 0))
      else
        let later := outsideRegions false lines
        (line :: later.1, later.2.1, later.2.2)

def stripMarked (text : PyText) : Except Refusal PyText :=
  let done := outsideRegions false (splitlines text)
  if done.2.1 = true ∨ done.2.2 ≠ 1 then .error (.regions done.2.2 done.2.1)
  else .ok done.1.flatten

inductive Status
  | staged
  | normalise
  | already
  | restage
  deriving DecidableEq

structure Staged where
  text : PyText
  status : Status
  head : Option PyText
  deriving DecidableEq

/-- `stage`; `none` is a recursion deeper than the fuel. -/
def stage : Nat → PyText → Option (Except Refusal Staged)
  | 0, _ => none
  | fuel + 1, old =>
      let marks := count mark old
      let ends := count markEnd old
      if marks = 0 then
        if ends ≠ 0 then some (.error (.endsOnly ends))
        else if within legacy old then
          if count legacy old ≠ 1 then some (.error (.legacyRepeated (count legacy old)))
          else some ((normaliseLegacy old).map fun new => ⟨new, .normalise, some old⟩)
        else if within switch old then some (.error .foreign)
        else some ((insert old).map fun new => ⟨new, .staged, some old⟩)
      else if marks ≠ 1 ∨ ends ≠ 1 then some (.error (.markers marks ends))
      else if within chunk old then some (.ok ⟨old, .already, none⟩)
      else
        match stripMarked old with
        | .error refusal => some (.error refusal)
        | .ok stripped =>
            if !within identity stripped || count anchor stripped != 1 then
              some (.error .identityRemoved)
            else
              (stage fuel stripped).map fun outcome =>
                outcome.map fun staged => ⟨staged.text, .restage, some stripped⟩

/-! ## What staging is to reach -/

/-- One marker region, which is the chunk, on lines of its own and immediately before the one
anchor. -/
def Settled (text : PyText) : Prop :=
  ∃ before after, text = before ++ (chunk ++ (anchor ++ after)) ∧ AtLineStart before chunk ∧
    count mark text = 1 ∧ count markEnd text = 1 ∧ count anchor text = 1

def withoutLegacy (text : PyText) : PyText := replaceFirst legacy [] text

/-- The text without its own marker region or legacy block; a text that is current keeps what
else it has. -/
def own (text : PyText) : Except Refusal PyText :=
  if count mark text = 0 then .ok (withoutLegacy text)
  else if within chunk text then stripMarked text
  else (stripMarked text).map withoutLegacy

structure Meets (text new : PyText) : Prop where
  settled : Settled new
  again : stage 1 new = some (.ok ⟨new, .already, none⟩)
  bare : stripMarked new = own text

/-- The legacy block, or the anchor where there is none, starts a line. -/
def Placeable (text : PyText) : Prop :=
  ∃ before after, AtLineStart before chunk ∧
    (text = before ++ (legacy ++ (anchor ++ after)) ∨
      (¬ legacy <:+: text ∧ text = before ++ (anchor ++ after)))

def Stands (text : PyText) : Prop :=
  if count mark text = 0 then Placeable text
  else if within chunk text then
    ∃ before after, text = before ++ (chunk ++ (anchor ++ after)) ∧ AtLineStart before chunk ∧
      count anchor text = 1
  else ∃ stripped, stripMarked text = .ok stripped ∧ Placeable stripped

/-! ## The texts do not run into one another -/

/-- The chunk between its first slash and its last. -/
def inner (m l e : PyText) : PyText := m.tail ++ ['\n'] ++ l ++ e.dropLast

structure Apart (m e a l : PyText) : Prop where
  mark : m.all (fun c => !isBreak c) = true
  markEnd : e.all (fun c => !isBreak c) = true
  anchor : '\t' ∉ a.tail ∧ '/' ∉ a
  chunk : m ++ ['\n'] ++ l ++ e ++ ['\n'] = '/' :: (inner m l e ++ '/' :: ['\n'])
  marks : count m (m ++ ['\n'] ++ l ++ e ++ ['\n']) = 1
  ends : count e (m ++ ['\n'] ++ l ++ e ++ ['\n']) = 1
  anchors : count a (inner m l e) = 0
  lines : splitlines (m ++ ['\n'] ++ l ++ e ++ ['\n']) =
    (m ++ ['\n']) :: (splitlines l ++ [e ++ ['\n']])
  first : within m (m ++ ['\n']) = true ∧ within e (m ++ ['\n']) = false
  block : (splitlines l).all (fun line => !within e line) = true
  last : within e (e ++ ['\n']) = true

-- used as `(texts_apart)`: a longer name is looked up in its proof as well, which takes long
set_option maxRecDepth 4000 in
theorem texts_apart : Apart mark markEnd anchor legacy := by
  refine of_chars (P := fun m => Apart m markEnd anchor legacy) _ rfl ?_
  refine of_chars (P := fun e => Apart _ e anchor legacy) _ rfl ?_
  refine of_chars (P := fun a => Apart _ _ a legacy) _ rfl ?_
  refine of_chars (P := fun l => Apart _ _ _ l) _ rfl ?_
  constructor <;> decide +kernel

theorem mark_unbroken : ∀ c ∈ mark, isBreak c = false :=
  fun c member => by simpa using List.all_eq_true.mp (texts_apart).mark c member

theorem markEnd_unbroken : ∀ c ∈ markEnd, isBreak c = false :=
  fun c member => by simpa using List.all_eq_true.mp (texts_apart).markEnd c member

theorem mark_ne_nil : mark ≠ [] := nofun

theorem markEnd_ne_nil : markEnd ≠ [] := nofun

theorem anchor_ne_nil : anchor ≠ [] := nofun

def chunkInner : PyText := inner mark legacy markEnd

theorem chunk_split : chunk = '/' :: (chunkInner ++ '/' :: ['\n']) := (texts_apart).chunk

theorem chunk_lines (rest : PyText) : AtLineStart chunk rest := by
  refine .inr ⟨'\n', ?_, rfl⟩
  rw [chunk, List.getLast?_append_cons]
  rfl

/-- A line starts behind the text whatever follows, but for the second half of a break. -/
theorem atLineStart_congr {before rest rest' : PyText} (starts : AtLineStart before rest)
    (other : rest'.head? ≠ some '\n') : AtLineStart before rest' := by
  rcases starts with empty | ⟨c, last, ends⟩
  · exact .inl empty
  · refine .inr ⟨c, last, ?_⟩
    rw [endsLine, Bool.and_eq_true] at ends ⊢
    exact ⟨ends.1, by simp [other]⟩

section Count
variable {before after : PyText}

theorem count_chunk {part : PyText} (unbroken : ∀ c ∈ part, isBreak c = false)
    (some_ : part ≠ []) (once : count part chunk = 1) (starts : AtLineStart before chunk)
    (free : ¬ part <:+: before) (free' : ¬ part <:+: after) :
    count part (before ++ (chunk ++ after)) = 1 := by
  have apart : ∀ c, isBreak c = true → c ∉ part := fun c ends member => by
    rw [unbroken c member] at ends
    exact absurd ends (by decide)
  have later : count part (chunk ++ after) = 1 := by
    have whole : count part (chunk ++ after) = count part chunk + count part after := by
      rw [chunk, List.append_assoc, List.singleton_append, count_separator (apart '\n' rfl) some_,
        count_separator (apart '\n' rfl) some_]
      rfl
    rw [whole, once, (count_eq_zero_iff some_).mpr free']
  rcases starts with rfl | ⟨c, last, ends⟩
  · exact later
  · obtain ⟨front, rfl⟩ : ∃ front, before = front ++ [c] :=
      ⟨before.dropLast, (List.dropLast_append_getLast? c last).symm⟩
    rw [endsLine, Bool.and_eq_true] at ends
    have none_ : ¬ part <:+: front := fun found =>
      free (found.trans (List.prefix_append front [c]).isInfix)
    rw [List.append_assoc, List.singleton_append, count_separator (apart c ends.1) some_, later,
      (count_eq_zero_iff some_).mpr none_]

theorem anchor_split : ∃ body, anchor = '\t' :: body ∧ '\t' ∉ body ∧ '/' ∉ anchor :=
  ⟨anchor.tail, rfl, (texts_apart).anchor⟩

theorem anchor_once {text before' after' : PyText} (once : count anchor text = 1)
    (first : text = before ++ (anchor ++ after)) (second : text = before' ++ (anchor ++ after')) :
    before = before' ∧ after = after' := by
  obtain ⟨body, same, fresh, _⟩ := anchor_split
  rw [same] at once first second
  rw [← List.append_assoc] at first second
  exact count_once fresh once first second

/-- The anchor behind the chunk is the only one where it was before. -/
theorem count_anchor {between : PyText}
    (once : count anchor (before ++ (between ++ (anchor ++ after))) = 1) :
    count anchor (before ++ (chunk ++ (anchor ++ after))) = 1 := by
  obtain ⟨body, split, fresh, slash⟩ := anchor_split
  have here : before ++ (between ++ (anchor ++ after)) =
      (before ++ between) ++ (anchor ++ after) := (List.append_assoc _ _ _).symm
  have long : 0 < anchor.length := List.length_pos_iff.mpr anchor_ne_nil
  have free : ¬ anchor <:+: before := by
    rintro ⟨xs, ys, rfl⟩
    have there : xs ++ anchor ++ ys ++ (between ++ (anchor ++ after)) =
        xs ++ (anchor ++ (ys ++ (between ++ (anchor ++ after)))) := by simp
    have same := (anchor_once once here there).1
    have longer := congrArg List.length same
    simp only [List.length_append] at longer
    omega
  have free' : ¬ anchor <:+: after := by
    rintro ⟨xs, ys, rfl⟩
    have there : before ++ (between ++ (anchor ++ (xs ++ anchor ++ ys))) =
        (before ++ between ++ anchor ++ xs) ++ (anchor ++ ys) := by simp
    have same := (anchor_once once here there).1
    have longer := congrArg List.length same
    simp only [List.length_append] at longer
    omega
  have last : count anchor (anchor ++ after) = 1 := by
    rw [count_leading anchor_ne_nil, (count_eq_zero_iff anchor_ne_nil).mpr free']
  have inner : count anchor chunkInner = 0 := (texts_apart).anchors
  have step : count anchor ('\n' :: (anchor ++ after)) = count anchor (anchor ++ after) := by
    rw [count, countFrom, if_neg (by rw [split]; simp)]
    rfl
  rw [chunk_split, List.cons_append, count_separator slash anchor_ne_nil, List.append_assoc,
    List.cons_append, List.singleton_append, count_separator slash anchor_ne_nil, inner, step, last,
    (count_eq_zero_iff anchor_ne_nil).mpr free]

end Count

/-! ## Removing the region -/

theorem outsideRegions_free {before : List PyText} (free : ∀ line ∈ before, within mark line = false)
    (rest : List PyText) :
    outsideRegions false (before ++ rest) =
      (before ++ (outsideRegions false rest).1, (outsideRegions false rest).2) := by
  induction before with
  | nil => rfl
  | cons line before ih =>
      rw [List.cons_append, outsideRegions, free line List.mem_cons_self,
        ih fun other member => free other (List.mem_cons_of_mem _ member)]
      rfl

theorem outsideRegions_inside {inner : List PyText}
    (free : ∀ line ∈ inner, within markEnd line = false) {last : PyText}
    (ends : within markEnd last = true) (rest : List PyText) :
    outsideRegions true (inner ++ last :: rest) = outsideRegions false rest := by
  induction inner with
  | nil =>
      rw [List.nil_append, outsideRegions, ends]
      rfl
  | cons line inner ih =>
      rw [List.cons_append, outsideRegions, free line List.mem_cons_self,
        Bool.not_false, ih fun other member => free other (List.mem_cons_of_mem _ member)]
      rfl

/-- The marker lines bound the lines of the chunk. -/
theorem chunk_region (rest : List PyText) :
    outsideRegions false (splitlines chunk ++ rest) =
      ((outsideRegions false rest).1, (outsideRegions false rest).2.1,
        (outsideRegions false rest).2.2 + 1) := by
  obtain ⟨first, inner, last, lines, begins, later, free, ends⟩ :
      ∃ first inner last, splitlines chunk = first :: (inner ++ [last]) ∧
        within mark first = true ∧ within markEnd first = false ∧
        (∀ line ∈ inner, within markEnd line = false) ∧ within markEnd last = true := by
    refine ⟨mark ++ ['\n'], splitlines legacy, markEnd ++ ['\n'], (texts_apart).lines,
      (texts_apart).first.1, (texts_apart).first.2, fun line member => ?_, (texts_apart).last⟩
    simpa using List.all_eq_true.mp (texts_apart).block line member
  rw [lines, List.cons_append, List.append_assoc, List.singleton_append, outsideRegions, begins,
    later, Bool.not_false, outsideRegions_inside free ends]
  rfl

theorem line_free {part text : PyText} (free : ¬ part <:+: text) :
    ∀ line ∈ splitlines text, within part line = false := by
  intro line member
  rw [Bool.eq_false_iff, Ne, within_iff]
  intro found
  refine free (found.trans ?_)
  rw [← flatten_splitlines text]
  exact List.infix_of_mem_flatten member

theorem stripMarked_chunk {before after : PyText} (starts : AtLineStart before chunk)
    (free : ¬ mark <:+: before) (free' : ¬ mark <:+: after) :
    stripMarked (before ++ (chunk ++ after)) = .ok (before ++ after) := by
  have split : splitlines (before ++ (chunk ++ after)) =
      splitlines before ++ (splitlines chunk ++ splitlines after) := by
    rw [splitlines_append (atLineStart_congr starts (by rw [chunk_split]; simp)),
      splitlines_append (chunk_lines after)]
  have alone : outsideRegions false (splitlines after) = (splitlines after, false, 0) := by
    have all := outsideRegions_free (line_free free') []
    rw [List.append_nil] at all
    rw [all, outsideRegions, List.append_nil]
  rw [stripMarked, split, outsideRegions_free (line_free free), chunk_region, alone]
  simp [flatten_splitlines]

section Kept
variable {inside : Bool} {line : PyText} {lines : List PyText}

theorem outsideRegions_taken (taken : (inside || (!inside && within mark line)) = true) :
    (outsideRegions inside (line :: lines)).1 = (outsideRegions (!within markEnd line) lines).1 ∧
      (outsideRegions inside (line :: lines)).2.1 =
        (outsideRegions (!within markEnd line) lines).2.1 := by
  rw [outsideRegions, if_pos taken]
  exact ⟨rfl, rfl⟩

theorem outsideRegions_left (left : ¬ (inside || (!inside && within mark line)) = true) :
    inside = false ∧ within mark line = false ∧ outsideRegions inside (line :: lines) =
      (line :: (outsideRegions false lines).1, (outsideRegions false lines).2) := by
  have quiet : inside = false ∧ within mark line = false := by
    cases inside
    · exact ⟨rfl, by simpa using left⟩
    · exact absurd rfl left
  rw [outsideRegions, if_neg left]
  exact ⟨quiet.1, quiet.2, rfl⟩

theorem kept_sublist (inside : Bool) (lines : List PyText) :
    (outsideRegions inside lines).1.Sublist lines := by
  induction lines generalizing inside with
  | nil => exact List.Sublist.refl []
  | cons line lines ih =>
      by_cases taken : (inside || (!inside && within mark line)) = true
      · rw [(outsideRegions_taken taken).1]
        exact (ih _).cons line
      · rw [(outsideRegions_left taken).2.2]
        exact (ih false).cons_cons line

theorem kept_unmarked (inside : Bool) (lines : List PyText) :
    ∀ line ∈ (outsideRegions inside lines).1, within mark line = false := by
  induction lines generalizing inside with
  | nil => exact nofun
  | cons line lines ih =>
      by_cases taken : (inside || (!inside && within mark line)) = true
      · rw [(outsideRegions_taken taken).1]
        exact ih _
      · obtain ⟨_, plain, kept⟩ := @outsideRegions_left inside line lines taken
        rw [kept]
        exact List.forall_mem_cons.mpr ⟨plain, ih false⟩

def endMarks (lines : List PyText) : Nat := (lines.map (count markEnd)).sum

theorem kept_ends_le (inside : Bool) (lines : List PyText) :
    endMarks (outsideRegions inside lines).1 ≤ endMarks lines :=
  ((kept_sublist inside lines).map _).sum_le_sum fun _ _ => Nat.zero_le _

/-- A region that is closed takes an end marker with it. -/
theorem kept_ends (inside : Bool) (lines : List PyText)
    (closed : (outsideRegions inside lines).2.1 = false)
    (some_ : inside = true ∨ 0 < (outsideRegions inside lines).2.2) :
    endMarks (outsideRegions inside lines).1 < endMarks lines := by
  induction lines generalizing inside with
  | nil =>
      rcases some_ with rfl | some_
      · exact absurd closed nofun
      · exact absurd some_ (Nat.lt_irrefl 0)
  | cons line lines ih =>
      have whole : endMarks (line :: lines) = count markEnd line + endMarks lines := rfl
      rw [whole]
      by_cases taken : (inside || (!inside && within mark line)) = true
      · obtain ⟨kept, ended⟩ := @outsideRegions_taken inside line lines taken
        rw [ended] at closed
        rw [kept]
        cases ends : within markEnd line with
        | true =>
            have positive := countFrom_pos_of_infix markEnd_ne_nil (within_iff.mp ends)
            exact (kept_ends_le _ lines).trans_lt (Nat.lt_add_of_pos_left positive)
        | false =>
            rw [ends] at closed
            exact (ih true closed (.inl rfl)).trans_le (Nat.le_add_left _ _)
      · obtain ⟨quiet, _, kept⟩ := @outsideRegions_left inside line lines taken
        rw [kept] at closed some_ ⊢
        have later := ih false closed (some_.imp_left fun yes => absurd (quiet ▸ yes) nofun)
        exact Nat.add_lt_add_left later _

end Kept

theorem stripMarked_clean {text stripped : PyText} (once : count markEnd text = 1)
    (done : stripMarked text = .ok stripped) :
    ¬ mark <:+: stripped ∧ ¬ markEnd <:+: stripped := by
  rw [stripMarked] at done
  split_ifs at done with failed
  obtain rfl := Except.ok.inj done
  rw [not_or, not_not, Bool.not_eq_true] at failed
  have broken : Broken (outsideRegions false (splitlines text)).1 :=
    (splitlines_broken text).sublist (kept_sublist _ _)
  constructor
  · rw [infix_flatten mark_unbroken mark_ne_nil broken]
    rintro ⟨line, member, found⟩
    rw [← within_iff, kept_unmarked _ _ line member] at found
    exact absurd found nofun
  · rw [← count_eq_zero_iff markEnd_ne_nil,
      count_flatten markEnd_unbroken markEnd_ne_nil broken]
    have fewer := kept_ends _ _ failed.1 (.inr (by rw [failed.2]; exact Nat.one_pos))
    have total : endMarks (splitlines text) = 1 := by
      rw [endMarks, ← count_flatten markEnd_unbroken markEnd_ne_nil (splitlines_broken text),
        flatten_splitlines, once]
    rw [total] at fewer
    exact Nat.lt_one_iff.mp fewer

/-! ## The chunk in its place -/

section Place
variable {before after between : PyText}

theorem infix_of_place {part : PyText} {text : PyText}
    (split : text = before ++ (between ++ (anchor ++ after))) (free : ¬ part <:+: text) :
    ¬ part <:+: before ∧ ¬ part <:+: anchor ++ after := by
  subst split
  refine ⟨fun found => free (found.trans (List.prefix_append _ _).isInfix), fun found => free ?_⟩
  exact found.trans ((List.suffix_append between _).trans (List.suffix_append before _)).isInfix

/-- The chunk in the place of the legacy block, or before the anchor. -/
theorem settled_place (starts : AtLineStart before chunk)
    (free : ¬ mark <:+: before ++ (between ++ (anchor ++ after)))
    (free' : ¬ markEnd <:+: before ++ (between ++ (anchor ++ after)))
    (once : count anchor (before ++ (between ++ (anchor ++ after))) = 1) :
    Settled (before ++ (chunk ++ (anchor ++ after))) ∧
      stripMarked (before ++ (chunk ++ (anchor ++ after))) = .ok (before ++ (anchor ++ after)) := by
  obtain ⟨front, back⟩ := infix_of_place rfl free
  obtain ⟨front', back'⟩ := infix_of_place rfl free'
  refine ⟨⟨before, after, rfl, starts, ?_, ?_, count_anchor once⟩,
    stripMarked_chunk starts front back⟩
  · exact count_chunk mark_unbroken mark_ne_nil (texts_apart).marks starts front back
  · exact count_chunk markEnd_unbroken markEnd_ne_nil (texts_apart).ends starts front' back'

theorem Settled.starts (settled : Settled (before ++ (chunk ++ (anchor ++ after)))) :
    AtLineStart before chunk := by
  obtain ⟨before', after', split, starts, _, _, once⟩ := settled
  have here : before ++ (chunk ++ (anchor ++ after)) = (before ++ chunk) ++ (anchor ++ after) :=
    (List.append_assoc _ _ _).symm
  have there : before ++ (chunk ++ (anchor ++ after)) = (before' ++ chunk) ++ (anchor ++ after') := by
    rw [split, List.append_assoc]
  have same := (anchor_once once here there).1
  rwa [List.append_cancel_right same]

theorem Settled.already {text : PyText} (settled : Settled text) (fuel : Nat) :
    stage (fuel + 1) text = some (.ok ⟨text, .already, none⟩) := by
  obtain ⟨before, after, split, _, marks, ends, _⟩ := settled
  have inside : within chunk text = true :=
    within_iff.mpr ⟨before, anchor ++ after, by rw [split, List.append_assoc]⟩
  simp only [stage, marks, ends, inside]
  rfl

end Place

/-! ## Where a text without markers is staged -/

theorem map_ok {α β : Type} {f : α → β} {x : Except Refusal α} {b : β}
    (mapped : x.map f = .ok b) : ∃ a, x = .ok a ∧ f a = b := by
  cases x with
  | error refusal => exact absurd mapped nofun
  | ok a => exact ⟨a, rfl, Except.ok.inj mapped⟩

theorem insert_ok {old new : PyText} (put : insert old = .ok new) :
    ∃ before after, old = before ++ (anchor ++ after) ∧
      new = before ++ (chunk ++ (anchor ++ after)) ∧ count anchor old = 1 := by
  rw [insert] at put
  split_ifs at put with several
  have once := not_not.mp several
  have found : anchor <:+: old := infix_of_countFrom (once ▸ Nat.one_pos)
  obtain ⟨before, after, split, at_⟩ := index_of_infix found
  refine ⟨before, after, split, ?_, once⟩
  obtain rfl := Except.ok.inj put
  rw [at_, Option.getD_some, split, List.take_left, List.drop_left, List.append_assoc]

theorem normaliseLegacy_ok {old new : PyText} (normal : normaliseLegacy old = .ok new) :
    ∃ before after, old = before ++ (legacy ++ (anchor ++ after)) ∧
      new = before ++ (chunk ++ (anchor ++ after)) ∧ count anchor old = 1 ∧
      withoutLegacy old = before ++ (anchor ++ after) := by
  rw [normaliseLegacy] at normal
  split_ifs at normal with several anchors
  have found : legacy <:+: old := infix_of_countFrom (not_not.mp several ▸ Nat.one_pos)
  obtain ⟨before, rest, split, at_⟩ := index_of_infix found
  have behind : old.drop (before.length + legacy.length) = rest := by
    rw [split, ← List.append_assoc, ← List.length_append, List.drop_left]
  simp only [at_, Option.getD_some, behind] at normal
  split_ifs at normal with moved
  rw [Bool.not_eq_true, Bool.not_eq_false', List.isPrefixOf_iff_prefix] at moved
  obtain ⟨after, rfl⟩ := moved
  have replaced : ∀ new : PyText, replaceFirst legacy new old = before ++ (new ++ (anchor ++ after)) :=
    fun new => by rw [replaceFirst_of_index at_, behind, split, List.take_left, List.append_assoc]
  refine ⟨before, after, split, ?_, not_not.mp anchors, replaced []⟩
  rw [← Except.ok.inj normal, replaced, chunk]

/-- The legacy block or nothing stands before the anchor, and the chunk comes in its place. -/
theorem stage_bare {old : PyText} {fuel : Nat} {done : Staged} (bare : count mark old = 0)
    (run : stage (fuel + 1) old = some (.ok done)) :
    ∃ before between after, old = before ++ (between ++ (anchor ++ after)) ∧
      done.text = before ++ (chunk ++ (anchor ++ after)) ∧ count markEnd old = 0 ∧
      count anchor old = 1 ∧ withoutLegacy old = before ++ (anchor ++ after) ∧
      (between = legacy ∨ between = [] ∧ ¬ legacy <:+: old) := by
  simp only [stage, bare, if_true] at run
  split_ifs at run with ends found repeated named
  · exact absurd run nofun
  · exact absurd run nofun
  · obtain ⟨new, normal, rfl⟩ := map_ok (Option.some.inj run)
    obtain ⟨before, after, split, same, once, apart⟩ := normaliseLegacy_ok normal
    exact ⟨before, legacy, after, split, same, not_not.mp ends, once, apart, .inl rfl⟩
  · exact absurd run nofun
  · obtain ⟨new, put, rfl⟩ := map_ok (Option.some.inj run)
    obtain ⟨before, after, split, same, once⟩ := insert_ok put
    have free : ¬ legacy <:+: old := fun there => found (within_iff.mpr there)
    refine ⟨before, [], after, split, same, not_not.mp ends, once, ?_, .inr ⟨rfl, free⟩⟩
    rw [withoutLegacy, replaceFirst_of_absent free, split]

theorem placeable_iff {old before between after : PyText}
    (split : old = before ++ (between ++ (anchor ++ after))) (once : count anchor old = 1)
    (form : between = legacy ∨ between = [] ∧ ¬ legacy <:+: old) :
    Placeable old ↔ AtLineStart before chunk := by
  constructor
  · rintro ⟨before', after', starts, other⟩
    have placed : ∀ {between' : PyText}, old = before' ++ (between' ++ (anchor ++ after')) →
        before ++ between = before' ++ between' := fun split' =>
      (anchor_once once (by rw [List.append_assoc, ← split]) (by rw [List.append_assoc, ← split'])).1
    rcases form with block | ⟨empty, free⟩
    · rcases other with split' | ⟨free, _⟩
      · have same := placed split'
        rw [block] at same
        rwa [List.append_cancel_right same]
      · have found : legacy <:+: old :=
          ⟨before, anchor ++ after, by rw [List.append_assoc, split, block]⟩
        exact absurd found free
    · rcases other with split' | ⟨_, split'⟩
      · have found : legacy <:+: old :=
          ⟨before', anchor ++ after', by rw [List.append_assoc, ← split']⟩
        exact absurd found free
      · have same := @placed [] split'
        rw [empty, List.append_nil, List.append_nil] at same
        rwa [same]
  · intro starts
    rcases form with block | ⟨empty, free⟩
    · exact ⟨before, after, starts, .inl (by rw [split, block])⟩
    · exact ⟨before, after, starts, .inr ⟨free, by rw [split, empty, List.nil_append]⟩⟩

theorem meets_iff {base text : PyText} {fuel : Nat} {done : Staged} (bare : count mark base = 0)
    (run : stage (fuel + 1) base = some (.ok done)) (owns : own text = .ok (withoutLegacy base)) :
    Meets text done.text ↔ Placeable base := by
  obtain ⟨before, between, after, split, same, ends, once, apart, form⟩ := stage_bare bare run
  rw [placeable_iff split once form, same]
  constructor
  · exact fun meets => meets.settled.starts
  · intro starts
    have free : ¬ mark <:+: base := (count_eq_zero_iff mark_ne_nil).mp bare
    have free' : ¬ markEnd <:+: base := (count_eq_zero_iff markEnd_ne_nil).mp ends
    rw [split] at free free' once
    obtain ⟨settled, stripped⟩ := settled_place starts free free' once
    exact ⟨settled, settled.already 0, by rw [stripped, owns, apart]⟩

/-- A text without markers takes no recursion. -/
theorem stage_bare_ends {old : PyText} (bare : count mark old = 0) (fuel : Nat) :
    ∃ outcome, stage (fuel + 1) old = some outcome := by
  simp only [stage, bare, if_true]
  split_ifs <;> exact ⟨_, rfl⟩

/-- Every text is staged or refused, and one that is staged reaches the one state exactly where
the chunk has a line to start. -/
theorem stage_settles (text : PyText) :
    ∃ outcome, stage 2 text = some outcome ∧
      ∀ done, outcome = .ok done → (Meets text done.text ↔ Stands text) := by
  by_cases bare : count mark text = 0
  · obtain ⟨outcome, run⟩ := stage_bare_ends bare 1
    refine ⟨outcome, run, fun done same => ?_⟩
    rw [Stands, if_pos bare]
    exact meets_iff bare (same ▸ run) (if_pos bare)
  by_cases several : count mark text ≠ 1 ∨ count markEnd text ≠ 1
  · refine ⟨_, by rw [stage, if_neg bare, if_pos several], fun done same => ?_⟩
    exact absurd same nofun
  obtain ⟨marks, ends⟩ := not_or.mp several
  rw [not_not] at marks ends
  rw [Stands, if_neg bare]
  by_cases current : within chunk text = true
  · rw [if_pos current]
    refine ⟨_, by rw [stage, if_neg bare, if_neg several, if_pos current], fun done same => ?_⟩
    obtain rfl := Except.ok.inj same
    constructor
    · rintro ⟨⟨before, after, split, starts, _, _, once⟩, _, _⟩
      exact ⟨before, after, split, starts, once⟩
    · rintro ⟨before, after, split, starts, once⟩
      have settled : Settled text := ⟨before, after, split, starts, marks, ends, once⟩
      exact ⟨settled, settled.already 0, by rw [own, if_neg bare, if_pos current]⟩
  rw [if_neg current]
  cases removed : stripMarked text with
  | error refusal =>
      refine ⟨.error refusal, ?_, nofun⟩
      rw [stage, if_neg bare, if_neg several, if_neg current, removed]
  | ok stripped =>
      have clean := (stripMarked_clean ends removed).1
      have bare' : count mark stripped = 0 := (count_eq_zero_iff mark_ne_nil).mpr clean
      obtain ⟨outcome, run⟩ := stage_bare_ends bare' 0
      have owns : own text = .ok (withoutLegacy stripped) := by
        rw [own, if_neg bare, if_neg current, removed]
        rfl
      by_cases lost : (!within identity stripped || count anchor stripped != 1) = true
      · refine ⟨.error .identityRemoved, ?_, nofun⟩
        rw [stage, if_neg bare, if_neg several, if_neg current, removed]
        exact if_pos lost
      · refine ⟨outcome.map fun staged => ⟨staged.text, .restage, some stripped⟩, ?_, ?_⟩
        · rw [stage, if_neg bare, if_neg several, if_neg current, removed]
          simp only
          rw [if_neg lost, run]
          rfl
        · intro done same
          obtain ⟨inner, inner_ok, rfl⟩ := map_ok same
          rw [inner_ok] at run
          rw [meets_iff bare' run owns]
          constructor
          · exact fun placed => ⟨stripped, rfl, placed⟩
          · rintro ⟨other, same', placed⟩
            exact Except.ok.inj same' ▸ placed

/-! ## A chunk that the call has moved from -/

/-- A blank line between the chunk and the anchor. -/
def moved : PyText := identity ++ ['\n'] ++ chunk ++ ['\n'] ++ anchor

theorem moved_apart {part : PyText} (seven : '7' ∈ part) :
    ¬ part <:+: identity ++ ['\n'] ∧ ¬ part <:+: ['\n'] ++ anchor := by
  have first : '7' ∉ identity :=
    of_chars (P := fun chars => '7' ∉ chars) _ rfl (by decide)
  have second : '7' ∉ anchor :=
    of_chars (P := fun chars => '7' ∉ chars) _ rfl (by decide)
  constructor
  · intro found
    have member := found.subset seven
    simp [first] at member
  · intro found
    have member := found.subset seven
    simp [second] at member

theorem moved_split : moved = (identity ++ ['\n']) ++ (chunk ++ (['\n'] ++ anchor)) := by
  rw [moved, List.append_assoc, List.append_assoc]

theorem moved_starts : AtLineStart (identity ++ ['\n']) chunk := by
  refine .inr ⟨'\n', ?_, ?_⟩
  · rw [List.getLast?_append_cons]
    rfl
  · rw [chunk_split]
    rfl

theorem moved_markers : count mark moved = 1 ∧ count markEnd moved = 1 := by
  obtain ⟨front, back⟩ := @moved_apart mark
    (of_chars (P := fun chars => '7' ∈ chars) _ rfl (by decide))
  obtain ⟨front', back'⟩ := @moved_apart markEnd
    (of_chars (P := fun chars => '7' ∈ chars) _ rfl (by decide))
  rw [moved_split]
  exact ⟨count_chunk mark_unbroken mark_ne_nil (texts_apart).marks moved_starts front back,
    count_chunk markEnd_unbroken markEnd_ne_nil (texts_apart).ends moved_starts front' back'⟩

theorem moved_unsettled : ¬ Settled moved := by
  rintro ⟨before, after, split, _, _, _, once⟩
  have here : moved = (identity ++ ['\n'] ++ chunk ++ ['\n']) ++ (anchor ++ []) := by
    rw [List.append_nil, moved]
  have there : moved = (before ++ chunk) ++ (anchor ++ after) := by
    rw [List.append_assoc, ← split]
  have same := (anchor_once once there here).1
  rw [chunk_split] at same
  -- The last character but one is a slash on the left and a newline on the right.
  have apart : ∀ i inner : PyText, before ++ '/' :: (inner ++ '/' :: ['\n']) ≠
      i ++ ['\n'] ++ '/' :: (inner ++ '/' :: ['\n']) ++ ['\n'] := by
    intro i inner equal
    have ends := congrArg (fun text => text.reverse[1]?) equal
    simp at ends
  exact apart _ _ same

/-- The chunk is intact, and the text is taken for staged. -/
theorem moved_already :
    ¬ ∀ text : PyText, identity <:+: text → ∀ done, stage 2 text = some (.ok done) →
      Meets text done.text := by
  intro every
  have named : identity <:+: moved := ⟨[], _, by rw [List.nil_append, moved_split, List.append_assoc]⟩
  have inside : within chunk moved = true :=
    within_iff.mpr ⟨identity ++ ['\n'], ['\n'] ++ anchor, by rw [moved_split, List.append_assoc]⟩
  obtain ⟨marks, ends⟩ := moved_markers
  have run : stage 2 moved = some (.ok ⟨moved, .already, none⟩) := by
    rw [stage, if_neg (by rw [marks]; decide), if_neg (by rw [marks, ends]; decide), if_pos inside]
  exact moved_unsettled (every moved named _ run).settled

end Stage90.Staging

import Stage90.Lib.PyText
import Stage90.Lib.Residues

/-!
# The check of the stack's alignment

`ast_sites` of `check_sp_alignment.py`.  It walks a function's instructions as the disassembler prints
them and adds up what they do to sp, recognised by their mnemonics and by the text of their operands.
What an instruction really does is the architecture's, a parameter here.
-/

set_option autoImplicit false

namespace Stage90.Asm.SpAlignment

open Stage90.Lib

/-! ## The code -/

/-- `[a-z0-9.]`. -/
def isMnemonicChar (c : Char) : Bool := c.isLower || c.isDigit || c == '.'

/-- An instruction as `scan` yields it. -/
structure Insn where
  addr : PyText
  mn : PyText
  ops : PyText
  shape : ∀ c ∈ mn, isMnemonicChar c = true

structure Line where
  func : PyText
  insn : Insn

inductive Count where
  | ignores
  | refuses
  | adds (n : Int)
  | aligns
  deriving DecidableEq

/-- `text.strip(chars)` -/
def stripChars (chars text : PyText) : PyText :=
  ((text.dropWhile chars.contains).reverse.dropWhile chars.contains).reverse

section Walker
variable (u : Unicode)

def isDigit (c : Char) : Bool := (u.digit c).isSome

/-- `int(digits)` -/
def number (digits : PyText) : Nat := digits.foldl (fun n c => 10 * n + (u.digit c).getD 0) 0

/-- `([a-z]+)(\d+)` at the start: its groups and what is behind them. -/
def register (text : PyText) : Option (PyText × Nat × PyText) :=
  let letters := text.takeWhile Char.isLower
  let rest := text.dropWhile Char.isLower
  let digits := rest.takeWhile (isDigit u)
  if letters = [] ∨ digits = [] then none
  else some (letters, number u digits, rest.dropWhile (isDigit u))

def named : List PyText :=
  ["fp".toList, "ip".toList, "sp".toList, "lr".toList, "pc".toList, "sl".toList, "sb".toList]

def wordBytes (letters : PyText) : Nat := if letters = "d".toList then 8 else 4

/-- The bytes of one part of a register list, `none` for a form that is not modelled. -/
def partBytes (part : PyText) : Option Nat :=
  let plain := if part ∈ named then some 4 else none
  match register u part with
  | some (p1, _, []) => some (wordBytes p1)
  | some (p1, n1, '-' :: rest) =>
      match register u rest with
      | some (p2, n2, []) =>
          if p1 ≠ p2 then none else some (((max n1 n2 - min n1 n2) + 1) * wordBytes p1)
      | _ => plain
  | _ => plain

def partsBytes : List PyText → Option Nat
  | [] => some 0
  | part :: parts =>
      let part := PyText.strip part
      if part = [] then partsBytes parts
      else (partBytes u part).bind fun n => (partsBytes parts).map (n + ·)

def regBytes (regs : PyText) : Option Nat :=
  let body := PyText.strip (stripChars "\x7b\x7d^".toList (PyText.strip regs))
  if body = [] then some 0 else partsBytes u (PyText.splitOn ',' body)

def condForms : List PyText :=
  ["push".toList, "pop".toList, "stmfd".toList, "ldmfd".toList, "vpush".toList, "vpop".toList]

/-- `_COND.match`, and whether its second group is there. -/
def condForm (mn : PyText) : Option Bool :=
  if mn ∈ condForms then some false
  else
    let suffix := mn.drop (mn.length - 2)
    if mn.take (mn.length - 2) ∈ condForms ∧ suffix.length = 2 ∧ suffix.all Char.isLower then some true
    else none

def listOf (mn ops : PyText) : PyText :=
  if mn ∈ ["stmfd".toList, "ldmfd".toList, "vpush".toList, "vpop".toList] ∧
      "sp!".toList.isPrefixOf (ops.map Char.toLower) then
    (ops.dropWhile (· ≠ ',')).drop 1
  else ops

/-- `re.search(r"#(\d+)", ops)` -/
def immediate : PyText → Option Nat
  | [] => none
  | c :: ops =>
      let digits := ops.takeWhile (isDigit u)
      if c = '#' ∧ digits ≠ [] then some (number u digits) else immediate ops

def opensWith (words : List PyText) (target ops : PyText) : Bool :=
  words.any fun word =>
    let rest := (ops.drop word.length).dropWhile Char.isLower
    word.isPrefixOf ops && (rest.takeWhile PyText.isSpace != []) &&
      target.isPrefixOf (rest.dropWhile PyText.isSpace)

/-- The walk's last pattern, which it looks for in the operands. -/
def writesSp (ops : PyText) : Bool :=
  opensWith ["mov".toList, "ldr".toList, "ldm".toList, "popx".toList] "sp".toList ops ||
    opensWith ["add".toList, "sub".toList, "bic".toList, "and".toList, "orr".toList] "sp,".toList ops

def ast : PyText := "<ast_taken>".toList

def callsAst (i : Insn) : Bool := (i.mn = "bl".toList || i.mn = "blx".toList) && PyText.within ast i.ops

def startsAny (words : List PyText) (text : PyText) : Bool := words.any fun word => word.isPrefixOf text

def count (i : Insn) : Count :=
  if callsAst i then .ignores
  else
    match condForm i.mn with
    | some true => .refuses
    | some false =>
        match regBytes u (listOf i.mn i.ops) with
        | none => .refuses
        | some n =>
            if i.mn ∈ ["pop".toList, "ldmfd".toList, "vpop".toList] then .adds n else .adds (-n)
    | none =>
        if startsAny ["sub".toList, "add".toList] i.mn ∧ "sp, sp,".toList.isPrefixOf i.ops then
          match immediate u i.ops with
          | none => .refuses
          | some n => if "add".toList.isPrefixOf i.mn then .adds n else .adds (-n)
        else if "bic".toList.isPrefixOf i.mn ∧ "sp, sp,".toList.isPrefixOf i.ops ∧
            PyText.within "#7".toList i.ops then .aligns
        else if writesSp i.ops then .refuses
        else .ignores

structure Walk where
  delta : Int
  unresolved : Bool

def Walk.start : Walk := ⟨0, false⟩

def Walk.take (w : Walk) : Count → Walk
  | .ignores => w
  | .refuses => { w with unresolved := true }
  | .adds n => { w with delta := w.delta + n }
  | .aligns => { w with delta := 0 }

inductive Verdict where
  | indeterminate
  | misaligned (delta : Int)
  | ok (delta : Int)
  deriving DecidableEq

structure Site where
  func : PyText
  addr : PyText
  verdict : Verdict
  deriving DecidableEq

def Site.line (s : Site) : PyText :=
  let place := s.func ++ "+".toList ++ s.addr
  match s.verdict with
  | .indeterminate =>
      "  FAIL ".toList ++ place ++ ": sp is indeterminate before the ast_taken call".toList
  | .misaligned delta =>
      "  FAIL ".toList ++ place ++ ": cumulative stack delta ".toList ++ (toString delta).toList ++
        " = ".toList ++ (toString (delta % 8)).toList ++
        " (mod 8) at bl ast_taken - the C call starts at a misaligned sp".toList
  | .ok delta =>
      "  ok   ".toList ++ place ++ ": delta ".toList ++ (toString delta).toList ++
        " = 0 (mod 8) at bl ast_taken".toList

def Walk.verdict (w : Walk) : Verdict :=
  if w.unresolved then .indeterminate else if w.delta % 8 ≠ 0 then .misaligned w.delta else .ok w.delta

def sitesFrom : Option PyText → Walk → List Line → List Site
  | _, _, [] => []
  | prev, w, l :: lines =>
      let w := if some l.func ≠ prev then Walk.start else w
      (if callsAst l.insn then [⟨l.func, l.insn.addr, w.verdict⟩] else []) ++
        sitesFrom (some l.func) (w.take (count u l.insn)) lines

def astSites (lines : List Line) : List Site := sitesFrom u none Walk.start lines

def allOk (sites : List Site) : Bool :=
  sites.all fun s => match s.verdict with | .ok _ => true | _ => false

end Walker

/-! ## Soundness -/

def linesOf (func : PyText) (body : List Insn) : List Line := body.map (Line.mk func)

/-- The line for the call `i` behind `before` says ok. -/
def ReportsOk (u : Unicode) (func : PyText) (before : List Insn) (i : Insn) (after : List Insn) : Prop :=
  ∃ delta rest, astSites u (linesOf func (before ++ i :: after)) =
    astSites u (linesOf func before) ++ ⟨func, i.addr, .ok delta⟩ :: rest

def writesRegister : Effect → Bool
  | .adds _ | .rounds | .sets => true
  | .keeps | .leaves => false

def Counted (u : Unicode) (i : Insn) : Prop := count u i = .aligns ∨ ∃ n, count u i = .adds n

/-- What an ok promises of the instructions from the function's label to the call. -/
structure Sound (u : Unicode) (arm : Insn → Meaning) (func : PyText) (body : List Insn) : Prop where
  aligned : ∀ before i after, body = before ++ i :: after → callsAst i = true →
    ReportsOk u func before i after →
    ∀ sp s, Runs 8 arm ⟨sp, []⟩ before s → Aligned 8 sp s
  refused : ∀ before i after, body = before ++ i :: after → callsAst i = true →
    ReportsOk u func before i after →
    ∀ j ∈ before, writesRegister (arm j).effect = true → Counted u j

def Count.change : Count → Int
  | .adds n => n
  | _ => 0

/-- The counted changes behind the last counted rounding. -/
def changeSince (counts : List Count) : Int :=
  ((counts.reverse.takeWhile (· ≠ .aligns)).map Count.change).sum

/-- Nothing is refused and what is counted is a multiple of 8. -/
def Passes (counts : List Count) : Prop := .refuses ∉ counts ∧ 8 ∣ changeSince counts

/-! ## What is reported -/

section Report
variable {u : Unicode} {func : PyText}

theorem changeSince_append (counts : List Count) (c : Count) :
    changeSince (counts ++ [c]) = if c = .aligns then 0 else c.change + changeSince counts := by
  rw [changeSince, List.reverse_append, List.reverse_singleton, List.singleton_append,
    List.takeWhile_cons]
  by_cases rounding : c = .aligns
  · simp [rounding]
  · simp [rounding, changeSince]

theorem walk_counts (counts : List Count) :
    ((counts.foldl Walk.take Walk.start).unresolved = true ↔ .refuses ∈ counts) ∧
      (counts.foldl Walk.take Walk.start).delta = changeSince counts := by
  induction counts using List.reverseRecOn with
  | nil => exact ⟨by simp [Walk.start], rfl⟩
  | append_singleton counts c ih =>
      obtain ⟨unresolved, delta⟩ := ih
      rw [List.foldl_append, changeSince_append]
      cases c with
      | ignores => simp [Walk.take, unresolved, delta, Count.change]
      | refuses => simp [Walk.take, delta, Count.change]
      | adds n => simp [Walk.take, unresolved, delta, Count.change, add_comm]
      | aligns => simp [Walk.take, unresolved]

theorem verdict_ok_iff (counts : List Count) :
    (∃ delta, (counts.foldl Walk.take Walk.start).verdict = .ok delta) ↔ Passes counts := by
  obtain ⟨unresolved, delta⟩ := walk_counts counts
  set w := counts.foldl Walk.take Walk.start with w_eq
  rw [Passes, ← unresolved, ← delta, Int.dvd_iff_emod_eq_zero, Walk.verdict]
  by_cases refused : w.unresolved = true
  · simp [refused]
  · by_cases multiple : w.delta % 8 = 0
    · simp [refused, multiple]
    · simp [refused, multiple]

theorem sitesFrom_split (before : List Insn) (i : Insn) (after : List Insn) : ∀ w,
    sitesFrom u (some func) w (linesOf func (before ++ i :: after)) =
      sitesFrom u (some func) w (linesOf func before) ++
        ((if callsAst i then [⟨func, i.addr, ((before.map (count u)).foldl Walk.take w).verdict⟩] else []) ++
          sitesFrom u (some func) (((before ++ [i]).map (count u)).foldl Walk.take w) (linesOf func after)) := by
  induction before with
  | nil =>
      intro w
      simp [linesOf, sitesFrom]
  | cons j before ih =>
      intro w
      have next := ih (w.take (count u j))
      simp only [linesOf, List.cons_append, List.map_cons, sitesFrom, ne_eq, not_true_eq_false, if_false,
        List.foldl_cons, List.append_assoc] at next ⊢
      rw [next]

theorem astSites_linesOf (body : List Insn) :
    astSites u (linesOf func body) = sitesFrom u (some func) Walk.start (linesOf func body) := by
  cases body with
  | nil => rfl
  | cons i body => simp [astSites, linesOf, sitesFrom]

theorem reportsOk_iff {before : List Insn} {i : Insn} (calls : callsAst i = true) (after : List Insn) :
    ReportsOk u func before i after ↔ Passes (before.map (count u)) := by
  rw [← verdict_ok_iff, ReportsOk, astSites_linesOf, astSites_linesOf, sitesFrom_split, if_pos calls]
  constructor
  · intro ⟨delta, rest, same⟩
    have site := (List.cons.inj (List.append_cancel_left same)).1
    exact ⟨delta, congrArg Site.verdict site⟩
  · intro ⟨delta, verdict⟩
    exact ⟨delta, _, by rw [verdict]; rfl⟩

end Report

section Soundness
variable {u : Unicode} {arm : Insn → Meaning} {func : PyText} {body before : List Insn}

theorem sound_of_residues
    (condition : ∀ before i after, body = before ++ i :: after → callsAst i = true →
      Passes (before.map (count u)) →
      (residue 8 arm before).IsAligned 8 ∧
        ∀ j ∈ before, writesRegister (arm j).effect = true → Counted u j) :
    Sound u arm func body := by
  constructor
  · intro before i after split calls ok
    exact (aligned_iff (by decide) before).mpr
      (condition before i after split calls ((reportsOk_iff calls after).mp ok)).1
  · intro before i after split calls ok
    exact (condition before i after split calls ((reportsOk_iff calls after).mp ok)).2

def TakenAs : Count → Meaning → Prop
  | .ignores, a => writesRegister a.effect = false
  | .refuses, _ => True
  | .adds n, a => a = ⟨false, .adds n⟩
  | .aligns, a => a = ⟨false, .rounds⟩

theorem residue_counts (taken : ∀ j ∈ before, TakenAs (count u j) (arm j))
    (modelled : .refuses ∉ before.map (count u)) :
    residue 8 arm before = .unreached ∨
      residue 8 arm before = .known (changeSince (before.map (count u))) := by
  induction before using List.reverseRecOn with
  | nil => exact Or.inr rfl
  | append_singleton before i ih =>
      simp only [List.map_append, List.map_singleton, List.mem_append, List.mem_singleton,
        not_or] at modelled taken ⊢
      have means := taken i (Or.inr rfl)
      rw [changeSince_append, residue_append]
      rcases ih (fun j there => taken j (Or.inl there)) modelled.1 with left | known
      · rw [left]
        exact Or.inl rfl
      · rw [known]
        cases counted : count u i with
        | refuses => exact absurd counted.symm modelled.2
        | adds n =>
            rw [counted] at means
            have effect : arm i = ⟨false, .adds n⟩ := means
            rw [effect]
            exact Or.inr (congrArg Residue.known (Int.add_comm _ n))
        | aligns =>
            rw [counted] at means
            have effect : arm i = ⟨false, .rounds⟩ := means
            rw [effect]
            exact Or.inr rfl
        | ignores =>
            rw [counted] at means
            have silent : writesRegister (arm i).effect = false := means
            have nothing : Count.change .ignores = 0 := rfl
            rw [if_neg Count.noConfusion, nothing, zero_add]
            cases effect : (arm i).effect with
            | keeps =>
                rw [Residue.step, effect]
                exact Or.inr rfl
            | leaves =>
                rw [Residue.step, effect]
                dsimp only
                split
                · exact Or.inr rfl
                · exact Or.inl rfl
            | adds n => simp [effect, writesRegister] at silent
            | rounds => simp [effect, writesRegister] at silent
            | sets => simp [effect, writesRegister] at silent

/-- Where the walk takes every instruction for what it does, an ok is worth what it promises. -/
theorem sound_of_taken (taken : ∀ j ∈ body, TakenAs (count u j) (arm j)) : Sound u arm func body := by
  apply sound_of_residues
  intro before i after split calls passes
  have earlier : ∀ j ∈ before, TakenAs (count u j) (arm j) := by
    intro j there
    apply taken
    rw [split]
    exact List.mem_append_left _ there
  constructor
  · rcases residue_counts earlier passes.1 with left | known
    · rw [left]
      trivial
    · rw [known]
      exact passes.2
  · intro j there writes
    have means := earlier j there
    cases counted : count u j with
    | ignores =>
        rw [counted] at means
        exact absurd (means.symm.trans writes) Bool.false_ne_true
    | refuses => exact absurd (List.mem_map.mpr ⟨j, there, counted⟩) passes.1
    | adds n => exact Or.inr ⟨n, counted⟩
    | aligns => exact Or.inl counted

end Soundness

/-- An ok is worth what it promises exactly if, wherever nothing in front of a call is refused and what is
counted is a multiple of 8, every instruction that writes sp is counted and what the instructions really
do to sp is known and a multiple of 8 as well. -/
theorem verdict_sound_iff (u : Unicode) (arm : Insn → Meaning) (func : PyText) (body : List Insn) :
    Sound u arm func body ↔
      ∀ before i after, body = before ++ i :: after → callsAst i = true →
        Passes (before.map (count u)) →
        (residue 8 arm before).IsAligned 8 ∧
          ∀ j ∈ before, writesRegister (arm j).effect = true → Counted u j := by
  refine ⟨?_, sound_of_residues⟩
  intro sound before i after split calls passes
  have ok := (@reportsOk_iff u func before i calls after).mpr passes
  exact ⟨(aligned_iff (by decide) before).mp (sound.aligned before i after split calls ok),
    sound.refused before i after split calls ok⟩

/-- `mov sp, r0`, and the call. -/
def movSp : Insn := ⟨"8000".toList, "mov".toList, "sp, r0".toList, List.all_eq_true.mp (by decide)⟩

def callAst : Insn := ⟨"8004".toList, "bl".toList, "9000 <ast_taken>".toList,
  List.all_eq_true.mp (by decide)⟩

/-- A move to sp makes it a value that the text does not give; the call returns with sp as it was. -/
def movMeaning (i : Insn) : Meaning := if i.mn = "mov".toList then ⟨false, .sets⟩ else ⟨false, .keeps⟩

/-- The pattern for a move to sp is looked for in the operands, where it never is. -/
theorem moved_sp_ok : ¬ Sound Unicode.ascii movMeaning "f".toList [movSp, callAst] := by
  intro sound
  have ok : ReportsOk Unicode.ascii "f".toList [movSp] callAst [] := ⟨0, [], by decide +kernel⟩
  have counted := sound.refused [movSp] callAst [] rfl (by decide +kernel) ok movSp
    (List.mem_singleton_self movSp) (by decide +kernel)
  have ignored : count Unicode.ascii movSp = .ignores := by decide +kernel
  rcases counted with rounding | ⟨n, adds⟩
  · exact absurd (ignored.symm.trans rounding) Count.noConfusion
  · exact absurd (ignored.symm.trans adds) Count.noConfusion

end Stage90.Asm.SpAlignment

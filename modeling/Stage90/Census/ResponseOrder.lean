import Stage90.Lib.Places
import Stage90.Lib.PyDict
import Mathlib.Data.List.Induction
import Mathlib.Data.List.Sort
import Mathlib.Order.Defs.LinearOrder

/-!
# The word order of the response

`findings_in` of `check_response_word_order.py` over the statements of a function body.  A
statement is what the patterns find in its text: whether it ends a segment, what it assigns, and
the reads, shifts and bars in their order.
-/

set_option autoImplicit false

namespace Stage90.Census

open Stage90.Lib

/-! ## Statements -/

/-- A match in the text of a statement.  An access that is not of the response register has no
offset; `right` is a `>>` behind the match. -/
inductive Piece (α : Type)
  | read32 (off : Option Nat) (right : Bool)
  | read8 (off : Option Nat)
  | shiftLeft (v : α)
  | shiftRight (v : α)
  | bar
  deriving DecidableEq

/-- `whole` says of an assignment that its value is one read, `BARE32`. -/
structure Stmt (α : Type) where
  line : Nat
  command : Bool
  directive : Bool
  target : Option (α × Bool)
  pieces : List (Piece α)

section Stmt
variable {α : Type}

def Piece.offset : Piece α → Option Nat
  | .read32 off _ => off
  | .read8 off => off
  | _ => none

def Piece.word : Piece α → Option Nat
  | .read32 off _ => off
  | _ => none

def Piece.byte : Piece α → Option Nat
  | .read8 off => off
  | _ => none

def Piece.isRead32 : Piece α → Bool
  | .read32 _ _ => true
  | _ => false

def Piece.isBar : Piece α → Bool
  | .bar => true
  | _ => false

def Piece.leftOperand : Piece α → Option α
  | .shiftLeft v => some v
  | _ => none

def Piece.rightOperand : Piece α → Option α
  | .shiftRight v => some v
  | _ => none

def Stmt.resets (s : Stmt α) : Bool := s.command || s.directive

def Stmt.words (s : Stmt α) : List Nat := s.pieces.filterMap Piece.word

def Stmt.bytes (s : Stmt α) : List Nat := s.pieces.filterMap Piece.byte

/-- `offset_of` of an assigned value, in which every piece lies. -/
def Stmt.offset (s : Stmt α) : Option Nat := s.pieces.findSome? Piece.offset

/-- What the assignment makes of `var_offset`: the variable and the offset read for it. -/
def Stmt.response (s : Stmt α) : Option (α × Nat) :=
  match s.target with
  | none => none
  | some (v, _) => if s.pieces.any Piece.isRead32 then s.offset.map fun off => (v, off) else none

/-! ## The checker -/

def legal32 : List Nat := [12, 8, 4, 0]

def legal8 : List Nat := [11, 7, 3]

def rawWords : List Nat := [12, 8, 4]

/-- The offset, when the whole value is a raw register read that fields do not come off. -/
def Stmt.raw (s : Stmt α) : Option Nat :=
  match s.target with
  | some (_, true) => s.offset.filter fun off => off ∈ rawWords
  | _ => none

inductive Divergence (α : Type)
  | offset32 (off : Nat)
  | offset8 (off : Nat)
  | repeated (off : Nat)
  | ascending (off last : Nat)
  | pairUnassigned (byte : Nat) (operand : α)
  | pairAlone (byte : Nat)
  | pairOther (byte word : Nat)
  | rawField (v : α) (off : Nat)
  | rawInline (off : Nat)
  deriving DecidableEq

inductive Tag
  | OFFSET
  | REPEAT
  | ASCENDING
  | PAIR
  | RAW_FIELD

def Divergence.tag : Divergence α → Tag
  | .offset32 _ | .offset8 _ => .OFFSET
  | .repeated _ => .REPEAT
  | .ascending _ _ => .ASCENDING
  | .pairUnassigned _ _ | .pairAlone _ | .pairOther _ _ => .PAIR
  | .rawField _ _ | .rawInline _ => .RAW_FIELD

def offsetFindings (s : Stmt α) : List (Divergence α) :=
  (s.words.filter (· ∉ legal32)).map .offset32 ++ (s.bytes.filter (· ∉ legal8)).map .offset8

/-- The loop over the words of a statement, behind the segment read so far. -/
def orderFindings : List Nat → List Nat → List (Divergence α)
  | _, [] => []
  | segment, off :: words =>
      (if off ∈ segment then [.repeated off]
        else
          match segment.getLast? with
          | some last => if off ≥ last then [.ascending off last] else []
          | none => []) ++ orderFindings (segment ++ [off]) words

variable [LinearOrder α]

/-- The word a byte is ORed onto, for what stands before it in the statement. -/
def pairFinding (varOffset : PyDict α Nat) (head : List (Piece α)) (byte : Nat) :
    List (Divergence α) :=
  let judge (word : Option Nat) : List (Divergence α) :=
    match word with
    | none => [.pairAlone byte]
    | some word => if byte + 1 = word then [] else [.pairOther byte word]
  match head.reverse.findSome? Piece.leftOperand with
  | some operand =>
      match varOffset.lookup operand with
      | some word => judge (some word)
      | none => [.pairUnassigned byte operand]
  | none => judge ((head.reverse.find? Piece.isRead32).bind Piece.word)

def pairFindings (varOffset : PyDict α Nat) : List (Piece α) → List (Piece α) → List (Divergence α)
  | _, [] => []
  | head, p :: rest =>
      (match p.byte with
        | some byte => pairFinding varOffset head byte
        | none => []) ++ pairFindings varOffset (head ++ [p]) rest

structure Check (α : Type) where
  varOffset : PyDict α Nat
  rawWord : PyDict α Nat
  segment : List Nat

/-- `raw_word` behind the assignment of a statement. -/
def Stmt.assignRaw (s : Stmt α) (rawWord : PyDict α Nat) : PyDict α Nat :=
  match s.target with
  | none => rawWord
  | some (v, _) =>
      match s.raw with
      | some off => rawWord.set v off
      | none => rawWord.pop v

def Stmt.assignOffset (s : Stmt α) (varOffset : PyDict α Nat) : PyDict α Nat :=
  match s.response with
  | some (v, off) => varOffset.set v off
  | none => varOffset

/-- The state behind a statement.  `seen` is the set of what is in the segment. -/
def Check.step (c : Check α) (s : Stmt α) : Check α where
  varOffset := s.assignOffset c.varOffset
  rawWord := s.assignRaw c.rawWord
  segment := (if s.resets then [] else c.segment) ++ s.words

def Check.findings (c : Check α) (s : Stmt α) : List (Divergence α) :=
  let varOffset := s.assignOffset c.varOffset
  let rawWord := s.assignRaw c.rawWord
  offsetFindings s ++
    orderFindings (if s.resets then [] else c.segment) s.words ++
    (if s.pieces.any Piece.isBar then pairFindings varOffset [] s.pieces else []) ++
    ((rawWord.insertionSort fun a b => a.1 ≤ b.1).filter fun e =>
      s.pieces.any fun p => p.rightOperand == some e.1).map (fun e => .rawField e.1 e.2) ++
    s.pieces.filterMap fun p =>
      match p with
      | .read32 (some off) true => if off ∈ rawWords then some (.rawInline off) else none
      | _ => none

def findingsFrom (c : Check α) : List (Stmt α) → List (Nat × Divergence α)
  | [] => []
  | s :: stmts =>
      (c.findings s).map (fun d => (s.line, d)) ++ findingsFrom (c.step s) stmts

def findingsIn (stmts : List (Stmt α)) : List (Nat × Divergence α) :=
  findingsFrom ⟨[], [], []⟩ stmts

/-! ## The rules -/

/-- Rule 1. -/
def OffsetsLegal (stmts : List (Stmt α)) : Prop :=
  ∀ s ∈ stmts, (∀ off ∈ s.words, off ∈ [0, 4, 8, 12]) ∧ ∀ off ∈ s.bytes, off ∈ [3, 7, 11]

/-- Rule 2, for the statements from one that ends a segment up to the next. -/
def WordsDescend (stmts : List (Stmt α)) : Prop :=
  ∀ run, run <:+: stmts → (∀ s ∈ run.tail, s.resets = false) →
    (run.flatMap Stmt.words).Pairwise (· > ·)

def latest (v : α) (before : List (Stmt α)) : Option (Stmt α) :=
  before.reverse.find? fun s => s.target.any fun t => t.1 = v

/-- What a byte behind `head` is ORed onto is the response word at `off`. -/
def OredOnto (before : List (Stmt α)) (head : List (Piece α)) (off : Nat) : Prop :=
  match head.reverse.findSome? Piece.leftOperand with
  | some v => ∃ a, latest v before = some a ∧ a.response = some (v, off)
  | none => (head.reverse.find? Piece.isRead32).bind Piece.word = some off

/-- Rule 3. -/
def BytesBelow (stmts : List (Stmt α)) : Prop :=
  ∀ before s after, stmts = before ++ s :: after → s.pieces.any Piece.isBar = true →
    ∀ head p rest byte, s.pieces = head ++ p :: rest → p.byte = some byte →
      OredOnto before head (byte + 1)

/-- Rule 4, of variables. -/
def FieldsAssembled (stmts : List (Stmt α)) : Prop :=
  ∀ before s after, stmts = before ++ s :: after → ∀ v, .shiftRight v ∈ s.pieces →
    ∀ a, latest v before = some a → a.raw = none

/-- Rule 4, of the reads themselves. -/
def ReadsAssembled (stmts : List (Stmt α)) : Prop :=
  ∀ s ∈ stmts, ∀ off ∈ rawWords, .read32 (some off) true ∉ s.pieces

/-- A byte of the statement is ORed onto `v`. -/
def OperandAt (s : Stmt α) (v : α) : Prop :=
  s.pieces.any Piece.isBar = true ∧ ∃ head p rest byte, s.pieces = head ++ p :: rest ∧
    p.byte = some byte ∧ head.reverse.findSome? Piece.leftOperand = some v

/-- No assignment comes between a response read and the byte that is ORed onto its variable,
and none writes a variable that its own statement takes a field of. -/
structure Current (stmts : List (Stmt α)) : Prop where
  operands : ∀ before s after, stmts = before ++ s :: after → ∀ v, OperandAt s v →
    (∀ off, s.response ≠ some (v, off)) ∧
      ∀ a, latest v before = some a → a.response = none →
        ∀ b ∈ before, ∀ off, b.response ≠ some (v, off)
  targets : ∀ before s after, stmts = before ++ s :: after → ∀ v whole,
    s.target = some (v, whole) → .shiftRight v ∈ s.pieces →
      s.raw = none ∧ ∀ a, latest v before = some a → a.raw = none

/-! ## Statement by statement -/

def stateAfter (before : List (Stmt α)) : Check α := before.foldl Check.step ⟨[], [], []⟩

theorem stateAfter_append (before : List (Stmt α)) (s : Stmt α) :
    stateAfter (before ++ [s]) = (stateAfter before).step s := by
  rw [stateAfter, List.foldl_append]
  rfl

theorem findingsFrom_nil (stmts : List (Stmt α)) : ∀ before : List (Stmt α),
    findingsFrom (stateAfter before) stmts = [] ↔
      ∀ mid s after, stmts = mid ++ s :: after →
        (stateAfter (before ++ mid)).findings s = [] := by
  induction stmts with
  | nil => exact fun before => ⟨fun _ => forall_places_nil, fun _ => rfl⟩
  | cons first stmts ih =>
      intro before
      rw [findingsFrom, List.append_eq_nil_iff, List.map_eq_nil_iff, ← stateAfter_append, ih,
        forall_places_cons, List.append_nil]
      simp only [List.append_assoc, List.singleton_append]

theorem findingsIn_nil (stmts : List (Stmt α)) :
    findingsIn stmts = [] ↔ ∀ before s after, stmts = before ++ s :: after →
      (stateAfter before).findings s = [] :=
  findingsFrom_nil stmts []

omit [LinearOrder α] in
theorem rightOperand_eq {p : Piece α} {v : α} : p.rightOperand = some v ↔ p = .shiftRight v := by
  cases p <;> simp [Piece.rightOperand]

theorem fields_nil (rawWord : PyDict α Nat) (pieces : List (Piece α)) :
    (((rawWord.insertionSort fun a b => a.1 ≤ b.1).filter fun e =>
      pieces.any fun p => p.rightOperand == some e.1).map
        fun e => (.rawField e.1 e.2 : Divergence α)) = [] ↔
      ∀ v, .shiftRight v ∈ pieces → rawWord.lookup v = none := by
  rw [List.map_eq_nil_iff, List.filter_eq_nil_iff]
  constructor
  · intro unread v shifted
    rw [List.lookup_eq_none_iff]
    intro e entry
    rw [bne_iff_ne]
    rintro rfl
    refine unread e ((List.mem_insertionSort _).mpr entry) (List.any_eq_true.mpr ⟨_, shifted, ?_⟩)
    exact beq_iff_eq.mpr rfl
  · intro absent e entry shifted
    obtain ⟨p, member, right⟩ := List.any_eq_true.mp shifted
    rw [rightOperand_eq.mp (beq_iff_eq.mp right)] at member
    have unequal := List.lookup_eq_none_iff.mp (absent e.1 member) e
      ((List.mem_insertionSort _).mp entry)
    exact bne_iff_ne.mp unequal rfl

omit [LinearOrder α] in
theorem inline_nil (pieces : List (Piece α)) :
    (pieces.filterMap fun p =>
      match p with
      | .read32 (some off) true => if off ∈ rawWords then some (.rawInline off) else none
      | _ => (none : Option (Divergence α))) = [] ↔
      ∀ off ∈ rawWords, .read32 (some off) true ∉ pieces := by
  rw [List.filterMap_eq_nil_iff]
  constructor
  · intro none off raw member
    have found : (if off ∈ rawWords then some (.rawInline off) else Option.none) =
        (Option.none : Option (Divergence α)) := none _ member
    rw [if_pos raw] at found
    cases found
  · intro absent p member
    split
    case h_1 off =>
        exact if_neg fun raw => absent off raw member
    case h_2 => rfl

theorem findings_nil (c : Check α) (s : Stmt α) :
    c.findings s = [] ↔ (offsetFindings s : List (Divergence α)) = [] ∧
      (orderFindings (if s.resets then [] else c.segment) s.words : List (Divergence α)) = [] ∧
      (s.pieces.any Piece.isBar = true →
        pairFindings (s.assignOffset c.varOffset) [] s.pieces = []) ∧
      (∀ v, .shiftRight v ∈ s.pieces → (s.assignRaw c.rawWord).lookup v = none) ∧
      ∀ off ∈ rawWords, .read32 (some off) true ∉ s.pieces := by
  have bars : (if s.pieces.any Piece.isBar then
      pairFindings (s.assignOffset c.varOffset) [] s.pieces else []) = [] ↔
      (s.pieces.any Piece.isBar = true →
        pairFindings (s.assignOffset c.varOffset) [] s.pieces = []) := by
    split <;> simp_all
  rw [Check.findings, List.append_eq_nil_iff, List.append_eq_nil_iff, List.append_eq_nil_iff,
    List.append_eq_nil_iff, and_assoc, and_assoc, and_assoc, bars, fields_nil, inline_nil]

/-! ## Offsets -/

omit [LinearOrder α] in
theorem offsetFindings_nil (s : Stmt α) :
    (offsetFindings s : List (Divergence α)) = [] ↔
      (∀ off ∈ s.words, off ∈ [0, 4, 8, 12]) ∧ ∀ off ∈ s.bytes, off ∈ [3, 7, 11] := by
  rw [offsetFindings, List.append_eq_nil_iff, List.map_eq_nil_iff, List.map_eq_nil_iff,
    List.filter_eq_nil_iff, List.filter_eq_nil_iff]
  have words : ∀ off, off ∈ legal32 ↔ off ∈ [0, 4, 8, 12] := by
    intro off
    rw [legal32]
    simp only [List.mem_cons, List.not_mem_nil, or_false]
    omega
  have bytes : ∀ off, off ∈ legal8 ↔ off ∈ [3, 7, 11] := by
    intro off
    rw [legal8]
    simp only [List.mem_cons, List.not_mem_nil, or_false]
    omega
  simp only [decide_eq_true_eq, not_not, words, bytes]

/-! ## Segments -/

omit [LinearOrder α] in
theorem descending_concat {segment : List Nat} (descending : segment.Pairwise (· > ·)) (off : Nat) :
    (segment ++ [off]).Pairwise (· > ·) ↔
      off ∉ segment ∧ ∀ last, segment.getLast? = some last → off < last := by
  rw [List.pairwise_append]
  constructor
  · intro ⟨_, _, above⟩
    have below : ∀ x ∈ segment, off < x := fun x member => above x member off List.mem_cons_self
    exact ⟨fun member => Nat.lt_irrefl off (below off member),
      fun last found => below last (List.mem_of_getLast? found)⟩
  · intro ⟨_, below⟩
    refine ⟨descending, List.pairwise_singleton _ _, fun x member y single => ?_⟩
    rw [List.mem_singleton.mp single]
    obtain rfl | ⟨init, last, rfl⟩ := List.eq_nil_or_concat' segment
    · cases member
    have least := below last List.getLast?_concat
    obtain inside | here := List.mem_append.mp member
    · have greater := (List.pairwise_append.mp descending).2.2 x inside last List.mem_cons_self
      exact Nat.lt_trans least greater
    · rw [List.mem_singleton.mp here]
      exact least

omit [LinearOrder α] in
theorem orderFindings_nil (words : List Nat) : ∀ {segment : List Nat},
    segment.Pairwise (· > ·) →
      ((orderFindings segment words : List (Divergence α)) = [] ↔
        (segment ++ words).Pairwise (· > ·)) := by
  induction words with
  | nil =>
      intro segment descending
      rw [List.append_nil]
      exact iff_of_true rfl descending
  | cons off words ih =>
      intro segment descending
      have one : ((if off ∈ segment then [.repeated off]
          else
            match segment.getLast? with
            | some last => if off ≥ last then [.ascending off last] else []
            | none => []) : List (Divergence α)) = [] ↔ (segment ++ [off]).Pairwise (· > ·) := by
        rw [descending_concat descending]
        by_cases again : off ∈ segment
        · simp [again]
        · cases segment.getLast? <;> simp [again]
      have joined : segment ++ off :: words = segment ++ [off] ++ words := by simp
      rw [orderFindings, List.append_eq_nil_iff, one, joined]
      constructor
      · exact fun ⟨here, later⟩ => (ih here).mp later
      · intro whole
        have here := (List.pairwise_append.mp whole).1
        exact ⟨here, (ih here).mpr whole⟩

theorem segment_step (c : Check α) (s : Stmt α) :
    (c.step s).segment = (if s.resets then [] else c.segment) ++ s.words := rfl

/-- The words of a segment descend when no statement up to its end has a finding of its order. -/
theorem segments_descend (stmts : List (Stmt α)) :
    (∀ before s after, stmts = before ++ s :: after →
        (orderFindings (if s.resets then [] else (stateAfter before).segment) s.words :
          List (Divergence α)) = []) ↔
      ∀ before, before <+: stmts → (stateAfter before).segment.Pairwise (· > ·) := by
  have reset {before : List (Stmt α)} (descending : (stateAfter before).segment.Pairwise (· > ·))
      (s : Stmt α) :
      (if s.resets then [] else (stateAfter before).segment : List Nat).Pairwise (· > ·) := by
    split
    · exact List.Pairwise.nil
    · exact descending
  constructor
  · intro clean before
    induction before using List.reverseRecOn with
    | nil => exact fun _ => List.Pairwise.nil
    | append_singleton before s ih =>
        intro ⟨after, split⟩
        rw [List.append_assoc] at split
        have descending := reset (ih ⟨_, split⟩) s
        rw [stateAfter_append, segment_step]
        exact (orderFindings_nil s.words descending).mp (clean before s after split.symm)
  · intro descend before s after split
    have whole := descend (before ++ [s]) ⟨after, by rw [split]; simp⟩
    rw [stateAfter_append, segment_step] at whole
    exact (orderFindings_nil s.words (List.pairwise_append.mp whole).1).mpr whole

theorem segment_eq (before : List (Stmt α)) : ∃ lead run, before = lead ++ run ∧
    (∀ s ∈ run.tail, s.resets = false) ∧ (stateAfter before).segment = run.flatMap Stmt.words := by
  induction before using List.reverseRecOn with
  | nil => exact ⟨[], [], rfl, fun s member => absurd member List.not_mem_nil, rfl⟩
  | append_singleton before s ih =>
      obtain ⟨lead, run, split, going, segment⟩ := ih
      rw [stateAfter_append, segment_step, segment]
      by_cases resets : s.resets = true
      · refine ⟨before, [s], rfl, fun s member => absurd member List.not_mem_nil, ?_⟩
        rw [if_pos resets]
        simp
      · refine ⟨lead, run ++ [s], by rw [split, List.append_assoc], fun t member => ?_, ?_⟩
        · cases run with
          | nil => cases member
          | cons first run =>
              obtain inside | here := List.mem_append.mp member
              · exact going t inside
              · rw [List.mem_singleton.mp here]
                exact Bool.eq_false_iff.mpr resets
        · rw [if_neg resets, List.flatMap_append]
          simp

theorem suffix_segment (lead run : List (Stmt α)) (going : ∀ s ∈ run.tail, s.resets = false) :
    run.flatMap Stmt.words <:+ (stateAfter (lead ++ run)).segment := by
  induction run using List.reverseRecOn with
  | nil => exact List.nil_suffix
  | append_singleton run s ih =>
      rw [← List.append_assoc, stateAfter_append, segment_step, List.flatMap_append,
        List.flatMap_singleton]
      cases run with
      | nil => exact ⟨_, rfl⟩
      | cons first run =>
          have still : s.resets = false :=
            going s (List.mem_append_right run List.mem_cons_self)
          obtain ⟨rest, found⟩ := ih fun t member => going t (List.mem_append_left [s] member)
          refine ⟨rest, ?_⟩
          rw [if_neg (Bool.eq_false_iff.mp still), ← found, List.append_assoc]

theorem words_descend (stmts : List (Stmt α)) :
    (∀ before s after, stmts = before ++ s :: after →
        (orderFindings (if s.resets then [] else (stateAfter before).segment) s.words :
          List (Divergence α)) = []) ↔ WordsDescend stmts := by
  rw [segments_descend]
  constructor
  · intro descend run ⟨lead, after, split⟩ going
    exact (descend (lead ++ run) ⟨after, split⟩).sublist (suffix_segment lead run going).sublist
  · intro descend before ⟨after, split⟩
    obtain ⟨lead, run, rfl, going, segment⟩ := segment_eq before
    rw [segment]
    exact descend run ⟨lead, after, split⟩ going

/-! ## The most recent assignment -/

theorem latest_append (v : α) (before : List (Stmt α)) (s : Stmt α) :
    latest v (before ++ [s]) =
      if s.target.any (fun t => t.1 = v) then some s else latest v before := by
  rw [latest, List.reverse_append, List.reverse_singleton, List.singleton_append, List.find?_cons]
  split <;> rename_i assigned
  · rw [if_pos assigned]
  · rw [if_neg (by rw [assigned]; exact Bool.false_ne_true)]
    rfl

theorem target_of_latest {v : α} {before : List (Stmt α)} {a : Stmt α}
    (last : latest v before = some a) : a.target.any (fun t => t.1 = v) = true := by
  have found := List.find?_some last
  exact found

theorem target_of_response {s : Stmt α} {v : α} {off : Nat} (read : s.response = some (v, off)) :
    s.target.any (fun t => t.1 = v) = true := by
  rw [Stmt.response] at read
  split at read
  case h_1 => cases read
  case h_2 w whole target =>
      split at read
      case isTrue =>
          obtain ⟨_, _, same⟩ := Option.map_eq_some_iff.mp read
          rw [target, Option.any_some, decide_eq_true_iff]
          exact congrArg Prod.fst same
      case isFalse => cases read

/-- What is assigned a response is assigned it for its own variable. -/
theorem response_target {s : Stmt α} {v : α} {r : α × Nat}
    (assigned : s.target.any (fun t => t.1 = v) = true) (read : s.response = some r) : r.1 = v := by
  have own := @target_of_response α _ s r.1 r.2 read
  obtain ⟨t, target, here⟩ := Option.any_eq_true _ _ |>.mp assigned
  obtain ⟨u, target', there⟩ := Option.any_eq_true _ _ |>.mp own
  rw [target] at target'
  cases target'
  exact (of_decide_eq_true there).symm.trans (of_decide_eq_true here)

theorem lookup_assignOffset (s : Stmt α) (varOffset : PyDict α Nat) (v : α) :
    (s.assignOffset varOffset).lookup v =
      match s.response with
      | some (w, off) => if v = w then some off else varOffset.lookup v
      | none => varOffset.lookup v := by
  rw [Stmt.assignOffset]
  split
  · exact PyDict.lookup_set varOffset _ _ v
  · rfl

theorem lookup_assignRaw (s : Stmt α) (rawWord : PyDict α Nat) (v : α) :
    (s.assignRaw rawWord).lookup v =
      if s.target.any (fun t => t.1 = v) then s.raw else rawWord.lookup v := by
  rw [Stmt.assignRaw]
  cases target : s.target with
  | none => rfl
  | some t =>
      obtain ⟨w, whole⟩ := t
      rw [Option.any_some]
      simp only [decide_eq_true_iff, eq_comm (a := w)]
      cases s.raw with
      | none => exact PyDict.lookup_pop rawWord w v
      | some off => exact PyDict.lookup_set rawWord w off v

theorem rawWord_lookup (before : List (Stmt α)) (v : α) :
    (stateAfter before).rawWord.lookup v = (latest v before).bind Stmt.raw := by
  induction before using List.reverseRecOn with
  | nil => rfl
  | append_singleton before s ih =>
      rw [stateAfter_append, latest_append]
      refine (lookup_assignRaw s _ v).trans ?_
      split
      · rfl
      · exact ih

theorem varOffset_step (before : List (Stmt α)) (s : Stmt α) (v : α) :
    (stateAfter (before ++ [s])).varOffset.lookup v =
      match s.response with
      | some (w, off) => if v = w then some off else (stateAfter before).varOffset.lookup v
      | none => (stateAfter before).varOffset.lookup v := by
  rw [stateAfter_append]
  exact lookup_assignOffset s _ v

theorem varOffset_unread {before : List (Stmt α)} {v : α}
    (unread : ∀ b ∈ before, ∀ off, b.response ≠ some (v, off)) :
    (stateAfter before).varOffset.lookup v = none := by
  induction before using List.reverseRecOn with
  | nil => rfl
  | append_singleton before s ih =>
      rw [varOffset_step, ih fun b member => unread b (List.mem_append_left [s] member)]
      split
      case h_1 w off read =>
          refine if_neg fun same => ?_
          exact unread s (List.mem_append_right before List.mem_cons_self) off (same ▸ read)
      case h_2 => rfl

theorem varOffset_read {before : List (Stmt α)} {v : α} {a : Stmt α} {off : Nat}
    (last : latest v before = some a) (read : a.response = some (v, off)) :
    (stateAfter before).varOffset.lookup v = some off := by
  induction before using List.reverseRecOn with
  | nil => cases last
  | append_singleton before s ih =>
      rw [latest_append] at last
      rw [varOffset_step]
      split at last
      case isTrue assigned =>
          rw [Option.some.inj last, read]
          exact if_pos rfl
      case isFalse other =>
          split
          case h_1 w off' read' =>
              refine (if_neg fun same => other ?_).trans (ih last)
              exact target_of_response (same ▸ read')
          case h_2 => exact ih last

/-- As long as nothing came between, `var_offset` has what the most recent assignment read. -/
theorem varOffset_lookup {before : List (Stmt α)} {v : α}
    (current : ∀ a, latest v before = some a → a.response = none →
      ∀ b ∈ before, ∀ off, b.response ≠ some (v, off)) (off : Nat) :
    (stateAfter before).varOffset.lookup v = some off ↔
      ∃ a, latest v before = some a ∧ a.response = some (v, off) := by
  constructor
  · intro found
    have known (unread : ∀ b ∈ before, ∀ off, b.response ≠ some (v, off)) : False := by
      rw [varOffset_unread unread] at found
      cases found
    cases last : latest v before with
    | none =>
        refine (known fun b member off read => ?_).elim
        have unassigned := List.find?_eq_none.mp last b (List.mem_reverse.mpr member)
        exact unassigned (target_of_response read)
    | some a =>
        cases read : a.response with
        | none => exact (known (current a last read)).elim
        | some r =>
            have own : r.1 = v := response_target (target_of_latest last) read
            have read : a.response = some (v, r.2) := own ▸ read
            rw [varOffset_read last read] at found
            exact ⟨a, rfl, read.trans (congrArg some (congrArg (Prod.mk v) (Option.some.inj found)))⟩
  · exact fun ⟨a, last, read⟩ => varOffset_read last read

/-! ## Bytes -/

theorem pairFinding_nil (varOffset : PyDict α Nat) (head : List (Piece α)) (byte : Nat) :
    pairFinding varOffset head byte = [] ↔
      match head.reverse.findSome? Piece.leftOperand with
      | some v => varOffset.lookup v = some (byte + 1)
      | none => (head.reverse.find? Piece.isRead32).bind Piece.word = some (byte + 1) := by
  have judged (word : Nat) :
      ((if byte + 1 = word then [] else [.pairOther byte word]) : List (Divergence α)) = [] ↔
        some word = some (byte + 1) := by
    rw [Option.some_inj, eq_comm (a := word)]
    split <;> simp_all
  rw [pairFinding]
  cases head.reverse.findSome? Piece.leftOperand with
  | some v =>
      dsimp only
      cases varOffset.lookup v with
      | some word => exact judged word
      | none => simp
  | none =>
      dsimp only
      cases (head.reverse.find? Piece.isRead32).bind Piece.word with
      | some word => exact judged word
      | none => simp

theorem pairFindings_nil (varOffset : PyDict α Nat) (pieces : List (Piece α)) :
    ∀ head, pairFindings varOffset head pieces = [] ↔
      ∀ mid p rest, pieces = mid ++ p :: rest →
        ∀ byte, p.byte = some byte → pairFinding varOffset (head ++ mid) byte = [] := by
  induction pieces with
  | nil => exact fun head => ⟨fun _ => forall_places_nil, fun _ => rfl⟩
  | cons p pieces ih =>
      intro head
      have one : (match p.byte with
          | some byte => pairFinding varOffset head byte
          | none => []) = [] ↔
          ∀ byte, p.byte = some byte → pairFinding varOffset head byte = [] := by
        cases p.byte <;> simp
      rw [pairFindings, List.append_eq_nil_iff, one, ih, forall_places_cons, List.append_nil]
      simp only [List.append_assoc, List.singleton_append]

theorem bytes_nil {before : List (Stmt α)} {s : Stmt α} (bars : s.pieces.any Piece.isBar = true)
    (current : ∀ v, OperandAt s v → (∀ off, s.response ≠ some (v, off)) ∧
      ∀ a, latest v before = some a → a.response = none →
        ∀ b ∈ before, ∀ off, b.response ≠ some (v, off)) :
    pairFindings (s.assignOffset (stateAfter before).varOffset) [] s.pieces = [] ↔
      ∀ head p rest byte, s.pieces = head ++ p :: rest → p.byte = some byte →
        OredOnto before head (byte + 1) := by
  have onto (head : List (Piece α)) (p : Piece α) (rest : List (Piece α)) (byte : Nat)
      (split : s.pieces = head ++ p :: rest) (at_byte : p.byte = some byte) :
      pairFinding (s.assignOffset (stateAfter before).varOffset) head byte = [] ↔
        OredOnto before head (byte + 1) := by
    rw [pairFinding_nil, OredOnto]
    cases operand : head.reverse.findSome? Piece.leftOperand with
    | none => exact Iff.rfl
    | some v =>
        obtain ⟨elsewhere, latest⟩ := current v ⟨bars, head, p, rest, byte, split, at_byte, operand⟩
        have kept : (s.assignOffset (stateAfter before).varOffset).lookup v =
            (stateAfter before).varOffset.lookup v := by
          rw [lookup_assignOffset]
          split
          case h_1 w off read =>
              exact if_neg fun same : v = w => elsewhere off (same ▸ read)
          case h_2 => rfl
        dsimp only
        rw [kept]
        exact varOffset_lookup latest (byte + 1)
  rw [pairFindings_nil]
  constructor
  · exact fun clean head p rest byte split at_byte =>
      (onto head p rest byte split at_byte).mp (clean head p rest split byte at_byte)
  · exact fun below head p rest split byte at_byte =>
      (onto head p rest byte split at_byte).mpr (below head p rest byte split at_byte)

/-! ## Fields -/

theorem fields_assembled {before : List (Stmt α)} {s : Stmt α}
    (current : ∀ v whole, s.target = some (v, whole) → .shiftRight v ∈ s.pieces →
      s.raw = none ∧ ∀ a, latest v before = some a → a.raw = none) (v : α)
    (shifted : .shiftRight v ∈ s.pieces) :
    (s.assignRaw (stateAfter before).rawWord).lookup v = none ↔
      ∀ a, latest v before = some a → a.raw = none := by
  have kept : (∀ a, latest v before = some a → a.raw = none) ↔
      (latest v before).bind Stmt.raw = none := by
    cases latest v before <;> simp
  rw [lookup_assignRaw]
  split
  case isTrue assigned =>
      obtain ⟨⟨w, whole⟩, target, same⟩ := Option.any_eq_true _ _ |>.mp assigned
      have same : w = v := of_decide_eq_true same
      obtain ⟨unraw, assembled⟩ := current v whole (same ▸ target) shifted
      exact iff_of_true unraw assembled
  case isFalse => rw [rawWord_lookup, kept]

/-- The checker has no finding on the bodies that keep the rules. -/
theorem findings_in_rules (stmts : List (Stmt α)) (current : Current stmts) :
    findingsIn stmts = [] ↔ OffsetsLegal stmts ∧ WordsDescend stmts ∧ BytesBelow stmts ∧
      FieldsAssembled stmts ∧ ReadsAssembled stmts := by
  have offsets : (∀ before s after, stmts = before ++ s :: after →
      (offsetFindings s : List (Divergence α)) = []) ↔ OffsetsLegal stmts := by
    simp only [offsetFindings_nil]
    exact forall_places_mem
  have reads : (∀ before s after, stmts = before ++ s :: after →
      ∀ off ∈ rawWords, .read32 (some off) true ∉ s.pieces) ↔ ReadsAssembled stmts :=
    forall_places_mem
  rw [findingsIn_nil, ← offsets, ← words_descend, ← reads]
  simp only [findings_nil]
  constructor
  · intro clean
    refine ⟨fun before s after split => (clean before s after split).1,
      fun before s after split => (clean before s after split).2.1, ?_, ?_,
      fun before s after split => (clean before s after split).2.2.2.2⟩
    · intro before s after split bars
      exact (bytes_nil bars (current.operands before s after split)).mp
        ((clean before s after split).2.2.1 bars)
    · intro before s after split v shifted
      exact (fields_assembled (current.targets before s after split) v shifted).mp
        ((clean before s after split).2.2.2.1 v shifted)
  · intro ⟨offsets, order, bytes, fields, reads⟩ before s after split
    refine ⟨offsets before s after split, order before s after split, fun bars => ?_,
      fun v shifted => ?_, reads before s after split⟩
    · exact (bytes_nil bars (current.operands before s after split)).mpr
        (bytes before s after split bars)
    · exact (fields_assembled (current.targets before s after split) v shifted).mpr
        (fields before s after split v shifted)

end Stmt

/-! ## Bodies -/

/-- `w0 = st_read32(.. + 12u); r0 = (w0 << 8) | st_read8(.. + 11u);` -/
def assembled : List (Stmt Nat) :=
  [⟨1, false, false, some (0, true), [.read32 (some 12) false]⟩,
    ⟨2, false, false, some (1, false), [.shiftLeft 0, .bar, .read8 (some 11)]⟩]

theorem assembled_current : Current assembled := by
  constructor
  · refine forall_places_cons.mpr ⟨?_, forall_places_cons.mpr ⟨?_, forall_places_nil⟩⟩
    · intro v operand
      exact absurd operand.1 (by decide)
    · intro v _
      refine ⟨fun off read => (by cases read), fun a last unread => ?_⟩
      have first := List.mem_reverse.mp (List.mem_of_find?_eq_some last)
      rw [List.mem_singleton.mp first] at unread
      cases unread
  · refine forall_places_cons.mpr ⟨?_, forall_places_cons.mpr ⟨?_, forall_places_nil⟩⟩
    · exact fun v whole _ shifted => by simp at shifted
    · exact fun v whole _ shifted => by simp at shifted

theorem findings_in_rules_assembled :
    findingsIn assembled = [] ∧ OffsetsLegal assembled ∧ WordsDescend assembled ∧
      BytesBelow assembled ∧ FieldsAssembled assembled ∧ ReadsAssembled assembled := by
  have clean : findingsIn assembled = [] := by decide +kernel
  exact ⟨clean, (findings_in_rules assembled assembled_current).mp clean⟩

/-- `(st_read32(.. + 12u) >> 3)` -/
def inlineField : List (Stmt Nat) := [⟨1, false, false, none, [.read32 (some 12) true]⟩]

/-- `w0 = st_read32(.. + 12u); w0 = 0u; r0 = (w0 << 8) | st_read8(.. + 11u);` -/
def staleOperand : List (Stmt Nat) :=
  [⟨1, false, false, some (0, true), [.read32 (some 12) false]⟩,
    ⟨2, false, false, some (0, false), []⟩,
    ⟨3, false, false, some (1, false), [.shiftLeft 0, .bar, .read8 (some 11)]⟩]

/-- `w0 = st_read32(.. + 12u); w0 = w0 >> 30;` -/
def ownField : List (Stmt Nat) :=
  [⟨1, false, false, some (0, true), [.read32 (some 12) false]⟩,
    ⟨2, false, false, some (0, false), [.shiftRight 0]⟩]

theorem inline_field_refused :
    (findingsIn inlineField ≠ [] ∧ OffsetsLegal inlineField ∧ WordsDescend inlineField ∧
        BytesBelow inlineField ∧ FieldsAssembled inlineField) ∧
      (findingsIn staleOperand = [] ∧ ¬ BytesBelow staleOperand) ∧
      (findingsIn ownField = [] ∧ ¬ FieldsAssembled ownField) := by
  refine ⟨⟨by decide, ?_, ?_, ?_, ?_⟩, ⟨by decide, fun below => ?_⟩, ⟨by decide, fun fields => ?_⟩⟩
  · intro s member
    rw [List.mem_singleton.mp member]
    exact ⟨by decide, by decide⟩
  · apply (words_descend inlineField).mp
    exact forall_places_cons.mpr ⟨by decide, forall_places_nil⟩
  · exact forall_places_cons.mpr ⟨fun bars => absurd bars (by decide), forall_places_nil⟩
  · exact forall_places_cons.mpr ⟨fun v shifted => by simp at shifted, forall_places_nil⟩
  · obtain ⟨a, last, read⟩ := below (staleOperand.take 2) _ [] rfl (by decide)
      [.shiftLeft 0, .bar] (.read8 (some 11)) [] 11 rfl rfl
    cases last
    cases read
  · have raw := fields (ownField.take 1) _ [] rfl 0 List.mem_cons_self _ rfl
    cases raw

end Stage90.Census

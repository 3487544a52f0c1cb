import Mathlib.Algebra.Order.Group.Int
import Mathlib.Data.Int.Order.Basic
import Mathlib.Tactic.Linarith

/-!
# The layout predictor

`predict_layout.py` reads the inputs of an output section off a linker map, takes some out, puts
others in, and carries a shift through the old addresses.  The linker's own rule places each
input at the cursor, aligned, and moves the cursor on by its size.
-/

set_option autoImplicit false

namespace Stage90.Linker

abbrev Str := List Char

structure Input where
  name : Str
  path : Str
  size : Nat
  deriving DecidableEq

structure Placed where
  input : Input
  addr : Int
  deriving DecidableEq

/-- A row that is predicted; the flag is for the inputs that are put in. -/
structure Row where
  input : Input
  addr : Int
  inserted : Bool
  deriving DecidableEq

/-- What `section_align` reads in the output of `objdump -h`, which is never below 1. -/
abbrev Alignments := Str → Str → { a : Int // 0 < a }

def alignUp (v a : Int) : Int := (v + a - 1) / a * a

variable (sectionAlign : Alignments)

def alignOf (input : Input) : Int := sectionAlign input.path input.name

/-! ## `apply_changes` -/

structure Carry where
  oldCursor : Int
  shift : Int

/-- `by_index.get(i, [])` -/
def byIndex (changes : List (Nat × List Input)) (i : Nat) : List Input :=
  (changes.filter fun change => change.1 = i).flatMap Prod.snd

def insertAll : List Input → Carry → List Row × Carry
  | [], carry => ([], carry)
  | input :: more, carry =>
      let addr := alignUp (carry.oldCursor + carry.shift) (alignOf sectionAlign input)
      let rest := insertAll more { carry with shift := addr + input.size - carry.oldCursor }
      (⟨input, addr, true⟩ :: rest.1, rest.2)

/-- The loop over the order, from index `i` on. -/
def replay (inserted : Nat → List Input) (removed : Nat → Bool) : Nat → Carry → List Placed → List Row
  | i, carry, [] => (insertAll sectionAlign (inserted i) carry).1
  | i, carry, entry :: rest =>
      let (rows, carry) := insertAll sectionAlign (inserted i) carry
      if removed i then
        rows ++ replay inserted removed (i + 1)
          { oldCursor := entry.addr + entry.input.size, shift := carry.shift - entry.input.size } rest
      else
        let addr := alignUp (entry.addr + carry.shift) (alignOf sectionAlign entry.input)
        rows ++ ⟨entry.input, addr, false⟩ :: replay inserted removed (i + 1)
          { oldCursor := entry.addr + entry.input.size, shift := addr - entry.addr } rest

def applyChanges (start : Int) (order : List Placed) (removed : Nat → Bool)
    (changes : List (Nat × List Input)) : List Row :=
  replay sectionAlign (byIndex changes) removed 0 ⟨start, 0⟩ order

/-! ## The rule -/

def place : Int → List (Input × Bool) → List Row
  | _, [] => []
  | cursor, (input, inserted) :: more =>
      let addr := alignUp cursor (alignOf sectionAlign input)
      ⟨input, addr, inserted⟩ :: place (addr + input.size) more

def ByRule (start : Int) (order : List Placed) : Prop :=
  place sectionAlign start (order.map fun entry => (entry.input, false)) =
    order.map fun entry => ⟨entry.input, entry.addr, false⟩

instance (start : Int) (order : List Placed) : Decidable (ByRule sectionAlign start order) :=
  inferInstanceAs (Decidable (_ = _))

/-- What happens to the order, from its first place on. -/
inductive Change
  | insert (input : Input)
  | remove (entry : Placed)
  | keep (entry : Placed)

def allChanges (inserted : Nat → List Input) (removed : Nat → Bool) : Nat → List Placed → List Change
  | i, [] => (inserted i).map .insert
  | i, entry :: rest =>
      (inserted i).map .insert ++
        (if removed i then .remove entry else .keep entry) :: allChanges inserted removed (i + 1) rest

def resulting : List Change → List (Input × Bool)
  | [] => []
  | .insert input :: more => (input, true) :: resulting more
  | .remove _ :: more => resulting more
  | .keep entry :: more => (entry.input, false) :: resulting more

/-! ## Fill -/

/-- For each input that is there afterwards, the fill of the old layout that the shift hides:
that in front of what was taken out directly before it and, of one that was there, its own. -/
def hiddenFill : Int → Int → List Change → List Int
  | _, _, [] => []
  | cursor, hidden, .insert _ :: more => hidden :: hiddenFill cursor 0 more
  | cursor, hidden, .remove entry :: more =>
      hiddenFill (entry.addr + entry.input.size) (hidden + (entry.addr - cursor)) more
  | cursor, hidden, .keep entry :: more =>
      (hidden + (entry.addr - cursor)) :: hiddenFill (entry.addr + entry.input.size) 0 more

/-- The fill in front of each input by the rule. -/
def fills : Int → List (Input × Bool) → List Int
  | _, [] => []
  | cursor, (input, _) :: more =>
      let addr := alignUp cursor (alignOf sectionAlign input)
      (addr - cursor) :: fills (addr + input.size) more

section AlignUp
variable {v w a : Int}

theorem le_alignUp (positive : 0 < a) : v ≤ alignUp v a := by
  have division := Int.mul_ediv_add_emod (v + a - 1) a
  have below := Int.emod_lt_of_pos (v + a - 1) positive
  rw [alignUp, Int.mul_comm]
  omega

theorem alignUp_lt (positive : 0 < a) : alignUp v a < v + a := by
  have division := Int.mul_ediv_add_emod (v + a - 1) a
  have above := Int.emod_nonneg (v + a - 1) (Int.ne_of_gt positive)
  rw [alignUp, Int.mul_comm]
  omega

/-- What lies between a value and its alignment aligns to the same. -/
theorem alignUp_eq_of_between (positive : 0 < a) (above : v ≤ w) (below : w ≤ alignUp v a) :
    alignUp w a = alignUp v a := by
  have upper := @alignUp_lt v a positive
  have least := @le_alignUp w a positive
  have under := @alignUp_lt w a positive
  rw [alignUp, alignUp] at *
  set m := (w + a - 1) / a
  set n := (v + a - 1) / a
  have up : m < n + 1 := by
    apply lt_of_mul_lt_mul_right _ positive.le
    rw [Int.add_mul, Int.one_mul]
    omega
  have down : n < m + 1 := by
    apply lt_of_mul_lt_mul_right _ positive.le
    rw [Int.add_mul, Int.one_mul]
    omega
  rw [show m = n by omega]

theorem alignUp_add_eq_iff (positive : 0 < a) {x : Int} (some_ : 0 ≤ x) :
    alignUp (v + x) a = alignUp v a ↔ x ≤ alignUp v a - v := by
  constructor
  · intro same
    have above := @le_alignUp (v + x) a positive
    omega
  · intro fits
    exact alignUp_eq_of_between positive (by omega) (by omega)

end AlignUp

section Run
variable {sectionAlign}

def runChanges (sectionAlign : Alignments) : Carry → List Change → List Row
  | _, [] => []
  | carry, .insert input :: more =>
      let addr := alignUp (carry.oldCursor + carry.shift) (alignOf sectionAlign input)
      ⟨input, addr, true⟩ ::
        runChanges sectionAlign { carry with shift := addr + input.size - carry.oldCursor } more
  | carry, .remove entry :: more =>
      runChanges sectionAlign
        { oldCursor := entry.addr + entry.input.size, shift := carry.shift - entry.input.size } more
  | carry, .keep entry :: more =>
      let addr := alignUp (entry.addr + carry.shift) (alignOf sectionAlign entry.input)
      ⟨entry.input, addr, false⟩ ::
        runChanges sectionAlign
          { oldCursor := entry.addr + entry.input.size, shift := addr - entry.addr } more

theorem insertAll_append (inputs : List Input) (carry : Carry) (more : List Change) :
    (insertAll sectionAlign inputs carry).1 ++
        runChanges sectionAlign (insertAll sectionAlign inputs carry).2 more =
      runChanges sectionAlign carry (inputs.map .insert ++ more) := by
  induction inputs generalizing carry with
  | nil => rfl
  | cons input inputs ih =>
      rw [insertAll, List.map_cons, List.cons_append]
      exact congrArg (List.cons _) (ih _)

theorem replay_eq_runChanges (inserted : Nat → List Input) (removed : Nat → Bool) (i : Nat)
    (carry : Carry) (order : List Placed) :
    replay sectionAlign inserted removed i carry order =
      runChanges sectionAlign carry (allChanges inserted removed i order) := by
  induction order generalizing i carry with
  | nil =>
      have joined := @insertAll_append sectionAlign (inserted i) carry []
      rw [runChanges, List.append_nil, List.append_nil] at joined
      exact joined
  | cons entry rest ih =>
      rw [replay, allChanges, ← insertAll_append]
      dsimp only
      by_cases gone : removed i
      · rw [if_pos gone, if_pos gone, runChanges, ih]
      · rw [if_neg gone, if_neg gone, runChanges, ih]

def Follows (sectionAlign : Alignments) : Int → List Change → Prop
  | _, [] => True
  | cursor, .insert _ :: more => Follows sectionAlign cursor more
  | cursor, .remove entry :: more | cursor, .keep entry :: more =>
      entry.addr = alignUp cursor (alignOf sectionAlign entry.input) ∧
        Follows sectionAlign (entry.addr + entry.input.size) more

theorem follows_insert (inputs : List Input) {cursor : Int} {more : List Change} :
    Follows sectionAlign cursor (inputs.map .insert ++ more) ↔ Follows sectionAlign cursor more := by
  induction inputs with
  | nil => rfl
  | cons input inputs ih => rw [List.map_cons, List.cons_append, Follows, ih]

theorem follows_of_byRule {start : Int} {order : List Placed} (inserted : Nat → List Input)
    (removed : Nat → Bool) (i : Nat) (ruled : ByRule sectionAlign start order) :
    Follows sectionAlign start (allChanges inserted removed i order) := by
  induction order generalizing start i with
  | nil =>
      rw [allChanges, ← List.append_nil (List.map _ _), follows_insert]
      trivial
  | cons entry rest ih =>
      rw [ByRule, List.map_cons, List.map_cons, place] at ruled
      simp only [List.cons.injEq, Row.mk.injEq, true_and, and_true] at ruled
      obtain ⟨here, later⟩ := ruled
      rw [allChanges, follows_insert]
      have after := ih (i + 1) (here ▸ later)
      by_cases gone : removed i
      · rw [if_pos gone]
        exact ⟨here.symm, after⟩
      · rw [if_neg gone]
        exact ⟨here.symm, after⟩

/-- While the carry is ahead of the rule's cursor by the hidden fill, the two give the same from
here on just when no hidden fill is greater than the new fill. -/
theorem runChanges_eq_iff {changes : List Change} {old shift cursor hidden : Int}
    (follows : Follows sectionAlign old changes)
    (ahead : old + shift = cursor + hidden) (some_ : 0 ≤ hidden) :
    runChanges sectionAlign ⟨old, shift⟩ changes = place sectionAlign cursor (resulting changes) ↔
      List.Forall₂ (· ≤ ·) (hiddenFill old hidden changes)
        (fills sectionAlign cursor (resulting changes)) := by
  induction changes generalizing old shift cursor hidden with
  | nil => simp [runChanges, resulting, place, hiddenFill, fills]
  | cons change more ih =>
      cases change with
      | insert input =>
          have positive : 0 < alignOf sectionAlign input := (sectionAlign input.path input.name).2
          rw [runChanges, resulting, place, hiddenFill, fills, List.forall₂_cons, ahead,
            ← alignUp_add_eq_iff positive some_, List.cons.injEq, Row.mk.injEq]
          simp only [true_and, and_true]
          apply and_congr_right
          intro addr
          rw [addr]
          apply ih follows _ (Int.le_refl 0)
          omega
      | remove entry =>
          obtain ⟨here, after⟩ := follows
          have positive : 0 < alignOf sectionAlign entry.input :=
            (sectionAlign entry.input.path entry.input.name).2
          have filled := @le_alignUp old _ positive
          rw [runChanges, resulting, hiddenFill]
          apply ih after _ (by omega)
          dsimp only
          omega
      | keep entry =>
          obtain ⟨here, after⟩ := follows
          have positive : 0 < alignOf sectionAlign entry.input :=
            (sectionAlign entry.input.path entry.input.name).2
          have filled := @le_alignUp old _ positive
          have carried : entry.addr + shift =
              cursor + (hidden + (entry.addr - old)) := by omega
          rw [runChanges, resulting, place, hiddenFill, fills, List.forall₂_cons, carried,
            ← alignUp_add_eq_iff positive (by omega), List.cons.injEq, Row.mk.injEq]
          simp only [true_and, and_true]
          apply and_congr_right
          intro addr
          rw [addr]
          apply ih after _ (Int.le_refl 0)
          omega

/-- The predictor gives the layout of the rule just when, in front of every input that is there
afterwards, the new fill is no smaller than the old fill that the shift hides. -/
theorem applyChanges_eq_iff {start : Int} {order : List Placed} {removed : Nat → Bool}
    {changes : List (Nat × List Input)} (ruled : ByRule sectionAlign start order) :
    applyChanges sectionAlign start order removed changes =
        place sectionAlign start (resulting (allChanges (byIndex changes) removed 0 order)) ↔
      List.Forall₂ (· ≤ ·) (hiddenFill start 0 (allChanges (byIndex changes) removed 0 order))
        (fills sectionAlign start (resulting (allChanges (byIndex changes) removed 0 order))) := by
  rw [applyChanges, replay_eq_runChanges]
  exact runChanges_eq_iff (follows_of_byRule (byIndex changes) removed 0 ruled) rfl (Int.le_refl 0)

end Run

section Sample

/-- Sections of the name `.b` are aligned to 4. -/
def sampleAlign : Alignments :=
  fun _ name => if name = ['.', 'b'] then ⟨4, by decide⟩ else ⟨1, by decide⟩

def sampleOrder : List Placed :=
  [⟨⟨['.', 'a'], [], 1⟩, 0⟩, ⟨⟨['.', 'b'], [], 4⟩, 4⟩, ⟨⟨['.', 'c'], [], 1⟩, 8⟩]

/-- Four bytes put in behind the aligned input move what is behind them by four. -/
theorem applyChanges_behind :
    applyChanges sampleAlign 0 sampleOrder (fun _ => false) [(2, [⟨['.', 'd'], [], 4⟩])] =
      place sampleAlign 0 (resulting (allChanges (byIndex [(2, [⟨['.', 'd'], [], 4⟩])])
        (fun _ => false) 0 sampleOrder)) := by
  apply (applyChanges_eq_iff (by decide +kernel)).mpr
  decide +kernel

/-- Without the aligned input, the predictor leaves its fill, and the rule does not. -/
theorem applyChanges_without :
    ByRule sampleAlign 0 sampleOrder ∧
      applyChanges sampleAlign 0 sampleOrder (fun i => i = 1) [] =
        [⟨⟨['.', 'a'], [], 1⟩, 0, false⟩, ⟨⟨['.', 'c'], [], 1⟩, 4, false⟩] ∧
      place sampleAlign 0 (resulting (allChanges (byIndex []) (fun i => i = 1) 0 sampleOrder)) =
        [⟨⟨['.', 'a'], [], 1⟩, 0, false⟩, ⟨⟨['.', 'c'], [], 1⟩, 1, false⟩] := by
  decide +kernel

end Sample

end Stage90.Linker

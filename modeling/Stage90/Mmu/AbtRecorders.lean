import Mathlib.Algebra.GroupWithZero.Nat
import Stage90.Lib.Returns

/-!
# The abort recorders

`entry_note_abt_pte`, `entry_note_abt_vmf` and `entry_note_abt_vme` of `entry_stubs.c`.  Each
counts its calls, publishes a row at the first four and at the powers of two, and a record of its
own where the value that it watches is not the one it saw last.
-/

set_option autoImplicit false

namespace Stage90.Mmu

open Stage90.Lib

/-- The statics that the three recorders have alike: `_n`, `_lastl2` and `_ptenx` of the first. -/
structure Recorder where
  n : UInt32
  last : UInt32
  changes : UInt32

def Recorder.zero : Recorder := ⟨0, 0, 0⟩

def onLadder (n : UInt32) : Bool := n ≤ 4 || n &&& (n - 1) == 0

/-- The part behind the row: the statics after the value, and the change that is published. -/
def Recorder.note (r : Recorder) (value : UInt32) : Recorder × Option UInt32 :=
  let n := r.n + 1
  let last := if n = 1 then value else r.last
  if value ≠ last then
    (⟨n, value, r.changes + 1⟩, some (r.changes + 1))
  else
    (⟨n, last, r.changes⟩, none)

/-- What a walk leaves in its results and in the statics. -/
structure Walked where
  l2 : UInt32
  l1 : UInt32
  u : UInt32
  oow : UInt32
  aliasVa : UInt32
  mapOk : UInt32
  slot : UInt32

inductive AbtCall
  /-- What the walk gives, with the alias allowed or not, and what else is read. -/
  | pte (va : UInt32) (walk : UInt32 → Walked) (ttbr gPhysBase memSize threadL1Base : UInt32)
  | vmf (ret va prot : UInt32)
  | vme (kr prot faultType vaddr : UInt32)

inductive AbtRecord
  | pteRow (pten pteva ptel2 ptel1 ptettbr pteu pteoow ptealias ptemapok pteslot ptewbase ptewlen
      ptethr : UInt32)
  | ptenx (count : UInt32)
  | vmfRow (vmfn vmfret vmfva vmfprot : UInt32)
  | vmfnret (count : UInt32)
  | vmeRow (vmen vmekr vmeprot vmefault vmeva : UInt32)
  | vmenx (count : UInt32)

structure Abt where
  pte : Recorder
  vmf : Recorder
  vme : Recorder
  latch : UInt32
  vmeLatch : UInt32

def Abt.zero : Abt := ⟨.zero, .zero, .zero, 0, 0⟩

def ladderRow (n : UInt32) (row : AbtRecord) : List AbtRecord := if onLadder n then [row] else []

def changeRecord (record : UInt32 → AbtRecord) (change : Option UInt32) : List AbtRecord :=
  change.elim [] fun count => [record count]

def entryNoteAbtPte (s : Abt) (va : UInt32) (walk : UInt32 → Walked)
    (ttbr gPhysBase memSize threadL1Base : UInt32) : List AbtRecord × Abt :=
  let n := s.pte.n + 1
  let w := walk (if onLadder n then 1 else 0)
  let noted := s.pte.note w.l2
  (ladderRow n (.pteRow n va w.l2 w.l1 ttbr w.u w.oow w.aliasVa w.mapOk w.slot gPhysBase memSize
      threadL1Base) ++ changeRecord .ptenx noted.2,
    { s with pte := noted.1, latch := 1, vmeLatch := 1 })

def entryNoteAbtVmf (s : Abt) (ret va prot : UInt32) : List AbtRecord × Abt :=
  if s.latch = 0 then ([], s)
  else
    let n := s.vmf.n + 1
    let noted := s.vmf.note ret
    (ladderRow n (.vmfRow n ret va prot) ++ changeRecord .vmfnret noted.2,
      { s with vmf := noted.1, latch := 0 })

def entryNoteAbtVme (s : Abt) (kr prot faultType vaddr : UInt32) : List AbtRecord × Abt :=
  if s.vmeLatch = 0 then ([], s)
  else
    let n := s.vme.n + 1
    let noted := s.vme.note prot
    (ladderRow n (.vmeRow n kr prot faultType vaddr) ++ changeRecord .vmenx noted.2,
      { s with vme := noted.1, vmeLatch := 0 })

def Abt.step (s : Abt) : AbtCall → List AbtRecord × Abt
  | .pte va walk ttbr gPhysBase memSize threadL1Base =>
      entryNoteAbtPte s va walk ttbr gPhysBase memSize threadL1Base
  | .vmf ret va prot => entryNoteAbtVmf s ret va prot
  | .vme kr prot faultType vaddr => entryNoteAbtVme s kr prot faultType vaddr

def Abt.run : Abt → List AbtCall → List AbtRecord
  | _, [] => []
  | s, call :: calls => (s.step call).1 ++ (s.step call).2.run calls

/-! ## What a recorder makes of its values -/

def Recorder.rows (r : Recorder) : List UInt32 → List UInt32
  | [] => []
  | value :: values =>
      (if onLadder (r.n + 1) then [r.n + 1] else []) ++ (r.note value).1.rows values

def Recorder.published (r : Recorder) : List UInt32 → Nat
  | [] => 0
  | value :: values => (if (r.note value).2.isSome then 1 else 0) + (r.note value).1.published values

def Ladder (n : UInt32) : Prop := (1 ≤ n ∧ n ≤ 4) ∨ n.toNat.isPowerOfTwo

/-- The log is not flooded: rows on the ladder alone, and no more changes than values. -/
def Bounded (rows : List UInt32) (published : Nat) (values : List UInt32) : Prop :=
  (∀ n ∈ rows, Ladder n) ∧ published ≤ distinct values

/-- Fewer than 2^32 values, and at most one of them a value gone back to. -/
def Calm (values : List UInt32) : Prop := values.length < 2 ^ 32 ∧ returns values ≤ 1

section Recorder
variable {r : Recorder} {values : List UInt32}

@[simp] theorem note_n (value : UInt32) : (r.note value).1.n = r.n + 1 := by
  rw [Recorder.note]
  generalize (if r.n + 1 = 1 then value else r.last) = last
  by_cases same : value = last <;> simp [same]

theorem note_last (value : UInt32) : (r.note value).1.last = value := by
  rw [Recorder.note]
  generalize (if r.n + 1 = 1 then value else r.last) = last
  by_cases same : value = last <;> simp [same]

theorem note_change (value : UInt32) :
    (r.note value).2.isSome = (decide (r.n + 1 ≠ 1) && decide (value ≠ r.last)) := by
  rw [Recorder.note]
  by_cases first : r.n + 1 = 1
  · simp [first]
  · by_cases same : value = r.last <;> simp [first, same]

theorem toNat_succ {n : UInt32} (room : n.toNat + 1 < 2 ^ 32) : (n + 1).toNat = n.toNat + 1 := by
  rw [UInt32.toNat_add]
  exact Nat.mod_eq_of_lt room

theorem ladder_of_onLadder {n : UInt32} (positive : n ≠ 0) (on : onLadder n) : Ladder n := by
  have above : 1 ≤ n := UInt32.le_iff_toNat_le.mpr
    (Nat.one_le_iff_ne_zero.mpr fun zero => positive (UInt32.toNat_inj.mp zero))
  rw [onLadder, Bool.or_eq_true, decide_eq_true_eq, beq_iff_eq] at on
  rcases on with small | mask
  · exact Or.inl ⟨above, small⟩
  · apply Or.inr
    have masked := congrArg UInt32.toNat mask
    rw [UInt32.toNat_and, UInt32.toNat_sub_of_le _ _ above] at masked
    exact (Nat.and_sub_one_eq_zero_iff_isPowerOfTwo
      fun zero => positive (UInt32.toNat_inj.mp zero)).mp masked

theorem not_ladder_zero : ¬ Ladder 0 := by
  intro on
  rcases on with small | power
  · exact absurd small.1 (by decide)
  · exact Nat.not_isPowerOfTwo_zero power

/-- Until the counter comes round, every row is on the ladder. -/
theorem rows_ladder (room : r.n.toNat + values.length < 2 ^ 32) : ∀ n ∈ r.rows values, Ladder n := by
  induction values generalizing r with
  | nil => exact fun n member => absurd member List.not_mem_nil
  | cons value values ih =>
      rw [List.length_cons] at room
      have next := @toNat_succ r.n (by omega)
      intro n member
      rcases List.mem_append.mp member with here | later
      · split at here
        · rename_i on
          rw [List.mem_singleton.mp here]
          apply ladder_of_onLadder _ on
          intro zero
          rw [zero] at next
          exact absurd next (by simp)
        · exact absurd here List.not_mem_nil
      · exact @ih (r.note value).1 (by rw [note_n, next]; omega) n later

/-- When it comes round, there is a row at 0. -/
theorem zero_mem_rows (round : 2 ^ 32 ≤ r.n.toNat + values.length) : 0 ∈ r.rows values := by
  induction values generalizing r with
  | nil => exact absurd round (Nat.not_le.mpr r.n.toNat_lt)
  | cons value values ih =>
      rw [List.length_cons] at round
      rw [Recorder.rows]
      by_cases last : r.n.toNat + 1 = 2 ^ 32
      · have zero : r.n + 1 = 0 := by
          apply UInt32.toNat_inj.mp
          rw [UInt32.toNat_add]
          simp [last]
        rw [zero]
        exact List.mem_append_left _ List.mem_cons_self
      · have below := r.n.toNat_lt
        have next := @toNat_succ r.n (by omega)
        exact List.mem_append_right _ (@ih (r.note value).1 (by rw [note_n, next]; omega))

/-- Behind the first value, every change is published until the counter comes round. -/
theorem published_eq (started : r.n ≠ 0) (room : r.n.toNat + values.length < 2 ^ 32) :
    r.published values = changesFrom r.last values := by
  induction values generalizing r with
  | nil => rfl
  | cons value values ih =>
      rw [List.length_cons] at room
      have next := @toNat_succ r.n (by omega)
      have again : r.n + 1 ≠ 1 := by
        intro one
        rw [one] at next
        exact started (UInt32.toNat_inj.mp (Nat.succ.inj next).symm)
      have rest := @ih (r.note value).1
        (by rw [note_n]; intro zero; rw [zero] at next; exact absurd next (by simp))
        (by rw [note_n, next]; omega)
      rw [Recorder.published, rest, note_last, note_change, changesFrom]
      by_cases same : value = r.last <;> simp [again, same]

theorem published_zero (room : values.length < 2 ^ 32) :
    Recorder.zero.published values = changes values := by
  cases values with
  | nil => rfl
  | cons value values =>
      rw [List.length_cons] at room
      have rest := @published_eq (Recorder.zero.note value).1 values (by rw [note_n]; decide)
        (by rw [note_n, Nat.add_comm]; exact room)
      rw [Recorder.published, rest, note_last, note_change, changes]
      simp [Recorder.zero]

/-- A recorder's part of the log is bounded just when its values are calm. -/
theorem bounded_iff_calm :
    Bounded (Recorder.zero.rows values) (Recorder.zero.published values) values ↔ Calm values := by
  by_cases room : values.length < 2 ^ 32
  · have rows := @rows_ladder .zero values (by rw [Recorder.zero]; simpa using room)
    rw [Bounded, Calm, published_zero room, changes_le_distinct_iff]
    exact ⟨fun bounded => ⟨room, bounded.2⟩, fun calm => ⟨rows, calm.2⟩⟩
  · constructor
    · intro bounded
      have zero := @zero_mem_rows .zero values (by rw [Recorder.zero]; simpa using room)
      exact absurd (bounded.1 0 zero) not_ladder_zero
    · exact fun calm => absurd calm.1 room

end Recorder

/-! ## The log of a run -/

/-- Where one recorder is found: its statics, the value that a call gives it, and its records. -/
structure Watch where
  recorder : Abt → Recorder
  observed : Abt → AbtCall → Option UInt32
  ordinal : AbtRecord → Option UInt32
  isChange : AbtRecord → Bool

/-- (A): the descriptor of each walk. -/
def pteWatch : Watch where
  recorder := Abt.pte
  observed s
    | .pte _ walk _ _ _ _ => some (walk (if onLadder (s.pte.n + 1) then 1 else 0)).l2
    | _ => none
  ordinal
    | .pteRow n _ _ _ _ _ _ _ _ _ _ _ _ => some n
    | _ => none
  isChange
    | .ptenx _ => true
    | _ => false

/-- (B): the code of each return that the latch lets through. -/
def vmfWatch : Watch where
  recorder := Abt.vmf
  observed s
    | .vmf ret _ _ => if s.latch = 0 then none else some ret
    | _ => none
  ordinal
    | .vmfRow n _ _ _ => some n
    | _ => none
  isChange
    | .vmfnret _ => true
    | _ => false

/-- (E'): the protection of each lookup that the latch lets through. -/
def vmeWatch : Watch where
  recorder := Abt.vme
  observed s
    | .vme _ prot _ _ => if s.vmeLatch = 0 then none else some prot
    | _ => none
  ordinal
    | .vmeRow n _ _ _ _ => some n
    | _ => none
  isChange
    | .vmenx _ => true
    | _ => false

namespace Watch
variable (w : Watch)

def values : Abt → List AbtCall → List UInt32
  | _, [] => []
  | s, call :: calls => (w.observed s call).toList ++ values (s.step call).2 calls

def rows (log : List AbtRecord) : List UInt32 := log.filterMap w.ordinal

def published (log : List AbtRecord) : Nat := log.countP w.isChange

/-- The recorder does not flood the log in the run of these calls. -/
def Quiet (calls : List AbtCall) : Prop :=
  Bounded (w.rows (Abt.zero.run calls)) (w.published (Abt.zero.run calls)) (w.values .zero calls)

structure Steps : Prop where
  idle : ∀ s call, w.observed s call = none →
    w.recorder (s.step call).2 = w.recorder s ∧ w.rows (s.step call).1 = [] ∧
      w.published (s.step call).1 = 0
  notes : ∀ s call value, w.observed s call = some value →
    w.recorder (s.step call).2 = ((w.recorder s).note value).1 ∧
      w.rows (s.step call).1 =
        (if onLadder ((w.recorder s).n + 1) then [(w.recorder s).n + 1] else []) ∧
      w.published (s.step call).1 = if ((w.recorder s).note value).2.isSome then 1 else 0

variable {w}

theorem rows_append (log more : List AbtRecord) : w.rows (log ++ more) = w.rows log ++ w.rows more :=
  List.filterMap_append

theorem published_append (log more : List AbtRecord) :
    w.published (log ++ more) = w.published log + w.published more :=
  List.countP_append

theorem run_eq (steps : w.Steps) (s : Abt) (calls : List AbtCall) :
    w.rows (s.run calls) = (w.recorder s).rows (w.values s calls) ∧
      w.published (s.run calls) = (w.recorder s).published (w.values s calls) := by
  induction calls generalizing s with
  | nil => exact ⟨rfl, rfl⟩
  | cons call calls ih =>
      obtain ⟨rows, published⟩ := ih (s.step call).2
      rw [Abt.run, rows_append, published_append, rows, published, values]
      cases seen : w.observed s call with
      | none =>
          obtain ⟨same, noRow, noChange⟩ := steps.idle s call seen
          rw [same, noRow, noChange, Nat.zero_add]
          exact ⟨rfl, rfl⟩
      | some value =>
          obtain ⟨noted, row, change⟩ := steps.notes s call value seen
          rw [noted, row, change]
          exact ⟨rfl, rfl⟩

theorem quiet_iff (steps : w.Steps) (zero : w.recorder .zero = .zero) (calls : List AbtCall) :
    w.Quiet calls ↔ Calm (w.values .zero calls) := by
  obtain ⟨rows, published⟩ := run_eq steps .zero calls
  rw [Quiet, rows, published, zero]
  exact bounded_iff_calm

end Watch

section Calls
variable {w : Watch} {n : UInt32} {row : AbtRecord} {record : UInt32 → AbtRecord}
  {change : Option UInt32}

theorem Watch.rows_own (own : w.ordinal row = some n) (other : ∀ c, w.ordinal (record c) = none) :
    w.rows (ladderRow n row ++ changeRecord record change) = if onLadder n then [n] else [] := by
  rw [Watch.rows, ladderRow, changeRecord]
  cases change <;> by_cases on : onLadder n <;> simp [on, own, other]

theorem Watch.rows_other (other : w.ordinal row = none) (none_ : ∀ c, w.ordinal (record c) = none) :
    w.rows (ladderRow n row ++ changeRecord record change) = [] := by
  rw [Watch.rows, ladderRow, changeRecord]
  cases change <;> by_cases on : onLadder n <;> simp [on, other, none_]

theorem Watch.published_own (other : w.isChange row = false) (own : ∀ c, w.isChange (record c)) :
    w.published (ladderRow n row ++ changeRecord record change) = if change.isSome then 1 else 0 := by
  rw [Watch.published, ladderRow, changeRecord]
  cases change <;> by_cases on : onLadder n <;> simp [on, own, other]

theorem Watch.published_other (other : w.isChange row = false)
    (none_ : ∀ c, w.isChange (record c) = false) :
    w.published (ladderRow n row ++ changeRecord record change) = 0 := by
  rw [Watch.published, ladderRow, changeRecord]
  cases change <;> by_cases on : onLadder n <;> simp [on, other, none_]

end Calls

/-- A call that returns at its latch, or is another recorder's, leaves this one alone. -/
theorem pteWatch_steps : pteWatch.Steps where
  idle s call unseen := by
    cases call with
    | pte => exact absurd unseen (by simp [pteWatch])
    | vmf ret va prot =>
        rw [Abt.step, entryNoteAbtVmf]
        by_cases latch : s.latch = 0
        · rw [if_pos latch]
          exact ⟨rfl, rfl, rfl⟩
        · rw [if_neg latch]
          exact ⟨rfl, Watch.rows_other rfl fun _ => rfl, Watch.published_other rfl fun _ => rfl⟩
    | vme kr prot faultType vaddr =>
        rw [Abt.step, entryNoteAbtVme]
        by_cases latch : s.vmeLatch = 0
        · rw [if_pos latch]
          exact ⟨rfl, rfl, rfl⟩
        · rw [if_neg latch]
          exact ⟨rfl, Watch.rows_other rfl fun _ => rfl, Watch.published_other rfl fun _ => rfl⟩
  notes s call value seen := by
    cases call with
    | pte va walk ttbr gPhysBase memSize threadL1Base =>
        rw [← Option.some.inj seen]
        exact ⟨rfl, Watch.rows_own rfl fun _ => rfl, Watch.published_own rfl fun _ => rfl⟩
    | vmf => exact absurd seen (by simp [pteWatch])
    | vme => exact absurd seen (by simp [pteWatch])

theorem vmfWatch_steps : vmfWatch.Steps where
  idle s call unseen := by
    cases call with
    | pte => exact ⟨rfl, Watch.rows_other rfl fun _ => rfl, Watch.published_other rfl fun _ => rfl⟩
    | vmf ret va prot =>
        rw [Abt.step, entryNoteAbtVmf]
        by_cases latch : s.latch = 0
        · rw [if_pos latch]
          exact ⟨rfl, rfl, rfl⟩
        · exact absurd unseen (by simp [vmfWatch, latch])
    | vme kr prot faultType vaddr =>
        rw [Abt.step, entryNoteAbtVme]
        by_cases latch : s.vmeLatch = 0
        · rw [if_pos latch]
          exact ⟨rfl, rfl, rfl⟩
        · rw [if_neg latch]
          exact ⟨rfl, Watch.rows_other rfl fun _ => rfl, Watch.published_other rfl fun _ => rfl⟩
  notes s call value seen := by
    cases call with
    | pte => exact absurd seen (by simp [vmfWatch])
    | vmf ret va prot =>
        by_cases latch : s.latch = 0
        · exact absurd seen (by simp [vmfWatch, latch])
        · simp only [vmfWatch, if_neg latch, Option.some.injEq] at seen
          rw [Abt.step, entryNoteAbtVmf, if_neg latch, ← seen]
          exact ⟨rfl, Watch.rows_own rfl fun _ => rfl, Watch.published_own rfl fun _ => rfl⟩
    | vme => exact absurd seen (by simp [vmfWatch])

theorem vmeWatch_steps : vmeWatch.Steps where
  idle s call unseen := by
    cases call with
    | pte => exact ⟨rfl, Watch.rows_other rfl fun _ => rfl, Watch.published_other rfl fun _ => rfl⟩
    | vmf ret va prot =>
        rw [Abt.step, entryNoteAbtVmf]
        by_cases latch : s.latch = 0
        · rw [if_pos latch]
          exact ⟨rfl, rfl, rfl⟩
        · rw [if_neg latch]
          exact ⟨rfl, Watch.rows_other rfl fun _ => rfl, Watch.published_other rfl fun _ => rfl⟩
    | vme kr prot faultType vaddr =>
        rw [Abt.step, entryNoteAbtVme]
        by_cases latch : s.vmeLatch = 0
        · rw [if_pos latch]
          exact ⟨rfl, rfl, rfl⟩
        · exact absurd unseen (by simp [vmeWatch, latch])
  notes s call value seen := by
    cases call with
    | pte => exact absurd seen (by simp [vmeWatch])
    | vmf => exact absurd seen (by simp [vmeWatch])
    | vme kr prot faultType vaddr =>
        by_cases latch : s.vmeLatch = 0
        · exact absurd seen (by simp [vmeWatch, latch])
        · simp only [vmeWatch, if_neg latch, Option.some.injEq] at seen
          rw [Abt.step, entryNoteAbtVme, if_neg latch, ← seen]
          exact ⟨rfl, Watch.rows_own rfl fun _ => rfl, Watch.published_own rfl fun _ => rfl⟩

/-- In every run of the three, each keeps its rows to the ladder and its changes to the number of
its values just when it sees fewer than 2^32 values and goes back at most once to one it had
left. -/
theorem recorders_quiet_iff (calls : List AbtCall) :
    (pteWatch.Quiet calls ↔ Calm (pteWatch.values .zero calls)) ∧
      (vmfWatch.Quiet calls ↔ Calm (vmfWatch.values .zero calls)) ∧
      (vmeWatch.Quiet calls ↔ Calm (vmeWatch.values .zero calls)) :=
  ⟨Watch.quiet_iff pteWatch_steps rfl calls, Watch.quiet_iff vmfWatch_steps rfl calls,
    Watch.quiet_iff vmeWatch_steps rfl calls⟩

/-- A descriptor that alternates between two values makes three changes in four aborts. -/
theorem alternating_floods :
    let abort (l2 : UInt32) : AbtCall :=
      .pte 0x1000 (fun _ => ⟨l2, 0x80000001, 1, 0, 0, 0, 0⟩) 0x80004000 0x80000000 0x7ff00000 0
    let calls := [abort 0x8000045e, abort 0x8000065e, abort 0x8000045e, abort 0x8000065e]
    pteWatch.published (Abt.zero.run calls) = 3 ∧ distinct (pteWatch.values .zero calls) = 2 ∧
      ¬ pteWatch.Quiet calls := by
  intro abort calls
  have three : pteWatch.published (Abt.zero.run calls) = 3 := by decide +kernel
  have two : distinct (pteWatch.values .zero calls) = 2 := by decide +kernel
  refine ⟨three, two, fun bounded => ?_⟩
  have most := bounded.2
  rw [three, two] at most
  exact absurd most (by decide)

end Stage90.Mmu

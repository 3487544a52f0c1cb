import Mathlib.Data.List.Basic
import Mathlib.Data.List.Nodup
import Mathlib.Data.UInt

/-!
# The census of the decrementer

`stage90_tbd_set_decrementer` of `entry_timebase.c`.  Call 1 carries the saturated deadline and stays
out of the census, call 2 sets the reference, and every later one is a repeat of it or one more of
something else, of which the first eight distinct values have a row.
-/

set_option autoImplicit false

namespace Stage90.Time

/-! ## The code -/

/-- A row of `g_dec_shown_value`, `g_dec_shown_call` and `g_dec_shown_count`. -/
structure Shown where
  value : UInt32
  call : UInt32
  count : UInt32
  deriving DecidableEq

/-- `STAGE90_DEC_SHOWN`. -/
def decShown : Nat := 8

def cntvArmMask : UInt32 := 3
def cntvCtlEnable : UInt32 := 1

structure Decrementer where
  writes : UInt32
  firstValue : UInt32
  minValue : UInt32
  refValue : UInt32
  refValid : UInt32
  same : UInt32
  other : UInt32
  /-- The rows below `g_dec_distinct`. -/
  shown : List Shown
  otherMore : UInt32
  irqUnmasked : UInt32
  cntvTval : UInt32
  cntvCtl : UInt32

/-- A call of the setter, and what `entry_irq_arm` answers if it is asked. -/
structure Arm where
  value : UInt32
  unmasks : UInt32

def bootDecrementer (tval ctl : UInt32) : Decrementer where
  writes := 0
  firstValue := 0xffffffff
  minValue := 0xffffffff
  refValue := 0
  refValid := 0
  same := 0
  other := 0
  shown := []
  otherMore := 0
  irqUnmasked := 0
  cntvTval := tval
  cntvCtl := ctl

/-- The search loop, and the count of the row that it stops at. -/
def recount (value : UInt32) : List Shown → Option (List Shown)
  | [] => none
  | s :: rest =>
      if s.value = value then some ({ s with count := s.count + 1 } :: rest)
      else (recount value rest).map (s :: ·)

def countOther (d : Decrementer) (value : UInt32) : Decrementer :=
  let d := { d with other := d.other + 1 }
  match recount value d.shown with
  | some shown => { d with shown := shown }
  | none =>
      if d.shown.length < decShown then { d with shown := d.shown ++ [⟨value, d.writes, 1⟩] }
      else { d with otherMore := d.otherMore + 1 }

def takeCensus (d : Decrementer) (value : UInt32) : Decrementer :=
  if d.writes ≥ 2 then
    if d.refValid = 0 then { d with refValid := 1, refValue := value }
    else if value = d.refValue then { d with same := d.same + 1 }
    else countOther d value
  else d

/-- Down to the minimum: the timer's registers, the call's number and the unmasking. -/
def armTimer (d : Decrementer) (c : Arm) : Decrementer :=
  let ctl := if d.writes = 0 then cntvArmMask else d.cntvCtl
  let writes := d.writes + 1
  let unmasked := if d.irqUnmasked = 0 then c.unmasks else d.irqUnmasked
  { d with
    writes := writes
    firstValue := if writes = 1 then c.value else d.firstValue
    irqUnmasked := unmasked
    cntvTval := c.value
    cntvCtl := if unmasked ≠ 0 then cntvCtlEnable else ctl }

def setDecrementer (d : Decrementer) (c : Arm) : Decrementer :=
  let d := armTimer d c
  let d := if c.value < d.minValue then { d with minValue := c.value } else d
  takeCensus d c.value

def decrementerRun (tval ctl : UInt32) (calls : List Arm) : Decrementer :=
  calls.foldl setDecrementer (bootDecrementer tval ctl)

/-! ## The rows -/

/-- The row of `value` counts once more. -/
def Shown.bump (value : UInt32) (s : Shown) : Shown :=
  if s.value = value then { s with count := s.count + 1 } else s

@[simp] theorem bump_value (value : UInt32) (s : Shown) : (s.bump value).value = s.value := by
  unfold Shown.bump
  split <;> rfl

@[simp] theorem bump_call (value : UInt32) (s : Shown) : (s.bump value).call = s.call := by
  unfold Shown.bump
  split <;> rfl

theorem bump_of_ne {value : UInt32} {s : Shown} (other : s.value ≠ value) : s.bump value = s := if_neg other

def valuesOf (shown : List Shown) : List UInt32 := shown.map Shown.value

@[simp] theorem valuesOf_bump (value : UInt32) (shown : List Shown) :
    valuesOf (shown.map (Shown.bump value)) = valuesOf shown := by
  rw [valuesOf, List.map_map, valuesOf]
  exact List.map_congr_left fun s _ => bump_value value s

theorem map_bump {value : UInt32} {shown : List Shown} (absent : value ∉ valuesOf shown) :
    shown.map (Shown.bump value) = shown := by
  have same : shown.map (Shown.bump value) = shown.map id := by
    apply List.map_congr_left
    intro s member
    apply bump_of_ne
    intro here
    exact absent (here ▸ List.mem_map_of_mem member)
  rw [same, List.map_id]

theorem recount_eq {value : UInt32} {shown : List Shown} (distinct : (valuesOf shown).Nodup) :
    recount value shown =
      if value ∈ valuesOf shown then some (shown.map (Shown.bump value)) else none := by
  induction shown with
  | nil => rfl
  | cons s rest ih =>
      obtain ⟨fresh, apart⟩ := List.nodup_cons.mp distinct
      rw [recount]
      by_cases here : s.value = value
      · have member : value ∈ valuesOf (s :: rest) := here ▸ List.mem_cons_self
        have tail : rest.map (Shown.bump value) = rest := map_bump (here ▸ fresh)
        rw [if_pos here, if_pos member, List.map_cons, tail, Shown.bump, if_pos here]
      · have inTail : value ∈ valuesOf (s :: rest) ↔ value ∈ valuesOf rest := by
          rw [valuesOf, List.map_cons, List.mem_cons]
          exact or_iff_right fun same => here same.symm
        rw [if_neg here, ih apart]
        by_cases there : value ∈ valuesOf rest
        · rw [if_pos there, if_pos (inTail.mpr there), Option.map_some, List.map_cons, bump_of_ne here]
        · rw [if_neg there, if_neg fun member => there (inTail.mp member), Option.map_none]

def countsOf (shown : List Shown) : Nat := (shown.map fun s => s.count.toNat).sum

theorem countsOf_bump {value : UInt32} {shown : List Shown} (distinct : (valuesOf shown).Nodup)
    (member : value ∈ valuesOf shown) (small : ∀ s ∈ shown, s.count.toNat + 1 < 2 ^ 32) :
    countsOf (shown.map (Shown.bump value)) = countsOf shown + 1 := by
  induction shown with
  | nil => exact absurd member List.not_mem_nil
  | cons s rest ih =>
      obtain ⟨fresh, apart⟩ := List.nodup_cons.mp distinct
      have smallRest : ∀ t ∈ rest, t.count.toNat + 1 < 2 ^ 32 := fun t there =>
        small t (List.mem_cons_of_mem s there)
      have split (t : Shown) (ts : List Shown) : countsOf (t :: ts) = t.count.toNat + countsOf ts := rfl
      rw [List.map_cons, split, split]
      by_cases here : s.value = value
      · have tail : rest.map (Shown.bump value) = rest := map_bump (here ▸ fresh)
        have one : (s.bump value).count.toNat = s.count.toNat + 1 := by
          rw [Shown.bump, if_pos here, UInt32.toNat_add, UInt32.toNat_one]
          exact Nat.mod_eq_of_lt (small s List.mem_cons_self)
        rw [tail, one]
        omega
      · have there : value ∈ valuesOf rest :=
          (List.mem_cons.mp member).resolve_left fun same => here same.symm
        rw [bump_of_ne here, ih apart there smallRest]
        omega

/-- The rows of the values behind call 1, whose numbers start at 2. -/
structure Rows (later : List UInt32) (reference : UInt32) (shown : List Shown) : Prop where
  distinct : (valuesOf shown).Nodup
  apart : ∀ s ∈ shown, s.value ≠ reference
  room : shown.length ≤ decShown
  first : ∀ s ∈ shown, s.value ∈ later ∧ s.call.toNat = later.idxOf s.value + 2
  times : ∀ s ∈ shown, s.count.toNat = later.count s.value
  complete : shown.length < decShown → ∀ v ∈ later, v = reference ∨ v ∈ valuesOf shown

section Rows
variable {later : List UInt32} {reference value : UInt32} {shown : List Shown}

/-- A call whose value is the reference, or has no row while there is room for none. -/
theorem Rows.pass (rows : Rows later reference shown) (absent : value ∉ valuesOf shown)
    (settled : value = reference ∨ decShown ≤ shown.length) :
    Rows (later ++ [value]) reference shown := by
  have other {s : Shown} (member : s ∈ shown) : s.value ≠ value := fun same =>
    absent (same ▸ List.mem_map_of_mem member)
  refine ⟨rows.distinct, rows.apart, rows.room, ?_, ?_, ?_⟩
  · intro s member
    obtain ⟨seen, call⟩ := rows.first s member
    exact ⟨List.mem_append_left _ seen, by rw [List.idxOf_append_of_mem seen, call]⟩
  · intro s member
    rw [rows.times s member, List.count_append, List.count_singleton]
    simp [(other member).symm]
  · intro below v member
    rcases List.mem_append.mp member with old | new
    · exact rows.complete below v old
    · rw [List.mem_singleton.mp new]
      exact .inl (settled.resolve_right (Nat.not_le.mpr below))

theorem Rows.again (rows : Rows later reference shown) (there : value ∈ valuesOf shown)
    (short : later.length + 1 < 2 ^ 32) :
    Rows (later ++ [value]) reference (shown.map (Shown.bump value)) := by
  refine ⟨?_, ?_, ?_, ?_, ?_, ?_⟩
  · rw [valuesOf_bump]
    exact rows.distinct
  · intro t member
    obtain ⟨s, old, rfl⟩ := List.mem_map.mp member
    rw [bump_value]
    exact rows.apart s old
  · rw [List.length_map]
    exact rows.room
  · intro t member
    obtain ⟨s, old, rfl⟩ := List.mem_map.mp member
    obtain ⟨seen, call⟩ := rows.first s old
    rw [bump_value, bump_call]
    exact ⟨List.mem_append_left _ seen, by rw [List.idxOf_append_of_mem seen, call]⟩
  · intro t member
    obtain ⟨s, old, rfl⟩ := List.mem_map.mp member
    have times := rows.times s old
    have most : later.count s.value ≤ later.length := List.count_le_length
    rw [bump_value, List.count_append, List.count_singleton, Shown.bump]
    by_cases here : s.value = value
    · rw [if_pos here, UInt32.toNat_add, UInt32.toNat_one, times, here]
      rw [here] at most
      simp only [beq_self_eq_true, if_true]
      exact Nat.mod_eq_of_lt (by omega)
    · rw [if_neg here, times]
      simp [Ne.symm here]
  · intro below v member
    rw [List.length_map] at below
    rw [valuesOf_bump]
    rcases List.mem_append.mp member with old | new
    · exact rows.complete below v old
    · rw [List.mem_singleton.mp new]
      exact .inr there

theorem Rows.enter (rows : Rows later reference shown) (other : value ≠ reference)
    (absent : value ∉ valuesOf shown) (below : shown.length < decShown) {call : UInt32}
    (number : call.toNat = later.length + 2) :
    Rows (later ++ [value]) reference (shown ++ [⟨value, call, 1⟩]) := by
  -- with a row to spare, a value without a row is a value that was never armed
  have unseen : value ∉ later := by
    intro seen
    rcases rows.complete below value seen with same | row
    · exact other same
    · exact absent row
  have values : valuesOf (shown ++ [⟨value, call, 1⟩]) = valuesOf shown ++ [value] := List.map_append
  refine ⟨?_, ?_, ?_, ?_, ?_, ?_⟩
  · rw [values, List.nodup_append]
    refine ⟨rows.distinct, List.nodup_singleton value, ?_⟩
    intro v old w new same
    rw [List.mem_singleton.mp new] at same
    exact absent (same ▸ old)
  · intro s member
    rcases List.mem_append.mp member with old | new
    · exact rows.apart s old
    · rw [List.mem_singleton.mp new]
      exact other
  · rw [List.length_append]
    exact below
  · intro s member
    rcases List.mem_append.mp member with old | new
    · obtain ⟨seen, first⟩ := rows.first s old
      exact ⟨List.mem_append_left _ seen, by rw [List.idxOf_append_of_mem seen, first]⟩
    · rw [List.mem_singleton.mp new]
      refine ⟨List.mem_append_right _ (List.mem_singleton_self value), ?_⟩
      rw [List.idxOf_append_of_notMem unseen, List.idxOf_cons_self, number]
  · intro s member
    rcases List.mem_append.mp member with old | new
    · have apart : s.value ≠ value := fun same => absent (same ▸ List.mem_map_of_mem old)
      rw [rows.times s old, List.count_append, List.count_singleton]
      simp [apart.symm]
    · rw [List.mem_singleton.mp new, List.count_append, List.count_eq_zero_of_not_mem unseen]
      simp
  · intro _ v member
    rw [values]
    rcases List.mem_append.mp member with old | new
    · rcases rows.complete below v old with same | row
      · exact .inl same
      · exact .inr (List.mem_append_left _ row)
    · exact .inr (List.mem_append_right _ new)

end Rows

/-! ## The census -/

/-- The census of the values behind call 1. -/
structure Census (later : List UInt32) (d : Decrementer) : Prop where
  idle : later = [] → d.refValid = 0 ∧ d.same = 0 ∧ d.other = 0
  reference : later ≠ [] → d.refValid = 1 ∧ later.head? = some d.refValue
  total : later ≠ [] → later.length = 1 + d.same.toNat + d.other.toNat
  others : countsOf d.shown + d.otherMore.toNat = d.other.toNat
  rows : Rows later d.refValue d.shown

theorem rows_nil (reference : UInt32) : Rows [] reference [] := by
  refine ⟨List.nodup_nil, ?_, Nat.zero_le _, ?_, ?_, ?_⟩
  · exact fun s member => absurd member List.not_mem_nil
  · exact fun s member => absurd member List.not_mem_nil
  · exact fun s member => absurd member List.not_mem_nil
  · exact fun _ v member => absurd member List.not_mem_nil

theorem census_boot (tval ctl : UInt32) : Census [] (bootDecrementer tval ctl) :=
  ⟨fun _ => ⟨rfl, rfl, rfl⟩, fun some_ => absurd rfl some_, fun some_ => absurd rfl some_, rfl,
    rows_nil 0⟩

theorem Census.congr {later : List UInt32} {d d' : Decrementer} (census : Census later d)
    (refValid : d'.refValid = d.refValid) (refValue : d'.refValue = d.refValue) (same : d'.same = d.same)
    (other : d'.other = d.other) (shown : d'.shown = d.shown) (more : d'.otherMore = d.otherMore) :
    Census later d' := by
  obtain ⟨idle, reference, total, others, rows⟩ := census
  constructor
  · rwa [refValid, same, other]
  · rwa [refValid, refValue]
  · rwa [same, other]
  · rwa [shown, more, other]
  · rwa [refValue, shown]

theorem toNat_succ {x : UInt32} (small : x.toNat + 1 < 2 ^ 32) : (x + 1).toNat = x.toNat + 1 := by
  rw [UInt32.toNat_add, UInt32.toNat_one]
  exact Nat.mod_eq_of_lt small

section Step
variable {later : List UInt32} {d : Decrementer} {value : UInt32}

/-- A value that is not the reference: in its row, in a new row, or in the count of the rest. -/
theorem countOther_census (census : Census later d) (some_ : later ≠ [])
    (number : d.writes.toNat = later.length + 2) (short : later.length + 2 < 2 ^ 32)
    (apart : value ≠ d.refValue) : Census (later ++ [value]) (countOther d value) := by
  obtain ⟨valid, head⟩ := census.reference some_
  have total := census.total some_
  have others := census.others
  have other : (d.other + 1).toNat = d.other.toNat + 1 := toNat_succ (by omega)
  have first : (later ++ [value]).head? = later.head? := List.head?_append_of_ne_nil later some_
  have length : (later ++ [value]).length = later.length + 1 := List.length_append
  have still : later ++ [value] ≠ [] := List.concat_ne_nil value later
  rw [countOther]
  simp only [recount_eq census.rows.distinct]
  by_cases row : value ∈ valuesOf d.shown
  · rw [if_pos row]
    have small : ∀ s ∈ d.shown, s.count.toNat + 1 < 2 ^ 32 := by
      intro s member
      have most : later.count s.value ≤ later.length := List.count_le_length
      rw [census.rows.times s member]
      omega
    refine ⟨fun none_ => absurd none_ still, fun _ => ⟨valid, first.trans head⟩, ?_, ?_, ?_⟩
    · intro _
      dsimp only
      omega
    · dsimp only
      rw [countsOf_bump census.rows.distinct row small]
      omega
    · exact census.rows.again row (by omega)
  · rw [if_neg row]
    dsimp only
    by_cases below : d.shown.length < decShown
    · rw [if_pos below]
      have counts : countsOf (d.shown ++ [⟨value, d.writes, 1⟩]) = countsOf d.shown + 1 := by
        rw [countsOf, List.map_append, List.sum_append]
        rfl
      refine ⟨fun none_ => absurd none_ still, fun _ => ⟨valid, first.trans head⟩, ?_, ?_, ?_⟩
      · intro _
        dsimp only
        omega
      · dsimp only
        omega
      · exact census.rows.enter apart row below number
    · rw [if_neg below]
      have more : (d.otherMore + 1).toNat = d.otherMore.toNat + 1 := toNat_succ (by omega)
      refine ⟨fun none_ => absurd none_ still, fun _ => ⟨valid, first.trans head⟩, ?_, ?_, ?_⟩
      · intro _
        dsimp only
        omega
      · dsimp only
        omega
      · exact census.rows.pass row (.inr (Nat.not_lt.mp below))

theorem takeCensus_census (census : Census later d) (number : d.writes.toNat = later.length + 2)
    (short : later.length + 2 < 2 ^ 32) : Census (later ++ [value]) (takeCensus d value) := by
  have counted : d.writes ≥ 2 := by
    rw [ge_iff_le, UInt32.le_iff_toNat_le, number]
    exact Nat.le_add_left 2 _
  rw [takeCensus, if_pos counted]
  by_cases none_ : later = []
  · obtain ⟨invalid, same, other⟩ := census.idle none_
    subst none_
    have empty : d.shown = [] := by
      apply List.eq_nil_iff_forall_not_mem.mpr
      intro s member
      exact absurd (census.rows.first s member).1 List.not_mem_nil
    have rows := @Rows.pass [] value value [] (rows_nil value) List.not_mem_nil (.inl rfl)
    rw [if_pos invalid]
    refine ⟨fun none_ => absurd none_ (List.cons_ne_nil value []), fun _ => ⟨rfl, rfl⟩, ?_, census.others, ?_⟩
    · intro _
      dsimp only
      rw [same, other]
      rfl
    · dsimp only
      rw [empty]
      exact rows
  · obtain ⟨valid, head⟩ := census.reference none_
    have total := census.total none_
    have first : (later ++ [value]).head? = later.head? := List.head?_append_of_ne_nil later none_
    have length : (later ++ [value]).length = later.length + 1 := List.length_append
    have still : later ++ [value] ≠ [] := List.concat_ne_nil value later
    rw [if_neg (by rw [valid]; decide)]
    by_cases repeat_ : value = d.refValue
    · rw [if_pos repeat_]
      have same : (d.same + 1).toNat = d.same.toNat + 1 := toNat_succ (by omega)
      have absent : value ∉ valuesOf d.shown := by
        intro row
        obtain ⟨s, member, here⟩ := List.mem_map.mp row
        exact census.rows.apart s member (here.trans repeat_)
      refine ⟨fun none_ => absurd none_ still, fun _ => ⟨valid, first.trans head⟩, ?_, census.others, ?_⟩
      · intro _
        dsimp only
        omega
      · exact census.rows.pass absent (.inl repeat_)
    · rw [if_neg repeat_]
      exact countOther_census census none_ number short repeat_

end Step

/-! ## A run -/

/-- The census of a run of calls, of which call 1 is left out. -/
structure CensusHolds (values : List UInt32) (d : Decrementer) : Prop where
  arms : d.writes.toNat = values.length
  reference : 2 ≤ values.length → d.refValid = 1 ∧ values[1]? = some d.refValue
  total : 2 ≤ values.length → d.writes.toNat = 1 + (1 + d.same.toNat + d.other.toNat)
  idle : values.length < 2 → d.refValid = 0 ∧ d.same = 0 ∧ d.other = 0
  others : countsOf d.shown + d.otherMore.toNat = d.other.toNat
  rows : Rows values.tail d.refValue d.shown
  least : ∀ v ∈ values, d.minValue ≤ v
  attained : values ≠ [] → d.minValue ∈ values

/-- The state before call `values.length + 1`. -/
structure Counting (values : List UInt32) (d : Decrementer) : Prop where
  arms : d.writes.toNat = values.length
  census : Census values.tail d
  least : ∀ v ∈ values, d.minValue ≤ v
  attained : d.minValue ∈ values ∨ d.minValue = 0xffffffff

theorem takeCensus_writes (d : Decrementer) (value : UInt32) :
    (takeCensus d value).writes = d.writes ∧ (takeCensus d value).minValue = d.minValue := by
  unfold takeCensus countOther
  split
  · split
    · exact ⟨rfl, rfl⟩
    · split
      · exact ⟨rfl, rfl⟩
      · dsimp only
        split
        · exact ⟨rfl, rfl⟩
        · split <;> exact ⟨rfl, rfl⟩
  · exact ⟨rfl, rfl⟩

def armed (d : Decrementer) (c : Arm) : Decrementer :=
  if c.value < (armTimer d c).minValue then { armTimer d c with minValue := c.value } else armTimer d c

theorem setDecrementer_eq (d : Decrementer) (c : Arm) :
    setDecrementer d c = takeCensus (armed d c) c.value := rfl

theorem armed_fields (d : Decrementer) (c : Arm) :
    (armed d c).writes = d.writes + 1 ∧
      (armed d c).minValue = if c.value < d.minValue then c.value else d.minValue := by
  have untouched : (armTimer d c).minValue = d.minValue := rfl
  rw [armed, untouched]
  by_cases less : c.value < d.minValue
  · rw [if_pos less, if_pos less]
    exact ⟨rfl, rfl⟩
  · rw [if_neg less, if_neg less]
    exact ⟨rfl, rfl⟩

theorem Census.armed {later : List UInt32} {d : Decrementer} (census : Census later d) (c : Arm) :
    Census later (armed d c) := by
  unfold Time.armed
  split <;> exact census.congr rfl rfl rfl rfl rfl rfl

theorem Counting.step {values : List UInt32} {d : Decrementer} (before : Counting values d)
    (short : values.length + 1 < 2 ^ 32) (c : Arm) :
    Counting (values ++ [c.value]) (setDecrementer d c) := by
  have arms := before.arms
  obtain ⟨writes, minimum⟩ := armed_fields d c
  obtain ⟨sameWrites, sameMinimum⟩ := takeCensus_writes (armed d c) c.value
  have number : (armed d c).writes.toNat = values.length + 1 := by
    rw [writes, toNat_succ (by omega), arms]
  have census := before.census.armed c
  rw [setDecrementer_eq]
  constructor
  case arms => rw [sameWrites, number, List.length_append, List.length_singleton]
  case census =>
    cases values with
    | nil =>
        have first : ¬ (armed d c).writes ≥ 2 := by
          rw [ge_iff_le, UInt32.le_iff_toNat_le, number]
          decide
        rw [takeCensus, if_neg first]
        exact census
    | cons v later => exact takeCensus_census census number short
  case least =>
    intro v member
    rw [sameMinimum, minimum]
    rcases List.mem_append.mp member with old | new
    · have above := before.least v old
      split
      · rename_i less
        exact UInt32.le_trans (UInt32.le_of_lt less) above
      · exact above
    · rw [List.mem_singleton.mp new]
      split
      · exact UInt32.le_refl c.value
      · rename_i more
        exact UInt32.not_lt.mp more
  case attained =>
    rw [sameMinimum, minimum]
    split
    · exact .inl (List.mem_append_right _ (List.mem_singleton_self c.value))
    · rcases before.attained with member | initial
      · exact .inl (List.mem_append_left _ member)
      · exact .inr initial

theorem run_counting (tval ctl : UInt32) (calls : List Arm) (short : calls.length < 2 ^ 32) :
    Counting (calls.map Arm.value) (decrementerRun tval ctl calls) := by
  induction calls using List.reverseRecOn with
  | nil =>
      refine ⟨rfl, census_boot tval ctl, ?_, .inr rfl⟩
      exact fun v member => absurd member List.not_mem_nil
  | append_singleton calls c ih =>
      rw [List.length_append, List.length_singleton] at short
      have before := ih (Nat.lt_of_succ_lt short)
      rw [decrementerRun, List.foldl_append, List.map_append]
      exact before.step (by rw [List.length_map]; exact short) c

/-- Over every run of fewer than 2^32 calls the counters account for every call behind call 1. -/
theorem census_holds (tval ctl : UInt32) (calls : List Arm) (short : calls.length < 2 ^ 32) :
    CensusHolds (calls.map Arm.value) (decrementerRun tval ctl calls) := by
  obtain ⟨arms, census, least, attained⟩ := run_counting tval ctl calls short
  set values := calls.map Arm.value with values_eq
  have tail : values.tail.length = values.length - 1 := List.length_tail
  have behind (two : 2 ≤ values.length) : values.tail ≠ [] := by
    intro none_
    rw [none_, List.length_nil] at tail
    omega
  have second : values.tail.head? = values[1]? := by
    rw [List.head?_eq_getElem?, List.getElem?_tail]
  constructor
  case arms => exact arms
  case reference =>
    intro two
    rw [← second]
    exact census.reference (behind two)
  case total =>
    intro two
    have total := census.total (behind two)
    omega
  case idle =>
    intro few
    exact census.idle (List.eq_nil_of_length_eq_zero (by omega))
  case others => exact census.others
  case rows => exact census.rows
  case least => exact least
  case attained =>
    intro some_
    rcases attained with member | initial
    · exact member
    · -- nothing was below the initial value, so everything is equal to it
      obtain ⟨v, member⟩ := List.exists_mem_of_ne_nil values some_
      have above := least v member
      rw [initial, UInt32.le_iff_toNat_le] at above
      have top := v.toNat_lt
      have same : v = 0xffffffff := by
        apply UInt32.toNat_inj.mp
        change 4294967295 ≤ v.toNat at above
        change v.toNat = 4294967295
        omega
      rwa [initial, ← same]

def armsOf (values : List UInt32) : List Arm := values.map fun value => ⟨value, 0⟩

theorem census_holds_four : CensusHolds [9, 5, 9, 7] (decrementerRun 0 0 (armsOf [9, 5, 9, 7])) :=
  census_holds 0 0 (armsOf [9, 5, 9, 7]) (by decide)

/-- Call 1 is neither the reference nor counted, and its value may have its row from a later call. -/
theorem first_call_left_out :
    ¬ ∀ calls : List Arm, calls.length < 2 ^ 32 →
      (decrementerRun 0 0 calls).writes.toNat =
          (decrementerRun 0 0 calls).refValid.toNat + (decrementerRun 0 0 calls).same.toNat +
            (decrementerRun 0 0 calls).other.toNat ∧
        ∀ s ∈ (decrementerRun 0 0 calls).shown, s.call.toNat = (calls.map Arm.value).idxOf s.value + 1 := by
  intro holds
  have sums := (holds (armsOf [9, 5, 9]) (by decide)).1
  exact absurd sums (by decide)

end Stage90.Time

import Mathlib.Data.List.Basic
import Mathlib.Data.List.MinMax
import Mathlib.Order.Bounds.Basic

/-!
# What a stack of open brackets holds

A scan pushes a value at every opening and pops one at every closing; closings on the empty
stack are dropped.  A value is still held exactly where the closings behind its opening have
never outnumbered the openings there.
-/

set_option autoImplicit false

namespace Stage90.Lib

inductive Bracket (β : Type)
  | opening (b : β)
  | closing
  | neither
  deriving DecidableEq

section Stack
variable {α β : Type} (kind : α → Bracket β)

def stackStep (stack : List β) (a : α) : List β :=
  match kind a with
  | .opening b => b :: stack
  | .closing => stack.tail
  | .neither => stack

def Bracket.opens : Bracket β → Bool
  | .opening _ => true
  | _ => false

def Bracket.closes : Bracket β → Bool
  | .closing => true
  | _ => false

def openings (xs : List α) : Nat := xs.countP fun a => (kind a).opens

def closings (xs : List α) : Nat := xs.countP fun a => (kind a).closes

def Bracket.map {γ : Type} (f : β → γ) : Bracket β → Bracket γ
  | .opening b => .opening (f b)
  | .closing => .closing
  | .neither => .neither

/-- At no point have the closings outnumbered the openings by more than `extra`. -/
def NeverBelow (extra : Nat) (xs : List α) : Prop :=
  ∀ k, closings kind (xs.take k) ≤ openings kind (xs.take k) + extra

/-- An opening of `b` that what follows it has not closed. -/
def Held (xs : List α) (b : β) : Prop :=
  ∃ before a after, xs = before ++ a :: after ∧ kind a = .opening b ∧ NeverBelow kind 0 after

/-- The most by which the closings outnumber the openings. -/
def deficit : List α → Nat
  | [] => 0
  | a :: xs =>
      match kind a with
      | .opening _ => deficit xs - 1
      | .closing => deficit xs + 1
      | .neither => deficit xs

variable {kind}

theorem neverBelow_cons {extra : Nat} {a : α} {xs : List α} :
    NeverBelow kind extra (a :: xs) ↔
      ∀ k, closings kind (xs.take k) + (if (kind a).closes then 1 else 0) ≤
        openings kind (xs.take k) + (if (kind a).opens then 1 else 0) + extra := by
  constructor
  · intro never k
    have here := never (k + 1)
    simp only [List.take_succ_cons, closings, openings, List.countP_cons] at here
    exact here
  · intro later k
    cases k with
    | zero => simp [closings, openings]
    | succ k =>
        simp only [List.take_succ_cons, closings, openings, List.countP_cons]
        exact later k

theorem deficit_le_iff {xs : List α} : ∀ {extra : Nat},
    deficit kind xs ≤ extra ↔ NeverBelow kind extra xs := by
  induction xs with
  | nil => simp [deficit, NeverBelow, closings]
  | cons a xs ih =>
      intro extra
      rw [deficit, neverBelow_cons]
      cases found : kind a with
      | opening b =>
          have shifted := @ih (extra + 1)
          simp only [Bracket.opens, Bracket.closes, NeverBelow] at shifted ⊢
          rw [Nat.sub_le_iff_le_add, shifted]
          exact forall_congr' fun k => by simp only [Bool.false_eq_true, if_false, if_true]; omega
      | closing =>
          simp only [Bracket.opens, Bracket.closes, Bool.false_eq_true, if_false, if_true]
          cases extra with
          | zero =>
              refine ⟨fun none_ => absurd none_ (by omega), fun never => ?_⟩
              have first := never 0
              simp [closings, openings] at first
          | succ extra =>
              rw [Nat.add_le_add_iff_right, ih]
              exact forall_congr' fun k => by omega
      | neither =>
          simp only [Bracket.opens, Bracket.closes, Bool.false_eq_true, if_false, Nat.add_zero]
          exact ih

theorem held_cons {a : α} {xs : List α} {b : β} :
    Held kind (a :: xs) b ↔ (kind a = .opening b ∧ NeverBelow kind 0 xs) ∨ Held kind xs b := by
  constructor
  · rintro ⟨before, c, after, split, opening, never⟩
    cases before with
    | nil =>
        obtain ⟨rfl, rfl⟩ := List.cons.inj split
        exact .inl ⟨opening, never⟩
    | cons d before =>
        obtain ⟨rfl, rest⟩ := List.cons.inj split
        exact .inr ⟨before, c, after, rest, opening, never⟩
  · rintro (⟨opening, never⟩ | ⟨before, c, after, rfl, opening, never⟩)
    · exact ⟨[], a, xs, rfl, opening, never⟩
    · exact ⟨a :: before, c, after, rfl, opening, never⟩

theorem not_held_nil {b : β} : ¬ Held kind [] b := by
  rintro ⟨before, a, after, split, _⟩
  exact absurd split.symm (by simp)

theorem mem_foldl_stackStep {xs : List α} {b : β} : ∀ {stack : List β},
    b ∈ xs.foldl (stackStep kind) stack ↔
      Held kind xs b ∨ b ∈ stack.drop (deficit kind xs) := by
  induction xs with
  | nil => simp [not_held_nil, deficit]
  | cons a xs ih =>
      intro stack
      rw [List.foldl_cons, ih, held_cons, deficit, stackStep]
      cases found : kind a with
      | opening c =>
          simp only [Bracket.opening.injEq]
          rw [← deficit_le_iff, Nat.le_zero]
          cases deep : deficit kind xs with
          | zero => simp only [List.drop_zero, List.mem_cons, Nat.zero_sub, and_true]; tauto
          | succ d => simp
      | closing => simp [List.drop_tail]
      | neither => simp

theorem mem_stack {xs : List α} {b : β} :
    b ∈ xs.foldl (stackStep kind) [] ↔ Held kind xs b := by
  rw [mem_foldl_stackStep, List.drop_nil]
  simp

/-- Two readings of the brackets that differ in what an opening pushes. -/
theorem neverBelow_congr {γ : Type} {kind' : α → Bracket γ} {f : β → γ} {xs : List α}
    (same : ∀ a ∈ xs, kind' a = (kind a).map f) {extra : Nat} :
    NeverBelow kind' extra xs ↔ NeverBelow kind extra xs := by
  refine forall_congr' fun k => ?_
  have opens : openings kind' (xs.take k) = openings kind (xs.take k) :=
    List.countP_congr fun a member => by
      rw [same a (List.mem_of_mem_take member)]
      cases kind a <;> rfl
  have closes : closings kind' (xs.take k) = closings kind (xs.take k) :=
    List.countP_congr fun a member => by
      rw [same a (List.mem_of_mem_take member)]
      cases kind a <;> rfl
  rw [opens, closes]

theorem held_append_neither {xs : List α} {a : α} (apart : kind a = .neither) {b : β} :
    Held kind (xs ++ [a]) b ↔ Held kind xs b := by
  rw [← mem_stack, ← mem_stack, List.foldl_append, List.foldl_cons, List.foldl_nil, stackStep,
    apart]

end Stack

section Greatest
variable {β : Type} [LinearOrder β]

/-- The greatest of a set, `none` where it is empty. -/
def Names (named : Option β) (s : Set β) : Prop :=
  (∀ b, named = some b ↔ IsGreatest s b) ∧ (named = none ↔ s = ∅)

theorem max?_names_iff (xs : List β) (s : Set β) :
    Names xs.max? s ↔ (∀ b ∈ xs, ∃ c ∈ s, b ≤ c) ∧ ∀ c ∈ s, ∃ b ∈ xs, c ≤ b := by
  cases most : xs.max? with
  | none =>
      obtain rfl := List.max?_eq_none_iff.mp most
      constructor
      · intro names
        exact ⟨nofun, fun c member => absurd (names.2.mp rfl ▸ member) (Set.notMem_empty c)⟩
      · rintro ⟨_, covered⟩
        have empty : s = ∅ := Set.eq_empty_of_forall_notMem fun c member => by
          obtain ⟨b, held, _⟩ := covered c member
          exact absurd held List.not_mem_nil
        refine ⟨fun b => ⟨nofun, fun greatest => ?_⟩, fun _ => empty, fun _ => rfl⟩
        exact absurd (empty ▸ greatest.1) (Set.notMem_empty b)
  | some top =>
      obtain ⟨held, above⟩ := List.max?_eq_some_iff.mp most
      constructor
      · intro names
        have greatest := (names.1 top).mp rfl
        exact ⟨fun b member => ⟨top, greatest.1, above b member⟩,
          fun c member => ⟨top, held, greatest.2 member⟩⟩
      · rintro ⟨low, covered⟩
        have greatest : IsGreatest s top := by
          obtain ⟨c, member, more⟩ := low top held
          obtain ⟨b, held', more'⟩ := covered c member
          obtain rfl : c = top := le_antisymm (more'.trans (above b held')) more
          refine ⟨member, fun d member' => ?_⟩
          obtain ⟨e, held'', more''⟩ := covered d member'
          exact more''.trans (above e held'')
        refine ⟨fun b => ⟨?_, fun other => ?_⟩, nofun, fun empty => ?_⟩
        · rintro ⟨rfl⟩
          exact greatest
        · exact congrArg some (greatest.unique other)
        · exact absurd (empty ▸ greatest.1) (Set.notMem_empty top)

end Greatest

end Stage90.Lib

import Stage90.Callwalk.Graph

/-!
# What the walk and the guard distance answer

A failed visit leaves every function it entered explored, which is why forgetting none of them
loses no path.  The guard distance is the least cost of the uniform-cost search.
-/

set_option autoImplicit false

namespace Stage90.Callwalk

open Stage90.Lib

section Walk
variable {α : Type} {g : Graph α} {guarded : Bool} {forced : α × Nat → Bool}

/-! ## A path that is found -/

theorem follows_of_not_skipped {f : α} {c : Call α}
    (taken : ¬ (c.guarded && !guarded && !forced (f, c.addr)) = true) :
    follows guarded forced f c := by
  simp only [Bool.and_eq_true, Bool.not_eq_true', not_and, Bool.not_eq_false] at taken
  unfold follows
  cases unguarded : c.guarded
  · exact Or.inl rfl
  · cases both : guarded
    · exact Or.inr (Or.inr (taken ⟨unguarded, both⟩))
    · exact Or.inr (Or.inl rfl)

theorem visit_path [DecidableEq α] :
    ∀ {fuel : Nat} {path : List α} {name : α} {marks marks' : Marks α} {found : List α},
      visit g guarded forced fuel path name marks = some (some found, marks') →
        ∃ rest, found = path ++ rest ∧ StubPath g guarded forced name rest := by
  intro fuel
  induction fuel with
  | zero => exact fun answer => absurd answer nofun
  | succ fuel ih =>
      intro path name marks marks' found answer
      have tried : ∀ {calls : List (Call α)} {marks : Marks α}, (∀ c ∈ calls, c ∈ g.calls name) →
          g.stubs name = false →
          tryCalls guarded forced name (visit g guarded forced fuel (path ++ [name])) calls marks =
            some (some found, marks') →
          ∃ rest, found = path ++ rest ∧ StubPath g guarded forced name rest := by
        intro calls
        induction calls with
        | nil => exact fun _ _ answer => absurd answer nofun
        | cons c calls later =>
            intro marks among real answer
            have behind := fun marks' => @later marks' (fun c' member =>
              among c' (List.mem_cons_of_mem _ member)) real
            rw [tryCalls] at answer
            split_ifs at answer with skipped
            · exact behind marks answer
            · split at answer
              · exact absurd answer nofun
              · rename_i there _ inner
                obtain ⟨rfl, rfl⟩ : there = found ∧ _ := by simpa using answer
                obtain ⟨rest, rfl, good⟩ := ih inner
                exact ⟨name :: rest, by simp, StubPath.call real (among c List.mem_cons_self)
                  (follows_of_not_skipped skipped) good⟩
              · exact behind _ answer
      rw [visit] at answer
      by_cases stub : g.stubs name = true
      · rw [if_pos stub] at answer
        obtain ⟨rfl, _⟩ : path ++ [name] = found ∧ marks = marks' := by simpa using answer
        exact ⟨[name], rfl, StubPath.stub stub⟩
      rw [if_neg stub] at answer
      by_cases seen : name ∈ marks.seen
      · rw [if_pos seen] at answer
        exact absurd answer (by simp)
      rw [if_neg seen] at answer
      exact tried (fun c member => member) (by simpa using stub) answer

/-! ## A visit that finds none -/

/-- Every call the walk follows from `x` leads to a function that is seen and no stub. -/
def Explored (g : Graph α) (guarded : Bool) (forced : α × Nat → Bool) (seen : List α) (x : α) :
    Prop :=
  g.stubs x = false ∧ ∀ c ∈ g.calls x, follows guarded forced x c →
    g.stubs c.callee = false ∧ c.callee ∈ seen

theorem Explored.mono {seen seen' : List α} {x : α} (explored : Explored g guarded forced seen x)
    (more : seen ⊆ seen') : Explored g guarded forced seen' x :=
  ⟨explored.1, fun c member follow =>
    ⟨(explored.2 c member follow).1, more (explored.2 c member follow).2⟩⟩

/-- From `seen` to `seen'`, with everything in between explored. -/
def Grown (g : Graph α) (guarded : Bool) (forced : α × Nat → Bool) (seen seen' : List α) : Prop :=
  seen ⊆ seen' ∧ ∀ x ∈ seen', x ∉ seen → Explored g guarded forced seen' x

theorem Grown.refl (seen : List α) : Grown g guarded forced seen seen :=
  ⟨fun _ member => member, fun _ member new => absurd member new⟩

theorem Grown.trans {a b c : List α} (first : Grown g guarded forced a b)
    (second : Grown g guarded forced b c) : Grown g guarded forced a c := by
  refine ⟨fun x member => second.1 (first.1 member), fun x member new => ?_⟩
  by_cases early : x ∈ b
  · exact (first.2 x early new).mono second.1
  · exact second.2 x member early

theorem tryCalls_none [DecidableEq α] {name : α} {again : α → Marks α → Option (Option (List α) × Marks α)}
    (each : ∀ callee marks marks', again callee marks = some (none, marks') →
      Grown g guarded forced marks.seen marks'.seen ∧ g.stubs callee = false ∧
        callee ∈ marks'.seen) {calls : List (Call α)} :
    ∀ {marks marks' : Marks α}, tryCalls guarded forced name again calls marks = some (none, marks') →
      Grown g guarded forced marks.seen marks'.seen ∧
        ∀ c ∈ calls, follows guarded forced name c →
          g.stubs c.callee = false ∧ c.callee ∈ marks'.seen := by
  induction calls with
  | nil =>
      intro marks marks' answer
      obtain rfl : marks = marks' := by simpa [tryCalls] using answer
      exact ⟨Grown.refl _, fun c none_ => absurd none_ List.not_mem_nil⟩
  | cons c calls later =>
      intro marks marks' answer
      rw [tryCalls] at answer
      split_ifs at answer with skipped
      · obtain ⟨grown, rest⟩ := later answer
        refine ⟨grown, fun c' member follow => ?_⟩
        rcases List.mem_cons.mp member with rfl | behind
        · exact absurd skipped (by
            rcases follow with no | no | no <;> simp [no])
        · exact rest c' behind follow
      · split at answer
        · exact absurd answer nofun
        · exact absurd answer (by simp)
        · rename_i middle inner
          obtain ⟨first, real, seen⟩ := each _ _ _ inner
          obtain ⟨grown, rest⟩ := later answer
          refine ⟨first.trans grown, fun c' member follow => ?_⟩
          rcases List.mem_cons.mp member with rfl | behind
          · exact ⟨real, grown.1 seen⟩
          · exact rest c' behind follow

theorem visit_none [DecidableEq α] :
    ∀ {fuel : Nat} {path : List α} {name : α} {marks marks' : Marks α},
      visit g guarded forced fuel path name marks = some (none, marks') →
        Grown g guarded forced marks.seen marks'.seen ∧ g.stubs name = false ∧
          name ∈ marks'.seen := by
  intro fuel
  induction fuel with
  | zero => exact fun answer => absurd answer nofun
  | succ fuel ih =>
      intro path name marks marks' answer
      rw [visit] at answer
      by_cases stub : g.stubs name = true
      · rw [if_pos stub] at answer
        exact absurd answer (by simp)
      have real : g.stubs name = false := by simpa using stub
      rw [if_neg stub] at answer
      by_cases seen : name ∈ marks.seen
      · rw [if_pos seen] at answer
        obtain rfl : marks = marks' := by simpa using answer
        exact ⟨Grown.refl _, real, seen⟩
      rw [if_neg seen] at answer
      obtain ⟨grown, called⟩ := tryCalls_none (fun _ _ _ => ih) answer
      have there : name ∈ marks'.seen := grown.1 List.mem_cons_self
      refine ⟨⟨fun x member => grown.1 (List.mem_cons_of_mem _ member), fun x member new => ?_⟩,
        real, there⟩
      by_cases this : x = name
      · exact this ▸ ⟨real, called⟩
      · exact grown.2 x member (by simp [this, new])

theorem no_path {seen : List α} (closed : ∀ x ∈ seen, Explored g guarded forced seen x) {f : α}
    {path : List α} (there : StubPath g guarded forced f path) : f ∉ seen := by
  induction there with
  | stub stub => exact fun member => absurd stub (by simp [(closed _ member).1])
  | call _ member follow _ ih => exact fun inside => ih ((closed _ inside).2 _ member follow).2

/-! ## The recursion ends -/

def unseen [DecidableEq α] (g : Graph α) (marks : Marks α) : Nat :=
  (g.functions.filter fun f => f ∉ marks.seen).length

theorem unseen_mono [DecidableEq α] {marks marks' : Marks α} (more : marks.seen ⊆ marks'.seen) :
    unseen g marks' ≤ unseen g marks :=
  (List.monotone_filter_right _ fun f new => by
    simp only [decide_eq_true_eq] at new ⊢
    exact fun member => new (more member)).length_le

theorem unseen_enter [DecidableEq α] {marks : Marks α} {name : α} {visited : List α} (inside : name ∈ g.functions)
    (new : name ∉ marks.seen) : unseen g ⟨name :: marks.seen, visited⟩ < unseen g marks := by
  have fewer : (g.functions.filter fun f => f ∉ name :: marks.seen) =
      (g.functions.filter fun f => f ∉ marks.seen).filter fun f => f ≠ name := by
    rw [List.filter_filter]
    exact List.filter_congr fun f _ => by simp [not_or]
  unfold unseen
  rw [fewer, List.length_filter_lt_length_iff_exists]
  exact ⟨name, List.mem_filter.mpr ⟨inside, by simpa using new⟩, by simp⟩

theorem visit_ends [DecidableEq α] :
    ∀ {fuel : Nat} {path : List α} {name : α} {marks : Marks α}, unseen g marks < fuel →
      (visit g guarded forced fuel path name marks).isSome = true := by
  intro fuel
  induction fuel with
  | zero => exact fun enough => absurd enough (Nat.not_lt_zero _)
  | succ fuel ih =>
      intro path name marks enough
      have tried : ∀ {calls : List (Call α)} {marks : Marks α}, unseen g marks < fuel →
          (tryCalls guarded forced name (visit g guarded forced fuel (path ++ [name])) calls
            marks).isSome = true := by
        intro calls
        induction calls with
        | nil => exact fun _ => rfl
        | cons c calls later =>
            intro marks enough
            rw [tryCalls]
            split_ifs
            · exact later enough
            · obtain ⟨⟨found, marks'⟩, inner⟩ := Option.isSome_iff_exists.mp
                (@ih (path ++ [name]) c.callee marks enough)
              rw [inner]
              cases found with
              | some there => rfl
              | none =>
                  exact later ((unseen_mono (visit_none inner).1.1).trans_lt enough)
      rw [visit]
      by_cases stub : g.stubs name = true
      · rw [if_pos stub]
        rfl
      rw [if_neg stub]
      by_cases seen : name ∈ marks.seen
      · rw [if_pos seen]
        rfl
      rw [if_neg seen]
      by_cases inside : name ∈ g.functions
      · exact tried ((unseen_enter inside seen).trans_le (Nat.le_of_lt_succ enough))
      · rw [g.calls_outside name inside]
        rfl

/-- The walk reaches a stub exactly where there is a path to one, and answers with a path. -/
theorem walk_exact [DecidableEq α] (g : Graph α) (guarded : Bool) (forced : α × Nat → Bool) (root : α) :
    ∃ path visited, walk g guarded forced root = some (path, visited) ∧
      (path ≠ [] → StubPath g guarded forced root path) ∧
      (path = [] → ∀ path', ¬ StubPath g guarded forced root path') := by
  have few : unseen g ⟨[], []⟩ < g.functions.length + 2 :=
    (List.length_filter_le _ _).trans_lt (by omega)
  have ends : (visit g guarded forced _ [] root ⟨[], []⟩).isSome = true := visit_ends few
  obtain ⟨⟨found, marks⟩, answer⟩ := Option.isSome_iff_exists.mp ends
  refine ⟨found.getD [], marks.visited, by rw [walk, answer]; rfl, ?_⟩
  cases found with
  | some path =>
      obtain ⟨rest, same, good⟩ := visit_path answer
      rw [List.nil_append] at same
      rw [Option.getD_some, same]
      exact ⟨fun _ => good, fun empty => absurd (empty ▸ good) nofun⟩
  | none =>
      refine ⟨fun some_ => absurd rfl some_, fun _ path' there => ?_⟩
      obtain ⟨grown, _, inside⟩ := visit_none answer
      exact no_path (fun x member => grown.2 x member List.not_mem_nil) there inside

end Walk

end Stage90.Callwalk

import Stage90.Callwalk.Walk
import Mathlib.Order.Bounds.Basic

/-!
# The guard distance

`guards_to_stub` is the least number of guarded calls of a chain to a stub, as long as that is
below the number it takes for a function it has not indexed; the walk answers just where it is 0.
-/

set_option autoImplicit false

namespace Stage90.Callwalk

open Stage90.Lib

section Distance
variable {α : Type} {g : Graph α}

theorem Way.prepend {f b s : α} {w n : Nat} (real : g.stubs f = false) (edge : (w, b) ∈ edges g f)
    (way : Way (edges g) g.stubs b n s) : Way (edges g) g.stubs f (w + n) s := by
  induction way with
  | start => simpa using Way.start.step real edge
  | step _ notStub next ih => exact (Nat.add_assoc _ _ _) ▸ ih.step notStub next

theorem path_of_chain {f a : α} {n : Nat} (way : Way (edges g) g.stubs f n a) (free : n = 0)
    {path : List α} (there : StubPath g false (fun _ => false) a path) :
    ∃ path', StubPath g false (fun _ => false) f path' := by
  induction way generalizing path with
  | start => exact ⟨path, there⟩
  | @step k w a b _ real edge ih =>
      obtain ⟨c, member, same⟩ := List.mem_map.mp edge
      obtain ⟨rfl, rfl⟩ := Prod.mk.inj same
      have unguarded : c.guarded = false := by
        by_contra guarded
        rw [if_pos (by simpa using guarded)] at free
        omega
      exact ih (by omega) (.call real member (Or.inl unguarded) there)

theorem chain_of_path {f : α} {path : List α} (there : StubPath g false (fun _ => false) f path) :
    0 ∈ Chains g f := by
  induction there with
  | @stub s stub => exact ⟨s, Way.start, stub⟩
  | @call f c path real member follow _ ih =>
      obtain ⟨s, way, stub⟩ := ih
      have unguarded : c.guarded = false := by
        rcases follow with free | no | no
        · exact free
        · exact absurd no nofun
        · exact absurd no nofun
      have edge : (0, c.callee) ∈ edges g f := List.mem_map.mpr ⟨c, member, by simp [unguarded]⟩
      exact ⟨s, Way.prepend real edge way, stub⟩

theorem chains_zero_iff (f : α) :
    0 ∈ Chains g f ↔ ∃ path, StubPath g false (fun _ => false) f path := by
  constructor
  · rintro ⟨s, way, stub⟩
    exact path_of_chain way rfl (.stub stub)
  · rintro ⟨path, there⟩
    exact chain_of_path there

theorem chains_stub {f : α} (stub : g.stubs f = true) : IsLeast (Chains g f) 0 :=
  ⟨⟨f, Way.start, stub⟩, fun n _ => Nat.zero_le n⟩

/-- The goals the search can see are the chains that come near to it below the bound. -/
theorem seen_subset (f : α) : Seen (edges g) g.stubs unindexed f ⊆ Chains g f := by
  rintro n ⟨k, a, w, b, way, real, _, edge, stub, rfl⟩
  exact ⟨b, way.step real edge, stub⟩

theorem chains_seen {f : α} {n : Nat} (real : g.stubs f = false) (chain : n ∈ Chains g f)
    (near : n < unindexed) : n ∈ Seen (edges g) g.stubs unindexed f := by
  obtain ⟨s, way, stub⟩ := chain
  cases way with
  | start => exact absurd stub (by simp [real])
  | @step k w a b way notStub edge =>
      exact ⟨k, a, w, s, way, notStub, by omega, edge, stub, rfl⟩

variable [DecidableEq α]

/-- Both searches of every graph.  The distance is the least number of guarded calls where that
is below `1 << 30`; the walk answers where it is 0. -/
theorem guards_and_walk (g : Graph α) (f : α) :
    (∃ d, guardsToStub g f = some d ∧
      (((Chains g f).Nonempty → ∃ n ∈ Chains g f, n < unindexed) →
        (∀ m, d = some m ↔ IsLeast (Chains g f) m) ∧ (d = none ↔ Chains g f = ∅))) ∧
    ∃ path visited, walk g false (fun _ => false) f = some (path, visited) ∧
      (path ≠ [] ↔ IsLeast (Chains g f) 0) ∧
      (path ≠ [] → StubPath g false (fun _ => false) f path) := by
  constructor
  · by_cases stub : g.stubs f = true
    · refine ⟨some 0, if_pos stub, fun _ => ⟨fun m => ⟨?_, fun least => ?_⟩, ?_⟩⟩
      · intro same
        exact Option.some.inj same ▸ chains_stub stub
      · rw [(chains_stub stub).unique least]
      · exact ⟨nofun, fun empty => absurd (empty ▸ (chains_stub stub).1) (Set.notMem_empty 0)⟩
    have real : g.stubs f = false := by simpa using stub
    have outside : ∀ a, a ∉ g.functions → edges g a = [] := fun a out => by
      rw [edges, g.calls_outside a out, List.map_nil]
    obtain ⟨d, answer, least, none_⟩ := @uniformCost_exact _ (edges g) g.stubs unindexed f _
      g.functions outside (by decide) real
    refine ⟨d, by rw [guardsToStub, if_neg stub]; exact answer, fun near => ?_⟩
    have low : ∀ m, IsLeast (Chains g f) m → m < unindexed := fun m least => by
      obtain ⟨n, chain, small⟩ := near ⟨m, least.1⟩
      exact (least.2 chain).trans_lt small
    have lifted : ∀ m, IsLeast (Chains g f) m → IsLeast (Seen (edges g) g.stubs unindexed f) m :=
      fun m least => ⟨chains_seen real least.1 (low m least),
        fun n seen => least.2 (seen_subset f seen)⟩
    have empty : Seen (edges g) g.stubs unindexed f = ∅ ↔ Chains g f = ∅ := by
      constructor
      · intro blind
        by_contra some_
        obtain ⟨n, chain, small⟩ := near (Set.nonempty_iff_ne_empty.mpr some_)
        exact absurd (blind ▸ chains_seen real chain small) (Set.notMem_empty n)
      · exact fun none_ => Set.subset_eq_empty (seen_subset f) none_
    refine ⟨fun m => (least m).trans ⟨fun seen => ?_, lifted m⟩, none_.trans empty⟩
    obtain ⟨n, chain⟩ : (Chains g f).Nonempty := ⟨m, seen_subset f seen.1⟩
    obtain ⟨n, chain, small⟩ := near ⟨n, chain⟩
    refine ⟨seen_subset f seen.1, fun k chain' => ?_⟩
    by_cases cheap : k < unindexed
    · exact seen.2 (chains_seen real chain' cheap)
    · exact (seen.2 (chains_seen real chain small)).trans (by omega)
  · obtain ⟨path, visited, answer, good, complete⟩ := walk_exact g false (fun _ => false) f
    refine ⟨path, visited, answer, ⟨fun found => ?_, fun least empty => ?_⟩, good⟩
    · exact ⟨chain_of_path (good found), fun n _ => Nat.zero_le n⟩
    · obtain ⟨path', there⟩ := (chains_zero_iff f).mp least.1
      exact complete empty path' there

end Distance

/-- Two functions, of which the second is a stub behind a guard. -/
def guardedStub : Graph Nat where
  functions := [0]
  calls f := if f = 0 then [⟨4, 1, true⟩] else []
  stubs f := f == 1
  calls_outside _ out := if_neg fun zero => out (by simp [zero])

theorem guardedStub_way {k a : Nat} (way : Way (edges guardedStub) guardedStub.stubs 0 k a) :
    k = a := by
  induction way with
  | start => rfl
  | @step k w a b _ _ edge same =>
      simp only [edges, guardedStub] at edge
      split at edge
      · obtain ⟨rfl, rfl⟩ : w = 1 ∧ b = 1 := by simpa using edge
        omega
      · exact absurd edge List.not_mem_nil

/-- The stub is one guard away. -/
theorem guards_and_walk_one :
    guardsToStub guardedStub 0 = some (some 1) ∧ IsLeast (Chains guardedStub 0) 1 := by
  have chain : 1 ∈ Chains guardedStub 0 :=
    ⟨1, Way.start.step rfl (w := 1) (by decide), rfl⟩
  have least : IsLeast (Chains guardedStub 0) 1 := by
    refine ⟨chain, ?_⟩
    rintro n ⟨s, way, stub⟩
    rw [guardedStub_way way, beq_iff_eq.mp stub]
  obtain ⟨⟨d, answer, exact_⟩, _⟩ := guards_and_walk guardedStub 0
  have one : d = some 1 := ((exact_ fun _ => ⟨1, chain, by decide⟩).1 1).mpr least
  exact ⟨one ▸ answer, least⟩

/-! ## A chain as long as the bound -/

/-- A function calls the next one behind a guard, as far as `1 << 30`; the last is a stub. -/
def farGraph : Graph Nat where
  functions := List.range (unindexed + 1)
  calls f := if f ≤ unindexed then [⟨f, f + 1, true⟩] else []
  stubs f := f == unindexed + 1
  calls_outside _ out := if_neg fun near => out (List.mem_range.mpr (Nat.lt_succ_of_le near))

theorem far_way (n : Nat) (near : n ≤ unindexed + 1) : Way (edges farGraph) farGraph.stubs 0 n n := by
  induction n with
  | zero => exact Way.start
  | succ n ih =>
      have inside : n ≤ unindexed := Nat.le_of_succ_le_succ near
      have real : farGraph.stubs n = false := by
        simp only [farGraph, beq_eq_false_iff_ne]
        omega
      have edge : (1, n + 1) ∈ edges farGraph n := by
        simp [edges, farGraph, if_pos inside]
      exact (ih (by omega)).step real edge

theorem far_way_iff {k a : Nat} (way : Way (edges farGraph) farGraph.stubs 0 k a) : k = a := by
  induction way with
  | start => rfl
  | @step k w a b _ _ edge ih =>
      subst ih
      simp only [edges, farGraph] at edge
      split_ifs at edge
      · obtain ⟨rfl, rfl⟩ : w = 1 ∧ b = k + 1 := by simpa using edge
        rfl
      · exact absurd edge (by simp)

/-- The stub at the end is never seen. -/
theorem far_unseen :
    ¬ ∀ (g : Graph Nat) (f : Nat) (d : Option Nat), guardsToStub g f = some d →
      (d = none ↔ Chains g f = ∅) := by
  intro every
  have real : farGraph.stubs 0 = false := by decide
  obtain ⟨d, answer, _, none_⟩ := @uniformCost_exact _ (edges farGraph) farGraph.stubs unindexed 0 _
    farGraph.functions
    (fun a out => by rw [edges, farGraph.calls_outside a out, List.map_nil]) (by decide) real
  have blind : Seen (edges farGraph) farGraph.stubs unindexed 0 = ∅ := by
    refine Set.eq_empty_of_forall_notMem fun n => ?_
    rintro ⟨k, a, w, b, way, _, low, edge, stub, _⟩
    have here := far_way_iff way
    simp only [edges, farGraph] at edge
    split_ifs at edge
    · obtain ⟨rfl, rfl⟩ : w = 1 ∧ b = a + 1 := by simpa using edge
      have : a + 1 = unindexed + 1 := by simpa [farGraph] using stub
      omega
    · exact absurd edge (by simp)
  have called : guardsToStub farGraph 0 = some d := by
    rw [guardsToStub, if_neg (by simp [real])]
    exact answer
  have empty := (every farGraph 0 d called).mp (none_.mpr blind)
  have chain : unindexed + 1 ∈ Chains farGraph 0 :=
    ⟨unindexed + 1, far_way _ (Nat.le_refl _), by simp [farGraph]⟩
  exact absurd (empty ▸ chain) (Set.notMem_empty _)

end Stage90.Callwalk

import Stage90.Lib.Rounds
import Mathlib.Data.List.Sort
import Mathlib.Logic.Function.Basic
import Mathlib.Data.Set.Basic
import Mathlib.Order.Bounds.Defs

/-!
# Uniform-cost search up to a bound

The search keeps the least cost at which each node was taken up, the best goal seen and the
open nodes, and takes up a cheapest open node in each round.  Nodes at `bound` or beyond are
never opened.  It looks for a goal over the edges of a graph; a goal ends the way to it.
-/

set_option autoImplicit false

namespace Stage90.Lib

section UniformCost
variable {α : Type} (edges : α → List (Nat × α)) (goal : α → Bool) (bound : Nat)

/-- A way from `s` and what it costs; only its end may be a goal. -/
inductive Way (s : α) : Nat → α → Prop
  | start : Way s 0 s
  | step {k w : Nat} {a b : α} : Way s k a → goal a = false → (w, b) ∈ edges a → Way s (k + w) b

structure Search (α : Type) where
  index : α → Option Nat
  best : Option Nat
  frontier : List (Nat × α)

def improve (best : Option Nat) (step : Nat) : Option Nat :=
  if best.all (step < ·) then some step else best

/-- The loop over the edges of a node that is taken up at `cost`. -/
def relax (index : α → Option Nat) (cost : Nat) :
    List (Nat × α) → Option Nat → List (Nat × α) → Option Nat × List (Nat × α)
  | [], best, frontier => (best, frontier)
  | (w, b) :: es, best, frontier =>
      let step := cost + w
      if goal b then relax index cost es (improve best step) frontier
      else if step < (index b).getD bound then
        relax index cost es best (frontier ++ [(step, b)])
      else relax index cost es best frontier

def searchRound [DecidableEq α] (s : Search α) : Option Nat ⊕ Search α :=
  match s.frontier.mergeSort fun x y => decide (x.1 ≤ y.1) with
  | [] => .inl s.best
  | (cost, here) :: rest =>
      if (s.index here).any (· ≤ cost) then .inr { s with frontier := rest }
      else
        let index := Function.update s.index here (some cost)
        let relaxed := relax goal bound index cost (edges here) s.best rest
        .inr ⟨index, relaxed.1, relaxed.2⟩

def searchStart (s : α) : Search α := ⟨fun _ => none, none, [(0, s)]⟩

variable {edges goal bound}

/-! ## The best goal -/

/-- There is a value, and it is at most `k`. -/
def AtMost (best : Option Nat) (k : Nat) : Prop := ∃ m ≤ k, best = some m

theorem improve_some {best : Option Nat} {step m : Nat} (same : improve best step = some m) :
    best = some m ∨ m = step := by
  unfold improve at same
  split_ifs at same
  · exact Or.inr (Option.some.inj same).symm
  · exact Or.inl same

theorem improve_atMost (best : Option Nat) (step : Nat) : AtMost (improve best step) step := by
  unfold improve
  cases best with
  | none => exact ⟨step, Nat.le_refl step, rfl⟩
  | some k =>
      by_cases smaller : step < k
      · exact ⟨step, Nat.le_refl step, if_pos (by simpa using smaller)⟩
      · exact ⟨k, Nat.not_lt.mp smaller, if_neg (by simpa using smaller)⟩

theorem AtMost.improve {best : Option Nat} {k : Nat} (before : AtMost best k) (step : Nat) :
    AtMost (improve best step) k := by
  obtain ⟨m, small, rfl⟩ := before
  unfold Lib.improve
  by_cases smaller : step < m
  · exact ⟨step, by omega, if_pos (by simpa using smaller)⟩
  · exact ⟨m, small, if_neg (by simpa using smaller)⟩

theorem foldl_improve (steps : List Nat) :
    ∀ {best : Option Nat},
      (∀ m, steps.foldl improve best = some m → best = some m ∨ m ∈ steps) ∧
      (∀ k, AtMost best k → AtMost (steps.foldl improve best) k) ∧
      ∀ k ∈ steps, AtMost (steps.foldl improve best) k := by
  induction steps with
  | nil =>
      intro best
      exact ⟨fun m same => Or.inl same, fun k small => small, fun k no => absurd no List.not_mem_nil⟩
  | cons step steps ih =>
      intro best
      obtain ⟨from_, keeps, covers⟩ := @ih (improve best step)
      rw [List.foldl_cons]
      refine ⟨fun m same => ?_, fun k small => keeps k (small.improve step), fun k among => ?_⟩
      · rcases from_ m same with earlier | later
        · exact (improve_some earlier).imp_right fun this => by rw [this]; exact List.mem_cons_self
        · exact Or.inr (List.mem_cons_of_mem _ later)
      · rcases List.mem_cons.mp among with rfl | later
        · exact keeps k (improve_atMost best k)
        · exact covers k later

/-! ## One node -/

section Relax
variable {index : α → Option Nat} {cost : Nat} {es : List (Nat × α)}

theorem relax_frontier :
    ∀ {best : Option Nat} {frontier : List (Nat × α)},
      (relax goal bound index cost es best frontier).2 =
        frontier ++ (es.filter fun e =>
          !goal e.2 && decide (cost + e.1 < (index e.2).getD bound)).map fun e => (cost + e.1, e.2) := by
  induction es with
  | nil => intro best frontier; simp [relax]
  | cons e es ih =>
      intro best frontier
      obtain ⟨w, b⟩ := e
      rw [relax]
      by_cases ends : goal b = true
      · rw [if_pos ends, ih, List.filter_cons_of_neg (by simp [ends])]
      · rw [if_neg ends]
        by_cases cheaper : cost + w < (index b).getD bound
        · rw [if_pos cheaper, ih, List.filter_cons_of_pos (by simpa [cheaper] using ends)]
          simp
        · rw [if_neg cheaper, ih, List.filter_cons_of_neg (by simp [cheaper])]

theorem mem_relax {best : Option Nat} {frontier : List (Nat × α)} {x : Nat × α} :
    x ∈ (relax goal bound index cost es best frontier).2 ↔
      x ∈ frontier ∨ ∃ w b, (w, b) ∈ es ∧ goal b = false ∧
        cost + w < (index b).getD bound ∧ x = (cost + w, b) := by
  rw [relax_frontier, List.mem_append, List.mem_map]
  refine or_congr_right ⟨?_, ?_⟩
  · rintro ⟨⟨w, b⟩, among, rfl⟩
    obtain ⟨member, kept⟩ := List.mem_filter.mp among
    simp only [Bool.and_eq_true, Bool.not_eq_true', decide_eq_true_eq] at kept
    exact ⟨w, b, member, kept.1, kept.2, rfl⟩
  · rintro ⟨w, b, member, isNot, cheaper, rfl⟩
    exact ⟨(w, b), List.mem_filter.mpr ⟨member, by simp [isNot, cheaper]⟩, rfl⟩

theorem length_relax {best : Option Nat} {frontier : List (Nat × α)} :
    (relax goal bound index cost es best frontier).2.length ≤ frontier.length + es.length := by
  rw [relax_frontier, List.length_append, List.length_map]
  exact Nat.add_le_add_left (List.length_filter_le _ _) _

theorem relax_best :
    ∀ {best : Option Nat} {frontier : List (Nat × α)},
      (relax goal bound index cost es best frontier).1 =
        ((es.filter fun e => goal e.2).map fun e => cost + e.1).foldl improve best := by
  induction es with
  | nil => intro best frontier; simp [relax]
  | cons e es ih =>
      intro best frontier
      obtain ⟨w, b⟩ := e
      rw [relax]
      by_cases ends : goal b = true
      · rw [if_pos ends, ih, List.filter_cons_of_pos (by simpa using ends)]
        simp
      · rw [if_neg ends, List.filter_cons_of_neg (by simpa using ends)]
        split_ifs
        · exact ih
        · exact ih

end Relax

/-! ## The rounds -/

section Rounds
variable {start : α}

/-- What the index and the open nodes stand for, and that the ways through the nodes taken up
are covered by the index, the open nodes and the best goal. -/
structure Covered (edges : α → List (Nat × α)) (goal : α → Bool) (bound : Nat) (start : α)
    (s : Search α) : Prop where
  index : ∀ a c, s.index a = some c → Way edges goal start c a ∧ goal a = false ∧ c < bound
  frontier : ∀ c a, (c, a) ∈ s.frontier → Way edges goal start c a ∧ goal a = false ∧ c < bound
  best : ∀ m, s.best = some m →
    ∃ a c w b, s.index a = some c ∧ (w, b) ∈ edges a ∧ goal b = true ∧ m = c + w
  goals : ∀ a c w b, s.index a = some c → (w, b) ∈ edges a → goal b = true → AtMost s.best (c + w)
  nodes : ∀ a c w b, s.index a = some c → (w, b) ∈ edges a → goal b = false → c + w < bound →
    AtMost (s.index b) (c + w) ∨ (c + w, b) ∈ s.frontier
  root : AtMost (s.index start) 0 ∨ (0, start) ∈ s.frontier
  order : ∀ a c, s.index a = some c → ∀ c' b, (c', b) ∈ s.frontier → c ≤ c'

theorem covered_start (positive : 0 < bound) (isNot : goal start = false) :
    Covered edges goal bound start (searchStart start) where
  index a c same := absurd same (by simp [searchStart])
  frontier c a member := by
    obtain ⟨rfl, rfl⟩ : c = 0 ∧ a = start := by simpa [searchStart] using member
    exact ⟨Way.start, isNot, positive⟩
  best m same := absurd same (by simp [searchStart])
  goals a c w b same := absurd same (by simp [searchStart])
  nodes a c w b same := absurd same (by simp [searchStart])
  root := Or.inr List.mem_cons_self
  order a c same := absurd same (by simp [searchStart])

/-- A round ends with nothing open, passes over a node that is settled, or settles a cheapest
open one. -/
theorem searchRound_cases [DecidableEq α] (s : Search α) :
    (s.frontier = [] ∧ searchRound edges goal bound s = .inl s.best) ∨
    ∃ cost here rest, s.frontier.Perm ((cost, here) :: rest) ∧ (∀ x ∈ rest, cost ≤ x.1) ∧
      ((AtMost (s.index here) cost ∧
          searchRound edges goal bound s = .inr { s with frontier := rest }) ∨
        (¬ AtMost (s.index here) cost ∧
          searchRound edges goal bound s = .inr
            ⟨Function.update s.index here (some cost),
              (relax goal bound (Function.update s.index here (some cost)) cost (edges here)
                s.best rest).1,
              (relax goal bound (Function.update s.index here (some cost)) cost (edges here)
                s.best rest).2⟩)) := by
  have same := List.mergeSort_perm s.frontier fun x y => decide (x.1 ≤ y.1)
  have sorted := @List.pairwise_mergeSort _ (fun x y : Nat × α => decide (x.1 ≤ y.1))
    (fun a b c ab bc => by simp only [decide_eq_true_eq] at ab bc ⊢; omega)
    (fun a b => by simp only [Bool.or_eq_true, decide_eq_true_eq]; omega) s.frontier
  unfold searchRound
  generalize s.frontier.mergeSort (fun x y => decide (x.1 ≤ y.1)) = open_ at same sorted
  rcases open_ with _ | ⟨⟨cost, here⟩, rest⟩
  · exact Or.inl ⟨List.nil_perm.mp same, rfl⟩
  have least : ∀ x ∈ rest, cost ≤ x.1 := fun x among => by
    simpa using (List.pairwise_cons.mp sorted).1 x among
  have settled : (s.index here).any (· ≤ cost) = true ↔ AtMost (s.index here) cost := by
    simp only [Option.any_eq_true, decide_eq_true_eq, AtMost]
    exact ⟨fun ⟨m, same, small⟩ => ⟨m, small, same⟩, fun ⟨m, small, same⟩ => ⟨m, same, small⟩⟩
  refine Or.inr ⟨cost, here, rest, same.symm, least, ?_⟩
  by_cases known : AtMost (s.index here) cost
  · exact Or.inl ⟨known, if_pos (settled.mpr known)⟩
  · exact Or.inr ⟨known, if_neg (mt settled.mp known)⟩

variable {s : Search α} {cost : Nat} {here : α} {rest : List (Nat × α)}

theorem Covered.pass (covered : Covered edges goal bound start s)
    (popped : s.frontier.Perm ((cost, here) :: rest)) (known : AtMost (s.index here) cost) :
    Covered edges goal bound start { s with frontier := rest } := by
  have sub : ∀ x ∈ rest, x ∈ s.frontier := fun x among =>
    popped.mem_iff.mpr (List.mem_cons_of_mem _ among)
  have still : ∀ c a, AtMost (s.index a) c ∨ (c, a) ∈ s.frontier →
      AtMost (s.index a) c ∨ (c, a) ∈ rest := by
    rintro c a (settled | member)
    · exact Or.inl settled
    · rcases List.mem_cons.mp (popped.mem_iff.mp member) with same | later
      · obtain ⟨rfl, rfl⟩ := Prod.mk.inj same
        exact Or.inl known
      · exact Or.inr later
  exact
    { index := covered.index
      frontier := fun c a among => covered.frontier c a (sub _ among)
      best := covered.best
      goals := covered.goals
      nodes := fun a c w b known edge isNot small =>
        still _ _ (covered.nodes a c w b known edge isNot small)
      root := still _ _ covered.root
      order := fun a c known c' b among => covered.order a c known c' b (sub _ among) }

/-- Costs never fall, so a node that is taken up is new. -/
theorem Covered.fresh (covered : Covered edges goal bound start s)
    (popped : s.frontier.Perm ((cost, here) :: rest)) (unknown : ¬ AtMost (s.index here) cost) :
    s.index here = none := by
  cases known : s.index here with
  | none => rfl
  | some c =>
      have early : c ≤ cost :=
        covered.order here c known cost here (popped.mem_iff.mpr List.mem_cons_self)
      exact absurd ⟨c, early, known⟩ unknown

/-- With nothing open, every node of a cheap way is in the index at that cost or below. -/
theorem Covered.settled (covered : Covered edges goal bound start s) (empty : s.frontier = [])
    {k : Nat} {a : α} (way : Way edges goal start k a) (isNot : goal a = false) (low : k < bound) :
    AtMost (s.index a) k := by
  have closed : ∀ c b, AtMost (s.index b) c ∨ (c, b) ∈ s.frontier → AtMost (s.index b) c :=
    fun c b either => either.resolve_right (by rw [empty]; exact List.not_mem_nil)
  induction way with
  | start => exact closed _ _ covered.root
  | @step k w a b _ notGoal edge ih =>
      obtain ⟨c, early, known⟩ := ih notGoal (by omega)
      obtain ⟨m, small, there⟩ :=
        closed _ _ (covered.nodes a c w b known edge isNot (by omega))
      exact ⟨m, by omega, there⟩

theorem Covered.take [DecidableEq α] (covered : Covered edges goal bound start s)
    (popped : s.frontier.Perm ((cost, here) :: rest)) (least : ∀ x ∈ rest, cost ≤ x.1)
    (unknown : ¬ AtMost (s.index here) cost) :
    Covered edges goal bound start
      ⟨Function.update s.index here (some cost),
        (relax goal bound (Function.update s.index here (some cost)) cost (edges here)
          s.best rest).1,
        (relax goal bound (Function.update s.index here (some cost)) cost (edges here)
          s.best rest).2⟩ := by
  have new := covered.fresh popped unknown
  have head : (cost, here) ∈ s.frontier := popped.mem_iff.mpr List.mem_cons_self
  obtain ⟨way, isNot, small⟩ := covered.frontier cost here head
  have sub : ∀ x ∈ rest, x ∈ s.frontier := fun x among =>
    popped.mem_iff.mpr (List.mem_cons_of_mem _ among)
  -- The index after the round: the old entries and the new one.
  have entry : ∀ a c, Function.update s.index here (some cost) a = some c ↔
      (a = here ∧ c = cost) ∨ s.index a = some c := by
    intro a c
    by_cases this : a = here
    · subst this
      simp [new, eq_comm]
    · simp [this]
  have grows : ∀ a k, AtMost (s.index a) k → AtMost (Function.update s.index here (some cost) a) k :=
    fun a k ⟨m, low, known⟩ => ⟨m, low, (entry a m).mpr (Or.inr known)⟩
  have settled : AtMost (Function.update s.index here (some cost) here) cost :=
    ⟨cost, Nat.le_refl cost, (entry here cost).mpr (Or.inl ⟨rfl, rfl⟩)⟩
  generalize index_is : Function.update s.index here (some cost) = index at entry grows settled
  obtain ⟨from_, keeps, covers⟩ :=
    @foldl_improve (((edges here).filter fun e => goal e.2).map fun e => cost + e.1) s.best
  rw [← @relax_best _ goal bound index cost (edges here) s.best rest] at from_ keeps covers
  have still : ∀ c a, AtMost (s.index a) c ∨ (c, a) ∈ s.frontier →
      AtMost (index a) c ∨
        (c, a) ∈ (relax goal bound index cost (edges here) s.best rest).2 := by
    rintro c a (known | member)
    · exact Or.inl (grows a c known)
    · rcases List.mem_cons.mp (popped.mem_iff.mp member) with same | later
      · obtain ⟨rfl, rfl⟩ := Prod.mk.inj same
        exact Or.inl settled
      · exact Or.inr (mem_relax.mpr (Or.inl later))
  constructor
  case index =>
    intro a c known
    rcases (entry a c).mp known with ⟨rfl, rfl⟩ | old
    · exact ⟨way, isNot, small⟩
    · exact covered.index a c old
  case frontier =>
    intro c a member
    rcases mem_relax.mp member with old | ⟨w, b, edge, notGoal, cheaper, same⟩
    · exact covered.frontier c a (sub _ old)
    · obtain ⟨rfl, rfl⟩ := Prod.mk.inj same
      refine ⟨way.step isNot edge, notGoal, ?_⟩
      cases known : index a with
      | none => simpa [known] using cheaper
      | some c' =>
          rw [known, Option.getD_some] at cheaper
          rcases (entry a c').mp known with ⟨_, rfl⟩ | old
          · omega
          · exact cheaper.trans (covered.index a c' old).2.2
  case best =>
    intro m known
    rcases from_ m known with old | among
    · obtain ⟨a, c, w, b, taken, rest⟩ := covered.best m old
      exact ⟨a, c, w, b, (entry a c).mpr (Or.inr taken), rest⟩
    · obtain ⟨⟨w, b⟩, edge, rfl⟩ := List.mem_map.mp among
      obtain ⟨edge, ends⟩ := List.mem_filter.mp edge
      exact ⟨here, cost, w, b, (entry here cost).mpr (Or.inl ⟨rfl, rfl⟩), edge, ends, rfl⟩
  case goals =>
    intro a c w b known edge ends
    rcases (entry a c).mp known with ⟨rfl, rfl⟩ | old
    · exact covers _ (List.mem_map.mpr ⟨(w, b), List.mem_filter.mpr ⟨edge, ends⟩, rfl⟩)
    · exact keeps _ (covered.goals a c w b old edge ends)
  case nodes =>
    intro a c w b known edge notGoal low
    rcases (entry a c).mp known with ⟨rfl, rfl⟩ | old
    · by_cases cheaper : c + w < (index b).getD bound
      · exact Or.inr (mem_relax.mpr (Or.inr ⟨w, b, edge, notGoal, cheaper, rfl⟩))
      · cases there : index b with
        | none => exact absurd low (by simpa [there] using cheaper)
        | some c' => exact Or.inl ⟨c', by simpa [there] using cheaper, there⟩
    · exact still _ _ (covered.nodes a c w b old edge notGoal low)
  case root => exact still _ _ covered.root
  case order =>
    intro a c known c' b member
    have early : c ≤ cost := by
      rcases (entry a c).mp known with ⟨_, rfl⟩ | old
      · exact Nat.le_refl c
      · exact covered.order a c old cost here head
    rcases mem_relax.mp member with old | ⟨w, b', edge, _, _, same⟩
    · exact early.trans (least _ old)
    · obtain ⟨rfl, rfl⟩ := Prod.mk.inj same
      omega

/-! ## The search -/

variable [DecidableEq α] {support : List α}

theorem Covered.next {t : Search α} (covered : Covered edges goal bound start s)
    (step : searchRound edges goal bound s = .inr t) : Covered edges goal bound start t := by
  obtain ⟨_, ended⟩ | ⟨cost, here, rest, popped, least, ⟨known, on⟩ | ⟨unknown, on⟩⟩ :=
    @searchRound_cases _ edges goal bound _ s
  · exact absurd (ended.symm.trans step) nofun
  · rw [← Sum.inr.inj (on.symm.trans step)]
    exact covered.pass popped known
  · rw [← Sum.inr.inj (on.symm.trans step)]
    exact covered.take popped least unknown

/-- The edges of the nodes that are still to be taken up. -/
def ahead (edges : α → List (Nat × α)) (index : α → Option Nat) : List α → Nat
  | [] => 0
  | a :: more => (if (index a).isNone then (edges a).length else 0) + ahead edges index more

theorem ahead_update_le (index : α → Option Nat) (cost : Nat) (nodes : List α) :
    ahead edges (Function.update index here (some cost)) nodes ≤ ahead edges index nodes := by
  induction nodes with
  | nil => exact Nat.le_refl 0
  | cons a nodes ih =>
      rw [ahead, ahead]
      by_cases this : a = here
      · subst this
        rw [Function.update_self, if_neg (by simp)]
        omega
      · rw [Function.update_of_ne this]
        omega

theorem ahead_take {index : α → Option Nat} (new : index here = none) (cost : Nat)
    {nodes : List α} (inside : here ∈ nodes) :
    ahead edges (Function.update index here (some cost)) nodes + (edges here).length ≤
      ahead edges index nodes := by
  induction nodes with
  | nil => exact absurd inside List.not_mem_nil
  | cons a nodes ih =>
      have rest := @ahead_update_le _ edges here _ index cost nodes
      rw [ahead, ahead]
      by_cases this : a = here
      · subst this
        rw [Function.update_self, new, if_neg (by simp), if_pos (by simp)]
        omega
      · rw [Function.update_of_ne this]
        have := ih (List.mem_of_ne_of_mem (Ne.symm this) inside)
        omega

def potential (edges : α → List (Nat × α)) (support : List α) (s : Search α) : Nat :=
  s.frontier.length + ahead edges s.index support

theorem potential_next {t : Search α} (outside : ∀ a, a ∉ support → edges a = [])
    (covered : Covered edges goal bound start s)
    (step : searchRound edges goal bound s = .inr t) :
    potential edges support t < potential edges support s := by
  obtain ⟨_, ended⟩ | ⟨cost, here, rest, popped, _, ⟨_, on⟩ | ⟨unknown, on⟩⟩ :=
    @searchRound_cases _ edges goal bound _ s
  · exact absurd (ended.symm.trans step) nofun
  · rw [← Sum.inr.inj (on.symm.trans step)]
    have shorter := popped.length_eq
    rw [List.length_cons] at shorter
    unfold potential
    dsimp only
    omega
  · rw [← Sum.inr.inj (on.symm.trans step)]
    have shorter := popped.length_eq
    rw [List.length_cons] at shorter
    have longer := @length_relax _ goal bound (Function.update s.index here (some cost)) cost
      (edges here) s.best rest
    have taken : ahead edges (Function.update s.index here (some cost)) support +
        (edges here).length ≤ ahead edges s.index support := by
      by_cases inside : here ∈ support
      · exact ahead_take (covered.fresh popped unknown) cost inside
      · rw [outside here inside]
        exact ahead_update_le s.index cost support
    unfold potential
    dsimp only
    omega

/-- Enough rounds for a graph whose edges all leave nodes of the list. -/
def searchFuel (edges : α → List (Nat × α)) (support : List α) : Nat :=
  2 + ahead edges (fun _ => none) support

variable (edges goal bound) in
def uniformCost (support : List α) (start : α) : Option (Option Nat) :=
  (rounds (searchRound edges goal bound) (searchFuel edges support) (searchStart start)).map Prod.fst

/-- The goals that a search up to the bound can see, by what the way to them costs. -/
def Seen (edges : α → List (Nat × α)) (goal : α → Bool) (bound : Nat) (start : α) : Set Nat :=
  {n | ∃ k a w b, Way edges goal start k a ∧ goal a = false ∧ k < bound ∧
    (w, b) ∈ edges a ∧ goal b = true ∧ n = k + w}

/-- The search ends with the least cost it can see, and with none where it sees no goal. -/
theorem uniformCost_exact (outside : ∀ a, a ∉ support → edges a = []) (positive : 0 < bound)
    (isNot : goal start = false) :
    ∃ best, uniformCost edges goal bound support start = some best ∧
      (∀ m, best = some m ↔ IsLeast (Seen edges goal bound start) m) ∧
      (best = none ↔ Seen edges goal bound start = ∅) := by
  have first : potential edges support (searchStart start) < searchFuel edges support := by
    simp only [potential, searchStart, searchFuel, List.length_singleton]
    omega
  obtain ⟨best, last, run, reached, ended⟩ := rounds_ends (potential edges support)
    (fun t u (covered : Covered edges goal bound start t) step =>
      ⟨covered.next step, potential_next outside covered step⟩)
    (covered_start positive isNot) first
  have covered : Covered edges goal bound start last :=
    reached.invariant (fun _ _ held step => held.next step) (covered_start positive isNot)
  obtain ⟨empty, same⟩ : last.frontier = [] ∧ best = last.best := by
    obtain ⟨empty, this⟩ | ⟨_, _, _, _, _, ⟨_, on⟩ | ⟨_, on⟩⟩ :=
      @searchRound_cases _ edges goal bound _ last
    · exact ⟨empty, Sum.inl.inj (ended.symm.trans this)⟩
    · exact absurd (ended.symm.trans on) nofun
    · exact absurd (ended.symm.trans on) nofun
  subst same
  have attained : ∀ m, last.best = some m → m ∈ Seen edges goal bound start := by
    intro m known
    obtain ⟨a, c, w, b, taken, edge, ends, rfl⟩ := covered.best m known
    obtain ⟨way, notGoal, low⟩ := covered.index a c taken
    exact ⟨c, a, w, b, way, notGoal, low, edge, ends, rfl⟩
  have below : ∀ n ∈ Seen edges goal bound start, AtMost last.best n := by
    rintro n ⟨k, a, w, b, way, notGoal, low, edge, ends, rfl⟩
    obtain ⟨c, early, taken⟩ := covered.settled empty way notGoal low
    obtain ⟨m, small, known⟩ := covered.goals a c w b taken edge ends
    exact ⟨m, by omega, known⟩
  refine ⟨last.best, by rw [uniformCost, run]; rfl, fun m => ⟨fun known => ?_, fun least => ?_⟩, ?_⟩
  · refine ⟨attained m known, fun n seen => ?_⟩
    obtain ⟨m', small, again⟩ := below n seen
    rw [known] at again
    exact (Option.some.inj again) ▸ small
  · obtain ⟨m', small, known⟩ := below m least.1
    have high := least.2 (attained m' known)
    rw [known, Nat.le_antisymm small high]
  · constructor
    · intro none_
      refine Set.eq_empty_of_forall_notMem fun n seen => ?_
      obtain ⟨m, _, known⟩ := below n seen
      exact absurd (none_.symm.trans known) nofun
    · intro blind
      cases known : last.best with
      | none => rfl
      | some m => exact absurd (blind ▸ attained m known) (Set.notMem_empty m)

end Rounds

end UniformCost

end Stage90.Lib

import Mathlib.Data.Finset.Card
import Mathlib.Tactic.Linarith
import Mathlib.Logic.Function.Basic

/-!
# Open addressing with linear probing

A table of `size` cells, read through a `Layout`: which cells are occupied, the key
of an occupied cell, and the home position of a key.  `probe` walks from the home
position, one cell at a time around the ring, and stops at the key or at the first
vacant cell.

`Chained` is the representation invariant of insert-only tables: keys are distinct,
and every occupied cell is joined to its home by occupied cells.  Under it a probe
answers exactly whether a key is present, and filling the vacant cell a probe
stopped at keeps the invariant.
-/

set_option autoImplicit false

namespace Stage90.Lib.Probe

structure Layout (E K : Type) where
  size : Nat
  occupied : E → Bool
  key : E → K
  home : K → Nat

inductive Outcome where
  | hit (i : Nat)
  | vacant (i : Nat)
  | full
  deriving DecidableEq, Repr

section Walk
variable {E K : Type} [DecidableEq K] (L : Layout E K) (t : Nat → E) (k : K)

def Layout.cell (L : Layout E K) (k : K) (d : Nat) : Nat := (L.home k + d) % L.size

def probeFrom : Nat → Nat → Outcome
  | 0, _ => .full
  | n + 1, i =>
      if L.occupied (t i) then
        if L.key (t i) = k then .hit i else probeFrom n ((i + 1) % L.size)
      else .vacant i

def probe : Outcome := probeFrom L t k L.size (L.home k % L.size)

omit [DecidableEq K] in
theorem cell_lt (positive : 0 < L.size) (d : Nat) : L.cell k d < L.size :=
  Nat.mod_lt _ positive

omit [DecidableEq K] in
theorem cell_succ (d : Nat) : (L.cell k d + 1) % L.size = L.cell k (d + 1) := by
  simp [Layout.cell, Nat.add_assoc]

omit [DecidableEq K] in
theorem cell_surjective {i : Nat} (hi : i < L.size) : ∃ d < L.size, L.cell k d = i := by
  have positive : 0 < L.size := by omega
  have homeLt : L.home k % L.size < L.size := Nat.mod_lt _ positive
  refine ⟨(i + (L.size - L.home k % L.size)) % L.size, Nat.mod_lt _ positive, ?_⟩
  have around : L.home k % L.size + (i + (L.size - L.home k % L.size)) = i + L.size := by omega
  calc L.cell k ((i + (L.size - L.home k % L.size)) % L.size)
      = (L.home k % L.size + (i + (L.size - L.home k % L.size))) % L.size := by
        simp [Layout.cell, Nat.add_mod]
    _ = i := by rw [around, Nat.add_mod_right, Nat.mod_eq_of_lt hi]

/-- What a walk of `n` cells that starts `d` steps from home found. -/
theorem probeFrom_cases (n d : Nat) :
    (∃ m < n, probeFrom L t k n (L.cell k d) = .hit (L.cell k (d + m)) ∧
      L.occupied (t (L.cell k (d + m))) ∧ L.key (t (L.cell k (d + m))) = k) ∨
    (∃ m < n, probeFrom L t k n (L.cell k d) = .vacant (L.cell k (d + m)) ∧
      L.occupied (t (L.cell k (d + m))) = false ∧
      ∀ m' < m, L.occupied (t (L.cell k (d + m'))) ∧ L.key (t (L.cell k (d + m'))) ≠ k) ∨
    (probeFrom L t k n (L.cell k d) = .full ∧
      ∀ m < n, L.occupied (t (L.cell k (d + m))) ∧ L.key (t (L.cell k (d + m))) ≠ k) := by
  induction n generalizing d with
  | zero => exact Or.inr (Or.inr ⟨rfl, by simp⟩)
  | succ n ih =>
      by_cases ho : L.occupied (t (L.cell k d))
      · by_cases hk : L.key (t (L.cell k d)) = k
        · exact Or.inl ⟨0, by omega, by simp [probeFrom, ho, hk], ho, hk⟩
        · have step : probeFrom L t k (n + 1) (L.cell k d) =
              probeFrom L t k n (L.cell k (d + 1)) := by
            simp [probeFrom, ho, hk, cell_succ]
          have passed : ∀ {m}, (∀ m' < m, L.occupied (t (L.cell k (d + 1 + m'))) ∧
              L.key (t (L.cell k (d + 1 + m'))) ≠ k) → ∀ m' < m + 1,
              L.occupied (t (L.cell k (d + m'))) ∧ L.key (t (L.cell k (d + m'))) ≠ k := by
            intro m earlier m' hm'
            cases m' with
            | zero => exact ⟨ho, hk⟩
            | succ m' =>
                have := earlier m' (by omega)
                rwa [show d + 1 + m' = d + (m' + 1) by omega] at this
          rw [step]
          rcases ih (d + 1) with ⟨m, hm, found, occ, key⟩ | ⟨m, hm, found, empty, before⟩ |
            ⟨found, all⟩
          · rw [show d + 1 + m = d + (m + 1) by omega] at found occ key
            exact Or.inl ⟨m + 1, by omega, found, occ, key⟩
          · rw [show d + 1 + m = d + (m + 1) by omega] at found empty
            exact Or.inr (Or.inl ⟨m + 1, by omega, found, empty, passed before⟩)
          · exact Or.inr (Or.inr ⟨found, passed all⟩)
      · have empty : L.occupied (t (L.cell k d)) = false := by simpa using ho
        exact Or.inr (Or.inl ⟨0, by omega, by simp [probeFrom, empty], by simpa using empty,
          by simp⟩)

omit [DecidableEq K] in
theorem cell_zero : L.cell k 0 = L.home k % L.size := by simp [Layout.cell]

theorem probe_cases :
    (∃ d < L.size, probe L t k = .hit (L.cell k d) ∧
      L.occupied (t (L.cell k d)) ∧ L.key (t (L.cell k d)) = k) ∨
    (∃ d < L.size, probe L t k = .vacant (L.cell k d) ∧ L.occupied (t (L.cell k d)) = false ∧
      ∀ d' < d, L.occupied (t (L.cell k d')) ∧ L.key (t (L.cell k d')) ≠ k) ∨
    (probe L t k = .full ∧
      ∀ d < L.size, L.occupied (t (L.cell k d)) ∧ L.key (t (L.cell k d)) ≠ k) := by
  simpa [probe, cell_zero] using probeFrom_cases L t k L.size 0

theorem probe_hit {i : Nat} (found : probe L t k = .hit i) :
    i < L.size ∧ L.occupied (t i) ∧ L.key (t i) = k := by
  rcases probe_cases L t k with ⟨d, hd, here, occ, key⟩ | ⟨d, _, here, _⟩ | ⟨here, _⟩
  · obtain rfl : L.cell k d = i := by simpa [here] using found
    exact ⟨cell_lt L k (by omega) d, occ, key⟩
  · simp [here] at found
  · simp [here] at found

theorem probe_vacant {i : Nat} (found : probe L t k = .vacant i) :
    i < L.size ∧ L.occupied (t i) = false := by
  rcases probe_cases L t k with ⟨d, _, here, _⟩ | ⟨d, hd, here, empty, _⟩ | ⟨here, _⟩
  · simp [here] at found
  · obtain rfl : L.cell k d = i := by simpa [here] using found
    exact ⟨cell_lt L k (by omega) d, empty⟩
  · simp [here] at found

end Walk

/-! ## The invariant of insert-only tables -/

section Chained
variable {E K : Type} [DecidableEq K] {L : Layout E K} {t : Nat → E} {k : K}

structure Chained (L : Layout E K) (t : Nat → E) : Prop where
  distinct : ∀ i < L.size, ∀ i' < L.size, L.occupied (t i) → L.occupied (t i') →
    L.key (t i) = L.key (t i') → i = i'
  linked : ∀ i < L.size, L.occupied (t i) → ∃ d < L.size,
    L.cell (L.key (t i)) d = i ∧ ∀ d' < d, L.occupied (t (L.cell (L.key (t i)) d'))

def Holds (L : Layout E K) (t : Nat → E) (k : K) : Prop :=
  ∃ i < L.size, L.occupied (t i) ∧ L.key (t i) = k

theorem probe_of_occupied (chained : Chained L t) {i : Nat} (hi : i < L.size)
    (ho : L.occupied (t i)) : probe L t (L.key (t i)) = .hit i := by
  obtain ⟨d, hd, at_i, before⟩ := chained.linked i hi ho
  rcases probe_cases L t (L.key (t i)) with ⟨m, _, here, occ, key⟩ | ⟨m, _, _, empty, passed⟩ |
    ⟨_, all⟩
  · have cellLt := cell_lt L (L.key (t i)) (by omega) m
    rw [here, chained.distinct _ cellLt i hi occ ho key]
  · -- the walk cannot stop short of `i`, and at `i` it meets the key
    exfalso
    rcases Nat.lt_trichotomy m d with lt | rfl | gt
    · simp [before m lt] at empty
    · rw [at_i] at empty
      simp [ho] at empty
    · have := (passed d gt).2
      rw [at_i] at this
      exact this rfl
  · have := (all d hd).2
    rw [at_i] at this
    exact absurd rfl this

theorem probe_of_holds (chained : Chained L t) (held : Holds L t k) :
    ∃ i < L.size, probe L t k = .hit i ∧ L.occupied (t i) ∧ L.key (t i) = k := by
  obtain ⟨i, hi, ho, rfl⟩ := held
  exact ⟨i, hi, probe_of_occupied chained hi ho, ho, rfl⟩

theorem not_holds_of_probe_vacant (chained : Chained L t) {i : Nat}
    (found : probe L t k = .vacant i) : ¬ Holds L t k := by
  intro held
  obtain ⟨_, _, hit, _⟩ := probe_of_holds chained held
  simp [hit] at found

theorem probe_of_not_holds (absent : ¬ Holds L t k)
    (room : ∃ i < L.size, L.occupied (t i) = false) : ∃ i, probe L t k = .vacant i := by
  rcases probe_cases L t k with ⟨d, hd, _, occ, key⟩ | ⟨d, _, here, _⟩ | ⟨_, all⟩
  · exact absurd ⟨_, cell_lt L k (by omega) d, occ, key⟩ absent
  · exact ⟨_, here⟩
  · obtain ⟨i, hi, empty⟩ := room
    obtain ⟨d, hd, rfl⟩ := cell_surjective L k hi
    simp [(all d hd).1] at empty

theorem Chained.insert (chained : Chained L t) {i : Nat} (found : probe L t k = .vacant i)
    {e : E} (ho : L.occupied e) (hk : L.key e = k) :
    Chained L (Function.update t i e) := by
  have absent := not_holds_of_probe_vacant chained found
  have hi := (probe_vacant L t k found).1
  have grows : ∀ j, L.occupied (t j) → L.occupied (Function.update t i e j) := by
    intro j hj
    by_cases same : j = i
    · simp [same, ho]
    · simpa [same] using hj
  constructor
  · intro a ha b hb oa ob keys
    by_cases ai : a = i <;> by_cases bi : b = i
    · rw [ai, bi]
    · subst ai
      simp only [Function.update_self, Function.update_of_ne bi] at ob keys
      exact absurd ⟨b, hb, ob, by rw [← keys, hk]⟩ absent
    · subst bi
      simp only [Function.update_self, Function.update_of_ne ai] at oa keys
      exact absurd ⟨a, ha, oa, by rw [keys, hk]⟩ absent
    · simp only [Function.update_of_ne ai, Function.update_of_ne bi] at oa ob keys
      exact chained.distinct a ha b hb oa ob keys
  · intro a ha oa
    by_cases ai : a = i
    · subst ai
      rcases probe_cases L t k with ⟨_, _, here, _⟩ | ⟨d, hd, here, _, passed⟩ | ⟨here, _⟩
      · simp [here] at found
      · obtain rfl : L.cell k d = a := by simpa [here] using found
        refine ⟨d, hd, by simp [hk], ?_⟩
        intro d' hd'
        simpa [hk] using grows _ (passed d' hd').1
      · simp [here] at found
    · simp only [Function.update_of_ne ai] at oa ⊢
      obtain ⟨d, hd, at_a, before⟩ := chained.linked a ha oa
      exact ⟨d, hd, at_a, fun d' hd' => grows _ (before d' hd')⟩

omit [DecidableEq K] in
theorem holds_insert {i : Nat} (hi : i < L.size) (empty : L.occupied (t i) = false) {e : E}
    (ho : L.occupied e) (k' : K) :
    Holds L (Function.update t i e) k' ↔ L.key e = k' ∨ Holds L t k' := by
  constructor
  · rintro ⟨j, hj, oj, key⟩
    by_cases same : j = i
    · subst same
      exact Or.inl (by simpa using key)
    · simp only [Function.update_of_ne same] at oj key
      exact Or.inr ⟨j, hj, oj, key⟩
  · rintro (key | ⟨j, hj, oj, key⟩)
    · exact ⟨i, hi, by simpa using ho, by simpa using key⟩
    · have other : j ≠ i := by
        rintro rfl
        simp [oj] at empty
      exact ⟨j, hj, by simpa [other] using oj, by simpa [other] using key⟩

omit [DecidableEq K] in
theorem Chained.rewrite (chained : Chained L t) {i : Nat} (ho : L.occupied (t i)) {e : E}
    (oe : L.occupied e) (key : L.key e = L.key (t i)) :
    Chained L (Function.update t i e) := by
  have sameOcc : ∀ j, L.occupied (Function.update t i e j) = L.occupied (t j) := by
    intro j
    by_cases same : j = i
    · simp [same, ho, oe]
    · simp [same]
  have sameKey : ∀ j, L.key (Function.update t i e j) = L.key (t j) := by
    intro j
    by_cases same : j = i
    · simp [same, key]
    · simp [same]
  constructor
  · intro a ha b hb
    rw [sameOcc, sameOcc, sameKey, sameKey]
    exact chained.distinct a ha b hb
  · intro a ha
    simp only [sameOcc, sameKey]
    exact chained.linked a ha

end Chained

/-! ## Counting cells -/

section Count
variable {E : Type} (size : Nat) (p : E → Bool) (t : Nat → E)

def count : Nat := ((Finset.range size).filter fun i => p (t i)).card

theorem count_eq_zero (none : ∀ i < size, p (t i) = false) : count size p t = 0 := by
  rw [count, Finset.card_eq_zero, Finset.filter_eq_empty_iff]
  intro i hi
  simp [none i (Finset.mem_range.mp hi)]

theorem count_update_same {i : Nat} {e : E} (same : p e = p (t i)) :
    count size p (Function.update t i e) = count size p t := by
  unfold count
  congr 1
  apply Finset.filter_congr
  intro j _
  by_cases ji : j = i
  · simp [ji, same]
  · simp [ji]

theorem count_update_gain {i : Nat} {e : E} (hi : i < size) (before : p (t i) = false)
    (after : p e = true) : count size p (Function.update t i e) = count size p t + 1 := by
  have grown : (Finset.range size).filter (fun j => p (Function.update t i e j) = true) =
      insert i ((Finset.range size).filter fun j => p (t j) = true) := by
    ext j
    by_cases ji : j = i
    · subst ji
      simp [hi, after]
    · simp [ji]
  unfold count
  rw [grown, Finset.card_insert_of_notMem (by simp [before])]

theorem count_mono {q : E → Bool} (implied : ∀ i < size, p (t i) → q (t i)) :
    count size p t ≤ count size q t := by
  apply Finset.card_le_card
  intro i
  simp only [Finset.mem_filter, Finset.mem_range]
  exact fun ⟨hi, holds⟩ => ⟨hi, implied i hi holds⟩

theorem exists_not_of_count_lt (short : count size p t < size) :
    ∃ i < size, p (t i) = false := by
  by_contra none
  push Not at none
  have everywhere : (Finset.range size).filter (fun i => p (t i) = true) = Finset.range size := by
    apply Finset.filter_true_of_mem
    intro i hi
    simpa using none i (Finset.mem_range.mp hi)
  simp [count, everywhere] at short

end Count

end Stage90.Lib.Probe

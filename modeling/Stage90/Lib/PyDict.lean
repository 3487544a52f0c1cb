import Mathlib.Data.List.Nodup

/-!
# Dictionaries that keep the order of insertion

The entries in the order in which their keys came in; a key that is there keeps its place.
-/

set_option autoImplicit false

namespace Stage90.Lib

abbrev PyDict (κ ν : Type) := List (κ × ν)

namespace PyDict
variable {κ ν : Type}

def keys (d : PyDict κ ν) : List κ := d.map Prod.fst

theorem keys_append (d d' : PyDict κ ν) : keys (d ++ d') = keys d ++ keys d' := List.map_append

variable [DecidableEq κ]

def modify (d : PyDict κ ν) (k : κ) (f : ν → ν) : PyDict κ ν :=
  d.map fun e => if e.1 = k then (e.1, f e.2) else e

/-- `d[k] = v` -/
def set (d : PyDict κ ν) (k : κ) (v : ν) : PyDict κ ν :=
  if k ∈ keys d then modify d k fun _ => v else d ++ [(k, v)]

/-- `d.setdefault(k, v)` -/
def setdefault (d : PyDict κ ν) (k : κ) (v : ν) : PyDict κ ν :=
  if k ∈ keys d then d else d ++ [(k, v)]

theorem set_new {d : PyDict κ ν} {k : κ} (new : k ∉ keys d) (v : ν) : set d k v = d ++ [(k, v)] :=
  if_neg new

theorem setdefault_new {d : PyDict κ ν} {k : κ} (new : k ∉ keys d) (v : ν) :
    setdefault d k v = d ++ [(k, v)] := if_neg new

theorem modify_new {d : PyDict κ ν} {k : κ} (new : k ∉ keys d) (f : ν → ν) : modify d k f = d := by
  refine (List.map_congr_left fun e member => ?_).trans (List.map_id d)
  exact if_neg fun same => new (List.mem_map.mpr ⟨e, member, same⟩)

theorem modify_last {d : PyDict κ ν} {k : κ} (new : k ∉ keys d) (v : ν) (f : ν → ν) :
    modify (d ++ [(k, v)]) k f = d ++ [(k, f v)] := by
  have first := modify_new new f
  rw [modify] at first ⊢
  rw [List.map_append, first, List.map_singleton, if_pos rfl]

theorem keys_modify (d : PyDict κ ν) (k : κ) (f : ν → ν) : keys (modify d k f) = keys d := by
  rw [keys, modify, List.map_map]
  apply List.map_congr_left
  intro e _
  rw [Function.comp_apply]
  split <;> rfl

theorem mem_keys_set {d : PyDict κ ν} {k k' : κ} {v : ν} :
    k' ∈ keys (set d k v) ↔ k' ∈ keys d ∨ k' = k := by
  rw [set]
  split
  case isTrue there =>
      rw [keys_modify]
      exact ⟨.inl, fun known => known.elim id fun same => same ▸ there⟩
  case isFalse =>
      rw [keys_append, List.mem_append]
      exact or_congr_right List.mem_singleton

theorem mem_keys_setdefault {d : PyDict κ ν} {k k' : κ} {v : ν} :
    k' ∈ keys (setdefault d k v) ↔ k' ∈ keys d ∨ k' = k := by
  rw [setdefault]
  split
  case isTrue there => exact ⟨.inl, fun known => known.elim id fun same => same ▸ there⟩
  case isFalse =>
      rw [keys_append, List.mem_append]
      exact or_congr_right List.mem_singleton

omit [DecidableEq κ] in
theorem mem_keys_foldl {α : Type} {step : PyDict κ ν → α → PyDict κ ν} {Q : α → κ → Prop}
    (adds : ∀ d x k, k ∈ keys (step d x) ↔ k ∈ keys d ∨ Q x k) {k : κ} (xs : List α) :
    ∀ d, k ∈ keys (xs.foldl step d) ↔ k ∈ keys d ∨ ∃ x ∈ xs, Q x k := by
  induction xs with
  | nil => exact fun d => by simp
  | cons x xs ih =>
      intro d
      rw [List.foldl_cons, ih, adds, or_assoc]
      simp only [List.mem_cons, or_and_right, exists_or, exists_eq_left]

theorem mem_keys_foldl_set {k : κ} (entries : List (κ × ν)) :
    k ∈ keys (entries.foldl (fun d e => set d e.1 e.2) []) ↔ ∃ e ∈ entries, k = e.1 := by
  have adds (d : PyDict κ ν) (e : κ × ν) (k : κ) :
      k ∈ keys (set d e.1 e.2) ↔ k ∈ keys d ∨ k = e.1 := mem_keys_set
  rw [mem_keys_foldl adds]
  exact or_iff_right List.not_mem_nil

theorem mem_foldl_setdefault {α : Type} (key : α → κ) (value : α → ν) {e : κ × ν} (xs : List α) :
    ∀ {d}, e ∈ xs.foldl (fun d x => setdefault d (key x) (value x)) d →
      e ∈ d ∨ ∃ x ∈ xs, (key x, value x) = e := by
  induction xs with
  | nil => exact fun member => .inl member
  | cons x xs ih =>
      intro d member
      obtain kept | ⟨y, later, same⟩ := ih member
      · have kept : e ∈ setdefault d (key x) (value x) := kept
        rw [setdefault] at kept
        split at kept
        · exact .inl kept
        · obtain old | new := List.mem_append.mp kept
          · exact .inl old
          · exact .inr ⟨x, List.mem_cons_self, (List.mem_singleton.mp new).symm⟩
      · exact .inr ⟨y, List.mem_cons_of_mem x later, same⟩

/-- A dictionary that is filled with distinct keys keeps what it is filled with. -/
theorem foldl_set {d : PyDict κ ν} : ∀ {entries : List (κ × ν)}, (entries.map Prod.fst).Nodup →
    (∀ k ∈ entries.map Prod.fst, k ∉ keys d) →
    entries.foldl (fun d e => set d e.1 e.2) d = d ++ entries := by
  intro entries
  induction entries generalizing d with
  | nil => exact fun _ _ => (List.append_nil d).symm
  | cons e entries ih =>
      intro distinct new
      obtain ⟨apart, distinct⟩ := List.nodup_cons.mp distinct
      rw [List.foldl_cons, set_new (new e.1 List.mem_cons_self), ih distinct]
      · rw [List.append_assoc, List.singleton_append]
      · intro k member
        rw [keys_append, List.mem_append, not_or]
        refine ⟨new k (List.mem_cons_of_mem _ member), fun same => apart ?_⟩
        exact List.mem_singleton.mp same ▸ member

/-! ## Reading an entry -/

variable [BEq κ] [LawfulBEq κ]

omit [DecidableEq κ] in
theorem lookup_eq_none_iff_keys {d : PyDict κ ν} {k : κ} : d.lookup k = none ↔ k ∉ keys d := by
  rw [List.lookup_eq_none_iff, keys, List.mem_map, not_exists]
  simp only [bne_iff_ne, not_and]
  exact forall_congr' fun e => forall_congr' fun _ => ne_comm

theorem lookup_modify (d : PyDict κ ν) (k : κ) (f : ν → ν) (k' : κ) :
    (modify d k f).lookup k' = if k' = k then (d.lookup k').map f else d.lookup k' := by
  induction d with
  | nil => simp [modify]
  | cons e d ih =>
      obtain ⟨key, value⟩ := e
      rw [modify] at ih ⊢
      rw [List.map_cons]
      by_cases here : key = k <;> by_cases asked : k' = key <;>
        simp_all [List.lookup_cons, beq_eq_false_iff_ne.mpr]

@[simp] theorem lookup_set (d : PyDict κ ν) (k : κ) (v : ν) (k' : κ) :
    (set d k v).lookup k' = if k' = k then some v else d.lookup k' := by
  unfold set
  split
  case isTrue there =>
      rw [lookup_modify]
      by_cases same : k' = k
      · obtain ⟨found, eq⟩ := Option.ne_none_iff_exists'.mp
          fun none => (lookup_eq_none_iff_keys.mp none) there
        rw [if_pos same, if_pos same, same, eq]
        rfl
      · rw [if_neg same, if_neg same]
  case isFalse new =>
      rw [List.lookup_append, List.lookup_cons, List.lookup_nil]
      by_cases same : k' = k
      · rw [if_pos same, same, lookup_eq_none_iff_keys.mpr new, beq_self_eq_true]
        rfl
      · rw [if_neg same, beq_eq_false_iff_ne.mpr same, Option.or_none]

theorem lookup_foldl_set (k : κ) (entries : List (κ × ν)) : ∀ d : PyDict κ ν,
    (entries.foldl (fun d e => set d e.1 e.2) d).lookup k =
      (entries.reverse.lookup k).or (d.lookup k) := by
  induction entries with
  | nil => exact fun d => rfl
  | cons e entries ih =>
      intro d
      rw [List.foldl_cons, ih, lookup_set, List.reverse_cons, List.lookup_append, Option.or_assoc,
        List.lookup_cons, List.lookup_nil]
      by_cases here : k = e.1
      · rw [if_pos here, beq_iff_eq.mpr here]
        rfl
      · rw [if_neg here, beq_eq_false_iff_ne.mpr here]
        rfl

theorem lookup_map {α : Type} (key : α → κ) (value : α → ν) (k : κ) (xs : List α) :
    (xs.map fun x => (key x, value x)).lookup k = (xs.find? (key · = k)).map value := by
  induction xs with
  | nil => rfl
  | cons x xs ih =>
      rw [List.map_cons, List.lookup_cons]
      by_cases here : key x = k
      · rw [List.find?_cons_of_pos (by simpa using here), beq_iff_eq.mpr here.symm]
        rfl
      · rw [List.find?_cons_of_neg (by simpa using here), beq_eq_false_iff_ne.mpr (Ne.symm here)]
        exact ih

/-- `d.pop(k, None)` -/
def pop (d : PyDict κ ν) (k : κ) : PyDict κ ν := d.filter fun e => e.1 ≠ k

@[simp] theorem lookup_pop (d : PyDict κ ν) (k k' : κ) :
    (pop d k).lookup k' = if k' = k then none else d.lookup k' := by
  rw [pop]
  induction d with
  | nil => exact (ite_self none).symm
  | cons e d ih =>
      obtain ⟨key, value⟩ := e
      by_cases popped : key = k
      · rw [List.filter_cons_of_neg (by simpa using popped), ih, List.lookup_cons, popped]
        by_cases same : k' = k
        · rw [if_pos same, if_pos same]
        · rw [if_neg same, if_neg same, beq_eq_false_iff_ne.mpr same]
      · rw [List.filter_cons_of_pos (by simpa using popped), List.lookup_cons, List.lookup_cons, ih]
        by_cases asked : k' = key
        · have other : ¬k' = k := fun same => popped (asked.symm.trans same)
          rw [if_neg other, if_neg other]
        · rw [beq_eq_false_iff_ne.mpr asked]

end PyDict

end Stage90.Lib

import Mathlib.Data.Char
import Mathlib.Data.List.Dedup
import Mathlib.Data.List.Lex
import Mathlib.Data.List.Sort
import Stage90.Lib.Instances
import Stage90.Lib.Rounds
import Stage90.Linker.Predict

/-!
# The link closure

`entry_closure.py` links, reads the undefined symbols, adds one object of the pool that
defines some of them, and links again.  A link leaves undefined what its objects refer to and
none of them defines; `read` is what is on disk under a path.
-/

set_option autoImplicit false

namespace Stage90.Linker

open Stage90.Lib

/-- The rows of `nm --defined-only`, and the symbols the object refers to. -/
structure Object where
  symbols : List (Str × Char)
  references : List Str

inductive Stop
  | duplicates
  | closed
  | limit
  | nothing
  | conflicts
  deriving DecidableEq

structure Closure where
  objs : List Str
  provided : List Str

section Tool
variable (read : Str → Object)

def definitions (path : Str) : List Str :=
  ((read path).symbols.filter fun row => row.2.isUpper).map Prod.fst

def undefinedIn (image : List Str) : List Str :=
  ((image.flatMap fun path => (read path).references).filter fun sym =>
    image.all fun path => sym ∉ definitions read path).dedup

def ConflictFree (image : List Str) : Prop :=
  image.Pairwise fun p q => ∀ sym ∈ definitions read p, sym ∉ definitions read q

instance (image : List Str) : Decidable (ConflictFree read image) :=
  inferInstanceAs (Decidable (List.Pairwise _ image))

/-- The undefined symbols, and whether there is a "multiple definition". -/
def link (image : List Str) : List Str × Bool :=
  (undefinedIn read image, !decide (ConflictFree read image))

variable (pool presets : List Str) (max : Int)

/-- Each pool object that defines an undefined symbol, "minus what is already in". -/
def candidates (undef objs : List Str) : List (Str × List Str) :=
  ((pool.dedup.filter fun obj => obj ∉ objs).map fun obj =>
    (obj, undef.filter fun sym => sym ∈ definitions read obj)).filter fun c => c.2 ≠ []

/-- The order of `(-len(closes), path)`. -/
def ranked (cands : List (Str × List Str)) : List (Str × List Str) :=
  cands.mergeSort fun a b =>
    decide (b.2.length < a.2.length ∨ (a.2.length = b.2.length ∧ a.1 ≤ b.1))

def clash (provided : List Str) (obj : Str) : List Str :=
  (definitions read obj).filter fun sym => sym ∈ provided

def closureRound (s : Closure) : Stop ⊕ Closure :=
  let undef := (link read (presets ++ s.objs)).1
  let dupes := (link read (presets ++ s.objs)).2
  if dupes then .inl .duplicates
  else if undef = [] then .inl .closed
  else if (s.objs.length : Int) ≥ max then .inl .limit
  else
    let cands := candidates read pool undef s.objs
    if cands = [] then .inl .nothing
    else
      match (ranked cands).find? fun c => clash read s.provided c.1 = [] with
      | none => .inl .conflicts
      | some (obj, _) => .inr ⟨s.objs ++ [obj], s.provided ++ definitions read obj⟩

def closureStart (seeds : List Str) : Closure where
  objs := seeds
  provided := (seeds ++ presets).flatMap (definitions read)

def closure (seeds : List Str) : Option (Stop × Closure) :=
  rounds (closureRound read pool presets max) (pool.length + 1) (closureStart read presets seeds)

/-! ## What is reported of the rest -/

inductive Kind
  | provided
  | runtime
  | nowhere
  | storage
  | code
  deriving DecidableEq

/-- `types.setdefault(name, typ)` over the pool. -/
def poolType (sym : Str) : Option Char :=
  (pool.flatMap fun obj => (read obj).symbols.filter fun row => row.2.isUpper).lookup sym

def kindOf (provided : List Str) (sym : Str) : Kind :=
  if sym ∈ provided then .provided
  else if "__aeabi".toList.isPrefixOf sym || "__gnu".toList.isPrefixOf sym then .runtime
  else
    match poolType read pool sym with
    | none => .nowhere
    | some typ => if typ ∈ "DBRSGC".toList then .storage else .code

/-! ## The rounds -/

/-- The running set names exactly what the linked objects define, and none of it twice. -/
structure Sound (s : Closure) : Prop where
  provided : ∀ sym, sym ∈ s.provided ↔ ∃ p ∈ presets ++ s.objs, sym ∈ definitions read p
  free : ConflictFree read (presets ++ s.objs)

variable {read pool presets max}

theorem mem_undefinedIn {image : List Str} {sym : Str} :
    sym ∈ undefinedIn read image ↔
      (∃ p ∈ image, sym ∈ (read p).references) ∧ ∀ p ∈ image, sym ∉ definitions read p := by
  simp [undefinedIn, List.mem_dedup, List.mem_filter, List.mem_flatMap]

theorem mem_candidates {undef objs : List Str} {c : Str × List Str}
    (member : c ∈ candidates read pool undef objs) :
    c.1 ∈ pool ∧ c.1 ∉ objs ∧ ∃ sym ∈ definitions read c.1, sym ∈ undef := by
  simp only [candidates, List.mem_filter, List.mem_map, List.mem_dedup, decide_eq_true_eq] at member
  obtain ⟨⟨obj, ⟨inPool, isNew⟩, rfl⟩, some⟩ := member
  obtain ⟨sym, found⟩ := List.exists_mem_of_ne_nil _ some
  rw [List.mem_filter, decide_eq_true_eq] at found
  exact ⟨inPool, isNew, sym, found.2, found.1⟩

theorem candidates_complete {undef objs : List Str} {obj sym : Str} (inPool : obj ∈ pool)
    (isNew : obj ∉ objs) (defines : sym ∈ definitions read obj) (undefined : sym ∈ undef) :
    ∃ c ∈ candidates read pool undef objs, c.1 = obj := by
  refine ⟨(obj, undef.filter fun sym => sym ∈ definitions read obj), ?_, rfl⟩
  simp only [candidates, List.mem_filter, List.mem_map, List.mem_dedup, decide_eq_true_eq]
  refine ⟨⟨obj, ⟨inPool, isNew⟩, rfl⟩, List.ne_nil_of_mem (a := sym) ?_⟩
  exact List.mem_filter.mpr ⟨undefined, decide_eq_true defines⟩

theorem clash_nil {provided : List Str} {obj : Str} :
    clash read provided obj = [] ↔ ∀ sym ∈ definitions read obj, sym ∉ provided := by
  simp [clash, List.filter_eq_nil_iff]

theorem closureRound_next {s t : Closure} (step : closureRound read pool presets max s = .inr t) :
    ∃ obj ∈ pool, obj ∉ s.objs ∧ t = ⟨s.objs ++ [obj], s.provided ++ definitions read obj⟩ ∧
      (∃ sym ∈ definitions read obj, sym ∈ undefinedIn read (presets ++ s.objs)) ∧
      ∀ sym ∈ definitions read obj, sym ∉ s.provided := by
  unfold closureRound at step
  by_cases dupes : (link read (presets ++ s.objs)).2 = true
  · rw [if_pos dupes] at step
    exact absurd step nofun
  by_cases closed : (link read (presets ++ s.objs)).1 = []
  · rw [if_neg dupes, if_pos closed] at step
    exact absurd step nofun
  by_cases limit : (s.objs.length : Int) ≥ max
  · rw [if_neg dupes, if_neg closed, if_pos limit] at step
    exact absurd step nofun
  rw [if_neg dupes, if_neg closed, if_neg limit] at step
  dsimp only [link] at step
  by_cases empty : candidates read pool (undefinedIn read (presets ++ s.objs)) s.objs = []
  · rw [if_pos empty] at step
    exact absurd step nofun
  rw [if_neg empty] at step
  split at step
  · exact absurd step nofun
  · rename_i obj closes found
    have chosen := List.mem_of_find?_eq_some found
    have candidate : (obj, closes) ∈ candidates read pool
        (undefinedIn read (presets ++ s.objs)) s.objs :=
      List.mem_mergeSort.mp chosen
    obtain ⟨inPool, isNew, closes⟩ := mem_candidates candidate
    have free : clash read s.provided obj = [] := by
      simpa using List.find?_some found
    exact ⟨obj, inPool, isNew, (Sum.inr.inj step).symm, closes, clash_nil.mp free⟩

theorem Sound.next {s t : Closure} (sound : Sound read presets s)
    (step : closureRound read pool presets max s = .inr t) : Sound read presets t := by
  obtain ⟨obj, _, _, rfl, _, free⟩ := closureRound_next step
  constructor
  · intro sym
    rw [List.mem_append, sound.provided, ← List.append_assoc]
    constructor
    · rintro (⟨p, linked, defines⟩ | defines)
      · exact ⟨p, List.mem_append_left _ linked, defines⟩
      · exact ⟨obj, List.mem_append_right _ (List.mem_singleton_self obj), defines⟩
    · rintro ⟨p, linked, defines⟩
      rcases List.mem_append.mp linked with before | added
      · exact Or.inl ⟨p, before, defines⟩
      · rw [List.mem_singleton] at added
        exact Or.inr (added ▸ defines)
  · rw [ConflictFree, ← List.append_assoc, List.pairwise_append]
    refine ⟨sound.free, List.pairwise_singleton _ _, ?_⟩
    intro p linked q added sym defines again
    rw [List.mem_singleton] at added
    subst added
    exact free sym again ((sound.provided sym).mpr ⟨p, linked, defines⟩)

theorem Sound.start {seeds : List Str} (free : ConflictFree read (presets ++ seeds)) :
    Sound read presets (closureStart read presets seeds) := by
  refine ⟨fun sym => ?_, free⟩
  simp only [closureStart, List.mem_flatMap, List.mem_append, or_comm]

def outside (pool : List Str) (s : Closure) : Nat := (pool.filter fun obj => obj ∉ s.objs).length

theorem outside_next {s t : Closure} (step : closureRound read pool presets max s = .inr t) :
    outside pool t < outside pool s := by
  obtain ⟨obj, inPool, isNew, rfl, _, _⟩ := closureRound_next step
  have fewer : (pool.filter fun p => p ∉ s.objs ++ [obj]) =
      (pool.filter fun p => p ∉ s.objs).filter fun p => p ≠ obj := by
    rw [List.filter_filter]
    exact List.filter_congr fun p _ => by simp [and_comm]
  rw [outside, outside, fewer, List.length_filter_lt_length_iff_exists]
  exact ⟨obj, List.mem_filter.mpr ⟨inPool, by simpa using isNew⟩, by simp⟩

theorem closureRound_end {s : Closure} {stop : Stop} (sound : Sound read presets s)
    (ended : closureRound read pool presets max s = .inl stop) :
    stop ≠ .duplicates ∧
      ((s.objs.length : Int) < max → ∀ obj ∈ pool,
        (∃ sym ∈ definitions read obj, sym ∈ undefinedIn read (presets ++ s.objs)) →
        ∃ sym ∈ definitions read obj, ∃ p ∈ presets ++ s.objs, sym ∈ definitions read p) := by
  have free : ¬ (link read (presets ++ s.objs)).2 = true := by simp [link, sound.free]
  unfold closureRound at ended
  rw [if_neg free] at ended
  by_cases closed : (link read (presets ++ s.objs)).1 = []
  · rw [if_pos closed] at ended
    rw [← Sum.inl.inj ended]
    refine ⟨nofun, fun _ obj _ ⟨sym, _, undefined⟩ => ?_⟩
    have none_left : undefinedIn read (presets ++ s.objs) = [] := closed
    exact absurd (none_left ▸ undefined) List.not_mem_nil
  by_cases limit : (s.objs.length : Int) ≥ max
  · rw [if_neg closed, if_pos limit] at ended
    rw [← Sum.inl.inj ended]
    exact ⟨nofun, fun below => absurd below (Int.not_lt.mpr limit)⟩
  rw [if_neg closed, if_neg limit] at ended
  dsimp only [link] at ended
  -- A linked object defines nothing that is still undefined.
  have out : ∀ obj sym, sym ∈ definitions read obj →
      sym ∈ undefinedIn read (presets ++ s.objs) → obj ∉ s.objs := by
    intro obj sym defines undefined linked
    exact (mem_undefinedIn.mp undefined).2 obj (List.mem_append_right _ linked) defines
  by_cases empty : candidates read pool (undefinedIn read (presets ++ s.objs)) s.objs = []
  · rw [if_pos empty] at ended
    rw [← Sum.inl.inj ended]
    refine ⟨nofun, fun _ obj inPool ⟨sym, defines, undefined⟩ => ?_⟩
    obtain ⟨c, member, _⟩ := candidates_complete inPool (out obj sym defines undefined) defines undefined
    exact absurd (empty ▸ member) List.not_mem_nil
  rw [if_neg empty] at ended
  split at ended
  · rename_i found
    rw [← Sum.inl.inj ended]
    refine ⟨nofun, fun _ obj inPool ⟨sym, defines, undefined⟩ => ?_⟩
    obtain ⟨c, member, rfl⟩ :=
      candidates_complete inPool (out obj sym defines undefined) defines undefined
    have clashes : clash read s.provided c.1 ≠ [] := by
      simpa using List.find?_eq_none.mp found c (List.mem_mergeSort.mpr member)
    obtain ⟨again, both⟩ := List.exists_mem_of_ne_nil _ clashes
    simp only [clash, List.mem_filter, decide_eq_true_eq] at both
    exact ⟨again, both.1, (sound.provided again).mp both.2⟩
  · exact absurd ended nofun

/-- The loop ends, and along it the linked objects stay free of conflicts, each one added for a
symbol that was undefined.  Below the limit nothing it leaves out could have been linked. -/
theorem closure_sound (read : Str → Object) (pool presets seeds : List Str) (max : Int)
    (free : ConflictFree read (presets ++ seeds)) :
    ∃ stop final, closure read pool presets max seeds = some (stop, final) ∧
      stop ≠ .duplicates ∧
      Reached (closureRound read pool presets max) (closureStart read presets seeds) final ∧
      (∀ s, Reached (closureRound read pool presets max) (closureStart read presets seeds) s →
        ConflictFree read (presets ++ s.objs) ∧
        ∀ t, closureRound read pool presets max s = .inr t →
          ∃ obj ∈ pool, t.objs = s.objs ++ [obj] ∧
            ∃ sym ∈ definitions read obj, sym ∈ undefinedIn read (presets ++ s.objs)) ∧
      ((final.objs.length : Int) < max → ∀ obj ∈ pool,
        (∃ sym ∈ definitions read obj, sym ∈ undefinedIn read (presets ++ final.objs)) →
        ∃ sym ∈ definitions read obj, ∃ p ∈ presets ++ final.objs, sym ∈ definitions read p) := by
  have start : Sound read presets (closureStart read presets seeds) := Sound.start free
  have kept : ∀ s, Reached (closureRound read pool presets max) (closureStart read presets seeds) s →
      Sound read presets s := fun s reached => reached.invariant (fun _ _ => Sound.next) start
  have few : outside pool (closureStart read presets seeds) < pool.length + 1 :=
    Nat.lt_succ_of_le (List.length_filter_le _ _)
  obtain ⟨stop, final, run, reached, ended⟩ := rounds_ends (outside pool)
    (fun t u (sound : Sound read presets t) step => ⟨sound.next step, outside_next step⟩) start few
  obtain ⟨single, complete⟩ := closureRound_end (kept final reached) ended
  refine ⟨stop, final, run, single, reached, fun s reached => ⟨(kept s reached).free, ?_⟩, complete⟩
  intro t step
  obtain ⟨obj, inPool, _, rfl, closes, _⟩ := closureRound_next step
  exact ⟨obj, inPool, rfl, closes⟩

/-- `a` refers to a symbol that `b` defines. -/
def pair (path : Str) : Object :=
  if path = ['a'] then ⟨[(['f'], 'T')], [['g']]⟩ else ⟨[(['g'], 'T'), (['h'], 'b')], []⟩

theorem closure_sound_pair :
    ConflictFree pair [['a']] ∧ ∃ stop final,
      closure pair [['b']] [] 400 [['a']] = some (stop, final) ∧ stop ≠ .duplicates :=
  have free : ConflictFree pair ([] ++ [['a']]) := by decide
  have ⟨stop, final, run, single, _⟩ := closure_sound pair [['b']] [] [['a']] 400 free
  ⟨free, stop, final, run, single⟩

end Tool

end Stage90.Linker

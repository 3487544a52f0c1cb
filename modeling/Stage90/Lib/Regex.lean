import Mathlib.Data.List.Basic
import Mathlib.Data.List.Range

/-!
# Backtracking regular expressions

A pattern is run from a position of a text and gives the ends it can reach, in the order in
which a backtracking matcher tries them, each with the groups it has set.  Repetition is of
a character class only, and greedy.  `finditer` takes the leftmost matches that do not
overlap, `subn` writes a text for each.
-/

set_option autoImplicit false

namespace Stage90.Lib

abbrev Text := List Char

/-- The text from one position up to another, empty where these are in the wrong order. -/
def slice (text : Text) (start stop : Nat) : Text := (text.take stop).drop start

inductive Re
  | empty
  | one (p : Char → Bool)
  | many (p : Char → Bool)
  | seq (a b : Re)
  | alt (a b : Re)
  | group (k : Nat) (a : Re)
  | lineStart
  | lineEnd
  | wordEdge

abbrev Groups := List (Nat × Nat × Nat)

structure Match where
  start : Nat
  stop : Nat
  groups : Groups
  deriving DecidableEq, Repr

namespace Re

def chars (cs : Text) : Re := cs.foldr (fun c r => .seq (.one (· == c)) r) .empty

def lit (w : String) : Re := chars w.toList

def plus (p : Char → Bool) : Re := .seq (.one p) (.many p)

def seqs (rs : List Re) : Re := rs.foldr .seq .empty

/-- The words of a list, the first of them tried first. -/
def oneOf : List String → Re
  | [] => .one fun _ => false
  | [w] => lit w
  | w :: ws => .alt (lit w) (oneOf ws)

def runLength (p : Char → Bool) : Text → Nat
  | [] => 0
  | c :: cs => if p c then runLength p cs + 1 else 0

variable (word : Char → Bool) (text : Text)

def wordBefore (i : Nat) : Bool := decide (0 < i) && text[i - 1]?.any word

def run : Re → Nat → Groups → List (Nat × Groups)
  | .empty, i, gs => [(i, gs)]
  | .one p, i, gs => if text[i]?.any p then [(i + 1, gs)] else []
  | .many p, i, gs =>
      (List.range (runLength p (text.drop i) + 1)).reverse.map fun k => (i + k, gs)
  | .seq a b, i, gs => (run a i gs).flatMap fun r => run b r.1 r.2
  | .alt a b, i, gs => run a i gs ++ run b i gs
  | .group k a, i, gs => (run a i gs).map fun r => (r.1, (k, i, r.1) :: r.2)
  | .lineStart, i, gs => if i = 0 ∨ text[i - 1]? = some '\n' then [(i, gs)] else []
  | .lineEnd, i, gs => if text.length ≤ i ∨ text[i]? = some '\n' then [(i, gs)] else []
  | .wordEdge, i, gs => if wordBefore word text i ≠ text[i]?.any word then [(i, gs)] else []

def matchAt (r : Re) (i : Nat) : Option Match :=
  (run word text r i []).head?.map fun found => ⟨i, found.1, found.2⟩

def search (r : Re) (start : Nat) : Option Match :=
  (List.range' start (text.length + 1 - start)).findSome? (matchAt word text r)

/-- The matches at the positions of a list, none before the end of the one it follows.  A
match takes up a character at least. -/
def scan (r : Re) : List Nat → Nat → List Match
  | [], _ => []
  | i :: is, free =>
      if i < free then scan r is free
      else
        match matchAt word text r i with
        | none => scan r is free
        | some m => m :: scan r is (max m.stop (i + 1))

def finditer (r : Re) : List Match := scan word text r (List.range (text.length + 1)) 0

end Re

/-- Every class of the pattern is part of the class. -/
def Re.Over (p : Char → Prop) : Re → Prop
  | .one q => ∀ c, q c → p c
  | .many q => ∀ c, q c → p c
  | .seq a b => a.Over p ∧ b.Over p
  | .alt a b => a.Over p ∧ b.Over p
  | .group _ a => a.Over p
  | _ => True

/-- The text of a group, empty where it has not been set. -/
def Match.group (text : Text) (m : Match) (k : Nat) : Text :=
  match m.groups.lookup k with
  | some span => slice text span.1 span.2
  | none => []

def Match.text (text : Text) (m : Match) : Text := slice text m.start m.stop

structure Edit where
  start : Nat
  stop : Nat
  new : Text
  deriving DecidableEq, Repr

/-- The text with every edit made, each from the end of the one before it. -/
def splice (text : Text) : Nat → List Edit → Text
  | pos, [] => text.drop pos
  | pos, e :: es => slice text pos e.start ++ e.new ++ splice text e.stop es

def outermost : Nat → List Edit → List Edit
  | _, [] => []
  | pos, e :: es => if e.start < pos then outermost pos es else e :: outermost e.stop es

def InOrder : Nat → List Edit → Prop
  | _, [] => True
  | pos, e :: es => pos ≤ e.start ∧ e.start ≤ e.stop ∧ InOrder e.stop es

/-- The edits are made in place, each once, and all other text is left as it is. -/
def Spliced (text : Text) (edits : List Edit) (out : Text) : Prop :=
  out = splice text 0 (outermost 0 edits)

/-- What a pattern and a replacement for its matches do to a text. -/
structure Rule where
  pattern : Re
  new : Text → Match → Text

def Rule.edits (word : Char → Bool) (rule : Rule) (text : Text) : List Edit :=
  (rule.pattern.finditer word text).map fun m => ⟨m.start, m.stop, rule.new text m⟩

def Rule.subn (word : Char → Bool) (rule : Rule) (text : Text) : Text × Nat :=
  (splice text 0 (rule.edits word text), (rule.edits word text).length)

section Slices
variable {text : Text}

attribute [local simp] Re.run Re.scan splice outermost Re.runLength InOrder

theorem slice_of_prefix {cs : Text} {i : Nat} (stands : cs <+: text.drop i) :
    slice text i (i + cs.length) = cs := by
  rw [slice, List.drop_take, Nat.add_sub_cancel_left]
  exact (List.prefix_iff_eq_take.mp stands).symm

theorem prefix_append {i : Nat} {xs ys : Text} (first : xs <+: text.drop i)
    (second : ys <+: text.drop (i + xs.length)) : xs ++ ys <+: text.drop i := by
  obtain ⟨rest, same⟩ := first
  rw [← List.drop_drop, ← same, List.drop_left] at second
  rw [← same]
  exact (List.prefix_append_right_inj xs).mpr second

theorem drop_eq_cons_iff {i : Nat} {c : Char} {rest : Text} :
    text.drop i = c :: rest ↔ text[i]? = some c ∧ text.drop (i + 1) = rest := by
  by_cases inside : i < text.length
  · rw [List.drop_eq_getElem_cons inside, List.getElem?_eq_getElem inside, List.cons.injEq,
      Option.some_inj]
  · rw [List.drop_eq_nil_of_le (Nat.not_lt.mp inside),
      List.getElem?_eq_none (Nat.not_lt.mp inside)]
    simp

end Slices

namespace Re
variable {word : Char → Bool} {text : Text}

theorem getElem?_of_lt_runLength {p : Char → Bool} :
    ∀ {cs : Text} {k : Nat}, k < runLength p cs → ∃ c, cs[k]? = some c ∧ p c := by
  intro cs
  induction cs with
  | nil =>
      intro k short
      simp [runLength] at short
  | cons c cs ih =>
      intro k short
      rw [runLength] at short
      by_cases fits : p c
      · rw [if_pos fits] at short
        cases k with
        | zero => exact ⟨c, rfl, fits⟩
        | succ k => exact ih (Nat.lt_of_succ_lt_succ short)
      · rw [if_neg fits] at short
        exact absurd short (Nat.not_lt_zero k)

theorem mem_run_one {p : Char → Bool} {i : Nat} {gs : Groups} {found : Nat × Groups} :
    found ∈ run word text (.one p) i gs ↔ found = (i + 1, gs) ∧ ∃ c, text[i]? = some c ∧ p c := by
  rw [run]
  cases text[i]? with
  | none => simp
  | some c => by_cases fits : p c <;> simp [fits]

theorem mem_run_many {p : Char → Bool} {i : Nat} {gs : Groups} {found : Nat × Groups} :
    found ∈ run word text (.many p) i gs ↔
      ∃ k ≤ runLength p (text.drop i), found = (i + k, gs) := by
  simp only [run, List.mem_map, List.mem_reverse, List.mem_range, Nat.lt_succ_iff]
  constructor
  · intro ⟨k, short, same⟩
    exact ⟨k, short, same.symm⟩
  · intro ⟨k, short, same⟩
    exact ⟨k, short, same.symm⟩

theorem mem_run_seq {a b : Re} {i : Nat} {gs : Groups} {found : Nat × Groups} :
    found ∈ run word text (.seq a b) i gs ↔
      ∃ mid ∈ run word text a i gs, found ∈ run word text b mid.1 mid.2 := by
  rw [run, List.mem_flatMap]

theorem mem_run_alt {a b : Re} {i : Nat} {gs : Groups} {found : Nat × Groups} :
    found ∈ run word text (.alt a b) i gs ↔
      found ∈ run word text a i gs ∨ found ∈ run word text b i gs := by
  rw [run, List.mem_append]

theorem mem_run_group {k : Nat} {a : Re} {i : Nat} {gs : Groups} {found : Nat × Groups} :
    found ∈ run word text (.group k a) i gs ↔
      ∃ inner ∈ run word text a i gs, found = (inner.1, (k, i, inner.1) :: inner.2) := by
  simp only [run, List.mem_map, eq_comm]

theorem mem_run_chars {cs : Text} :
    ∀ {i : Nat} {gs : Groups} {found : Nat × Groups}, found ∈ run word text (chars cs) i gs ↔
      found = (i + cs.length, gs) ∧ cs <+: text.drop i := by
  induction cs with
  | nil =>
      intro i gs found
      rw [chars, List.foldr_nil, run, List.mem_singleton]
      exact ⟨fun same => ⟨same, List.nil_prefix⟩, fun both => both.1⟩
  | cons c cs ih =>
      intro i gs found
      have step : found ∈ run word text (chars (c :: cs)) i gs ↔
          ∃ mid ∈ run word text (.one (· == c)) i gs,
            found ∈ run word text (chars cs) mid.1 mid.2 := mem_run_seq
      have next : i + (c :: cs).length = i + 1 + cs.length := by
        rw [List.length_cons]
        omega
      rw [step, next]
      constructor
      · intro ⟨mid, first, rest⟩
        obtain ⟨rfl, c', at_i, same⟩ := mem_run_one.mp first
        obtain ⟨rfl, stands⟩ := ih.mp rest
        obtain rfl : c' = c := beq_iff_eq.mp same
        refine ⟨rfl, ?_⟩
        rw [drop_eq_cons_iff.mpr ⟨at_i, rfl⟩]
        exact List.cons_prefix_cons.mpr ⟨rfl, stands⟩
      · intro ⟨ends, rest, stands⟩
        obtain ⟨at_i, behind⟩ := drop_eq_cons_iff.mp stands.symm
        exact ⟨(i + 1, gs), mem_run_one.mpr ⟨rfl, c, at_i, beq_self_eq_true c⟩,
          ih.mpr ⟨ends, rest, behind.symm⟩⟩

theorem mem_run_oneOf {ws : List String} :
    ∀ {i : Nat} {gs : Groups} {found : Nat × Groups}, found ∈ run word text (oneOf ws) i gs →
      ∃ w ∈ ws, found ∈ run word text (lit w) i gs := by
  induction ws with
  | nil =>
      intro i gs found mem
      obtain ⟨_, _, _, no⟩ := mem_run_one.mp mem
      exact absurd no Bool.false_ne_true
  | cons w ws ih =>
      intro i gs found mem
      cases ws with
      | nil => exact ⟨w, List.mem_singleton_self w, mem⟩
      | cons w' ws =>
          cases mem_run_alt.mp mem with
          | inl first => exact ⟨w, List.mem_cons_self, first⟩
          | inr later =>
              obtain ⟨w'', among, found⟩ := ih later
              exact ⟨w'', List.mem_cons_of_mem w among, found⟩

theorem run_over {p : Char → Prop} {r : Re} (within : r.Over p) :
    ∀ {i : Nat} {gs : Groups} {found : Nat × Groups}, found ∈ run word text r i gs →
      i ≤ found.1 ∧ ∀ k, i ≤ k → k < found.1 → ∃ c, text[k]? = some c ∧ p c := by
  induction r with
  | empty =>
      intro i gs found mem
      rw [run, List.mem_singleton] at mem
      subst mem
      exact ⟨Nat.le_refl i, by omega⟩
  | one q =>
      intro i gs found mem
      obtain ⟨rfl, c, at_i, fits⟩ := mem_run_one.mp mem
      refine ⟨Nat.le_succ i, fun k from_i before => ⟨c, ?_, within c fits⟩⟩
      rw [show k = i by omega, at_i]
  | many q =>
      intro i gs found mem
      obtain ⟨n, short, rfl⟩ := mem_run_many.mp mem
      refine ⟨Nat.le_add_right i n, fun k from_i before => ?_⟩
      obtain ⟨c, at_k, fits⟩ :=
        getElem?_of_lt_runLength (show k - i < runLength q (text.drop i) by omega)
      rw [List.getElem?_drop, Nat.add_sub_cancel' from_i] at at_k
      exact ⟨c, at_k, within c fits⟩
  | seq a b iha ihb =>
      intro i gs found mem
      obtain ⟨mid, first, second⟩ := mem_run_seq.mp mem
      have left := iha within.1 first
      have right := ihb within.2 second
      refine ⟨left.1.trans right.1, fun k from_i before => ?_⟩
      by_cases early : k < mid.1
      · exact left.2 k from_i early
      · exact right.2 k (Nat.not_lt.mp early) before
  | alt a b iha ihb =>
      intro i gs found mem
      cases mem_run_alt.mp mem with
      | inl first => exact iha within.1 first
      | inr second => exact ihb within.2 second
  | group n a iha =>
      intro i gs found mem
      obtain ⟨inner, first, rfl⟩ := mem_run_group.mp mem
      have body := iha within first
      exact ⟨body.1, body.2⟩
  | lineStart | lineEnd | wordEdge =>
      intro i gs found mem
      rw [run] at mem
      split at mem
      · rw [List.mem_singleton] at mem
        subst mem
        exact ⟨Nat.le_refl i, by omega⟩
      · exact absurd mem List.not_mem_nil

theorem over_chars {p : Char → Prop} {cs : Text} (each : ∀ c ∈ cs, p c) : (chars cs).Over p := by
  induction cs with
  | nil => trivial
  | cons c cs ih =>
      obtain ⟨first, rest⟩ := List.forall_mem_cons.mp each
      refine ⟨fun c' same => ?_, ih rest⟩
      rw [beq_iff_eq.mp same]
      exact first

theorem over_true (r : Re) : r.Over fun _ => True := by
  induction r with
  | one _ | many _ => exact fun _ _ => trivial
  | seq a b iha ihb | alt a b iha ihb => exact ⟨iha, ihb⟩
  | group _ a iha => exact iha
  | empty | lineStart | lineEnd | wordEdge => trivial

theorem matchAt_eq_some {r : Re} {i : Nat} {m : Match} (found : matchAt word text r i = some m) :
    m.start = i ∧ (m.stop, m.groups) ∈ run word text r i [] := by
  rw [matchAt, Option.map_eq_some_iff] at found
  obtain ⟨ends, first, rfl⟩ := found
  exact ⟨rfl, List.mem_of_head? first⟩

theorem start_le_stop {r : Re} {i : Nat} {m : Match} (found : matchAt word text r i = some m) :
    m.start ≤ m.stop := by
  obtain ⟨rfl, mem⟩ := matchAt_eq_some found
  exact (run_over (over_true r) mem).1

theorem stop_le_length {r : Re} {i : Nat} {m : Match} (within : i ≤ text.length)
    (found : matchAt word text r i = some m) : m.stop ≤ text.length := by
  obtain ⟨rfl, mem⟩ := matchAt_eq_some found
  by_contra past
  obtain ⟨c, at_end, _⟩ := (run_over (over_true r) mem).2 text.length within (by omega)
  rw [List.getElem?_eq_none (Nat.le_refl _)] at at_end
  exact absurd at_end (Option.some_ne_none c).symm

theorem mem_scan {r : Re} {m : Match} :
    ∀ {is : List Nat} {free : Nat}, m ∈ scan word text r is free →
      m.start ∈ is ∧ matchAt word text r m.start = some m ∧ free ≤ m.start := by
  intro is
  induction is with
  | nil =>
      intro free mem
      exact absurd mem List.not_mem_nil
  | cons i is ih =>
      intro free mem
      rw [scan] at mem
      split at mem
      · have later := ih mem
        exact ⟨List.mem_cons_of_mem i later.1, later.2⟩
      · rename_i reached
        cases here : matchAt word text r i with
        | none =>
            rw [here] at mem
            have later := ih mem
            exact ⟨List.mem_cons_of_mem i later.1, later.2⟩
        | some m' =>
            rw [here] at mem
            cases List.mem_cons.mp mem with
            | inl same =>
                subst same
                have start := (matchAt_eq_some here).1
                rw [start]
                exact ⟨List.mem_cons_self, here, Nat.not_lt.mp reached⟩
            | inr later =>
                have later := ih later
                exact ⟨List.mem_cons_of_mem i later.1, later.2.1, by omega⟩

theorem mem_finditer {r : Re} {m : Match} (mem : m ∈ finditer word text r) :
    m.start ≤ text.length ∧ matchAt word text r m.start = some m := by
  have found := mem_scan mem
  exact ⟨Nat.lt_succ_iff.mp (List.mem_range.mp found.1), found.2.1⟩

theorem findSome?_range' {α : Type} {f : Nat → Option α} {b : α} (n : Nat) :
    ∀ start, (List.range' start n).findSome? f = some b ↔
      ∃ i, start ≤ i ∧ i < start + n ∧ f i = some b ∧ ∀ j, start ≤ j → j < i → f j = none := by
  induction n with
  | zero =>
      intro start
      constructor
      · intro found
        exact absurd found (Option.some_ne_none b).symm
      · intro ⟨i, from_start, before, _⟩
        omega
  | succ n ih =>
      intro start
      rw [List.range'_succ, List.findSome?_cons]
      cases here : f start with
      | some b' =>
          constructor
          · intro same
            exact ⟨start, Nat.le_refl start, by omega, here.trans same, by omega⟩
          · intro ⟨i, from_start, before, found, none_before⟩
            by_cases first : i = start
            · rw [← here, ← first, found]
            · have := none_before start (Nat.le_refl start) (by omega)
              rw [here] at this
              exact absurd this (Option.some_ne_none b')
      | none =>
          refine (ih (start + 1)).trans ⟨?_, ?_⟩
          · intro ⟨i, from_start, before, found, none_before⟩
            refine ⟨i, by omega, by omega, found, fun j from_j before_j => ?_⟩
            by_cases first : j = start
            · rw [first, here]
            · exact none_before j (by omega) before_j
          · intro ⟨i, from_start, before, found, none_before⟩
            have other : i ≠ start := by
              intro first
              rw [first, here] at found
              exact absurd found.symm (Option.some_ne_none b)
            exact ⟨i, by omega, by omega, found, fun j from_j => none_before j (by omega)⟩

theorem scan_range'_of_le {r : Re} (n : Nat) : ∀ {start free : Nat}, free ≤ start →
    scan word text r (List.range' start n) free = scan word text r (List.range' start n) start := by
  induction n with
  | zero => exact fun _ => rfl
  | succ n ih =>
      intro start free reached
      rw [List.range'_succ, scan, scan, if_neg (Nat.not_lt.mpr reached),
        if_neg (Nat.lt_irrefl start)]
      cases matchAt word text r start with
      | some m => rfl
      | none =>
          dsimp only
          rw [ih (reached.trans (Nat.le_succ start)), ih (Nat.le_succ start)]

theorem scan_skip {r : Re} (n : Nat) : ∀ {start free : Nat}, start ≤ free → free ≤ start + n →
    scan word text r (List.range' start n) free =
      scan word text r (List.range' free (start + n - free)) free := by
  induction n with
  | zero =>
      intro start free from_start before
      rw [show start + 0 - free = 0 by omega]
      rfl
  | succ n ih =>
      intro start free from_start before
      by_cases here : free = start
      · rw [here, Nat.add_sub_cancel_left]
      · rw [List.range'_succ, scan, if_pos (by omega), ih (by omega) (by omega),
          show start + 1 + n = start + (n + 1) by omega]

def scanFrom (word : Char → Bool) (text : Text) (r : Re) (start : Nat) : List Match :=
  scan word text r (List.range' start (text.length + 1 - start)) start

theorem finditer_eq (r : Re) : finditer word text r = scanFrom word text r 0 := by
  rw [finditer, scanFrom, List.range_eq_range', Nat.sub_zero]

theorem scanFrom_eq_nil {r : Re} {start : Nat}
    (none : ∀ i, start ≤ i → matchAt word text r i = none) : scanFrom word text r start = [] := by
  apply List.eq_nil_iff_forall_not_mem.mpr
  intro m mem
  obtain ⟨_, found, reached⟩ := mem_scan mem
  rw [none m.start reached] at found
  exact absurd found (Option.some_ne_none m).symm

theorem scanFrom_of_none {r : Re} {start : Nat} (within : start ≤ text.length)
    (none : matchAt word text r start = none) :
    scanFrom word text r start = scanFrom word text r (start + 1) := by
  have count : text.length + 1 - start = text.length + 1 - (start + 1) + 1 := by omega
  rw [scanFrom, count, List.range'_succ, scan, if_neg (Nat.lt_irrefl start), none]
  exact scan_range'_of_le _ (Nat.le_succ start)

theorem scanFrom_of_some {r : Re} {start : Nat} {m : Match}
    (found : matchAt word text r start = some m) (long : start < m.stop)
    (inside : m.stop ≤ text.length) :
    scanFrom word text r start = m :: scanFrom word text r m.stop := by
  have count : text.length + 1 - start = text.length + 1 - (start + 1) + 1 := by omega
  have left : start + 1 + (text.length + 1 - (start + 1)) - m.stop = text.length + 1 - m.stop := by
    omega
  rw [scanFrom, count, List.range'_succ, scan, if_neg (Nat.lt_irrefl start), found]
  dsimp only
  rw [Nat.max_eq_left long, scan_skip _ long (by omega), left, scanFrom]

theorem search_eq_some {r : Re} {start : Nat} {m : Match} :
    search word text r start = some m ↔
      start ≤ m.start ∧ m.start ≤ text.length ∧ matchAt word text r m.start = some m ∧
        ∀ i, start ≤ i → i < m.start → matchAt word text r i = none := by
  rw [search, findSome?_range']
  constructor
  · intro ⟨i, from_start, before, found, none_before⟩
    obtain ⟨rfl, _⟩ := matchAt_eq_some found
    exact ⟨from_start, by omega, found, none_before⟩
  · intro ⟨from_start, within, found, none_before⟩
    exact ⟨m.start, from_start, by omega, found, none_before⟩

end Re

section Edits
variable {text : Text}

theorem InOrder.mono {pos pos' : Nat} {es : List Edit} (ordered : InOrder pos es)
    (earlier : pos' ≤ pos) : InOrder pos' es := by
  cases es with
  | nil => trivial
  | cons e es => exact ⟨earlier.trans ordered.1, ordered.2⟩

theorem outermost_of_inOrder : ∀ {pos : Nat} {es : List Edit}, InOrder pos es →
    outermost pos es = es := by
  intro pos es
  induction es generalizing pos with
  | nil => exact fun _ => rfl
  | cons e es ih =>
      intro ordered
      rw [outermost, if_neg (Nat.not_lt.mpr ordered.1), ih ordered.2.2]

theorem inOrder_scan {word : Char → Bool} {r : Re} {new : Match → Text} (is : List Nat) :
    ∀ free, InOrder free ((r.scan word text is free).map fun m => ⟨m.start, m.stop, new m⟩) := by
  induction is with
  | nil => exact fun _ => trivial
  | cons i is ih =>
      intro free
      rw [Re.scan]
      split
      · exact ih free
      · rename_i reached
        split
        · exact ih free
        · rename_i m here
          have start := (Re.matchAt_eq_some here).1
          have from_free : free ≤ m.start := by
            rw [start]
            exact Nat.not_lt.mp reached
          refine ⟨from_free, Re.start_le_stop here, ?_⟩
          exact (ih _).mono (Nat.le_max_left m.stop (i + 1))

theorem splice_cons {i : Nat} {c : Char} {es : List Edit} (ordered : InOrder (i + 1) es)
    (at_i : text[i]? = some c) : splice text i es = c :: splice text (i + 1) es := by
  cases es with
  | nil => exact drop_eq_cons_iff.mpr ⟨at_i, rfl⟩
  | cons e es =>
      have reached := ordered.1
      have at_i' : (text.take e.start)[i]? = some c := by
        rw [List.getElem?_take_of_lt reached, at_i]
      have step : slice text i e.start = c :: slice text (i + 1) e.start :=
        drop_eq_cons_iff.mpr ⟨at_i', rfl⟩
      rw [splice, splice, step]
      rfl

theorem length_slice {start stop : Nat} (inside : stop ≤ text.length) :
    (slice text start stop).length = stop - start := by
  rw [slice, List.length_drop, List.length_take, Nat.min_eq_left inside]

/-- Edits that start within earlier ones make the text longer: what an edit replaces within an
earlier one is written again. -/
theorem length_splice {es : List Edit} :
    ∀ {p q : Nat}, p ≤ q → q ≤ text.length →
      (∀ e ∈ es, e.start ≤ e.stop ∧ e.stop ≤ text.length ∧ e.new ≠ []) →
      (∀ e ∈ es, e.start < q → e.stop ≤ q) →
      es.Pairwise (fun e e' => e'.start < e.stop → e'.stop ≤ e.stop) →
      (splice text q (outermost q es)).length ≤ (splice text p es).length ∧
        ((splice text q (outermost q es)).length = (splice text p es).length →
          p = q ∧ InOrder q es) := by
  induction es with
  | nil =>
      intro p q reached within _ _ _
      rw [outermost, splice, splice, List.length_drop, List.length_drop]
      exact ⟨by omega, fun same => ⟨by omega, trivial⟩⟩
  | cons e es ih =>
      intro p q reached within sized nested pairs
      obtain ⟨⟨forward, inside, written⟩, sized⟩ := List.forall_mem_cons.mp sized
      obtain ⟨nested_here, nested⟩ := List.forall_mem_cons.mp nested
      obtain ⟨later, pairs⟩ := List.pairwise_cons.mp pairs
      have size : 0 < e.new.length := List.length_pos_of_ne_nil written
      by_cases hidden : e.start < q
      · have stops := nested_here hidden
        have rest := ih stops within sized nested pairs
        rw [outermost, if_pos hidden, splice, List.length_append, List.length_append]
        exact ⟨by omega, fun same => by omega⟩
      · have rest := ih (Nat.le_refl e.stop) inside sized later pairs
        have starts := forward.trans inside
        rw [outermost, if_neg hidden, splice, splice, List.length_append, List.length_append,
          List.length_append, List.length_append, length_slice starts, length_slice starts]
        refine ⟨by omega, fun same => ?_⟩
        have tail := (rest.2 (by omega)).2
        exact ⟨by omega, Nat.not_lt.mp hidden, forward, tail⟩

/-- Edits are made in place just when none of them starts within another. -/
theorem spliced_iff {es : List Edit}
    (sized : ∀ e ∈ es, e.start ≤ e.stop ∧ e.stop ≤ text.length ∧ e.new ≠ [])
    (pairs : es.Pairwise fun e e' => e'.start < e.stop → e'.stop ≤ e.stop) :
    Spliced text es (splice text 0 es) ↔ InOrder 0 es := by
  constructor
  · intro same
    have lengths := length_splice (Nat.le_refl 0) (Nat.zero_le text.length) sized
      (fun e _ before => absurd before (Nat.not_lt_zero e.start)) pairs
    exact (lengths.2 (congrArg List.length same).symm).2
  · intro ordered
    rw [Spliced, outermost_of_inOrder ordered]

theorem inOrder_iff {es : List Edit} (forward : ∀ e ∈ es, e.start ≤ e.stop) :
    ∀ {pos : Nat}, InOrder pos es ↔
      (∀ e ∈ es, pos ≤ e.start) ∧ es.Pairwise fun e e' => e.stop ≤ e'.start := by
  induction es with
  | nil => simp [InOrder]
  | cons e es ih =>
      intro pos
      obtain ⟨here, forward⟩ := List.forall_mem_cons.mp forward
      rw [InOrder, ih forward, List.forall_mem_cons, List.pairwise_cons]
      constructor
      · intro ⟨reached, _, later, pairs⟩
        have behind : ∀ e' ∈ es, pos ≤ e'.start := fun e' mem => by
          have := later e' mem
          omega
        exact ⟨⟨reached, behind⟩, later, pairs⟩
      · intro ⟨reached, later, pairs⟩
        exact ⟨reached.1, here, later, pairs⟩

theorem pairwise_finditer {word : Char → Bool} (r : Re) :
    (r.finditer word text).Pairwise fun m m' => m.stop ≤ m'.start := by
  have ordered : InOrder 0 ((r.finditer word text).map fun m => ⟨m.start, m.stop, []⟩) :=
    @inOrder_scan text word r (fun _ => []) _ 0
  have forward : ∀ e ∈ (r.finditer word text).map fun m => (⟨m.start, m.stop, []⟩ : Edit),
      e.start ≤ e.stop := by
    intro e mem
    obtain ⟨m, among, rfl⟩ := List.mem_map.mp mem
    exact Re.start_le_stop (Re.mem_finditer among).2
  exact List.pairwise_map.mp ((inOrder_iff forward).mp ordered).2

theorem subn_spliced (word : Char → Bool) (rule : Rule) (text : Text) :
    Spliced text (rule.edits word text) (rule.subn word text).1 := by
  have ordered : InOrder 0 (rule.edits word text) := inOrder_scan _ 0
  rw [Spliced, outermost_of_inOrder ordered]
  rfl

end Edits

end Stage90.Lib

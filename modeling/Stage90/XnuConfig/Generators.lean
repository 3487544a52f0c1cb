import Stage90.XnuConfig.Devices
import Mathlib.Data.Char
import Mathlib.Data.List.Lex
import Mathlib.Data.List.Sort

/-!
# The generators of a configuration

The device headers of `gen_device_headers.py`, the array of `gen_pseudo_inits.py` and the includes
that `gen_option_headers.py` writes into the `meta_features.h` of a component, each from the devices
and the file lists.
-/

set_option autoImplicit false

namespace Stage90.XnuConfig

open Stage90.Lib
open Stage90.Lib.PyText

variable (u : Unicode)

/-! ## Headers and array -/

/-- `emitted`: the conditions that are written a header, and the counts in it. -/
def emitted (rows : List Device) (tree : ConfTree) : List (PyText × Nat) :=
  let declared : PyDict PyText (Option Nat) :=
    (rows.map fun r => (u.lower r.name, r.number)).foldl (fun d e => d.set e.1 e.2) []
  ((conditions u tree).keys.insertionSort (· ≤ ·)).filterMap fun cond =>
    (declared.lookup cond).map fun number => (cond, headerCount number)

def arrayEntries (rows : List Device) : List (PyText × Nat) :=
  rows.filterMap fun r => r.init.map fun init => (init, arrayCount r.number)

/-! ## The includes of a component -/

/-- `<cond>.h` -/
def header (cond : PyText) : PyText := cond ++ ".h".toList

/-- Words without the `not` they begin with. -/
def withoutNot : List PyText → List PyText
  | [] => []
  | word :: words => if word = "not".toList then words else word :: words

def isClause (word : PyText) : Bool :=
  word = "optional".toList || word = "standard".toList

/-- `OPTION_RE`: the option word of an `OPTIONS/` line. -/
def optionWord (line : PyText) : Option PyText :=
  match split (strip line) with
  | path :: clause :: words =>
      if "OPTIONS/".toList.isPrefixOf path && path ≠ "OPTIONS/".toList && isClause clause then
        (withoutNot words).head?
      else none
  | _ => none

def deviceWord (line : PyText) : Option PyText :=
  let line := uncommented line
  if "OPTIONS/".toList.isPrefixOf line then none
  else
    match split line with
    | _ :: clause :: words => if isClause clause then (withoutNot words).head? else none
    | _ => none

def declaredNames (rows : List Device) : List PyText := rows.map fun r => u.lower r.name

/-- `scan_options_by_component`: the header and the macro of each row. -/
def optionRows (rows : List Device) (tree : ConfTree) (c : Component) : List (PyText × PyText) :=
  ((tree.lines c .files).filterMap optionWord).filterMap fun word =>
    if u.lower word ∈ declaredNames u rows then none else some (header word, u.upper word)

/-- `device_headers_by_component` -/
def deviceHeaders (rows : List Device) (tree : ConfTree) (c : Component) : List PyText :=
  addNew [] (((tree.lines c .files ++ tree.lines c .files_arm).filterMap deviceWord).filterMap
    fun word => if u.lower word ∈ declaredNames u rows then some (header (u.lower word)) else none)

/-- The headers of the options in `SHARED`. -/
def sharedHeaders (shared : List PyText) (rows : List Device) (tree : ConfTree) : List PyText :=
  let allHeaders : PyDict PyText PyText :=
    (components.flatMap (optionRows u rows tree)).foldl (fun d e => d.setdefault e.2 e.1) []
  ((addNew [] (shared.map u.upper)).insertionSort (· ≤ ·)).filterMap (allHeaders.lookup ·)

/-- The includes of the `meta_features.h` of a component, which is not written for one without a
row of its own. -/
def metaFeatures (shared : List PyText) (rows : List Device) (tree : ConfTree) (c : Component) :
    Option (List PyText) :=
  match optionRows u rows tree c with
  | [] => none
  | own => some (addNew (addNew (addNew [] (own.map Prod.fst)) (sharedHeaders u shared rows tree))
      (deviceHeaders u rows tree c))

/-! ## One decision -/

def firstNeed (line : PyText) : Option PyText := (needs u line).head?

/-- A device that is declared more than once is what its first declaration says. -/
def resolved (rows : List Device) : List Device := firsts (fun r => u.lower r.name) rows

structure OneAnswer (shared : List PyText) (rows : List Device) (tree : ConfTree) : Prop where
  table : ∀ r ∈ resolved u rows, (table u rows tree).lookup (u.lower r.name) = some 1
  headers : ∀ cond count, (cond, count) ∈ emitted u rows tree ↔ ∃ r ∈ resolved u rows,
    u.lower r.name = cond ∧ (∃ line, tree.Line line ∧ firstNeed u line = some cond) ∧
      count = headerCount r.number
  array : arrayEntries rows = (resolved u rows).filterMap fun r =>
    r.init.map fun init => (init, arrayCount r.number)
  included : ∀ e ∈ emitted u rows tree, ∃ c includes,
    metaFeatures u shared rows tree c = some includes ∧ header e.1 ∈ includes

/-- What a configuration and its file lists must not do for that. -/
structure Undivided (rows : List Device) (tree : ConfTree) : Prop where
  /-- No device is overridden. -/
  table : ∀ r ∈ rows, u.lower r.name ≠ "xpr_debug".toList
  /-- No device is declared again with an init word. -/
  array : ∀ before r after, rows = before ++ r :: after → r.init.isSome = true →
    ∀ q ∈ before, u.lower q.name ≠ u.lower r.name
  /-- A device that a line names is the first need word of a line. -/
  first : ∀ cond, Declared u rows cond → Tested u tree cond →
    ∃ line, tree.Line line ∧ firstNeed u line = some cond
  /-- Its first and its last declaration have one count. -/
  count : ∀ cond r q, Tested u tree cond → rows.find? (u.lower ·.name = cond) = some r →
    rows.reverse.find? (u.lower ·.name = cond) = some q →
      headerCount q.number = headerCount r.number
  /-- A component with an option of its own tests it in front. -/
  included : ∀ cond, Declared u rows cond → Tested u tree cond → ∃ c,
    (∃ line ∈ tree.lines c .files, ∃ word, optionWord line = some word ∧
      ¬ Declared u rows (u.lower word)) ∧
    ∃ f, ∃ line ∈ tree.lines c f, ∃ word, deviceWord line = some word ∧ u.lower word = cond

variable {u}

theorem mem_resolved {rows : List Device} {r : Device} :
    r ∈ resolved u rows ↔ rows.find? (u.lower ·.name = u.lower r.name) = some r :=
  mem_firsts_iff fun r : Device => u.lower r.name

theorem declared_iff {rows : List Device} {cond : PyText} :
    Declared u rows cond ↔ ∃ r, rows.find? (u.lower ·.name = cond) = some r := by
  rw [← Option.isSome_iff_exists, List.find?_isSome]
  exact exists_congr fun r => and_congr_right fun _ => decide_eq_true_iff.symm

theorem declared_of_find? {rows : List Device} {cond : PyText} {r : Device}
    (found : rows.find? (u.lower ·.name = cond) = some r) : u.lower r.name = cond := by
  have named := List.find?_some found
  exact of_decide_eq_true named

theorem resolved_of_find? {rows : List Device} {cond : PyText} {r : Device}
    (found : rows.find? (u.lower ·.name = cond) = some r) : r ∈ resolved u rows := by
  rw [mem_resolved, declared_of_find? found]
  exact found

theorem mem_of_mem_resolved {rows : List Device} {r : Device} (member : r ∈ resolved u rows) :
    r ∈ rows := (firstsFrom_sublist _ rows []).subset member

theorem tested_of_firstNeed {tree : ConfTree} {cond : PyText} {line : PyText}
    (there : tree.Line line) (first : firstNeed u line = some cond) : Tested u tree cond :=
  ⟨line, there, List.mem_of_head? first⟩

/-! ## The table -/

theorem table_iff {rows : List Device} {tree : ConfTree} :
    (∀ r ∈ resolved u rows, (table u rows tree).lookup (u.lower r.name) = some 1) ↔
      ∀ r ∈ rows, u.lower r.name ≠ "xpr_debug".toList := by
  constructor
  · intro on r member
    obtain ⟨q, first⟩ := declared_iff.mp ⟨r, member, rfl⟩
    have same := declared_of_find? first
    rw [← same]
    exact (lookup_table ⟨r, member, same.symm⟩ tree).mp (on q (resolved_of_find? first))
  · intro free r member
    have kept := mem_of_mem_resolved member
    exact (lookup_table ⟨r, kept, rfl⟩ tree).mpr (free r kept)

/-! ## The headers -/

/-- The last declaration of a device is the one whose count is written. -/
theorem mem_emitted {rows : List Device} {tree : ConfTree} {cond : PyText} {count : Nat} :
    (cond, count) ∈ emitted u rows tree ↔ Tested u tree cond ∧
      ∃ q, rows.reverse.find? (u.lower ·.name = cond) = some q ∧ count = headerCount q.number := by
  have declared (cond : PyText) : List.lookup cond
      ((rows.map fun r => (u.lower r.name, r.number)).foldl (fun d e => PyDict.set d e.1 e.2) []) =
      (rows.reverse.find? (u.lower ·.name = cond)).map Device.number := by
    rw [PyDict.lookup_foldl_set, ← List.map_reverse, List.lookup_nil, Option.or_none]
    exact PyDict.lookup_map (fun r => u.lower r.name) Device.number cond rows.reverse
  rw [emitted, List.mem_filterMap]
  constructor
  · rintro ⟨tested, member, made⟩
    rw [declared, Option.map_map] at made
    obtain ⟨q, last, same⟩ := Option.map_eq_some_iff.mp made
    have cond_eq : tested = cond := congrArg Prod.fst same
    have count_eq : headerCount q.number = count := congrArg Prod.snd same
    rw [cond_eq] at member last
    exact ⟨mem_conditions.mp ((List.mem_insertionSort _).mp member), q, last, count_eq.symm⟩
  · rintro ⟨tested, q, last, rfl⟩
    refine ⟨cond, (List.mem_insertionSort _).mpr (mem_conditions.mpr tested), ?_⟩
    rw [declared, last]
    rfl

theorem headers_iff {rows : List Device} {tree : ConfTree} :
    (∀ cond count, (cond, count) ∈ emitted u rows tree ↔ ∃ r ∈ resolved u rows,
      u.lower r.name = cond ∧ (∃ line, tree.Line line ∧ firstNeed u line = some cond) ∧
        count = headerCount r.number) ↔
      (∀ cond, Declared u rows cond → Tested u tree cond →
        ∃ line, tree.Line line ∧ firstNeed u line = some cond) ∧
      ∀ cond r q, Tested u tree cond → rows.find? (u.lower ·.name = cond) = some r →
        rows.reverse.find? (u.lower ·.name = cond) = some q →
          headerCount q.number = headerCount r.number := by
  have last (cond : PyText) (declared : Declared u rows cond) :
      ∃ q, rows.reverse.find? (u.lower ·.name = cond) = some q := by
    obtain ⟨r, member, named⟩ := declared
    exact declared_iff.mp ⟨r, List.mem_reverse.mpr member, named⟩
  constructor
  · intro exact_
    constructor
    · intro cond declared tested
      obtain ⟨q, found⟩ := last cond declared
      obtain ⟨_, _, _, first, _⟩ := (exact_ cond _).mp (mem_emitted.mpr ⟨tested, q, found, rfl⟩)
      exact first
    · intro cond r q tested first found
      obtain ⟨r', member, named, _, count⟩ :=
        (exact_ cond _).mp (mem_emitted.mpr ⟨tested, q, found, rfl⟩)
      rw [mem_resolved, named, first] at member
      rw [count, Option.some.inj member]
  · intro ⟨first, count⟩ cond n
    rw [mem_emitted]
    constructor
    · rintro ⟨tested, q, found, rfl⟩
      have named := declared_of_find? found
      have declared : Declared u rows cond :=
        ⟨q, List.mem_reverse.mp (List.mem_of_find?_eq_some found), named⟩
      obtain ⟨r, resolves⟩ := declared_iff.mp declared
      exact ⟨r, resolved_of_find? resolves, declared_of_find? resolves, first cond declared tested,
        count cond r q tested resolves found⟩
    · rintro ⟨r, member, rfl, ⟨line, there, leads⟩, rfl⟩
      obtain ⟨q, found⟩ := last _ ⟨r, mem_of_mem_resolved member, rfl⟩
      have tested := tested_of_firstNeed there leads
      exact ⟨tested, q, found, (count _ r q tested (mem_resolved.mp member) found).symm⟩

/-! ## The array -/

theorem array_iff {rows : List Device} :
    (arrayEntries rows = (resolved u rows).filterMap fun r =>
      r.init.map fun init => (init, arrayCount r.number)) ↔
      ∀ before r after, rows = before ++ r :: after → r.init.isSome = true →
        ∀ q ∈ before, u.lower q.name ≠ u.lower r.name := by
  rw [arrayEntries, eq_comm, resolved, filterMap_firsts_iff]
  simp only [Option.isSome_map]

/-! ## The includes -/

theorem mem_declaredNames {rows : List Device} {cond : PyText} :
    cond ∈ declaredNames u rows ↔ Declared u rows cond := List.mem_map

theorem header_injective {cond cond' : PyText} (same : header cond = header cond') :
    cond = cond' := List.append_cancel_right same

theorem option_header {rows : List Device} {tree : ConfTree} {c : Component}
    {e : PyText × PyText} (row : e ∈ optionRows u rows tree c) {cond : PyText}
    (declared : Declared u rows cond) : header cond ≠ e.1 := by
  intro same
  obtain ⟨word, _, made⟩ := List.mem_filterMap.mp row
  split at made
  case isTrue => cases made
  case isFalse other =>
      cases made
      obtain ⟨r, member, named⟩ := declared
      rw [← header_injective same, ← named, u.lower_lower] at other
      exact other (mem_declaredNames.mpr ⟨r, member, rfl⟩)

theorem shared_header {shared : List PyText} {rows : List Device} {tree : ConfTree} {h : PyText}
    (member : h ∈ sharedHeaders u shared rows tree) :
    ∃ c, ∃ e ∈ optionRows u rows tree c, e.1 = h := by
  obtain ⟨macro_, _, found⟩ := List.mem_filterMap.mp member
  obtain ⟨before, after, split, _⟩ := List.lookup_eq_some_iff.mp found
  have entry : (macro_, h) ∈ (components.flatMap (optionRows u rows tree)).foldl
      (fun (d : PyDict PyText PyText) e => d.setdefault e.2 e.1) [] := by
    rw [split]
    exact List.mem_append_right before List.mem_cons_self
  obtain none | ⟨e, row, same⟩ := PyDict.mem_foldl_setdefault Prod.snd Prod.fst _ entry
  · cases none
  · obtain ⟨c, _, row⟩ := List.mem_flatMap.mp row
    exact ⟨c, e, row, congrArg Prod.snd same⟩

theorem mem_metaFeatures {shared : List PyText} {rows : List Device} {tree : ConfTree}
    {c : Component} {cond : PyText} (declared : Declared u rows cond) :
    (∃ includes, metaFeatures u shared rows tree c = some includes ∧ header cond ∈ includes) ↔
      optionRows u rows tree c ≠ [] ∧ header cond ∈ deviceHeaders u rows tree c := by
  rw [metaFeatures]
  cases rows_eq : optionRows u rows tree c with
  | nil => exact iff_of_false (fun ⟨_, made, _⟩ => nomatch made) fun ⟨row, _⟩ => row rfl
  | cons e own =>
      have apart : header cond ∉ (e :: own).map Prod.fst := by
        intro member
        obtain ⟨e', row, same⟩ := List.mem_map.mp member
        exact option_header (rows_eq ▸ row) declared same.symm
      have unshared : header cond ∉ sharedHeaders u shared rows tree := by
        intro member
        obtain ⟨c', e', row, same⟩ := shared_header member
        exact option_header row declared same.symm
      constructor
      · intro ⟨_, made, member⟩
        rw [← Option.some.inj made, mem_addNew, mem_addNew, mem_addNew] at member
        obtain ((none | own) | other) | device := member
        · cases none
        · exact absurd own apart
        · exact absurd other unshared
        · exact ⟨List.cons_ne_nil e own, device⟩
      · intro ⟨_, device⟩
        exact ⟨_, rfl, (mem_addNew _).mpr (.inr device)⟩

theorem mem_deviceHeaders {rows : List Device} {tree : ConfTree} {c : Component} {cond : PyText}
    (declared : Declared u rows cond) :
    header cond ∈ deviceHeaders u rows tree c ↔
      ∃ f, ∃ line ∈ tree.lines c f, ∃ word, deviceWord line = some word ∧ u.lower word = cond := by
  rw [deviceHeaders, mem_addNew]
  constructor
  · rintro (none | member)
    · cases none
    · obtain ⟨word, found, made⟩ := List.mem_filterMap.mp member
      obtain ⟨line, there, word_eq⟩ := List.mem_filterMap.mp found
      split at made
      case isTrue =>
          have same := header_injective (Option.some.inj made)
          obtain first | second := List.mem_append.mp there
          · exact ⟨.files, line, first, word, word_eq, same⟩
          · exact ⟨.files_arm, line, second, word, word_eq, same⟩
      case isFalse => cases made
  · rintro ⟨f, line, there, word, word_eq, same⟩
    refine .inr (List.mem_filterMap.mpr ⟨word, List.mem_filterMap.mpr ⟨line, ?_, word_eq⟩, ?_⟩)
    · cases f
      · exact List.mem_append_left _ there
      · exact List.mem_append_right _ there
    · rw [if_pos (mem_declaredNames.mpr (same ▸ declared)), same]

theorem optionRows_ne_nil {rows : List Device} {tree : ConfTree} {c : Component} :
    optionRows u rows tree c ≠ [] ↔ ∃ line ∈ tree.lines c .files, ∃ word,
      optionWord line = some word ∧ ¬ Declared u rows (u.lower word) := by
  constructor
  · intro some
    obtain ⟨e, row⟩ := List.exists_mem_of_ne_nil _ some
    obtain ⟨word, found, made⟩ := List.mem_filterMap.mp row
    obtain ⟨line, there, word_eq⟩ := List.mem_filterMap.mp found
    refine ⟨line, there, word, word_eq, fun declared => ?_⟩
    rw [if_pos (mem_declaredNames.mpr declared)] at made
    cases made
  · rintro ⟨line, there, word, word_eq, other⟩
    have row : (header word, u.upper word) ∈ optionRows u rows tree c := by
      refine List.mem_filterMap.mpr ⟨word, List.mem_filterMap.mpr ⟨line, there, word_eq⟩, ?_⟩
      exact if_neg fun known => other (mem_declaredNames.mp known)
    exact List.ne_nil_of_mem row

theorem included_iff {shared : List PyText} {rows : List Device} {tree : ConfTree} :
    (∀ e ∈ emitted u rows tree, ∃ c includes,
      metaFeatures u shared rows tree c = some includes ∧ header e.1 ∈ includes) ↔
      ∀ cond, Declared u rows cond → Tested u tree cond → ∃ c,
        (∃ line ∈ tree.lines c .files, ∃ word, optionWord line = some word ∧
          ¬ Declared u rows (u.lower word)) ∧
        ∃ f, ∃ line ∈ tree.lines c f, ∃ word,
          deviceWord line = some word ∧ u.lower word = cond := by
  have reach {cond : PyText} (declared : Declared u rows cond) (c : Component) :
      (∃ includes, metaFeatures u shared rows tree c = some includes ∧ header cond ∈ includes) ↔
        (∃ line ∈ tree.lines c .files, ∃ word, optionWord line = some word ∧
          ¬ Declared u rows (u.lower word)) ∧
        ∃ f, ∃ line ∈ tree.lines c f, ∃ word,
          deviceWord line = some word ∧ u.lower word = cond := by
    rw [mem_metaFeatures declared, optionRows_ne_nil, mem_deviceHeaders declared]
  constructor
  · rintro every cond ⟨r, member, named⟩ tested
    obtain ⟨q, last⟩ := declared_iff.mp ⟨r, List.mem_reverse.mpr member, named⟩
    obtain ⟨c, found⟩ := every _ (mem_emitted.mpr ⟨tested, q, last, rfl⟩)
    exact ⟨c, (reach ⟨r, member, named⟩ c).mp found⟩
  · rintro every ⟨cond, count⟩ member
    obtain ⟨tested, q, last, _⟩ := mem_emitted.mp member
    have declared : Declared u rows cond :=
      ⟨q, List.mem_reverse.mp (List.mem_of_find?_eq_some last), declared_of_find? last⟩
    obtain ⟨c, found⟩ := every cond declared tested
    exact ⟨c, (reach declared c).mpr found⟩

theorem oneAnswer_iff {shared : List PyText} {rows : List Device} {tree : ConfTree} :
    OneAnswer u shared rows tree ↔ Undivided u rows tree := by
  constructor
  · intro answer
    obtain ⟨first, count⟩ := headers_iff.mp answer.headers
    exact ⟨table_iff.mp answer.table, array_iff.mp answer.array, first, count,
      included_iff.mp answer.included⟩
  · intro undivided
    exact ⟨table_iff.mpr undivided.table, headers_iff.mpr ⟨undivided.first, undivided.count⟩,
      array_iff.mpr undivided.array, included_iff.mpr undivided.included⟩

/-- The consumers have the answer of the first declaration when they are given no choice. -/
theorem one_device_decision (expanded : List (List PyText)) (shared : List PyText)
    (tree : ConfTree) :
    (∀ rows, devices u expanded = .ok rows → OneAnswer u shared rows tree) ↔
      ∀ rows, devices u expanded = .ok rows → Undivided u rows tree :=
  forall_congr' fun _ => forall_congr' fun _ => oneAnswer_iff

/-- `net/if_loop.c optional loop`, in the file list of one component. -/
def loopTree : ConfTree where
  lines
    | .bsd, .files => ["OPTIONS/inet optional inet".toList, "net/if_loop.c optional loop".toList]
    | _, _ => []

/-- `loop` is declared in two directories; the header has the count of the second. -/
theorem declared_twice :
    ¬ ∀ (u : Unicode) (expanded : List (List PyText)) (shared : List PyText) (tree : ConfTree)
        (rows : List Device), devices u expanded = .ok rows → OneAnswer u shared rows tree := by
  intro every
  have answer := every .ascii
    [["pseudo-device loop 2".toList], ["pseudo-device loop 3".toList]] [] loopTree
    [⟨"loop".toList, some 2, none, .pseudoDevice⟩, ⟨"loop".toList, some 3, none, .pseudoDevice⟩]
    (by decide +kernel)
  have tested : Tested .ascii loopTree "loop".toList :=
    ⟨"net/if_loop.c optional loop".toList, ⟨.bsd, .files, List.mem_cons_of_mem _ List.mem_cons_self⟩,
      by decide +kernel⟩
  have counts := (headers_iff.mp answer.headers).2 "loop".toList _ _ tested
    (by decide +kernel : _ = some ⟨"loop".toList, some 2, none, .pseudoDevice⟩)
    (by decide +kernel : _ = some ⟨"loop".toList, some 3, none, .pseudoDevice⟩)
  exact absurd counts (by decide)

end Stage90.XnuConfig

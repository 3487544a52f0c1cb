import Stage90.Lib.Regex
import Stage90.XnuConfig.Generators

/-!
# The gate of the device conditions

`check_device_conditions.py`: the table, the headers and the array on disk against the configuration
and the file lists, and against the sources of the tree.
-/

set_option autoImplicit false

namespace Stage90.XnuConfig

open Stage90.Lib
open Stage90.Lib.PyText

/-! ## What is on disk -/

/-- The files that the gate reads, `none` where one is not there.  `sources` are the texts of
`tree_sources` under their paths. -/
structure Gate where
  table : Option (List PyText)
  deviceDir : Option (List (PyText × List PyText))
  expanded : List (List PyText)
  tree : ConfTree
  sources : List (PyText × PyText)
  array : Option (List PyText)
  optionDir : Option (List PyText)
  metaFeatures : Component → Option (List PyText)

variable (u : Unicode)

def readTable (lines : List PyText) : PyDict PyText Bool :=
  lines.foldl (fun out line =>
    match split (uncommented line) with
    | cond :: value :: _ => out.set (u.lower cond) (value = "1".toList)
    | _ => out) []

def isMacroChar (c : Char) : Bool := c.isUpper || c.isDigit || c == '_'

/-- A text that is digits alone, and its value. -/
def number (text : PyText) : Option Nat :=
  if text ≠ [] ∧ text.all fun c => (u.digit c).isSome then
    some ((text.filterMap u.digit).foldl (fun n d => 10 * n + d) 0)
  else none

/-- `DEFINE_RE`: the name and the count of a line. -/
def defineOf (line : PyText) : Option (PyText × Nat) :=
  match split (strip line) with
  | [define, name, count] =>
      match name with
      | 'N' :: rest =>
          if define = "#define".toList ∧ rest ≠ [] ∧ rest.all isMacroChar then
            (number u count).map fun count => (name, count)
          else none
      | _ => none
  | _ => none

/-- The definitions of the headers of a directory, in the order of their names. -/
def definitions (dir : List (PyText × List PyText)) : List (PyText × Nat × PyText) :=
  (dir.insertionSort fun f g => f.1 ≤ g.1).flatMap fun file =>
    if ".h".toList.isSuffixOf file.1 then
      (file.2.filterMap (defineOf u)).map fun d => (d.1, d.2, file.1)
    else []

def readHeaders (dir : List (PyText × List PyText)) : PyDict PyText (Nat × PyText) :=
  (definitions u dir).foldl (fun d e => d.set e.1 e.2) []

def entryRe : Re :=
  .seqs [.lineStart, .many isSpace, .lit "\x7b", .many isSpace,
    .group 1 (.plus fun c => (u.digit c).isSome), .many isSpace, .lit ",", .many isSpace,
    .group 2 (.seq (.one fun c => c.isAlpha || c == '_') (.many fun c => c.isAlphanum || c == '_')),
    .many isSpace, .lit "\x7d", .many isSpace, .lit ",", .many isSpace, .lineEnd]

/-- `array_entries` of the gate, which reads them off the array on disk. -/
def readEntries (lines : List PyText) : List (PyText × Nat) :=
  lines.filterMap fun line =>
    match (entryRe u).matchAt u.word line 0 with
    | none => none
    | some m => (number u (m.group line 1)).map fun count => (m.group line 2, count)

structure Artefacts where
  table : PyDict PyText Bool
  dir : List (PyText × List PyText)
  rows : List Device
  entries : List (PyText × Nat)

def Gate.read (g : Gate) : Option Artefacts :=
  match g.table, g.deviceDir, devices u g.expanded, g.array with
  | some table, some dir, .ok rows, some array =>
      some ⟨readTable u table, dir, rows, readEntries u array⟩
  | _, _, _, _ => none

/-! ## The sources -/

def alternatives : List PyText → Re
  | [] => .empty
  | [name] => .chars name
  | name :: names => .alt (.chars name) (alternatives names)

def macroRe (names : List PyText) : Re :=
  .seqs [.wordEdge, .group 1 (alternatives names), .wordEdge]

/-- A line that reads no name: the beginning of a comment, or a definition. -/
def isSkipped (line : PyText) : Bool :=
  ["/*", "*", "//", "#define"].any fun w => w.toList.isPrefixOf (strip line)

/-- `macro_readers`: the lines that read a name. -/
def macroReaders (sources : List (PyText × PyText)) (names : List PyText) :
    PyDict PyText (List (PyText × Nat)) :=
  sources.foldl (fun found source =>
    if ((macroRe names).search u.word source.2 0).isNone then found
    else
      ((splitOn '\n' source.2).zipIdx 1).foldl (fun found line =>
        if isSkipped line.1 then found
        else
          ((macroRe names).finditer u.word line.1).foldl (fun found m =>
            let name := m.group line.1 1
            (found.setdefault name []).modify name (· ++ [(source.1, line.2)])) found) found) []

def includeRe : Re :=
  .seqs [.lit "#", .many isSpace, .lit "include", .many isSpace, .lit "<",
    .group 1 (.plus (· ≠ '>')), .lit ">"]

def headerIncluders (sources : List (PyText × PyText)) (headers : List PyText) : List PyText :=
  addNew [] (sources.flatMap fun source =>
    ((includeRe.finditer u.word source.2).map fun m => m.group source.2 1).filter (· ∈ headers))

/-- The headers that some `meta_features.h` includes. -/
def forceIncluded (metaFeatures : Component → Option (List PyText)) : List PyText :=
  [Component.osfmk, .bsd, .libkern, .iokit, .pexpert, .libsa, .security].flatMap fun c =>
    ((metaFeatures c).getD []).filterMap fun line =>
      (includeRe.search u.word line 0).map fun m => m.group line 1

/-! ## The comparisons -/

inductive Problem
  | off (cond : PyText) (number : Option Nat) (absent : Bool)
  | on (cond file name : PyText) (count : Nat)
  | undefined (cond name : PyText)
  | otherCount (cond file name : PyText) (count want : Nat)
  | stale (file name : PyText) (count : Nat) (cond : PyText)
  | readUndefined (name : PyText) (sites : List (PyText × Nat))
  | includedUntested (name : PyText)
  | threeAnswers (init : PyText) (count : Nat) (header : Nat × PyText) (name : PyText)
      (number : Option Nat)
  | both (name : PyText)
  | notForced (name : PyText)

/-- `N<COND>` -/
def macroOf (cond : PyText) : PyText := 'N' :: u.upper cond

def decl (rows : List Device) : PyDict PyText (Option Nat) :=
  (rows.map fun r => (u.lower r.name, r.number)).foldl (fun d e => d.set e.1 e.2) []

/-- An element of one of the lists, as `in` compares it: a text is never equal to a tuple. -/
inductive Item
  | text (t : PyText)
  | row (r : Device)
  deriving DecidableEq

variable (g : Gate) (a : Artefacts)

def Artefacts.on (cond : PyText) : Bool := a.table.lookup cond == some true

def emittedNames : List PyText := (emitted u a.rows g.tree).map Prod.fst

/-- (1) -/
def tableProblems : List Problem :=
  ((decl u a.rows).insertionSort fun e f => e.1 ≤ f.1).filterMap fun e =>
    if e.1 ∈ OVERRIDES.keys ∨ a.on e.1 then none
    else some (.off e.1 e.2 (e.1 ∉ a.table.keys))

/-- (2), where `declared` is the list of the tuples. -/
def headerProblems : List Problem :=
  ((conditions u g.tree).keys.insertionSort (· ≤ ·)).filterMap fun cond =>
    if Item.text cond ∉ a.rows.map Item.row then none
    else
      let want := headerCount (((decl u a.rows).lookup cond).getD none)
      let name := macroOf u cond
      match a.on cond, (readHeaders u a.dir).lookup name with
      | false, some (count, file) => if count ≠ 0 then some (.on cond file name count) else none
      | false, none => none
      | true, none => some (.undefined cond name)
      | true, some (count, file) =>
          if count ≠ want then some (.otherCount cond file name count want) else none

def staleProblems : List Problem :=
  ((readHeaders u a.dir).insertionSort fun e f => e.1 ≤ f.1).filterMap fun e =>
    let cond := u.lower (e.1.drop 1)
    if e.1.head? = some 'N' ∧ cond ∉ (decl u a.rows).keys then
      some (.stale e.2.2 e.1 e.2.1 cond)
    else none

/-- (3) -/
def readProblems : List Problem :=
  ((macroReaders u g.sources ((decl u a.rows).keys.map (macroOf u))).insertionSort
    fun e f => e.1 ≤ f.1).filterMap fun e =>
      if e.1 ∈ (readHeaders u a.dir).keys then none
      else if u.lower (e.1.drop 1) ∉ emittedNames u g a then none
      else some (.readUndefined e.1 e.2)

def includeProblems : List Problem :=
  ((headerIncluders u g.sources ((decl u a.rows).keys.map header)).insertionSort
    (· ≤ ·)).filterMap fun name =>
      let cond := name.take (name.length - 2)
      if cond ∉ emittedNames u g a ∧ cond ∈ (decl u a.rows).keys then some (.includedUntested name)
      else none

/-- (4) -/
def arrayProblems : List Problem :=
  a.entries.filterMap fun e =>
    match a.rows.find? (·.init = some e.1) with
    | none => none
    | some r =>
        let name := macroOf u r.name
        match (readHeaders u a.dir).lookup name with
        | none => none
        | some header =>
            if header.1 ≠ e.2 ∧ headerCount r.number ≠ e.2 then
              some (.threeAnswers e.1 e.2 header name r.number)
            else none

/-- (5) -/
def bothProblems : List Problem :=
  match g.optionDir with
  | none => []
  | some names =>
      ((names.filter (· ∈ a.dir.map Prod.fst)).insertionSort (· ≤ ·)).map .both

def forceProblems : List Problem :=
  ((addNew [] ((readHeaders u a.dir).map (·.2.2))).filter
    (· ∉ forceIncluded u g.metaFeatures) |>.insertionSort (· ≤ ·)).map .notForced

def problems : List Problem :=
  tableProblems u a ++ headerProblems u g a ++ staleProblems u a ++ readProblems u g a ++
    includeProblems u g a ++ arrayProblems u a ++ bothProblems g a ++ forceProblems u g a

/-- The exit status, 1 also where a file is missing or a line is not understood. -/
def main : Nat :=
  match g.read u with
  | none => 1
  | some a => if (problems u g a).isEmpty then 0 else 1

/-! ## Soundness -/

def Defines (dir : List (PyText × List PyText)) (name : PyText) (count : Nat) : Prop :=
  ∃ file ∈ dir, ".h".toList.isSuffixOf file.1 = true ∧
    ∃ line ∈ file.2, defineOf u line = some (name, count)

/-- What status 0 is to mean for the devices that are declared and tested. -/
structure Agrees : Prop where
  on : ∀ cond number, (decl u a.rows).lookup cond = some number → Tested u g.tree cond →
    a.on cond = true → Defines u a.dir (macroOf u cond) (headerCount number)
  off : ∀ cond number, (decl u a.rows).lookup cond = some number → Tested u g.tree cond →
    a.on cond = false → ∀ count, Defines u a.dir (macroOf u cond) count → count = 0

def Sound : Prop := main u g = 0 → ∀ a, g.read u = some a → Agrees u g a

/-- What the comparisons that run ask for. -/
structure Passes : Prop where
  table : ∀ cond, Declared u a.rows cond → cond ∈ OVERRIDES.keys ∨ a.on cond = true
  stale : ∀ name ∈ (readHeaders u a.dir).keys, name.head? = some 'N' →
    Declared u a.rows (u.lower (name.drop 1))
  read : ∀ name ∈ (macroReaders u g.sources ((decl u a.rows).keys.map (macroOf u))).keys,
    name ∈ (readHeaders u a.dir).keys ∨ u.lower (name.drop 1) ∉ emittedNames u g a
  included : ∀ name ∈ headerIncluders u g.sources ((decl u a.rows).keys.map header),
    Declared u a.rows (name.take (name.length - 2)) →
      name.take (name.length - 2) ∈ emittedNames u g a
  array : ∀ e ∈ a.entries, ∀ r, a.rows.find? (·.init = some e.1) = some r →
    ∀ found, (readHeaders u a.dir).lookup (macroOf u r.name) = some found →
      found.1 = e.2 ∨ headerCount r.number = e.2
  both : ∀ names, g.optionDir = some names → ∀ name ∈ names, name ∉ a.dir.map Prod.fst
  forced : ∀ e ∈ readHeaders u a.dir, e.2.2 ∈ forceIncluded u g.metaFeatures

/-- A device, declared and tested, whose header is not what it is to be, where no comparison that
runs can see it. -/
inductive Overlooked : Prop
  /-- It is on, no header defines its name, and no source reads that as the name of a device that
  has a header. -/
  | unread (cond : PyText) (declared : Declared u a.rows cond) (tested : Tested u g.tree cond)
      (on : a.on cond = true) (undefined : ∀ count, ¬ Defines u a.dir (macroOf u cond) count)
      (unread : macroOf u cond ∈
          (macroReaders u g.sources ((decl u a.rows).keys.map (macroOf u))).keys →
        u.lower (u.upper cond) ∉ emittedNames u g a)
  /-- It is on, and the headers define its name as other counts alone. -/
  | otherCount (cond : PyText) (number : Option Nat)
      (declared : (decl u a.rows).lookup cond = some number) (tested : Tested u g.tree cond)
      (on : a.on cond = true) (count : Nat) (defined : Defines u a.dir (macroOf u cond) count)
      (other : ¬ Defines u a.dir (macroOf u cond) (headerCount number))
  /-- It is overridden and off, and a header defines its name as a count that is not zero. -/
  | overridden (cond : PyText) (declared : Declared u a.rows cond) (tested : Tested u g.tree cond)
      (known : cond ∈ OVERRIDES.keys) (off : a.on cond = false) (count : Nat)
      (defined : Defines u a.dir (macroOf u cond) count) (positive : count ≠ 0)

variable {u g a}

/-! ## The comparisons that run -/

theorem mem_keys_decl {rows : List Device} {cond : PyText} :
    cond ∈ (decl u rows).keys ↔ Declared u rows cond := by
  rw [decl, PyDict.mem_keys_foldl_set]
  constructor
  · rintro ⟨e, entry, rfl⟩
    obtain ⟨r, member, rfl⟩ := List.mem_map.mp entry
    exact ⟨r, member, rfl⟩
  · rintro ⟨r, member, rfl⟩
    exact ⟨_, List.mem_map_of_mem member, rfl⟩

theorem sorted_nil {α β : Type} {r : α → α → Prop} [DecidableRel r] {xs : List α}
    {f : α → Option β} : (xs.insertionSort r).filterMap f = [] ↔ ∀ x ∈ xs, f x = none := by
  rw [List.filterMap_eq_nil_iff]
  exact forall_congr' fun x => imp_congr_left (List.mem_insertionSort r)

theorem forall_keys {ν : Type} {d : PyDict PyText ν} {P : PyText → Prop} :
    (∀ e ∈ d, P e.1) ↔ ∀ k ∈ d.keys, P k := List.forall_mem_map.symm

theorem tableProblems_nil :
    tableProblems u a = [] ↔
      ∀ cond, Declared u a.rows cond → cond ∈ OVERRIDES.keys ∨ a.on cond = true := by
  rw [tableProblems, sorted_nil]
  simp only [ite_eq_left_iff, reduceCtorEq, imp_false, not_not]
  rw [forall_keys (P := fun cond => cond ∈ OVERRIDES.keys ∨ a.on cond = true)]
  simp only [mem_keys_decl]

/-- The second comparison passes over every condition. -/
theorem headerProblems_eq_nil : headerProblems u g a = [] := by
  rw [headerProblems, List.filterMap_eq_nil_iff]
  intro cond _
  apply if_pos
  intro member
  obtain ⟨r, _, same⟩ := List.mem_map.mp member
  cases same

theorem staleProblems_nil :
    staleProblems u a = [] ↔ ∀ name ∈ (readHeaders u a.dir).keys, name.head? = some 'N' →
      Declared u a.rows (u.lower (name.drop 1)) := by
  rw [staleProblems, sorted_nil]
  simp only [ite_eq_right_iff, reduceCtorEq, imp_false, not_and, not_not, mem_keys_decl]
  exact forall_keys
    (P := fun name => name.head? = some 'N' → Declared u a.rows (u.lower (name.drop 1)))

theorem readProblems_nil :
    readProblems u g a = [] ↔
      ∀ name ∈ (macroReaders u g.sources ((decl u a.rows).keys.map (macroOf u))).keys,
        name ∈ (readHeaders u a.dir).keys ∨ u.lower (name.drop 1) ∉ emittedNames u g a := by
  have one (name : PyText) (sites : List (PyText × Nat)) :
      (if name ∈ (readHeaders u a.dir).keys then none
        else if u.lower (name.drop 1) ∉ emittedNames u g a then none
        else some (Problem.readUndefined name sites)) = none ↔
        name ∈ (readHeaders u a.dir).keys ∨ u.lower (name.drop 1) ∉ emittedNames u g a := by
    split
    case isTrue known => exact iff_of_true rfl (.inl known)
    case isFalse other =>
        rw [or_iff_right other]
        simp only [ite_eq_left_iff, reduceCtorEq, imp_false, not_not]
  rw [readProblems, sorted_nil]
  simp only [one]
  exact forall_keys (P := fun name =>
    name ∈ (readHeaders u a.dir).keys ∨ u.lower (name.drop 1) ∉ emittedNames u g a)

theorem includeProblems_nil :
    includeProblems u g a = [] ↔
      ∀ name ∈ headerIncluders u g.sources ((decl u a.rows).keys.map header),
        Declared u a.rows (name.take (name.length - 2)) →
          name.take (name.length - 2) ∈ emittedNames u g a := by
  rw [includeProblems, sorted_nil]
  simp only [ite_eq_right_iff, reduceCtorEq, imp_false, not_and, mem_keys_decl]
  exact forall_congr' fun name => imp_congr_right fun _ => ⟨fun excluded declared =>
    not_not.mp fun unknown => excluded unknown declared, fun known unknown declared =>
      unknown (known declared)⟩

theorem arrayProblems_nil :
    arrayProblems u a = [] ↔ ∀ e ∈ a.entries, ∀ r, a.rows.find? (·.init = some e.1) = some r →
      ∀ found, (readHeaders u a.dir).lookup (macroOf u r.name) = some found →
        found.1 = e.2 ∨ headerCount r.number = e.2 := by
  rw [arrayProblems, List.filterMap_eq_nil_iff]
  refine forall_congr' fun e => imp_congr_right fun _ => ?_
  cases a.rows.find? (·.init = some e.1) with
  | none => simp
  | some r =>
      simp only [Option.some.injEq, forall_eq']
      cases (readHeaders u a.dir).lookup (macroOf u r.name) with
      | none => simp
      | some found =>
          simp only [Option.some.injEq, forall_eq', ite_eq_right_iff, reduceCtorEq, imp_false,
            not_and_or, ne_eq, not_not]

theorem bothProblems_nil :
    bothProblems g a = [] ↔
      ∀ names, g.optionDir = some names → ∀ name ∈ names, name ∉ a.dir.map Prod.fst := by
  rw [bothProblems]
  cases g.optionDir with
  | none => simp
  | some names =>
      dsimp only
      rw [List.map_eq_nil_iff, List.eq_nil_iff_forall_not_mem]
      simp only [List.mem_insertionSort, List.mem_filter, decide_eq_true_eq, not_and,
        Option.some.injEq, forall_eq']

theorem forceProblems_nil :
    forceProblems u g a = [] ↔
      ∀ e ∈ readHeaders u a.dir, e.2.2 ∈ forceIncluded u g.metaFeatures := by
  rw [forceProblems, List.map_eq_nil_iff, List.eq_nil_iff_forall_not_mem]
  simp only [List.mem_insertionSort, List.mem_filter, decide_eq_true_eq, not_and, mem_addNew,
    List.not_mem_nil, false_or, not_not, List.forall_mem_map]

theorem problems_nil : problems u g a = [] ↔ Passes u g a := by
  rw [problems, headerProblems_eq_nil, List.append_nil]
  simp only [List.append_eq_nil_iff, and_assoc]
  rw [tableProblems_nil, staleProblems_nil, readProblems_nil, includeProblems_nil,
    arrayProblems_nil, bothProblems_nil, forceProblems_nil]
  constructor
  · intro ⟨table, stale, read, included, array, both, forced⟩
    exact ⟨table, stale, read, included, array, both, forced⟩
  · intro ⟨table, stale, read, included, array, both, forced⟩
    exact ⟨table, stale, read, included, array, both, forced⟩

theorem main_eq_zero_iff : main u g = 0 ↔ ∃ a, g.read u = some a ∧ Passes u g a := by
  rw [main]
  cases g.read u with
  | none => simp
  | some a =>
      simp only [Option.some.injEq, exists_eq_left', ← problems_nil, ← List.isEmpty_iff]
      split <;> simp_all

/-! ## What they leave -/

theorem mem_keys_readHeaders {dir : List (PyText × List PyText)} {name : PyText} :
    name ∈ (readHeaders u dir).keys ↔ ∃ count, Defines u dir name count := by
  rw [readHeaders, PyDict.mem_keys_foldl_set]
  constructor
  · rintro ⟨e, entry, rfl⟩
    obtain ⟨file, member, made⟩ := List.mem_flatMap.mp entry
    split at made
    case isTrue ends =>
        obtain ⟨d, read, rfl⟩ := List.mem_map.mp made
        obtain ⟨line, there, defines⟩ := List.mem_filterMap.mp read
        exact ⟨d.2, file, (List.mem_insertionSort _).mp member, ends, line, there, defines⟩
    case isFalse => cases made
  · rintro ⟨count, file, member, ends, line, there, defines⟩
    refine ⟨(name, count, file.1), List.mem_flatMap.mpr ⟨file, ?_, ?_⟩, rfl⟩
    · exact (List.mem_insertionSort _).mpr member
    · rw [if_pos ends]
      exact List.mem_map.mpr ⟨(name, count), List.mem_filterMap.mpr ⟨line, there, defines⟩, rfl⟩

theorem lookup_decl {rows : List Device} {cond : PyText} (declared : Declared u rows cond) :
    ∃ number, (decl u rows).lookup cond = some number := by
  have known := mem_keys_decl.mpr declared
  cases found : (decl u rows).lookup cond with
  | none => exact absurd known (PyDict.lookup_eq_none_iff_keys.mp found)
  | some number => exact ⟨number, rfl⟩

theorem declared_of_lookup {rows : List Device} {cond : PyText} {number : Option Nat}
    (found : (decl u rows).lookup cond = some number) : Declared u rows cond := by
  apply mem_keys_decl.mp
  by_contra unknown
  rw [PyDict.lookup_eq_none_iff_keys.mpr unknown] at found
  cases found

/-- Where the comparisons that run pass, the headers agree unless one was overlooked. -/
theorem agrees_iff (passes : Passes u g a) : Agrees u g a ↔ ¬ Overlooked u g a := by
  constructor
  · intro agrees overlooked
    cases overlooked with
    | unread cond declared tested on undefined _ =>
        obtain ⟨number, found⟩ := lookup_decl declared
        exact undefined _ (agrees.on cond number found tested on)
    | otherCount cond number found tested on count defined other =>
        exact other (agrees.on cond number found tested on)
    | overridden cond declared tested known off count defined positive =>
        obtain ⟨number, found⟩ := lookup_decl declared
        exact positive (agrees.off cond number found tested off count defined)
  · intro seen
    constructor
    · intro cond number found tested on
      by_contra other
      have declared := declared_of_lookup found
      by_cases defined : ∃ count, Defines u a.dir (macroOf u cond) count
      · obtain ⟨count, defined⟩ := defined
        exact seen (.otherCount cond number found tested on count defined other)
      · refine seen (.unread cond declared tested on (not_exists.mp defined) fun reads => ?_)
        have either := passes.read _ reads
        rw [mem_keys_readHeaders] at either
        exact either.resolve_left defined
    · intro cond number found tested off count defined
      by_contra positive
      have declared := declared_of_lookup found
      have known : cond ∈ OVERRIDES.keys := by
        refine (passes.table cond declared).resolve_right fun on => ?_
        rw [off] at on
        cases on
      exact seen (.overridden cond declared tested known off count defined positive)

/-- The gate is sound but for a header that it overlooks. -/
theorem sound_iff : Sound u g ↔
    ∀ a, g.read u = some a → Passes u g a → ¬ Overlooked u g a := by
  constructor
  · intro sound a read passes
    exact (agrees_iff passes).mp (sound (main_eq_zero_iff.mpr ⟨a, read, passes⟩) a read)
  · intro seen accepted a read
    obtain ⟨a', read', passes⟩ := main_eq_zero_iff.mp accepted
    rw [read] at read'
    cases read'
    exact (agrees_iff passes).mpr (seen a read passes)

/-- `pseudo-device pty 16 init pty_init`, with a header that says `#define NPTY 1`. -/
def handWritten : Gate where
  table := some ["pty\t1\tdevice".toList]
  deviceDir := some [("pty.h".toList, ["#define NPTY 1".toList])]
  expanded := [["pseudo-device pty 16 init pty_init".toList]]
  tree.lines
    | .bsd, .files => ["bsd/kern/tty_pty.c optional pty".toList]
    | _, _ => []
  sources := [("bsd/kern/tty_pty.c".toList, "#if NPTY > 0".toList)]
  array := some ["\t\x7b16,\tpty_init\x7d,\n".toList]
  optionDir := none
  metaFeatures
    | .bsd => some ["#include <pty.h>".toList]
    | _ => none

theorem hand_written_passes : ¬ ∀ (u : Unicode) (g : Gate), Sound u g := by
  intro sound
  have accepted : main .ascii handWritten = 0 := by decide +kernel
  have parsed : devices .ascii handWritten.expanded =
      .ok [⟨"pty".toList, some 16, some "pty_init".toList, .pseudoDevice⟩] := by decide +kernel
  have read : handWritten.read .ascii = some ⟨readTable .ascii ["pty\t1\tdevice".toList],
      [("pty.h".toList, ["#define NPTY 1".toList])],
      [⟨"pty".toList, some 16, some "pty_init".toList, .pseudoDevice⟩],
      readEntries .ascii ["\t\x7b16,\tpty_init\x7d,\n".toList]⟩ := by
    rw [Gate.read, parsed]
    rfl
  have agrees := sound .ascii handWritten accepted _ read
  have tested : Tested .ascii handWritten.tree "pty".toList :=
    ⟨"bsd/kern/tty_pty.c optional pty".toList, ⟨.bsd, .files, List.mem_cons_self⟩,
      by decide +kernel⟩
  obtain ⟨file, member, _, line, there, defines⟩ :=
    agrees.on "pty".toList (some 16) (by decide +kernel) tested (by decide +kernel)
  rw [List.mem_singleton.mp member] at there
  rw [List.mem_singleton.mp there] at defines
  exact absurd defines (by decide +kernel)

end Stage90.XnuConfig

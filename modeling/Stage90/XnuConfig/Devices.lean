import Stage90.Lib.Firsts
import Stage90.Lib.PyDict
import Stage90.Lib.PyText

/-!
# The devices of a configuration

`xnu_config/devices.py`, the parse of the `device` and `pseudo-device` lines that every consumer
reads, and the table that `xnu_config/device_table.py` derives from them.  The Unicode tables are
the interpreter's.
-/

set_option autoImplicit false

namespace Stage90.XnuConfig

open Stage90.Lib
open Stage90.Lib.PyText

/-! ## Declarations -/

inductive Kind
  | pseudoDevice
  | device
  deriving DecidableEq

/-- An entry of `devices`. -/
structure Device where
  name : PyText
  number : Option Nat
  init : Option PyText
  kind : Kind
  deriving DecidableEq

/-- The line of a device that `devices` exits on. -/
structure Unread where
  kind : Kind
  line : PyText
  deriving DecidableEq

def isWord (c : Char) : Bool := !isSpace c

def kindOf (word : PyText) : Option Kind :=
  if word = "pseudo-device".toList then some .pseudoDevice
  else if word = "device".toList then some .device
  else none

def deviceLine (text : PyText) : Option (Kind × PyText × PyText) :=
  match kindOf (text.takeWhile isWord) with
  | none => none
  | some kind =>
      let rest := (text.dropWhile isWord).dropWhile isSpace
      match rest.takeWhile isWord with
      | [] => none
      | name => some (kind, name, (rest.dropWhile isWord).dropWhile isSpace)

variable (u : Unicode)

/-- `NUMBER_RE`: the number that a text begins with, and what stands behind it. -/
def numbered (text : PyText) : Option Nat × PyText :=
  match text.takeWhile fun c => (u.digit c).isSome with
  | [] => (none, text)
  | digits =>
      (some ((digits.filterMap u.digit).foldl (fun n d => 10 * n + d) 0),
        strip (text.dropWhile fun c => (u.digit c).isSome))

/-- `INIT_RE`, of a stripped text. -/
def initOf (text : PyText) : Option PyText :=
  match split text with
  | [word, func] => if word = "init".toList then some func else none
  | _ => none

def deviceOf (line : PyText) : Except Unread (Option Device) :=
  match deviceLine (strip line) with
  | none => .ok none
  | some (kind, name, rest) =>
      match numbered u (strip rest) with
      | (number, []) => .ok (some ⟨name, number, none, kind⟩)
      | (number, rest) =>
          match initOf rest with
          | none => .error ⟨kind, line⟩
          | some func => .ok (some ⟨name, number, some func, kind⟩)

def configurationLines (expanded : List (List PyText)) : List PyText := expanded.flatten

def devices (expanded : List (List PyText)) : Except Unread (List Device) :=
  (configurationLines expanded).filterMapM (deviceOf u)

/-- `mkheaders.c:85-101` -/
def headerCount (number : Option Nat) : Nat := number.getD 1

/-- `mkioconf.c:79-100` -/
def arrayCount : Option Nat → Nat
  | none => 1
  | some number => if number > 0 then number else 1

/-! ## The file lists -/

inductive Component
  | osfmk
  | bsd
  | libkern
  | iokit
  | pexpert
  | libsa
  | security
  | san
  deriving DecidableEq

def components : List Component :=
  [.osfmk, .bsd, .libkern, .iokit, .pexpert, .libsa, .security, .san]

inductive FileName
  | files
  | files_arm
  deriving DecidableEq

/-- The lines of `conf/files` and of `conf/files.arm` of every component, none where there is no
file. -/
structure ConfTree where
  lines : Component → FileName → List PyText

def ConfTree.lists (tree : ConfTree) : List ((Component × FileName) × List PyText) :=
  components.flatMap fun c => [FileName.files, .files_arm].map fun f => ((c, f), tree.lines c f)

def uncommented (line : PyText) : PyText := strip (line.takeWhile (· ≠ '#'))

/-- `LINE`: the words behind `optional`. -/
def optionalWords (line : PyText) : List PyText :=
  match split (uncommented line) with
  | _ :: word :: words => if word = "optional".toList then words else []
  | _ => []

def needs (line : PyText) : List PyText :=
  ((optionalWords line).filter (· ≠ "not".toList)).map u.lower

/-- `conditions`: the file lists that name a condition. -/
def conditions (tree : ConfTree) : PyDict PyText (List (Component × FileName)) :=
  tree.lists.foldl (fun found list =>
    list.2.foldl (fun found line =>
      (needs u line).foldl (fun found cond =>
        (found.setdefault cond []).modify cond (addNew · [list.1])) found) found) []

/-! ## The table -/

/-- `OVERRIDES`, without the reasons. -/
def OVERRIDES : PyDict PyText Nat := [("monotonic".toList, 1), ("xpr_debug".toList, 0)]

def effectiveOverrides (conds : PyDict PyText (List (Component × FileName))) : PyDict PyText Nat :=
  if "monotonic".toList ∈ conds.keys then OVERRIDES else OVERRIDES.pop "monotonic".toList

def derived (rows : List Device) : PyDict PyText Nat :=
  (rows.map fun r => (u.lower r.name, 1)).foldl (fun d e => d.set e.1 e.2) []

def table (rows : List Device) (tree : ConfTree) : PyDict PyText Nat :=
  (effectiveOverrides (conditions u tree)).foldl (fun d e => d.set e.1 e.2) (derived u rows)

/-! ## What is declared and what is tested -/

variable {u}

def ConfTree.Line (tree : ConfTree) (line : PyText) : Prop := ∃ c f, line ∈ tree.lines c f

def Tested (u : Unicode) (tree : ConfTree) (cond : PyText) : Prop :=
  ∃ line, tree.Line line ∧ cond ∈ needs u line

def Declared (u : Unicode) (rows : List Device) (cond : PyText) : Prop :=
  ∃ r ∈ rows, u.lower r.name = cond

theorem mem_lists {tree : ConfTree} {Q : PyText → Prop} :
    (∃ list ∈ tree.lists, ∃ line ∈ list.2, Q line) ↔ ∃ line, tree.Line line ∧ Q line := by
  constructor
  · rintro ⟨list, member, line, there, holds⟩
    obtain ⟨c, _, found⟩ := List.mem_flatMap.mp member
    obtain ⟨f, _, rfl⟩ := List.mem_map.mp found
    exact ⟨line, ⟨c, f, there⟩, holds⟩
  · rintro ⟨line, ⟨c, f, there⟩, holds⟩
    refine ⟨((c, f), tree.lines c f), List.mem_flatMap.mpr ⟨c, ?_, ?_⟩, line, there, holds⟩
    · cases c <;> decide
    · apply List.mem_map_of_mem
      cases f <;> decide

theorem mem_conditions {tree : ConfTree} {cond : PyText} :
    cond ∈ (conditions u tree).keys ↔ Tested u tree cond := by
  have one (list : (Component × FileName) × List PyText)
      (found : PyDict PyText (List (Component × FileName))) (c k : PyText) :
      k ∈ PyDict.keys ((found.setdefault c []).modify c (addNew · [list.1])) ↔
        k ∈ found.keys ∨ k = c := by
    rw [PyDict.keys_modify, PyDict.mem_keys_setdefault]
  have line (list : (Component × FileName) × List PyText)
      (found : PyDict PyText (List (Component × FileName))) (line k : PyText) :=
    PyDict.mem_keys_foldl (one list) (needs u line) found (k := k)
  have list (found : PyDict PyText (List (Component × FileName)))
      (list : (Component × FileName) × List PyText) (k : PyText) :=
    PyDict.mem_keys_foldl (line list) list.2 found (k := k)
  rw [conditions, PyDict.mem_keys_foldl list]
  simp only [PyDict.keys, List.map_nil, List.not_mem_nil, false_or, exists_eq_right']
  exact mem_lists

/-! ## The entries of the table -/

theorem lookup_derived {rows : List Device} {cond : PyText} (declared : Declared u rows cond) :
    (derived u rows).lookup cond = some 1 := by
  obtain ⟨r, member, named⟩ := declared
  have entry : (cond, 1) ∈ (rows.map fun r => (u.lower r.name, 1)).reverse :=
    List.mem_reverse.mpr (List.mem_map.mpr ⟨r, member, by rw [named]⟩)
  rw [derived, PyDict.lookup_foldl_set]
  cases found : (rows.map fun r => (u.lower r.name, 1)).reverse.lookup cond with
  | none => exact absurd rfl (bne_iff_ne.mp (List.lookup_eq_none_iff.mp found _ entry))
  | some n =>
      obtain ⟨before, after, split, _⟩ := List.lookup_eq_some_iff.mp found
      have read : (cond, n) ∈ (rows.map fun r => (u.lower r.name, 1)).reverse := by
        rw [split]
        exact List.mem_append_right before List.mem_cons_self
      obtain ⟨_, _, same⟩ := List.mem_map.mp (List.mem_reverse.mp read)
      have value : 1 = n := congrArg Prod.snd same
      rw [← value]
      rfl

theorem effectiveOverrides_eq (conds : PyDict PyText (List (Component × FileName))) :
    effectiveOverrides conds = (if "monotonic".toList ∈ conds.keys then [("monotonic".toList, 1)]
      else []) ++ [("xpr_debug".toList, 0)] := by
  rw [effectiveOverrides]
  split
  · rfl
  · decide +kernel

/-- An override of a device turns it off when it is `xpr_debug`. -/
theorem lookup_table {rows : List Device} {cond : PyText} (declared : Declared u rows cond)
    (tree : ConfTree) :
    (table u rows tree).lookup cond = some 1 ↔ cond ≠ "xpr_debug".toList := by
  rw [table, PyDict.lookup_foldl_set, lookup_derived declared, effectiveOverrides_eq,
    List.reverse_append, List.reverse_singleton, List.singleton_append, List.lookup_cons]
  by_cases debug : cond = "xpr_debug".toList
  · rw [beq_iff_eq.mpr debug]
    exact iff_of_false (by simp) (not_not.mpr debug)
  · rw [beq_eq_false_iff_ne.mpr debug]
    refine iff_of_true ?_ debug
    dsimp only
    by_cases known : "monotonic".toList ∈ (conditions u tree).keys
    · rw [if_pos known, List.reverse_singleton, List.lookup_cons, List.lookup_nil]
      split <;> rfl
    · rw [if_neg known]
      rfl

end Stage90.XnuConfig

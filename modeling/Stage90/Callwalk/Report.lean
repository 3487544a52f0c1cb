import Stage90.Callwalk.Listing
import Stage90.Callwalk.Walk

/-!
# The report and its exit status

`Image.report`, `report_guarded_stub_sites`, `report_indirect` and `main`.  What is printed is
kept as data; the list of guards that `report` prints last is left out.
-/

set_option autoImplicit false

namespace Stage90.Callwalk

open Stage90.Lib

structure Report where
  path : List PyText
  blind : List (Nat × PyText × Nat × PyText)
  sites : List (PyText × Nat × PyText)

section Image
variable (image : Image) (forced : PyText × Nat → Bool)

/-! ## What the walk cannot follow -/

/-- The recursion of `report_indirect`, `12 - left` deep; nothing is visited below depth 12. -/
def visitIndirect : Nat → PyText →
    List PyText × List (Nat × PyText × Nat × PyText) →
    List PyText × List (Nat × PyText × Nat × PyText)
  | 0, _, found => found
  | left + 1, name, (seen, blind) =>
      if name ∈ seen then (seen, blind)
      else
        let here := (image.indirect name).map fun call => (12 - left, name, call.1, call.2)
        (image.graph.calls name).foldl (fun found c => visitIndirect left c.callee found)
          (name :: seen, blind ++ here)

def reportIndirect (root : PyText) : List (Nat × PyText × Nat × PyText) :=
  (visitIndirect image 13 root ([], [])).2

/-! ## Guarded calls of stubs -/

def descent : List PyText → List (PyText × Nat)
  | name :: next :: path =>
      let left := (image.graph.calls name).find? fun c =>
        c.callee == next && (!c.guarded || forced (name, c.addr))
      (left.map fun c => (name, c.addr)).toList ++ descent (next :: path)
  | _ => []

def reportGuardedStubSites (visited : List PyText) (found : Bool) (path : List PyText) :
    List (PyText × Nat × PyText) × Option Nat :=
  let sites := visited.flatMap fun name =>
    (image.graph.calls name).filterMap fun c =>
      if !c.guarded || !image.graph.stubs c.callee then none
      else if forced (name, c.addr) then none
      else if ((descent image forced path).reverse.lookup name).any (c.addr > ·) then none
      else some (name, c.addr, c.callee)
  if sites = [] then (sites, none) else (sites, some (if found then 0 else 1))

/-- What is printed, and what the function returns: nothing.  A stub without a name does not
count as found. -/
def report (root : PyText) : Option (Report × Option Nat) :=
  (walk image.graph false forced root).map fun walked =>
    let path := walked.1
    let found := path.getLast?.any (· ≠ [])
    let blind := if found then [] else reportIndirect image root
    let sites := (reportGuardedStubSites image forced walked.2 found path).1
    (⟨path, blind, sites⟩, none)

end Image

/-! ## `main` -/

/-- The sites of `--assume-taken` are parsed. -/
structure Args where
  root : PyText
  listStubs : Bool
  assumeTaken : List (PyText × Nat)

def forcedSites (image : Image) (taken : List (PyText × Nat)) (site : PyText × Nat) : Bool :=
  taken.any fun t => site == (t.1, (image.byName t.1).getD 0 + t.2)

/-- `sys.exit`, which takes nothing for success. -/
def exitStatus (returned : Option Nat) : Nat := returned.getD 0

/-- The exit status; `none` is a walk that has not ended. -/
def main (image : Image) (args : Args) : Option Nat :=
  let known (name : PyText) := decide (name ∈ image.functions.map Prod.fst)
  if !args.assumeTaken.all fun site => known site.1 then some (exitStatus (some 2))
  else if args.listStubs then some (exitStatus (some 0))
  else if !known args.root then some (exitStatus (some 2))
  else
    (report image (forcedSites image args.assumeTaken) args.root).map fun done =>
      exitStatus done.2

/-! ## What the status is to tell -/

section Status
variable (image : Image) (forced : PyText × Nat → Bool)

inductive Enters (root : PyText) : PyText → Prop
  | root : Enters root root
  | call {f : PyText} {c : Call PyText} : Enters root f → image.graph.stubs f = false →
      c ∈ image.graph.calls f → follows false forced f c → Enters root c.callee

def Reaches (root : PyText) : Prop := ∃ path, StubPath image.graph false forced root path

def MeetsIndirect (root : PyText) : Prop :=
  ∃ f, Enters image forced root f ∧ image.graph.stubs f = false ∧ image.indirect f ≠ []

/-- "Exit status is 0 when a stub was found, 1 when the walk completed with none, and 2 when it
could not be completed." -/
structure Tells (root : PyText) (status : Nat) : Prop where
  found : status = 0 ↔ Reaches image forced root
  blind : ¬ Reaches image forced root → MeetsIndirect image forced root → status = 2
  complete : ¬ Reaches image forced root → ¬ MeetsIndirect image forced root → status = 1

end Status

section Absent
variable {image : Image} {forced : PyText × Nat → Bool} {root : PyText}

theorem analysis_absent (absent : root ∉ image.functions.map Prod.fst) :
    image.analysis root = none := by
  rw [Image.analysis, lookup_outside absent, Option.map_none]

/-- From a name that is no function there is nothing to walk. -/
theorem not_reaches_absent (absent : root ∉ image.functions.map Prod.fst) :
    ¬ Reaches image forced root := by
  rintro ⟨path, there⟩
  cases there with
  | stub isStub => simp [Image.graph, analysis_absent absent] at isStub
  | call _ member => exact absurd (image.graph.calls_outside root absent ▸ member) nofun

theorem enters_absent (absent : root ∉ image.functions.map Prod.fst) {f : PyText}
    (enters : Enters image forced root f) : f = root := by
  induction enters with
  | root => rfl
  | @call f c _ _ member _ ih =>
      rw [ih, image.graph.calls_outside root absent] at member
      exact absurd member List.not_mem_nil

theorem not_meetsIndirect_absent (absent : root ∉ image.functions.map Prod.fst) :
    ¬ MeetsIndirect image forced root := by
  rintro ⟨f, enters, _, calls⟩
  rw [enters_absent absent enters, Image.indirect, analysis_absent absent] at calls
  exact calls rfl

end Absent

/-- The status of every report is 0, so it tells the answer exactly where a stub is reached. -/
theorem status_tells (image : Image) (root : PyText) (taken : List (PyText × Nat))
    (known : ∀ site ∈ taken, site.1 ∈ image.functions.map Prod.fst) :
    ∃ status, main image ⟨root, false, taken⟩ = some status ∧
      (Tells image (forcedSites image taken) root status ↔
        Reaches image (forcedSites image taken) root) := by
  have sites : (taken.all fun site => decide (site.1 ∈ image.functions.map Prod.fst)) = true :=
    List.all_eq_true.mpr fun site member => decide_eq_true (known site member)
  by_cases present : root ∈ image.functions.map Prod.fst
  · obtain ⟨path, visited, walked, _, _⟩ :=
      walk_exact image.graph false (forcedSites image taken) root
    refine ⟨0, ?_, fun tells => tells.found.mp rfl, fun reaches => ?_⟩
    · simp only [main, sites, present, report, walked]
      rfl
    · exact ⟨⟨fun _ => reaches, fun _ => rfl⟩, fun no => absurd reaches no,
        fun no => absurd reaches no⟩
  · refine ⟨2, ?_, fun tells => ?_, fun reaches => absurd reaches (not_reaches_absent present)⟩
    · simp only [main, sites, present]
      rfl
    · exact absurd (tells.complete (not_reaches_absent present) (not_meetsIndirect_absent present))
        (by decide)

def leaf : Image where
  functions := [("f".toList, [⟨0x8000, "bx".toList, "lr".toList⟩])]
  byName _ := some 0x8000

theorem leaf_reaches_nothing : ¬ Reaches leaf (forcedSites leaf []) "f".toList := by
  have callless : leaf.graph.calls "f".toList = [] := by decide
  rintro ⟨path, there⟩
  cases there with
  | stub isStub => exact absurd isStub (by decide)
  | call _ member => exact absurd (callless ▸ member) List.not_mem_nil

/-- No stub and no indirect call, and the status is that of a stub found. -/
theorem leaf_exits_zero :
    main leaf ⟨"f".toList, false, []⟩ = some 0 ∧
      ¬ Tells leaf (forcedSites leaf []) "f".toList 0 :=
  ⟨by decide, fun tells => leaf_reaches_nothing (tells.found.mp rfl)⟩

def stubbed : Image where
  functions := [("f".toList, [⟨0x8000, "b".toList, "8100 <entry_stub_hit>".toList⟩])]
  byName _ := some 0x8000

theorem status_tells_stubbed :
    main stubbed ⟨"f".toList, false, []⟩ = some 0 ∧
      Tells stubbed (forcedSites stubbed []) "f".toList 0 := by
  have reaches : Reaches stubbed (forcedSites stubbed []) "f".toList :=
    ⟨["f".toList], .stub (by decide)⟩
  obtain ⟨status, run, tells⟩ := status_tells stubbed "f".toList [] nofun
  have zero : main stubbed ⟨"f".toList, false, []⟩ = some 0 := by decide
  obtain rfl : status = 0 := Option.some.inj (run.symm.trans zero)
  exact ⟨zero, tells.mpr reaches⟩

end Stage90.Callwalk

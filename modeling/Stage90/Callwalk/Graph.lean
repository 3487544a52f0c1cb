import Stage90.Lib.UniformCost

/-!
# The call graph and its two searches

`Image.walk` and `Image.guards_to_stub` of `xnu_entry_callwalk.py`, over the calls of each
function, guarded or not, and the set of stubs.  A name without an entry has no calls.
-/

set_option autoImplicit false

namespace Stage90.Callwalk

open Stage90.Lib

structure Call (α : Type) where
  addr : Nat
  callee : α
  guarded : Bool
  deriving DecidableEq

structure Graph (α : Type) where
  functions : List α
  calls : α → List (Call α)
  stubs : α → Bool
  calls_outside : ∀ f, f ∉ functions → calls f = []

section Tool
variable {α : Type} [DecidableEq α] (g : Graph α)

/-! ## `walk` -/

/-- What `visit` closes over. -/
structure Marks (α : Type) where
  seen : List α
  visited : List α

/-- The loop over the calls of `name`: the first path found, and the marks. -/
def tryCalls (guarded : Bool) (forced : α × Nat → Bool) (name : α)
    (visit : α → Marks α → Option (Option (List α) × Marks α)) :
    List (Call α) → Marks α → Option (Option (List α) × Marks α)
  | [], marks => some (none, marks)
  | c :: more, marks =>
      if c.guarded && !guarded && !forced (name, c.addr) then
        tryCalls guarded forced name visit more marks
      else
        match visit c.callee marks with
        | none => none
        | some (some path, marks) => some (some path, marks)
        | some (none, marks) => tryCalls guarded forced name visit more marks

/-- `none` is a recursion deeper than `fuel`. -/
def visit (guarded : Bool) (forced : α × Nat → Bool) :
    Nat → List α → α → Marks α → Option (Option (List α) × Marks α)
  | 0, _, _, _ => none
  | fuel + 1, path, name, marks =>
      if g.stubs name then some (some (path ++ [name]), marks)
      else if name ∈ marks.seen then some (none, marks)
      else
        let visited :=
          if path = [] ∨ marks.visited.getLast? ≠ some name then marks.visited ++ [name]
          else marks.visited
        tryCalls guarded forced name (visit guarded forced fuel (path ++ [name])) (g.calls name)
          ⟨name :: marks.seen, visited⟩

/-- The path, empty where no stub is reached, and the functions entered. -/
def walk (guarded : Bool) (forced : α × Nat → Bool) (root : α) : Option (List α × List α) :=
  (visit g guarded forced (g.functions.length + 2) [] root ⟨[], []⟩).map fun found =>
    (found.1.getD [], found.2.visited)

/-! ## `guards_to_stub` -/

def edges (f : α) : List (Nat × α) :=
  (g.calls f).map fun c => (if c.guarded then 1 else 0, c.callee)

/-- The loop takes `1 << 30` for a function that is not in the index. -/
def unindexed : Nat := 1 <<< 30

def guardsToStub (name : α) : Option (Option Nat) :=
  if g.stubs name then some (some 0)
  else uniformCost (edges g) g.stubs unindexed g.functions name

/-! ## Chains of calls -/

/-- The guarded calls of a chain from `f` to a stub that meets no stub on its way. -/
def Chains (f : α) : Set Nat := {n | ∃ s, Way (edges g) g.stubs f n s ∧ g.stubs s = true}

def follows (guarded : Bool) (forced : α × Nat → Bool) (f : α) (c : Call α) : Prop :=
  c.guarded = false ∨ guarded = true ∨ forced (f, c.addr) = true

/-- A path from `f` along the calls the walk follows, to a stub and past none. -/
inductive StubPath (guarded : Bool) (forced : α × Nat → Bool) : α → List α → Prop
  | stub {s : α} : g.stubs s = true → StubPath guarded forced s [s]
  | call {f : α} {c : Call α} {path : List α} : g.stubs f = false → c ∈ g.calls f →
      follows guarded forced f c → StubPath guarded forced c.callee path →
      StubPath guarded forced f (f :: path)

end Tool

end Stage90.Callwalk

import Stage90.Asm.Translate

/-!
# ARM mnemonics

What the spellings of the load and store mnemonics denote, with the condition before the
suffix as well as behind it.  The stack forms take their addressing mode from the direction:
a full descending stack is popped upwards from its pointer and pushed downwards before it.
-/

set_option autoImplicit false

namespace Stage90.Asm

open Lib

inductive Cond
  | eq | ne | cs | cc | mi | pl | vs | vc | hi | ls | ge | lt | gt | le | al
  deriving DecidableEq, Repr

inductive Direction
  | load
  | store
  deriving DecidableEq, Repr

inductive Mode
  | incrementAfter
  | incrementBefore
  | decrementAfter
  | decrementBefore
  deriving DecidableEq, Repr

inductive Access
  | block (mode : Mode)
  | single (byte user : Bool)
  deriving DecidableEq, Repr

structure Instruction where
  direction : Direction
  cond : Cond
  access : Access
  deriving DecidableEq, Repr

def conditions : List (Text × Cond) :=
  [(['e', 'q'], .eq), (['n', 'e'], .ne), (['c', 's'], .cs), (['h', 's'], .cs), (['c', 'c'], .cc), (['l', 'o'], .cc), (['m', 'i'], .mi),
    (['p', 'l'], .pl), (['v', 's'], .vs), (['v', 'c'], .vc), (['h', 'i'], .hi), (['l', 's'], .ls), (['g', 'e'], .ge), (['l', 't'], .lt),
    (['g', 't'], .gt), (['l', 'e'], .le), (['a', 'l'], .al), ([], .al)]

def addressModes : List (Text × Mode) :=
  [(['i', 'a'], .incrementAfter), (['i', 'b'], .incrementBefore), (['d', 'a'], .decrementAfter),
    (['d', 'b'], .decrementBefore)]

def Direction.stackModes : Direction → List (Text × Mode)
  | .load => [(['f', 'd'], .incrementAfter), (['e', 'd'], .incrementBefore), (['f', 'a'], .decrementAfter),
      (['e', 'a'], .decrementBefore)]
  | .store => [(['f', 'd'], .decrementBefore), (['e', 'd'], .decrementAfter), (['f', 'a'], .incrementBefore),
      (['e', 'a'], .incrementAfter)]

def Direction.blockForms (d : Direction) : List (Text × Access) :=
  (addressModes ++ d.stackModes).map fun form => (form.1, .block form.2)

def singleForms : List (Text × Access) :=
  [([], .single false false), (['b'], .single true false), (['t'], .single false true),
    (['b', 't'], .single true true)]

def operation : Text → Option (Direction × List (Text × Access))
  | ['l', 'd', 'm'] => some (.load, Direction.load.blockForms)
  | ['s', 't', 'm'] => some (.store, Direction.store.blockForms)
  | ['l', 'd', 'r'] => some (.load, singleForms)
  | ['s', 't', 'r'] => some (.store, singleForms)
  | _ => none

/-- The instruction of a mnemonic: its form with the condition on either side of it. -/
def denote (token : Text) : Option Instruction := do
  let (direction, forms) ← operation (token.take 3)
  let rest := token.drop 3
  conditions.findSome? fun c => forms.findSome? fun form =>
    if rest = c.1 ++ form.1 ∨ rest = form.1 ++ c.1 then some ⟨direction, c.2, form.2⟩ else none

def SameInstruction (token token' : Text) : Prop :=
  (denote token).isSome ∧ denote token' = denote token

instance (token token' : Text) : Decidable (SameInstruction token token') :=
  inferInstanceAs (Decidable (_ ∧ _))

/-- Of the two stack forms only the load may be written as an increment after. -/
theorem block_same : ∀ op ∈ ["ldm", "stm"], ∀ c ∈ cond,
    (SameInstruction (op.toList ++ c.toList ++ "fd".toList) (op.toList ++ "ia".toList ++ c.toList) ↔
      op ≠ "stm") := by
  decide +kernel

theorem user_same : ∀ op ∈ ["ldr", "str"], ∀ c ∈ cond, ∀ form ∈ ["bt", "t", "b"],
    SameInstruction (op.toList ++ c.toList ++ form.toList)
      (op.toList ++ form.toList ++ c.toList) := by
  decide +kernel

end Stage90.Asm

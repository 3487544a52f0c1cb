import Stage90.Callwalk.Graph
import Stage90.Lib.PyText
import Stage90.Lib.Regex

/-!
# The calls of a listed function

`Image._guarded_addresses`, `Image._is_guarded` and `Image._analyse`: which calls of a function
are guarded, read off the rows of `objdump -d`.  The inner loop of the traversal and the stack
of what is pending are one loop here, `current` being where the inner loop stands.
-/

set_option autoImplicit false

namespace Stage90.Callwalk

open Stage90.Lib

/-- `(address, mnemonic, operands)` -/
structure Row where
  addr : Nat
  mnemonic : PyText
  operands : PyText
  deriving DecidableEq

def startsWith (text : PyText) (w : String) : Bool := w.toList.isPrefixOf text

def among (text : PyText) (ws : List String) : Bool := ws.any fun w => text == w.toList

/-- `"pc" in operands` -/
def namesPc (operands : PyText) : Bool := PyText.within ['p', 'c'] operands

/-! ## Operands -/

/-- `<([^>]+)>\s*$` -/
def symbolRe : Re :=
  .seqs [.lit "<", .group 1 (.plus (· != '>')), .lit ">", .many PyText.isSpace, .lineEnd]

/-- `_direct_target`: the callee and whether the label is in the function itself. -/
def directTarget (operands current : PyText) : Option PyText × Bool :=
  match symbolRe.search (fun _ => false) operands 0 with
  | none => (none, true)
  | some m =>
      let inside := m.group operands 1
      let name := inside.takeWhile (· != '+')
      let offset := (inside.dropWhile (· != '+')).drop 1
      let isLocal := (offset != [] && name == current) || (offset == [] && name == current)
      (some name, isLocal)

def isHex (c : Char) : Bool := ('0' ≤ c && c ≤ '9') || ('a' ≤ c && c ≤ 'f')

def hexDigit (c : Char) : Nat := if c ≤ '9' then c.toNat - '0'.toNat else c.toNat - 'a'.toNat + 10

/-- `^([0-9a-f]+)\s`, as a number -/
def branchAddress (operands : PyText) : Option Nat :=
  let digits := operands.takeWhile isHex
  if digits ≠ [] ∧ (operands.drop digits.length).head?.any PyText.isSpace then
    some (digits.foldl (fun n c => n * 16 + hexDigit c) 0)
  else none

def localTarget (fn operands : PyText) : Option Nat :=
  if (directTarget operands fn).2 then branchAddress operands else none

/-! ## What is reached without taking a branch -/

/-- The row of an address, the last of them as in a dictionary, and the rows behind it. -/
def locate : List Row → Nat → Option (Row × List Row)
  | [], _ => none
  | row :: rest, addr =>
      match locate rest addr with
      | some found => some found
      | none => if row.addr = addr then some (row, rest) else none

/-- The rows at which the inner loop breaks, but for a plain `b`. -/
def breaks (row : Row) : Bool :=
  among row.mnemonic ["bx", "blx"] ||
    ((startsWith row.mnemonic "pop" || startsWith row.mnemonic "ldm") && namesPc row.operands)

/-- "A conditional branch." -/
def branchesOn (mnemonic : PyText) : Bool :=
  startsWith mnemonic "b" &&
    !among mnemonic ["b", "bl", "bx", "blx", "bic", "bfc", "bfi", "bkpt"]

structure Flow where
  hot : List Nat
  byBranch : List Nat
  pending : List (Nat × Bool)
  current : Option (Nat × Bool)

def flowRound (fn : PyText) (insns : List Row) (s : Flow) : Unit ⊕ Flow :=
  match s.current with
  | none =>
      match s.pending with
      | [] => .inl ()
      | next :: pending => .inr { s with pending := pending, current := some next }
  | some (addr, branched) =>
      match locate insns addr with
      | none => .inr { s with current := none }
      | some (row, rest) =>
          if addr ∈ s.hot ∧ (branched = false ∨ addr ∈ s.byBranch) then
            .inr { s with current := none }
          else
            let s := { s with
              hot := addr :: s.hot
              byBranch := if branched then addr :: s.byBranch else s.byBranch }
            if row.mnemonic = ['b'] then
              match localTarget fn row.operands with
              | some target =>
                  .inr { s with pending := (target, true) :: s.pending, current := none }
              | none => .inr { s with current := none }
            else if breaks row then .inr { s with current := none }
            else
              .inr { s with
                current := rest.head?.map fun next =>
                  (next.addr, branched && !branchesOn row.mnemonic) }

def flowStart (insns : List Row) : Flow where
  hot := []
  byBranch := []
  pending := insns.head?.toList.map fun row => (row.addr, false)
  current := none

def flow (fn : PyText) (insns : List Row) : Option Flow :=
  (rounds (flowRound fn insns) (6 * insns.length + 3) (flowStart insns)).map Prod.snd

def spans (fn : PyText) (insns : List Row) : List (Nat × Nat) :=
  insns.filterMap fun row =>
    if among row.mnemonic ["b", "bl", "blx", "bic", "bfc", "bfi", "bkpt"] then none
    else if !startsWith row.mnemonic "b" then none
    else
      match localTarget fn row.operands with
      | some to_ => if to_ > row.addr then some (row.addr, to_) else none
      | none => none

structure Guards where
  cold : List Nat
  byBranch : List Nat
  spans : List (Nat × Nat)

/-- `none` is a traversal that has not ended. -/
def guardedAddresses (fn : PyText) (insns : List Row) : Option Guards :=
  (flow fn insns).map fun s =>
    { cold := (insns.map Row.addr).filter fun addr => addr ∉ s.hot
      byBranch := s.byBranch
      spans := spans fn insns }

def isGuarded (guards : Guards) (addr : Nat) : Bool :=
  if addr ∈ guards.cold then true
  else decide (addr ∉ guards.byBranch) && guards.spans.any fun span =>
    decide (span.1 < addr ∧ addr < span.2)

/-! ## The image -/

def stubTarget : PyText := "entry_stub_hit".toList

structure Analysis where
  calls : List (Call PyText)
  stub : Bool
  indirect : List (Nat × PyText)

/-- One row of `_analyse`. -/
def analyseRow (fn : PyText) (guards : Guards) (a : Analysis) (row : Row) : Analysis :=
  let (target, isLocal) := directTarget row.operands fn
  if among row.mnemonic ["bl", "blx"] then
    match target with
    | none =>
        if row.mnemonic = "blx".toList || namesPc row.operands then
          { a with indirect := a.indirect ++ [(row.addr, row.operands)] }
        else a
    | some target =>
        { a with
          calls := a.calls ++ [⟨row.addr, target, isGuarded guards row.addr⟩]
          stub := a.stub || target == stubTarget }
  else if row.mnemonic = ['b'] then
    match target with
    | none => a
    | some target =>
        if target = stubTarget then { a with stub := true }
        else if isLocal then a
        else { a with calls := a.calls ++ [⟨row.addr, target, isGuarded guards row.addr⟩] }
  else a

def analyse (fn : PyText) (insns : List Row) : Analysis :=
  insns.foldl (analyseRow fn ((guardedAddresses fn insns).getD ⟨[], [], []⟩)) ⟨[], false, []⟩

/-- What `nm` and `objdump` say of the entry ELF. -/
structure Image where
  functions : List (PyText × List Row)
  byName : PyText → Option Nat

def Image.analysis (image : Image) (name : PyText) : Option Analysis :=
  (image.functions.lookup name).map (analyse name)

def Image.indirect (image : Image) (name : PyText) : List (Nat × PyText) :=
  match image.analysis name with
  | some a => a.indirect
  | none => []

theorem lookup_outside {functions : List (PyText × List Row)} {name : PyText}
    (outside : name ∉ functions.map Prod.fst) : functions.lookup name = none := by
  rw [List.lookup_eq_none_iff]
  intro entry member
  rw [bne_iff_ne]
  exact fun same => outside (same ▸ List.mem_map_of_mem member)

def Image.graph (image : Image) : Graph PyText where
  functions := image.functions.map Prod.fst
  calls name :=
    match image.analysis name with
    | some a => a.calls
    | none => []
  stubs name := (image.analysis name).any Analysis.stub
  calls_outside name outside := by
    rw [Image.analysis, lookup_outside outside]
    rfl

end Stage90.Callwalk

import Mathlib.Algebra.GroupWithZero.Nat
import Mathlib.Logic.Function.Basic

/-!
# The host's replay of the kernel's device tree walk

`xnu_dt_walk.py`: the walk by the kernel's own formula with the findings that it makes, the
payload's `skip_node` beside it, and the loop of `IODeviceTreeAlloc` with its explicit stacks.
A reference to a node is its offset in the blob.
-/

set_option autoImplicit false

namespace Stage90.DeviceTree.Replay

abbrev Bytes := List UInt8

def propNameLen : Nat := 32
def nodeHdr : Nat := 8
def propHdr : Nat := propNameLen + 4

def align4 (v : Nat) : Nat := (v + 3) / 4 * 4

def byte (blob : Bytes) (off : Nat) : Nat := (blob.getD off 0).toNat

def readU32 (blob : Bytes) (off : Nat) : Nat :=
  byte blob off + 2 ^ 8 * byte blob (off + 1) + 2 ^ 16 * byte blob (off + 2) +
    2 ^ 24 * byte blob (off + 3)

/-- `blob[off:off + n]` -/
def slice (blob : Bytes) (off n : Nat) : Bytes := (blob.drop off).take n

def beforeNul (raw : Bytes) : Bytes := raw.takeWhile (· ≠ 0)

/-- `decode("latin-1")` -/
def decodeLatin1 (raw : Bytes) : List Char := raw.map fun b => Char.ofNat b.toNat

/-- The name in the header at `off`, and the 32 bytes of the field. -/
def propName (blob : Bytes) (off : Nat) : Option (List Char) × Bytes :=
  let raw := slice blob off propNameLen
  (if 0 ∈ raw then some (decodeLatin1 (beforeNul raw)) else none, raw)

structure Node where
  off : Nat
  nprops : Nat
  nchildren : Nat
  extent : Option Nat
  parent : Option Nat
  depth : Nat
  deriving DecidableEq

def Node.hdrEnd (node : Node) : Nat := node.off + nodeHdr

structure Finding where
  off : Nat
  text : String
  property : Option Nat
  deriving DecidableEq

def hex (n : Nat) : String := String.ofList (Nat.toDigits 16 n)

def shownName : Option (List Char) → String
  | some name => String.ofList name
  | none => "None"

namespace Finding

def header (off : Nat) : Finding := ⟨off, "node header past the end of the blob", none⟩

def propertyHeader (off i p limit nprops : Nat) : Finding :=
  ⟨off, s!"property {i}: header at 0x{hex p} runs past the blob end (0x{hex limit}) - " ++
    s!"nProperties={nprops} claims more than the node holds", some i⟩

def overflow (off i p : Nat) (name : Option (List Char)) (length : Nat) : Finding :=
  ⟨off, s!"property {i} ('{shownName name}') at 0x{hex p}: length 0x{hex length} overflows " ++
    "next_prop's addition - XNU panics HERE", some i⟩

def pastEnd (off i p : Nat) (name : Option (List Char)) (length : Nat) : Finding :=
  ⟨off, s!"property {i} ('{shownName name}') at 0x{hex p}: length 0x{hex length} " ++
    "walks past the blob end", some i⟩

end Finding

/-- The property loop of `do`: where it ends, or the finding that ends the node with the
position it is left at. -/
def properties (blob : Bytes) (limit off nprops : Nat) : Nat → Nat → Nat → Except (Finding × Nat) Nat
  | 0, _, p => .ok p
  | n + 1, i, p =>
      if limit < p + propHdr then
        .error (.propertyHeader off i p limit nprops, p)
      else
        let length := readU32 blob (p + propNameLen)
        -- `next_prop` is called from the second property on
        let total := ((p + length) % 2 ^ 32 + propHdr + 3) % 2 ^ 32
        let next := p + propHdr + align4 length
        if 0 < i ∧ total < p then
          .error (.overflow off i p (propName blob p).1 length, p)
        else if limit - (next - align4 length - propHdr) < length ∨ limit < next then
          .error (.pastEnd off i (next - propHdr - align4 length) (propName blob p).1 length, next)
        else
          properties blob limit off nprops n (i + 1) next

/-- The two lists that `walk` fills. -/
structure Log where
  nodes : List Node
  findings : List Finding

def Log.find (log : Log) (finding : Finding) : Log :=
  { log with findings := log.findings ++ [finding] }

def Log.append (log : Log) (node : Node) : Log := { log with nodes := log.nodes ++ [node] }

/-- The child loop of `do`, which the first child that is `None` ends. -/
def children (visit : Nat → Log → Option ((Option Node × Nat) × Log)) :
    Nat → Nat → Log → Option (Nat × Log)
  | 0, c, log => some (c, log)
  | n + 1, c, log =>
      match visit c log with
      | none => none
      | some ((none, c), log) => some (c, log)
      | some ((some _, c), log) => children visit n c log

def descend (blob : Bytes) (limit : Nat) :
    Nat → Option Nat → Nat → Nat → Log → Option ((Option Node × Nat) × Log)
  | 0, _, _, _, _ => none
  | fuel + 1, parent, depth, off, log =>
      if limit < off + nodeHdr then
        some ((none, off), log.find (.header off))
      else
        let nprops := readU32 blob off
        let nchildren := readU32 blob (off + 4)
        match properties blob limit off nprops nprops 0 (off + nodeHdr) with
        | .error (finding, p) =>
            -- returned, but not listed
            some ((some ⟨off, nprops, nchildren, none, parent, depth⟩, p), log.find finding)
        | .ok p =>
            let node : Node := ⟨off, nprops, nchildren, some p, parent, depth⟩
            match children (descend blob limit fuel (some off) (depth + 1)) nchildren p
                (log.append node) with
            | none => none
            | some (c, log) => some ((some node, c), log)

structure Walked where
  nodes : List Node
  findings : List Finding
  stop : Nat
  deriving DecidableEq

def walk (blob : Bytes) : Option Walked :=
  match descend blob blob.length (blob.length + 1) none 0 0 ⟨[], []⟩ with
  | none => none
  | some ((_, stop), log) => some ⟨log.nodes, log.findings, stop⟩

/-! ## The payload's walk -/

def payloadProperties (blob : Bytes) (stop : Nat) : Nat → Nat → Option Nat
  | 0, p => some p
  | n + 1, p =>
      if stop < p + propHdr then
        none
      else
        let length := readU32 blob (p + propNameLen)
        if stop < p + propHdr + length then none
        else payloadProperties blob stop n (p + propHdr + align4 length)

def payloadChildren (visit : Nat → Option Nat) : Nat → Nat → Option Nat
  | 0, p => some p
  | n + 1, p =>
      match visit p with
      | none => none
      | some p => payloadChildren visit n p

/-- `do(p, end)`: the position behind the node, or `None`.  No fuel is left past the end alone. -/
def payloadNode (blob : Bytes) (stop : Nat) : Nat → Nat → Option Nat
  | 0, _ => none
  | fuel + 1, p =>
      if stop < p + nodeHdr then
        none
      else
        match payloadProperties blob stop (readU32 blob p) (p + nodeHdr) with
        | none => none
        | some q => payloadChildren (payloadNode blob stop fuel) (readU32 blob (p + 4)) q

def payloadWalk (blob : Bytes) : Option Nat := payloadNode blob blob.length (blob.length + 1) 0

/-! ## The plane -/

/-- An entry of what `node_props` returns. -/
structure Property where
  header : Nat
  name : Option (List Char)
  length : Nat
  value : Nat

def propsFrom (blob : Bytes) : Nat → Nat → List Property
  | 0, _ => []
  | n + 1, p =>
      let length := readU32 blob (p + propNameLen)
      ⟨p, (propName blob p).1, length, p + propHdr⟩ ::
        propsFrom blob n (p + (propHdr + align4 length))

def nodeProps (blob : Bytes) (node : Node) : List Property := propsFrom blob node.nprops node.hdrEnd

def nodeRegistryName (blob : Bytes) (node : Node) : Option (List Char) × Bool :=
  match (nodeProps blob node).find? fun property => property.name = some "name".toList with
  | none => (none, false)
  | some property =>
      let raw := slice blob property.value property.length
      (some (decodeLatin1 (beforeNul raw)), decide (0 ∈ raw))

abbrev Dict (α : Type) := Nat → Option α

/-- The locals of `alloc_plane`. -/
structure Plane where
  parent : Nat
  scope : Nat
  index : Nat
  stack : List Nat
  saved : List (Nat × Nat)
  parentOf : Dict (Option Nat)
  pushes : Nat

/-- One pass of the inner loop, or one step of the outer loop from where the inner one ends to
where it begins again; `none` is the `break`. -/
def Plane.step (children : Nat → List Nat) (plane : Plane) : Option Plane :=
  match (children plane.scope)[plane.index]? with
  | some dtchild =>
      some
        { parent := dtchild
          scope := dtchild
          index := 0
          stack := plane.parent :: plane.stack
          saved := (plane.scope, plane.index + 1) :: plane.saved
          parentOf := Function.update plane.parentOf dtchild (some (some plane.parent))
          pushes := plane.pushes + 1 }
  | none =>
      match plane.stack, plane.saved with
      | parent :: stack, (scope, index) :: saved =>
          some { plane with parent, scope, index, stack, saved }
      | _, _ => none

def Plane.run (children : Nat → List Nat) : Nat → Plane → Option Plane
  | 0, _ => none
  | fuel + 1, plane =>
      match plane.step children with
      | none => some plane
      | some next => run children fuel next

/-- `children[off]` -/
def childrenOf (nodes : List Node) (off : Nat) : List Nat :=
  (nodes.filter fun node => node.parent = some off).map Node.off

structure Allocated where
  parentOf : Dict (Option Nat)
  names : Dict (Option (List Char))
  pushed : Nat

/-- The loop after its first `pop`, which takes the root off the stack again. -/
def planeStart (root : Nat) : Plane where
  parent := root
  scope := root
  index := 0
  stack := []
  saved := []
  parentOf := Function.update (fun _ => none) root (some none)
  pushes := 0

def registryNames (blob : Bytes) (nodes : List Node) : Dict (Option (List Char)) :=
  nodes.foldl
    (fun names node => Function.update names node.off (some (nodeRegistryName blob node).1))
    fun _ => none

/-- Without a node the first look at `children[scope]` is an error, as is running out of fuel
here. -/
def allocPlane (fuel : Nat) (blob : Bytes) (nodes : List Node) : Option Allocated :=
  match nodes.head? with
  | none => none
  | some root =>
      match (planeStart root.off).run (childrenOf nodes) fuel with
      | none => none
      | some plane => some ⟨plane.parentOf, registryNames blob nodes, plane.pushes⟩

end Stage90.DeviceTree.Replay

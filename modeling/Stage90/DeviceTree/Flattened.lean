import Stage90.Lib.Forest
import Stage90.Lib.PyDict
import Stage90.Lib.PyText

/-!
# The readers of a flattened device tree

`fdt_walk`, `fdt_root_props` and `fdt_nodes` of `derive_sdc1_pads.py`, over any blob: a token
loop and what each reader does with a token.  Names and paths are the bytes that `latin1`
decodes one by one.
-/

set_option autoImplicit false

namespace Stage90.Fdt

open Stage90.Lib

abbrev Bytes := List UInt8

/-! ## The token loop -/

/-- `struct.unpack_from('>I', blob, pos)`, which raises behind the end. -/
def unpackWord (blob : Bytes) (pos : Nat) : Option Nat :=
  match blob.drop pos with
  | a :: b :: c :: d :: _ =>
      some (a.toNat * 2 ^ 24 + b.toNat * 2 ^ 16 + c.toNat * 2 ^ 8 + d.toNat)
  | _ => none

/-- The bytes from `off` up to a NUL; `index` raises where there is none. -/
def cstr (blob : Bytes) (off : Nat) : Option Bytes :=
  if 0 ∈ blob.drop off then some ((blob.drop off).takeWhile (· ≠ 0)) else none

/-- `(n + 3) // 4 * 4` -/
def padded (n : Nat) : Nat := (n + 3) / 4 * 4

inductive FdtToken
  | beginNode (name : Bytes)
  | endNode
  | prop (nameOff : Nat) (data : Bytes)
  | nop
  | other
  deriving DecidableEq

def tokenAt (blob : Bytes) (pos : Nat) : Option (FdtToken × Nat) :=
  match unpackWord blob pos with
  | none => none
  | some tok =>
      let pos := pos + 4
      if tok = 1 then
        (cstr blob pos).map fun name => (.beginNode name, pos + padded (name.length + 1))
      else if tok = 2 then some (.endNode, pos)
      else if tok = 3 then
        match unpackWord blob pos, unpackWord blob (pos + 4) with
        | some ln, some noff =>
            let pos := pos + 8
            some (.prop noff ((blob.drop pos).take ln), pos + padded ln)
        | _, _ => none
      else if tok = 4 then some (.nop, pos)
      else some (.other, pos)

/-- What a reader does at a token. -/
inductive Act (S : Type)
  | go (s : S)
  | leave (s : S)
  | raise

inductive Outcome (S : Type)
  | returned (s : S)
  | raised
  deriving DecidableEq

def Outcome.map {S T : Type} (f : S → T) : Outcome S → Outcome T
  | .returned s => .returned (f s)
  | .raised => .raised

/-- `while pos < len(blob)`; `none` is a loop that has not ended. -/
def tokenLoop {S : Type} (act : S → FdtToken → Act S) (blob : Bytes) :
    Nat → Nat → S → Option (Outcome S)
  | 0, _, _ => none
  | fuel + 1, pos, s =>
      if pos < blob.length then
        match tokenAt blob pos with
        | none => some .raised
        | some (token, next) =>
            match act s token with
            | .go s => tokenLoop act blob fuel next s
            | .leave s => some (.returned s)
            | .raise => some .raised
      else some (.returned s)

structure FdtHeader where
  magic : Nat
  offStruct : Nat
  offStr : Nat

/-- `struct.unpack_from('>4I', blob, 0)`; the total size is not used. -/
def fdtHeader (blob : Bytes) : Option FdtHeader :=
  match unpackWord blob 0, unpackWord blob 4, unpackWord blob 8, unpackWord blob 12 with
  | some magic, some _, some offStruct, some offStr => some ⟨magic, offStruct, offStr⟩
  | _, _, _, _ => none

def fdtMagic : Nat := 0xd00dfeed

/-! ## The readers -/

def slash : UInt8 := 0x2f

/-- `'/'.join(names)` -/
def joinPath (names : List Bytes) : Bytes := [slash].intercalate names

def isInfix (part text : Bytes) : Bool := text.tails.any part.isPrefixOf

structure WalkState where
  out : List (Bytes × Bytes)
  stack : List Bytes

def walkAct (blob : Bytes) (offStr : Nat) (wantNode : Bytes) (s : WalkState) :
    FdtToken → Act WalkState
  | .beginNode name => .go { s with stack := s.stack ++ [name] }
  | .endNode =>
      let stack := s.stack.dropLast
      if stack = [] then .leave { s with stack := stack } else .go { s with stack := stack }
  | .prop noff data =>
      if isInfix wantNode (slash :: joinPath s.stack) then
        match cstr blob (offStr + noff) with
        | none => .raise
        | some name => .go { s with out := s.out ++ [(name, data)] }
      else .go s
  | .nop => .go s
  | .other => .leave s

def fdtWalk (blob wantNode : Bytes) : Option (Outcome (List (Bytes × Bytes))) :=
  match fdtHeader blob with
  | none => some .raised
  | some h =>
      if h.magic ≠ fdtMagic then some .raised
      else
        (tokenLoop (walkAct blob h.offStr wantNode) blob (blob.length + 1) h.offStruct
          ⟨[], []⟩).map (Outcome.map WalkState.out)

def ascii (s : String) : Bytes := s.toList.map fun c => UInt8.ofNat c.toNat

def rootPropNames : List Bytes :=
  ["model", "compatible", "qcom,msm-id", "qcom,board-id"].map ascii

structure RootState where
  vals : PyDict Bytes Bytes
  depth : Int

def rootAct (blob : Bytes) (offStr : Nat) (s : RootState) : FdtToken → Act RootState
  | .beginNode _ => .go { s with depth := s.depth + 1 }
  | .endNode =>
      if s.depth - 1 ≤ 0 then .leave { s with depth := s.depth - 1 }
      else .go { s with depth := s.depth - 1 }
  | .prop noff data =>
      if s.depth = 1 then
        match cstr blob (offStr + noff) with
        | none => .raise
        | some name =>
            if name ∈ rootPropNames then .go { s with vals := s.vals.set name data } else .go s
      else .go s
  | .nop => .go s
  | .other => .leave s

/-- The magic is not looked at. -/
def fdtRootProps (blob : Bytes) : Option (Outcome (PyDict Bytes Bytes)) :=
  match fdtHeader blob with
  | none => some .raised
  | some h =>
      (tokenLoop (rootAct blob h.offStr) blob (blob.length + 1) h.offStruct ⟨[], 0⟩).map
        (Outcome.map RootState.vals)

structure NodesState where
  path : List Bytes
  out : PyDict Bytes (PyDict Bytes Bytes)

def nodesAct (blob : Bytes) (offStr : Nat) (s : NodesState) : FdtToken → Act NodesState
  | .beginNode name =>
      let path := s.path ++ [name]
      .go ⟨path, s.out.setdefault (joinPath path) []⟩
  | .endNode => .go { s with path := s.path.dropLast }
  | .prop noff data =>
      match cstr blob (offStr + noff) with
      | none => .raise
      | some name =>
          let key := joinPath s.path
          if key ∈ s.out.keys then
            .go { s with out := s.out.modify key fun props => props.set name data }
          else .raise
  | .nop => .go s
  | .other => .leave s

def fdtNodes (blob : Bytes) : Option (Outcome (PyDict Bytes (PyDict Bytes Bytes))) :=
  match fdtHeader blob with
  | none => some .raised
  | some h =>
      if h.magic ≠ fdtMagic then some .raised
      else
        (tokenLoop (nodesAct blob h.offStr) blob (blob.length + 1) h.offStruct ⟨[], []⟩).map
          (Outcome.map NodesState.out)

/-! ## Well-formed blobs -/

structure FdtProp where
  nameOff : Nat
  name : Bytes
  data : Bytes

structure FdtNode where
  name : Bytes
  props : List FdtProp

/-- A 32-bit word, most significant byte first. -/
def be32 (n : Nat) : Bytes :=
  [UInt8.ofNat (n / 2 ^ 24), UInt8.ofNat (n / 2 ^ 16), UInt8.ofNat (n / 2 ^ 8), UInt8.ofNat n]

def padding (n : Nat) : Bytes := List.replicate (padded n - n) 0

def FdtToken.encode : FdtToken → Bytes
  | .beginNode name => be32 1 ++ name ++ [0] ++ padding (name.length + 1)
  | .endNode => be32 2
  | .prop nameOff data => be32 3 ++ be32 data.length ++ be32 nameOff ++ data ++ padding data.length
  | .nop => be32 4
  | .other => be32 9

/-- The tokens of a forest: each node opens, has its properties and its children, and closes. -/
def tokensOf : Forest FdtNode → List FdtToken
  | .nil => []
  | .node a kids rest =>
      .beginNode a.name :: (a.props.map fun p => .prop p.nameOff p.data) ++
        tokensOf kids ++ .endNode :: tokensOf rest

structure FdtNode.Sound (blob : Bytes) (offStr : Nat) (a : FdtNode) : Prop where
  name : 0 ∉ a.name ∧ slash ∉ a.name
  distinct : (a.props.map FdtProp.name).Nodup
  lengths : ∀ p ∈ a.props, p.data.length < 2 ^ 32 ∧ p.nameOff < 2 ^ 32
  strings : ∀ p ∈ a.props, 0 ∉ p.name ∧ p.name ++ [0] <+: blob.drop (offStr + p.nameOff)

def SiblingsApart : Forest FdtNode → Prop
  | .nil => True
  | .node a kids rest =>
      a.name ∉ rest.roots.map FdtNode.name ∧ SiblingsApart kids ∧ SiblingsApart rest

/-- The structure block is that of a tree, with NOPs between its tokens, and every name of a
property lies in the strings block. -/
structure WellFormed (blob : Bytes) (root : FdtNode) (kids : Forest FdtNode) : Prop where
  header : ∃ (h : FdtHeader) (tokens : List FdtToken) (rest : Bytes), fdtHeader blob = some h ∧ h.magic = fdtMagic ∧
    blob.drop h.offStruct = tokens.flatMap FdtToken.encode ++ FdtToken.encode .other ++ rest ∧
    tokens.filter (· ≠ .nop) = tokensOf (.node root kids .nil) ∧
    ∀ a ∈ (Forest.node root kids .nil).preorder, a.Sound blob h.offStr
  siblings : SiblingsApart (.node root kids .nil)

end Stage90.Fdt

import Stage90.DeviceTree.Builder

/-!
# The device-tree reader

The second half of `apple_dt.c`.  Pointers are 32-bit numbers and 0 is the null pointer.
A walk reads a memory that may end: a read beyond it is a fault.  `skip_node` calls itself
once for every level of a tree, and `fuel` bounds the levels.
-/

set_option autoImplicit false

namespace Stage90.DeviceTree

open Stage90.Lib

abbrev Memory := Nat → Option UInt8

inductive Fault where
  | stray (address : Nat)
  | outOfFuel
  deriving DecidableEq

abbrev Walk := Except Fault

def readByte (m : Memory) (p : Nat) : Walk UInt8 :=
  match m p with
  | some c => pure c
  | none => throw (.stray p)

def readWord (m : Memory) (p : Nat) : Walk Nat := do
  let b0 ← readByte m p
  let b1 ← readByte m (u32 (p + 1))
  let b2 ← readByte m (u32 (p + 2))
  let b3 ← readByte m (u32 (p + 3))
  pure (b0.toNat + 2 ^ 8 * b1.toNat + 2 ^ 16 * b2.toNat + 2 ^ 24 * b3.toNat)

/-- `strcmp(a, b) == 0` for the string at `a` and the bytes of `b` before its NUL. -/
def strcmp (m : Memory) : Nat → List UInt8 → Walk Bool
  | a, [] => do
      let c ← readByte m a
      pure (c == 0)
  | a, d :: b => do
      let c ← readByte m a
      if c ≠ 0 ∧ c = d then strcmp m (u32 (a + 1)) b else pure (c == d)

/-- How a loop over properties ends: `return 0` at a bound, a `return` from the body, or past
the last property. -/
inductive Scan (α : Type) where
  | rejected
  | hit (found : α)
  | done (p : Nat)

/-- The property loop that `skip_node`, `node_has_name` and `apple_dt_get_prop` share.  The body
gets the header and the length. -/
def eachProperty {α : Type} (m : Memory) (end_ : Nat) (body : Nat → Nat → Walk (Option α)) :
    Nat → Nat → Walk (Scan α)
  | 0, p => pure (.done p)
  | count + 1, ph =>
      if end_ < u32 (ph + dtPropHdr) then pure .rejected
      else do
        let length ← readWord m (u32 (ph + dtPropNameLen))
        let p := u32 (ph + dtPropHdr)
        if end_ < u32 (p + length) then pure .rejected
        else
          match ← body ph length with
          | some found => pure (.hit found)
          | none => eachProperty m end_ body count (u32 (p + align4 length))

/-- The child loop of `skip_node`. -/
def skipChildren (skip : Nat → Walk Nat) : Nat → Nat → Walk Nat
  | 0, p => pure p
  | count + 1, p => do
      let p ← skip p
      if p = 0 then pure 0 else skipChildren skip count p

def skipBody (_ph _length : Nat) : Walk (Option Empty) := pure none

def skipNode (m : Memory) (end_ : Nat) : Nat → Nat → Walk Nat
  | 0, _ => throw .outOfFuel
  | fuel + 1, n =>
      if end_ < u32 (n + dtNodeHdr) then pure 0
      else do
        let nProperties ← readWord m n
        match ← eachProperty m end_ skipBody nProperties (u32 (n + dtNodeHdr)) with
        | .rejected => pure 0
        | .done p => do
            let nChildren ← readWord m (u32 (n + 4))
            skipChildren (skipNode m end_ fuel) nChildren p

/-- The bytes of `"name"`. -/
def nameString : List UInt8 := [0x6e, 0x61, 0x6d, 0x65]

def nameBody (m : Memory) (name : List UInt8) (ph length : Nat) : Walk (Option Unit) := do
  let called ← strcmp m ph nameString
  if called ∧ 0 < length then
    let same ← strcmp m (u32 (ph + dtPropHdr)) name
    pure (if same then some () else none)
  else pure none

def nodeHasName (m : Memory) (end_ : Nat) (name : List UInt8) (node : Nat) : Walk Bool :=
  if end_ < u32 (node + dtNodeHdr) then pure false
  else do
    let nProperties ← readWord m node
    match ← eachProperty m end_ (nameBody m name) nProperties (u32 (node + dtNodeHdr)) with
    | .hit _ => pure true
    | _ => pure false

/-- The property loop of `find_child_by_name`, which does not test the values against the end. -/
def skipProperties (m : Memory) (end_ : Nat) : Nat → Nat → Walk (Option Nat)
  | 0, p => pure (some p)
  | count + 1, ph =>
      if end_ < u32 (ph + dtPropHdr) then pure none
      else do
        let length ← readWord m (u32 (ph + dtPropNameLen))
        skipProperties m end_ count (u32 (ph + (dtPropHdr + align4 length)))

/-- The child loop of `find_child_by_name`. -/
def findChildren (m : Memory) (end_ fuel : Nat) (name : List UInt8) : Nat → Nat → Walk Nat
  | 0, _ => pure 0
  | count + 1, child => do
      let found ← nodeHasName m end_ name child
      if found then pure child
      else
        let p ← skipNode m end_ fuel child
        if p = 0 then pure 0 else findChildren m end_ fuel name count p

def findChildByName (m : Memory) (fuel node end_ : Nat) (name : List UInt8) : Walk Nat :=
  if end_ < u32 (node + dtNodeHdr) then pure 0
  else do
    let nProperties ← readWord m node
    match ← skipProperties m end_ nProperties (u32 (node + dtNodeHdr)) with
    | none => pure 0
    | some p => do
        let nChildren ← readWord m (u32 (node + 4))
        findChildren m end_ fuel name nChildren p

/-- `node ? node : root`. -/
def startNode (dt node : Nat) : Nat := if node ≠ 0 then node else dt

def appleDtFindChild (m : Memory) (fuel dt len node : Nat) (name : List UInt8) : Walk Nat :=
  findChildByName m fuel (startNode dt node) (u32 (dt + len)) name

def propBody (m : Memory) (name : List UInt8) (ph length : Nat) : Walk (Option (Nat × Nat)) := do
  let same ← strcmp m ph name
  pure (if same then some (u32 (ph + dtPropHdr), length) else none)

/-- The value's address and what `*prop_len` is left at. -/
def appleDtGetProp (m : Memory) (dt len node : Nat) (name : List UInt8) : Walk (Nat × Nat) :=
  let end_ := u32 (dt + len)
  let n := startNode dt node
  if end_ < u32 (n + dtNodeHdr) then pure (0, 0)
  else do
    let nProperties ← readWord m n
    match ← eachProperty m end_ (propBody m name) nProperties (u32 (n + dtNodeHdr)) with
    | .hit found => pure found
    | _ => pure (0, 0)

end Stage90.DeviceTree

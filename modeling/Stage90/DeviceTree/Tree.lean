import Stage90.DeviceTree.Builder

/-!
# Device trees

A tree, the calls that emit it depth first, and the bytes they leave in a buffer it fits.
-/

set_option autoImplicit false

namespace Stage90.DeviceTree

open Stage90.Lib

/-- A property whose name fits the field with its NUL. -/
structure Property where
  name : List UInt8
  value : List UInt8
  named : name ≠ []
  short : name.length < dtPropNameLen
  unterminated : 0 ∉ name

inductive Node where
  | mk (properties : List Property) (children : List Node)

def Node.properties : Node → List Property
  | .mk properties _ => properties

def Node.children : Node → List Node
  | .mk _ children => children

def Property.size (property : Property) : Nat := dtPropHdr + (property.value.length + 3) / 4 * 4

def Property.encode (property : Property) : List UInt8 := propBytes property.name property.value

mutual

def Node.size : Node → Nat
  | .mk properties children => dtNodeHdr + extent Property.size properties + sizeAll children

def sizeAll : List Node → Nat
  | [] => 0
  | node :: nodes => node.size + sizeAll nodes

end

mutual

/-- How many nodes a path down the tree passes at most. -/
def Node.depth : Node → Nat
  | .mk _ children => depthAll children + 1

def depthAll : List Node → Nat
  | [] => 0
  | node :: nodes => max node.depth (depthAll nodes)

end

mutual

/-- The calls for one tree: its declared counts are what is emitted. -/
def Node.emit : Node → Builder → Builder
  | .mk properties children, b =>
      emitAll children
        (properties.foldl (fun b property => appleDtProp b property.name property.value)
          (appleDtNodeBegin b properties.length children.length))

def emitAll : List Node → Builder → Builder
  | [], b => b
  | node :: nodes, b => emitAll nodes (node.emit b)

end

mutual

def Node.encode : Node → List UInt8
  | .mk properties children =>
      wordBytes properties.length ++ wordBytes children.length ++
        (properties.flatMap Property.encode ++ encodeAll children)

def encodeAll : List Node → List UInt8
  | [] => []
  | node :: nodes => node.encode ++ encodeAll nodes

end

def childrenStart (p : Nat) (node : Node) : Nat :=
  p + dtNodeHdr + extent Property.size node.properties

def placedProperties (p : Nat) (node : Node) : List (Nat × Property) :=
  placed Property.size (p + dtNodeHdr) node.properties

def placedChildren (p : Nat) (node : Node) : List (Nat × Node) :=
  placed Node.size (childrenStart p node) node.children

mutual

def Node.places (p : Nat) : Node → List (Nat × Node)
  | .mk properties children =>
      (p, .mk properties children) ::
        placesAll (childrenStart p (.mk properties children)) children

def placesAll (p : Nat) : List Node → List (Nat × Node)
  | [] => []
  | node :: nodes => node.places p ++ placesAll (p + node.size) nodes

end

/-! ## Sizes -/

theorem Property.length_encode (property : Property) : property.encode.length = property.size :=
  length_propBytes property.name property.value

theorem length_encodeProperties (properties : List Property) :
    (properties.flatMap Property.encode).length = extent Property.size properties := by
  induction properties with
  | nil => rfl
  | cons property properties ih =>
      rw [List.flatMap_cons, List.length_append, Property.length_encode, ih, extent_cons]

mutual

theorem Node.length_encode : ∀ node : Node, node.encode.length = node.size
  | .mk properties children => by
      have below := length_encodeAll children
      simp only [Node.encode, Node.size, List.length_append, length_encodeProperties, below,
        wordBytes, List.length_cons, List.length_nil, dtNodeHdr]
      omega

theorem length_encodeAll : ∀ nodes : List Node, (encodeAll nodes).length = sizeAll nodes
  | [] => rfl
  | node :: nodes => by
      rw [encodeAll, sizeAll, List.length_append, Node.length_encode node, length_encodeAll nodes]

end

theorem sizeAll_eq_extent (nodes : List Node) : sizeAll nodes = extent Node.size nodes := by
  induction nodes with
  | nil => rfl
  | cons node nodes ih => rw [sizeAll, extent_cons, ih]

theorem encodeAll_eq_flatMap (nodes : List Node) : encodeAll nodes = nodes.flatMap Node.encode := by
  induction nodes with
  | nil => rfl
  | cons node nodes ih => rw [encodeAll, List.flatMap_cons, ih]

theorem Property.size_mod (property : Property) : property.size % 4 = 0 := by
  simp only [Property.size, dtPropHdr]
  omega

theorem extentProperties_mod (properties : List Property) :
    extent Property.size properties % 4 = 0 := by
  induction properties with
  | nil => rfl
  | cons property properties ih =>
      have first := property.size_mod
      rw [extent_cons]
      omega

mutual

theorem Node.size_mod : ∀ node : Node, node.size % 4 = 0
  | .mk properties children => by
      have above := extentProperties_mod properties
      have below := sizeAll_mod children
      simp only [Node.size, dtNodeHdr]
      omega

theorem sizeAll_mod : ∀ nodes : List Node, sizeAll nodes % 4 = 0
  | [] => rfl
  | node :: nodes => by
      have first := Node.size_mod node
      have rest := sizeAll_mod nodes
      rw [sizeAll]
      omega

end

theorem Node.size_eq (node : Node) :
    node.size = dtNodeHdr + extent Property.size node.properties +
      extent Node.size node.children := by
  cases node with
  | mk properties children => rw [Node.size, sizeAll_eq_extent, Node.properties, Node.children]

theorem Node.encode_eq (node : Node) :
    node.encode = wordBytes node.properties.length ++ wordBytes node.children.length ++
      (node.properties.flatMap Property.encode ++ node.children.flatMap Node.encode) := by
  cases node with
  | mk properties children =>
      rw [Node.encode, encodeAll_eq_flatMap, Node.properties, Node.children]

/-! ## Emission -/

theorem emitProperties_room (properties : List Property) {b : Builder}
    (room : b.Room (extent Property.size properties)) (aligned : b.pos % 4 = 0) :
    properties.foldl (fun b property => appleDtProp b property.name property.value) b =
      b.wrote (properties.flatMap Property.encode) := by
  induction properties generalizing b with
  | nil => simp
  | cons property properties ih =>
      rw [extent_cons, ← Property.length_encode] at room
      have first : appleDtProp b property.name property.value = b.wrote property.encode :=
        appleDtProp_room (room.mono (Nat.le_add_right _ _)) aligned
      have after : (b.wrote property.encode).pos % 4 = 0 := by
        have := property.size_mod
        rw [Builder.wrote_pos, Property.length_encode]
        omega
      rw [List.foldl_cons, first, ih room.wrote after, Builder.wrote_wrote, List.flatMap_cons]

mutual

theorem Node.emit_room : ∀ (node : Node) {b : Builder}, b.Room node.size → b.pos % 4 = 0 →
    node.emit b = b.wrote node.encode
  | .mk properties children, b, room, aligned => by
      let header := wordBytes properties.length ++ wordBytes children.length
      let body := properties.flatMap Property.encode
      have headerLength : header.length = dtNodeHdr := rfl
      have bodyLength : body.length = extent Property.size properties :=
        length_encodeProperties properties
      rw [Node.size] at room
      have afterHeader : (b.wrote header).Room (body.length + sizeAll children) := by
        apply Builder.Room.wrote
        apply room.mono
        omega
      have afterBody : ((b.wrote header).wrote body).Room (sizeAll children) := afterHeader.wrote
      have headerAligned : (b.wrote header).pos % 4 = 0 := by
        rw [Builder.wrote_pos, headerLength]
        simp only [dtNodeHdr]
        omega
      have bodyAligned : ((b.wrote header).wrote body).pos % 4 = 0 := by
        have := extentProperties_mod properties
        rw [Builder.wrote_pos, bodyLength]
        omega
      rw [Node.emit, appleDtNodeBegin_room (room.mono (by omega)),
        emitProperties_room properties (afterHeader.mono (by omega)) headerAligned,
        emitAll_room children afterBody bodyAligned, Builder.wrote_wrote, Builder.wrote_wrote,
        Node.encode]

theorem emitAll_room : ∀ (nodes : List Node) {b : Builder}, b.Room (sizeAll nodes) →
    b.pos % 4 = 0 → emitAll nodes b = b.wrote (encodeAll nodes)
  | [], b, _, _ => by rw [emitAll, encodeAll, Builder.wrote_nil]
  | node :: nodes, b, room, aligned => by
      rw [sizeAll, ← Node.length_encode] at room
      have after : (b.wrote node.encode).pos % 4 = 0 := by
        have := node.size_mod
        rw [Builder.wrote_pos, Node.length_encode]
        omega
      have first : node.emit b = b.wrote node.encode := by
        apply Node.emit_room node _ aligned
        apply room.mono
        rw [Node.length_encode]
        omega
      rw [emitAll, first, emitAll_room nodes room.wrote after, Builder.wrote_wrote, encodeAll]

end

/-- The builder after `apple_dt_begin`, the tree's calls and `apple_dt_finish`. -/
def serialise (memory : Nat → UInt8) (buf cap : Nat) (tree : Node) : Nat × Builder :=
  appleDtFinish (tree.emit (appleDtBegin memory buf cap))

theorem serialise_room (memory : Nat → UInt8) {buf cap : Nat} {tree : Node} (fits : tree.size ≤ cap)
    (flat : buf + cap < 2 ^ 32) :
    serialise memory buf cap tree =
      (tree.size, (appleDtBegin memory buf cap).wrote tree.encode) := by
  let b := (appleDtBegin memory buf cap).wrote tree.encode
  have room : (appleDtBegin memory buf cap).Room tree.size :=
    ⟨rfl, by simpa [appleDtBegin] using fits, flat⟩
  have position : b.pos = tree.size := by
    rw [Builder.wrote_pos, Node.length_encode]
    exact Nat.zero_add _
  have noPad : bPad4 b = b := by
    have multiple := tree.size_mod
    have aligned : align4 b.pos = b.pos := by
      rw [position, align4_of_lt (by omega)]
      omega
    rw [bPad4, aligned, if_neg (Nat.lt_irrefl _)]
  rw [serialise, Node.emit_room tree room rfl, appleDtFinish, noPad, position]
  rfl

/-! ## Positions -/

section Places
variable {memory : Nat → UInt8}

theorem holds_properties {p : Nat} {node : Node} (there : Holds memory p node.encode) :
    Holds memory (p + dtNodeHdr) (node.properties.flatMap Property.encode) := by
  rw [Node.encode_eq, holds_append] at there
  exact (holds_append.mp there.2).1

theorem holds_children {p : Nat} {node : Node} (there : Holds memory p node.encode) :
    Holds memory (childrenStart p node) (node.children.flatMap Node.encode) := by
  rw [Node.encode_eq, holds_append] at there
  have below := (holds_append.mp there.2).2
  rwa [length_encodeProperties] at below

theorem holds_child {p c : Nat} {node child : Node} (there : Holds memory p node.encode)
    (placed : (c, child) ∈ placedChildren p node) : Holds memory c child.encode :=
  holds_placed Node.length_encode (holds_children there) placed

/-- What is known of a node of the tree at `p`. -/
structure Inside (memory : Nat → UInt8) (p : Nat) (tree : Node) (a : Nat) (node : Node) : Prop where
  holds : Holds memory a node.encode
  after : p ≤ a
  before : a + node.size ≤ p + tree.size
  shallow : node.depth ≤ tree.depth

mutual

theorem Node.places_inside : ∀ (tree : Node) {p a : Nat} {node : Node},
    Holds memory p tree.encode → (a, node) ∈ tree.places p → Inside memory p tree a node
  | .mk properties children, p, a, node, there, member => by
      rcases List.mem_cons.mp member with root | below
      · cases root
        exact ⟨there, Nat.le_refl _, Nat.le_refl _, Nat.le_refl _⟩
      · have holds : Holds memory (childrenStart p (.mk properties children))
            (encodeAll children) := by
          rw [encodeAll_eq_flatMap]
          exact holds_children there
        obtain ⟨holds, after, before, shallow⟩ := placesAll_inside children holds below
        refine ⟨holds, ?_, ?_, ?_⟩
        · rw [childrenStart] at after
          omega
        · rw [childrenStart] at before
          rw [Node.size]
          simp only [Node.properties] at before
          omega
        · rw [Node.depth]
          omega

theorem placesAll_inside : ∀ (nodes : List Node) {p a : Nat} {node : Node},
    Holds memory p (encodeAll nodes) → (a, node) ∈ placesAll p nodes →
    Holds memory a node.encode ∧ p ≤ a ∧ a + node.size ≤ p + sizeAll nodes ∧
      node.depth ≤ depthAll nodes
  | first :: rest, p, a, node, there, member => by
      rw [encodeAll, holds_append, Node.length_encode] at there
      rw [sizeAll, depthAll]
      rcases List.mem_append.mp member with within | later
      · obtain ⟨holds, after, before, shallow⟩ := Node.places_inside first there.1 within
        exact ⟨holds, after, by omega, by omega⟩
      · obtain ⟨holds, after, before, shallow⟩ := placesAll_inside rest there.2 later
        exact ⟨holds, by omega, by omega, by omega⟩

end

theorem Node.depth_child {node child : Node} (member : child ∈ node.children) :
    child.depth < node.depth := by
  cases node with
  | mk properties children =>
      rw [Node.depth]
      apply Nat.lt_succ_of_le
      rw [Node.children] at member
      induction children with
      | nil => simp at member
      | cons first rest ih =>
          rw [depthAll]
          rcases List.mem_cons.mp member with here | later
          · subst here
            omega
          · have := ih later
            omega

end Places

end Stage90.DeviceTree

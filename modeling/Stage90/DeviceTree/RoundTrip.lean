import Mathlib.Data.List.TakeWhile
import Stage90.DeviceTree.Reader
import Stage90.DeviceTree.Tree

/-!
# What the reader finds in a built tree

The bytes of a tree, one walk after the other: words, strings, properties, nodes.  Only the
comparison of a `name` value can leave the value it starts in.
-/

set_option autoImplicit false

namespace Stage90.DeviceTree

open Stage90.Lib

/-- Memory without an end. -/
def whole (memory : Nat → UInt8) : Memory := fun a => some (memory a)

def stringAt (memory : Nat → UInt8) : Nat → List UInt8 → Bool
  | a, [] => memory a == 0
  | a, c :: n => memory a == c && stringAt memory (u32 (a + 1)) n

section Words
variable {memory : Nat → UInt8}

theorem readByte_whole (p : Nat) : readByte (whole memory) p = pure (memory p) := rfl

theorem wordBytes_value {v : Nat} (small : v < 2 ^ 32) :
    (UInt8.ofNat v).toNat + 2 ^ 8 * (UInt8.ofNat (v / 2 ^ 8)).toNat +
        2 ^ 16 * (UInt8.ofNat (v / 2 ^ 16)).toNat + 2 ^ 24 * (UInt8.ofNat (v / 2 ^ 24)).toNat =
      v := by
  simp only [UInt8.toNat_ofNat']
  omega

theorem readWord_whole {p v : Nat} (there : Holds memory p (wordBytes v)) (small : v < 2 ^ 32)
    (flat : p + 4 ≤ 2 ^ 32) : readWord (whole memory) p = pure v := by
  simp only [wordBytes, holds_cons] at there
  obtain ⟨b0, b1, b2, b3, _⟩ := there
  have p1 : u32 (p + 1) = p + 1 := u32_of_lt (by omega)
  have p2 : u32 (p + 2) = p + 1 + 1 := u32_of_lt (by omega)
  have p3 : u32 (p + 3) = p + 1 + 1 + 1 := u32_of_lt (by omega)
  simp only [readWord, readByte_whole, pure_bind, p1, p2, p3, b0, b1, b2, b3]
  rw [wordBytes_value small]

theorem strcmp_whole (a : Nat) {n : List UInt8} (unterminated : 0 ∉ n) :
    strcmp (whole memory) a n = pure (stringAt memory a n) := by
  induction n generalizing a with
  | nil => rfl
  | cons c n ih =>
      have nonzero : c ≠ 0 := fun zero => unterminated (zero ▸ List.mem_cons_self)
      have rest : 0 ∉ n := fun member => unterminated (List.mem_cons_of_mem c member)
      simp only [strcmp, readByte_whole, pure_bind, stringAt]
      by_cases same : memory a = c
      · rw [if_pos ⟨same ▸ nonzero, same⟩, ih _ rest]
        simp [same]
      · have different : (memory a == c) = false := beq_eq_false_iff_ne.mpr same
        rw [if_neg fun both => same both.2, different, Bool.false_and]

theorem stringAt_holds {a : Nat} {s n : List UInt8} (there : Holds memory a (s ++ [0]))
    (plain : 0 ∉ s) (unterminated : 0 ∉ n) (flat : a + s.length < 2 ^ 32) :
    stringAt memory a n = decide (n = s) := by
  induction s generalizing a n with
  | nil =>
      have zero : memory a = 0 := (holds_cons.mp there).1
      cases n with
      | nil => simp [stringAt, zero]
      | cons c n =>
          have nonzero : c ≠ 0 := fun zero => unterminated (zero ▸ List.mem_cons_self)
          simp [stringAt, zero, nonzero.symm]
  | cons d s ih =>
      rw [List.cons_append, holds_cons] at there
      have nonzero : d ≠ 0 := fun zero => plain (zero ▸ List.mem_cons_self)
      cases n with
      | nil => simp [stringAt, there.1, nonzero]
      | cons c n =>
          rw [List.length_cons] at flat
          have next : u32 (a + 1) = a + 1 := u32_of_lt (by omega)
          have rest := ih there.2 (fun member => plain (List.mem_cons_of_mem d member))
            (fun member => unterminated (List.mem_cons_of_mem c member)) (by omega)
          simp only [stringAt, there.1, next, rest]
          by_cases same : c = d
          · simp [same]
          · simp [same, Ne.symm same]

end Words

/-! ## One property -/

theorem nameField_eq (property : Property) :
    nameField property.name =
      property.name ++ [0] ++ List.replicate (dtPropNameLen - property.name.length - 1) 0 := by
  have short := property.short
  have whole : property.name.takeWhile (· ≠ 0) = property.name := by
    rw [List.takeWhile_eq_self_iff]
    intro c member
    have nonzero : c ≠ 0 := fun zero => property.unterminated (zero ▸ member)
    simpa using nonzero
  have all : property.name.take (dtPropNameLen - 1) = property.name :=
    List.take_of_length_le (by omega)
  have pads : List.replicate (dtPropNameLen - property.name.length) (0 : UInt8) =
      [0] ++ List.replicate (dtPropNameLen - property.name.length - 1) 0 := by
    rw [List.singleton_append, ← List.replicate_succ]
    congr 1
    omega
  simp only [nameField, whole, all, pads, List.append_assoc]

/-- A property of the tree that is where the reader looks for it. -/
structure Standing (memory : Nat → UInt8) (ph : Nat) (property : Property) : Prop where
  holds : Holds memory ph property.encode
  flat : ph + property.size < 2 ^ 32

namespace Standing
variable {memory : Nat → UInt8} {ph : Nat} {property : Property}

theorem room (standing : Standing memory ph property) :
    ph + dtPropHdr + property.value.length < 2 ^ 32 := by
  have flat := standing.flat
  rw [Property.size] at flat
  omega

theorem value (standing : Standing memory ph property) :
    Holds memory (ph + dtPropHdr) property.value := by
  have holds := standing.holds
  rw [Property.encode, propBytes, holds_append, holds_append] at holds
  have header : (nameField property.name ++ wordBytes property.value.length).length = dtPropHdr := by
    rw [List.length_append, length_nameField]
    rfl
  rw [← header]
  exact holds.1.2

theorem length (standing : Standing memory ph property) :
    readWord (whole memory) (u32 (ph + dtPropNameLen)) = pure property.value.length := by
  have room := standing.room
  have holds := standing.holds
  rw [Property.encode, propBytes, holds_append, holds_append, holds_append, length_nameField] at holds
  simp only [dtPropHdr] at room
  have start : u32 (ph + dtPropNameLen) = ph + dtPropNameLen :=
    u32_of_lt (by simp only [dtPropNameLen]; omega)
  rw [start]
  apply readWord_whole holds.1.1.2
  · omega
  · simp only [dtPropNameLen]
    omega

theorem called (standing : Standing memory ph property) {n : List UInt8} (unterminated : 0 ∉ n) :
    strcmp (whole memory) ph n = pure (decide (n = property.name)) := by
  have room := standing.room
  have short := property.short
  have holds := standing.holds
  rw [Property.encode, propBytes, holds_append, holds_append, holds_append, nameField_eq,
    holds_append] at holds
  rw [strcmp_whole ph unterminated,
    stringAt_holds holds.1.1.1.1 property.unterminated unterminated]
  simp only [dtPropHdr, dtPropNameLen] at room short
  omega

end Standing

theorem standing_placed {memory : Nat → UInt8} {p ph end_ : Nat} {properties : List Property}
    {property : Property} (there : Holds memory p (properties.flatMap Property.encode))
    (within : p + extent Property.size properties ≤ end_) (flat : end_ < 2 ^ 32)
    (member : (ph, property) ∈ placed Property.size p properties) :
    Standing memory ph property := by
  refine ⟨holds_placed Property.length_encode there member, ?_⟩
  have := (placed_within member).2
  omega

/-! ## The property loops -/

section Loops
variable {memory : Nat → UInt8} {end_ : Nat} (flat : end_ < 2 ^ 32)
include flat

theorem property_numbers {p : Nat} {property : Property} (within : p + property.size ≤ end_) :
    u32 (p + dtPropHdr) = p + dtPropHdr ∧
      u32 (p + dtPropHdr + property.value.length) = p + dtPropHdr + property.value.length ∧
      ¬ end_ < p + dtPropHdr + property.value.length ∧
      u32 (p + dtPropHdr + align4 property.value.length) = p + property.size ∧
      u32 (p + (dtPropHdr + align4 property.value.length)) = p + property.size := by
  rw [Property.size] at within ⊢
  have aligned : align4 property.value.length = (property.value.length + 3) / 4 * 4 := by
    apply align4_of_lt
    simp only [dtPropHdr] at within
    omega
  rw [aligned]
  refine ⟨u32_of_lt ?_, u32_of_lt ?_, ?_, ?_, ?_⟩
  · omega
  · omega
  · omega
  · rw [u32_of_lt (by omega), Nat.add_assoc]
  · exact u32_of_lt (by omega)

theorem eachProperty_placed {α : Type} {body : Nat → Nat → Walk (Option α)}
    (test : Nat → Property → Option α) (properties : List Property) (p : Nat)
    (bodies : ∀ ph property, (ph, property) ∈ placed Property.size p properties →
      body ph property.value.length = pure (test ph property))
    (there : Holds memory p (properties.flatMap Property.encode))
    (within : p + extent Property.size properties ≤ end_) :
    eachProperty (whole memory) end_ body properties.length p =
      pure (match (placed Property.size p properties).findSome? fun at_ => test at_.1 at_.2 with
        | some found => .hit found
        | none => .done (p + extent Property.size properties)) := by
  induction properties generalizing p with
  | nil => rfl
  | cons property properties ih =>
      have standing : Standing memory p property :=
        standing_placed there within flat List.mem_cons_self
      rw [List.flatMap_cons, holds_append, Property.length_encode] at there
      rw [extent_cons] at within
      obtain ⟨header, value, inside, next, _⟩ := @property_numbers _ flat p property
        (by omega)
      rw [List.length_cons, eachProperty, header, if_neg (by omega), standing.length, pure_bind]
      dsimp only
      rw [value, if_neg inside, bodies p property List.mem_cons_self, pure_bind, placed,
        List.findSome?_cons]
      cases test p property with
      | some found => rfl
      | none =>
          rw [next, extent_cons, ← Nat.add_assoc]
          exact ih _ (fun ph other member => bodies ph other (List.mem_cons_of_mem _ member))
            there.2 (by omega)

theorem skipProperties_placed (properties : List Property) (p : Nat)
    (there : Holds memory p (properties.flatMap Property.encode))
    (within : p + extent Property.size properties ≤ end_) :
    skipProperties (whole memory) end_ properties.length p =
      pure (some (p + extent Property.size properties)) := by
  induction properties generalizing p with
  | nil => rfl
  | cons property properties ih =>
      have standing : Standing memory p property :=
        standing_placed there within flat List.mem_cons_self
      rw [List.flatMap_cons, holds_append, Property.length_encode] at there
      rw [extent_cons] at within
      obtain ⟨header, _, inside, _, next⟩ := @property_numbers _ flat p property
        (by omega)
      rw [List.length_cons, skipProperties, header, if_neg (by omega), standing.length, pure_bind,
        next, extent_cons, ← Nat.add_assoc]
      exact ih _ there.2 (by omega)

end Loops

/-! ## Nodes -/

section Nodes
variable {memory : Nat → UInt8} {end_ : Nat}

theorem Property.size_pos (property : Property) : 0 < property.size := by
  rw [Property.size, dtPropHdr]
  omega

theorem Node.size_pos (node : Node) : 0 < node.size := by
  rw [Node.size_eq, dtNodeHdr]
  omega

structure Laid (memory : Nat → UInt8) (end_ p : Nat) (node : Node) : Prop where
  holds : Holds memory p node.encode
  within : p + node.size ≤ end_
  flat : end_ < 2 ^ 32

namespace Laid
variable {p : Nat} {node : Node}

theorem header (laid : Laid memory end_ p node) : u32 (p + dtNodeHdr) = p + dtNodeHdr := by
  have within := laid.within
  have flat := laid.flat
  rw [Node.size_eq] at within
  exact u32_of_lt (by omega)

theorem fits (laid : Laid memory end_ p node) : ¬ end_ < p + dtNodeHdr := by
  have within := laid.within
  rw [Node.size_eq] at within
  omega

theorem counts (laid : Laid memory end_ p node) :
    readWord (whole memory) p = pure node.properties.length ∧
      readWord (whole memory) (u32 (p + 4)) = pure node.children.length := by
  have holds := laid.holds
  have within := laid.within
  have flat := laid.flat
  rw [Node.encode_eq, holds_append, holds_append] at holds
  rw [Node.size_eq] at within
  simp only [dtNodeHdr] at within
  have properties : node.properties.length ≤ extent Property.size node.properties :=
    length_le_extent Property.size fun property _ => property.size_pos
  have children : node.children.length ≤ extent Node.size node.children :=
    length_le_extent Node.size fun child _ => child.size_pos
  have second : u32 (p + 4) = p + 4 := u32_of_lt (by omega)
  constructor
  · exact readWord_whole holds.1.1 (by omega) (by omega)
  · rw [second]
    exact readWord_whole holds.1.2 (by omega) (by omega)

theorem propertiesEnd (laid : Laid memory end_ p node) :
    p + dtNodeHdr + extent Property.size node.properties ≤ end_ := by
  have within := laid.within
  rw [Node.size_eq] at within
  omega

theorem child (laid : Laid memory end_ p node) {c : Nat} {child : Node}
    (member : (c, child) ∈ placedChildren p node) : Laid memory end_ c child := by
  refine ⟨holds_child laid.holds member, ?_, laid.flat⟩
  have inside := (placed_within member).2
  have within := laid.within
  rw [Node.size_eq] at within
  rw [childrenStart] at inside
  omega

end Laid

theorem skipBody_placed {p : Nat} {node : Node} (laid : Laid memory end_ p node) :
    eachProperty (whole memory) end_ skipBody node.properties.length (p + dtNodeHdr) =
      pure (.done (p + dtNodeHdr + extent Property.size node.properties)) := by
  rw [eachProperty_placed laid.flat (fun _ _ => none) node.properties (p + dtNodeHdr)
    (fun _ _ _ => rfl) (holds_properties laid.holds) laid.propertiesEnd,
    List.findSome?_eq_none_iff.mpr fun _ _ => rfl]

mutual

theorem skipNode_laid : ∀ (node : Node) {p fuel : Nat}, Laid memory end_ p node →
    node.depth ≤ fuel → skipNode (whole memory) end_ fuel p = pure (p + node.size)
  | .mk properties children, p, 0, _, deep => by
      rw [Node.depth] at deep
      omega
  | .mk properties children, p, fuel + 1, laid, deep => by
      have below : Holds memory (p + dtNodeHdr + extent Property.size properties)
          (encodeAll children) := by
        rw [encodeAll_eq_flatMap]
        exact holds_children laid.holds
      have within := laid.within
      rw [Node.size] at within
      rw [Node.depth] at deep
      rw [skipNode, laid.header, if_neg laid.fits, laid.counts.1, pure_bind, skipBody_placed laid,
        pure_bind]
      dsimp only [Node.properties]
      rw [laid.counts.2, pure_bind, Node.children,
        skipChildren_laid children below (by omega) laid.flat (by omega), Node.size]
      congr 1
      omega

theorem skipChildren_laid : ∀ (nodes : List Node) {p fuel : Nat},
    Holds memory p (encodeAll nodes) → p + sizeAll nodes ≤ end_ → end_ < 2 ^ 32 →
    depthAll nodes ≤ fuel →
    skipChildren (skipNode (whole memory) end_ fuel) nodes.length p = pure (p + sizeAll nodes)
  | [], p, fuel, _, _, _, _ => rfl
  | node :: nodes, p, fuel, there, within, flat, deep => by
      rw [encodeAll, holds_append, Node.length_encode] at there
      rw [sizeAll] at within
      rw [depthAll] at deep
      have some : p + node.size ≠ 0 := by
        have := node.size_pos
        omega
      rw [List.length_cons, skipChildren,
        skipNode_laid node ⟨there.1, by omega, flat⟩ (by omega), pure_bind, if_neg some,
        skipChildren_laid nodes there.2 (by omega) flat (by omega), sizeAll, Nat.add_assoc]

end

/-- What `node_has_name` tests: the string that starts at the value, wherever it ends. -/
def answersTo (memory : Nat → UInt8) (n : List UInt8) (c : Nat × Node) : Bool :=
  (placedProperties c.1 c.2).any fun at_ =>
    at_.2.name == nameString && !at_.2.value.isEmpty && stringAt memory (at_.1 + dtPropHdr) n

theorem nodeHasName_laid {p : Nat} {node : Node} {n : List UInt8} (laid : Laid memory end_ p node)
    (unterminated : 0 ∉ n) :
    nodeHasName (whole memory) end_ n p = pure (answersTo memory n (p, node)) := by
  let test (ph : Nat) (property : Property) : Option Unit :=
    if property.name == nameString && !property.value.isEmpty &&
        stringAt memory (ph + dtPropHdr) n then some () else none
  have bodies : ∀ ph property, (ph, property) ∈ placedProperties p node →
      nameBody (whole memory) n ph property.value.length = pure (test ph property) := by
    intro ph property member
    have standing : Standing memory ph property :=
      standing_placed (holds_properties laid.holds) laid.propertiesEnd laid.flat member
    have room := standing.room
    have value : u32 (ph + dtPropHdr) = ph + dtPropHdr := u32_of_lt (by omega)
    have plain : 0 ∉ nameString := by decide
    rw [nameBody, standing.called plain, pure_bind, value, strcmp_whole _ unterminated]
    by_cases called : nameString = property.name
    · cases empty : property.value with
      | nil => simp [test, empty]
      | cons c value => simp [test, called, empty]
    · simp [test, called, Ne.symm called]
  have body := eachProperty_placed laid.flat test node.properties (p + dtNodeHdr) bodies
    (holds_properties laid.holds) laid.propertiesEnd
  rw [nodeHasName, laid.header, if_neg laid.fits, laid.counts.1, pure_bind, body, pure_bind,
    answersTo]
  cases scan : (placed Property.size (p + dtNodeHdr) node.properties).findSome?
      fun at_ => test at_.1 at_.2 with
  | some found =>
      obtain ⟨at_, member, passes⟩ := List.exists_of_findSome?_eq_some scan
      have answers : answersTo memory n (p, node) = true := by
        apply List.any_eq_true.mpr
        refine ⟨at_, member, ?_⟩
        by_contra fails
        simp only [test, if_neg fails] at passes
        cases passes
      exact congrArg pure answers.symm
  | none =>
      have silent : answersTo memory n (p, node) = false := by
        apply List.any_eq_false.mpr
        intro at_ member passes
        have turn := List.findSome?_eq_none_iff.mp scan at_ member
        simp only [test, if_pos passes] at turn
        cases turn
      exact congrArg pure silent.symm

end Nodes

end Stage90.DeviceTree

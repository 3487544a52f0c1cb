import Stage90.DeviceTree.RoundTrip

/-!
# Lookups in a built tree

`apple_dt_find_child` and `apple_dt_get_prop` against the tree.  A `name` value with no NUL
in it runs on into what follows, and the lookup by name is right exactly when no such string
names the child.
-/

set_option autoImplicit false

namespace Stage90.DeviceTree

open Stage90.Lib

/-- The node has a `name` property whose value, up to a NUL inside it, is `n`. -/
def Node.Named (n : List UInt8) (node : Node) : Prop :=
  ∃ property ∈ node.properties, property.name = nameString ∧ 0 ∈ property.value ∧
    property.value.takeWhile (· ≠ 0) = n

instance (n : List UInt8) (node : Node) : Decidable (node.Named n) :=
  inferInstanceAs (Decidable (∃ property ∈ node.properties, _))

/-- The first child called `n`, with its position. -/
def firstNamed (n : List UInt8) (p : Nat) (node : Node) : Option (Nat × Node) :=
  (placedChildren p node).find? fun c => c.2.Named n

def pointer (found : Option (Nat × Node)) : Nat :=
  match found with
  | some c => c.1
  | none => 0

/-- What `apple_dt_get_prop` should return for the property it finds: its value's bytes and
length, or null. -/
def Returns (memory : Nat → UInt8) (result : Walk (Nat × Nat)) : Option Property → Prop
  | some property =>
      ∃ p, p ≠ 0 ∧ result = pure (p, property.value.length) ∧ Holds memory p property.value
  | none => result = pure (0, 0)

/-- The argument `handle` names the node at `p`: by its address, or the root by null. -/
structure Handle (base : Nat) (tree : Node) (handle p : Nat) (node : Node) : Prop where
  place : (p, node) ∈ tree.places base
  names : handle = p ∨ handle = 0 ∧ p = base

/-- The buffer reads back as the tree that was built in it. -/
structure RoundTrip (built : Nat × Builder) (tree : Node) : Prop where
  finishes : built.1 = tree.size
  skips : ∀ fuel, tree.depth ≤ fuel →
    skipNode (whole built.2.memory) (u32 (built.2.base + built.1)) fuel built.2.base =
      pure (built.2.base + built.1)
  finds : ∀ handle p node, Handle built.2.base tree handle p node →
    ∀ fuel, tree.depth ≤ fuel → ∀ n, 0 ∉ n →
      appleDtFindChild (whole built.2.memory) fuel built.2.base built.1 handle n =
        pure (pointer (firstNamed n p node))
  gets : ∀ handle p node, Handle built.2.base tree handle p node → ∀ n, 0 ∉ n →
    Returns built.2.memory
      (appleDtGetProp (whole built.2.memory) built.2.base built.1 handle n)
      (node.properties.find? fun property => property.name == n)

/-- In the node at `p`, a string that starts at a child's unterminated `name` value and runs on
behind it is already the name of that child or of one before it. -/
def NamesEnd (memory : Nat → UInt8) (p : Nat) (node : Node) : Prop :=
  ∀ before c after, placedChildren p node = before ++ c :: after →
    ∀ at_ ∈ placedProperties c.1 c.2, at_.2.name = nameString → at_.2.value ≠ [] →
      0 ∉ at_.2.value → ∀ n, 0 ∉ n → stringAt memory (at_.1 + dtPropHdr) n = true →
        ∃ e ∈ before ++ [c], e.2.Named n

section Lookups
variable {memory : Nat → UInt8} {end_ p : Nat} {node : Node}

/-! ## Children -/

theorem findChildren_placed {fuel : Nat} {n : List UInt8} (unterminated : 0 ∉ n)
    (nodes : List Node) {p : Nat}
    (laid : ∀ c ∈ placed Node.size p nodes, Laid memory end_ c.1 c.2)
    (deep : ∀ child ∈ nodes, child.depth ≤ fuel) :
    findChildren (whole memory) end_ fuel n nodes.length p =
      pure (pointer ((placed Node.size p nodes).find? (answersTo memory n))) := by
  induction nodes generalizing p with
  | nil => rfl
  | cons child nodes ih =>
      have here : Laid memory end_ p child := laid (p, child) List.mem_cons_self
      rw [List.length_cons, findChildren, nodeHasName_laid here unterminated, pure_bind, placed,
        List.find?_cons]
      cases answersTo memory n (p, child) with
      | true => rfl
      | false =>
          have some : p + child.size ≠ 0 := by
            have := child.size_pos
            omega
          rw [if_neg Bool.false_ne_true, skipNode_laid child here (deep child List.mem_cons_self),
            pure_bind, if_neg some]
          exact ih (fun c member => laid c (List.mem_cons_of_mem _ member))
            fun other member => deep other (List.mem_cons_of_mem _ member)

theorem findChildByName_laid {fuel : Nat} {n : List UInt8} (laid : Laid memory end_ p node)
    (deep : node.depth ≤ fuel) (unterminated : 0 ∉ n) :
    findChildByName (whole memory) fuel p end_ n =
      pure (pointer ((placedChildren p node).find? (answersTo memory n))) := by
  have properties := skipProperties_placed laid.flat node.properties (p + dtNodeHdr)
    (holds_properties laid.holds) laid.propertiesEnd
  rw [findChildByName, laid.header, if_neg laid.fits, laid.counts.1, pure_bind, properties,
    pure_bind]
  dsimp only
  rw [laid.counts.2, pure_bind]
  apply findChildren_placed unterminated
  · intro c member
    exact laid.child member
  · intro child member
    have := Node.depth_child member
    omega

theorem split_at_zero {value : List UInt8} (terminated : 0 ∈ value) :
    0 ∉ value.takeWhile (· ≠ 0) ∧ ∃ rest, value = value.takeWhile (· ≠ 0) ++ 0 :: rest := by
  induction value with
  | nil => simp at terminated
  | cons c value ih =>
      by_cases zero : c = 0
      · simp [zero]
      · have later : 0 ∈ value := by
          rcases List.mem_cons.mp terminated with here | later
          · exact absurd here.symm zero
          · exact later
        obtain ⟨plain, rest, split⟩ := ih later
        have kept : (c :: value).takeWhile (· ≠ 0) = c :: value.takeWhile (· ≠ 0) :=
          List.takeWhile_cons_of_pos (by simpa using zero)
        rw [kept]
        refine ⟨?_, rest, congrArg (c :: ·) split⟩
        intro member
        rcases List.mem_cons.mp member with here | there
        · exact zero here.symm
        · exact plain there

/-- A NUL in the value ends the string there. -/
theorem stringAt_value {ph : Nat} {property : Property} {n : List UInt8}
    (standing : Standing memory ph property) (terminated : 0 ∈ property.value)
    (unterminated : 0 ∉ n) :
    stringAt memory (ph + dtPropHdr) n = decide (n = property.value.takeWhile (· ≠ 0)) := by
  have room := standing.room
  obtain ⟨plain, rest, split⟩ := split_at_zero terminated
  have there := standing.value
  rw [split, List.append_cons, holds_append] at there
  apply stringAt_holds there.1 plain unterminated
  have := congrArg List.length split
  simp only [List.length_append] at this
  omega

theorem answersTo_iff {n : List UInt8} {c : Nat × Node} :
    answersTo memory n c = true ↔ ∃ at_ ∈ placedProperties c.1 c.2, at_.2.name = nameString ∧
      at_.2.value ≠ [] ∧ stringAt memory (at_.1 + dtPropHdr) n = true := by
  simp [answersTo, List.any_eq_true, and_assoc]

theorem answersTo_named {n : List UInt8} {c : Nat × Node} (laid : Laid memory end_ c.1 c.2)
    (unterminated : 0 ∉ n) (named : c.2.Named n) : answersTo memory n c = true := by
  obtain ⟨property, member, called, terminated, same⟩ := named
  obtain ⟨at_, placed, rfl⟩ : ∃ at_ ∈ placedProperties c.1 c.2, at_.2 = property := by
    rw [← map_snd_placed Property.size (c.1 + dtNodeHdr) c.2.properties] at member
    exact List.mem_map.mp member
  have standing : Standing memory at_.1 at_.2 :=
    standing_placed (holds_properties laid.holds) laid.propertiesEnd laid.flat placed
  apply answersTo_iff.mpr
  refine ⟨at_, placed, called, List.ne_nil_of_mem terminated, ?_⟩
  rw [stringAt_value standing terminated unterminated]
  exact decide_eq_true same.symm

/-- What a child answers to is its name, unless the string runs on behind a value. -/
theorem answersTo_cases {n : List UInt8} {c : Nat × Node} (laid : Laid memory end_ c.1 c.2)
    (unterminated : 0 ∉ n) (answers : answersTo memory n c = true) :
    c.2.Named n ∨ ∃ at_ ∈ placedProperties c.1 c.2, at_.2.name = nameString ∧
      at_.2.value ≠ [] ∧ 0 ∉ at_.2.value ∧ stringAt memory (at_.1 + dtPropHdr) n = true := by
  obtain ⟨at_, placed, called, nonempty, same⟩ := answersTo_iff.mp answers
  by_cases terminated : 0 ∈ at_.2.value
  · left
    have standing : Standing memory at_.1 at_.2 :=
      standing_placed (holds_properties laid.holds) laid.propertiesEnd laid.flat placed
    rw [stringAt_value standing terminated unterminated] at same
    exact ⟨at_.2, mem_of_placed placed, called, terminated, (of_decide_eq_true same).symm⟩
  · right
    exact ⟨at_, placed, called, nonempty, terminated, same⟩

theorem pointer_injective {first second : Option (Nat × Node)}
    (firstly : ∀ c, first = some c → c ∈ placedChildren p node)
    (secondly : ∀ c, second = some c → c ∈ placedChildren p node)
    (same : pointer first = pointer second) : first = second := by
  have positive : ∀ c ∈ placedChildren p node, c.1 ≠ 0 := by
    intro c member
    have := (placed_within (x := c.2) member).1
    rw [childrenStart, dtNodeHdr] at this
    omega
  match first, second with
  | none, none => rfl
  | some c, none => exact absurd same (positive c (firstly c rfl))
  | none, some c => exact absurd same.symm (positive c (secondly c rfl))
  | some c, some d =>
      apply congrArg some
      exact placed_injective (fun child _ => child.size_pos) (firstly c rfl) (secondly d rfl) same

theorem names_end_iff (laid : Laid memory end_ p node) :
    NamesEnd memory p node ↔ ∀ n, 0 ∉ n →
      pointer ((placedChildren p node).find? (answersTo memory n)) =
        pointer (firstNamed n p node) := by
  have step : ∀ n, 0 ∉ n →
      ((placedChildren p node).find? (answersTo memory n) = firstNamed n p node ↔
        ∀ before c after, placedChildren p node = before ++ c :: after →
          answersTo memory n c = true → ∃ e ∈ before ++ [c], e.2.Named n) := by
    intro n unterminated
    rw [firstNamed, find?_eq_find?_iff]
    · simp only [decide_eq_true_eq]
    · intro c member named
      exact answersTo_named (laid.child member) unterminated (of_decide_eq_true named)
  constructor
  · intro ends n unterminated
    apply congrArg pointer
    apply (step n unterminated).mpr
    intro before c after split answers
    have member : c ∈ placedChildren p node := split ▸ List.mem_append_right _ List.mem_cons_self
    rcases answersTo_cases (laid.child member) unterminated answers with named | runs
    · exact ⟨c, List.mem_append_right _ (List.mem_singleton_self c), named⟩
    · obtain ⟨at_, placed, called, nonempty, unending, same⟩ := runs
      exact ends before c after split at_ placed called nonempty unending n unterminated same
  · intro agree before c after split at_ placed called nonempty _ n unterminated same
    have answers : answersTo memory n c = true := answersTo_iff.mpr ⟨at_, placed, called, nonempty, same⟩
    apply (step n unterminated).mp _ before c after split answers
    apply pointer_injective
    · intro d found
      exact List.mem_of_find?_eq_some found
    · intro d found
      exact List.mem_of_find?_eq_some found
    · exact agree n unterminated

/-! ## Properties -/

theorem appleDtGetProp_laid {dt len handle : Nat} {n : List UInt8} (laid : Laid memory end_ p node)
    (ends : u32 (dt + len) = end_) (start : startNode dt handle = p) (unterminated : 0 ∉ n) :
    Returns memory (appleDtGetProp (whole memory) dt len handle n)
      (node.properties.find? fun property => property.name == n) := by
  let test (ph : Nat) (property : Property) : Option (Nat × Nat) :=
    if property.name == n then some (ph + dtPropHdr, property.value.length) else none
  have standing : ∀ ph property, (ph, property) ∈ placedProperties p node →
      Standing memory ph property := fun _ _ =>
    standing_placed (holds_properties laid.holds) laid.propertiesEnd laid.flat
  have bodies : ∀ ph property, (ph, property) ∈ placedProperties p node →
      propBody (whole memory) n ph property.value.length = pure (test ph property) := by
    intro ph property member
    have room := (standing ph property member).room
    have value : u32 (ph + dtPropHdr) = ph + dtPropHdr := u32_of_lt (by omega)
    rw [propBody, (standing ph property member).called unterminated, pure_bind, value]
    by_cases called : n = property.name
    · simp [test, called]
    · simp [test, called, Ne.symm called]
  have body := eachProperty_placed laid.flat test node.properties (p + dtNodeHdr) bodies
    (holds_properties laid.holds) laid.propertiesEnd
  have result : appleDtGetProp (whole memory) dt len handle n =
      pure (((placedProperties p node).findSome? fun at_ => test at_.1 at_.2).getD (0, 0)) := by
    simp only [appleDtGetProp]
    rw [ends, start, laid.header, if_neg laid.fits, laid.counts.1, pure_bind, body, pure_bind,
      placedProperties]
    cases (placed Property.size (p + dtNodeHdr) node.properties).findSome?
        fun at_ => test at_.1 at_.2 <;> rfl
  have tests : (placedProperties p node).findSome? (fun at_ => test at_.1 at_.2) =
      ((placedProperties p node).find? fun at_ => at_.2.name == n).map
        fun at_ => (at_.1 + dtPropHdr, at_.2.value.length) :=
    findSome?_ite _ _ _
  have found : (node.properties.find? fun property => property.name == n) =
      ((placedProperties p node).find? fun at_ => at_.2.name == n).map Prod.snd :=
    calc node.properties.find? (fun property => property.name == n)
      _ = ((placedProperties p node).map Prod.snd).find? fun property => property.name == n := by
          rw [placedProperties, map_snd_placed]
      _ = ((placedProperties p node).find? fun at_ => at_.2.name == n).map Prod.snd := List.find?_map
  rw [result, tests, found]
  cases first : (placedProperties p node).find? fun at_ => at_.2.name == n with
  | none => rfl
  | some at_ =>
      have member : (at_.1, at_.2) ∈ placedProperties p node := List.mem_of_find?_eq_some first
      refine ⟨at_.1 + dtPropHdr, ?_, rfl, (standing at_.1 at_.2 member).value⟩
      rw [dtPropHdr]
      omega

end Lookups

/-! ## The tree and the buffer -/

section Buffer
variable {memory : Nat → UInt8} {buf cap : Nat} {tree : Node}

theorem laid_places (fits : tree.size ≤ cap) (flat : buf + cap < 2 ^ 32) {p : Nat} {node : Node}
    (place : (p, node) ∈ tree.places buf) :
    Laid (serialise memory buf cap tree).2.memory (buf + tree.size) p node ∧
      node.depth ≤ tree.depth ∧ buf ≤ p := by
  have holds : Holds (serialise memory buf cap tree).2.memory buf tree.encode := by
    rw [serialise_room memory fits flat]
    exact holds_overlay _ _ _
  obtain ⟨there, after, before, shallow⟩ := Node.places_inside tree holds place
  exact ⟨⟨there, before, by omega⟩, shallow, after⟩

theorem root_place (base : Nat) (tree : Node) : (base, tree) ∈ tree.places base := by
  cases tree with
  | mk properties children => exact List.mem_cons_self

theorem startNode_handle {base handle p : Nat} {node : Node} (given : Handle base tree handle p node)
    (after : base ≤ p) : startNode base handle = p := by
  rw [startNode]
  rcases given.names with same | ⟨null, root⟩
  · split
    · exact same
    · omega
  · rw [if_neg (by omega), root]

/-- A built tree reads back right if and only if no name that runs on is a wrong one. -/
theorem round_trip_iff (fits : tree.size ≤ cap) (flat : buf + cap < 2 ^ 32) :
    RoundTrip (serialise memory buf cap tree) tree ↔
      ∀ p node, (p, node) ∈ tree.places buf →
        NamesEnd (serialise memory buf cap tree).2.memory p node := by
  have finish : (serialise memory buf cap tree).1 = tree.size := by
    rw [serialise_room memory fits flat]
  have base : (serialise memory buf cap tree).2.base = buf := by
    rw [serialise_room memory fits flat]
    rfl
  have ends : u32 (buf + tree.size) = buf + tree.size := u32_of_lt (by omega)
  have finds : ∀ handle p node, Handle buf tree handle p node → ∀ fuel, tree.depth ≤ fuel →
      ∀ n, 0 ∉ n →
        appleDtFindChild (whole (serialise memory buf cap tree).2.memory) fuel buf tree.size
            handle n =
          pure (pointer ((placedChildren p node).find?
            (answersTo (serialise memory buf cap tree).2.memory n))) := by
    intro handle p node given fuel deep n unterminated
    obtain ⟨laid, shallow, after⟩ := @laid_places memory _ _ _ fits flat _ _ given.place
    rw [appleDtFindChild, ends, startNode_handle given after]
    exact findChildByName_laid laid (by omega) unterminated
  constructor
  · intro trip p node place
    apply (names_end_iff (laid_places fits flat place).1).mpr
    intro n unterminated
    have found := trip.finds p p node (base.symm ▸ ⟨place, Or.inl rfl⟩) tree.depth (Nat.le_refl _) n
      unterminated
    rw [base, finish, finds p p node ⟨place, Or.inl rfl⟩ tree.depth (Nat.le_refl _) n unterminated]
      at found
    exact Except.ok.inj found
  · intro ending
    refine ⟨finish, ?_, ?_, ?_⟩
    · intro fuel deep
      rw [base, finish, ends]
      exact skipNode_laid tree (laid_places fits flat (root_place buf tree)).1 deep
    · intro handle p node given fuel deep n unterminated
      rw [base] at given ⊢
      rw [finish, finds handle p node given fuel deep n unterminated]
      apply congrArg pure
      exact (names_end_iff (laid_places fits flat given.place).1).mp
        (ending p node given.place) n unterminated
    · intro handle p node given n unterminated
      rw [base] at given ⊢
      rw [finish]
      obtain ⟨laid, _, after⟩ := @laid_places memory _ _ _ fits flat _ _ given.place
      exact appleDtGetProp_laid laid ends (startNode_handle given after) unterminated

end Buffer

/-- A root with one child, whose `name` value is `abcd` without a NUL and is followed by an empty
property `x`. -/
def runOnTree : Node :=
  .mk []
    [.mk
      [⟨nameString, [0x61, 0x62, 0x63, 0x64], by decide, by decide, by decide⟩,
        ⟨[0x78], [], by decide, by decide, by decide⟩] []]

theorem round_trip_iff_run_on :
    runOnTree.size ≤ 96 ∧ 0x1000 + 96 < 2 ^ 32 ∧
      (RoundTrip (serialise (fun _ => 0) 0x1000 96 runOnTree) runOnTree ↔
        ∀ p node, (p, node) ∈ runOnTree.places 0x1000 →
          NamesEnd (serialise (fun _ => 0) 0x1000 96 runOnTree).2.memory p node) :=
  ⟨by decide, by decide, round_trip_iff (by decide) (by decide)⟩

/-- The child answers to `abcdx`, which no node of the tree is called. -/
theorem run_on_name_found :
    ¬ ∀ (memory : Nat → UInt8) (buf cap : Nat) (tree : Node), tree.size ≤ cap →
      buf + cap < 2 ^ 32 → RoundTrip (serialise memory buf cap tree) tree := by
  intro claimed
  have trip := claimed (fun _ => 0) 0x1000 96 runOnTree (by decide) (by decide)
  have nothing := trip.finds 0x1000 0x1000 runOnTree ⟨List.mem_cons_self, Or.inl rfl⟩ 2 (by decide)
    [0x61, 0x62, 0x63, 0x64, 0x78] (by decide)
  have found : (appleDtFindChild (whole (serialise (fun _ => 0) 0x1000 96 runOnTree).2.memory) 2
      (serialise (fun _ => 0) 0x1000 96 runOnTree).2.base
      (serialise (fun _ => 0) 0x1000 96 runOnTree).1 0x1000
      [0x61, 0x62, 0x63, 0x64, 0x78]).toOption = some 0x1008 := by
    decide +kernel
  rw [nothing] at found
  exact absurd found (by decide)

end Stage90.DeviceTree

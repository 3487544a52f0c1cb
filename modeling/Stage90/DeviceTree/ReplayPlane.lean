import Stage90.DeviceTree.ReplayTree

/-!
# The plane has the parents of the walk

The loop of `alloc_plane` keeps the ancestors of its scope on two stacks.  A forest under the
scope is gone through in two steps for each node, one in and one out, and leaves both stacks
as they were.
-/

set_option autoImplicit false

namespace Stage90.DeviceTree.Replay

open Lib

/-- The nodes that the loop pushes for, in the order of the pushes. -/
def Plane.entered (children : Nat → List Nat) : Nat → Plane → List Nat
  | 0, _ => []
  | fuel + 1, plane =>
      match plane.step children with
      | none => []
      | some next =>
          if next.pushes = plane.pushes then next.entered children fuel
          else next.scope :: next.entered children fuel

/-- The dictionary after every node of the forest has been attached, its roots to `x`. -/
def attach : Forest Node → Nat → Dict (Option Nat) → Dict (Option Nat)
  | .nil, _, parentOf => parentOf
  | .node node kids rest, x, parentOf =>
      attach rest x (attach kids node.off (Function.update parentOf node.off (some (some x))))

section Attach
variable {f : Forest Node} {x k : Nat} {parentOf : Dict (Option Nat)}

theorem attach_of_not_mem (outside : k ∉ f.preorder.map Node.off) :
    attach f x parentOf k = parentOf k := by
  induction f generalizing x parentOf with
  | nil => rfl
  | node node kids rest kidsIh restIh =>
      simp only [Forest.preorder, List.map_cons, List.map_append, List.mem_cons, List.mem_append,
        not_or] at outside
      rw [attach, restIh outside.2.2, kidsIh outside.2.1, Function.update_of_ne outside.1]

theorem attach_of_mem {node : Node} (linked : f.Linked Node.off Node.parent (some x))
    (distinct : (f.preorder.map Node.off).Nodup) (member : node ∈ f.preorder) :
    attach f x parentOf node.off = some node.parent := by
  induction f generalizing x parentOf with
  | nil => exact absurd member List.not_mem_nil
  | node top kids rest kidsIh restIh =>
      obtain ⟨here, below, after⟩ := linked
      simp only [Forest.preorder, List.map_cons, List.map_append] at distinct
      obtain ⟨fresh, both⟩ := List.nodup_cons.mp distinct
      obtain ⟨kidsDistinct, restDistinct, apart⟩ := List.nodup_append'.mp both
      rw [attach]
      rcases List.mem_cons.mp member with rfl | deeper
      · rw [attach_of_not_mem fun inRest => fresh (List.mem_append_right _ inRest),
          attach_of_not_mem fun inKids => fresh (List.mem_append_left _ inKids),
          Function.update_self, here]
      · rcases List.mem_append.mp deeper with inKids | inRest
        · rw [attach_of_not_mem (List.disjoint_left.mp apart (List.mem_map_of_mem inKids))]
          exact kidsIh below kidsDistinct inKids
        · exact restIh after restDistinct inRest

theorem parent_of_linked {node : Node} (linked : f.Linked Node.off Node.parent (some x))
    (member : node ∈ f.preorder) : node.parent.isSome := by
  induction f generalizing x with
  | nil => exact absurd member List.not_mem_nil
  | node top kids rest kidsIh restIh =>
      obtain ⟨here, below, after⟩ := linked
      rcases List.mem_cons.mp member with rfl | deeper
      · rw [here]
        rfl
      · rcases List.mem_append.mp deeper with inKids | inRest
        · exact kidsIh below inKids
        · exact restIh after inRest

end Attach

section Loop
variable {table : Nat → List Nat}

/-- In `m` steps, with a push for each of `log`, the loop comes from one state to another. -/
def Goes (table : Nat → List Nat) (m : Nat) (log : List Nat) (plane next : Plane) : Prop :=
  ∀ fuel, plane.run table (m + fuel) = next.run table fuel ∧
    plane.entered table (m + fuel) = log ++ next.entered table fuel

theorem Goes.refl (plane : Plane) : Goes table 0 [] plane plane := by
  intro fuel
  rw [Nat.zero_add]
  exact ⟨rfl, rfl⟩

theorem Goes.trans {m n : Nat} {log more : List Nat} {plane next last : Plane}
    (first : Goes table m log plane next) (second : Goes table n more next last) :
    Goes table (m + n) (log ++ more) plane last := by
  intro fuel
  obtain ⟨runs, pushes⟩ := first (n + fuel)
  rw [Nat.add_assoc, runs, pushes, List.append_assoc, (second fuel).1, (second fuel).2]
  exact ⟨rfl, rfl⟩

variable {x i scope index dtchild pushes : Nat} {stack : List Nat} {saved : List (Nat × Nat)}
  {parentOf : Dict (Option Nat)}

theorem goes_in (child : (table x)[i]? = some dtchild) :
    Goes table 1 [dtchild] ⟨x, x, i, stack, saved, parentOf, pushes⟩
      ⟨dtchild, dtchild, 0, x :: stack, (x, i + 1) :: saved,
        Function.update parentOf dtchild (some (some x)), pushes + 1⟩ := by
  intro fuel
  rw [Nat.add_comm, Plane.run, Plane.entered, Plane.step, child]
  dsimp only
  rw [if_neg (by omega)]
  exact ⟨rfl, rfl⟩

theorem goes_out (done : (table dtchild)[index]? = none) :
    Goes table 1 [] ⟨dtchild, dtchild, index, x :: stack, (x, i) :: saved, parentOf, pushes⟩
      ⟨x, x, i, stack, saved, parentOf, pushes⟩ := by
  intro fuel
  rw [Nat.add_comm, Plane.run, Plane.entered, Plane.step, done]
  dsimp only
  rw [if_pos rfl]
  exact ⟨rfl, rfl⟩

/-- Where the scope has come to a forest, the loop goes through it and comes back with the
stacks as they were. -/
theorem goes_forest {f : Forest Node} {before : List Nat}
    (families : ∀ node kids, (node, kids) ∈ f.families → table node.off = kids.map Node.off)
    (here : table x = before ++ f.roots.map Node.off) :
    Goes table (2 * f.size) (f.preorder.map Node.off)
      ⟨x, x, before.length, stack, saved, parentOf, pushes⟩
      ⟨x, x, before.length + f.roots.length, stack, saved, attach f x parentOf, pushes + f.size⟩ := by
  induction f generalizing x before stack saved parentOf pushes with
  | nil => exact Goes.refl _
  | node node kids rest kidsIh restIh =>
      rw [Forest.roots, List.map_cons] at here
      have child : (table x)[before.length]? = some node.off := by
        rw [here, List.getElem?_append_right (Nat.le_refl _), Nat.sub_self]
        rfl
      have below : table node.off = [] ++ kids.roots.map Node.off :=
        families node kids.roots List.mem_cons_self
      have done : (table node.off)[kids.roots.length]? = none := by
        rw [below]
        simp
      have after : table x = (before ++ [node.off]) ++ rest.roots.map Node.off := by
        rw [here, List.append_assoc]
        rfl
      let attached := Function.update parentOf node.off (some (some x))
      have inner : Goes table (2 * kids.size) (kids.preorder.map Node.off)
          ⟨node.off, node.off, 0, x :: stack, (x, before.length + 1) :: saved, attached,
            pushes + 1⟩
          ⟨node.off, node.off, kids.roots.length, x :: stack, (x, before.length + 1) :: saved,
            attach kids node.off attached, pushes + 1 + kids.size⟩ := by
        have gone := @kidsIh node.off (pushes + 1) (x :: stack) ((x, before.length + 1) :: saved)
          attached [] (fun n k member => families n k
            (List.mem_cons_of_mem _ (List.mem_append_left _ member))) below
        rwa [List.length_nil, Nat.zero_add] at gone
      have later : Goes table (2 * rest.size) (rest.preorder.map Node.off)
          ⟨x, x, before.length + 1, stack, saved, attach kids node.off attached,
            pushes + 1 + kids.size⟩
          ⟨x, x, before.length + 1 + rest.roots.length, stack, saved,
            attach rest x (attach kids node.off attached), pushes + 1 + kids.size + rest.size⟩ := by
        have gone := @restIh x (pushes + 1 + kids.size) stack saved
          (attach kids node.off attached) (before ++ [node.off]) (fun n k member => families n k
            (List.mem_cons_of_mem _ (List.mem_append_right _ member))) after
        rwa [List.length_append, List.length_singleton] at gone
      have all := (((goes_in child).trans inner).trans (goes_out done)).trans later
      have steps : 1 + 2 * kids.size + 1 + 2 * rest.size = 2 * (Forest.node node kids rest).size := by
        rw [Forest.size]
        omega
      have log : [node.off] ++ kids.preorder.map Node.off ++ [] ++ rest.preorder.map Node.off =
          (Forest.node node kids rest).preorder.map Node.off := by
        simp [Forest.preorder]
      have length : before.length + 1 + rest.roots.length =
          before.length + (Forest.node node kids rest).roots.length := by
        rw [Forest.roots, List.length_cons]
        omega
      have pushed : pushes + 1 + kids.size + rest.size =
          pushes + (Forest.node node kids rest).size := by
        rw [Forest.size]
        omega
      rw [steps, log, length, pushed] at all
      exact all

end Loop

section Plane
variable {blob : Bytes} {nodes : List Node} {stop : Nat}

/-- The children that `alloc_plane` finds for each node are those that the walk went down to. -/
theorem childrenOf_of_family {limit depth off : Nat} {f : Forest Node}
    (lies : Lies blob limit none depth f off stop) {node : Node} {kids : List Node}
    (family : (node, kids) ∈ f.families) : childrenOf f.preorder node.off = kids.map Node.off :=
  Forest.among_of_family (lies_linked lies) (lies_distinct lies)
    (fun _ same => absurd same (by simp)) family

theorem run_planeStart {table : Nat → List Nat} {root : Node} {kids : Forest Node}
    (families : ∀ node below, (node, below) ∈ (Forest.node root kids .nil).families →
      table node.off = below.map Node.off) {fuel : Nat} (enough : 2 * kids.size < fuel) :
    ∃ plane, (planeStart root.off).run table fuel = some plane ∧
      (planeStart root.off).entered table fuel = kids.preorder.map Node.off ∧
      plane.parentOf = attach kids root.off (planeStart root.off).parentOf ∧
      plane.pushes = kids.size := by
  obtain ⟨more, rfl⟩ := Nat.exists_eq_add_of_lt enough
  have roots : table root.off = [] ++ kids.roots.map Node.off :=
    families root kids.roots List.mem_cons_self
  have gone := @goes_forest table root.off 0 [] [] (planeStart root.off).parentOf kids []
    (fun n k member => families n k (List.mem_cons_of_mem _ (List.mem_append_left _ member))) roots
  rw [List.length_nil, Nat.zero_add] at gone
  obtain ⟨runs, enters⟩ := gone (more + 1)
  have done : (table root.off)[kids.roots.length]? = none := by
    rw [roots]
    simp
  have stays : Plane.step table ⟨root.off, root.off, kids.roots.length, [], [],
      attach kids root.off (planeStart root.off).parentOf, 0 + kids.size⟩ = none := by
    rw [Plane.step, done]
  rw [Plane.run, stays] at runs
  rw [Plane.entered, stays, List.append_nil] at enters
  exact ⟨_, runs, enters, rfl, Nat.zero_add _⟩

/-- On a blob that the walk goes through without a finding, the payload's walk stops where it
stops, and the loop over the plane ends, with the walk's parent for every node and one push for
every node but the root. -/
theorem plane_of_walk (clean : walk blob = some ⟨nodes, [], stop⟩) :
    payloadWalk blob = some stop ∧
      ∀ fuel, 2 * nodes.length ≤ fuel → ∃ plane root, nodes.head? = some root ∧
        allocPlane fuel blob nodes = some plane ∧
        (∀ node ∈ nodes, plane.parentOf node.off = some node.parent) ∧
        (planeStart root.off).entered (childrenOf nodes) fuel =
          (nodes.filter fun node => node.parent.isSome).map Node.off ∧
        (nodes.map Node.off).Nodup ∧
        plane.pushed = (nodes.filter fun node => node.parent.isSome).length ∧
        plane.pushed + 1 = nodes.length := by
  obtain ⟨root, kids, rfl, lies⟩ := walk_lies clean
  have distinct := lies_distinct lies
  obtain ⟨top, below, _⟩ := lies_linked lies
  have listed : (Forest.node root kids .nil).preorder = root :: kids.preorder := by
    rw [Forest.preorder, Forest.preorder, List.append_nil]
  constructor
  · have whole := payloadChildren_of_lies lies (by omega : blob.length < 0 + (blob.length + 1))
    rw [Forest.roots, Forest.roots, List.length_singleton, payloadChildren] at whole
    split at whole
    · exact absurd whole (by simp)
    · rename_i c ended
      rwa [payloadWalk, ended]
  intro fuel enough
  have size : (Forest.node root kids .nil).preorder.length = kids.size + 1 := by
    rw [listed, List.length_cons, Forest.length_preorder]
  obtain ⟨plane, runs, enters, attached, pushes⟩ :=
    run_planeStart (fun node below family => childrenOf_of_family lies family)
      (by omega : 2 * kids.size < fuel)
  have others : (Forest.node root kids .nil).preorder.filter (fun node => node.parent.isSome) =
      kids.preorder := by
    rw [listed, List.filter_cons_of_neg (by simp [top]), List.filter_eq_self]
    exact fun node member => parent_of_linked below member
  obtain ⟨fresh, kidsDistinct⟩ : root.off ∉ kids.preorder.map Node.off ∧
      (kids.preorder.map Node.off).Nodup := by
    rw [listed, List.map_cons] at distinct
    exact List.nodup_cons.mp distinct
  refine ⟨⟨plane.parentOf, registryNames blob (Forest.node root kids .nil).preorder, plane.pushes⟩,
    root, ?_, ?_, ?_, ?_, distinct, ?_, ?_⟩
  · rw [listed]
    rfl
  · rw [allocPlane, listed, List.head?_cons]
    rw [listed] at runs
    dsimp only
    rw [runs]
  · intro node member
    rw [listed] at member
    dsimp only
    rw [attached]
    rcases List.mem_cons.mp member with rfl | deeper
    · rw [attach_of_not_mem fresh, top]
      exact Function.update_self node.off (some none) fun _ => none
    · exact attach_of_mem below kidsDistinct deeper
  · rw [enters, others]
  · rw [others, Forest.length_preorder]
    exact pushes
  · rw [size]
    exact congrArg (· + 1) pushes

/-- A root with two children, the first of which has a child. -/
theorem plane_of_four :
    let name : Bytes := [0x6e, 0x61, 0x6d, 0x65] ++ List.replicate 28 0
    let blob : Bytes := [1, 0, 0, 0, 2, 0, 0, 0] ++ name ++ [2, 0, 0, 0] ++ [0x41, 0, 0, 0] ++
      [0, 0, 0, 0, 1, 0, 0, 0] ++ [0, 0, 0, 0, 0, 0, 0, 0] ++ [0, 0, 0, 0, 0, 0, 0, 0]
    let nodes : List Node := [⟨0, 1, 2, some 48, none, 0⟩, ⟨48, 0, 1, some 56, some 0, 1⟩,
      ⟨56, 0, 0, some 64, some 48, 2⟩, ⟨64, 0, 0, some 72, some 0, 1⟩]
    walk blob = some ⟨nodes, [], 72⟩ ∧ payloadWalk blob = some 72 ∧
      ∃ plane, allocPlane 8 blob nodes = some plane ∧ plane.parentOf 56 = some (some 48) ∧
        plane.parentOf 64 = some (some 0) ∧ plane.pushed = 3 := by
  intro name blob nodes
  have clean : walk blob = some ⟨nodes, [], 72⟩ := by decide +kernel
  obtain ⟨same, planes⟩ := plane_of_walk clean
  obtain ⟨plane, root, _, there, parents, _, _, _, pushed⟩ := planes 8 (by decide)
  refine ⟨clean, same, plane, there, ?_, ?_, ?_⟩
  · exact parents ⟨56, 0, 0, some 64, some 48, 2⟩ (by decide)
  · exact parents ⟨64, 0, 0, some 72, some 0, 1⟩ (by decide)
  · exact Nat.succ.inj pushed

end Plane

end Stage90.DeviceTree.Replay

import Mathlib.Data.List.Nodup

/-!
# Ordered forests

A forest is kept as first child and next sibling.  Its nodes in preorder, each with a reference
to its parent, determine the forest where their keys are distinct.
-/

set_option autoImplicit false

namespace Stage90.Lib

inductive Forest (α : Type)
  | nil
  | node (label : α) (kids rest : Forest α)

namespace Forest
variable {α β : Type}

def roots : Forest α → List α
  | nil => []
  | node a _ rest => a :: rest.roots

def preorder : Forest α → List α
  | nil => []
  | node a kids rest => a :: (kids.preorder ++ rest.preorder)

def size : Forest α → Nat
  | nil => 0
  | node _ kids rest => kids.size + rest.size + 1

def families : Forest α → List (α × List α)
  | nil => []
  | node a kids rest => (a, kids.roots) :: (kids.families ++ rest.families)

def Linked [DecidableEq β] (key : α → β) (parent : α → Option β) : Option β → Forest α → Prop
  | _, nil => True
  | p, node a kids rest =>
      parent a = p ∧ kids.Linked key parent (some (key a)) ∧ rest.Linked key parent p

theorem length_preorder (f : Forest α) : f.preorder.length = f.size := by
  induction f with
  | nil => rfl
  | node a kids rest kidsIh restIh =>
      rw [preorder, List.length_cons, List.length_append, kidsIh, restIh, size]

theorem mem_preorder_of_family {f : Forest α} {a : α} {children : List α}
    (family : (a, children) ∈ f.families) : a ∈ f.preorder := by
  induction f with
  | nil => exact absurd family List.not_mem_nil
  | node b kids rest kidsIh restIh =>
      rw [preorder]
      rcases List.mem_cons.mp family with same | deeper
      · rw [(Prod.mk.inj same).1]
        exact List.mem_cons_self
      · rcases List.mem_append.mp deeper with inside | behind
        · exact List.mem_cons_of_mem _ (List.mem_append_left _ (kidsIh inside))
        · exact List.mem_cons_of_mem _ (List.mem_append_right _ (restIh behind))

section Keys
variable [DecidableEq β] {key : α → β} {parent : α → Option β}

def among (key : α → β) (parent : α → Option β) (nodes : List α) (k : β) : List β :=
  (nodes.filter fun a => parent a = some k).map key

theorem among_append (nodes more : List α) (k : β) :
    among key parent (nodes ++ more) k = among key parent nodes k ++ among key parent more k := by
  rw [among, List.filter_append, List.map_append]
  rfl

theorem among_cons_of_ne {a : α} {nodes : List α} {k : β} (other : parent a ≠ some k) :
    among key parent (a :: nodes) k = among key parent nodes k := by
  rw [among, List.filter_cons_of_neg (by simpa using other)]
  rfl

theorem among_cons_of_eq {a : α} {nodes : List α} {k : β} (its : parent a = some k) :
    among key parent (a :: nodes) k = key a :: among key parent nodes k := by
  rw [among, List.filter_cons_of_pos (by simpa using its)]
  rfl

/-- A key from outside the forest can be the parent of its roots alone. -/
theorem among_of_not_mem {f : Forest α} {p : Option β} (linked : f.Linked key parent p) {k : β}
    (outside : k ∉ f.preorder.map key) :
    among key parent f.preorder k = if p = some k then f.roots.map key else [] := by
  induction f generalizing p with
  | nil => simp [preorder, roots, among]
  | node a kids rest kidsIh restIh =>
      obtain ⟨here, below, after⟩ := linked
      simp only [preorder, List.map_cons, List.map_append, List.mem_cons, List.mem_append,
        not_or] at outside
      have inner := kidsIh below outside.2.1
      have later := restIh after outside.2.2
      rw [if_neg fun same => outside.1 (Option.some.inj same).symm] at inner
      rw [preorder, roots]
      by_cases its : p = some k
      · rw [among_cons_of_eq (here.trans its), among_append, inner, later, if_pos its, if_pos its]
        rfl
      · rw [among_cons_of_ne fun same => its (here.symm.trans same), among_append, inner, later,
          if_neg its, if_neg its]
        rfl

/-- With distinct keys, the list alone gives every node its children back, in order. -/
theorem among_of_family {f : Forest α} {p : Option β} (linked : f.Linked key parent p)
    (distinct : (f.preorder.map key).Nodup) (above : ∀ k, p = some k → k ∉ f.preorder.map key)
    {a : α} {children : List α} (family : (a, children) ∈ f.families) :
    among key parent f.preorder (key a) = children.map key := by
  induction f generalizing p with
  | nil => exact absurd family List.not_mem_nil
  | node b kids rest kidsIh restIh =>
      obtain ⟨here, below, after⟩ := linked
      simp only [preorder, List.map_cons, List.map_append] at distinct above
      obtain ⟨fresh, both⟩ := List.nodup_cons.mp distinct
      obtain ⟨kidsDistinct, restDistinct, apart⟩ := List.nodup_append'.mp both
      have notRoot : ∀ {k}, k ∈ key b :: (kids.preorder.map key ++ rest.preorder.map key) →
          parent b ≠ some k := fun member same => above _ (here.symm.trans same) member
      have notAbove : ∀ {k}, k ∈ key b :: (kids.preorder.map key ++ rest.preorder.map key) →
          p ≠ some k := fun member same => above _ same member
      rw [preorder]
      rcases List.mem_cons.mp family with same | deeper
      · obtain ⟨rfl, rfl⟩ := Prod.mk.inj same
        have outsideKids : key a ∉ kids.preorder.map key :=
          fun member => fresh (List.mem_append_left _ member)
        have outsideRest : key a ∉ rest.preorder.map key :=
          fun member => fresh (List.mem_append_right _ member)
        rw [among_cons_of_ne (notRoot List.mem_cons_self), among_append,
          among_of_not_mem below outsideKids, among_of_not_mem after outsideRest, if_pos rfl,
          if_neg (notAbove List.mem_cons_self), List.append_nil]
      · rcases List.mem_append.mp deeper with inside | behind
        · have member := List.mem_map_of_mem (f := key) (mem_preorder_of_family inside)
          have listed : key a ∈ key b :: (kids.preorder.map key ++ rest.preorder.map key) :=
            List.mem_cons_of_mem _ (List.mem_append_left _ member)
          have belowRoot : ∀ k, some (key b) = some k → k ∉ kids.preorder.map key := by
            intro k same inKids
            rw [← Option.some.inj same] at inKids
            exact fresh (List.mem_append_left _ inKids)
          rw [among_cons_of_ne (notRoot listed), among_append,
            kidsIh below kidsDistinct belowRoot inside,
            among_of_not_mem after (List.disjoint_left.mp apart member), if_neg (notAbove listed),
            List.append_nil]
        · have member := List.mem_map_of_mem (f := key) (mem_preorder_of_family behind)
          have listed : key a ∈ key b :: (kids.preorder.map key ++ rest.preorder.map key) :=
            List.mem_cons_of_mem _ (List.mem_append_right _ member)
          have outsideKids : key a ∉ kids.preorder.map key :=
            fun inKids => List.disjoint_left.mp apart inKids member
          have notB : some (key b) ≠ some (key a) := by
            intro same
            rw [Option.some.inj same] at fresh
            exact fresh (List.mem_append_right _ member)
          rw [among_cons_of_ne (notRoot listed), among_append, among_of_not_mem below outsideKids,
            if_neg notB, List.nil_append]
          apply restIh after restDistinct _ behind
          intro k same inRest
          exact above k same (List.mem_cons_of_mem _ (List.mem_append_right _ inRest))

end Keys

end Forest

end Stage90.Lib

import Stage90.DeviceTree.Replay
import Stage90.Lib.Forest

/-!
# The tree that a walk without findings has gone down

`Lies` says that a forest of nodes lies in the blob from one offset to another.  A walk without
findings lists such a forest in preorder, and the payload's walk and the loop over the plane
are read off the forest.
-/

set_option autoImplicit false

namespace Stage90.DeviceTree.Replay

open Lib

/-- The forest lies in the blob from the first offset to the second, its roots at `depth`
under `parent`. -/
def Lies (blob : Bytes) (limit : Nat) : Option Nat → Nat → Forest Node → Nat → Nat → Prop
  | _, _, .nil, off, stop => off = stop
  | parent, depth, .node node kids rest, off, stop =>
      ∃ p next,
        off + nodeHdr ≤ limit ∧
        properties blob limit off (readU32 blob off) (readU32 blob off) 0 (off + nodeHdr) = .ok p ∧
        node = ⟨off, readU32 blob off, readU32 blob (off + 4), some p, parent, depth⟩ ∧
        kids.roots.length = readU32 blob (off + 4) ∧
        Lies blob limit (some off) (depth + 1) kids p next ∧
        Lies blob limit parent depth rest next stop

variable {blob : Bytes} {limit : Nat}

attribute [local simp] properties payloadProperties Forest.preorder Lies

theorem le_align4 (v : Nat) : v ≤ align4 v := by
  rw [align4]
  omega

section Properties
variable {off nprops : Nat}

theorem properties_succ {n i p q : Nat}
    (ended : properties blob limit off nprops (n + 1) i p = .ok q) :
    p + propHdr + readU32 blob (p + propNameLen) ≤ limit ∧
      p + propHdr + align4 (readU32 blob (p + propNameLen)) ≤ limit ∧
      properties blob limit off nprops n (i + 1)
        (p + propHdr + align4 (readU32 blob (p + propNameLen))) = .ok q := by
  rw [properties] at ended
  by_cases header : limit < p + propHdr
  · rw [if_pos header] at ended
    exact absurd ended (by simp)
  rw [if_neg header] at ended
  dsimp only at ended
  split at ended
  · exact absurd ended (by simp)
  split at ended
  · exact absurd ended (by simp)
  · rename_i inside
    have aligned := le_align4 (readU32 blob (p + propNameLen))
    exact ⟨by omega, by omega, ended⟩

theorem properties_ge {n i p q : Nat}
    (ended : properties blob limit off nprops n i p = .ok q) : p ≤ q := by
  induction n generalizing i p with
  | zero =>
      rw [properties, Except.ok.injEq] at ended
      omega
  | succ n ih =>
      have later := ih (properties_succ ended).2.2
      omega

theorem properties_le {n i p q : Nat} (inside : p ≤ limit)
    (ended : properties blob limit off nprops n i p = .ok q) : q ≤ limit := by
  induction n generalizing i p with
  | zero =>
      rw [properties, Except.ok.injEq] at ended
      omega
  | succ n ih =>
      obtain ⟨_, next, later⟩ := properties_succ ended
      exact ih next later

theorem properties_error_ge {n i p q : Nat} {finding : Finding}
    (ended : properties blob limit off nprops n i p = .error (finding, q)) : p ≤ q := by
  induction n generalizing i p with
  | zero => exact absurd ended (by simp [properties])
  | succ n ih =>
      rw [properties] at ended
      dsimp only at ended
      split at ended
      · simp only [Except.error.injEq, Prod.mk.injEq] at ended
        omega
      split at ended
      · simp only [Except.error.injEq, Prod.mk.injEq] at ended
        omega
      split at ended
      · simp only [Except.error.injEq, Prod.mk.injEq] at ended
        omega
      · have later := ih ended
        omega

/-- What the kernel's loop gets through, the payload's does as well, and to the same end. -/
theorem payloadProperties_of_properties {n i p q : Nat}
    (ended : properties blob limit off nprops n i p = .ok q) :
    payloadProperties blob limit n p = some q := by
  induction n generalizing i p with
  | zero =>
      rw [properties, Except.ok.injEq] at ended
      rw [payloadProperties, ended]
  | succ n ih =>
      obtain ⟨inside, _, later⟩ := properties_succ ended
      rw [payloadProperties, if_neg (by omega)]
      dsimp only
      rw [if_neg (by omega)]
      exact ih later

end Properties

section Walk

/-- No finding is taken back, and no offset is gone back to. -/
theorem children_runs {visit : Nat → Log → Option ((Option Node × Nat) × Log)} {least : Nat}
    (runs : ∀ c log, least ≤ c → ∃ child c' log', visit c log = some ((child, c'), log') ∧ c ≤ c' ∧
      log.findings <+: log'.findings) (n : Nat) :
    ∀ c log, least ≤ c → ∃ c' log', children visit n c log = some (c', log') ∧ c ≤ c' ∧
      log.findings <+: log'.findings := by
  induction n with
  | zero => exact fun c log _ => ⟨c, log, rfl, Nat.le_refl c, List.prefix_rfl⟩
  | succ n ih =>
      intro c log far
      obtain ⟨child, c', log', visited, later, more⟩ := runs c log far
      rw [children, visited]
      cases child with
      | none => exact ⟨c', log', rfl, later, more⟩
      | some child =>
          obtain ⟨c'', log'', rest, latest, most⟩ := ih c' log' (by omega)
          exact ⟨c'', log'', rest, by omega, more.trans most⟩

/-- With fuel for every offset up to the limit, the descent ends. -/
theorem descend_runs {fuel least : Nat} (enough : limit < least + fuel) (inside : least ≤ limit) :
    ∀ parent depth off log, least ≤ off → ∃ child c log',
      descend blob limit fuel parent depth off log = some ((child, c), log') ∧ off ≤ c ∧
        log.findings <+: log'.findings := by
  induction fuel generalizing least with
  | zero => exact absurd enough (by omega)
  | succ fuel ih =>
      intro parent depth off log far
      rw [descend]
      by_cases header : limit < off + nodeHdr
      · rw [if_pos header]
        exact ⟨none, off, _, rfl, Nat.le_refl off, List.prefix_append _ _⟩
      rw [if_neg header]
      dsimp only
      cases ended : properties blob limit off (readU32 blob off) (readU32 blob off) 0
          (off + nodeHdr) with
      | error finding =>
          have later := properties_error_ge ended
          exact ⟨_, _, _, rfl, by omega, List.prefix_append _ _⟩
      | ok p =>
          have later := properties_ge ended
          have below := properties_le (by omega) ended
          have hdr : 0 < nodeHdr := by decide
          obtain ⟨c, log', visited, latest, more⟩ :=
            children_runs (fun c log => ih (by omega) below (some off) (depth + 1) c log)
              (readU32 blob (off + 4)) p
              (log.append ⟨off, readU32 blob off, readU32 blob (off + 4), some p, parent, depth⟩)
              (Nat.le_refl p)
          dsimp only
          rw [visited]
          exact ⟨_, c, log', rfl, by omega, more⟩

theorem walk_runs (blob : Bytes) : ∃ walked, walk blob = some walked := by
  have enough : blob.length < 0 + (blob.length + 1) := by omega
  obtain ⟨child, c, log, ended, _, _⟩ :=
    descend_runs enough (Nat.zero_le _) none 0 0 ⟨[], []⟩ (Nat.le_refl 0)
  rw [walk, ended]
  exact ⟨_, rfl⟩

theorem children_lies {visit : Nat → Log → Option ((Option Node × Nat) × Log)}
    {parent : Option Nat} {depth : Nat}
    (visits : ∀ c log child c' log', visit c log = some ((child, c'), log') →
      log'.findings = [] → log.findings = [] ∧ child.isSome ∧ ∃ node kids,
        Lies blob limit parent depth (.node node kids .nil) c c' ∧
          log'.nodes = log.nodes ++ (Forest.node node kids .nil).preorder)
    {n c c' : Nat} {log log' : Log} (ended : children visit n c log = some (c', log'))
    (clean : log'.findings = []) :
    log.findings = [] ∧ ∃ f : Forest Node, f.roots.length = n ∧
      Lies blob limit parent depth f c c' ∧ log'.nodes = log.nodes ++ f.preorder := by
  induction n generalizing c log with
  | zero =>
      simp only [children, Option.some.injEq, Prod.mk.injEq] at ended
      obtain ⟨rfl, rfl⟩ := ended
      exact ⟨clean, .nil, rfl, rfl, (List.append_nil _).symm⟩
  | succ n ih =>
      rw [children] at ended
      cases visited : visit c log with
      | none => simp [visited] at ended
      | some result =>
          obtain ⟨⟨child, d⟩, middle⟩ := result
          rw [visited] at ended
          cases child with
          | none =>
              simp only [Option.some.injEq, Prod.mk.injEq] at ended
              obtain ⟨rfl, rfl⟩ := ended
              exact absurd (visits _ _ _ _ _ visited clean).2.1 (by simp)
          | some child =>
              obtain ⟨earlier, rest, counted, behind, listed⟩ := ih ended
              obtain ⟨first, _, node, kids, here, added⟩ := visits _ _ _ _ _ visited earlier
              obtain ⟨p, next, fits, props, is, count, below, stop⟩ := here
              refine ⟨first, .node node kids rest, by rw [Forest.roots, List.length_cons, counted],
                ⟨p, next, fits, props, is, count, below, ?_⟩, ?_⟩
              · rw [Lies] at stop
                rwa [stop]
              · rw [listed, added]
                simp [Forest.preorder]

/-- A descent that leaves no finding lists one tree, which lies where it went. -/
theorem descend_lies {fuel : Nat} :
    ∀ {parent depth off log child c log'},
      descend blob limit fuel parent depth off log = some ((child, c), log') →
      log'.findings = [] → log.findings = [] ∧ child.isSome ∧ ∃ node kids,
        Lies blob limit parent depth (.node node kids .nil) off c ∧
          log'.nodes = log.nodes ++ (Forest.node node kids .nil).preorder := by
  induction fuel with
  | zero =>
      intro parent depth off log child c log' ended
      exact absurd ended (by simp [descend])
  | succ fuel ih =>
      intro parent depth off log child c log' ended clean
      rw [descend] at ended
      by_cases header : limit < off + nodeHdr
      · rw [if_pos header] at ended
        simp only [Option.some.injEq, Prod.mk.injEq] at ended
        rw [← ended.2, Log.find] at clean
        exact absurd clean (by simp)
      rw [if_neg header] at ended
      dsimp only at ended
      cases props : properties blob limit off (readU32 blob off) (readU32 blob off) 0
          (off + nodeHdr) with
      | error finding =>
          rw [props] at ended
          simp only [Option.some.injEq, Prod.mk.injEq] at ended
          rw [← ended.2, Log.find] at clean
          exact absurd clean (by simp)
      | ok p =>
          rw [props] at ended
          dsimp only at ended
          split at ended
          · exact absurd ended (by simp)
          · rename_i d middle visited
            simp only [Option.some.injEq, Prod.mk.injEq] at ended
            obtain ⟨⟨rfl, rfl⟩, rfl⟩ := ended
            obtain ⟨earlier, kids, counted, below, listed⟩ :=
              children_lies (fun _ _ _ _ _ visited clean => ih visited clean) visited clean
            refine ⟨earlier, rfl, _, kids, ⟨p, d, Nat.not_lt.mp header, props, rfl, counted, below, rfl⟩, ?_⟩
            rw [listed]
            simp [Log.append, Forest.preorder]

/-- A walk without findings lists the preorder of a tree that the blob holds from its first byte
to where the walk stops. -/
theorem walk_lies {nodes : List Node} {stop : Nat} (clean : walk blob = some ⟨nodes, [], stop⟩) :
    ∃ root kids, nodes = (Forest.node root kids .nil).preorder ∧
      Lies blob blob.length none 0 (.node root kids .nil) 0 stop := by
  rw [walk] at clean
  split at clean
  · exact absurd clean (by simp)
  · rename_i child c log ended
    simp only [Option.some.injEq, Walked.mk.injEq] at clean
    obtain ⟨rfl, noFinding, rfl⟩ := clean
    obtain ⟨_, _, root, kids, lies, listed⟩ := descend_lies ended noFinding
    exact ⟨root, kids, listed, lies⟩

end Walk

section Lies
variable {parent : Option Nat} {depth off stop : Nat} {f : Forest Node}

theorem lies_le (lies : Lies blob limit parent depth f off stop) : off ≤ stop := by
  induction f generalizing parent depth off stop with
  | nil =>
      rw [Lies] at lies
      exact Nat.le_of_eq lies
  | node node kids rest kidsIh restIh =>
      obtain ⟨p, next, _, props, _, _, below, behind⟩ := lies
      have first := properties_ge props
      have second := kidsIh below
      have third := restIh behind
      omega

theorem lies_linked (lies : Lies blob limit parent depth f off stop) :
    f.Linked Node.off Node.parent parent := by
  induction f generalizing parent depth off stop with
  | nil => trivial
  | node node kids rest kidsIh restIh =>
      obtain ⟨p, next, _, _, rfl, _, below, behind⟩ := lies
      exact ⟨rfl, kidsIh below, restIh behind⟩

theorem lies_between (lies : Lies blob limit parent depth f off stop) :
    ∀ k ∈ f.preorder.map Node.off, off ≤ k ∧ k < stop := by
  induction f generalizing parent depth off stop with
  | nil => simp [Forest.preorder]
  | node node kids rest kidsIh restIh =>
      obtain ⟨p, next, _, props, rfl, _, below, behind⟩ := lies
      have first := properties_ge props
      have second := lies_le below
      have third := lies_le behind
      have hdr : 0 < nodeHdr := by decide
      intro k member
      simp only [Forest.preorder, List.map_cons, List.map_append, List.mem_cons,
        List.mem_append] at member
      rcases member with rfl | inKids | inRest
      · omega
      · have inside := kidsIh below k inKids
        omega
      · have inside := restIh behind k inRest
        omega

/-- No two nodes start at one offset. -/
theorem lies_distinct (lies : Lies blob limit parent depth f off stop) :
    (f.preorder.map Node.off).Nodup := by
  induction f generalizing parent depth off stop with
  | nil => exact List.nodup_nil
  | node node kids rest kidsIh restIh =>
      obtain ⟨p, next, _, props, rfl, _, below, behind⟩ := lies
      have first := properties_ge props
      have second := lies_le below
      have hdr : 0 < nodeHdr := by decide
      rw [Forest.preorder, List.map_cons, List.map_append, List.nodup_cons, List.mem_append]
      refine ⟨?_, List.nodup_append'.mpr ⟨kidsIh below, restIh behind, ?_⟩⟩
      · intro member
        rcases member with inKids | inRest
        · have inside := lies_between below _ inKids
          dsimp only at inside
          omega
        · have inside := lies_between behind _ inRest
          dsimp only at inside
          omega
      · apply List.disjoint_left.mpr
        intro k inKids inRest
        have left := lies_between below k inKids
        have right := lies_between behind k inRest
        omega

theorem payloadChildren_of_lies {fuel : Nat} (lies : Lies blob limit parent depth f off stop)
    (enough : limit < off + fuel) :
    payloadChildren (payloadNode blob limit fuel) f.roots.length off = some stop := by
  induction f generalizing parent depth off stop fuel with
  | nil =>
      rw [Lies] at lies
      rw [lies]
      rfl
  | node node kids rest kidsIh restIh =>
      obtain ⟨p, next, fits, props, _, counted, below, behind⟩ := lies
      have first := properties_ge props
      have second := lies_le below
      have hdr : 0 < nodeHdr := by decide
      have one : payloadNode blob limit fuel off = some next := by
        cases fuel with
        | zero => exact absurd enough (by omega)
        | succ fuel =>
            rw [payloadNode, if_neg (Nat.not_lt.mpr fits), payloadProperties_of_properties props,
              ← counted]
            exact kidsIh below (by omega)
      rw [Forest.roots, List.length_cons, payloadChildren, one]
      exact restIh behind (by omega)

end Lies

end Stage90.DeviceTree.Replay

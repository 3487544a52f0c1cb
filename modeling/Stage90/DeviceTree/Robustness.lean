import Stage90.DeviceTree.Blob

/-!
# The reader on arbitrary bytes

As long as no sum on the way reaches 2^32 and no comparison of strings runs off the blob, the
walks that compute with 32-bit pointers keep to the positions of the blob, and so end and stay
inside.
-/

set_option autoImplicit false

namespace Stage90.DeviceTree

open Stage90.Lib

/-! ## Skipping -/

section Skips
variable {b : Blob}

theorem below_trans {node n p : Nat} (first : b.Below node n) (second : b.Below n p) :
    b.Below node p := by
  induction second with
  | here => exact first
  | child _ childAt turn ih => exact .child ih childAt turn

theorem skipChildren_blob {node enough : Nat}
    (skips : ∀ i p, b.ChildAt node i p → i < b.nChildren node →
      ∃ r, (∀ fuel, enough ≤ fuel → skipNode b.memory b.limit fuel p = pure r) ∧
        (r = 0 ∨ b.EndsAt p r))
    (count : Nat) {i p : Nat} (turns : i + count = b.nChildren node) (there : b.ChildAt node i p) :
    ∃ r, (∀ fuel, enough ≤ fuel →
        skipChildren (skipNode b.memory b.limit fuel) count p = pure r) ∧
      (r = 0 ∨ b.EndsAt node r) := by
  induction count generalizing i p with
  | zero =>
      have last : i = b.nChildren node := turns
      refine ⟨p, fun _ _ => rfl, Or.inr ?_⟩
      rw [Blob.EndsAt, ← last]
      exact there
  | succ count ih =>
      have turn : i < b.nChildren node := by omega
      obtain ⟨r, result, null | ends⟩ := skips i p there turn
      · refine ⟨0, ?_, Or.inl rfl⟩
        intro fuel deep
        rw [skipChildren, result fuel deep, pure_bind, if_pos null]
      · have some : r ≠ 0 := by
          have := childAt_after ends
          rw [dtNodeHdr] at this
          omega
        obtain ⟨q, rest, meaning⟩ := ih (by omega) (.next there turn ends)
        refine ⟨q, ?_, meaning⟩
        intro fuel deep
        rw [skipChildren, result fuel deep, pure_bind, if_neg some, rest fuel deep]

theorem skipNode_short {node fuel : Nat} (flat : node + dtNodeHdr < 2 ^ 32)
    (short : b.limit < node + dtNodeHdr) (deep : 0 < fuel) :
    skipNode b.memory b.limit fuel node = pure 0 := by
  obtain ⟨fuel, rfl⟩ := Nat.exists_eq_succ_of_ne_zero (Nat.ne_of_gt deep)
  rw [skipNode, u32_of_lt flat, if_pos short]

section Long
variable {node fuel : Nat} (flat : b.limit < 2 ^ 32) (above : b.base ≤ node)
  (fits : node + dtNodeHdr ≤ b.limit)
include flat above fits

theorem skipNode_rejected
    (scans : eachProperty b.memory b.limit skipBody (b.nProperties node) (node + dtNodeHdr) =
      pure .rejected) : skipNode b.memory b.limit (fuel + 1) node = pure 0 := by
  obtain ⟨header, properties, children⟩ := node_header flat above fits
  rw [skipNode, header, if_neg (Nat.not_lt_of_le fits), properties, pure_bind, scans, pure_bind]

theorem skipNode_done {p : Nat}
    (scans : eachProperty b.memory b.limit skipBody (b.nProperties node) (node + dtNodeHdr) =
      pure (.done p)) :
    skipNode b.memory b.limit (fuel + 1) node =
      skipChildren (skipNode b.memory b.limit fuel) (b.nChildren node) p := by
  obtain ⟨header, properties, children⟩ := node_header flat above fits
  rw [skipNode, header, if_neg (Nat.not_lt_of_le fits), properties, pure_bind, scans, pure_bind]
  simp only [children, pure_bind]

end Long

/-- A node takes up eight bytes at least, and that bounds the levels. -/
theorem skipNode_blob (flat : b.limit < 2 ^ 32) (levels : Nat) {node : Nat}
    (bound : (b.limit - node) / 8 ≤ levels) (above : b.base ≤ node) (skips : b.SkipsFlat node) :
    ∃ r, (∀ fuel, levels < fuel → skipNode b.memory b.limit fuel node = pure r) ∧
      (r = 0 ∨ b.EndsAt node r) := by
  induction levels generalizing node with
  | zero =>
      refine ⟨0, ?_, Or.inl rfl⟩
      intro fuel deep
      apply skipNode_short (skips node .here).header _ deep
      rw [dtNodeHdr]
      omega
  | succ levels ih =>
      have noWrap : b.NoWrap Blob.never node := skips node .here
      by_cases short : b.limit < node + dtNodeHdr
      · refine ⟨0, ?_, Or.inl rfl⟩
        intro fuel deep
        exact skipNode_short noWrap.header short (by omega)
      have fits : node + dtNodeHdr ≤ b.limit := Nat.le_of_not_lt short
      obtain ⟨scan, scans, scanned⟩ :=
        @eachProperty_blob b (fun _ => False) node _ skipBody (fun _ _ => False) flat above noWrap
          (fun _ _ _ => Or.inl ⟨rfl, id⟩) (b.nProperties node) _ _ (Nat.zero_add _) (.first fits)
      cases scanned with
      | rejected _ =>
          refine ⟨0, ?_, Or.inl rfl⟩
          intro fuel deep
          obtain ⟨fuel, rfl⟩ := Nat.exists_eq_succ_of_ne_zero (Nat.ne_of_gt (Nat.zero_lt_of_lt deep))
          exact skipNode_rejected flat above fits scans
      | hit _ found => exact found.elim
      | done _ last =>
          have children : ∀ i p, b.ChildAt node i p → i < b.nChildren node →
              ∃ r, (∀ fuel, levels + 1 ≤ fuel → skipNode b.memory b.limit fuel p = pure r) ∧
                (r = 0 ∨ b.EndsAt p r) := by
            intro i p there turn
            have after := childAt_after there
            rw [dtNodeHdr] at after fits
            apply ih
            · omega
            · omega
            · intro n below
              exact skips n (below_trans (.child .here there turn) below)
          obtain ⟨r, result, meaning⟩ :=
            skipChildren_blob children (b.nChildren node) (Nat.zero_add _) (.first last)
          refine ⟨r, ?_, meaning⟩
          intro fuel deep
          obtain ⟨fuel, rfl⟩ := Nat.exists_eq_succ_of_ne_zero (Nat.ne_of_gt (Nat.zero_lt_of_lt deep))
          rw [skipNode_done flat above fits scans]
          exact result fuel (Nat.le_of_lt_succ deep)

end Skips

/-! ## Lookups -/

namespace Blob
variable (b : Blob)

def NameIs (n : List UInt8) (p : Nat) : Prop :=
  b.StringIs p nameString ∧ 0 < b.length p ∧ b.StringIs (p + dtPropHdr) n

def CalledIs (n : List UInt8) (p : Nat) : Prop := b.StringIs p n

/-- Header `i` of the node is at `p` for `find_child_by_name`, which passes over the values. -/
inductive SkippedAt (node : Nat) : Nat → Nat → Prop where
  | first : node + dtNodeHdr ≤ b.limit → SkippedAt node 0 (node + dtNodeHdr)
  | next {i p : Nat} : SkippedAt node i p → i < b.nProperties node → p + dtPropHdr ≤ b.limit →
      SkippedAt node (i + 1) (b.nextHeader p)

/-- Child `i` of the node is at `p`, and no child before it is called `n`. -/
inductive CandidateAt (n : List UInt8) (node : Nat) : Nat → Nat → Prop where
  | first {p : Nat} : b.SkippedAt node (b.nProperties node) p → CandidateAt n node 0 p
  | next {i p q : Nat} : CandidateAt n node i p → i < b.nChildren node →
      (∀ ph, ¬ b.Hits (b.NameIs n) p ph) → b.EndsAt p q → CandidateAt n node (i + 1) q

structure GetsFlat (node : Nat) (n : List UInt8) : Prop where
  noWrap : b.NoWrap (b.CalledIs n) node
  stops : ∀ i p, b.Meets (b.CalledIs n) node i p → b.Stops p n

/-- The same of `node_has_name`. -/
structure NamesFlat (n : List UInt8) (node : Nat) : Prop where
  noWrap : b.NoWrap (b.NameIs n) node
  stops : ∀ i p, b.Meets (b.NameIs n) node i p → b.Stops p nameString
  value : ∀ i p, b.Meets (b.NameIs n) node i p → b.StringIs p nameString → 0 < b.length p →
    b.Stops (p + dtPropHdr) n

/-- The same of `find_child_by_name`. -/
structure FindsFlat (node : Nat) (n : List UInt8) : Prop where
  header : node + dtNodeHdr < 2 ^ 32
  position : ∀ i p, b.SkippedAt node i p → p < 2 ^ 32
  property : ∀ i p, b.SkippedAt node i p → i < b.nProperties node → p + dtPropHdr < 2 ^ 32
  names : ∀ i p, b.CandidateAt n node i p → i < b.nChildren node → b.NamesFlat n p
  skips : ∀ i p, b.CandidateAt n node i p → i < b.nChildren node →
    (∀ ph, ¬ b.Hits (b.NameIs n) p ph) → b.SkipsFlat p

def Inside (r : Nat) : Prop := r = 0 ∨ b.base ≤ r ∧ r ≤ b.limit

/-- `skip_node` ends without a fault, at such an address. -/
def SkipInside (node : Nat) : Prop :=
  ∃ r, (∀ fuel, b.bytes.length / 8 + 1 < fuel →
    skipNode b.memory (u32 b.limit) fuel node = pure r) ∧ b.Inside r

def FindInside (handle : Nat) (n : List UInt8) : Prop :=
  ∃ r, (∀ fuel, b.bytes.length / 8 + 1 < fuel →
    appleDtFindChild b.memory fuel b.base b.bytes.length handle n = pure r) ∧ b.Inside r

def GetInside (handle : Nat) (n : List UInt8) : Prop :=
  ∃ r, appleDtGetProp b.memory b.base b.bytes.length handle n = pure r ∧
    (r.1 = 0 ∨ b.base ≤ r.1 ∧ r.1 + r.2 ≤ b.limit)

end Blob

section Lookups
variable {b : Blob} {node : Nat} {n : List UInt8} (unterminated : 0 ∉ n)

section Flat
variable (flat : b.limit < 2 ^ 32) (above : b.base ≤ node)

theorem skippedAt_after {i p : Nat} (there : b.SkippedAt node i p) : node + dtNodeHdr ≤ p := by
  induction there with
  | first _ => exact Nat.le_refl _
  | next _ _ _ ih =>
      rw [Blob.nextHeader]
      omega

theorem candidateAt_after {i p : Nat} (there : b.CandidateAt n node i p) : node + dtNodeHdr ≤ p := by
  induction there with
  | first skipped => exact skippedAt_after skipped
  | next _ _ _ ends ih =>
      have := childAt_after ends
      omega

include unterminated flat above

theorem nodeHasName_blob (names : b.NamesFlat n node) :
    ∃ same : Bool, nodeHasName b.memory b.limit n node = pure same ∧
      (same = true → node + dtNodeHdr ≤ b.limit) ∧
      (same = false → ∀ ph, ¬ b.Hits (b.NameIs n) node ph) := by
  by_cases short : b.limit < node + dtNodeHdr
  · refine ⟨false, ?_, nofun, ?_⟩
    · rw [nodeHasName, u32_of_lt names.noWrap.header, if_pos short]
    · intro _ ph ⟨i, meets, _⟩
      obtain _ | _ := i
      · cases meets.at_ with
        | first fits => omega
      · obtain ⟨_, first, _⟩ := propertyAt_before meets.at_ (Nat.succ_pos _)
        cases first with
        | first fits => omega
  have fits : node + dtNodeHdr ≤ b.limit := Nat.le_of_not_lt short
  obtain ⟨header, properties, _⟩ := node_header flat above fits
  have bodies : ∀ i p, b.Meets (b.NameIs n) node i p →
      nameBody b.memory n p (b.length p) = pure none ∧ ¬ b.NameIs n p ∨
        ∃ a, nameBody b.memory n p (b.length p) = pure (some a) ∧ True ∧ b.NameIs n p := by
    intro i p meets
    have after := propertyAt_after meets.at_
    have start : u32 (p + dtPropHdr) = p + dtPropHdr :=
      u32_of_lt (names.noWrap.property i p meets.at_ meets.turn)
    obtain ⟨called, calls, calledIs⟩ :=
      strcmp_blob (by omega) (by decide) (names.stops i p meets)
    rw [nameBody, calls, pure_bind, start]
    by_cases open_ : called = true ∧ 0 < b.length p
    · obtain ⟨same, compares, sameIs⟩ := strcmp_blob (by omega) unterminated
        (names.value i p meets (calledIs.mp open_.1) open_.2)
      rw [if_pos open_, compares, pure_bind]
      cases same with
      | false =>
          left
          refine ⟨rfl, ?_⟩
          intro is
          exact absurd (sameIs.mpr is.2.2) Bool.false_ne_true
      | true =>
          right
          exact ⟨(), rfl, trivial, calledIs.mp open_.1, open_.2, sameIs.mp rfl⟩
    · left
      rw [if_neg open_]
      refine ⟨rfl, ?_⟩
      intro is
      exact open_ ⟨calledIs.mpr is.1, is.2.1⟩
  obtain ⟨scan, scans, scanned⟩ :=
    @eachProperty_blob b _ node _ _ (fun _ _ => True) flat above names.noWrap bodies
      (b.nProperties node) _ _ (Nat.zero_add _) (.first fits)
  rw [nodeHasName, header, if_neg short, properties, pure_bind, scans, pure_bind]
  cases scanned with
  | rejected misses => exact ⟨false, rfl, nofun, fun _ => misses⟩
  | hit _ _ => exact ⟨true, rfl, fun _ => fits, nofun⟩
  | done misses _ => exact ⟨false, rfl, nofun, fun _ => misses⟩

omit unterminated in
theorem skipProperties_blob (finds : b.FindsFlat node n) (count : Nat) {i p : Nat}
    (turns : i + count = b.nProperties node) (there : b.SkippedAt node i p) :
    ∃ o, skipProperties b.memory b.limit count p = pure o ∧
      (o = none ∨ ∃ q, o = some q ∧ b.SkippedAt node (b.nProperties node) q) := by
  induction count generalizing i p with
  | zero =>
      have last : i = b.nProperties node := turns
      exact ⟨some p, rfl, Or.inr ⟨p, rfl, last ▸ there⟩⟩
  | succ count ih =>
      have turn : i < b.nProperties node := by omega
      have after := skippedAt_after there
      have header : u32 (p + dtPropHdr) = p + dtPropHdr := u32_of_lt (finds.property i p there turn)
      rw [skipProperties, header]
      by_cases cut : b.limit < p + dtPropHdr
      · rw [if_pos cut]
        exact ⟨none, rfl, Or.inl rfl⟩
      have later : b.SkippedAt node (i + 1) (b.nextHeader p) :=
        .next there turn (Nat.le_of_not_lt cut)
      have word : readWord b.memory (u32 (p + dtPropNameLen)) = pure (b.length p) := by
        simp only [dtPropHdr] at cut
        have start : u32 (p + dtPropNameLen) = p + dtPropNameLen :=
          u32_of_lt (by simp only [dtPropNameLen]; omega)
        rw [start]
        apply readWord_blob
        · omega
        · simp only [dtPropNameLen]
          omega
      have next : u32 (p + (dtPropHdr + align4 (b.length p))) = b.nextHeader p := by
        have position := finds.position _ _ later
        rw [Blob.nextHeader] at position ⊢
        rw [align4_of_lt (by simp only [dtPropHdr] at position; omega), ← Nat.add_assoc]
        exact u32_of_lt position
      rw [if_neg cut, word, pure_bind, next]
      exact ih (by omega) later

theorem findChildren_blob (finds : b.FindsFlat node n) (count : Nat) {i p : Nat}
    (turns : i + count = b.nChildren node) (there : b.CandidateAt n node i p) :
    ∃ r, (∀ fuel, b.bytes.length / 8 < fuel →
        findChildren b.memory b.limit fuel n count p = pure r) ∧ b.Inside r := by
  induction count generalizing i p with
  | zero => exact ⟨0, fun _ _ => rfl, Or.inl rfl⟩
  | succ count ih =>
      have turn : i < b.nChildren node := by omega
      have after := candidateAt_after there
      obtain ⟨same, named, within, misses⟩ :=
        nodeHasName_blob unterminated flat (by omega) (finds.names i p there turn)
      cases same with
      | true =>
          have fits := within rfl
          refine ⟨p, ?_, Or.inr ⟨by omega, by omega⟩⟩
          intro fuel _
          rw [findChildren, named, pure_bind, if_pos rfl]
      | false =>
          obtain ⟨r, result, null | ends⟩ := @skipNode_blob b flat (b.bytes.length / 8) p
            (by rw [Blob.limit]; omega) (by omega) (finds.skips i p there turn (misses rfl))
          · refine ⟨0, ?_, Or.inl rfl⟩
            intro fuel deep
            rw [findChildren, named, pure_bind, if_neg Bool.false_ne_true, result fuel deep,
              pure_bind, if_pos null]
          · have some : r ≠ 0 := by
              have := childAt_after ends
              rw [dtNodeHdr] at this
              omega
            obtain ⟨q, rest, inside⟩ := ih (by omega) (.next there turn (misses rfl) ends)
            refine ⟨q, ?_, inside⟩
            intro fuel deep
            rw [findChildren, named, pure_bind, if_neg Bool.false_ne_true, result fuel deep,
              pure_bind, if_neg some, rest fuel deep]

theorem findChildByName_blob (finds : b.FindsFlat node n) :
    ∃ r, (∀ fuel, b.bytes.length / 8 < fuel →
        findChildByName b.memory fuel node b.limit n = pure r) ∧ b.Inside r := by
  by_cases short : b.limit < node + dtNodeHdr
  · refine ⟨0, ?_, Or.inl rfl⟩
    intro fuel _
    rw [findChildByName, u32_of_lt finds.header, if_pos short]
  have fits : node + dtNodeHdr ≤ b.limit := Nat.le_of_not_lt short
  obtain ⟨header, properties, children⟩ := node_header flat above fits
  obtain ⟨o, scans, rejected | ⟨p, past, last⟩⟩ :=
    skipProperties_blob flat above finds (b.nProperties node) (Nat.zero_add _)
      (.first fits)
  · refine ⟨0, ?_, Or.inl rfl⟩
    intro fuel _
    rw [findChildByName, header, if_neg short, properties, pure_bind, scans, pure_bind, rejected]
  · obtain ⟨r, result, inside⟩ := findChildren_blob unterminated flat above finds
      (b.nChildren node) (Nat.zero_add _) (.first last)
    refine ⟨r, ?_, inside⟩
    intro fuel deep
    rw [findChildByName, header, if_neg short, properties, pure_bind, scans, pure_bind, past]
    dsimp only
    rw [children, pure_bind, result fuel deep]

theorem appleDtGetProp_blob {dt len handle : Nat} (ends : u32 (dt + len) = b.limit)
    (start : startNode dt handle = node) (gets : b.GetsFlat node n) :
    ∃ r, appleDtGetProp b.memory dt len handle n = pure r ∧
      (r.1 = 0 ∨ b.base ≤ r.1 ∧ r.1 + r.2 ≤ b.limit) := by
  simp only [appleDtGetProp]
  rw [ends, start, u32_of_lt gets.noWrap.header]
  by_cases short : b.limit < node + dtNodeHdr
  · rw [if_pos short]
    exact ⟨_, rfl, Or.inl rfl⟩
  have fits : node + dtNodeHdr ≤ b.limit := Nat.le_of_not_lt short
  obtain ⟨header, properties, _⟩ := node_header flat above fits
  have bodies : ∀ i p, b.Meets (b.CalledIs n) node i p →
      propBody b.memory n p (b.length p) = pure none ∧ ¬ b.CalledIs n p ∨
        ∃ a, propBody b.memory n p (b.length p) = pure (some a) ∧
          a = (p + dtPropHdr, b.length p) ∧ b.CalledIs n p := by
    intro i p meets
    have after := propertyAt_after meets.at_
    have start : u32 (p + dtPropHdr) = p + dtPropHdr :=
      u32_of_lt (gets.noWrap.property i p meets.at_ meets.turn)
    obtain ⟨same, compares, sameIs⟩ :=
      strcmp_blob (by omega) unterminated (gets.stops i p meets)
    rw [propBody, compares, pure_bind, start]
    cases same with
    | false =>
        left
        exact ⟨rfl, fun is => absurd (sameIs.mpr is) Bool.false_ne_true⟩
    | true =>
        right
        exact ⟨_, rfl, rfl, sameIs.mp rfl⟩
  obtain ⟨scan, scans, scanned⟩ :=
    @eachProperty_blob b _ node _ _ (fun p a => a = (p + dtPropHdr, b.length p)) flat above
      gets.noWrap bodies (b.nProperties node) _ _ (Nat.zero_add _) (.first fits)
  rw [if_neg short, properties, pure_bind, scans, pure_bind]
  cases scanned with
  | rejected _ => exact ⟨_, rfl, Or.inl rfl⟩
  | done _ _ => exact ⟨_, rfl, Or.inl rfl⟩
  | hit hits found =>
      obtain ⟨i, meets, _⟩ := hits
      have after := propertyAt_after meets.at_
      have inside := meets.inside
      rw [Blob.valueEnd] at inside
      subst found
      exact ⟨_, rfl, Or.inr ⟨by dsimp only; omega, inside⟩⟩

end Flat

/-! ## A blob up to the end of the address space -/

section Top
variable (top : b.limit = 2 ^ 32)
include top

/-- The end is 0 there, and only the last eight bytes pass for a header. -/
theorem top_header (small : node < 2 ^ 32) (above : b.base ≤ node) :
    0 < u32 (node + dtNodeHdr) ∨ u32 (node + dtNodeHdr) = 0 ∧
      readWord b.memory node = pure (b.nProperties node) ∧
      readWord b.memory (u32 (node + 4)) = pure (b.nChildren node) := by
  rcases Nat.eq_zero_or_pos (u32 (node + dtNodeHdr)) with zero | positive
  · right
    have last : node + 8 = 2 ^ 32 := by
      rw [u32, dtNodeHdr] at zero
      omega
    have second : u32 (node + 4) = node + 4 := u32_of_lt (by omega)
    refine ⟨zero, readWord_blob above (by omega), ?_⟩
    rw [second]
    exact readWord_blob (by omega) (by omega)
  · left
    exact positive

omit top in
theorem eachProperty_top {α : Type} (m : Memory) (body : Nat → Nat → Walk (Option α)) (count : Nat) :
    eachProperty m 0 body count 0 = pure .rejected ∨
      eachProperty m 0 body count 0 = pure (.done 0) := by
  cases count with
  | zero => exact Or.inr rfl
  | succ count => exact Or.inl rfl

theorem skipNode_top {fuel : Nat} (deep : 1 < fuel) (small : node < 2 ^ 32)
    (above : b.base ≤ node) : skipNode b.memory 0 fuel node = pure 0 := by
  obtain ⟨fuel, rfl⟩ : ∃ k, fuel = k + 2 := ⟨fuel - 2, by omega⟩
  rw [skipNode]
  rcases top_header top small above with cut | ⟨header, properties, children⟩
  · rw [if_pos cut]
  · rw [header, if_neg (Nat.lt_irrefl 0), properties, pure_bind]
    rcases eachProperty_top b.memory skipBody (b.nProperties node) with scans | scans
    · rw [scans, pure_bind]
    · rw [scans, pure_bind]
      dsimp only
      rw [children, pure_bind]
      cases b.nChildren node with
      | zero => rfl
      | succ count => rfl

theorem findChildByName_top {fuel : Nat} (deep : 1 < fuel) (small : node < 2 ^ 32)
    (above : b.base ≤ node) : findChildByName b.memory fuel node 0 n = pure 0 := by
  obtain ⟨fuel, rfl⟩ : ∃ k, fuel = k + 2 := ⟨fuel - 2, by omega⟩
  rw [findChildByName]
  rcases top_header top small above with cut | ⟨header, properties, children⟩
  · rw [if_pos cut]
  · rw [header, if_neg (Nat.lt_irrefl 0), properties, pure_bind]
    cases b.nProperties node with
    | succ count => rfl
    | zero =>
        rw [skipProperties, pure_bind]
        dsimp only
        rw [children, pure_bind]
        cases b.nChildren node with
        | zero => rfl
        | succ count => rfl

theorem appleDtGetProp_top {dt len handle : Nat} (ends : u32 (dt + len) = 0)
    (start : startNode dt handle = node) (small : node < 2 ^ 32) (above : b.base ≤ node) :
    appleDtGetProp b.memory dt len handle n = pure (0, 0) := by
  simp only [appleDtGetProp]
  rw [ends, start]
  rcases top_header top small above with cut | ⟨header, properties, _⟩
  · rw [if_pos cut]
  · rw [header, if_neg (Nat.lt_irrefl 0), properties, pure_bind]
    rcases eachProperty_top b.memory (propBody b.memory n) (b.nProperties node) with scans | scans
    · rw [scans, pure_bind]
    · rw [scans, pure_bind]

end Top

end Lookups

/-! ## All three walks -/

def Blob.Points (b : Blob) (handle : Nat) : Prop :=
  handle = 0 ∨ b.base ≤ handle ∧ handle ≤ b.limit ∧ handle < 2 ^ 32

section Walks
variable {b : Blob} {handle : Nat} {n : List UInt8}

theorem endsAt_positions {node p : Nat} (ends : b.EndsAt node p) (above : b.base ≤ node) :
    b.base ≤ p := by
  have := childAt_after ends
  omega

/-- Each walk stays inside the blob where no sum of its own reaches 2^32, no comparison runs off
the blob, and, for `skip_node`, the padding of the last value does not. -/
theorem walks_inside (points : b.Points handle) (unterminated : 0 ∉ n) :
    ((b.limit < 2 ^ 32 → b.SkipsFlat (startNode b.base handle) ∧
        ∀ p, b.EndsAt (startNode b.base handle) p → p ≤ b.limit) →
      b.SkipInside (startNode b.base handle)) ∧
    ((b.limit < 2 ^ 32 → b.FindsFlat (startNode b.base handle) n) → b.FindInside handle n) ∧
    ((b.limit < 2 ^ 32 → b.GetsFlat (startNode b.base handle) n) → b.GetInside handle n) := by
  have start : b.base ≤ startNode b.base handle ∧ startNode b.base handle < 2 ^ 32 := by
    have small := b.small
    rw [startNode]
    rcases points with null | ⟨above, _, below⟩
    · rw [if_neg (not_not_intro null)]
      exact ⟨Nat.le_refl _, small⟩
    · split
      · exact ⟨above, below⟩
      · exact ⟨Nat.le_refl _, small⟩
  have within : b.limit ≤ 2 ^ 32 := b.fits
  have levels : (b.limit - startNode b.base handle) / 8 ≤ b.bytes.length / 8 := by
    rw [Blob.limit]
    omega
  rcases Nat.lt_or_eq_of_le within with flat | top
  · have ends : u32 b.limit = b.limit := u32_of_lt flat
    refine ⟨?_, ?_, ?_⟩
    · intro given
      obtain ⟨skips, within⟩ := given flat
      obtain ⟨r, result, meaning⟩ := skipNode_blob flat (b.bytes.length / 8) levels start.1 skips
      refine ⟨r, ?_, ?_⟩
      · intro fuel deep
        rw [ends]
        exact result fuel (by omega)
      · rcases meaning with null | endsAt
        · exact Or.inl null
        · exact Or.inr ⟨endsAt_positions endsAt start.1, within r endsAt⟩
    · intro given
      obtain ⟨r, result, inside⟩ := findChildByName_blob unterminated flat start.1 (given flat)
      refine ⟨r, ?_, inside⟩
      intro fuel deep
      rw [appleDtFindChild, ← Blob.limit, ends]
      exact result fuel (by omega)
    · intro given
      exact appleDtGetProp_blob unterminated flat start.1 ends rfl (given flat)
  · have ends : u32 b.limit = 0 := by
      rw [top]
      rfl
    refine ⟨fun _ => ⟨0, ?_, Or.inl rfl⟩, fun _ => ⟨0, ?_, Or.inl rfl⟩,
      fun _ => ⟨(0, 0), ?_, Or.inl rfl⟩⟩
    · intro fuel deep
      rw [ends]
      exact skipNode_top top (by omega) start.2 start.1
    · intro fuel deep
      rw [appleDtFindChild, ← Blob.limit, ends]
      exact findChildByName_top top (by omega) start.2 start.1
    · exact appleDtGetProp_top top ends rfl start.2 start.1

end Walks

/-- A root with one property `a` whose length takes its end to 2^32. -/
def wrapBlob : Blob :=
  ⟨0x1000, [1, 0, 0, 0, 0, 0, 0, 0, 0x61] ++ List.replicate 31 0 ++ [0xd4, 0xef, 0xff, 0xff],
    by decide, by decide⟩

/-- The sum is 0, which is not above the end. -/
theorem wrapped_length_accepted :
    ¬ ∀ (b : Blob) (handle : Nat) (n : List UInt8), b.base % 4 = 0 → b.Points handle → 0 ∉ n →
      b.SkipInside (startNode b.base handle) ∧ b.FindInside handle n ∧ b.GetInside handle n := by
  intro claimed
  obtain ⟨_, _, r, result, inside⟩ :=
    claimed wrapBlob 0 [0x61] (by decide) (Or.inl rfl) (by decide)
  have found : (appleDtGetProp wrapBlob.memory wrapBlob.base wrapBlob.bytes.length 0
      [0x61]).toOption = some (0x102c, 0xffffefd4) := by
    decide +kernel
  rw [result] at found
  cases Option.some.inj found
  rcases inside with null | ⟨_, within⟩
  · exact absurd null (by decide)
  · exact absurd within (by decide)

section OneProperty
variable {b : Blob} {node : Nat} {hit : Nat → Prop} {i p : Nat} (one : b.nProperties node = 1)
include one

theorem one_property (there : b.PropertyAt hit node i p) :
    i = 0 ∧ p = node + dtNodeHdr ∨ i = 1 ∧ p = b.nextHeader (node + dtNodeHdr) := by
  induction there with
  | first _ => exact Or.inl ⟨rfl, rfl⟩
  | next _ turn _ _ ih =>
      rcases ih with ⟨rfl, rfl⟩ | ⟨rfl, _⟩
      · exact Or.inr ⟨rfl, rfl⟩
      · omega

theorem one_skipped (there : b.SkippedAt node i p) :
    i = 0 ∧ p = node + dtNodeHdr ∨ i = 1 ∧ p = b.nextHeader (node + dtNodeHdr) := by
  induction there with
  | first _ => exact Or.inl ⟨rfl, rfl⟩
  | next _ turn _ ih =>
      rcases ih with ⟨rfl, rfl⟩ | ⟨rfl, _⟩
      · exact Or.inr ⟨rfl, rfl⟩
      · omega

theorem one_turn (there : b.PropertyAt hit node i p) (turn : i < b.nProperties node) :
    p = node + dtNodeHdr := by
  rcases one_property one there with ⟨_, first⟩ | ⟨last, _⟩
  · exact first
  · omega

theorem one_noWrap (next : b.nextHeader (node + dtNodeHdr) < 2 ^ 32)
    (value : b.valueEnd (node + dtNodeHdr) < 2 ^ 32) : b.NoWrap hit node := by
  have above : node + dtNodeHdr + dtPropHdr ≤ b.nextHeader (node + dtNodeHdr) := Nat.le_add_right _ _
  refine ⟨by omega, ?_, ?_, ?_⟩
  · intro i p there
    rcases one_property one there with ⟨_, rfl⟩ | ⟨_, rfl⟩ <;> omega
  · intro i p there turn
    rw [one_turn one there turn]
    omega
  · intro i p there turn _
    rw [one_turn one there turn]
    exact value

theorem leaf_end (leaf : b.nChildren node = 0) (ends : b.EndsAt node p) :
    p = b.nextHeader (node + dtNodeHdr) := by
  rw [Blob.EndsAt, leaf] at ends
  cases ends with
  | first there =>
      rw [one] at there
      rcases one_property one there with ⟨wrong, _⟩ | ⟨_, last⟩
      · omega
      · exact last

/-- The children of a node whose only child is a leaf of one property too. -/
theorem one_child {q r : Nat} (child : b.nChildren node = 1)
    (next : b.nextHeader (node + dtNodeHdr) = q) (one' : b.nProperties q = 1)
    (leaf : b.nChildren q = 0) (last : b.nextHeader (q + dtNodeHdr) = r)
    (there : b.ChildAt node i p) : i = 0 ∧ p = q ∨ i = 1 ∧ p = r := by
  have first {p : Nat} (there : b.ChildAt node 0 p) : p = q := by
    cases there with
    | first properties =>
        rw [one] at properties
        rcases one_property one properties with ⟨wrong, _⟩ | ⟨_, same⟩
        · omega
        · exact same.trans next
  cases there with
  | first properties => exact Or.inl ⟨rfl, first (.first properties)⟩
  | next before turn ends =>
      obtain rfl := Nat.lt_one_iff.mp (child ▸ turn)
      obtain rfl := first before
      exact Or.inr ⟨rfl, (leaf_end one' leaf ends).trans last⟩

end OneProperty

/-- A root with a property `a` of one word and a child called `c`. -/
def familyBlob : Blob :=
  ⟨0x1000, [1, 0, 0, 0, 1, 0, 0, 0, 0x61] ++ List.replicate 31 0 ++ [4, 0, 0, 0, 7, 0, 0, 0] ++
    [1, 0, 0, 0, 0, 0, 0, 0, 0x6e, 0x61, 0x6d, 0x65] ++ List.replicate 28 0 ++
      [2, 0, 0, 0, 0x63, 0, 0, 0], by decide, by decide⟩

theorem family_words :
    familyBlob.nProperties 0x1000 = 1 ∧ familyBlob.nChildren 0x1000 = 1 ∧
      familyBlob.nextHeader 0x1008 = 0x1030 ∧ familyBlob.nProperties 0x1030 = 1 ∧
      familyBlob.nChildren 0x1030 = 0 ∧ familyBlob.nextHeader 0x1038 = 0x1060 := by
  decide

theorem family_noWrap (hit : Nat → Prop) :
    familyBlob.NoWrap hit 0x1000 ∧ familyBlob.NoWrap hit 0x1030 := by
  obtain ⟨one, _, _, one', _, _⟩ := family_words
  exact ⟨one_noWrap one (by decide) (by decide), one_noWrap one' (by decide) (by decide)⟩

theorem family_children {i p : Nat} (there : familyBlob.ChildAt 0x1000 i p) :
    i = 0 ∧ p = 0x1030 ∨ i = 1 ∧ p = 0x1060 := by
  obtain ⟨one, child, second, one', leaf, last⟩ := family_words
  exact one_child one child second one' leaf last there

theorem family_skips {node : Nat} (root_or_child : node = 0x1000 ∨ node = 0x1030) :
    familyBlob.SkipsFlat node := by
  intro n below
  have same : n = 0x1000 ∨ n = 0x1030 := by
    induction below with
    | here => exact root_or_child
    | child _ there turn ih =>
        obtain ⟨_, child, _, _, leaf, _⟩ := family_words
        rcases ih with rfl | rfl
        · rcases family_children there with ⟨_, place⟩ | ⟨rfl, _⟩
          · exact Or.inr place
          · omega
        · omega
  rcases same with rfl | rfl
  · exact (family_noWrap _).1
  · exact (family_noWrap _).2

theorem walks_inside_family :
    familyBlob.SkipInside 0x1000 ∧ familyBlob.FindInside 0 [0x63] ∧ familyBlob.GetInside 0 [0x61] := by
  obtain ⟨one, child, second, one', leaf, last⟩ := family_words
  have start : startNode familyBlob.base 0 = 0x1000 := rfl
  have skips := (@walks_inside familyBlob 0 [0x63] (Or.inl rfl) (by decide)).1
  have finds := (@walks_inside familyBlob 0 [0x63] (Or.inl rfl) (by decide)).2.1
  have gets := (@walks_inside familyBlob 0 [0x61] (Or.inl rfl) (by decide)).2.2
  rw [start] at skips finds gets
  refine ⟨skips fun _ => ⟨family_skips (Or.inl rfl), ?_⟩, finds fun _ => ?_, gets fun _ => ?_⟩
  · intro p ends
    rw [Blob.EndsAt, child] at ends
    rcases family_children ends with ⟨wrong, _⟩ | ⟨_, rfl⟩
    · omega
    · decide
  · have candidate {i p : Nat} (there : familyBlob.CandidateAt [0x63] 0x1000 i p)
        (turn : i < familyBlob.nChildren 0x1000) : p = 0x1030 := by
      cases there with
      | first skipped =>
          rcases one_skipped one skipped with ⟨wrong, _⟩ | ⟨_, place⟩
          · omega
          · exact place.trans second
      | next _ _ _ _ => omega
    refine ⟨by decide, ?_, ?_, ?_, ?_⟩
    · intro i p there
      rcases one_skipped one there with ⟨_, rfl⟩ | ⟨_, rfl⟩ <;> decide
    · intro i p there turn
      rcases one_skipped one there with ⟨_, rfl⟩ | ⟨_, rfl⟩ <;> decide
    · intro i p there turn
      rw [candidate there turn]
      refine ⟨(family_noWrap _).2, ?_, ?_⟩
      · intro i p meets
        rw [one_turn one' meets.at_ meets.turn, Blob.Stops]
        decide
      · intro i p meets _ _
        rw [one_turn one' meets.at_ meets.turn, Blob.Stops]
        decide
    · intro i p there turn _
      rw [candidate there turn]
      exact family_skips (Or.inr rfl)
  · refine ⟨(family_noWrap _).1, ?_⟩
    intro i p meets
    rw [one_turn one meets.at_ meets.turn, Blob.Stops]
    decide

end Stage90.DeviceTree

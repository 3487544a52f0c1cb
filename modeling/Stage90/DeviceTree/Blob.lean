import Stage90.DeviceTree.Reader

/-!
# A blob of arbitrary bytes

The positions of headers in a blob, in unbounded integers, and the loop over a node's
properties as far as it keeps to them.
-/

set_option autoImplicit false

namespace Stage90.DeviceTree

open Stage90.Lib

structure Blob where
  base : Nat
  bytes : List UInt8
  fits : base + bytes.length ≤ 2 ^ 32
  small : base < 2 ^ 32

namespace Blob
variable (b : Blob)

def memory : Memory := fun a => if b.base ≤ a then b.bytes[a - b.base]? else none

def limit : Nat := b.base + b.bytes.length

/-- The bytes from `a` on. -/
def rest (a : Nat) : List UInt8 := b.bytes.drop (a - b.base)

def byte (a : Nat) : UInt8 := (b.bytes[a - b.base]?).getD 0

def word (a : Nat) : Nat :=
  (b.byte a).toNat + 2 ^ 8 * (b.byte (a + 1)).toNat + 2 ^ 16 * (b.byte (a + 2)).toNat +
    2 ^ 24 * (b.byte (a + 3)).toNat

def nProperties (node : Nat) : Nat := b.word node

def nChildren (node : Nat) : Nat := b.word (node + 4)

/-- The `length` of the property header at `p`. -/
def length (p : Nat) : Nat := b.word (p + dtPropNameLen)

def valueEnd (p : Nat) : Nat := p + dtPropHdr + b.length p

def nextHeader (p : Nat) : Nat := p + dtPropHdr + (b.length p + 3) / 4 * 4

def Stops (a : Nat) (n : List UInt8) : Prop := ¬ b.rest a <+: n

def StringIs (a : Nat) (n : List UInt8) : Prop := n ++ [0] <+: b.rest a

/-- Header `i` of the node is at `p`, the values before it lie in the blob, and the search has
not hit. -/
inductive PropertyAt (hit : Nat → Prop) (node : Nat) : Nat → Nat → Prop where
  | first : node + dtNodeHdr ≤ b.limit → PropertyAt hit node 0 (node + dtNodeHdr)
  | next {i p : Nat} : PropertyAt hit node i p → i < b.nProperties node → b.valueEnd p ≤ b.limit →
      ¬ hit p → PropertyAt hit node (i + 1) (b.nextHeader p)

/-- A walk to the last property. -/
def never (_ : Nat) : Prop := False

/-- Child `i` of the node is at `p`, and what is before it lies in the blob. -/
inductive ChildAt : Nat → Nat → Nat → Prop where
  | first {node p : Nat} : b.PropertyAt never node (b.nProperties node) p → ChildAt node 0 p
  | next {node i p q : Nat} : ChildAt node i p → i < b.nChildren node →
      ChildAt p (b.nChildren p) q → ChildAt node (i + 1) q

def EndsAt (node p : Nat) : Prop := b.ChildAt node (b.nChildren node) p

/-- A node that `skip_node` comes by. -/
inductive Below (node : Nat) : Nat → Prop where
  | here : Below node node
  | child {n i p : Nat} : Below node n → b.ChildAt n i p → i < b.nChildren n → Below node p

/-- No sum in the node's property loop reaches 2^32. -/
structure NoWrap (hit : Nat → Prop) (node : Nat) : Prop where
  header : node + dtNodeHdr < 2 ^ 32
  position : ∀ i p, b.PropertyAt hit node i p → p < 2 ^ 32
  property : ∀ i p, b.PropertyAt hit node i p → i < b.nProperties node → p + dtPropHdr < 2 ^ 32
  value : ∀ i p, b.PropertyAt hit node i p → i < b.nProperties node →
    p + dtPropHdr ≤ b.limit → b.valueEnd p < 2 ^ 32

/-- Every node that `skip_node` comes by. -/
def SkipsFlat (node : Nat) : Prop := ∀ n, b.Below node n → b.NoWrap never n

end Blob

section Reads
variable {b : Blob}

/-! ## Reads -/

theorem readByte_blob {a : Nat} (above : b.base ≤ a) (below : a < b.limit) :
    readByte b.memory a = pure (b.byte a) := by
  have inside : a - b.base < b.bytes.length := by
    rw [Blob.limit] at below
    omega
  have found : b.memory a = some (b.byte a) := by
    rw [Blob.memory, if_pos above, Blob.byte, List.getElem?_eq_getElem inside, Option.getD_some]
  rw [readByte, found]

theorem readWord_blob {a : Nat} (above : b.base ≤ a) (below : a + 4 ≤ b.limit) :
    readWord b.memory a = pure (b.word a) := by
  have fits : b.limit ≤ 2 ^ 32 := b.fits
  have a1 : u32 (a + 1) = a + 1 := u32_of_lt (by omega)
  have a2 : u32 (a + 2) = a + 2 := u32_of_lt (by omega)
  have a3 : u32 (a + 3) = a + 3 := u32_of_lt (by omega)
  rw [readWord, a1, a2, a3, readByte_blob above (by omega), pure_bind,
    readByte_blob (by omega) (by omega), pure_bind, readByte_blob (by omega) (by omega), pure_bind,
    readByte_blob (by omega) (by omega), pure_bind, Blob.word]

theorem rest_cons {a : Nat} (above : b.base ≤ a) (some : b.rest a ≠ []) :
    a < b.limit ∧ b.rest a = b.byte a :: b.rest (a + 1) := by
  have inside : a - b.base < b.bytes.length := by
    by_contra beyond
    exact some (List.drop_eq_nil_of_le (by omega))
  constructor
  · rw [Blob.limit]
    omega
  · have next : a + 1 - b.base = a - b.base + 1 := by omega
    rw [Blob.rest, Blob.rest, Blob.byte, next, List.drop_eq_getElem_cons inside,
      List.getElem?_eq_getElem inside, Option.getD_some]

theorem strcmp_blob {a : Nat} {n : List UInt8} (above : b.base ≤ a) (unterminated : 0 ∉ n)
    (stops : b.Stops a n) :
    ∃ same : Bool, strcmp b.memory a n = pure same ∧ (same = true ↔ b.StringIs a n) := by
  have fits : b.limit ≤ 2 ^ 32 := b.fits
  induction n generalizing a with
  | nil =>
      have some : b.rest a ≠ [] := fun none => stops (none ▸ List.prefix_rfl)
      obtain ⟨below, split⟩ := rest_cons above some
      refine ⟨b.byte a == 0, ?_, ?_⟩
      · rw [strcmp, readByte_blob above below, pure_bind]
      · rw [Blob.StringIs, split, List.nil_append, List.cons_prefix_cons, beq_iff_eq]
        exact ⟨fun zero => ⟨zero.symm, List.nil_prefix⟩, fun both => both.1.symm⟩
  | cons d n ih =>
      have nonzero : d ≠ 0 := fun zero => unterminated (zero ▸ List.mem_cons_self)
      have some : b.rest a ≠ [] := fun none => stops (none ▸ List.nil_prefix)
      obtain ⟨below, split⟩ := rest_cons above some
      have is : b.StringIs a (d :: n) ↔ d = b.byte a ∧ b.StringIs (a + 1) n := by
        rw [Blob.StringIs, split, List.cons_append, List.cons_prefix_cons, Blob.StringIs]
      by_cases same : b.byte a = d
      · have later : b.Stops (a + 1) n := by
          intro runs
          apply stops
          rw [split, same, List.cons_prefix_cons]
          exact ⟨rfl, runs⟩
        have inside : a + 1 < 2 ^ 32 := by
          have some : b.rest (a + 1) ≠ [] := fun none => later (none ▸ List.nil_prefix)
          have := (rest_cons (by omega) some).1
          omega
        obtain ⟨equal, result, meaning⟩ := ih (a := a + 1) (by omega)
          (fun member => unterminated (List.mem_cons_of_mem d member)) later
        refine ⟨equal, ?_, ?_⟩
        · rw [strcmp, readByte_blob above below, pure_bind, if_pos ⟨same ▸ nonzero, same⟩,
            u32_of_lt inside, result]
        · rw [is, meaning]
          simp [same]
      · refine ⟨false, ?_, ?_⟩
        · rw [strcmp, readByte_blob above below, pure_bind, if_neg fun both => same both.2,
            beq_eq_false_iff_ne.mpr same]
        · rw [is]
          simp [Ne.symm same]

/-! ## Positions -/

theorem propertyAt_after {hit : Nat → Prop} {node i p : Nat} (there : b.PropertyAt hit node i p) :
    node + dtNodeHdr ≤ p := by
  induction there with
  | first _ => exact Nat.le_refl _
  | next _ _ _ _ ih =>
      rw [Blob.nextHeader]
      omega

theorem propertyAt_unique {hit : Nat → Prop} {node i p q : Nat} (first : b.PropertyAt hit node i p)
    (second : b.PropertyAt hit node i q) : p = q := by
  induction first generalizing q with
  | first _ =>
      cases second
      rfl
  | next _ _ _ _ ih =>
      cases second with
      | next before _ _ _ => rw [ih before]

theorem propertyAt_before {hit : Nat → Prop} {node i j q : Nat}
    (there : b.PropertyAt hit node j q) (earlier : i < j) :
    ∃ p, b.PropertyAt hit node i p ∧ b.valueEnd p ≤ b.limit ∧ ¬ hit p := by
  induction there with
  | first _ => omega
  | next before _ inside misses ih =>
      rcases Nat.lt_or_eq_of_le (Nat.le_of_lt_succ earlier) with before' | rfl
      · exact ih before'
      · exact ⟨_, before, inside, misses⟩

theorem childAt_after {node i p : Nat} (there : b.ChildAt node i p) : node + dtNodeHdr ≤ p := by
  induction there with
  | first properties => exact propertyAt_after properties
  | next _ _ _ ih below => omega

end Reads

/-! ## The property loop -/

section Scans
variable {b : Blob} {hit : Nat → Prop} {node : Nat}

/-- A header that the loop of a search comes by, its value inside the blob. -/
structure Blob.Meets (b : Blob) (hit : Nat → Prop) (node i p : Nat) : Prop where
  at_ : b.PropertyAt hit node i p
  turn : i < b.nProperties node
  inside : b.valueEnd p ≤ b.limit

def Blob.Hits (b : Blob) (hit : Nat → Prop) (node p : Nat) : Prop :=
  ∃ i, b.Meets hit node i p ∧ hit p

inductive Scanned {α : Type} (b : Blob) (hit : Nat → Prop) (node : Nat) (found : Nat → α → Prop) :
    Scan α → Prop where
  | rejected : (∀ p, ¬ b.Hits hit node p) → Scanned b hit node found .rejected
  | hit {p : Nat} {a : α} : b.Hits hit node p → found p a → Scanned b hit node found (.hit a)
  | done {p : Nat} : (∀ p, ¬ b.Hits hit node p) → b.PropertyAt hit node (b.nProperties node) p →
      Scanned b hit node found (.done p)

/-- Nothing is hit behind a header whose value leaves the blob, or at the end of the loop. -/
theorem no_hit_from {i p : Nat} (there : b.PropertyAt hit node i p)
    (stuck : ¬ (i < b.nProperties node ∧ b.valueEnd p ≤ b.limit)) :
    ∀ q, ¬ b.Hits hit node q := by
  intro q ⟨j, meets, hits⟩
  rcases Nat.lt_trichotomy j i with before | same | behind
  · obtain ⟨p', first, _, misses⟩ := propertyAt_before there before
    rw [propertyAt_unique meets.at_ first] at hits
    exact misses hits
  · subst same
    rw [propertyAt_unique there meets.at_] at stuck
    exact stuck ⟨meets.turn, meets.inside⟩
  · obtain ⟨p', first, inside, _⟩ := propertyAt_before meets.at_ behind
    have turn := meets.turn
    rw [propertyAt_unique there first] at stuck
    exact stuck ⟨by omega, inside⟩

theorem eachProperty_blob {α : Type} {body : Nat → Nat → Walk (Option α)}
    {found : Nat → α → Prop} (flat : b.limit < 2 ^ 32) (above : b.base ≤ node) (noWrap : b.NoWrap hit node)
    (bodies : ∀ i p, b.Meets hit node i p →
      body p (b.length p) = pure none ∧ ¬ hit p ∨
        ∃ a, body p (b.length p) = pure (some a) ∧ found p a ∧ hit p)
    (count : Nat) {i p : Nat} (turns : i + count = b.nProperties node)
    (there : b.PropertyAt hit node i p) :
    ∃ scan, eachProperty b.memory b.limit body count p = pure scan ∧
      Scanned b hit node found scan := by
  induction count generalizing i p with
  | zero =>
      have last : i = b.nProperties node := turns
      refine ⟨_, rfl, .done ?_ (last ▸ there)⟩
      apply no_hit_from there
      omega
  | succ count ih =>
      have turn : i < b.nProperties node := by omega
      have after := propertyAt_after there
      have header : u32 (p + dtPropHdr) = p + dtPropHdr := u32_of_lt (noWrap.property i p there turn)
      rw [eachProperty, header]
      by_cases cut : b.limit < p + dtPropHdr
      · rw [if_pos cut]
        refine ⟨_, rfl, .rejected ?_⟩
        apply no_hit_from there
        rw [Blob.valueEnd]
        omega
      have value := noWrap.value i p there turn (Nat.le_of_not_lt cut)
      have word : readWord b.memory (u32 (p + dtPropNameLen)) = pure (b.length p) := by
        simp only [dtPropHdr] at cut
        have start : u32 (p + dtPropNameLen) = p + dtPropNameLen :=
          u32_of_lt (by simp only [dtPropNameLen]; omega)
        rw [start]
        apply readWord_blob
        · omega
        · simp only [dtPropNameLen]
          omega
      rw [if_neg cut, word, pure_bind]
      dsimp only
      rw [Blob.valueEnd] at value
      rw [u32_of_lt value]
      by_cases beyond : b.limit < p + dtPropHdr + b.length p
      · rw [if_pos beyond]
        refine ⟨_, rfl, .rejected ?_⟩
        apply no_hit_from there
        rw [Blob.valueEnd]
        omega
      rw [if_neg beyond]
      have meets : b.Meets hit node i p := ⟨there, turn, Nat.le_of_not_lt beyond⟩
      rcases bodies i p meets with ⟨nothing, misses⟩ | ⟨a, something, finds, hits⟩
      · have later : b.PropertyAt hit node (i + 1) (b.nextHeader p) :=
          .next there turn meets.inside misses
        have next : u32 (p + dtPropHdr + align4 (b.length p)) = b.nextHeader p := by
          have position := noWrap.position _ _ later
          rw [Blob.nextHeader] at position ⊢
          rw [align4_of_lt (by simp only [dtPropHdr] at value; omega)]
          exact u32_of_lt position
        rw [nothing, pure_bind]
        dsimp only
        rw [next]
        exact ih (by omega) later
      · rw [something, pure_bind]
        exact ⟨_, rfl, .hit ⟨i, meets, hits⟩ finds⟩

theorem node_header {n : Nat} (flat : b.limit < 2 ^ 32) (above : b.base ≤ n)
    (fits : n + dtNodeHdr ≤ b.limit) :
    u32 (n + dtNodeHdr) = n + dtNodeHdr ∧ readWord b.memory n = pure (b.nProperties n) ∧
      readWord b.memory (u32 (n + 4)) = pure (b.nChildren n) := by
  simp only [dtNodeHdr] at fits ⊢
  have second : u32 (n + 4) = n + 4 := u32_of_lt (by omega)
  refine ⟨u32_of_lt (by omega), readWord_blob above (by omega), ?_⟩
  rw [second]
  exact readWord_blob (by omega) (by omega)

end Scans

end Stage90.DeviceTree

import Stage90.Lib.ByteBlocks

/-!
# Streams of blocks

A loop over the blocks of a flat memory that reads one at `src`, puts one at `dst` and carries a
value into the next turn.  It leaves what a loop over untouched blocks would leave as long as no
turn writes over a block that a later turn reads.
-/

set_option autoImplicit false

namespace Stage90.Lib

structure Chain (α γ : Type) where
  memory : Nat → α
  iv : γ

section
variable {α γ : Type} {n : Nat} (put : γ → (Fin n → α) → Fin n → α) (next : γ → (Fin n → α) → γ)

def carried (blocks : Nat → Fin n → α) (iv : γ) : Nat → γ
  | 0 => iv
  | b + 1 => next (carried blocks iv b) (blocks b)

def blocksAt (n : Nat) (memory : Nat → α) (p : Nat) : Nat → Fin n → α :=
  fun b => blockAt n memory (p + n * b)

def streamTurn (src dst : Nat) (s : Chain α γ) (b : Nat) : Chain α γ :=
  { memory := copyBlock s.memory (dst + n * b) (put s.iv (blocksAt n s.memory src b))
    iv := next s.iv (blocksAt n s.memory src b) }

/-- No turn before the last overwrites what a later one reads. -/
def SparesLater (n src dst count : Nat) : Prop :=
  ∀ b b', b < b' → b' < count →
    src + n * b' + n ≤ dst + n * b ∨ dst + n * b + n ≤ src + n * b'

/-- Two ranges of `size` cells that do not meet. -/
def Apart (p q size : Nat) : Prop := p + size ≤ q ∨ q + size ≤ p

theorem mul_succ_le {n b count : Nat} (inside : b < count) : n * b + n ≤ n * count := by
  rw [← Nat.mul_succ]
  exact Nat.mul_le_mul_left n inside

theorem sparesLater_of_apart {src dst count : Nat} (apart : Apart src dst (n * count)) :
    SparesLater n src dst count := by
  intro b b' before inside
  have early : n * b + n ≤ n * count := mul_succ_le (Nat.lt_trans before inside)
  have late : n * b' + n ≤ n * count := mul_succ_le inside
  rw [Apart] at apart
  omega

theorem sparesLater_self (p count : Nat) : SparesLater n p p count := by
  intro b b' before _
  have below : n * b + n ≤ n * b' := mul_succ_le before
  omega

structure Streamed (src dst count : Nat) (s s' : Chain α γ) : Prop where
  frame : ∀ a, a < dst ∨ dst + n * count ≤ a → s'.memory a = s.memory a
  block : ∀ b < count, blocksAt n s'.memory dst b =
    put (carried next (blocksAt n s.memory src) s.iv b) (blocksAt n s.memory src b)
  iv_eq : s'.iv = carried next (blocksAt n s.memory src) s.iv count

theorem streamed_zero (src dst : Nat) (s : Chain α γ) : Streamed put next src dst 0 s s where
  frame _ _ := rfl
  block b inside := absurd inside (Nat.not_lt_zero b)
  iv_eq := rfl

theorem streamed_succ {src dst count : Nat} {s s' : Chain α γ}
    (spares : SparesLater n src dst (count + 1)) (before : Streamed put next src dst count s s') :
    Streamed put next src dst (count + 1) s (streamTurn put next src dst s' count) := by
  -- The block of this turn is read as it was at the start.
  have fresh : blocksAt n s'.memory src count = blocksAt n s.memory src count := by
    apply blockAt_congr
    intro a above below
    apply before.frame
    by_contra written
    push Not at written
    have positive : 0 < n := by omega
    have spared := spares ((a - dst) / n) count
      (Nat.div_lt_of_lt_mul (by omega)) (Nat.lt_succ_self count)
    have floor : n * ((a - dst) / n) ≤ a - dst := Nat.mul_div_le (a - dst) n
    have ceiling : a - dst < n * ((a - dst) / n) + n := by
      have split := Nat.div_add_mod (a - dst) n
      have rest := Nat.mod_lt (a - dst) positive
      omega
    omega
  constructor
  · intro a outside
    have grows : n * count ≤ n * (count + 1) := Nat.mul_le_mul_left n (Nat.le_succ count)
    have step : n * (count + 1) = n * count + n := Nat.mul_succ n count
    have kept : s'.memory a = s.memory a := before.frame a (by omega)
    exact (copyBlock_apply_outside _ _ _ _ (by omega)).trans kept
  · intro b inside
    by_cases last : b = count
    · rw [last, ← before.iv_eq, ← fresh]
      exact blockAt_copyBlock_same _ _ _
    · have earlier : b < count := by omega
      have below : n * b + n ≤ n * count := mul_succ_le earlier
      rw [← before.block b earlier]
      apply blockAt_copyBlock_disjoint
      omega
  · rw [carried, ← before.iv_eq, ← fresh]
    rfl

theorem streamed_foldl {src dst : Nat} (turn : Chain α γ → Nat → Chain α γ) (count : Nat)
    (turns : ∀ s, ∀ b < count, turn s b = streamTurn put next src dst s b)
    (spares : SparesLater n src dst count) (s : Chain α γ) :
    Streamed put next src dst count s ((List.range count).foldl turn s) := by
  induction count with
  | zero => exact streamed_zero put next src dst s
  | succ count ih =>
      have before := ih (fun s b inside => turns s b (Nat.lt_succ_of_lt inside))
        fun b b' ordered inside => spares b b' ordered (Nat.lt_succ_of_lt inside)
      rw [List.range_succ, List.foldl_append, List.foldl_cons, List.foldl_nil,
        turns _ count (Nat.lt_succ_self count)]
      exact streamed_succ put next spares before

end

end Stage90.Lib

import Stage90.Crypto.CbcRoundTrip

/-!
# CBC in place

The loops with `out == in` against the same call with a buffer of its own.
-/

set_option autoImplicit false

namespace Stage90.Aes

open Stage90.Lib

/-- The `n` blocks at `p` and `iv` of one state against those at `q` of another. -/
def Agree (s s' : CbcState) (p q n : Nat) : Prop :=
  (∀ k < 16 * n, s.memory (p + k) = s'.memory (q + k)) ∧ s.iv = s'.iv

theorem bufferBlock_congr {memory memory' : Nat → UInt8} {p q n : Nat}
    (bytes : ∀ k < 16 * n, memory (p + k) = memory' (q + k)) :
    ∀ b < n, bufferBlock memory p b = bufferBlock memory' q b := by
  intro b inside
  apply blockOf_eq_iff.mpr
  intro i small
  rw [Nat.add_assoc, Nat.add_assoc]
  exact bytes (16 * b + i) (by omega)

theorem xorBlock_left_cancel {s t u : Block} (same : xorBlock s t = xorBlock s u) : t = u := by
  rw [xorBlock_comm s t, xorBlock_comm s u] at same
  rw [xorBlock_eq_iff.mp same, xorBlock_xorBlock]

section Chains
variable {iv : Block} {n : Nat}

theorem chained_unique {E : Block → Block} {p c c' : Nat → Block}
    (chained : ∀ b < n, c b = E (xorBlock (p b) (previous iv c b)))
    (chained' : ∀ b < n, c' b = E (xorBlock (p b) (previous iv c' b))) :
    ∀ b ≤ n, previous iv c b = previous iv c' b := by
  intro b
  induction b with
  | zero => intro _; rfl
  | succ b ih =>
      intro inside
      have before := ih (Nat.le_of_succ_le inside)
      calc c b = E (xorBlock (p b) (previous iv c b)) := chained b inside
        _ = E (xorBlock (p b) (previous iv c' b)) := by rw [before]
        _ = c' b := (chained' b inside).symm

/-- `p` is chained to the ciphertext `c`, `p'` to itself. -/
theorem feedback_agrees_iff {D : Block → Block} {c p p' : Nat → Block}
    (plain : ∀ b < n, p b = xorBlock (D (c b)) (previous iv c b))
    (plain' : ∀ b < n, p' b = xorBlock (D (c b)) (previous iv p' b)) :
    ((∀ b < n, p' b = p b) ∧ previous iv p' n = previous iv c n) ↔
      ∀ b < n, D (c b) = xorBlock (c b) (previous iv c b) := by
  constructor
  · intro ⟨agree, last⟩ b inside
    apply xorBlock_eq_iff.mp
    -- What turn `b` carries on is the ciphertext, whether a later turn or the caller reads it.
    have carries : p' b = c b := by
      by_cases more : b + 1 < n
      · have later := agree (b + 1) more
        rw [plain (b + 1) more, plain' (b + 1) more] at later
        exact xorBlock_left_cancel later
      · have length : n = b + 1 := by omega
        rw [length] at last
        exact last
    rw [← plain b inside, ← agree b inside, carries]
  · intro fixed
    have carries : ∀ b ≤ n, previous iv p' b = previous iv c b := by
      intro b
      induction b with
      | zero => intro _; rfl
      | succ b ih =>
          intro inside
          have before := ih (Nat.le_of_succ_le inside)
          calc p' b = xorBlock (D (c b)) (previous iv p' b) := plain' b inside
            _ = xorBlock (D (c b)) (previous iv c b) := by rw [before]
            _ = c b := xorBlock_eq_iff.mpr (fixed b inside)
    refine ⟨?_, carries n (Nat.le_refl n)⟩
    intro b inside
    rw [plain b inside, plain' b inside, carries b (Nat.le_of_lt inside)]

end Chains

section InPlace
variable (rk : Schedule) {s : CbcState} {buf out n : Nat}

theorem cbcEncrypt_agrees (apart : Apart buf out (16 * n)) :
    Agree (stage90Aes128CbcEncrypt rk s n buf buf) (stage90Aes128CbcEncrypt rk s n buf out)
      buf out n := by
  obtain ⟨here, left⟩ := cbcEncrypt_leaves rk (s := s) (sparesLater_self buf n)
  obtain ⟨there, left'⟩ := cbcEncrypt_leaves rk (s := s) (sparesLater_of_apart apart)
  have same := chained_unique here there
  constructor
  · apply bytes_of_blocks
    intro b inside
    exact same (b + 1) inside
  · rw [left, left']
    exact same n (Nat.le_refl n)

theorem cbcDecrypt_agrees_iff (apart : Apart buf out (16 * n)) :
    Agree (stage90Aes128CbcDecrypt rk s n buf buf) (stage90Aes128CbcDecrypt rk s n buf out)
        buf out n ↔
      ∀ b < n, stage90Aes128DecryptBlock rk (bufferBlock s.memory buf b) =
        xorBlock (bufferBlock s.memory buf b) (previous s.iv (bufferBlock s.memory buf) b) := by
  obtain ⟨here, left⟩ := cbcDecrypt_leaves_in_place rk (s := s) (n := n) buf
  obtain ⟨there, left'⟩ := cbcDecrypt_leaves_apart rk (s := s) apart
  rw [← feedback_agrees_iff there here, Agree, left, left']
  constructor
  · intro ⟨bytes, carried_⟩
    exact ⟨bufferBlock_congr bytes, carried_⟩
  · intro ⟨blocks, carried_⟩
    exact ⟨bytes_of_blocks blocks, carried_⟩

end InPlace

/-- Encryption in place is encryption; decryption in place is decryption exactly when every block
is its own plaintext. -/
theorem cbc_in_place (key : Block) (rk : Schedule) (s : CbcState) {buf out n : Nat}
    (apart : Apart buf out (16 * n)) :
    let rk := stage90Aes128ExpandKey key rk
    Agree (stage90Aes128CbcEncrypt rk s n buf buf) (stage90Aes128CbcEncrypt rk s n buf out)
        buf out n ∧
      (Agree (stage90Aes128CbcDecrypt rk s n buf buf) (stage90Aes128CbcDecrypt rk s n buf out)
          buf out n ↔
        ∀ b < n, stage90Aes128DecryptBlock rk (bufferBlock s.memory buf b) =
          xorBlock (bufferBlock s.memory buf b) (previous s.iv (bufferBlock s.memory buf) b)) :=
  ⟨cbcEncrypt_agrees _ apart, cbcDecrypt_agrees_iff _ apart⟩

def zeroSchedule : Schedule :=
  stage90Aes128ExpandKey (Vector.replicate 16 0) (Vector.replicate 176 0)

/-- The plaintext of a zero block under no chaining. -/
def zeroPlain : Block := stage90Aes128DecryptBlock zeroSchedule (Vector.replicate 16 0)

/-- A block and a zero block behind it, each its own plaintext with this `iv`. -/
def fixedState : CbcState where
  memory a := if a < 16 then zeroPlain.toList.getD a 0 else 0
  iv := xorBlock (stage90Aes128DecryptBlock zeroSchedule zeroPlain) zeroPlain

theorem zero_xorBlock (t : Block) : xorBlock (Vector.replicate 16 0) t = t := by
  apply Vector.ext
  intro i inside
  simp [xorBlock, block_get]

theorem fixed_blocks : bufferBlock fixedState.memory 0 0 = zeroPlain ∧
    bufferBlock fixedState.memory 0 1 = Vector.replicate 16 0 := by
  constructor
  · apply Vector.ext
    intro i inside
    simp [bufferBlock, blockOf, blockAt, fixedState, inside]
  · apply Vector.ext
    intro i inside
    simp [bufferBlock, blockOf, blockAt, fixedState]

theorem cbc_in_place_two :
    Agree (stage90Aes128CbcEncrypt zeroSchedule fixedState 2 0 0)
        (stage90Aes128CbcEncrypt zeroSchedule fixedState 2 0 32) 0 32 2 ∧
      Agree (stage90Aes128CbcDecrypt zeroSchedule fixedState 2 0 0)
        (stage90Aes128CbcDecrypt zeroSchedule fixedState 2 0 32) 0 32 2 := by
  have apart : Apart 0 32 (16 * 2) := Or.inl (by decide)
  obtain ⟨encrypts, decrypts⟩ :=
    cbc_in_place (Vector.replicate 16 0) (Vector.replicate 176 0) fixedState apart
  refine ⟨encrypts, decrypts.mpr ?_⟩
  obtain ⟨first, second⟩ := fixed_blocks
  intro b inside
  rcases Nat.le_one_iff_eq_zero_or_eq_one.mp (Nat.le_of_lt_succ inside) with rfl | rfl
  · have iv : xorBlock (stage90Aes128DecryptBlock zeroSchedule zeroPlain) zeroPlain =
        fixedState.iv := by
      rw [fixedState]
    rw [first, xorBlock_comm, previous]
    exact xorBlock_eq_iff.mp iv
  · rw [second, previous, first, zero_xorBlock, zeroPlain, zeroSchedule]

/-- A memory of zeros, and an `iv` that is not a block of it. -/
def zeroState : CbcState := { memory := fun _ => 0, iv := Vector.replicate 16 1 }

/-- One block after the `iv` and after itself cannot both be its own plaintext. -/
theorem zero_not_fixed : ¬ ∀ b < 2,
    stage90Aes128DecryptBlock zeroSchedule (bufferBlock zeroState.memory 0 b) =
      xorBlock (bufferBlock zeroState.memory 0 b)
        (previous zeroState.iv (bufferBlock zeroState.memory 0) b) := by
  intro fixed
  have first := fixed 0 (by decide)
  have second := fixed 1 (by decide)
  have same : bufferBlock zeroState.memory 0 1 = bufferBlock zeroState.memory 0 0 := rfl
  rw [same, first] at second
  have iv_eq : zeroState.iv = bufferBlock zeroState.memory 0 0 := xorBlock_left_cancel second
  revert iv_eq
  decide

theorem zeros_in_place :
    ¬ Agree (stage90Aes128CbcDecrypt zeroSchedule zeroState 2 0 0)
      (stage90Aes128CbcDecrypt zeroSchedule zeroState 2 0 32) 0 32 2 := by
  have apart : Apart 0 32 (16 * 2) := Or.inl (by decide)
  intro agree
  exact zero_not_fixed ((cbcDecrypt_agrees_iff zeroSchedule apart).mp agree)

end Stage90.Aes

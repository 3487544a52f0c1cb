import Stage90.Crypto.AesCipher
import Stage90.Crypto.Cbc

/-!
# CBC round trip

Decryption of an encrypted stream, and streams that are cut in two.
-/

set_option autoImplicit false

namespace Stage90.Aes

open Stage90.Lib

/-- The turn on block `k + b` is the turn on block `b` of buffers that start `k` blocks later. -/
theorem foldl_range_add {σ : Type} (turn : Nat → Nat → σ → Nat → σ)
    (later : ∀ in_ out k b s, turn (in_ + 16 * k) (out + 16 * k) s b = turn in_ out s (k + b))
    (in_ out n m : Nat) (s : σ) :
    (List.range (n + m)).foldl (turn in_ out) s =
      (List.range m).foldl (turn (in_ + 16 * n) (out + 16 * n))
        ((List.range n).foldl (turn in_ out) s) := by
  rw [List.range_add, List.foldl_append, List.foldl_map]
  congr 1
  funext s b
  exact (later in_ out n b s).symm

section Split
variable (rk : Schedule) (s : CbcState) (n m in_ out : Nat)

theorem cbcEncrypt_add :
    stage90Aes128CbcEncrypt rk s (n + m) in_ out =
      stage90Aes128CbcEncrypt rk (stage90Aes128CbcEncrypt rk s n in_ out) m (in_ + 16 * n)
        (out + 16 * n) := by
  apply foldl_range_add (encryptTurn rk)
  intro in_ out k b s
  simp only [encryptTurn, Nat.mul_add, Nat.add_assoc]

theorem cbcDecrypt_add :
    stage90Aes128CbcDecrypt rk s (n + m) in_ out =
      stage90Aes128CbcDecrypt rk (stage90Aes128CbcDecrypt rk s n in_ out) m (in_ + 16 * n)
        (out + 16 * n) := by
  apply foldl_range_add (decryptTurn rk)
  intro in_ out k b s
  simp only [decryptTurn, Nat.mul_add, Nat.add_assoc]

end Split

section RoundTrip
variable {rk : Schedule} {s : CbcState} {n in_ out back : Nat}

/-- Every block comes back, and both streams stop at the same `iv`. -/
theorem cbcDecrypt_cbcEncrypt (apart : Apart in_ out (16 * n)) (apart' : Apart out back (16 * n)) :
    let cipher := stage90Aes128CbcEncrypt rk s n in_ out
    let plain := stage90Aes128CbcDecrypt rk { cipher with iv := s.iv } n out back
    (∀ b < n, bufferBlock plain.memory back b = bufferBlock s.memory in_ b) ∧
      cipher.iv = previous s.iv (bufferBlock cipher.memory out) n ∧
      plain.iv = previous s.iv (bufferBlock cipher.memory out) n := by
  intro cipher plain
  obtain ⟨encrypted, left⟩ := cbcEncrypt_leaves rk (s := s) (sparesLater_of_apart apart)
  obtain ⟨decrypted, left'⟩ :=
    cbcDecrypt_leaves_apart rk (s := { cipher with iv := s.iv }) apart'
  refine ⟨?_, left, left'⟩
  intro b inside
  calc bufferBlock plain.memory back b
      = xorBlock (stage90Aes128DecryptBlock rk (bufferBlock cipher.memory out b))
          (previous s.iv (bufferBlock cipher.memory out) b) := decrypted b inside
    _ = xorBlock (xorBlock (bufferBlock s.memory in_ b)
          (previous s.iv (bufferBlock cipher.memory out) b))
          (previous s.iv (bufferBlock cipher.memory out) b) := by
        rw [encrypted b inside, decrypt_encrypt]
    _ = bufferBlock s.memory in_ b := xorBlock_xorBlock _ _

end RoundTrip

theorem bytes_of_blocks {memory memory' : Nat → UInt8} {p q n : Nat}
    (blocks : ∀ b < n, bufferBlock memory p b = bufferBlock memory' q b) :
    ∀ k < 16 * n, memory (p + k) = memory' (q + k) := by
  intro k inside
  have cells := blockOf_eq_iff.mp (blocks (k / 16) (by omega)) (k % 16) (by omega)
  have position (r : Nat) : r + 16 * (k / 16) + k % 16 = r + k := by omega
  rwa [position, position] at cells

/-! ## The methods -/

section Methods
variable (memory : Nat → UInt8) (c : Stage90AesCbcCtx) (key : Nat)

def initialized : Stage90AesCbcCtx :=
  { rk := stage90Aes128ExpandKey (blockOf memory key) c.rk
    rounds := UInt32.ofNat stage90Aes128Rounds
    marker := stage90AesCtxMarker }

theorem init_eq :
    stage90CryptoAesCbcInit memory c stage90AesBlockBytes key = .ok (initialized memory c key) := by
  rw [stage90CryptoAesCbcInit, if_neg (not_not_intro rfl)]
  rfl

theorem not_uninitialized : ¬ (initialized memory c key).uninitialized = true := by
  simp [Stage90AesCbcCtx.uninitialized, initialized]

variable (s : CbcState) (n in_ out : Nat)

theorem encryptBlocks_eq :
    stage90CryptoAesCbcEncryptBlocks (initialized memory c key) s n in_ out =
      .ok (stage90Aes128CbcEncrypt (initialized memory c key).rk s n in_ out) :=
  if_neg (not_uninitialized memory c key)

theorem decryptBlocks_eq :
    stage90CryptoAesCbcDecryptBlocks (initialized memory c key) s n in_ out =
      .ok (stage90Aes128CbcDecrypt (initialized memory c key).rk s n in_ out) :=
  if_neg (not_uninitialized memory c key)

end Methods

/-- With a context that was initialized from any key of 16 bytes.  A stream without blocks leaves
`iv` as it is, any other leaves the last ciphertext block there. -/
theorem cbc_round_trip (keyMemory : Nat → UInt8) (c : Stage90AesCbcCtx) (key : Nat) (s : CbcState)
    {n in_ out back : Nat} (apart : Apart in_ out (16 * n)) (apart' : Apart out back (16 * n)) :
    ∃ ctx, stage90CryptoAesCbcInit keyMemory c 16 key = .ok ctx ∧
      (∃ cipher plain, stage90CryptoAesCbcEncryptBlocks ctx s n in_ out = .ok cipher ∧
        stage90CryptoAesCbcDecryptBlocks ctx { cipher with iv := s.iv } n out back = .ok plain ∧
        (∀ k < 16 * n, plain.memory (back + k) = s.memory (in_ + k)) ∧
        (n = 0 → cipher.iv = s.iv ∧ plain.iv = s.iv) ∧
        (∀ last, n = last + 1 →
          cipher.iv = blockOf cipher.memory (out + 16 * last) ∧
            plain.iv = blockOf cipher.memory (out + 16 * last))) ∧
      ∀ (s : CbcState) (n m in_ out : Nat),
        stage90CryptoAesCbcEncryptBlocks ctx s (n + m) in_ out =
            (do
              let s ← stage90CryptoAesCbcEncryptBlocks ctx s n in_ out
              stage90CryptoAesCbcEncryptBlocks ctx s m (in_ + 16 * n) (out + 16 * n)) ∧
          stage90CryptoAesCbcDecryptBlocks ctx s (n + m) in_ out =
            (do
              let s ← stage90CryptoAesCbcDecryptBlocks ctx s n in_ out
              stage90CryptoAesCbcDecryptBlocks ctx s m (in_ + 16 * n) (out + 16 * n)) := by
  refine ⟨initialized keyMemory c key, init_eq keyMemory c key, ?_, ?_⟩
  · obtain ⟨blocks, left, left'⟩ :=
      @cbcDecrypt_cbcEncrypt (initialized keyMemory c key).rk s n in_ out back apart apart'
    refine ⟨_, _, encryptBlocks_eq keyMemory c key s n in_ out,
      decryptBlocks_eq keyMemory c key _ n out back, bytes_of_blocks blocks, ?_, ?_⟩
    · intro none_
      rw [left, left', none_]
      exact ⟨rfl, rfl⟩
    · intro last length
      rw [left, left', length]
      exact ⟨rfl, rfl⟩
  · intro s n m in_ out
    simp only [encryptBlocks_eq, decryptBlocks_eq]
    constructor
    · exact congrArg Except.ok (cbcEncrypt_add _ s n m in_ out)
    · exact congrArg Except.ok (cbcDecrypt_add _ s n m in_ out)

/-- Two blocks at 0, their ciphertext at 32, and back at 64. -/
theorem cbc_round_trip_counting :
    let s : CbcState := { memory := fun a => UInt8.ofNat a, iv := Vector.replicate 16 7 }
    let c : Stage90AesCbcCtx := { rk := Vector.replicate 176 0, rounds := 0, marker := 0 }
    ∃ ctx cipher plain, stage90CryptoAesCbcInit s.memory c 16 5 = .ok ctx ∧
      stage90CryptoAesCbcEncryptBlocks ctx s 2 0 32 = .ok cipher ∧
      stage90CryptoAesCbcDecryptBlocks ctx { cipher with iv := s.iv } 2 32 64 = .ok plain ∧
      ∀ k < 32, plain.memory (64 + k) = UInt8.ofNat (0 + k) := by
  intro s c
  obtain ⟨ctx, init, ⟨cipher, plain, encrypted, decrypted, back, _⟩, _⟩ :=
    cbc_round_trip s.memory c 5 s (show Apart 0 32 (16 * 2) from Or.inl (by decide))
      (show Apart 32 64 (16 * 2) from Or.inl (by decide))
  exact ⟨ctx, cipher, plain, init, encrypted, decrypted, back⟩

end Stage90.Aes

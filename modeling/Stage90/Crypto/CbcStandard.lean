import Stage90.Crypto.CbcInPlace
import Stage90.Lib.Chaining

/-!
# The methods against the chaining mode

What the two descriptor methods leave in a buffer is the chaining mode over the standard's cipher.
Apart from its source, decryption loses one block and one difference to a changed block of
ciphertext.  In place it chains to what it has put out, and loses all blocks from there on.
-/

set_option autoImplicit false

namespace Stage90.Aes

open Stage90.Lib

def blocks (memory : Nat → UInt8) (p n : Nat) : List Block :=
  (List.range n).map (bufferBlock memory p)

theorem xorBlock_mixes : Chaining.Mixes xorBlock where
  assoc a b c := by
    apply Vector.ext
    intro i inside
    simp [xorBlock, block_get, UInt8.xor_assoc]
  comm := xorBlock_comm
  cancel := xorBlock_xorBlock

theorem aes128_standard (key block : Block) (rk : Schedule) :
    stage90Aes128EncryptBlock (stage90Aes128ExpandKey key rk) block = Fips197.aes128 key block := by
  rw [Fips197.aes128, ← load_encrypt key rk, store_load]

def cbcAes128 (key : Block) : Block → List Block → List Block :=
  Chaining.encrypt xorBlock (Fips197.aes128 key)

section Loops
variable (rk : Schedule) {s : CbcState} {in_ out n : Nat}

theorem blocks_encrypted (spares : SparesLater 16 in_ out n) :
    blocks (stage90Aes128CbcEncrypt rk s n in_ out).memory out n =
      Chaining.encrypt xorBlock (stage90Aes128EncryptBlock rk) s.iv (blocks s.memory in_ n) := by
  have encrypted := (cbcEncrypt_leaves rk (s := s) spares).1
  generalize stage90Aes128CbcEncrypt rk s n in_ out = t at encrypted
  exact @Chaining.stream_of_carried _ _ _ (previous s.iv (bufferBlock t.memory out))
    (bufferBlock s.memory in_) (bufferBlock t.memory out) n encrypted encrypted

theorem blocks_decrypted (apart : Apart in_ out (16 * n)) :
    blocks (stage90Aes128CbcDecrypt rk s n in_ out).memory out n =
      Chaining.decrypt xorBlock (stage90Aes128DecryptBlock rk) s.iv (blocks s.memory in_ n) := by
  have decrypted := (cbcDecrypt_leaves_apart rk (s := s) apart).1
  generalize stage90Aes128CbcDecrypt rk s n in_ out = t at decrypted
  exact @Chaining.stream_of_carried _ _ _ (previous s.iv (bufferBlock s.memory in_))
    (bufferBlock s.memory in_) (bufferBlock t.memory out) n (fun _ _ => rfl) decrypted

theorem blocks_in_place (p : Nat) :
    blocks (stage90Aes128CbcDecrypt rk s n p p).memory p n =
      Chaining.feedback xorBlock (stage90Aes128DecryptBlock rk) s.iv (blocks s.memory p n) := by
  have decrypted := (cbcDecrypt_leaves_in_place rk (s := s) (n := n) p).1
  generalize stage90Aes128CbcDecrypt rk s n p p = t at decrypted
  exact @Chaining.stream_of_carried _ _ _ (previous s.iv (bufferBlock t.memory p))
    (bufferBlock s.memory p) (bufferBlock t.memory p) n decrypted decrypted

theorem cbcEncrypt_frame (spares : SparesLater 16 in_ out n) {a : Nat}
    (outside : a < out ∨ out + 16 * n ≤ a) :
    (stage90Aes128CbcEncrypt rk s n in_ out).memory a = s.memory a :=
  (streamed_foldl _ _ (encryptTurn rk in_ out) n (fun s b _ => encryptTurn_eq rk in_ out s b)
    spares s).frame a outside

theorem previous_getLast (iv : Block) (memory : Nat → UInt8) (p n : Nat) :
    previous iv (bufferBlock memory p) n = (blocks memory p n).getLastD iv := by
  cases n with
  | zero => rfl
  | succ n => simp [blocks, List.range_succ, previous]

end Loops

/-- The two methods after `init`, for any key, over any buffers that the loops do not run into:
the mode of the standard's cipher and what it undoes, with `iv` left for the next call. -/
theorem methods_are_cbc (keyMemory : Nat → UInt8) (c : Stage90AesCbcCtx) (key : Nat) :
    ∃ ctx, stage90CryptoAesCbcInit keyMemory c 16 key = .ok ctx ∧
      (∀ (s : CbcState) (n in_ out : Nat), SparesLater 16 in_ out n →
        ∃ t, stage90CryptoAesCbcEncryptBlocks ctx s n in_ out = .ok t ∧
          blocks t.memory out n =
            cbcAes128 (blockOf keyMemory key) s.iv (blocks s.memory in_ n) ∧
          t.iv = (blocks t.memory out n).getLastD s.iv ∧
          ∀ a, a < out ∨ out + 16 * n ≤ a → t.memory a = s.memory a) ∧
      ∀ (s : CbcState) (n in_ out : Nat), Apart in_ out (16 * n) →
        ∃ t, stage90CryptoAesCbcDecryptBlocks ctx s n in_ out = .ok t ∧
          (∀ plain, cbcAes128 (blockOf keyMemory key) s.iv plain = blocks s.memory in_ n ↔
            plain = blocks t.memory out n) ∧
          t.iv = (blocks s.memory in_ n).getLastD s.iv ∧
          ∀ a, a < out ∨ out + 16 * n ≤ a → t.memory a = s.memory a := by
  have ciphers : stage90Aes128EncryptBlock (initialized keyMemory c key).rk =
      Fips197.aes128 (blockOf keyMemory key) := by
    funext block
    exact (aes128_standard (blockOf keyMemory key) block c.rk)
  refine ⟨initialized keyMemory c key, init_eq keyMemory c key, ?_, ?_⟩
  · intro s n in_ out spares
    refine ⟨_, encryptBlocks_eq keyMemory c key s n in_ out, ?_, ?_, ?_⟩
    · rw [blocks_encrypted _ spares, ciphers]
      rfl
    · rw [(cbcEncrypt_leaves _ spares).2, previous_getLast]
    · exact fun a outside => cbcEncrypt_frame _ spares outside
  · intro s n in_ out apart
    refine ⟨_, decryptBlocks_eq keyMemory c key s n in_ out, ?_, ?_, ?_⟩
    · intro plain
      rw [blocks_decrypted _ apart, cbcAes128, ← ciphers]
      exact Chaining.encrypt_eq_iff xorBlock_mixes (decrypt_encrypt _) (encrypt_decrypt _) s.iv
        plain (blocks s.memory in_ n)
    · rw [(cbcDecrypt_leaves_apart _ apart).2, previous_getLast]
    · exact fun a outside => cbcDecrypt_frame _ apart outside

/-! ## A changed block of ciphertext -/

theorem decrypt_injective (rk : Schedule) {c c' : Block}
    (same : stage90Aes128DecryptBlock rk c = stage90Aes128DecryptBlock rk c') : c = c' := by
  rw [← encrypt_decrypt rk c, same, encrypt_decrypt]

/-- Two runs over buffers that differ in one block of ciphertext.  Out of place the plaintexts
differ in that block, and in the next by the change itself; in place they differ in all blocks
from there on. -/
theorem changed_block_spreads (rk : Schedule) {s s' : CbcState} (iv : s'.iv = s.iv) {n in_ : Nat}
    {xs ys : List Block} {c c' y : Block} (changed : c ≠ c')
    (was : blocks s.memory in_ n = xs ++ c :: y :: ys)
    (is_ : blocks s'.memory in_ n = xs ++ c' :: y :: ys) :
    (∀ out, Apart in_ out (16 * n) → ∃ before after p p' q, before.length = xs.length ∧ p ≠ p' ∧
      blocks (stage90Aes128CbcDecrypt rk s n in_ out).memory out n = before ++ p :: q :: after ∧
      blocks (stage90Aes128CbcDecrypt rk s' n in_ out).memory out n =
        before ++ p' :: xorBlock (xorBlock c c') q :: after) ∧
      ∃ before after difference, before.length = xs.length ∧ (∀ p, xorBlock difference p ≠ p) ∧
        blocks (stage90Aes128CbcDecrypt rk s n in_ in_).memory in_ n = before ++ after ∧
        blocks (stage90Aes128CbcDecrypt rk s' n in_ in_).memory in_ n =
          before ++ after.map (xorBlock difference) := by
  constructor
  · intro out apart
    obtain ⟨before, after, last, length, first, second⟩ := @Chaining.decrypt_changed _ xorBlock
      (stage90Aes128DecryptBlock rk) s.iv xs ys c c' y
    refine ⟨before, after, xorBlock (stage90Aes128DecryptBlock rk c) last,
      xorBlock (stage90Aes128DecryptBlock rk c') last, xorBlock (stage90Aes128DecryptBlock rk y) c,
      length, ?_, ?_, ?_⟩
    · intro same
      rw [xorBlock_comm _ last, xorBlock_comm _ last] at same
      exact changed (decrypt_injective rk (xorBlock_left_cancel same))
    · rw [blocks_decrypted rk apart, was, first]
    · rw [blocks_decrypted rk apart, iv, is_, second, xorBlock_mixes.add_difference]
  · obtain ⟨before, after, length, first, second⟩ := @Chaining.feedback_changed _ xorBlock
      (stage90Aes128DecryptBlock rk) xorBlock_mixes s.iv xs (y :: ys) c c'
    refine ⟨before, after,
      xorBlock (stage90Aes128DecryptBlock rk c) (stage90Aes128DecryptBlock rk c'), length,
      fun p fixed => ?_, ?_, ?_⟩
    · exact changed (decrypt_injective rk (xorBlock_mixes.eq_of_fixed fixed))
    · rw [blocks_in_place, was, first]
    · rw [blocks_in_place, iv, is_, second]

/-- Three blocks of zeros, and the same with the first one changed. -/
theorem changed_first_block :
    let rk : Schedule := Vector.replicate 176 0
    let s : CbcState := { memory := fun _ => 0, iv := Vector.replicate 16 7 }
    let s' : CbcState := { memory := fun a => if a < 16 then 1 else 0, iv := Vector.replicate 16 7 }
    (∃ before after p p' q, before.length = 0 ∧ p ≠ p' ∧
      blocks (stage90Aes128CbcDecrypt rk s 3 0 48).memory 48 3 = before ++ p :: q :: after ∧
      blocks (stage90Aes128CbcDecrypt rk s' 3 0 48).memory 48 3 =
        before ++ p' :: xorBlock (xorBlock (Vector.replicate 16 0) (Vector.replicate 16 1)) q ::
          after) ∧
      ∃ before after difference, before.length = 0 ∧ (∀ p, xorBlock difference p ≠ p) ∧
        blocks (stage90Aes128CbcDecrypt rk s 3 0 0).memory 0 3 = before ++ after ∧
        blocks (stage90Aes128CbcDecrypt rk s' 3 0 0).memory 0 3 =
          before ++ after.map (xorBlock difference) := by
  intro rk s s'
  have changed : (Vector.replicate 16 0 : Block) ≠ Vector.replicate 16 1 := by decide
  have was : blocks s.memory 0 3 = [] ++ Vector.replicate 16 0 :: Vector.replicate 16 0 ::
      [Vector.replicate 16 0] := by decide
  have is_ : blocks s'.memory 0 3 = [] ++ Vector.replicate 16 1 :: Vector.replicate 16 0 ::
      [Vector.replicate 16 0] := by decide
  have same : s'.iv = s.iv := rfl
  obtain ⟨outOfPlace, inPlace⟩ := changed_block_spreads rk same changed was is_
  exact ⟨outOfPlace 48 (by unfold Apart; decide), inPlace⟩

end Stage90.Aes

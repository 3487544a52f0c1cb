import Stage90.Lib.BlockStream
import Stage90.Crypto.Aes

/-!
# CBC

The two loops of `stage90_aes.c` over a flat memory, and the descriptor methods of
`stage90_crypto_functions.c` that call them.  `iv` and the schedule are the caller's own objects,
apart from the buffers.
-/

set_option autoImplicit false

namespace Stage90.Aes

open Stage90.Lib

abbrev CbcState := Chain UInt8 Block

def blockOf (memory : Nat → UInt8) (p : Nat) : Block := Vector.ofFn (blockAt 16 memory p)

def xorBlock (s t : Block) : Block := Vector.ofFn fun i => s.get i ^^^ t.get i

/-- Turn `b` of the loop of `stage90_aes128_cbc_encrypt`. -/
def encryptTurn (rk : Schedule) (in_ out : Nat) (s : CbcState) (b : Nat) : CbcState :=
  let blk := xorBlock (blockOf s.memory (in_ + 16 * b)) s.iv
  let memory := copyBlock s.memory (out + 16 * b) (stage90Aes128EncryptBlock rk blk).get
  { memory, iv := blockOf memory (out + 16 * b) }

def stage90Aes128CbcEncrypt (rk : Schedule) (s : CbcState) (nblocks in_ out : Nat) : CbcState :=
  (List.range nblocks).foldl (encryptTurn rk in_ out) s

/-- Byte `i` of a block: `out` is written before `in` is read for `iv`. -/
def decryptByte (blk : Block) (in_ out : Nat) (s : CbcState) (i : Fin 16) : CbcState :=
  let memory := Function.update s.memory (out + i) (blk.get i ^^^ s.iv.get i)
  { memory, iv := s.iv.set i (memory (in_ + i)) }

def decryptTurn (rk : Schedule) (in_ out : Nat) (s : CbcState) (b : Nat) : CbcState :=
  let blk := stage90Aes128DecryptBlock rk (blockOf s.memory (in_ + 16 * b))
  (List.finRange 16).foldl (decryptByte blk (in_ + 16 * b) (out + 16 * b)) s

def stage90Aes128CbcDecrypt (rk : Schedule) (s : CbcState) (nblocks in_ out : Nat) : CbcState :=
  (List.range nblocks).foldl (decryptTurn rk in_ out) s

/-! ## The descriptor methods -/

def stage90AesBlockBytes : Nat := 16

def stage90AesCtxMarker : UInt32 := 0x41455331

/-- `struct stage90_aes_cbc_ctx`. -/
structure Stage90AesCbcCtx where
  rk : Schedule
  rounds : UInt32
  marker : UInt32

/-- The error is the name that `entry_stub_hit`, which ends the run, is called with. -/
def stage90CryptoAesCbcInit (memory : Nat → UInt8) (c : Stage90AesCbcCtx) (keyLen key : Nat) :
    Except String Stage90AesCbcCtx :=
  if keyLen ≠ stage90AesBlockBytes then .error "g_crypto_funcs.ccaes_cbc.key_len"
  else .ok
    { rk := stage90Aes128ExpandKey (blockOf memory key) c.rk
      rounds := UInt32.ofNat stage90Aes128Rounds
      marker := stage90AesCtxMarker }

def Stage90AesCbcCtx.uninitialized (c : Stage90AesCbcCtx) : Bool :=
  c.marker != stage90AesCtxMarker || c.rounds != UInt32.ofNat stage90Aes128Rounds

def stage90CryptoAesCbcEncryptBlocks (c : Stage90AesCbcCtx) (s : CbcState)
    (nblocks in_ out : Nat) : Except String CbcState :=
  if c.uninitialized then .error "g_crypto_funcs.ccaes_cbc_encrypt.uninitialized"
  else .ok (stage90Aes128CbcEncrypt c.rk s nblocks in_ out)

def stage90CryptoAesCbcDecryptBlocks (c : Stage90AesCbcCtx) (s : CbcState)
    (nblocks in_ out : Nat) : Except String CbcState :=
  if c.uninitialized then .error "g_crypto_funcs.ccaes_cbc_decrypt.uninitialized"
  else .ok (stage90Aes128CbcDecrypt c.rk s nblocks in_ out)

/-! ## Blocks -/

theorem block_get (s : Block) (i : Fin 16) : s.get i = s[i.val] := rfl

theorem get_ofFn_get (s : Block) : Vector.ofFn s.get = s := by
  apply Vector.ext
  intro i inside
  simp [Vector.get]

@[simp] theorem blockOf_copyBlock (memory : Nat → UInt8) (p : Nat) (s : Block) :
    blockOf (copyBlock memory p s.get) p = s := by
  rw [blockOf, blockAt_copyBlock_same, get_ofFn_get]

theorem blockOf_eq_iff {memory memory' : Nat → UInt8} {p q : Nat} :
    blockOf memory p = blockOf memory' q ↔ ∀ i < 16, memory (p + i) = memory' (q + i) := by
  constructor
  · intro same i inside
    have cells := congrArg (fun s : Block => s[i]) same
    simpa [blockOf, blockAt] using cells
  · intro same
    apply Vector.ext
    intro i inside
    simpa [blockOf, blockAt] using same i inside

theorem xorBlock_xorBlock (s t : Block) : xorBlock (xorBlock s t) t = s := by
  apply Vector.ext
  intro i inside
  simp only [xorBlock, block_get, Vector.getElem_ofFn]
  rw [UInt8.xor_assoc, UInt8.xor_self, UInt8.xor_zero]

theorem xorBlock_eq_iff {s t u : Block} : xorBlock s t = u ↔ s = xorBlock u t := by
  constructor
  · intro same
    rw [← same, xorBlock_xorBlock]
  · intro same
    rw [same, xorBlock_xorBlock]

theorem xorBlock_comm (s t : Block) : xorBlock s t = xorBlock t s := by
  apply Vector.ext
  intro i inside
  simp [xorBlock, UInt8.xor_comm]

def previous (iv : Block) (blocks : Nat → Block) : Nat → Block
  | 0 => iv
  | b + 1 => blocks b

/-! ## The loops as streams -/

section Loops
variable (rk : Schedule)

def encryptNext (iv : Block) (block : Fin 16 → UInt8) : Block :=
  stage90Aes128EncryptBlock rk (xorBlock (Vector.ofFn block) iv)

def decryptNext (iv : Block) (block : Fin 16 → UInt8) : Block :=
  xorBlock (stage90Aes128DecryptBlock rk (Vector.ofFn block)) iv

theorem encryptTurn_eq (in_ out : Nat) (s : CbcState) (b : Nat) :
    encryptTurn rk in_ out s b =
      streamTurn (fun iv block => (encryptNext rk iv block).get) (encryptNext rk) in_ out s b := by
  simp only [encryptTurn, blockOf_copyBlock]
  rfl

structure DecryptedBytes (blk : Block) (in_ out : Nat) (l : List (Fin 16)) (s s' : CbcState) :
    Prop where
  written : ∀ i ∈ l, s'.memory (out + i) = blk.get i ^^^ s.iv.get i
  frame : ∀ a, (∀ i ∈ l, a ≠ out + i) → s'.memory a = s.memory a
  kept : ∀ i, i ∉ l → s'.iv.get i = s.iv.get i
  in_place : in_ = out → ∀ i ∈ l, s'.iv.get i = blk.get i ^^^ s.iv.get i
  apart : Apart in_ out 16 → ∀ i ∈ l, s'.iv.get i = s.memory (in_ + i)

theorem get_set (s : Block) (i j : Fin 16) (x : UInt8) :
    (s.set i x).get j = if i = j then x else s.get j := by
  simp only [block_get, Vector.getElem_set, Fin.ext_iff]

theorem decryptedBytes (blk : Block) (in_ out : Nat) (l : List (Fin 16)) (once : l.Nodup)
    (s : CbcState) :
    DecryptedBytes blk in_ out l s (l.foldl (decryptByte blk in_ out) s) := by
  induction l generalizing s with
  | nil =>
      constructor
      · intro i there
        exact absurd there List.not_mem_nil
      · intro a _
        rfl
      · intro i _
        rfl
      · intro _ i there
        exact absurd there List.not_mem_nil
      · intro _ i there
        exact absurd there List.not_mem_nil
  | cons i l ih =>
      obtain ⟨fresh, once⟩ := List.nodup_cons.mp once
      have rest := ih once (decryptByte blk in_ out s i)
      have other {j : Fin 16} (there : j ∈ l) : i ≠ j := fun same => fresh (same ▸ there)
      have iv_other {j : Fin 16} (different : i ≠ j) :
          (decryptByte blk in_ out s i).iv.get j = s.iv.get j := by
        rw [decryptByte, get_set, if_neg different]
      have memory_other {a : Nat} (different : a ≠ out + i) :
          (decryptByte blk in_ out s i).memory a = s.memory a :=
        Function.update_of_ne different _ _
      have memory_same : (decryptByte blk in_ out s i).memory (out + i) =
          blk.get i ^^^ s.iv.get i :=
        Function.update_self _ _ _
      have iv_same : (decryptByte blk in_ out s i).iv.get i =
          (decryptByte blk in_ out s i).memory (in_ + i) := by
        rw [decryptByte, get_set, if_pos rfl]
      rw [List.foldl_cons]
      constructor
      · intro j there
        rcases List.mem_cons.mp there with same | later
        · rw [same, rest.frame, memory_same]
          intro k later
          have different := other later
          omega
        · rw [rest.written j later, iv_other (other later)]
      · intro a outside
        rw [rest.frame a fun k later => outside k (List.mem_cons_of_mem i later),
          memory_other (outside i List.mem_cons_self)]
      · intro j missing
        rw [List.mem_cons, not_or] at missing
        rw [rest.kept j missing.2, iv_other (Ne.symm missing.1)]
      · intro same j there
        rcases List.mem_cons.mp there with first | later
        · subst same
          rw [first, rest.kept i fresh, iv_same, memory_same]
        · rw [rest.in_place same j later, iv_other (other later)]
      · intro apart j there
        have outside : in_ + (j : Nat) ≠ out + (i : Nat) := by
          rw [Apart] at apart
          omega
        rcases List.mem_cons.mp there with first | later
        · rw [first] at outside ⊢
          rw [rest.kept i fresh, iv_same, memory_other outside]
        · rw [rest.apart apart j later, memory_other outside]

section Turn
variable (in_ out : Nat) (s : CbcState) (b : Nat)

theorem decryptTurn_bytes :
    DecryptedBytes (stage90Aes128DecryptBlock rk (blockOf s.memory (in_ + 16 * b)))
      (in_ + 16 * b) (out + 16 * b) (List.finRange 16) s (decryptTurn rk in_ out s b) :=
  decryptedBytes _ _ _ _ (List.nodup_finRange 16) s

theorem decryptTurn_memory :
    (decryptTurn rk in_ out s b).memory = copyBlock s.memory (out + 16 * b)
      (decryptNext rk s.iv (blocksAt 16 s.memory in_ b)).get := by
  have bytes := decryptTurn_bytes rk in_ out s b
  funext a
  by_cases inside : out + 16 * b ≤ a ∧ a < out + 16 * b + 16
  · have position : a = out + 16 * b + (⟨a - (out + 16 * b), by omega⟩ : Fin 16).val := by
      simp only
      omega
    rw [copyBlock, dif_pos inside]
    conv_lhs => rw [position]
    rw [bytes.written _ (List.mem_finRange _)]
    simp [decryptNext, xorBlock, block_get, blockOf, blocksAt]
  · rw [copyBlock, dif_neg inside, bytes.frame]
    intro i _
    omega

theorem decryptTurn_iv_in_place :
    (decryptTurn rk in_ in_ s b).iv = decryptNext rk s.iv (blocksAt 16 s.memory in_ b) := by
  have bytes := decryptTurn_bytes rk in_ in_ s b
  apply Vector.ext
  intro i inside
  have cell := bytes.in_place rfl ⟨i, inside⟩ (List.mem_finRange _)
  rw [block_get] at cell
  rw [cell]
  simp [decryptNext, xorBlock, blockOf, blocksAt, block_get]

theorem decryptTurn_iv_apart (apart : Apart (in_ + 16 * b) (out + 16 * b) 16) :
    (decryptTurn rk in_ out s b).iv = Vector.ofFn (blocksAt 16 s.memory in_ b) := by
  have bytes := decryptTurn_bytes rk in_ out s b
  apply Vector.ext
  intro i inside
  have cell := bytes.apart apart ⟨i, inside⟩ (List.mem_finRange _)
  rw [block_get] at cell
  rw [cell]
  simp [blocksAt, blockAt]

end Turn

theorem decryptTurn_eq_in_place (p : Nat) (s : CbcState) (b : Nat) :
    decryptTurn rk p p s b =
      streamTurn (fun iv block => (decryptNext rk iv block).get) (decryptNext rk) p p s b := by
  rw [streamTurn, ← decryptTurn_memory rk p p s b, ← decryptTurn_iv_in_place rk p s b]

theorem decryptTurn_eq_apart {in_ out count : Nat} (apart : Apart in_ out (16 * count))
    (s : CbcState) {b : Nat} (inside : b < count) :
    decryptTurn rk in_ out s b =
      streamTurn (fun iv block => (decryptNext rk iv block).get)
        (fun _ block => Vector.ofFn block) in_ out s b := by
  have blocks : Apart (in_ + 16 * b) (out + 16 * b) 16 := by
    rw [Apart] at apart ⊢
    omega
  rw [streamTurn, ← decryptTurn_memory rk in_ out s b, ← decryptTurn_iv_apart rk in_ out s b blocks]

end Loops

/-! ## What the loops leave -/

def bufferBlock (memory : Nat → UInt8) (p b : Nat) : Block := blockOf memory (p + 16 * b)

section Runs
variable (rk : Schedule) {s : CbcState} {in_ out n : Nat}

theorem leaves_of_feedback {next : Block → (Fin 16 → UInt8) → Block} {s' : CbcState}
    (run : Streamed (fun iv block => (next iv block).get) next in_ out n s s') :
    (∀ b < n, bufferBlock s'.memory out b =
      next (previous s.iv (bufferBlock s'.memory out) b) (blocksAt 16 s.memory in_ b)) ∧
      s'.iv = previous s.iv (bufferBlock s'.memory out) n := by
  have put {b : Nat} (inside : b < n) : bufferBlock s'.memory out b =
      carried next (blocksAt 16 s.memory in_) s.iv (b + 1) := by
    have block := run.block b inside
    rw [bufferBlock, blockOf]
    exact (congrArg Vector.ofFn block).trans (get_ofFn_get _)
  have carries : ∀ b ≤ n, carried next (blocksAt 16 s.memory in_) s.iv b =
      previous s.iv (bufferBlock s'.memory out) b := by
    intro b inside
    cases b with
    | zero => rfl
    | succ b => exact (put (by omega)).symm
  constructor
  · intro b inside
    rw [put inside, ← carries b (by omega)]
    rfl
  · rw [← carries n (Nat.le_refl n)]
    exact run.iv_eq

theorem cbcEncrypt_leaves (spares : SparesLater 16 in_ out n) :
    let s' := stage90Aes128CbcEncrypt rk s n in_ out
    (∀ b < n, bufferBlock s'.memory out b = stage90Aes128EncryptBlock rk
      (xorBlock (bufferBlock s.memory in_ b) (previous s.iv (bufferBlock s'.memory out) b))) ∧
      s'.iv = previous s.iv (bufferBlock s'.memory out) n := by
  have run : Streamed _ (encryptNext rk) in_ out n s (stage90Aes128CbcEncrypt rk s n in_ out) :=
    streamed_foldl _ _ (encryptTurn rk in_ out) n (fun s b _ => encryptTurn_eq rk in_ out s b)
      spares s
  exact leaves_of_feedback run

theorem cbcDecrypt_leaves_apart (apart : Apart in_ out (16 * n)) :
    let s' := stage90Aes128CbcDecrypt rk s n in_ out
    (∀ b < n, bufferBlock s'.memory out b =
      xorBlock (stage90Aes128DecryptBlock rk (bufferBlock s.memory in_ b))
        (previous s.iv (bufferBlock s.memory in_) b)) ∧
      s'.iv = previous s.iv (bufferBlock s.memory in_) n := by
  intro s'
  have run : Streamed _ _ in_ out n s s' :=
    streamed_foldl _ _ (decryptTurn rk in_ out) n
      (fun s b inside => decryptTurn_eq_apart rk apart s inside) (sparesLater_of_apart apart) s
  have carries : ∀ b, carried (fun _ block => Vector.ofFn block) (blocksAt 16 s.memory in_) s.iv b =
      previous s.iv (bufferBlock s.memory in_) b := by
    intro b
    cases b with
    | zero => rfl
    | succ b => rfl
  constructor
  · intro b inside
    have block := run.block b inside
    rw [carries b] at block
    rw [bufferBlock, blockOf]
    exact (congrArg Vector.ofFn block).trans (get_ofFn_get _)
  · rw [← carries n]
    exact run.iv_eq

/-- In place, every block after the first is chained to the plaintext before it. -/
theorem cbcDecrypt_leaves_in_place (p : Nat) :
    let s' := stage90Aes128CbcDecrypt rk s n p p
    (∀ b < n, bufferBlock s'.memory p b =
      xorBlock (stage90Aes128DecryptBlock rk (bufferBlock s.memory p b))
        (previous s.iv (bufferBlock s'.memory p) b)) ∧
      s'.iv = previous s.iv (bufferBlock s'.memory p) n := by
  have run : Streamed _ (decryptNext rk) p p n s (stage90Aes128CbcDecrypt rk s n p p) :=
    streamed_foldl _ _ (decryptTurn rk p p) n (fun s b _ => decryptTurn_eq_in_place rk p s b)
      (sparesLater_self p n) s
  exact leaves_of_feedback run

theorem cbcDecrypt_frame (apart : Apart in_ out (16 * n)) {a : Nat}
    (outside : a < out ∨ out + 16 * n ≤ a) :
    (stage90Aes128CbcDecrypt rk s n in_ out).memory a = s.memory a :=
  (streamed_foldl _ _ (decryptTurn rk in_ out) n
    (fun s _ inside => decryptTurn_eq_apart rk apart s inside) (sparesLater_of_apart apart)
    s).frame a outside

end Runs

end Stage90.Aes

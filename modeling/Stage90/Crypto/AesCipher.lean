import Stage90.Crypto.Aes
import Stage90.Crypto.Fips197

/-!
# The block cipher

The tables and the field, the linear column maps, the layers that undo each other, the
rounds, and the refinement of the standard's cipher by the code.
-/

set_option autoImplicit false

namespace Stage90.Aes

open Stage90.Lib

/-! ## Bytes -/

attribute [local simp] gmulLoop mixColumn invMixColumn encryptRounds decryptRounds

/-- What the tables and the products that the column maps use are, byte by byte. -/
theorem byte_tables : ∀ a : UInt8,
    (sbox a = Fips197.sBox a ∧ rsbox (sbox a) = a ∧ sbox (rsbox a) = a) ∧
      gfMul 0x01 a = a ∧ gfMul 0x02 a = xtime a ∧ gfMul 0x03 a = xtime a ^^^ a := by
  apply forall_byte
  simp only [Fips197.sBox, gfInv, squaresProduct_eval, gfMul, mulMod_eval]
  decide +kernel

theorem sbox_eq (a : UInt8) : sbox a = Fips197.sBox a := (byte_tables a).1.1

theorem rsbox_sbox (a : UInt8) : rsbox (sbox a) = a := (byte_tables a).1.2.1

theorem sbox_rsbox (a : UInt8) : sbox (rsbox a) = a := (byte_tables a).1.2.2

theorem gfMul_one (a : UInt8) : gfMul 0x01 a = a := (byte_tables a).2.1

theorem gfMul_two (a : UInt8) : gfMul 0x02 a = xtime a := (byte_tables a).2.2.1

theorem gfMul_three (a : UInt8) : gfMul 0x03 a = xtime a ^^^ a := (byte_tables a).2.2.2

theorem rcon_eq : ∀ i < 11, 0 < i → rcon i = (gfMul 2)^[i - 1] 1 := by
  have table : ∀ i < 11, 0 < i → rcon i = xtime^[i - 1] 1 := by decide
  rw [show gfMul 2 = xtime from funext gfMul_two]
  exact table

theorem and_xor_byte (a b c : UInt8) : (a ^^^ b) &&& c = (a &&& c) ^^^ (b &&& c) := by
  apply UInt8.toBitVec_inj.mp
  simp only [UInt8.toBitVec_and, UInt8.toBitVec_xor]
  ext i
  simp [Bool.and_xor_distrib_right]

theorem xtime_xor (a b : UInt8) : xtime (a ^^^ b) = xtime a ^^^ xtime b := by
  have cancel (c d : UInt8) : (c ^^^ 0x1b) ^^^ (d ^^^ 0x1b) = c ^^^ d := by
    calc (c ^^^ 0x1b) ^^^ (d ^^^ 0x1b) = (c ^^^ d) ^^^ (0x1b ^^^ 0x1b) := by ac_rfl
      _ = c ^^^ d := by rw [UInt8.xor_self, UInt8.xor_zero]
  simp only [xtime, UInt8.shiftLeft_xor, and_xor_byte]
  rcases and_bit a 0x80 (by decide) with ha | ha <;>
    rcases and_bit b 0x80 (by decide) with hb | hb <;> simp [ha, hb, cancel] <;> ac_rfl

theorem gmulLoop_xor (turns : Nat) (a a' b r r' : UInt8) :
    gmulLoop turns (a ^^^ a') b (r ^^^ r') = gmulLoop turns a b r ^^^ gmulLoop turns a' b r' := by
  induction turns generalizing a a' b r r' with
  | zero => rfl
  | succ turns ih =>
      simp only [gmulLoop]
      split
      · rfl
      · rw [xtime_xor, ← ih]
        congr 1
        split
        · ac_rfl
        · rfl

theorem gmul_xor (a a' b : UInt8) : gmul (a ^^^ a') b = gmul a b ^^^ gmul a' b := by
  rw [gmul, gmul, gmul, ← gmulLoop_xor, UInt8.xor_self]

/-! ## Columns -/

theorem mixColumn_linear : XorLinear mixColumn := by
  intro u v
  funext j
  match j with
  | 0 => simp only [mixColumn, xtime_xor]; ac_rfl
  | 1 => simp only [mixColumn, xtime_xor]; ac_rfl
  | 2 => simp only [mixColumn, xtime_xor]; ac_rfl
  | 3 => simp only [mixColumn, xtime_xor]; ac_rfl

theorem invMixColumn_linear : XorLinear invMixColumn := by
  intro u v
  funext j
  match j with
  | 0 => simp only [invMixColumn, gmul_xor]; ac_rfl
  | 1 => simp only [invMixColumn, gmul_xor]; ac_rfl
  | 2 => simp only [invMixColumn, gmul_xor]; ac_rfl
  | 3 => simp only [invMixColumn, gmul_xor]; ac_rfl

theorem unmix_bit : ∀ b ∈ bits, ∀ i j : Fin 4,
    invMixColumn (mixColumn (single i b)) j = single i b j ∧
      mixColumn (invMixColumn (single i b)) j = single i b j := by
  decide +kernel

theorem invMixColumn_mixColumn (a : Column) : invMixColumn (mixColumn a) = a :=
  XorLinear.ext (invMixColumn_linear.comp mixColumn_linear) xorLinear_id
    (fun i b member => funext fun j => (unmix_bit b member i j).1) a

theorem mixColumn_invMixColumn (a : Column) : mixColumn (invMixColumn a) = a :=
  XorLinear.ext (mixColumn_linear.comp invMixColumn_linear) xorLinear_id
    (fun i b member => funext fun j => (unmix_bit b member i j).2) a

/-! ## Layers -/

@[simp] theorem rowOf_cell (r c : Fin 4) : rowOf (cell r c) = r := by
  apply Fin.ext
  simp only [rowOf, cell]
  omega

@[simp] theorem columnOf_cell (r c : Fin 4) : columnOf (cell r c) = c := by
  apply Fin.ext
  simp only [columnOf, cell]
  omega

theorem cell_of (i : Fin 16) : cell (rowOf i) (columnOf i) = i := by
  apply Fin.ext
  simp only [rowOf, columnOf, cell]
  omega

theorem get_ofFn {n : Nat} (f : Fin n → UInt8) (i : Fin n) : (Vector.ofFn f).get i = f i := by
  simp only [Vector.get, Vector.toArray_ofFn, Array.getElem_ofFn]
  rfl

theorem block_ext {s s' : Block} (cells : ∀ r c, s.get (cell r c) = s'.get (cell r c)) :
    s = s' := by
  apply Vector.ext
  intro i inside
  have here := cells (rowOf ⟨i, inside⟩) (columnOf ⟨i, inside⟩)
  rw [cell_of] at here
  exact here

section Cells
variable (s : Block) (r c : Fin 4)

theorem addRoundKey_cell (rk : Schedule) (offset : Nat) :
    (addRoundKey rk offset s).get (cell r c) =
      s.get (cell r c) ^^^ rk[offset + cell r c]?.getD 0 := by
  rw [addRoundKey, get_ofFn]

theorem subBytes_cell : (subBytes s).get (cell r c) = sbox (s.get (cell r c)) := by
  rw [subBytes, get_ofFn]

theorem invSubBytes_cell : (invSubBytes s).get (cell r c) = rsbox (s.get (cell r c)) := by
  rw [invSubBytes, get_ofFn]

theorem shiftRows_cell : (shiftRows s).get (cell r c) = s.get (cell r (c + r)) := by
  simp only [shiftRows, get_ofFn, rowOf_cell, columnOf_cell]
  rfl

theorem invShiftRows_cell : (invShiftRows s).get (cell r c) = s.get (cell r (c - r)) := by
  have back : (⟨(c + 4 - r) % 4, Nat.mod_lt _ (by decide)⟩ : Fin 4) = c - r := by
    revert r c
    decide
  simp only [invShiftRows, get_ofFn, rowOf_cell, columnOf_cell, back]

theorem column_eachColumn (body : Column → Column) :
    column (eachColumn body s) c = body (column s c) := by
  funext r
  simp only [column, eachColumn, get_ofFn, rowOf_cell, columnOf_cell]

end Cells

theorem block_ext_columns {s s' : Block} (columns : ∀ c, column s c = column s' c) : s = s' :=
  block_ext fun r c => congrFun (columns c) r

theorem addRoundKey_addRoundKey (rk : Schedule) (offset : Nat) (s : Block) :
    addRoundKey rk offset (addRoundKey rk offset s) = s := by
  apply block_ext
  intro r c
  rw [addRoundKey_cell, addRoundKey_cell, UInt8.xor_assoc, UInt8.xor_self, UInt8.xor_zero]

theorem invSubBytes_subBytes (s : Block) : invSubBytes (subBytes s) = s := by
  apply block_ext
  intro r c
  rw [invSubBytes_cell, subBytes_cell, rsbox_sbox]

theorem subBytes_invSubBytes (s : Block) : subBytes (invSubBytes s) = s := by
  apply block_ext
  intro r c
  rw [subBytes_cell, invSubBytes_cell, sbox_rsbox]

theorem invShiftRows_shiftRows (s : Block) : invShiftRows (shiftRows s) = s := by
  apply block_ext
  intro r c
  rw [invShiftRows_cell, shiftRows_cell, sub_add_cancel]

theorem shiftRows_invShiftRows (s : Block) : shiftRows (invShiftRows s) = s := by
  apply block_ext
  intro r c
  rw [shiftRows_cell, invShiftRows_cell, add_sub_cancel_right]

theorem invMixColumns_mixColumns (s : Block) : invMixColumns (mixColumns s) = s := by
  apply block_ext_columns
  intro c
  rw [invMixColumns, column_eachColumn, mixColumns, column_eachColumn, invMixColumn_mixColumn]

theorem mixColumns_invMixColumns (s : Block) : mixColumns (invMixColumns s) = s := by
  apply block_ext_columns
  intro c
  rw [mixColumns, column_eachColumn, invMixColumns, column_eachColumn, mixColumn_invMixColumn]

/-! ## Rounds -/

section Rounds
variable (rk : Schedule)

/-- What the rounds of decryption start from, when those of encryption have run. -/
theorem decryptRounds_encryptRounds (n : Nat) (s : Block) :
    decryptRounds rk n (shiftRows (subBytes (encryptRounds rk n s))) = shiftRows (subBytes s) := by
  induction n with
  | zero => rfl
  | succ n ih =>
      rw [decryptRounds, encryptRounds, invShiftRows_shiftRows, invSubBytes_subBytes,
        addRoundKey_addRoundKey, invMixColumns_mixColumns, ih]

theorem encryptRounds_decryptRounds (n : Nat) (s : Block) :
    encryptRounds rk n (invSubBytes (invShiftRows (decryptRounds rk n s))) =
      invSubBytes (invShiftRows s) := by
  induction n generalizing s with
  | zero => rfl
  | succ n ih =>
      rw [encryptRounds, decryptRounds, ih, subBytes_invSubBytes, shiftRows_invShiftRows,
        mixColumns_invMixColumns, addRoundKey_addRoundKey]

theorem decrypt_encrypt (s : Block) :
    stage90Aes128DecryptBlock rk (stage90Aes128EncryptBlock rk s) = s := by
  simp only [stage90Aes128DecryptBlock, stage90Aes128EncryptBlock]
  rw [addRoundKey_addRoundKey, decryptRounds_encryptRounds, invShiftRows_shiftRows,
    invSubBytes_subBytes, addRoundKey_addRoundKey]

theorem encrypt_decrypt (s : Block) :
    stage90Aes128EncryptBlock rk (stage90Aes128DecryptBlock rk s) = s := by
  simp only [stage90Aes128DecryptBlock, stage90Aes128EncryptBlock]
  rw [addRoundKey_addRoundKey, encryptRounds_decryptRounds, subBytes_invSubBytes,
    shiftRows_invShiftRows, addRoundKey_addRoundKey]

end Rounds

/-! ## The key schedule -/

theorem getD_ofFn {n : Nat} (f : Fin n → UInt8) {k : Nat} (inside : k < n) :
    (Vector.ofFn f)[k]?.getD 0 = f ⟨k, inside⟩ := by
  simp [inside]

theorem word_putWord (rk : Schedule) (w : Column) {i : Nat} (inside : i < 44) :
    word (putWord rk i w) i = w := by
  funext j
  rw [word, putWord, getD_ofFn _ (by omega), dif_pos (by constructor <;> simp)]
  congr 1
  apply Fin.ext
  simp

theorem word_putWord_ne (rk : Schedule) (w : Column) {i k : Nat} (inside : k < 44)
    (other : k ≠ i) : word (putWord rk i w) k = word rk k := by
  funext j
  have within : 4 * k + (j : Nat) < 176 := by omega
  rw [word, putWord, getD_ofFn _ within, dif_neg (by simp only; omega), word]
  simp [within, Vector.get]

theorem keyWord_next (key : Block) {i : Nat} (after : 4 ≤ i) :
    Fips197.keyWord key i =
      let temp := Fips197.keyWord key (i - 1)
      let temp := if i % 4 = 0 then
          fun j => Fips197.subWord (Fips197.rotWord temp) j ^^^ Fips197.rcon (i / 4) j
        else temp
      fun j => Fips197.keyWord key (i - 4) j ^^^ temp j := by
  rw [Fips197.keyWord, if_neg (by omega)]

theorem nextWord_eq (rk : Schedule) (i : Nat) (positive : 4 ≤ i) (small : i < 44) :
    nextWord rk i =
      if i % 4 = 0 then
        fun j => Fips197.subWord (Fips197.rotWord (word rk (i - 1))) j ^^^ Fips197.rcon (i / 4) j
      else word rk (i - 1) := by
  rw [nextWord]
  split
  · funext j
    have constant : rcon (i / 4) = (gfMul 2)^[i / 4 - 1] 1 :=
      rcon_eq (i / 4) (by omega) (by omega)
    match j with
    | 0 => simp [Fips197.subWord, Fips197.rotWord, Fips197.rcon, sbox_eq, constant]
    | 1 => simp [Fips197.subWord, Fips197.rotWord, Fips197.rcon, sbox_eq]
    | 2 => simp [Fips197.subWord, Fips197.rotWord, Fips197.rcon, sbox_eq]
    | 3 => simp [Fips197.subWord, Fips197.rotWord, Fips197.rcon, sbox_eq]
  · rfl

theorem word_expandLoop (key : Block) (rk : Schedule)
    (copied : ∀ i < 4, word rk i = Fips197.keyWord key i) (n : Nat) (small : n ≤ 40) :
    ∀ i < n + 4, word (expandLoop rk n) i = Fips197.keyWord key i := by
  induction n with
  | zero => exact copied
  | succ n ih =>
      have before := ih (by omega)
      intro i bound
      rw [expandLoop, expandWord]
      by_cases last : i = n + 4
      · subst last
        have previous : word (expandLoop rk n) (n + 4 - 1) = Fips197.keyWord key (n + 4 - 1) :=
          before _ (by omega)
        have above : word (expandLoop rk n) (n + 4 - 4) = Fips197.keyWord key (n + 4 - 4) :=
          before _ (by omega)
        rw [word_putWord _ _ (by omega), nextWord_eq _ _ (by omega) (by omega), previous, above,
          keyWord_next key (i := n + 4) (by omega)]
      · rw [word_putWord_ne _ _ (by omega) last]
        apply before
        omega

theorem word_expandKey (key : Block) (rk : Schedule) {i : Nat} (inside : i < 44) :
    word (stage90Aes128ExpandKey key rk) i = Fips197.keyWord key i := by
  apply word_expandLoop
  · intro i first
    funext j
    have within : 4 * i + (j : Nat) < 16 := by omega
    rw [word, getD_ofFn _ (by omega), dif_pos within, Fips197.keyWord, if_pos first]
    congr 1
    apply Fin.ext
    exact (Nat.mod_eq_of_lt within).symm
  · exact Nat.le_refl 40
  · omega

/-! ## The standard -/

theorem load_subBytes (s : Block) : Fips197.load (subBytes s) = Fips197.subBytes (Fips197.load s) := by
  funext r c
  exact (subBytes_cell s r c).trans (sbox_eq _)

theorem load_shiftRows (s : Block) :
    Fips197.load (shiftRows s) = Fips197.shiftRows (Fips197.load s) := by
  funext r c
  exact shiftRows_cell s r c

theorem mixColumn_eq (a : Column) (r : Fin 4) :
    mixColumn a r = gfMul (Fips197.mixMatrix r 0) (a 0) ^^^ gfMul (Fips197.mixMatrix r 1) (a 1) ^^^
      gfMul (Fips197.mixMatrix r 2) (a 2) ^^^ gfMul (Fips197.mixMatrix r 3) (a 3) := by
  match r with
  | 0 =>
      change _ = gfMul 2 (a 0) ^^^ gfMul 3 (a 1) ^^^ gfMul 1 (a 2) ^^^ gfMul 1 (a 3)
      rw [gfMul_one, gfMul_one, gfMul_two, gfMul_three, mixColumn]
  | 1 =>
      change _ = gfMul 1 (a 0) ^^^ gfMul 2 (a 1) ^^^ gfMul 3 (a 2) ^^^ gfMul 1 (a 3)
      rw [gfMul_one, gfMul_one, gfMul_two, gfMul_three, mixColumn]
  | 2 =>
      change _ = gfMul 1 (a 0) ^^^ gfMul 1 (a 1) ^^^ gfMul 2 (a 2) ^^^ gfMul 3 (a 3)
      rw [gfMul_one, gfMul_one, gfMul_two, gfMul_three, mixColumn]
  | 3 =>
      change _ = gfMul 3 (a 0) ^^^ gfMul 1 (a 1) ^^^ gfMul 1 (a 2) ^^^ gfMul 2 (a 3)
      rw [gfMul_one, gfMul_one, gfMul_two, gfMul_three, mixColumn]

theorem load_mixColumns (s : Block) :
    Fips197.load (mixColumns s) = Fips197.mixColumns (Fips197.load s) := by
  funext r c
  have mixed : Fips197.load (mixColumns s) r c = mixColumn (column s c) r :=
    congrFun (column_eachColumn s c mixColumn) r
  rw [mixed, mixColumn_eq]
  rfl

section Schedule
variable (key : Block) (rk : Schedule)

theorem load_addRoundKey {round : Nat} (last : round ≤ 10) (s : Block) :
    Fips197.load (addRoundKey (stage90Aes128ExpandKey key rk) (16 * round) s) =
      Fips197.addRoundKey (Fips197.keyWord key) round (Fips197.load s) := by
  funext r c
  have scheduled : word (stage90Aes128ExpandKey key rk) (4 * round + c) r =
      Fips197.keyWord key (4 * round + c) r :=
    congrFun (word_expandKey key rk (by omega)) r
  have position : 16 * round + (cell r c : Nat) = 4 * (4 * round + c) + r := by
    simp only [cell]
    omega
  rw [Fips197.addRoundKey, ← scheduled, word, ← position]
  exact addRoundKey_cell s r c _ _

theorem load_encryptRounds {n : Nat} (few : n ≤ 9) (s : Block) :
    Fips197.load (encryptRounds (stage90Aes128ExpandKey key rk) n s) =
      Fips197.rounds (Fips197.keyWord key) n (Fips197.load s) := by
  induction n with
  | zero => rfl
  | succ n ih =>
      rw [encryptRounds, Fips197.rounds, load_addRoundKey key rk (by omega), load_mixColumns,
        load_shiftRows, load_subBytes, ih (by omega)]

theorem load_encrypt (s : Block) :
    Fips197.load (stage90Aes128EncryptBlock (stage90Aes128ExpandKey key rk) s) =
      Fips197.cipher (Fips197.keyWord key) (Fips197.load s) := by
  have start : Fips197.load (addRoundKey (stage90Aes128ExpandKey key rk) 0 s) =
      Fips197.addRoundKey (Fips197.keyWord key) 0 (Fips197.load s) :=
    load_addRoundKey key rk (Nat.zero_le 10) s
  simp only [stage90Aes128EncryptBlock, Fips197.cipher, stage90Aes128Rounds]
  rw [load_addRoundKey key rk (Nat.le_refl 10), load_shiftRows, load_subBytes,
    load_encryptRounds key rk (Nat.le_refl 9), start]

end Schedule

theorem store_load (s : Block) : Fips197.store (Fips197.load s) = s := by
  apply block_ext
  intro r c
  rw [Fips197.store, get_ofFn]
  exact congrArg s.get (cell_of (cell r c))

/-- Encryption is the standard's cipher under the expanded key, and decryption is its inverse on
both sides. -/
theorem aes128_encrypts_and_decrypts (key block : Block) (rk : Schedule) :
    let rk := stage90Aes128ExpandKey key rk
    stage90Aes128EncryptBlock rk block = Fips197.aes128 key block ∧
      stage90Aes128DecryptBlock rk (stage90Aes128EncryptBlock rk block) = block ∧
      stage90Aes128EncryptBlock rk (stage90Aes128DecryptBlock rk block) = block := by
  intro schedule
  refine ⟨?_, decrypt_encrypt schedule block, encrypt_decrypt schedule block⟩
  rw [Fips197.aes128, ← load_encrypt key rk, store_load]

end Stage90.Aes

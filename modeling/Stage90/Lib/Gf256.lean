import Mathlib.Data.Nat.Bitwise
import Mathlib.Data.UInt
import Stage90.Lib.Instances

/-!
# Bytes as elements of GF(2^8)

A natural codes the polynomial over GF(2) whose coefficient of `x^i` is bit `i`.  A byte
is an element of the field modulo `x^8 + x^4 + x^3 + x + 1`: addition is `xor`, and the
product is the product of the polynomials, reduced.
-/

set_option autoImplicit false

namespace Stage90.Lib

/-- A property of all 256 bytes, one after the other. -/
theorem forall_byte {P : UInt8 → Prop} (each : ∀ i : Fin 256, P (UInt8.ofFin i)) (a : UInt8) :
    P a :=
  each a.toFin

def coefficient (p i : Nat) : Nat := (p >>> i) % 2

def polyMul (a b : Nat) : Nat :=
  [0, 1, 2, 3, 4, 5, 6, 7].foldl (fun p i => p ^^^ coefficient b i * (a <<< i)) 0

/-- `x^8 + x^4 + x^3 + x + 1`. -/
def modulus : Nat := 0x11b

def polyMod (p : Nat) : Nat :=
  [14, 13, 12, 11, 10, 9, 8].foldl
    (fun p degree => p ^^^ coefficient p degree * (modulus <<< (degree - 8))) p

def mulMod (a b : Nat) : Nat := polyMod (polyMul a b)

/-- `a^2, a^4, …, a^(2^n)` multiplied together. -/
def squaresProduct (a : Nat) : Nat → Nat
  | 0 => 1
  | n + 1 => mulMod (mulMod a a) (squaresProduct (mulMod a a) n)

def gfMul (a b : UInt8) : UInt8 := UInt8.ofNat (mulMod a.toNat b.toNat)

/-- `a^254`: the inverse of a non-zero `a`, and zero for zero. -/
def gfInv (a : UInt8) : UInt8 := UInt8.ofNat (squaresProduct a.toNat 7)

def bits : List UInt8 := [0x01, 0x02, 0x04, 0x08, 0x10, 0x20, 0x40, 0x80]

/-! ## Evaluation

The kernel unfolds a definition before it has evaluated the arguments, and so evaluates them where
they are used, each time.  `evaluated` matches on the number, which has it evaluated once. -/

def evaluated {α : Type} (n : Nat) (f : Nat → α) : α :=
  match n with
  | 0 => f 0
  | n + 1 => f n.succ

theorem evaluated_eq {α : Type} (n : Nat) (f : Nat → α) : evaluated n f = f n := by
  cases n <;> rfl

/-- The terms of `polyMul`, written out. -/
def polyMulEval (a b : Nat) : Nat :=
  let term i := coefficient b i * (a <<< i)
  term 0 ^^^ term 1 ^^^ term 2 ^^^ term 3 ^^^ term 4 ^^^ term 5 ^^^ term 6 ^^^ term 7

/-- One step of `polyMod`, and what is done with the remainder. -/
def reduceAt (degree : Nat) (next : Nat → Nat) (p : Nat) : Nat :=
  evaluated (p ^^^ coefficient p degree * (modulus <<< (degree - 8))) next

def mulModEval (a b : Nat) : Nat :=
  evaluated (evaluated a fun a => evaluated b fun b => polyMulEval a b)
    (reduceAt 14 (reduceAt 13 (reduceAt 12 (reduceAt 11 (reduceAt 10 (reduceAt 9 (reduceAt 8 id)))))))

def squaresProductEval (a : Nat) : Nat → Nat
  | 0 => 1
  | n + 1 => evaluated (mulModEval a a) fun square =>
      evaluated (squaresProductEval square n) fun rest => mulModEval square rest

theorem mulMod_eval (a b : Nat) : mulMod a b = mulModEval a b := by
  simp only [mulMod, mulModEval, polyMul, polyMulEval, polyMod, reduceAt, evaluated_eq, id,
    List.foldl_cons, List.foldl_nil, Nat.zero_xor]

theorem squaresProduct_eval (a n : Nat) : squaresProduct a n = squaresProductEval a n := by
  induction n generalizing a with
  | zero => rfl
  | succ n ih => simp only [squaresProduct, squaresProductEval, evaluated_eq, ih, mulMod_eval]

theorem inverse_facts : ∀ a : UInt8, if a = 0 then gfInv a = 0 else gfMul a (gfInv a) = 1 := by
  apply forall_byte
  simp only [gfInv, gfMul, squaresProduct_eval, mulMod_eval]
  decide +kernel

/-! ## Bits -/

theorem byte_eq_bits (a : UInt8) : a = (bits.map fun b => a &&& b).foldr (· ^^^ ·) 0 := by
  revert a
  apply forall_byte
  decide +kernel

theorem bits_pow : ∀ b ∈ bits, ∃ i < 8, b.toNat = 2 ^ i := by
  intro b member
  simp only [bits, List.mem_cons, List.not_mem_nil, or_false] at member
  rcases member with rfl | rfl | rfl | rfl | rfl | rfl | rfl | rfl
  · exact ⟨0, by omega, rfl⟩
  · exact ⟨1, by omega, rfl⟩
  · exact ⟨2, by omega, rfl⟩
  · exact ⟨3, by omega, rfl⟩
  · exact ⟨4, by omega, rfl⟩
  · exact ⟨5, by omega, rfl⟩
  · exact ⟨6, by omega, rfl⟩
  · exact ⟨7, by omega, rfl⟩

theorem and_bit (a b : UInt8) (member : b ∈ bits) : a &&& b = 0 ∨ a &&& b = b := by
  obtain ⟨i, _, power⟩ := bits_pow b member
  have value : (a &&& b).toNat = (a.toNat.testBit i).toNat * 2 ^ i := by
    rw [UInt8.toNat_and, power, Nat.and_two_pow]
  cases bit : a.toNat.testBit i with
  | false =>
      left
      rw [bit, Bool.toNat_false, Nat.zero_mul] at value
      exact UInt8.toNat_inj.mp value
  | true =>
      right
      rw [bit, Bool.toNat_true, Nat.one_mul, ← power] at value
      exact UInt8.toNat_inj.mp value

/-- What holds of the bits and of sums holds of every byte. -/
theorem byte_induction {P : UInt8 → Prop} (zero : P 0) (bit : ∀ b ∈ bits, P b)
    (xor : ∀ a b, P a → P b → P (a ^^^ b)) (a : UInt8) : P a := by
  have sums (terms : List UInt8) (each : ∀ b ∈ terms, b ∈ bits) :
      P ((terms.map fun b => a &&& b).foldr (· ^^^ ·) 0) := by
    induction terms with
    | nil => exact zero
    | cons b terms ih =>
        apply xor
        · change P (a &&& b)
          rcases and_bit a b (each b List.mem_cons_self) with clear | set_
          · rw [clear]
            exact zero
          · rw [set_]
            exact bit b (each b List.mem_cons_self)
        · exact ih fun b' member => each b' (List.mem_cons_of_mem b member)
  rw [byte_eq_bits a]
  exact sums bits fun b member => member

/-! ## Maps that respect addition -/

variable {n m k : Nat}

def XorLinear (f : (Fin n → UInt8) → Fin m → UInt8) : Prop :=
  ∀ u v, f (fun i => u i ^^^ v i) = fun j => f u j ^^^ f v j

/-- The vector with `a` at `i` and zeros elsewhere. -/
def single (i : Fin n) (a : UInt8) : Fin n → UInt8 := fun j => if j = i then a else 0

theorem xorLinear_id : XorLinear fun u : Fin n → UInt8 => u := fun _ _ => rfl

theorem XorLinear.comp {g : (Fin m → UInt8) → Fin k → UInt8} {f : (Fin n → UInt8) → Fin m → UInt8}
    (outer : XorLinear g) (inner : XorLinear f) : XorLinear fun u => g (f u) := by
  intro u v
  change g (f fun i => u i ^^^ v i) = _
  rw [inner, outer]

theorem XorLinear.zero {f : (Fin n → UInt8) → Fin m → UInt8} (linear : XorLinear f) :
    f (fun _ => 0) = fun _ => 0 := by
  have twice := linear (fun _ => 0) (fun _ => 0)
  funext j
  have at_ := congrFun twice j
  simp only [UInt8.xor_self] at at_
  exact at_

/-- The first `s` coordinates of `u`. -/
def cutOff (u : Fin n → UInt8) (s : Nat) : Fin n → UInt8 := fun i => if i < s then u i else 0

theorem cutOff_succ (u : Fin n → UInt8) (s : Fin n) :
    cutOff u (s + 1) = fun i => cutOff u s i ^^^ single s (u s) i := by
  funext i
  simp only [cutOff, single]
  by_cases here : i = s
  · subst here
    simp
  · have other : i.val ≠ s.val := fun same => here (Fin.ext same)
    have step : i.val < s.val + 1 ↔ i.val < s.val := by omega
    simp [here, step]

theorem single_zero (i : Fin n) : single i 0 = fun _ => 0 := by
  funext j
  simp [single]

theorem single_xor (i : Fin n) (a b : UInt8) :
    single i (a ^^^ b) = fun j => single i a j ^^^ single i b j := by
  funext j
  by_cases here : j = i <;> simp [single, here]

/-- Linear maps that agree on the vectors with one non-zero bit are equal. -/
theorem XorLinear.ext {f g : (Fin n → UInt8) → Fin m → UInt8} (left : XorLinear f)
    (right : XorLinear g) (agree : ∀ i, ∀ b ∈ bits, f (single i b) = g (single i b))
    (u : Fin n → UInt8) : f u = g u := by
  have coordinate (i : Fin n) (a : UInt8) : f (single i a) = g (single i a) := by
    induction a using byte_induction with
    | zero => rw [single_zero, left.zero, right.zero]
    | bit b member => exact agree i b member
    | xor a b ha hb => rw [single_xor, left, right, ha, hb]
  have prefixes (s : Nat) (le : s ≤ n) : f (cutOff u s) = g (cutOff u s) := by
    induction s with
    | zero =>
        have nothing : cutOff u 0 = fun _ => 0 := by
          funext i
          simp [cutOff]
        rw [nothing, left.zero, right.zero]
    | succ s ih =>
        have next := cutOff_succ u ⟨s, le⟩
        rw [next, left, right, ih (Nat.le_of_succ_le le), coordinate]
  have whole : cutOff u n = u := by
    funext i
    simp [cutOff]
  rw [← whole]
  exact prefixes n (Nat.le_refl n)

end Stage90.Lib

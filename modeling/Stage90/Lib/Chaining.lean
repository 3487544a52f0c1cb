import Mathlib.Data.List.Basic

/-!
# Cipher block chaining

Streams of blocks that carry a value from each block to the next, and the chaining modes over any
cipher on blocks, with any operation that undoes itself in the place of exclusive or.  `feedback`
is the decryption that chains to the block it has put out.
-/

set_option autoImplicit false

namespace Stage90.Lib.Chaining

universe u

variable {α : Type u}

def stream (put keep : α → α → α) : α → List α → List α
  | _, [] => []
  | iv, x :: xs => put iv x :: stream put keep (keep iv x) xs

section Stream
variable (put keep : α → α → α)

@[simp] theorem length_stream (iv : α) (xs : List α) :
    (stream put keep iv xs).length = xs.length := by
  induction xs generalizing iv with
  | nil => rfl
  | cons x xs ih => simp [stream, ih]

theorem stream_append (iv : α) (xs ys : List α) :
    stream put keep iv (xs ++ ys) =
      stream put keep iv xs ++ stream put keep (xs.foldl keep iv) ys := by
  induction xs generalizing iv with
  | nil => rfl
  | cons x xs ih => rw [List.cons_append, stream, ih, List.foldl_cons]; rfl

/-- Blocks that are put out under the values carried to them are the stream. -/
theorem stream_of_carried {carry input output : Nat → α} {n : Nat}
    (next : ∀ b < n, carry (b + 1) = keep (carry b) (input b))
    (puts : ∀ b < n, output b = put (carry b) (input b)) :
    (List.range n).map output = stream put keep (carry 0) ((List.range n).map input) := by
  induction n generalizing carry input output with
  | zero => rfl
  | succ n ih =>
      have rest := @ih (fun b => carry (b + 1)) (fun b => input (b + 1)) (fun b => output (b + 1))
        (fun b inside => next (b + 1) (by omega)) fun b inside => puts (b + 1) (by omega)
      rw [List.range_succ_eq_map, List.map_cons, List.map_cons, List.map_map, List.map_map, stream,
        ← next 0 (by omega), ← puts 0 (by omega)]
      exact congrArg _ rest

end Stream

variable (mix : α → α → α)

structure Mixes : Prop where
  assoc : ∀ a b c, mix (mix a b) c = mix a (mix b c)
  comm : ∀ a b, mix a b = mix b a
  cancel : ∀ a b, mix (mix a b) b = a

/-- `C₁ = E(P₁ ⊕ IV)`, `Cⱼ = E(Pⱼ ⊕ Cⱼ₋₁)`. -/
def encrypt (cipher : α → α) : α → List α → List α :=
  stream (fun iv p => cipher (mix p iv)) (fun iv p => cipher (mix p iv))

def decrypt (inverse : α → α) : α → List α → List α :=
  stream (fun iv c => mix (inverse c) iv) (fun _ c => c)

/-- `P₁ = D(C₁) ⊕ IV`, `Pⱼ = D(Cⱼ) ⊕ Pⱼ₋₁`. -/
def feedback (inverse : α → α) : α → List α → List α :=
  stream (fun iv c => mix (inverse c) iv) (fun iv c => mix (inverse c) iv)

section Modes
variable {mix} {cipher inverse : α → α} (mixes : Mixes mix)
include mixes

theorem decrypt_encrypt (left : Function.LeftInverse inverse cipher) (iv : α) (ps : List α) :
    decrypt mix inverse iv (encrypt mix cipher iv ps) = ps := by
  induction ps generalizing iv with
  | nil => rfl
  | cons p ps ih =>
      change mix (inverse (cipher (mix p iv))) iv ::
        decrypt mix inverse (cipher (mix p iv)) (encrypt mix cipher (cipher (mix p iv)) ps) =
          p :: ps
      rw [left, mixes.cancel, ih]

theorem encrypt_decrypt (right : Function.RightInverse inverse cipher) (iv : α) (cs : List α) :
    encrypt mix cipher iv (decrypt mix inverse iv cs) = cs := by
  induction cs generalizing iv with
  | nil => rfl
  | cons c cs ih =>
      change cipher (mix (mix (inverse c) iv) iv) ::
        encrypt mix cipher (cipher (mix (mix (inverse c) iv) iv)) (decrypt mix inverse c cs) =
          c :: cs
      rw [mixes.cancel, right, ih]

/-- What a decrypted buffer encrypts to. -/
theorem encrypt_eq_iff (left : Function.LeftInverse inverse cipher)
    (right : Function.RightInverse inverse cipher) (iv : α) (ps cs : List α) :
    encrypt mix cipher iv ps = cs ↔ ps = decrypt mix inverse iv cs := by
  constructor
  · rintro rfl
    exact (decrypt_encrypt mixes left iv ps).symm
  · rintro rfl
    exact encrypt_decrypt mixes right iv cs

omit mixes in
/-- A block that changes is lost, the change passes into the next, and no other is touched. -/
theorem decrypt_changed (iv : α) (xs ys : List α) (c c' y : α) :
    ∃ before after last, before.length = xs.length ∧
      decrypt mix inverse iv (xs ++ c :: y :: ys) =
        before ++ mix (inverse c) last :: mix (inverse y) c :: after ∧
      decrypt mix inverse iv (xs ++ c' :: y :: ys) =
        before ++ mix (inverse c') last :: mix (inverse y) c' :: after := by
  refine ⟨decrypt mix inverse iv xs, decrypt mix inverse y ys, xs.foldl (fun _ c => c) iv,
    length_stream _ _ _ _, ?_, ?_⟩
  · exact stream_append _ _ iv xs (c :: y :: ys)
  · exact stream_append _ _ iv xs (c' :: y :: ys)

theorem Mixes.cancel_left (a b : α) : mix a (mix a b) = b := by
  rw [mixes.comm a b, mixes.comm a, mixes.cancel]

/-- What two differ by is not changed by mixing the same into both. -/
theorem Mixes.difference (a b c : α) : mix (mix a b) (mix a c) = mix b c := by
  rw [mixes.comm a b, mixes.assoc, mixes.cancel_left]

theorem Mixes.add_difference (a b c : α) : mix (mix b c) (mix a b) = mix a c := by
  rw [mixes.comm b c, mixes.comm a b, mixes.assoc, mixes.cancel_left, mixes.comm]

theorem Mixes.eq_of_fixed {a b p : α} (fixed : mix (mix a b) p = p) : a = b := by
  have same : mix a b = mix p p := by
    rw [← mixes.cancel (mix a b) p, fixed]
  rw [← mixes.cancel a b, same, mixes.assoc, mixes.cancel_left]

/-- Under feedback a difference between the carried values stays in every block. -/
theorem feedback_differs (iv iv' : α) (cs : List α) :
    feedback mix inverse iv' cs = (feedback mix inverse iv cs).map (mix (mix iv iv')) := by
  induction cs generalizing iv iv' with
  | nil => rfl
  | cons c cs ih =>
      change mix (inverse c) iv' :: feedback mix inverse (mix (inverse c) iv') cs =
        mix (mix iv iv') (mix (inverse c) iv) ::
          (feedback mix inverse (mix (inverse c) iv) cs).map (mix (mix iv iv'))
      rw [ih (mix (inverse c) iv) (mix (inverse c) iv'), mixes.difference, mixes.add_difference]

/-- A block that changes is never recovered from: its difference stays in all that follow. -/
theorem feedback_changed (iv : α) (xs ys : List α) (c c' : α) :
    ∃ before after, before.length = xs.length ∧
      feedback mix inverse iv (xs ++ c :: ys) = before ++ after ∧
      feedback mix inverse iv (xs ++ c' :: ys) =
        before ++ after.map (mix (mix (inverse c) (inverse c'))) := by
  have before := stream_append (fun iv c => mix (inverse c) iv) (fun iv c => mix (inverse c) iv) iv
    xs
  refine ⟨feedback mix inverse iv xs, _, length_stream _ _ _ _, before (c :: ys), ?_⟩
  rw [feedback, before (c' :: ys)]
  congr 1
  generalize xs.foldl (fun iv c => mix (inverse c) iv) iv = last
  change mix (inverse c') last :: feedback mix inverse (mix (inverse c') last) ys =
    mix (mix (inverse c) (inverse c')) (mix (inverse c) last) ::
      (feedback mix inverse (mix (inverse c) last) ys).map (mix (mix (inverse c) (inverse c')))
  have head :
      mix (mix (inverse c) (inverse c')) (mix (inverse c) last) = mix (inverse c') last := by
    rw [mixes.comm (inverse c), mixes.assoc, mixes.cancel_left]
  have same : mix (mix (inverse c) last) (mix (inverse c') last) =
      mix (inverse c) (inverse c') := by
    rw [mixes.comm _ last, mixes.comm _ last, mixes.difference]
  rw [head, feedback_differs mixes (mix (inverse c) last), same]

end Modes

end Stage90.Lib.Chaining

import Mathlib.Algebra.GroupWithZero.Nat

/-!
# Instances under one name

A numeral of `Fin n` carries a proof that `n` is not zero, and a membership test in a list of
texts one that equality of texts is lawful.  Named here, such a proof is one constant in every
definition that carries it, whichever modules are read together.
-/

set_option autoImplicit false

namespace Stage90.Lib

instance neZero_three : NeZero 3 := ⟨by decide⟩

instance neZero_four : NeZero 4 := ⟨by decide⟩

instance neZero_eight : NeZero 8 := ⟨by decide⟩

instance neZero_128 : NeZero 128 := ⟨by decide⟩

instance lawfulBEq_text : LawfulBEq (List Char) := List.instLawfulBEq

instance lawfulBEq_bytes : LawfulBEq (List UInt8) := List.instLawfulBEq

end Stage90.Lib

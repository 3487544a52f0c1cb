import Stage90.Asm.Expand

/-!
# Argument uses, from left to right

The matches of the argument pattern are those that a walk through the body meets.
-/

set_option autoImplicit false

namespace Stage90.Asm

open Lib Re

section Pattern
variable {word : Char → Bool} {text : Text} {i : Nat} {d : Char} {rest : Text}

theorem matchAt_argUse (stands : text.drop i = '$' :: d :: rest) (is_digit : isDigit d) :
    argUse.pattern.matchAt word text i = some ⟨i, i + 2, [(1, i + 1, i + 2)]⟩ := by
  obtain ⟨first, behind⟩ := drop_eq_cons_iff.mp stands
  obtain ⟨second, _⟩ := drop_eq_cons_iff.mp behind
  have dollar : run word text (lit "$") i [] = [(i + 1, [])] := by
    have lit_eq : lit "$" = .seq (.one (· == '$')) .empty := rfl
    simp [lit_eq, run, first]
  simp [matchAt, argUse, run, dollar, second, is_digit]

theorem of_matchAt_argUse {m : Match} (found : argUse.pattern.matchAt word text i = some m) :
    ∃ d rest, text.drop i = '$' :: d :: rest ∧ isDigit d := by
  obtain ⟨rfl, found⟩ := matchAt_eq_some found
  obtain ⟨mid, dollar, inner⟩ := mem_run_seq.mp found
  obtain ⟨rfl, rest, stands⟩ := mem_run_chars.mp dollar
  obtain ⟨last, digit, _⟩ := mem_run_group.mp inner
  obtain ⟨_, d, at_d, is_digit⟩ := mem_run_one.mp digit
  obtain ⟨first, _⟩ := drop_eq_cons_iff.mp stands.symm
  refine ⟨d, text.drop (m.start + 2), ?_, is_digit⟩
  exact drop_eq_cons_iff.mpr ⟨first, drop_eq_cons_iff.mpr ⟨at_d, rfl⟩⟩

theorem group_argUse (stands : text.drop i = '$' :: d :: rest) :
    Match.group text ⟨i, i + 2, [(1, i + 1, i + 2)]⟩ 1 = [d] := by
  have behind : [d] <+: text.drop (i + 1) := by
    rw [(drop_eq_cons_iff.mp stands).2]
    exact ⟨rest, rfl⟩
  exact slice_of_prefix behind

end Pattern

section Walk
variable {word : Char → Bool} {text : Text}

def usesFrom (word : Char → Bool) (text : Text) (i : Nat) : List Edit :=
  (argUse.pattern.scanFrom word text i).map fun m => ⟨m.start, m.stop, argUse.new text m⟩

theorem inOrder_usesFrom (i : Nat) : InOrder i (usesFrom word text i) := inOrder_scan _ i

theorem usesFrom_of_none {i : Nat} (within : i ≤ text.length)
    (none : argUse.pattern.matchAt word text i = none) :
    usesFrom word text i = usesFrom word text (i + 1) := by
  rw [usesFrom, scanFrom_of_none within none, usesFrom]

theorem matchAt_argUse_none {i : Nat}
    (no : ∀ d rest, text.drop i = '$' :: d :: rest → ¬ isDigit d) :
    argUse.pattern.matchAt word text i = none := by
  cases found : argUse.pattern.matchAt word text i with
  | none => rfl
  | some m =>
      obtain ⟨d, rest, stands, is_digit⟩ := of_matchAt_argUse found
      exact absurd is_digit (no d rest stands)

theorem scanFrom_short {i : Nat} (few : text.length < i + 2) :
    argUse.pattern.scanFrom word text i = [] := by
  apply scanFrom_eq_nil
  intro j from_i
  apply matchAt_argUse_none
  intro d rest same
  have length := congrArg List.length same
  simp only [List.length_drop, List.length_cons] at length
  omega

theorem usesFrom_of_use {i : Nat} {d : Char} {rest : Text}
    (stands : text.drop i = '$' :: d :: rest) (is_digit : isDigit d) :
    usesFrom word text i =
      ⟨i, i + 2, ['\\', 'p', d, '\\', '(', ')']⟩ :: usesFrom word text (i + 2) := by
  have inside : i + 2 ≤ text.length := by
    have count := congrArg List.length stands
    simp only [List.length_drop, List.length_cons] at count
    omega
  have new : argUse.new text ⟨i, i + 2, [(1, i + 1, i + 2)]⟩ = ['\\', 'p', d, '\\', '(', ')'] := by
    rw [argUse]
    dsimp only
    rw [group_argUse stands]
    rfl
  have found : argUse.pattern.matchAt word text i = some ⟨i, i + 2, [(1, i + 1, i + 2)]⟩ :=
    matchAt_argUse stands is_digit
  have long : i < i + 2 := Nat.lt_add_of_pos_right (by decide)
  rw [usesFrom, scanFrom_of_some found long inside, List.map_cons, new]
  rfl

theorem splice_usesFrom (k : Nat) (rest : Text) : ∀ i, i + k = text.length → text.drop i = rest →
    splice text i (usesFrom word text i) = convert k rest := by
  induction k, rest using convert.induct with
  | case1 k c d rest use ih =>
      intro i count stands
      obtain ⟨rfl, is_digit, live⟩ := use
      have behind : text.drop (i + 2) = rest :=
        (drop_eq_cons_iff.mp (drop_eq_cons_iff.mp stands).2).2
      have nothing : slice text i i = [] := by
        rw [slice, List.drop_take, Nat.sub_self, List.take_zero]
      rw [usesFrom_of_use stands is_digit, splice, nothing, ih (i + 2) (by omega) behind,
        convert_use is_digit live]
      rfl
  | case2 k c d rest no ih =>
      intro i count stands
      obtain ⟨at_i, behind⟩ := drop_eq_cons_iff.mp stands
      have length := congrArg List.length stands
      simp only [List.length_drop, List.length_cons] at length
      have none : argUse.pattern.matchAt word text i = none := by
        apply matchAt_argUse_none
        intro d' rest' same is_digit
        rw [stands] at same
        injection same with first same
        injection same with second
        exact no ⟨first, second ▸ is_digit, by omega⟩
      rw [usesFrom_of_none (by omega) none, splice_cons (inOrder_usesFrom (i + 1)) at_i,
        ih (i + 1) (by omega) behind, convert_cons no]
  | case3 k short few =>
      intro i count stands
      have length := congrArg List.length stands
      rw [List.length_drop] at length
      have short_length := length_short few
      rw [usesFrom, scanFrom_short (by omega), List.map_nil, splice, stands, convert]
      exact few

theorem argUse_subn (body : Text) : (argUse.subn word body).1 = convert body.length body := by
  have walk := @splice_usesFrom word body body.length body 0 (Nat.zero_add _) rfl
  rw [usesFrom, ← finditer_eq] at walk
  exact walk

def numbersFrom (word : Char → Bool) (text : Text) (i : Nat) : List Nat :=
  (argUse.pattern.scanFrom word text i).map fun m =>
    ((m.group text 1).headD '0').toNat - '0'.toNat

theorem numbersFrom_eq (rest : Text) : ∀ i, i + rest.length = text.length → text.drop i = rest →
    numbersFrom word text i = digits rest := by
  induction rest using digits.induct with
  | case1 c d rest use ih =>
      intro i count stands
      obtain ⟨rfl, is_digit⟩ := use
      have behind : text.drop (i + 2) = rest :=
        (drop_eq_cons_iff.mp (drop_eq_cons_iff.mp stands).2).2
      simp only [List.length_cons] at count
      have long : i < i + 2 := Nat.lt_add_of_pos_right (by decide)
      have inside : i + 2 ≤ text.length := by omega
      have first : ((Match.group text ⟨i, i + 2, [(1, i + 1, i + 2)]⟩ 1).headD '0').toNat -
          '0'.toNat = digit d := by
        rw [group_argUse stands]
        rfl
      rw [numbersFrom, scanFrom_of_some (matchAt_argUse stands is_digit) long inside, List.map_cons,
        first, digits, if_pos ⟨rfl, is_digit⟩, ← ih (i + 2) (by omega) behind, numbersFrom]
  | case2 c d rest no ih =>
      intro i count stands
      obtain ⟨_, behind⟩ := drop_eq_cons_iff.mp stands
      simp only [List.length_cons] at count
      have none : argUse.pattern.matchAt word text i = none := by
        apply matchAt_argUse_none
        intro d' rest' same is_digit
        rw [stands] at same
        injection same with first same
        injection same with second
        exact no ⟨first, second ▸ is_digit⟩
      rw [numbersFrom, scanFrom_of_none (by omega) none, digits, if_neg no,
        ← ih (i + 1) (by simp only [List.length_cons]; omega) behind, numbersFrom]
  | case3 short few =>
      intro i count stands
      have short_length := length_short few
      rw [numbersFrom, scanFrom_short (by omega), List.map_nil, digits]
      exact few

theorem used_eq (alnum : Char → Bool) (body : Text) : used alnum body = digits body := by
  have walk := @numbersFrom_eq (isWord alnum) body body 0 (Nat.zero_add _) rfl
  rw [numbersFrom, ← finditer_eq] at walk
  exact walk

end Walk

end Stage90.Asm

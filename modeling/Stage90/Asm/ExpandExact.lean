import Stage90.Asm.Expand

/-!
# Bodies that are not plain

With an `x` for every argument, each escape that is not a rewritten argument use leaves its
trace: the rewritten body comes out with more dollars or more arguments, or with fewer
backslashes, and no later text makes up for it.
-/

set_option autoImplicit false

namespace Stage90.Asm

open Lib

def ones (n : Nat) : List Text := List.replicate n ['x']

/-- The dollars, twice, and the arguments of an expansion. -/
def weight (t : Text) : Nat := 2 * t.count '$' + t.count 'x'

theorem weight_cons (c : Char) (t : Text) : weight (c :: t) = weight [c] + weight t := by
  rw [weight, weight, weight, ← List.singleton_append, List.count_append, List.count_append]
  omega

theorem weight_append (s t : Text) : weight (s ++ t) = weight s + weight t := by
  rw [weight, weight, weight, List.count_append, List.count_append]
  omega

/-- A number has neither. -/
theorem count_toDigits {c : Char} (not_digit : c.isDigit = false) (m : Nat) :
    (Nat.toDigits 10 m).count c = 0 := by
  apply List.count_eq_zero_of_not_mem
  intro mem
  have := Nat.isDigit_of_mem_toDigits (by decide) (Nat.le_refl 10) mem
  rw [not_digit] at this
  exact absurd this Bool.false_ne_true

theorem weight_toDigits (m : Nat) : weight (Nat.toDigits 10 m) = 0 := by
  rw [weight, count_toDigits (by decide), count_toDigits (by decide)]

theorem getD_ones {n u : Nat} (below : u < n) : (ones n).getD u [] = ['x'] := by
  rw [ones, List.getD_eq_getElem?_getD, List.getElem?_replicate, if_pos below, Option.getD_some]

theorem weight_getD_le (n u : Nat) : weight ((ones n).getD u []) ≤ 1 := by
  by_cases below : u < n
  · rw [getD_ones below]
    decide
  · rw [ones, List.getD_eq_getElem?_getD, List.getElem?_replicate, if_neg below, Option.getD_none]
    decide

theorem slashes_getD (n u : Nat) : ((ones n).getD u []).count '\\' = 0 := by
  by_cases below : u < n
  · rw [getD_ones below]
    decide
  · rw [ones, List.getD_eq_getElem?_getD, List.getElem?_replicate, if_neg below, Option.getD_none]
    rfl

theorem isDigit_weight {d : Char} (is_digit : isDigit d) : weight [d] = 0 ∧ d ≠ '\\' := by
  have other : ∀ c, isDigit c = false → d ≠ c := by
    intro c no same
    rw [same, no] at is_digit
    exact absurd is_digit Bool.false_ne_true
  have dollar := other '$' (by decide)
  have one := other 'x' (by decide)
  exact ⟨by simp [weight, dollar, one], other '\\' (by decide)⟩

theorem expandDarwin_short {args : List Text} {short : Text}
    (few : ∀ (c d : Char) (rest : List Char), short = c :: d :: rest → False) :
    expandDarwin args short = short := by
  match short with
  | [] => rfl
  | [_] => rfl
  | c :: d :: rest => exact absurd rfl (few c d rest)

section Darwin
variable (n : Nat)

theorem slashes_expandDarwin (body : Text) :
    (expandDarwin (ones n) body).count '\\' = body.count '\\' := by
  induction body using expandDarwin.induct with
  | case1 rest ih => simp [expandDarwin_pair, ih]
  | case2 rest _ ih => simp [expandDarwin_count, count_toDigits, ih]
  | case3 d rest _ _ is_digit ih =>
      rw [expandDarwin_use is_digit, List.count_append, slashes_getD, ih, List.count_cons,
        List.count_cons]
      simp [(isDigit_weight is_digit).2]
  | case4 d rest dollar count not_digit ih =>
      rw [expandDarwin_dollar ⟨dollar, count⟩ not_digit, List.count_cons, List.count_cons, ih]
  | case5 c d rest other ih =>
      rw [expandDarwin_cons_of_ne other, List.count_cons, ih, ← List.count_cons]
  | case6 short few => rw [expandDarwin_short few]

/-- A dollar in front changes the weight by two at most, and takes nothing away. -/
theorem weight_dollar (body : Text) :
    weight (expandDarwin (ones n) body) ≤ weight (expandDarwin (ones n) ('$' :: body)) ∧
      weight (expandDarwin (ones n) ('$' :: body)) ≤ weight (expandDarwin (ones n) body) + 2 := by
  induction body with
  | nil =>
      have alone : expandDarwin (ones n) ['$'] = ['$'] := rfl
      have none : expandDarwin (ones n) [] = [] := rfl
      rw [alone, none]
      decide
  | cons c rest ih =>
      by_cases dollar : c = '$'
      · subst dollar
        rw [expandDarwin_pair, weight_cons '$']
        have two : weight ['$'] = 2 := by decide
        omega
      · rw [expandDarwin_cons_of_ne dollar, weight_cons c (expandDarwin (ones n) rest)]
        by_cases count : c = 'n'
        · subst count
          have none : weight ['n'] = 0 := by decide
          rw [expandDarwin_count, weight_append, weight_toDigits]
          omega
        · by_cases is_digit : isDigit c
          · have none := (isDigit_weight is_digit).1
            have few := weight_getD_le n (digit c)
            rw [expandDarwin_use is_digit, weight_append]
            omega
          · have two : weight ['$'] = 2 := by decide
            rw [expandDarwin_dollar ⟨dollar, count⟩ is_digit, expandDarwin_cons_of_ne dollar,
              weight_cons '$', weight_cons c (expandDarwin (ones n) rest)]
            omega

/-- A dollar that is no escape of its own adds to the weight. -/
theorem weight_dollar_lt {params : List Text} {k : Nat} {body : Text}
    (plain : Plain params k ('$' :: body)) (below : ∀ u ∈ digits (('$' :: body).take k), u < n) :
    weight (expandDarwin (ones n) body) < weight (expandDarwin (ones n) ('$' :: body)) := by
  cases body with
  | nil =>
      have alone : expandDarwin (ones n) ['$'] = ['$'] := rfl
      have none : expandDarwin (ones n) [] = [] := rfl
      rw [alone, none]
      decide
  | cons d rest =>
      rw [Plain, if_pos rfl] at plain
      by_cases darwin : d = '$' ∨ d = 'n'
      · rw [if_pos darwin] at plain
        exact plain.elim
      · rw [if_neg darwin] at plain
        rw [not_or] at darwin
        by_cases is_digit : isDigit d
        · rw [if_pos is_digit] at plain
          have here := below _ ((digits_take_use is_digit plain.1).mpr (Or.inl rfl))
          have one : weight ['x'] = 1 := by decide
          rw [expandDarwin_use is_digit, getD_ones here, weight_append, one,
            expandDarwin_cons_of_ne darwin.1, weight_cons, (isDigit_weight is_digit).1]
          omega
        · have two : weight ['$'] = 2 := by decide
          rw [expandDarwin_dollar darwin is_digit, weight_cons '$']
          omega

end Darwin

def elf (n instances k : Nat) (body : Text) : Text :=
  expandNames (ones n) (names n) instances 0 (convert k body)

section Elf
variable {n k : Nat} (instances : Nat) {c d : Char} {rest : Text}

theorem elf_use (small : n ≤ 10) (is_digit : isDigit d) (live : 2 ≤ k) (below : digit d < n) :
    elf n instances k ('$' :: d :: rest) = 'x' :: elf n instances (k - 2) rest := by
  rw [elf, convert_use is_digit live, expandNames_use is_digit below small, getD_ones below]
  rfl

theorem elf_dollar (no : ¬ (isDigit d ∧ 2 ≤ k)) :
    elf n instances k ('$' :: d :: rest) = '$' :: elf n instances (k - 1) (d :: rest) := by
  rw [elf, convert_cons fun use => no use.2, expandNames_cons (by decide)]
  rfl

theorem elf_cons (dollar : c ≠ '$') (backslash : c ≠ '\\') :
    elf n instances k (c :: rest) = c :: elf n instances (k - 1) rest := by
  rw [elf, convert_cons_of_ne dollar, expandNames_cons backslash]
  rfl

theorem elf_backslash (no : ¬ Escapes (names n) (convert (k - 1) rest)) :
    elf n instances k ('\\' :: rest) = '\\' :: elf n instances (k - 1) rest := by
  rw [elf, convert_cons_of_ne (by decide), expandNames_backslash no]
  rfl

theorem elf_count :
    elf n instances k ('\\' :: '@' :: rest) =
      Nat.toDigits 10 instances ++ elf n instances (k - 2) rest := by
  have escaped : escape (ones n) (names n) instances ('@' :: convert (k - 1 - 1) rest) =
      some (Nat.toDigits 10 instances, 1) := if_pos rfl
  rw [elf, convert_cons_of_ne (by decide), convert_cons_of_ne (by decide),
    expandNames_escape escaped]
  rfl

theorem of_convert_eq_cons {j : Nat} {s : Text} (same : convert j rest = c :: s) (dollar : c ≠ '$')
    (backslash : c ≠ '\\') : ∃ r, rest = c :: r ∧ s = convert (j - 1) r := by
  cases rest with
  | nil => exact absurd same (List.cons_ne_nil c s).symm
  | cons c' r =>
      by_cases first : c' = '$'
      · subst first
        cases r with
        | nil => exact absurd (List.cons.inj same).1.symm dollar
        | cons d r =>
            rw [convert] at same
            split at same
            · exact absurd (List.cons.inj same).1.symm backslash
            · exact absurd (List.cons.inj same).1.symm dollar
      · rw [convert_cons_of_ne first] at same
        obtain ⟨rfl, rfl⟩ := List.cons.inj same
        exact ⟨r, rfl, rfl⟩

theorem param_spelled : ∀ u < 10, ∃ d, isDigit d ∧ param u = ['p', d] := by
  intro u below
  exact ⟨Char.ofNat (48 + u), by revert u; decide, (digit_spelled u below).2⟩

theorem of_takeWhile_eq_cons {p : Char → Bool} {s t : Text} (same : s.takeWhile p = c :: t) :
    ∃ s', s = c :: s' ∧ s'.takeWhile p = t := by
  cases s with
  | nil => exact absurd same (List.cons_ne_nil c t).symm
  | cons c' s' =>
      rw [List.takeWhile_cons] at same
      split at same
      · obtain ⟨rfl, rfl⟩ := List.cons.inj same
        exact ⟨s', rfl, rfl⟩
      · exact absurd same (List.cons_ne_nil c t).symm

theorem elf_param (small : n ≤ 10)
    (name : (convert (k - 1) rest).takeWhile isIdentifier ∈ names n) :
    ∃ d r, isDigit d ∧ rest = 'p' :: d :: r ∧
      elf n instances k ('\\' :: rest) = 'x' :: elf n instances (k - 3) r := by
  obtain ⟨u, mem, named⟩ := List.mem_map.mp name
  have below : u < n := List.mem_range.mp mem
  obtain ⟨d, is_digit, spelled⟩ := param_spelled u (by omega)
  have other := isDigit_weight is_digit
  rw [spelled] at named
  obtain ⟨s1, same1, named⟩ := of_takeWhile_eq_cons named.symm
  obtain ⟨s2, same2, stops⟩ := of_takeWhile_eq_cons named
  obtain ⟨r1, rfl, conv1⟩ := of_convert_eq_cons same1 (by decide) (by decide)
  rw [same2] at conv1
  obtain ⟨r, rfl, conv2⟩ := of_convert_eq_cons conv1.symm (isDigit_ne is_digit).1 other.2
  refine ⟨d, r, is_digit, rfl, ?_⟩
  have identifier : isIdentifier d := by simp [isIdentifier, is_digit]
  have escaped : escape (ones n) (names n) instances ('p' :: d :: s2) = some (['x'], 2) := by
    rw [escape, if_neg (by simp)]
    dsimp only
    rw [List.takeWhile_cons_of_pos (by decide), List.takeWhile_cons_of_pos identifier, stops,
      ← spelled, if_pos (param_mem_names below), idxOf_names n small u below, getD_ones below,
      spelled]
    rfl
  rw [elf, convert_cons_of_ne (by decide), same1, same2, expandNames_escape escaped, conv2]
  rfl

theorem elf_separator :
    elf n instances k ('\\' :: '(' :: ')' :: rest) = elf n instances (k - 3) rest := by
  have escaped : escape (ones n) (names n) instances ('(' :: ')' :: convert (k - 1 - 1 - 1) rest) =
      some ([], 2) := by
    rw [escape, if_neg (by simp)]
    dsimp only
    rw [List.takeWhile_cons_of_neg (by decide), if_neg (nil_not_mem_names n), if_pos (by simp)]
  rw [elf, convert_cons_of_ne (by decide), convert_cons_of_ne (by decide),
    convert_cons_of_ne (by decide), expandNames_escape escaped]
  rfl

end Elf

/-- The rewritten body weighs at least as much and has no more backslashes, and where both are
the same the body is plain. -/
structure Behind (n instances k : Nat) (body : Text) : Prop where
  heavier : weight (expandDarwin (ones n) body) ≤ weight (elf n instances k body)
  fewer : (elf n instances k body).count '\\' ≤ body.count '\\'
  plain : weight (elf n instances k body) = weight (expandDarwin (ones n) body) →
    (elf n instances k body).count '\\' = body.count '\\' → Plain (names n) k body

section Behind
variable {n k instances : Nat} {c d : Char} {rest : Text}

theorem plain_cons (dollar : c ≠ '$')
    (no : c = '\\' → ¬ Escapes (names n) (convert (k - 1) rest))
    (plain : Plain (names n) (k - 1) rest) : Plain (names n) k (c :: rest) := by
  cases rest with
  | nil => exact trivial
  | cons d rest =>
      rw [Plain, if_neg dollar]
      exact ⟨no, plain⟩

/-- Where both dialects begin with the same text. -/
theorem behind_same {body new : Text} {j : Nat} (ih : Behind n instances j rest)
    (darwin : expandDarwin (ones n) body = new ++ expandDarwin (ones n) rest)
    (gnu : elf n instances k body = new ++ elf n instances j rest)
    (slashes : body.count '\\' = new.count '\\' + rest.count '\\')
    (plain : Plain (names n) j rest → Plain (names n) k body) : Behind n instances k body := by
  refine ⟨?_, ?_, ?_⟩
  · rw [darwin, gnu, weight_append, weight_append]
    exact Nat.add_le_add_left ih.heavier _
  · rw [gnu, slashes, List.count_append]
    exact Nat.add_le_add_left ih.fewer _
  · intro same same_slashes
    rw [darwin, gnu, weight_append, weight_append] at same
    rw [gnu, slashes, List.count_append] at same_slashes
    exact plain (ih.plain (Nat.add_left_cancel same) (Nat.add_left_cancel same_slashes))

/-- An escape of Darwin that is left in the body. -/
theorem behind_left (ih : Behind n instances (k - 2) rest) (backslash : d ≠ '\\')
    (darwin : weight (expandDarwin (ones n) ('$' :: d :: rest)) ≤
      1 + weight (expandDarwin (ones n) rest))
    (gnu : elf n instances k ('$' :: d :: rest) = '$' :: d :: elf n instances (k - 2) rest) :
    Behind n instances k ('$' :: d :: rest) := by
  have heavier := ih.heavier
  have fewer := ih.fewer
  have two : weight ['$'] = 2 := by decide
  have more : weight (expandDarwin (ones n) ('$' :: d :: rest)) <
      weight (elf n instances k ('$' :: d :: rest)) := by
    rw [gnu, weight_cons '$', weight_cons d, two]
    omega
  refine ⟨Nat.le_of_lt more, ?_, ?_⟩
  · rw [gnu]
    simpa [backslash] using fewer
  · intro same _
    exact absurd same (Nat.ne_of_gt more)

/-- An escape of the ELF assembler that the body has of its own. -/
theorem behind_escape {body new : Text} {j : Nat} (ih : Behind n instances j rest)
    (darwin : weight (expandDarwin (ones n) body) = weight (expandDarwin (ones n) rest))
    (gnu : elf n instances k body = new ++ elf n instances j rest) (none : new.count '\\' = 0)
    (more : rest.count '\\' < body.count '\\') : Behind n instances k body := by
  have heavier := ih.heavier
  have fewer := ih.fewer
  refine ⟨?_, ?_, ?_⟩
  · rw [darwin, gnu, weight_append]
    omega
  · rw [gnu, List.count_append]
    omega
  · intro _ slashes
    rw [gnu, List.count_append] at slashes
    omega

/-- A dollar before another: Darwin drops it, and what follows starts an escape at most once. -/
theorem behind_pair (ih : Behind n instances (k - 1) ('$' :: rest))
    (below : ∀ u ∈ digits (('$' :: rest).take (k - 1)), u < n) :
    Behind n instances k ('$' :: '$' :: rest) := by
  have heavier := ih.heavier
  have fewer := ih.fewer
  have between := (weight_dollar n rest).1
  have gnu : elf n instances k ('$' :: '$' :: rest) = '$' :: elf n instances (k - 1) ('$' :: rest) :=
    elf_dollar instances fun use => absurd use.1 (by decide)
  have darwin : expandDarwin (ones n) ('$' :: '$' :: rest) = '$' :: expandDarwin (ones n) rest :=
    expandDarwin_pair
  have weights := weight_cons '$' (elf n instances (k - 1) ('$' :: rest))
  have weights' := weight_cons '$' (expandDarwin (ones n) rest)
  have slashes : ('$' :: '$' :: rest).count '\\' = ('$' :: rest).count '\\' := by simp
  refine ⟨?_, ?_, ?_⟩
  · rw [darwin, gnu]
    omega
  · rw [gnu, slashes]
    simpa using fewer
  · intro same same_slashes
    rw [darwin, gnu] at same
    rw [gnu, slashes] at same_slashes
    have plain := ih.plain (by omega) (by simpa using same_slashes)
    have more := weight_dollar_lt n plain below
    omega

theorem below_tail (dollar : c ≠ '$') (below : ∀ u ∈ digits ((c :: rest).take k), u < n) :
    ∀ u ∈ digits (rest.take (k - 1)), u < n := by
  intro u mem
  cases rest with
  | nil =>
      rw [List.take_nil] at mem
      exact absurd mem List.not_mem_nil
  | cons d rest => exact below u ((digits_take_cons fun use => dollar use.1).mpr mem)

theorem weight_expandDarwin_cons (dollar : c ≠ '$') (light : weight [c] = 0) :
    weight (expandDarwin (ones n) (c :: rest)) = weight (expandDarwin (ones n) rest) := by
  rw [expandDarwin_cons_of_ne dollar, weight_cons c (expandDarwin (ones n) rest), light,
    Nat.zero_add]

theorem behind_backslash (small : n ≤ 10)
    (ih : ∀ j r, r.length ≤ rest.length → (∀ u ∈ digits (r.take j), u < n) → Behind n instances j r)
    (below : ∀ u ∈ digits (('\\' :: rest).take k), u < n) :
    Behind n instances k ('\\' :: rest) := by
  have tail := below_tail (by decide) below
  have light := fun r => @weight_expandDarwin_cons n '\\' r (by decide) (by decide)
  by_cases escapes : Escapes (names n) (convert (k - 1) rest)
  · rcases escapes with count | name | separator
    · obtain ⟨s, same⟩ := List.head?_eq_some_iff.mp count
      obtain ⟨r, rfl, _⟩ := of_convert_eq_cons same (by decide) (by decide)
      have later := ih (k - 1 - 1) r (by simp) (below_tail (by decide) tail)
      refine behind_escape later ?_ (elf_count instances) (count_toDigits (by decide) _) (by simp)
      rw [light, weight_expandDarwin_cons (by decide) (by decide)]
    · obtain ⟨d, r, is_digit, rfl, gnu⟩ := elf_param instances small name
      have other := isDigit_weight is_digit
      have dollar := (isDigit_ne is_digit).1
      have later := ih (k - 1 - 1 - 1) r (by simp; omega)
        (below_tail dollar (below_tail (by decide) tail))
      refine @behind_escape n k instances r _ ['x'] _ later ?_ gnu (by decide) (by simp [other.2])
      rw [light, weight_expandDarwin_cons (by decide) (by decide),
        weight_expandDarwin_cons dollar other.1]
    · obtain ⟨s, same⟩ := separator
      obtain ⟨r1, rfl, same1⟩ := of_convert_eq_cons same.symm (by decide) (by decide)
      obtain ⟨r, rfl, _⟩ := of_convert_eq_cons same1.symm (by decide) (by decide)
      have later := ih (k - 1 - 1 - 1) r (by simp; omega)
        (below_tail (by decide) (below_tail (by decide) tail))
      refine @behind_escape n k instances r _ [] _ later ?_ (elf_separator instances) (by decide)
        (by simp)
      rw [light, weight_expandDarwin_cons (by decide) (by decide),
        weight_expandDarwin_cons (by decide) (by decide)]
  · have later := ih (k - 1) rest (Nat.le_refl _) tail
    have slashes : ('\\' :: rest).count '\\' = ['\\'].count '\\' + rest.count '\\' := by
      rw [← List.count_append]
      rfl
    refine @behind_same n k instances rest _ ['\\'] _ later (expandDarwin_cons_of_ne (by decide))
      (elf_backslash instances escapes) slashes ?_
    exact plain_cons (by decide) fun _ => escapes

theorem behind_dollar (small : n ≤ 10)
    (ih : ∀ j r, r.length ≤ rest.length → (∀ u ∈ digits (r.take j), u < n) → Behind n instances j r)
    (below : ∀ u ∈ digits (('$' :: rest).take k), u < n) :
    Behind n instances k ('$' :: rest) := by
  cases rest with
  | nil => exact ⟨Nat.le_refl _, Nat.le_refl _, fun _ _ => trivial⟩
  | cons d rest =>
      by_cases is_digit : isDigit d
      · have other := isDigit_weight is_digit
        have dollar := (isDigit_ne is_digit).1
        by_cases live : 2 ≤ k
        · have here := below _ ((digits_take_use is_digit live).mpr (Or.inl rfl))
          have later := ih (k - 2) rest (by simp) fun u mem =>
            below u ((digits_take_use is_digit live).mpr (Or.inr mem))
          refine @behind_same n k instances rest _ ['x'] _ later ?_
            (elf_use instances small is_digit live here) (by simp [other.2]) fun plain => ?_
          · rw [expandDarwin_use is_digit, getD_ones here]
          · rw [Plain, if_pos rfl, if_neg (not_or.mpr (isDigit_ne is_digit)), if_pos is_digit]
            exact ⟨live, plain⟩
        · have later := ih (k - 2) rest (by simp) (by
            rw [show k - 2 = 0 by omega]
            exact fun u mem => absurd mem List.not_mem_nil)
          apply behind_left later other.2
          · rw [expandDarwin_use is_digit, weight_append]
            exact Nat.add_le_add_right (weight_getD_le n _) _
          · rw [elf_dollar instances fun use => live use.2, elf_cons instances dollar other.2]
            rfl
      · have no : ¬ ('$' = '$' ∧ isDigit d ∧ 2 ≤ k) := fun use => is_digit use.2.1
        have tail : ∀ u ∈ digits ((d :: rest).take (k - 1)), u < n := fun u mem =>
          below u ((digits_take_cons no).mpr mem)
        have later := ih (k - 1) (d :: rest) (Nat.le_refl _) tail
        by_cases dollar : d = '$'
        · subst dollar
          exact behind_pair later tail
        · by_cases count : d = 'n'
          · subst count
            have later := ih (k - 2) rest (by simp) (below_tail (by decide) tail)
            apply behind_left later (by decide)
            · rw [expandDarwin_count, weight_append, weight_toDigits]
              omega
            · rw [elf_dollar instances fun use => is_digit use.1,
                elf_cons instances (by decide) (by decide)]
              rfl
          · refine @behind_same n k instances (d :: rest) _ ['$'] _ later
              (expandDarwin_dollar ⟨dollar, count⟩ is_digit)
              (elf_dollar instances fun use => is_digit use.1) (by simp) fun plain => ?_
            rw [Plain, if_pos rfl, if_neg (not_or.mpr ⟨dollar, count⟩), if_neg is_digit]
            exact plain

/-- A body whose argument uses are all of arguments that it declares. -/
theorem behind (small : n ≤ 10) (instances : Nat) : ∀ (size k : Nat) (body : Text),
    body.length ≤ size → (∀ u ∈ digits (body.take k), u < n) → Behind n instances k body := by
  intro size
  induction size with
  | zero =>
      intro k body empty _
      obtain rfl := List.eq_nil_of_length_eq_zero (Nat.le_zero.mp empty)
      exact ⟨Nat.le_refl _, Nat.le_refl _, fun _ _ => trivial⟩
  | succ size ih =>
      intro k body short below
      match body with
      | [] => exact ⟨Nat.le_refl _, Nat.le_refl _, fun _ _ => trivial⟩
      | c :: rest =>
          have shorter : ∀ j r, r.length ≤ rest.length → (∀ u ∈ digits (r.take j), u < n) →
              Behind n instances j r := fun j r fits =>
            ih j r (fits.trans (Nat.le_of_succ_le_succ short))
          by_cases dollar : c = '$'
          · subst dollar
            exact behind_dollar small shorter below
          · by_cases backslash : c = '\\'
            · subst backslash
              exact behind_backslash small shorter below
            · have later := shorter (k - 1) rest (Nat.le_refl _) (below_tail dollar below)
              refine @behind_same n k instances rest _ [c] _ later (expandDarwin_cons_of_ne dollar)
                (elf_cons instances dollar backslash) ?_ ?_
              · rw [← List.count_append]
                rfl
              · exact plain_cons dollar fun same => absurd same backslash

end Behind

/-- The rewritten body expands as before, whatever the arguments, where it is plain. -/
theorem expandNames_eq_iff {n instances k : Nat} {body : Text} (small : n ≤ 10)
    (below : ∀ u ∈ digits (body.take k), u < n) :
    (∀ args : List Text, args.length = n →
      expandNames args (names n) instances 0 (convert k body) = expandDarwin args body) ↔
      Plain (names n) k body := by
  constructor
  · intro same
    have all_ones := same (ones n) List.length_replicate
    have gap := behind small instances body.length k body (Nat.le_refl _) below
    refine gap.plain ?_ ?_
    · rw [elf, all_ones]
    · rw [elf, all_ones, slashes_expandDarwin]
  · intro plain args _
    exact expandNames_convert small k body plain below

end Stage90.Asm

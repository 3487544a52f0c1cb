import Stage90.Asm.Translate
import Stage90.Lib.Instances

/-!
# Macro expansion in the two dialects

Under Darwin a macro without parameters is expanded by the numbers of its arguments; the ELF
assembler expands by the names of the parameters.  `convert` is the rewriting of a body, of
which only the text up to a position is rewritten.  `Plain` bodies are those in which every
escape of either dialect is an argument use that has been rewritten.
-/

set_option autoImplicit false

namespace Stage90.Asm

open Lib

def digit (d : Char) : Nat := d.toNat - '0'.toNat

/-! ### The two expansions -/

section Expansion
variable (args : List Text)

/-- Darwin's expansion: `$$`, `$n` for the number of arguments, `$0` to `$9`. -/
def expandDarwin : Text → Text
  | c :: d :: rest =>
      if c = '$' then
        if d = '$' then '$' :: expandDarwin rest
        else if d = 'n' then Nat.toDigits 10 args.length ++ expandDarwin rest
        else if isDigit d then args.getD (digit d) [] ++ expandDarwin rest
        else c :: expandDarwin (d :: rest)
      else c :: expandDarwin (d :: rest)
  | short => short

variable (params : List Text) (instances : Nat)

/-- What the ELF assembler takes for part of a parameter's name. -/
def isIdentifier (c : Char) : Bool :=
  isLetter c || isDigit c || c == '_' || c == '$' || c == '.'

/-- What is behind a backslash: the count of the expansions, an argument or an empty
separator, and the number of characters that spell it. -/
def escape (rest : Text) : Option (Text × Nat) :=
  if rest.head? = some '@' then some (Nat.toDigits 10 instances, 1)
  else
    let name := rest.takeWhile isIdentifier
    if name ∈ params then some (args.getD (params.idxOf name) [], name.length)
    else if ['(', ')'] <+: rest then some ([], 2)
    else none

/-- The ELF assembler's expansion, some of the text being skipped as the spelling of an escape. -/
def expandNames : Nat → Text → Text
  | _, [] => []
  | skip + 1, _ :: rest => expandNames skip rest
  | 0, c :: rest =>
      if c = '\\' then
        match escape args params instances rest with
        | some (new, spelled) => new ++ expandNames spelled rest
        | none => c :: expandNames 0 rest
      else c :: expandNames 0 rest

/-- The ELF assembler refuses more arguments than there are parameters. -/
def expandGnu (body : Text) : Option Text :=
  if params.length < args.length then none else some (expandNames args params instances 0 body)

end Expansion

/-! ### The rewriting of a body -/

def digits : Text → List Nat
  | c :: d :: rest =>
      if c = '$' ∧ isDigit d then digit d :: digits rest else digits (d :: rest)
  | _ => []

def convert : Nat → Text → Text
  | k, c :: d :: rest =>
      if c = '$' ∧ isDigit d ∧ 2 ≤ k then
        '\\' :: 'p' :: d :: '\\' :: '(' :: ')' :: convert (k - 2) rest
      else c :: convert (k - 1) (d :: rest)
  | _, short => short

def names (n : Nat) : List Text := (List.range n).map param

/-- Whether the ELF assembler finds an escape behind a backslash. -/
def Escapes (params : List Text) (rest : Text) : Prop :=
  rest.head? = some '@' ∨ rest.takeWhile isIdentifier ∈ params ∨ ['(', ')'] <+: rest

instance (params : List Text) (rest : Text) : Decidable (Escapes params rest) :=
  inferInstanceAs (Decidable (_ ∨ _ ∨ _))

/-- No `$$`, no `$n`, no argument use behind the first characters and nothing that the ELF
assembler takes for an escape. -/
def Plain (params : List Text) : Nat → Text → Prop
  | k, c :: d :: rest =>
      if c = '$' then
        if d = '$' ∨ d = 'n' then False
        else if isDigit d then 2 ≤ k ∧ Plain params (k - 2) rest
        else Plain params (k - 1) (d :: rest)
      else (c = '\\' → ¬ Escapes params (convert (k - 1) (d :: rest))) ∧
        Plain params (k - 1) (d :: rest)
  | _, _ => True

/-! ### The names of the parameters -/

attribute [local simp] expandNames expandDarwin digits convert Plain

theorem digit_spelled : ∀ u < 10, digit (Char.ofNat (48 + u)) = u ∧
    param u = ['p', Char.ofNat (48 + u)] := by decide

theorem digit_of_isDigit {d : Char} (is_digit : isDigit d) :
    digit d < 10 ∧ param (digit d) = ['p', d] := by
  rw [isDigit, Bool.and_eq_true, decide_eq_true_iff, decide_eq_true_iff] at is_digit
  have low : 48 ≤ d.toNat := is_digit.1
  have high : d.toNat ≤ 57 := is_digit.2
  obtain ⟨u, below, at_u⟩ : ∃ u < 10, 48 + u = d.toNat := ⟨d.toNat - 48, by omega, by omega⟩
  have spelled := digit_spelled u below
  rw [at_u, Char.ofNat_toNat] at spelled
  rw [spelled.1]
  exact ⟨below, spelled.2⟩

theorem idxOf_names : ∀ n ≤ 10, ∀ u < n, (names n).idxOf (param u) = u := by decide +kernel

theorem param_mem_names {n u : Nat} (below : u < n) : param u ∈ names n :=
  List.mem_map_of_mem (List.mem_range.mpr below)

theorem nil_not_mem_names (n : Nat) : [] ∉ names n := by
  intro mem
  obtain ⟨u, _, empty⟩ := List.mem_map.mp mem
  exact absurd empty (List.cons_ne_nil 'p' _)

/-! ### One step of the ELF assembler's expansion -/

section Steps
variable {args params : List Text} {instances : Nat} {rest : Text}

theorem expandNames_skip (t : Text) :
    ∀ k, expandNames args params instances k t = expandNames args params instances 0 (t.drop k) := by
  induction t with
  | nil =>
      intro k
      rw [List.drop_nil, expandNames, expandNames]
  | cons c t ih =>
      intro k
      cases k with
      | zero => rfl
      | succ k => rw [expandNames, ih, List.drop_succ_cons]

theorem expandNames_escape {new : Text} {spelled : Nat}
    (escaped : escape args params instances rest = some (new, spelled)) :
    expandNames args params instances 0 ('\\' :: rest) =
      new ++ expandNames args params instances 0 (rest.drop spelled) := by
  rw [expandNames, if_pos rfl, escaped, ← expandNames_skip]

theorem escape_eq_none (no : ¬ Escapes params rest) :
    escape args params instances rest = none := by
  rw [Escapes, not_or, not_or] at no
  rw [escape, if_neg no.1]
  dsimp only
  rw [if_neg no.2.1, if_neg no.2.2]

theorem expandNames_backslash (no : ¬ Escapes params rest) :
    expandNames args params instances 0 ('\\' :: rest) =
      '\\' :: expandNames args params instances 0 rest := by
  rw [expandNames, if_pos rfl, escape_eq_none no]

theorem expandNames_cons {c : Char} (other : c ≠ '\\') :
    expandNames args params instances 0 (c :: rest) =
      c :: expandNames args params instances 0 rest := by
  rw [expandNames, if_neg other]

theorem expandNames_use {n : Nat} {d : Char} (is_digit : isDigit d) (below : digit d < n)
    (small : n ≤ 10) :
    expandNames args (names n) instances 0 ('\\' :: 'p' :: d :: '\\' :: '(' :: ')' :: rest) =
      args.getD (digit d) [] ++ expandNames args (names n) instances 0 rest := by
  have named := (digit_of_isDigit is_digit).2
  have identifier : isIdentifier d := by
    simp [isIdentifier, is_digit]
  have name : ('p' :: d :: '\\' :: '(' :: ')' :: rest).takeWhile isIdentifier = param (digit d) := by
    rw [named, List.takeWhile_cons_of_pos (by decide), List.takeWhile_cons_of_pos identifier,
      List.takeWhile_cons_of_neg (by decide)]
  have use : escape args (names n) instances ('p' :: d :: '\\' :: '(' :: ')' :: rest) =
      some (args.getD (digit d) [], 2) := by
    rw [escape, if_neg (by simp)]
    dsimp only
    rw [name, if_pos (param_mem_names below), idxOf_names n small _ below, named]
    rfl
  have separator : escape args (names n) instances ('(' :: ')' :: rest) = some ([], 2) := by
    rw [escape, if_neg (by simp)]
    dsimp only
    rw [List.takeWhile_cons_of_neg (by decide), if_neg (nil_not_mem_names n), if_pos (by simp)]
  rw [expandNames_escape use, List.drop_succ_cons, List.drop_succ_cons, List.drop_zero,
    expandNames_escape separator, List.nil_append]
  rfl

end Steps

/-! ### Plain bodies keep their expansion -/

theorem length_short {short : Text}
    (few : ∀ (c d : Char) (rest : List Char), short = c :: d :: rest → False) : short.length < 2 := by
  match short with
  | [] => decide
  | [_] => exact Nat.lt_succ_self 1
  | c :: d :: rest => exact absurd rfl (few c d rest)

section Convert
variable {k : Nat} {c d : Char} {rest : Text}

theorem convert_use (is_digit : isDigit d) (live : 2 ≤ k) :
    convert k ('$' :: d :: rest) = '\\' :: 'p' :: d :: '\\' :: '(' :: ')' :: convert (k - 2) rest := by
  rw [convert, if_pos ⟨rfl, is_digit, live⟩]

theorem convert_cons (no : ¬ (c = '$' ∧ isDigit d ∧ 2 ≤ k)) :
    convert k (c :: d :: rest) = c :: convert (k - 1) (d :: rest) := by
  rw [convert, if_neg no]

theorem convert_cons_of_ne (other : c ≠ '$') : convert k (c :: rest) = c :: convert (k - 1) rest := by
  cases rest with
  | nil => rfl
  | cons d rest => exact convert_cons fun use => other use.1

theorem expandDarwin_cons_of_ne {args : List Text} (other : c ≠ '$') :
    expandDarwin args (c :: rest) = c :: expandDarwin args rest := by
  cases rest with
  | nil => rfl
  | cons d rest => rw [expandDarwin, if_neg other]

theorem isDigit_ne (is_digit : isDigit d) : d ≠ '$' ∧ d ≠ 'n' := by
  constructor
  · intro same
    rw [same] at is_digit
    exact absurd is_digit (by decide)
  · intro same
    rw [same] at is_digit
    exact absurd is_digit (by decide)

theorem expandDarwin_pair {args : List Text} :
    expandDarwin args ('$' :: '$' :: rest) = '$' :: expandDarwin args rest := by
  rw [expandDarwin, if_pos rfl, if_pos rfl]

theorem expandDarwin_count {args : List Text} :
    expandDarwin args ('$' :: 'n' :: rest) =
      Nat.toDigits 10 args.length ++ expandDarwin args rest := by
  rw [expandDarwin, if_pos rfl, if_neg (by decide), if_pos rfl]

theorem expandDarwin_use {args : List Text} (is_digit : isDigit d) :
    expandDarwin args ('$' :: d :: rest) = args.getD (digit d) [] ++ expandDarwin args rest := by
  have other := isDigit_ne is_digit
  rw [expandDarwin, if_pos rfl, if_neg other.1, if_neg other.2, if_pos is_digit]

theorem expandDarwin_dollar {args : List Text} (no : ¬ d = '$' ∧ ¬ d = 'n') (not_digit : ¬ isDigit d) :
    expandDarwin args ('$' :: d :: rest) = '$' :: expandDarwin args (d :: rest) := by
  rw [expandDarwin, if_pos rfl, if_neg no.1, if_neg no.2, if_neg not_digit]

theorem digits_take_use {u : Nat} (is_digit : isDigit d) (live : 2 ≤ k) :
    u ∈ digits (('$' :: d :: rest).take k) ↔ u = digit d ∨ u ∈ digits (rest.take (k - 2)) := by
  obtain ⟨j, rfl⟩ : ∃ j, k = j + 2 := ⟨k - 2, by omega⟩
  rw [List.take_succ_cons, List.take_succ_cons, digits, if_pos ⟨rfl, is_digit⟩, List.mem_cons,
    Nat.add_sub_cancel]

theorem digits_take_cons {u : Nat} (no : ¬ (c = '$' ∧ isDigit d ∧ 2 ≤ k)) :
    u ∈ digits ((c :: d :: rest).take k) ↔ u ∈ digits ((d :: rest).take (k - 1)) := by
  match k with
  | 0 => exact Iff.rfl
  | 1 => exact Iff.rfl
  | j + 2 =>
      have no : ¬ (c = '$' ∧ isDigit d) := fun use => no ⟨use.1, use.2, by omega⟩
      rw [List.take_succ_cons, List.take_succ_cons, digits, if_neg no]
      rfl

end Convert

theorem digits_of_take {u : Nat} (k : Nat) (body : Text) :
    u ∈ digits (body.take k) → u ∈ digits body := by
  induction k, body using convert.induct with
  | case1 k c d rest use ih =>
      intro mem
      obtain ⟨rfl, is_digit, live⟩ := use
      rw [digits, if_pos ⟨rfl, is_digit⟩, List.mem_cons]
      exact ((digits_take_use is_digit live).mp mem).imp_right ih
  | case2 k c d rest no ih =>
      intro mem
      have later := ih ((digits_take_cons no).mp mem)
      rw [digits]
      split
      · rename_i use
        rw [List.mem_cons]
        cases rest with
        | nil => exact absurd later List.not_mem_nil
        | cons d' rest =>
            rw [digits, if_neg fun use' => absurd use'.1 (isDigit_ne use.2).1] at later
            exact Or.inr later
      · exact later
  | case3 k short few =>
      intro mem
      have count : (short.take k).length < 2 := by
        rw [List.length_take]
        exact Nat.lt_of_le_of_lt (Nat.min_le_right _ _) (length_short few)
      rw [digits] at mem
      · exact absurd mem List.not_mem_nil
      · intro c d rest same
        rw [same] at count
        simp only [List.length_cons] at count
        omega

theorem digits_lt_ten {u : Nat} (body : Text) : u ∈ digits body → u < 10 := by
  induction body using digits.induct with
  | case1 c d rest use ih =>
      intro mem
      rw [digits, if_pos use, List.mem_cons] at mem
      rcases mem with same | later
      · rw [same]
        exact (digit_of_isDigit use.2).1
      · exact ih later
  | case2 c d rest no ih =>
      intro mem
      rw [digits, if_neg no] at mem
      exact ih mem
  | case3 short few =>
      intro mem
      rw [digits] at mem
      · exact absurd mem List.not_mem_nil
      · exact few

theorem convert_take (k : Nat) (body : Text) :
    convert k (body.take k) ++ body.drop k = convert k body := by
  induction k, body using convert.induct with
  | case1 k c d rest use ih =>
      obtain ⟨rfl, is_digit, live⟩ := use
      obtain ⟨j, rfl⟩ : ∃ j, k = j + 2 := ⟨k - 2, by omega⟩
      rw [convert_use is_digit live, ← ih, List.take_succ_cons, List.take_succ_cons,
        convert_use is_digit live, List.drop_succ_cons, List.drop_succ_cons, Nat.add_sub_cancel]
      rfl
  | case2 k c d rest no ih =>
      rw [convert_cons no, ← ih]
      match k with
      | 0 => rfl
      | 1 => rfl
      | j + 2 =>
          rw [List.take_succ_cons, List.take_succ_cons, convert_cons no]
          rfl
  | case3 k short few =>
      match short with
      | [] => simp [convert]
      | [c] => cases k <;> simp [convert]
      | c :: d :: rest => exact absurd rfl (few c d rest)

theorem expandNames_convert {args : List Text} {n instances : Nat} (small : n ≤ 10) (k : Nat)
    (body : Text) : Plain (names n) k body → (∀ u ∈ digits (body.take k), u < n) →
      expandNames args (names n) instances 0 (convert k body) = expandDarwin args body := by
  induction k, body using convert.induct with
  | case1 k c d rest use ih =>
      intro plain below
      obtain ⟨rfl, is_digit, live⟩ := use
      have other := isDigit_ne is_digit
      rw [Plain, if_pos rfl, if_neg (not_or.mpr other), if_pos is_digit] at plain
      have here : digit d < n := below _ ((digits_take_use is_digit live).mpr (Or.inl rfl))
      have later : ∀ u ∈ digits (rest.take (k - 2)), u < n := fun u mem =>
        below u ((digits_take_use is_digit live).mpr (Or.inr mem))
      rw [convert_use is_digit live, expandNames_use is_digit here small, expandDarwin_use is_digit,
        ih plain.2 later]
  | case2 k c d rest no ih =>
      intro plain below
      have later : ∀ u ∈ digits ((d :: rest).take (k - 1)), u < n := fun u mem =>
        below u ((digits_take_cons no).mpr mem)
      rw [Plain] at plain
      rw [convert_cons no]
      by_cases dollar : c = '$'
      · subst dollar
        rw [if_pos rfl] at plain
        by_cases darwin : d = '$' ∨ d = 'n'
        · rw [if_pos darwin] at plain
          exact plain.elim
        · rw [if_neg darwin] at plain
          by_cases is_digit : isDigit d
          · rw [if_pos is_digit] at plain
            exact absurd ⟨rfl, is_digit, plain.1⟩ no
          · rw [if_neg is_digit] at plain
            rw [expandNames_cons (by decide), expandDarwin_dollar (not_or.mp darwin) is_digit, ih plain later]
      · rw [if_neg dollar] at plain
        rw [expandDarwin_cons_of_ne dollar, ← ih plain.2 later]
        by_cases backslash : c = '\\'
        · rw [backslash, expandNames_backslash (plain.1 backslash)]
        · rw [expandNames_cons backslash]
  | case3 k short few =>
      intro _ _
      match short with
      | [] => rfl
      | [c] =>
          have none : ¬ Escapes (names n) [] := by
            simp [Escapes, nil_not_mem_names]
          have same : convert k [c] = [c] := rfl
          rw [same]
          by_cases backslash : c = '\\'
          · rw [backslash, expandNames_backslash none]
            rfl
          · rw [expandNames_cons backslash]
            rfl
      | c :: d :: rest => exact absurd rfl (few c d rest)

end Stage90.Asm

import Mathlib.Algebra.GroupWithZero.Nat
import Mathlib.Data.List.Infix
import Stage90.Lib.Instances

/-!
# Text as Python's string methods see it

A text is a list of characters.  `count` counts from the left, without overlaps; a part that
begins with a character it does not repeat cannot overlap itself.
-/

set_option autoImplicit false

namespace Stage90.Lib

abbrev PyText := List Char

/-- `str.isspace`, which is also `\s` -/
def PyText.isSpace (c : Char) : Bool :=
  [0x09, 0x0A, 0x0B, 0x0C, 0x0D, 0x1C, 0x1D, 0x1E, 0x1F, 0x20, 0x85, 0xA0, 0x1680, 0x2028, 0x2029,
    0x202F, 0x205F, 0x3000].contains c.toNat || (0x2000 ≤ c.toNat && c.toNat ≤ 0x200A)

/-- What Python takes from the Unicode tables: `str.lower`, `str.upper`, the values of the
characters that are `\d`, and those that are `\w`. -/
structure Unicode where
  lower : PyText → PyText
  upper : PyText → PyText
  digit : Char → Option Nat
  word : Char → Bool
  lower_lower : ∀ text, lower (lower text) = lower text

theorem toLower_toLower (c : Char) : c.toLower.toLower = c.toLower := by
  have lowered : c.toLower.isUpper = false := by
    delta Char.isUpper Char.toLower
    split <;> grind [UInt32.toNat_add, Char.toNat_val]
  rw [Char.toLower.eq_def c.toLower]
  apply dif_neg
  intro upper
  delta Char.isUpper at lowered
  rw [decide_eq_true upper] at lowered
  cases lowered

def Unicode.ascii : Unicode where
  lower := List.map Char.toLower
  upper := List.map Char.toUpper
  digit c := if c.isDigit then some (c.toNat - '0'.toNat) else none
  word c := c.isAlphanum || c == '_'
  lower_lower text := by
    rw [List.map_map]
    exact List.map_congr_left fun c _ => toLower_toLower c

/-- What holds of the characters of a literal, without decoding it. -/
theorem of_chars {P : List Char → Prop} {s : String} (chars : List Char)
    (same : s = String.ofList chars) (holds : P chars) : P s.toList := by
  rw [same, String.toList_ofList]
  exact holds

namespace PyText

/-- `text.strip()` -/
def strip (text : PyText) : PyText :=
  ((text.dropWhile isSpace).reverse.dropWhile isSpace).reverse

/-- The words of a text behind the characters of a word that has begun. -/
def splitFrom (word : PyText) : PyText → List PyText
  | [] => if word = [] then [] else [word]
  | c :: text =>
      if isSpace c then (if word = [] then [] else [word]) ++ splitFrom [] text
      else splitFrom (word ++ [c]) text

/-- `text.split()` -/
def split (text : PyText) : List PyText := splitFrom [] text

/-- `text.split(c)` -/
def splitOn (c : Char) : PyText → List PyText
  | [] => [[]]
  | d :: text =>
      if d = c then [] :: splitOn c text
      else
        match splitOn c text with
        | [] => [[d]]
        | part :: parts => (d :: part) :: parts

/-- `part in text` -/
def within (part text : PyText) : Bool := text.tails.any part.isPrefixOf

theorem within_iff {part text : PyText} : within part text = true ↔ part <:+: text := by
  simp only [within, List.any_eq_true, List.mem_tails, List.isPrefixOf_iff_prefix]
  rw [List.infix_iff_prefix_suffix]
  exact exists_congr fun _ => and_comm

/-! ## `count` and `index` -/

/-- Occurrences from behind the first `skip` characters on. -/
def countFrom (part : PyText) : Nat → PyText → Nat
  | _, [] => 0
  | skip + 1, _ :: text => countFrom part skip text
  | 0, c :: text =>
      if part.isPrefixOf (c :: text) then countFrom part (part.length - 1) text + 1
      else countFrom part 0 text

/-- `text.count(part)`, for a part that is not empty -/
def count (part text : PyText) : Nat := countFrom part 0 text

/-- `text.index(part)`, `none` where that raises -/
def index (part : PyText) : PyText → Option Nat
  | [] => if part = [] then some 0 else none
  | c :: text =>
      if part.isPrefixOf (c :: text) then some 0 else (index part text).map (· + 1)

/-- `text.replace(part, new, 1)` -/
def replaceFirst (part new text : PyText) : PyText :=
  match index part text with
  | none => text
  | some i => text.take i ++ new ++ text.drop (i + part.length)

theorem index_of_infix {part text : PyText} (found : part <:+: text) :
    ∃ before after, text = before ++ (part ++ after) ∧ index part text = some before.length := by
  induction text with
  | nil => exact ⟨[], [], (List.infix_nil.mp found).symm ▸ rfl, if_pos (List.infix_nil.mp found)⟩
  | cons c text ih =>
      rw [index]
      split_ifs with here
      · obtain ⟨after, same⟩ := List.isPrefixOf_iff_prefix.mp here
        exact ⟨[], after, same.symm, rfl⟩
      · rcases List.infix_cons_iff.mp found with now | later
        · exact absurd (List.isPrefixOf_iff_prefix.mpr now) here
        · obtain ⟨before, after, split, there⟩ := ih later
          exact ⟨c :: before, after, by rw [split]; rfl, by rw [there]; rfl⟩

theorem infix_of_index {part text : PyText} : ∀ {i : Nat}, index part text = some i →
    part <:+: text := by
  induction text with
  | nil =>
      intro i found
      rw [index] at found
      split_ifs at found with empty
      exact empty ▸ List.infix_refl []
  | cons c text ih =>
      intro i found
      rw [index] at found
      split_ifs at found with here
      · exact (List.isPrefixOf_iff_prefix.mp here).isInfix
      · obtain ⟨j, later, _⟩ := Option.map_eq_some_iff.mp found
        exact (ih later).trans (List.suffix_cons c text).isInfix

theorem replaceFirst_of_index {part text new : PyText} {i : Nat} (found : index part text = some i) :
    replaceFirst part new text = text.take i ++ new ++ text.drop (i + part.length) := by
  rw [replaceFirst, found]

theorem replaceFirst_of_absent {part text new : PyText} (free : ¬ part <:+: text) :
    replaceFirst part new text = text := by
  rw [replaceFirst]
  cases found : index part text with
  | none => rfl
  | some i => exact absurd (infix_of_index found) free

theorem new_infix_replaceFirst {old new text : PyText} (found : old <:+: text) :
    new <:+: replaceFirst old new text := by
  obtain ⟨before, after, _, at_⟩ := index_of_infix found
  rw [replaceFirst_of_index at_]
  exact List.infix_append _ _ _

theorem mem_replaceFirst {old new text : PyText} {c : Char} (member : c ∈ replaceFirst old new text) :
    c ∈ text ∨ c ∈ new := by
  unfold replaceFirst at member
  split at member
  · exact .inl member
  · rw [List.mem_append, List.mem_append] at member
    rcases member with (front | middle) | back
    · exact .inl (List.mem_of_mem_take front)
    · exact .inr middle
    · exact .inl (List.mem_of_mem_drop back)

theorem countFrom_pos_of_infix {part text : PyText} (some_ : part ≠ []) (found : part <:+: text) :
    0 < count part text := by
  induction text with
  | nil => exact absurd (List.infix_nil.mp found) some_
  | cons c text ih =>
      rw [count, countFrom]
      split_ifs with here
      · exact Nat.succ_pos _
      · rcases List.infix_cons_iff.mp found with now | later
        · exact absurd (List.isPrefixOf_iff_prefix.mpr now) here
        · exact ih later

theorem infix_of_countFrom {part : PyText} : ∀ {text : PyText} {skip : Nat},
    0 < countFrom part skip text → part <:+: text := by
  intro text
  induction text with
  | nil =>
      intro skip positive
      rw [countFrom] at positive
      exact absurd positive (Nat.lt_irrefl 0)
  | cons c text ih =>
      intro skip positive
      cases skip with
      | succ skip => exact (ih positive).trans (List.suffix_cons c text).isInfix
      | zero =>
          rw [countFrom] at positive
          split_ifs at positive with here
          · exact (List.isPrefixOf_iff_prefix.mp here).isInfix
          · exact (ih positive).trans (List.suffix_cons c text).isInfix

theorem infix_of_once {part text : PyText} (once : count part text = 1) : part <:+: text :=
  @infix_of_countFrom part text 0 (Nat.lt_of_lt_of_eq Nat.one_pos once.symm)

theorem count_eq_zero_iff {part text : PyText} (some_ : part ≠ []) :
    count part text = 0 ↔ ¬ part <:+: text := by
  rw [← not_iff_not, not_not, ← Ne, ← Nat.pos_iff_ne_zero]
  exact ⟨infix_of_countFrom, countFrom_pos_of_infix some_⟩

theorem countFrom_skip (part : PyText) : ∀ (skip : Nat) (text : PyText),
    countFrom part skip text = count part (text.drop skip)
  | 0, _ => rfl
  | _ + 1, [] => rfl
  | skip + 1, _ :: text => countFrom_skip part skip text

theorem count_leading {part : PyText} (some_ : part ≠ []) (rest : PyText) :
    count part (part ++ rest) = count part rest + 1 := by
  obtain ⟨c, body, rfl⟩ := List.exists_cons_of_ne_nil some_
  have leads : (c :: body).isPrefixOf (c :: (body ++ rest)) = true :=
    List.isPrefixOf_iff_prefix.mpr (List.prefix_append (c :: body) rest)
  rw [List.cons_append, count, countFrom, if_pos leads, countFrom_skip, List.length_cons,
    Nat.add_sub_cancel, List.drop_left]

/-! ## A character that is not in the part -/

section Separator
variable {part xs ys : PyText} {c : Char}

theorem prefix_separator (apart : c ∉ part) : part <+: xs ++ c :: ys ↔ part <+: xs := by
  constructor
  · intro leads
    rcases List.prefix_or_prefix_of_prefix leads (List.prefix_append xs (c :: ys)) with
      short | ⟨rest, same⟩
    · exact short
    · subst same
      cases rest with
      | nil => simp
      | cons d rest =>
          rw [List.prefix_append_right_inj] at leads
          obtain ⟨rfl, _⟩ := List.cons_prefix_cons.mp leads
          exact absurd (by simp) apart
  · exact fun leads => leads.trans (List.prefix_append _ _)

theorem infix_separator (apart : c ∉ part) (some_ : part ≠ []) :
    part <:+: xs ++ c :: ys ↔ part <:+: xs ∨ part <:+: ys := by
  induction xs with
  | nil =>
      rw [List.nil_append, List.infix_cons_iff, List.infix_nil]
      refine or_congr_left ⟨fun leads => ?_, fun empty => absurd empty some_⟩
      exact List.prefix_nil.mp (@prefix_separator part [] ys c apart |>.mp leads)
  | cons d xs ih =>
      rw [List.cons_append, List.infix_cons_iff, List.infix_cons_iff, ih, ← List.cons_append,
        prefix_separator apart, or_assoc]

theorem countFrom_separator (apart : c ∉ part) (some_ : part ≠ []) :
    ∀ {skip : Nat}, skip ≤ xs.length →
      countFrom part skip (xs ++ c :: ys) = countFrom part skip xs + count part ys := by
  induction xs with
  | nil =>
      intro skip short
      obtain rfl := Nat.le_zero.mp short
      have blocked : part.isPrefixOf (c :: ys) = false := by
        rw [Bool.eq_false_iff, Ne, List.isPrefixOf_iff_prefix]
        intro leads
        exact some_ (List.prefix_nil.mp (@prefix_separator part [] ys c apart |>.mp leads))
      have past : countFrom part 0 (c :: ys) = countFrom part 0 ys := by
        rw [countFrom, if_neg (Bool.eq_false_iff.mp blocked)]
      rw [List.nil_append, past, countFrom, Nat.zero_add, count]
  | cons d xs ih =>
      intro skip short
      cases skip with
      | succ skip => exact ih (Nat.le_of_succ_le_succ short)
      | zero =>
          have same : part.isPrefixOf (d :: (xs ++ c :: ys)) = part.isPrefixOf (d :: xs) := by
            rw [Bool.eq_iff_iff, List.isPrefixOf_iff_prefix, List.isPrefixOf_iff_prefix]
            exact @prefix_separator part (d :: xs) ys c apart
          rw [List.cons_append, countFrom, countFrom, same]
          split_ifs with leads
          · have inside : part.length - 1 ≤ xs.length := by
              have := (List.isPrefixOf_iff_prefix.mp leads).length_le
              rw [List.length_cons] at this
              omega
            rw [ih inside, Nat.add_right_comm]
          · exact ih (Nat.zero_le _)

theorem count_separator (apart : c ∉ part) (some_ : part ≠ []) :
    count part (xs ++ c :: ys) = count part xs + count part ys :=
  countFrom_separator apart some_ (Nat.zero_le _)

end Separator

/-! ## A stretch that a part keeps off -/

/-- Whether `part` cannot begin in the text, whatever follows it. -/
def keepsOff (part text : PyText) : Bool :=
  text.tails.all fun rest => rest.isEmpty || !(rest.isPrefixOf part || part.isPrefixOf rest)

/-- Whether `part` neither begins nor ends in the text, nor spans it. -/
def avoids (part text : PyText) : Bool := keepsOff part text && keepsOff text part

section Avoids
variable {part between new xs ys : PyText}

theorem keepsOff_iff {text : PyText} : keepsOff part text = true ↔
    ∀ rest, rest <:+ text → rest ≠ [] → ¬ rest <+: part ∧ ¬ part <+: rest := by
  simp only [keepsOff, List.all_eq_true, List.mem_tails, Bool.or_eq_true, List.isEmpty_iff,
    Bool.not_eq_true', Bool.eq_false_iff, ne_eq, List.isPrefixOf_iff_prefix]
  exact forall₂_congr fun rest _ => by rw [or_iff_not_imp_left, not_or]

theorem not_prefix_of_keepsOff (off : keepsOff part between = true) (some_ : between ≠ []) :
    ¬ part <+: between ++ ys := by
  intro leads
  obtain ⟨short, long⟩ := keepsOff_iff.mp off between List.suffix_rfl some_
  rcases List.prefix_or_prefix_of_prefix leads (List.prefix_append between ys) with inside | across
  · exact long inside
  · exact short across

theorem count_keepsOff (off : keepsOff part between = true) :
    count part (between ++ ys) = count part ys := by
  induction between with
  | nil => rfl
  | cons c between ih =>
      have later : keepsOff part between = true := by
        rw [keepsOff_iff] at off ⊢
        exact fun rest ends => off rest (ends.trans (List.suffix_cons c between))
      have past : ¬ part.isPrefixOf (c :: (between ++ ys)) = true := by
        rw [List.isPrefixOf_iff_prefix, ← List.cons_append]
        exact not_prefix_of_keepsOff off (List.cons_ne_nil c between)
      rw [List.cons_append, count, countFrom, if_neg past]
      exact ih later

theorem prefix_keepsOff (off : keepsOff between part = true) :
    part <+: xs ++ (between ++ ys) ↔ part <+: xs := by
  refine ⟨fun leads => ?_, fun leads => leads.trans (List.prefix_append xs _)⟩
  rcases List.prefix_or_prefix_of_prefix leads (List.prefix_append xs (between ++ ys)) with
    inside | ⟨rest, same⟩
  · exact inside
  · subst same
    by_cases none_ : rest = []
    · rw [none_, List.append_nil]
    · rw [List.prefix_append_right_inj] at leads
      obtain ⟨short, long⟩ := keepsOff_iff.mp off rest (List.suffix_append xs rest) none_
      rcases List.prefix_or_prefix_of_prefix leads (List.prefix_append between ys) with
        ends | spans
      · exact absurd ends short
      · exact absurd spans long

theorem countFrom_keepsOff (off : keepsOff between part = true) :
    ∀ {skip : Nat}, skip ≤ xs.length →
      countFrom part skip (xs ++ (between ++ ys)) =
        countFrom part skip xs + count part (between ++ ys) := by
  induction xs with
  | nil =>
      intro skip short
      obtain rfl := Nat.le_zero.mp short
      rw [List.nil_append, countFrom, Nat.zero_add, count]
  | cons c xs ih =>
      intro skip short
      cases skip with
      | succ skip => exact ih (Nat.le_of_succ_le_succ short)
      | zero =>
          have same : part.isPrefixOf (c :: (xs ++ (between ++ ys))) = part.isPrefixOf (c :: xs) := by
            rw [Bool.eq_iff_iff, List.isPrefixOf_iff_prefix, List.isPrefixOf_iff_prefix]
            exact @prefix_keepsOff part between (c :: xs) ys off
          rw [List.cons_append, countFrom, countFrom, same]
          split_ifs with leads
          · have inside : part.length - 1 ≤ xs.length := by
              have := (List.isPrefixOf_iff_prefix.mp leads).length_le
              rw [List.length_cons] at this
              omega
            rw [ih inside, Nat.add_right_comm]
          · exact ih (Nat.zero_le _)

theorem count_avoids (apart : avoids part between = true) :
    count part (xs ++ (between ++ ys)) = count part xs + count part ys := by
  rw [avoids, Bool.and_eq_true] at apart
  rw [count, countFrom_keepsOff apart.2 (Nat.zero_le _), count_keepsOff apart.1]
  rfl

/-- A replacement that neither text has to do with. -/
theorem count_replaceFirst {old text : PyText} (leaves : avoids part old = true)
    (brings : avoids part new = true) : count part (replaceFirst old new text) = count part text := by
  by_cases found : old <:+: text
  · obtain ⟨before, after, rfl, at_⟩ := index_of_infix found
    rw [replaceFirst_of_index at_, List.take_left, ← List.drop_drop, List.drop_left, List.drop_left,
      List.append_assoc, count_avoids leaves, count_avoids brings]
  · rw [replaceFirst_of_absent found]

/-- The part once between two stretches that are free of it. -/
theorem count_around {front back : PyText} (some_ : part ≠ []) (off : avoids part front = true)
    (off' : keepsOff part back = true) :
    count part (xs ++ (front ++ (part ++ (back ++ ys)))) = count part xs + 1 + count part ys := by
  rw [count_avoids off, count_leading some_, count_keepsOff off']
  omega

end Avoids

/-! ## A part that cannot overlap itself -/

section Once
variable {c : Char} {body text : PyText}

theorem countFrom_eq_countP (fresh : c ∉ body) : ∀ {text : PyText} {skip : Nat},
    (∀ j, j < skip → text[j]? ≠ some c) →
      countFrom (c :: body) skip text = text.tails.countP (c :: body).isPrefixOf := by
  intro text
  induction text with
  | nil => simp [countFrom]
  | cons d text ih =>
      intro skip free
      rw [List.tails_cons, List.countP_cons]
      cases skip with
      | succ skip =>
          have other : d ≠ c := fun same => free 0 (Nat.succ_pos _) (by simp [same])
          rw [countFrom, ih fun j short => free (j + 1) (Nat.succ_lt_succ short)]
          simp [List.isPrefixOf, Ne.symm other]
      | zero =>
          rw [countFrom]
          split_ifs with leads
          · rw [ih fun j short same => ?_]
            obtain ⟨rest, split⟩ := List.isPrefixOf_iff_prefix.mp leads
            obtain ⟨_, onward⟩ := List.cons.inj split
            have inside : j < body.length := by simpa using short
            rw [← onward, List.append_eq, List.getElem?_append_left inside] at same
            exact fresh (List.mem_of_getElem? same)
          · rw [ih fun j short => absurd short (Nat.not_lt_zero j), Nat.add_zero]

theorem count_once (fresh : c ∉ body) (once : count (c :: body) text = 1) {xs ys xs' ys' : PyText}
    (first : text = xs ++ c :: body ++ ys) (second : text = xs' ++ c :: body ++ ys') :
    xs = xs' ∧ ys = ys' := by
  rw [count, countFrom_eq_countP fresh fun j short => absurd short (Nat.not_lt_zero j), List.countP_eq_length_filter,
    List.length_eq_one_iff] at once
  obtain ⟨only, filtered⟩ := once
  have found : ∀ {as bs : PyText}, text = as ++ c :: body ++ bs → c :: body ++ bs = only := by
    intro as bs split
    have member : c :: body ++ bs ∈ text.tails.filter (c :: body).isPrefixOf := by
      rw [List.mem_filter, List.mem_tails, List.isPrefixOf_iff_prefix]
      exact ⟨⟨as, by rw [split, List.append_assoc]⟩, List.prefix_append _ _⟩
    exact List.mem_singleton.mp (filtered ▸ member)
  have same : c :: body ++ ys = c :: body ++ ys' := (found first).trans (found second).symm
  have rest : ys = ys' := List.append_cancel_left same
  subst rest
  rw [first, List.append_left_inj, List.append_left_inj] at second
  exact ⟨second, rfl⟩

end Once

end PyText

end Stage90.Lib

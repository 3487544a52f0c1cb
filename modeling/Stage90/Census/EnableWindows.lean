import Stage90.Lib.OpenStack
import Stage90.Lib.PyText
import Stage90.Lib.Regex

/-!
# The census of the enable windows

`report_int_enable_windows.py`: the stores to `INT_ENABLE` and the assignments that build a word
for one, each with its function and the threshold that guards it.  The two tables are Python's
own, of the characters that `str.isalnum` holds of and of the decimal digits.
-/

set_option autoImplicit false

namespace Stage90.Census

open Stage90.Lib

section Scanner
variable (alnum : Char → Bool) (decimal : Char → Option Nat)

/-! ## The lines that the patterns match -/

def isWordChar (c : Char) : Bool := alnum c || c == '_'

def isLetter (c : Char) : Bool := ('A' ≤ c && c ≤ 'Z') || ('a' ≤ c && c ≤ 'z') || c == '_'

def isIdent (c : Char) : Bool := isLetter c || ('0' ≤ c && c ≤ '9')

/-- `re.match`; no pattern here asks for the edge of a word. -/
def matches_ (r : Re) (text : PyText) : Option Match := r.matchAt (fun _ => false) text 0

/-- The ends of `p+?`, the shortest first. -/
def few (p : Char → Bool) (text : PyText) (start : Nat) : List Nat :=
  (List.range (Re.runLength p (text.drop start))).map fun k => start + k + 1

/-- `STAGE90_XNU_STORAGE_PROBE\s*>=\s*(\d+)` -/
def thresholdRe : Re :=
  .seqs [.lit "STAGE90_XNU_STORAGE_PROBE", .many PyText.isSpace, .lit ">=",
    .many PyText.isSpace, .group 1 (.plus fun c => (decimal c).isSome)]

/-- `int` of a run of digits. -/
def number (digits : PyText) : Nat :=
  digits.foldl (fun n c => n * 10 + (decimal c).getD 0) 0

def guardOf (line : PyText) : Option Nat :=
  (matches_ (.seqs [.lit "#if", .plus PyText.isSpace, thresholdRe decimal]) line).map fun m =>
    number decimal (m.group line 1)

def optional (r : Re) : Re := .alt r .empty

/-- `FUNC`: the name, where it is not a keyword. -/
def funcOf (line : PyText) : Option PyText :=
  let head := Re.seqs
    [optional (.seqs [.lit "static", .plus PyText.isSpace]),
      optional (.seqs [.lit "__attribute__((", .many (· != ')'), .lit "))", .plus PyText.isSpace])]
  let tail := Re.seqs
    [.group 1 (.plus (isWordChar alnum)), .many PyText.isSpace, .lit "(", .many (· != ';'),
      .lit ")", .many PyText.isSpace, .lineEnd]
  let between (c : Char) := isWordChar alnum c || c == ' ' || c == '*'
  let found := (Re.run (fun _ => false) line head 0 []).flatMap fun h =>
    (few between line h.1).flatMap fun i => Re.run (fun _ => false) line tail i []
  match found.head? with
  | none => none
  | some last =>
      let name := Match.group line ⟨0, last.1, last.2⟩ 1
      if name ∈ ["if", "for", "while", "switch", "return"].map String.toList then none
      else some name

/-- `STORE`: the expression stored. -/
def storeOf (line : PyText) : Option PyText :=
  let head := Re.seqs
    [.lit "st_write32(", .many PyText.isSpace, .lit "ST_HC_MEM_BASE", .many PyText.isSpace,
      .lit "+", .many PyText.isSpace, .lit "ST_SDHCI_INT_ENABLE", .many PyText.isSpace, .lit ",",
      .many PyText.isSpace]
  let tail := Re.seqs [.many PyText.isSpace, .lit ");"]
  (List.range (line.length + 1)).findSome? fun start =>
    ((Re.run (fun _ => false) line head start []).flatMap fun h =>
      (few (· != '\n') line h.1).flatMap fun stop =>
        (Re.run (fun _ => false) line tail stop []).map fun _ =>
          PyText.strip (slice line h.1 stop)).head?

/-- `ASSIGN`: the name and the expression. -/
def assignOf (line : PyText) : Option (PyText × PyText) :=
  let head := Re.seqs
    [.many PyText.isSpace, .group 1 (.seq (.one isLetter) (.many isIdent)),
      .many PyText.isSpace, .lit "=", .many PyText.isSpace]
  ((Re.run (fun _ => false) line head 0 []).flatMap fun h =>
    (few (· != '\n') line h.1).flatMap fun stop =>
      (Re.run (fun _ => false) line (.lit ";") stop []).map fun _ =>
        (Match.group line ⟨0, h.1, h.2⟩ 1, slice line h.1 stop)).head?

/-! ## What an expression is -/

inductive Kind
  | constant (word : PyText)
  | literal
  | zero
  | passthrough
  | other
  deriving DecidableEq

def wordNames : List PyText :=
  ["ST_SDHCI_INT_RESPONSE", "ST_SDHCI_INT_ENABLE_CMD"].map String.toList

def isIdentifier (text : PyText) : Bool :=
  match text with
  | [] => false
  | c :: rest => isLetter c && rest.all isIdent

def castRule : Rule where
  pattern := .seqs [.lit "(", .oneOf ["uint32_t", "u32"], .lit ")"]
  new _ _ := []

def hexRe : Re :=
  .seqs [.lit "0", .one fun c => c == 'x' || c == 'X',
    .one fun c => ('0' ≤ c && c ≤ '9') || ('a' ≤ c && c ≤ 'f') || ('A' ≤ c && c ≤ 'F')]

/-- Read "per operand". -/
def classify (expr : PyText) : Kind :=
  let parts := (expr.splitOn '|').map fun q =>
    PyText.strip (castRule.subn (fun _ => false) q).1
  match parts.find? (· ∈ wordNames) with
  | some name => .constant name
  | none =>
      if parts.any fun q => (hexRe.search (fun _ => false) q 0).isSome then .literal
      else if parts.all fun q => decide (q ∈ ["0", "0u", "0U"].map String.toList) then .zero
      else if parts.all fun q => isIdentifier q || q == ['0'] then .passthrough
      else .other

/-! ## The scan -/

/-- `guard` is kept by `windows`; `assignments` takes the greatest of the stack anew. -/
structure Scan where
  func : PyText
  guard : Option Nat
  stack : List Nat

def scanStart : Scan := ⟨"(none)".toList, none, []⟩

def bracketOf (line : PyText) : Bracket Nat :=
  match guardOf decimal line with
  | some threshold => .opening threshold
  | none => if "#endif".toList.isPrefixOf line then .closing else .neither

def place (s : Scan) (line : PyText) : Scan :=
  let stack := stackStep (bracketOf decimal) s.stack line
  let guard := if bracketOf decimal line = .neither then s.guard else stack.max?
  let indented := line.head?.any fun c => c == ' ' || c == '\t'
  ⟨if indented then s.func else (funcOf alnum line).getD s.func, guard, stack⟩

def rowsOf {R : Type} (row : Nat → Scan → PyText → Option R) :
    Nat → Scan → List PyText → List R
  | _, _, [] => []
  | n, s, line :: lines =>
      (row n (place alnum decimal s line) line).toList ++
        rowsOf row (n + 1) (place alnum decimal s line) lines

def linesOf (text : PyText) : List PyText := text.splitOn '\n'

structure Store where
  line : Nat
  func : PyText
  guard : Option Nat
  expr : PyText
  kind : Kind

def storeRow (n : Nat) (s : Scan) (line : PyText) : Option Store :=
  (storeOf line).map fun expr => ⟨n, s.func, s.guard, expr, classify expr⟩

def windows (text : PyText) : List Store :=
  rowsOf alnum decimal storeRow 1 scanStart (linesOf text)

structure Assignment where
  line : Nat
  func : PyText
  guard : Option Nat
  name : PyText
  expr : PyText
  kind : Kind

/-- An assignment that builds a word: its name, its expression and what that is. -/
def buildsWord (line : PyText) : Option (PyText × PyText × Kind) :=
  match assignOf line with
  | none => none
  | some (name, expr) =>
      if wordNames.any fun w => PyText.within w expr then
        match classify expr with
        | .constant w => some (name, PyText.strip expr, .constant w)
        | .literal => some (name, PyText.strip expr, .literal)
        | _ => none
      else none

def assignRow (n : Nat) (s : Scan) (line : PyText) : Option Assignment :=
  (buildsWord line).map fun built =>
    ⟨n, s.func, s.stack.max?, built.1, built.2.1, built.2.2⟩

def assignments (text : PyText) : List Assignment :=
  rowsOf alnum decimal assignRow 1 scanStart (linesOf text)

/-! ## The conditionals of a text -/

def directive (line : PyText) : Option (PyText × PyText) :=
  match line.dropWhile PyText.isSpace with
  | '#' :: rest =>
      let rest := rest.dropWhile PyText.isSpace
      some (rest.takeWhile isIdent, rest.dropWhile isIdent)
  | _ => none

def thresholdOf (condition : PyText) : Option Nat :=
  (matches_ (.seq (.many PyText.isSpace) (thresholdRe decimal)) condition).map fun m =>
    number decimal (m.group condition 1)

def conditional (line : PyText) : Bracket (Option Nat) :=
  match directive line with
  | none => .neither
  | some (name, rest) =>
      if name = "if".toList then .opening (thresholdOf decimal rest)
      else if name = "ifdef".toList ∨ name = "ifndef".toList then .opening none
      else if name = "endif".toList then .closing
      else .neither

/-- An `#else`, or an `#elif`, which ends the true branch just so. -/
def turns (line : PyText) : Bool :=
  (directive line).any fun d => d.1 == "else".toList || d.1 == "elif".toList

/-- Every `#endif` and every `#else` has its conditional, and every conditional its `#endif`. -/
def Balanced (lines : List PyText) : Prop :=
  NeverBelow (conditional decimal) 0 lines ∧
    openings (conditional decimal) lines = closings (conditional decimal) lines ∧
    ∀ k line, lines[k]? = some line → turns line = true →
      closings (conditional decimal) (lines.take k) < openings (conditional decimal) (lines.take k)

/-- The thresholds whose true branch is open behind the lines: what follows has not closed the
conditional, and every `#else` there is of a conditional within it. -/
def Encloses (above : List PyText) : Set Nat :=
  {threshold | ∃ before line after, above = before ++ line :: after ∧
    conditional decimal line = .opening (some threshold) ∧
    NeverBelow (conditional decimal) 0 after ∧
    ∀ k other, after[k]? = some other → turns other = true →
      closings (conditional decimal) (after.take k) <
        openings (conditional decimal) (after.take k)}

/-! ## What the rows say -/

def Kept (lines : List PyText) : Set Nat := {threshold | Held (bracketOf decimal) lines threshold}

def Listed (line : PyText) : Prop :=
  (storeOf line).isSome = true ∨ (buildsWord line).isSome = true

variable {alnum decimal}

theorem place_stack (lines : List PyText) : ∀ (s : Scan),
    (lines.foldl (place alnum decimal) s).stack =
      lines.foldl (stackStep (bracketOf decimal)) s.stack := by
  induction lines with
  | nil => exact fun _ => rfl
  | cons line lines ih => exact fun s => ih _

theorem place_guard {s : Scan} (same : s.guard = s.stack.max?) (line : PyText) :
    (place alnum decimal s line).guard = (place alnum decimal s line).stack.max? := by
  simp only [place]
  split_ifs with plain
  · rw [same, stackStep, plain]
  · rfl

theorem foldl_guard (lines : List PyText) : ∀ {s : Scan}, s.guard = s.stack.max? →
    (lines.foldl (place alnum decimal) s).guard =
      (lines.foldl (place alnum decimal) s).stack.max? := by
  induction lines with
  | nil => exact fun same => same
  | cons line lines ih => exact fun same => ih (place_guard same line)

theorem mem_rowsOf {R : Type} {row : Nat → Scan → PyText → Option R} {r : R}
    (lines : List PyText) : ∀ {n : Nat} {s : Scan},
    r ∈ rowsOf alnum decimal row n s lines ↔ ∃ k line, lines[k]? = some line ∧
      row (n + k) ((lines.take (k + 1)).foldl (place alnum decimal) s) line = some r := by
  induction lines with
  | nil => simp [rowsOf]
  | cons first lines ih =>
      intro n s
      rw [rowsOf, List.mem_append, Option.mem_toList, ih]
      constructor
      · rintro (now | ⟨k, line, there, later⟩)
        · exact ⟨0, first, rfl, now⟩
        · exact ⟨k + 1, line, there, by rw [← later]; congr 1; omega⟩
      · rintro ⟨k, line, there, now⟩
        cases k with
        | zero => exact .inl (Option.some.inj there ▸ now)
        | succ k => exact .inr ⟨k, line, there, by rw [← now]; congr 1; omega⟩

theorem names_kept (lines : List PyText) (s : Set Nat) :
    Names ((lines.foldl (place alnum decimal) scanStart).stack.max?) s ↔
      (∀ t ∈ Kept decimal lines, ∃ u ∈ s, t ≤ u) ∧ ∀ u ∈ s, ∃ t ∈ Kept decimal lines, u ≤ t := by
  rw [max?_names_iff, place_stack]
  simp only [Kept, Set.mem_ofPred_eq, ← mem_stack, scanStart]

theorem windows_guard {text : PyText} {named : Nat → Option Nat → Prop} :
    (∀ row ∈ windows alnum decimal text, named row.line row.guard) ↔
      ∀ k line, (linesOf text)[k]? = some line → (storeOf line).isSome = true →
        named (1 + k) (((linesOf text).take (k + 1)).foldl (place alnum decimal)
          scanStart).stack.max? := by
  constructor
  · intro every k line there found
    obtain ⟨expr, stored⟩ := Option.isSome_iff_exists.mp found
    have row := every _ ((mem_rowsOf _).mpr ⟨k, line, there, by rw [storeRow, stored]; rfl⟩)
    rwa [← foldl_guard _ rfl]
  · intro every row member
    obtain ⟨k, line, there, same⟩ := (mem_rowsOf _).mp member
    obtain ⟨expr, stored, rfl⟩ := Option.map_eq_some_iff.mp same
    rw [foldl_guard _ rfl]
    exact every k line there (by rw [stored]; rfl)

theorem assignments_guard {text : PyText} {named : Nat → Option Nat → Prop} :
    (∀ row ∈ assignments alnum decimal text, named row.line row.guard) ↔
      ∀ k line, (linesOf text)[k]? = some line → (buildsWord line).isSome = true →
        named (1 + k) (((linesOf text).take (k + 1)).foldl (place alnum decimal)
          scanStart).stack.max? := by
  constructor
  · intro every k line there found
    obtain ⟨built, builds⟩ := Option.isSome_iff_exists.mp found
    exact every _ ((mem_rowsOf _).mpr ⟨k, line, there, by rw [assignRow, builds]; rfl⟩)
  · intro every row member
    obtain ⟨k, line, there, same⟩ := (mem_rowsOf _).mp member
    obtain ⟨built, builds, rfl⟩ := Option.map_eq_some_iff.mp same
    exact every k line there (by rw [builds]; rfl)

/-- The rows name the right threshold exactly where, at each of their lines, the thresholds kept
and those that enclose the line have the same greatest. -/
theorem census_thresholds (alnum : Char → Bool) (decimal : Char → Option Nat) (text : PyText) :
    ((∀ row ∈ windows alnum decimal text,
        Names row.guard (Encloses decimal ((linesOf text).take (row.line - 1)))) ∧
      ∀ row ∈ assignments alnum decimal text,
        Names row.guard (Encloses decimal ((linesOf text).take (row.line - 1)))) ↔
      ∀ k line, (linesOf text)[k]? = some line → Listed line →
        (∀ t ∈ Kept decimal ((linesOf text).take (k + 1)),
          ∃ u ∈ Encloses decimal ((linesOf text).take k), t ≤ u) ∧
        ∀ u ∈ Encloses decimal ((linesOf text).take k),
          ∃ t ∈ Kept decimal ((linesOf text).take (k + 1)), u ≤ t := by
  let named (n : Nat) (guard : Option Nat) :=
    Names guard (Encloses decimal ((linesOf text).take (n - 1)))
  rw [@windows_guard alnum decimal text named, @assignments_guard alnum decimal text named]
  simp only [named, names_kept, Nat.add_sub_cancel_left, Listed]
  constructor
  · rintro ⟨stores, builds⟩ k line there (stored | built)
    · exact stores k line there stored
    · exact builds k line there built
  · intro every
    exact ⟨fun k line there stored => every k line there (.inl stored),
      fun k line there built => every k line there (.inr built)⟩

/-! ## Where the scan follows the conditionals -/

theorem kept_eq_encloses {lines : List PyText}
    (same : ∀ line ∈ lines, conditional decimal line = (bracketOf decimal line).map some ∧
      turns line = false) : Kept decimal lines = Encloses decimal lines := by
  ext threshold
  constructor
  · rintro ⟨before, line, after, rfl, opening, never⟩
    have later : ∀ other ∈ after, conditional decimal other = (bracketOf decimal other).map some ∧
        turns other = false := fun other member => same other (by simp [member])
    refine ⟨before, line, after, rfl, ?_, (neverBelow_congr fun a m => (later a m).1).mpr never, ?_⟩
    · rw [(same line (by simp)).1, opening]
      rfl
    · intro k other there turned
      exact absurd turned (by simp [(later other (List.mem_of_getElem? there)).2])
  · rintro ⟨before, line, after, rfl, opening, never, _⟩
    have later : ∀ other ∈ after, conditional decimal other =
        (bracketOf decimal other).map some := fun other member => (same other (by simp [member])).1
    refine ⟨before, line, after, rfl, ?_, (neverBelow_congr later).mp never⟩
    rw [(same line (by simp)).1] at opening
    cases found : bracketOf decimal line with
    | opening t =>
        rw [found] at opening
        exact congrArg Bracket.opening (Option.some.inj (Bracket.opening.inj opening))
    | closing => exact absurd (found ▸ opening) nofun
    | neither => exact absurd (found ▸ opening) nofun

/-- Where every conditional is on a threshold and none has an `#else`, each of them written as
the scan takes it, the stores name the right thresholds. -/
theorem windows_of_thresholds_only {text : PyText}
    (same : ∀ line ∈ linesOf text, conditional decimal line = (bracketOf decimal line).map some ∧
      turns line = false)
    (apart : ∀ line ∈ linesOf text, (storeOf line).isSome = true →
      bracketOf decimal line = .neither) :
    ∀ row ∈ windows alnum decimal text,
      Names row.guard (Encloses decimal ((linesOf text).take (row.line - 1))) := by
  let named (n : Nat) (guard : Option Nat) :=
    Names guard (Encloses decimal ((linesOf text).take (n - 1)))
  rw [@windows_guard alnum decimal text named]
  intro k line there stored
  have plain := apart line (List.mem_of_getElem? there) stored
  have kept : Kept decimal ((linesOf text).take (k + 1)) =
      Encloses decimal ((linesOf text).take k) := by
    rw [← kept_eq_encloses fun line member => same line (List.mem_of_mem_take member),
      List.take_add_one, there]
    ext threshold
    exact held_append_neither plain
  simp only [named, names_kept, Nat.add_sub_cancel_left, kept]
  exact ⟨fun t member => ⟨t, member, Nat.le_refl t⟩, fun u member => ⟨u, member, Nat.le_refl u⟩⟩

end Scanner

/-! ## A conditional that closes inside a window -/

def asciiAlnum (c : Char) : Bool := isIdent c && c != '_'

def asciiDecimal (c : Char) : Option Nat :=
  if '0' ≤ c ∧ c ≤ '9' then some (c.toNat - '0'.toNat) else none

def nested : PyText :=
  "#if STAGE90_XNU_STORAGE_PROBE >= 22\n#ifdef X\n#endif
    st_write32(ST_HC_MEM_BASE + ST_SDHCI_INT_ENABLE, x);\n#endif".toList

theorem nested_unguarded :
    ¬ ∀ text : PyText, Balanced asciiDecimal (linesOf text) →
      ∀ row ∈ windows asciiAlnum asciiDecimal text,
        Names row.guard (Encloses asciiDecimal ((linesOf text).take (row.line - 1))) := by
  intro every
  have balanced : Balanced asciiDecimal (linesOf nested) := by
    refine ⟨deficit_le_iff.mp (by decide +kernel), by decide +kernel, fun k line there turned => ?_⟩
    have straight : (linesOf nested).all (fun line => !turns line) = true := by decide +kernel
    have here := List.all_eq_true.mp straight line (List.mem_of_getElem? there)
    exact absurd turned (by simpa using here)
  have rows : (windows asciiAlnum asciiDecimal nested).map (fun row => (row.line, row.guard)) =
      [(4, none)] := by decide +kernel
  obtain ⟨row, member, same⟩ := List.mem_map.mp
    (rows ▸ List.mem_singleton_self (4, (none : Option Nat)))
  obtain ⟨line, guard⟩ := Prod.mk.inj same
  have names := every nested balanced row member
  rw [line, guard] at names
  have inside : 22 ∈ Encloses asciiDecimal ((linesOf nested).take 3) := by
    refine ⟨[], "#if STAGE90_XNU_STORAGE_PROBE >= 22".toList, ["#ifdef X".toList, "#endif".toList],
      by decide +kernel, by decide +kernel, deficit_le_iff.mp (by decide +kernel),
      fun k other there turned => ?_⟩
    rcases k with _ | _ | k
    · obtain rfl := Option.some.inj there
      exact absurd turned (by decide +kernel)
    · obtain rfl := Option.some.inj there
      exact absurd turned (by decide +kernel)
    · exact absurd there (by simp)
  exact absurd (names.2.mp rfl ▸ inside) (Set.notMem_empty 22)

end Stage90.Census

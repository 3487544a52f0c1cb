import Stage90.Lib.Regex

/-!
# The assembly dialect translation

The rewriting rules of the translator, in the order in which a text goes through them.
`alnum` says which characters beyond the ASCII ones a word is made of.
-/

set_option autoImplicit false

namespace Stage90.Asm

open Lib Re

/-! ### Character classes -/

def isSpace (c : Char) : Bool :=
  [0x09, 0x0A, 0x0B, 0x0C, 0x0D, 0x1C, 0x1D, 0x1E, 0x1F, 0x20, 0x85, 0xA0, 0x1680, 0x2028, 0x2029,
    0x202F, 0x205F, 0x3000].contains c.toNat || (0x2000 ≤ c.toNat && c.toNat ≤ 0x200A)

def isBlank (c : Char) : Bool := c == ' ' || c == '\t'

def notNewline (c : Char) : Bool := c != '\n'

def isLetter (c : Char) : Bool := ('a' ≤ c && c ≤ 'z') || ('A' ≤ c && c ≤ 'Z')

def isDigit (c : Char) : Bool := '0' ≤ c && c ≤ '9'

def isWord (alnum : Char → Bool) (c : Char) : Bool :=
  isLetter c || isDigit c || c == '_' || (128 ≤ c.toNat && alnum c)

/-- `[A-Za-z_.]` -/
def nameStart (c : Char) : Bool := isLetter c || c == '_' || c == '.'

/-- `[A-Za-z0-9_.]` -/
def nameChar (c : Char) : Bool := nameStart c || isDigit c

/-- `[A-Za-z_]` -/
def entryStart (c : Char) : Bool := isLetter c || c == '_'

/-- `[A-Za-z0-9_]` -/
def entryChar (c : Char) : Bool := entryStart c || isDigit c

/-! ### The line rules -/

def sectionData (name : String) : Re :=
  seqs [lineStart, group 1 (many isSpace), lit ".section", plus isSpace, lit "__DATA",
    many isSpace, lit ",", many isSpace, lit name, wordEdge, many notNewline, lineEnd]

def keepIndent (directive : String) (text : Text) (m : Match) : Text :=
  m.group text 1 ++ directive.toList

def simple : List Rule :=
  [⟨sectionData "__data", keepIndent ".section .data,\"aw\",%progbits"⟩,
   ⟨sectionData "__const", keepIndent ".section .rodata,\"a\",%progbits"⟩,
   ⟨sectionData "__common", keepIndent ".section .bss,\"aw\",%nobits"⟩,
   ⟨seqs [lineStart, group 1 (many isSpace), lit ".const", many isSpace, lineEnd],
    keepIndent ".section .rodata,\"a\",%progbits"⟩,
   ⟨seqs [lineStart, group 1 (many isSpace), lit ".thumb_func", plus isSpace, one nameStart,
      many nameChar, many isSpace, lineEnd],
    keepIndent ".thumb_func"⟩]

/-! ### The entry macros -/

def enter (macroName : String) : Re :=
  seqs [lineStart, group 1 (many isBlank), lit macroName, lit "(",
    group 2 (.seq (one entryStart) (many entryChar)), lit ")", many notNewline, lineEnd]

def enterThumbAlias : Re :=
  seqs [lineStart, many isBlank, lit "#undef", plus isBlank, lit "EnterThumb", many isBlank,
    lit "\n", many isBlank, lit "#define", plus isBlank, lit "EnterThumb", plus isBlank,
    lit "EnterARM", many isBlank, lit "\n"]

def aliasArmTrue : Re :=
  seqs [lit "#if", plus isBlank, lit "__ARM_ARCH", many isBlank, lit "==", many isBlank, lit "7",
    wordEdge, many notNewline, lit "\n", many isBlank, lit "#undef", plus isBlank,
    lit "EnterThumb"]

/-- `.globl`, `.align` and the label, behind what selects the instruction set. -/
def entryBlock (text : Text) (m : Match) : Text :=
  let indent := m.group text 1
  let name := m.group text 2
  indent ++ ".globl _".toList ++ name ++ "\n".toList ++ indent ++ ".align 4\n".toList ++ indent ++
    "_".toList ++ name ++ ":".toList

def armEntry (text : Text) (m : Match) : Text := ".code 32\n".toList ++ entryBlock text m

def thumbEntry (text : Text) (m : Match) : Text :=
  ".code 16\n".toList ++ m.group text 1 ++ ".thumb_func\n".toList ++ entryBlock text m

def aliasRule : Rule := ⟨enterThumbAlias, fun _ _ => []⟩

def enterArm : Rule := ⟨enter "EnterARM", armEntry⟩

def enterThumb (armCoded : Bool) : Rule :=
  ⟨enter "EnterThumb", if armCoded then armEntry else thumbEntry⟩

variable (alnum : Char → Bool)

def armCoded (text : Text) : Bool := (aliasArmTrue.search (isWord alnum) text 0).isSome

def translateEntries (text : Text) : Text × Nat :=
  let armCoded := armCoded alnum text
  let text := (aliasRule.subn (isWord alnum) text).1
  let (text, n1) := enterArm.subn (isWord alnum) text
  let (text, n2) := (enterThumb armCoded).subn (isWord alnum) text
  (text, n1 + n2)

/-! ### The mnemonics -/

def cond : List String :=
  ["eq", "ne", "cs", "cc", "mi", "pl", "vs", "vc", "hi", "ls", "ge", "lt", "gt", "le", "al"]

def blockFd : Rule :=
  ⟨seqs [wordEdge, group 1 (oneOf ["ldm", "stm"]), group 2 (oneOf cond), lit "fd", wordEdge],
    fun text m => m.group text 1 ++ "ia".toList ++ m.group text 2⟩

def userT : Rule :=
  ⟨seqs [wordEdge, group 1 (oneOf ["ldr", "str"]), group 2 (oneOf cond),
      group 3 (alt (.seq (alt (lit "b") empty) (lit "t")) (lit "b")), wordEdge],
    fun text m => m.group text 1 ++ m.group text 3 ++ m.group text 2⟩

/-! ### Macros with numbered arguments -/

def macroDecl : Re :=
  seqs [lineStart, group 1 (many isBlank), lit ".macro", plus isBlank,
    group 2 (.seq (one nameStart) (many nameChar)), many isBlank, lineEnd]

def macroEnd : Re :=
  seqs [lineStart, many isBlank, lit ".end", oneOf ["m", "macro"], wordEdge]

/-- `$0` to `$9`, the digit as a group. -/
def argUse : Rule :=
  ⟨.seq (lit "$") (group 1 (one isDigit)),
    fun body m => "\\p".toList ++ m.group body 1 ++ "\\()".toList⟩

def used (body : Text) : List Nat :=
  (argUse.pattern.finditer (isWord alnum) body).map fun m =>
    ((m.group body 1).headD '0').toNat - '0'.toNat

def param (i : Nat) : Text := 'p' :: Nat.toDigits 10 i

structure Conversion where
  stop : Match
  params : Nat
  newBody : Text

/-- What becomes of a declaration whose body uses numbered arguments. -/
def conversion (text : Text) (m : Match) : Option Conversion :=
  match macroEnd.search (isWord alnum) text m.stop with
  | none => none
  | some stop =>
      let body := slice text m.stop stop.start
      match used alnum body with
      | [] => none
      | u :: us => some ⟨stop, (us.foldl max u) + 1, (argUse.subn (isWord alnum) body).1⟩

def header (text : Text) (m : Match) (params : Nat) : Text :=
  m.group text 1 ++ ".macro ".toList ++ m.group text 2 ++ " ".toList ++
    ",".toList.intercalate ((List.range params).map param)

structure MacroLoop where
  out : List Text
  pos : Nat
  conversions : Nat

def macroStep (text : Text) (s : MacroLoop) (m : Match) : MacroLoop :=
  let out := s.out ++ [slice text s.pos m.start]
  match conversion alnum text m with
  | none => { s with out := out ++ [m.text text], pos := m.stop }
  | some c =>
      { out := out ++ [header text m c.params, c.newBody, c.stop.text text]
        pos := c.stop.stop
        conversions := s.conversions + 1 }

def translateMacros (text : Text) : Text × Nat :=
  let s := (macroDecl.finditer (isWord alnum) text).foldl (macroStep alnum text) ⟨[], 0, 0⟩
  ((s.out ++ [text.drop s.pos]).flatten, s.conversions)

def translate (text : Text) : Text × List Nat :=
  let (text, counted) := simple.foldl (fun s rule =>
    let (text, n) := rule.subn (isWord alnum) s.1
    (text, s.2 ++ [n])) (text, [])
  let (text, n) := translateMacros alnum text
  let counted := counted ++ [n]
  let (text, n) := translateEntries alnum text
  let counted := counted ++ [n]
  let (text, n) := blockFd.subn (isWord alnum) text
  let counted := counted ++ [n]
  let (text, n) := userT.subn (isWord alnum) text
  let counted := counted ++ [n]
  (text, counted)

end Stage90.Asm

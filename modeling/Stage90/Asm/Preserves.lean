import Stage90.Asm.ArgUse
import Stage90.Asm.ExpandExact
import Stage90.Asm.Macros
import Stage90.Asm.Tokens

/-!
# The translation preserves meaning

The rewriting stages of a translation, what it is for them to preserve a text's meaning, and
the texts for which they do: no conditional full descending store, no macro whose body holds
another escape of either dialect, no declaration within a macro that is converted.
-/

set_option autoImplicit false

namespace Stage90.Asm

open Lib Re

/-! ### Stages -/

structure Stage where
  before : Text
  edits : List Edit
  after : Text

/-- The stages lead from one text to another, each going on from the text of the one before. -/
def Lead : Text → List Stage → Text → Prop
  | text, [], out => text = out
  | text, s :: ss, out => s.before = text ∧ Lead s.after ss out

section Stages
variable (alnum : Char → Bool) (text : Text)

def ruleStage (rule : Rule) : Stage :=
  ⟨text, rule.edits (isWord alnum) text, (rule.subn (isWord alnum) text).1⟩

def ruleStages : List Rule → Text → List Stage
  | [], _ => []
  | rule :: rules, text =>
      ruleStage alnum text rule :: ruleStages rules (rule.subn (isWord alnum) text).1

def macroText : Text := simple.foldl (fun t rule => (rule.subn (isWord alnum) t).1) text

def entryText : Text := (translateMacros alnum (macroText alnum text)).1

def blockText : Text := (translateEntries alnum (entryText alnum text)).1

def userText : Text := (blockFd.subn (isWord alnum) (blockText alnum text)).1

def macroStage : Stage :=
  ⟨macroText alnum text, macroEdits alnum (macroText alnum text), entryText alnum text⟩

def entryRules : List Rule :=
  [aliasRule, enterArm, enterThumb (armCoded alnum (entryText alnum text))]

def tokenRules : List Rule := [blockFd, userT]

def stages : List Stage :=
  ruleStages alnum simple text ++ macroStage alnum text ::
    (ruleStages alnum (entryRules alnum text) (entryText alnum text) ++
      ruleStages alnum tokenRules (blockText alnum text))

end Stages

/-! ### Macros as the assembler reads them -/

section Closing
variable (alnum : Char → Bool) (text : Text)

def macroOpen : Re := seqs [lineStart, many isBlank, lit ".macro", wordEdge]

def opened (start stop : Nat) : Nat :=
  (macroOpen.finditer (isWord alnum) text).countP fun m => start ≤ m.start && m.start < stop

/-- The first end directive at which as many macros have been closed as opened. -/
def closing (start : Nat) : Nat → List Match → Option Match
  | _, [] => none
  | closed, e :: es =>
      if opened alnum text start e.start = closed then some e else closing start (closed + 1) es

def closes (m : Match) : Option Match :=
  closing alnum text m.stop 0
    ((macroEnd.finditer (isWord alnum) text).filter fun e => m.stop ≤ e.start)

def macroBody (m e : Match) : Text := slice text m.stop e.start

/-- The expansion of a macro after the translation: the parameters it has been given and the
body as it has been rewritten, up to the same end. -/
def expandTranslated (args : List Text) (instances : Nat) (m e : Match) : Option Text :=
  match conversion alnum text m with
  | none => expandGnu args [] instances (macroBody text m e)
  | some c =>
      expandGnu args (names c.params) instances (c.newBody ++ slice text c.stop.start e.start)

end Closing

/-! ### Meaning preserved -/

section Meaning
variable (alnum : Char → Bool) (called : Text → Nat → Prop) (text : Text)

/-- Every call of a macro that uses numbered arguments, with arguments for all of them,
expands to the same text.  `called` are the names and the numbers of arguments of the calls. -/
def MacrosKept : Prop :=
  ∀ m ∈ decls (isWord alnum) text, ∀ e, closes alnum text m = some e →
    digits (macroBody text m e) ≠ [] → ∀ (args : List Text) (instances : Nat),
      called (m.group text 2) args.length → (∀ u ∈ digits (macroBody text m e), u < args.length) →
        expandTranslated alnum text args instances m e =
          some (expandDarwin args (macroBody text m e))

structure Preserved : Prop where
  block : ∀ m ∈ blockFd.pattern.finditer (isWord alnum) (blockText alnum text),
    SameInstruction (m.text (blockText alnum text)) (blockFd.new (blockText alnum text) m)
  user : ∀ m ∈ userT.pattern.finditer (isWord alnum) (userText alnum text),
    SameInstruction (m.text (userText alnum text)) (userT.new (userText alnum text) m)
  macros : MacrosKept alnum called (macroText alnum text)
  lead : Lead text (stages alnum text) (translate alnum text).1
  rest : ∀ s ∈ stages alnum text, Spliced s.before s.edits s.after

/-- A call of a macro that uses numbered arguments has as many arguments as the macro is given
parameters, and the body is plain up to its end. -/
def PlainCalls : Prop :=
  ∀ m ∈ decls (isWord alnum) text, ∀ e, closes alnum text m = some e →
    digits (macroBody text m e) ≠ [] → ∀ k, called (m.group text 2) k →
      (∀ u ∈ digits (macroBody text m e), u < k) →
        ∃ c, conversion alnum text m = some c ∧ k = c.params ∧
          Plain (names c.params) (c.stop.start - m.stop) (macroBody text m e)

structure Translatable : Prop where
  loads : ∀ m ∈ blockFd.pattern.finditer (isWord alnum) (blockText alnum text),
    m.group (blockText alnum text) 1 ≠ "stm".toList
  calls : PlainCalls alnum called (macroText alnum text)
  apart : Apart alnum (macroText alnum text)

end Meaning

section Leading
variable {alnum : Char → Bool}

theorem Lead.append {ss ss' : List Stage} : ∀ {text mid out : Text}, Lead text ss mid →
    Lead mid ss' out → Lead text (ss ++ ss') out := by
  induction ss with
  | nil =>
      intro text mid out same lead
      rw [Lead] at same
      rw [same]
      exact lead
  | cons s ss ih =>
      intro text mid out first lead
      exact ⟨first.1, ih first.2 lead⟩

theorem lead_ruleStages (rules : List Rule) : ∀ text : Text,
    Lead text (ruleStages alnum rules text)
      (rules.foldl (fun t rule => (rule.subn (isWord alnum) t).1) text) := by
  induction rules with
  | nil => exact fun _ => rfl
  | cons rule rules ih => exact fun text => ⟨rfl, ih _⟩

theorem spliced_ruleStages (rules : List Rule) : ∀ text : Text,
    ∀ s ∈ ruleStages alnum rules text, Spliced s.before s.edits s.after := by
  induction rules with
  | nil => exact fun _ s mem => absurd mem List.not_mem_nil
  | cons rule rules ih =>
      intro text s mem
      cases List.mem_cons.mp mem with
      | inl first =>
          subst first
          exact subn_spliced (isWord alnum) rule text
      | inr later => exact ih _ s later

theorem simple_fold (rules : List Rule) : ∀ (text : Text) (counted : List Nat),
    (rules.foldl (fun s rule =>
      let (text, n) := rule.subn (isWord alnum) s.1
      (text, s.2 ++ [n])) (text, counted)).1 =
      rules.foldl (fun t rule => (rule.subn (isWord alnum) t).1) text := by
  induction rules with
  | nil => exact fun _ _ => rfl
  | cons rule rules ih => exact fun text counted => ih _ _

theorem translate_eq (text : Text) :
    (translate alnum text).1 = (userT.subn (isWord alnum) (userText alnum text)).1 := by
  have first := @simple_fold alnum simple text []
  rw [translate, userText, blockText, entryText, macroText]
  dsimp only
  rw [first]

theorem lead_simple (text : Text) :
    Lead text (ruleStages alnum simple text) (macroText alnum text) := by
  rw [macroText]
  exact lead_ruleStages simple text

theorem translateEntries_eq (text : Text) :
    (translateEntries alnum text).1 =
      ((enterThumb (armCoded alnum text)).subn (isWord alnum) (enterArm.subn (isWord alnum)
        (aliasRule.subn (isWord alnum) text).1).1).1 := by
  dsimp only [translateEntries]

theorem lead_entries (text : Text) :
    Lead (entryText alnum text) (ruleStages alnum (entryRules alnum text) (entryText alnum text))
      (blockText alnum text) := by
  have lead := @lead_ruleStages alnum (entryRules alnum text) (entryText alnum text)
  rw [blockText, translateEntries_eq]
  exact lead

theorem lead_tokens (text : Text) :
    Lead (blockText alnum text) (ruleStages alnum tokenRules (blockText alnum text))
      (userT.subn (isWord alnum) (userText alnum text)).1 := by
  have lead := @lead_ruleStages alnum tokenRules (blockText alnum text)
  rw [tokenRules, List.foldl_cons, List.foldl_cons, List.foldl_nil] at lead
  rw [tokenRules, userText]
  exact lead

theorem macroStage_before (text : Text) : (macroStage alnum text).before = macroText alnum text := by
  simp only [macroStage]

theorem macroStage_edits (text : Text) :
    (macroStage alnum text).edits = macroEdits alnum (macroText alnum text) := by
  simp only [macroStage]

theorem macroStage_after (text : Text) : (macroStage alnum text).after = entryText alnum text := by
  simp only [macroStage]

theorem lead_macros (text : Text) {ss : List Stage} {out : Text}
    (lead : Lead (entryText alnum text) ss out) :
    Lead (macroText alnum text) (macroStage alnum text :: ss) out := by
  rw [Lead, macroStage_before, macroStage_after]
  exact And.intro rfl lead

theorem lead_stages (text : Text) : Lead text (stages alnum text) (translate alnum text).1 := by
  rw [translate_eq, stages]
  exact Lead.append (lead_simple text)
    (lead_macros text (Lead.append (lead_entries text) (lead_tokens text)))

theorem spliced_stages_iff (text : Text) :
    (∀ s ∈ stages alnum text, Spliced s.before s.edits s.after) ↔
      Apart alnum (macroText alnum text) := by
  rw [← macros_spliced_iff]
  constructor
  · intro all
    have among : macroStage alnum text ∈ stages alnum text := by
      rw [stages]
      exact List.mem_append_right _ List.mem_cons_self
    have spliced := all (macroStage alnum text) among
    rw [macroStage_before, macroStage_edits, macroStage_after, entryText] at spliced
    exact spliced
  · intro spliced s mem
    rw [stages] at mem
    rcases List.mem_append.mp mem with first | later
    · exact spliced_ruleStages _ _ s first
    · rcases List.mem_cons.mp later with same | later
      · rw [same, macroStage_before, macroStage_edits, macroStage_after, entryText]
        exact spliced
      · rcases List.mem_append.mp later with entry | token
        · exact spliced_ruleStages _ _ s entry
        · exact spliced_ruleStages _ _ s token

end Leading

section Kept
variable {alnum : Char → Bool} {text : Text} {m e : Match}

theorem closing_mem {start : Nat} {es : List Match} :
    ∀ {closed : Nat}, closing alnum text start closed es = some e → e ∈ es := by
  induction es with
  | nil =>
      intro closed found
      exact absurd found (Option.some_ne_none e).symm
  | cons e' es ih =>
      intro closed found
      rw [closing] at found
      split at found
      · rw [Option.some.inj found]
        exact List.mem_cons_self
      · exact List.mem_cons_of_mem e' (ih found)

theorem foldl_max (us : List Nat) : ∀ u, us.foldl max u ∈ u :: us ∧ ∀ v ∈ u :: us, v ≤ us.foldl max u := by
  induction us with
  | nil => simp
  | cons u' us ih =>
      intro u
      obtain ⟨mem, le⟩ := ih (max u u')
      rw [List.foldl_cons]
      have first := le (max u u') List.mem_cons_self
      constructor
      · rcases List.mem_cons.mp mem with same | later
        · rcases Nat.le_total u u' with less | less
          · rw [same, Nat.max_eq_right less]
            exact List.mem_cons_of_mem u List.mem_cons_self
          · rw [same, Nat.max_eq_left less]
            exact List.mem_cons_self
        · exact List.mem_cons_of_mem u (List.mem_cons_of_mem u' later)
      · intro v among
        rcases List.mem_cons.mp among with same | among
        · omega
        · rcases List.mem_cons.mp among with same | later
          · omega
          · exact le v (List.mem_cons_of_mem _ later)

/-- A conversion has a parameter for each argument used, and no more than the last one needs. -/
theorem conversion_params {c : Conversion} (converted : conversion alnum text m = some c) :
    (∀ u ∈ digits (slice text m.stop c.stop.start), u < c.params) ∧
      (∃ u ∈ digits (slice text m.stop c.stop.start), c.params = u + 1) ∧
      c.newBody = convert (slice text m.stop c.stop.start).length (slice text m.stop c.stop.start) := by
  have found := search_of_conversion converted
  rw [conversion, found] at converted
  dsimp only at converted
  rw [used_eq, argUse_subn] at converted
  cases numbers : digits (slice text m.stop c.stop.start) with
  | nil =>
      rw [numbers] at converted
      exact absurd converted (Option.some_ne_none c).symm
  | cons u us =>
      rw [numbers] at converted
      obtain ⟨mem, le⟩ := foldl_max us u
      rw [← Option.some.inj converted]
      exact ⟨fun v among => Nat.lt_succ_of_le (le v among), ⟨_, mem, rfl⟩, rfl⟩

/-- The end that is found for a declaration is no later than the one that closes it. -/
theorem closes_behind {c : Conversion} (converted : conversion alnum text m = some c)
    (closed : closes alnum text m = some e) :
    m.stop ≤ c.stop.start ∧ c.stop.start ≤ e.start ∧ e.start ≤ text.length := by
  obtain ⟨among, behind⟩ := List.mem_filter.mp (closing_mem closed)
  obtain ⟨inside, found⟩ := mem_finditer among
  obtain ⟨reached, _, _, none_before⟩ := search_eq_some.mp (search_of_conversion converted)
  refine ⟨reached, ?_, inside⟩
  by_contra before
  have none := none_before e.start (of_decide_eq_true behind) (by omega)
  rw [found] at none
  exact absurd none (Option.some_ne_none e)

/-- The body of a converted macro, of which the text up to the end found is rewritten. -/
theorem translated_body {c : Conversion} (converted : conversion alnum text m = some c)
    (closed : closes alnum text m = some e) :
    c.newBody ++ slice text c.stop.start e.start =
        convert (c.stop.start - m.stop) (macroBody text m e) ∧
      slice text m.stop c.stop.start = (macroBody text m e).take (c.stop.start - m.stop) := by
  obtain ⟨reached, within, inside⟩ := closes_behind converted closed
  have front : slice text m.stop c.stop.start =
      (macroBody text m e).take (c.stop.start - m.stop) := by
    rw [macroBody, slice, slice, List.drop_take, List.drop_take, List.take_take,
      Nat.min_eq_left (by omega)]
  have back : slice text c.stop.start e.start =
      (macroBody text m e).drop (c.stop.start - m.stop) := by
    rw [macroBody, slice, slice, List.drop_drop, Nat.add_sub_cancel' reached]
  have length : (slice text m.stop c.stop.start).length = c.stop.start - m.stop :=
    length_slice (within.trans inside)
  refine ⟨?_, front⟩
  rw [(conversion_params converted).2.2, length, front, back, convert_take]

theorem expandGnu_eq_some {args params : List Text} {instances : Nat} {body out : Text} :
    expandGnu args params instances body = some out ↔
      args.length ≤ params.length ∧ expandNames args params instances 0 body = out := by
  rw [expandGnu]
  split
  · rename_i more
    exact ⟨fun same => absurd same (Option.some_ne_none out).symm, fun both => by omega⟩
  · rename_i fits
    rw [Option.some_inj]
    exact ⟨fun same => ⟨Nat.not_lt.mp fits, same⟩, fun both => both.2⟩

theorem length_names (n : Nat) : (names n).length = n := by
  rw [names, List.length_map, List.length_range]

/-- Calls with a number of arguments keep their expansion where the macro is given as many
parameters and its body is plain. -/
theorem expandTranslated_iff (closed : closes alnum text m = some e)
    (uses : digits (macroBody text m e) ≠ []) {k : Nat}
    (enough : ∀ u ∈ digits (macroBody text m e), u < k) :
    (∀ (args : List Text) (instances : Nat), args.length = k →
      expandTranslated alnum text args instances m e =
        some (expandDarwin args (macroBody text m e))) ↔
      ∃ c, conversion alnum text m = some c ∧ k = c.params ∧
        Plain (names c.params) (c.stop.start - m.stop) (macroBody text m e) := by
  obtain ⟨u, among⟩ := List.exists_mem_of_ne_nil _ uses
  have positive := enough u among
  constructor
  · intro kept
    have some_args := kept (List.replicate k []) 0 List.length_replicate
    cases converted : conversion alnum text m with
    | none =>
        rw [expandTranslated, converted] at some_args
        have few := (expandGnu_eq_some.mp some_args).1
        rw [List.length_replicate, List.length_nil] at few
        omega
    | some c =>
        obtain ⟨below, ⟨last, mem, params⟩, _⟩ := conversion_params converted
        obtain ⟨body, front⟩ := translated_body converted closed
        rw [front] at below mem
        have least := enough last (digits_of_take _ _ mem)
        have small : c.params ≤ 10 := by
          have := digits_lt_ten _ mem
          omega
        rw [expandTranslated, converted] at some_args
        have few := (expandGnu_eq_some.mp some_args).1
        rw [List.length_replicate, length_names] at few
        obtain rfl : k = c.params := by omega
        refine ⟨c, rfl, rfl, (@expandNames_eq_iff _ 0 _ _ small below).mp fun args count => ?_⟩
        have same := kept args 0 count
        rw [expandTranslated, converted] at same
        rw [← body]
        exact (expandGnu_eq_some.mp same).2
  · intro ⟨c, converted, count, plain⟩ args instances length
    obtain ⟨below, ⟨last, mem, params⟩, _⟩ := conversion_params converted
    obtain ⟨body, front⟩ := translated_body converted closed
    rw [front] at below mem
    have small : c.params ≤ 10 := by
      have := digits_lt_ten _ mem
      omega
    rw [expandTranslated, converted]
    refine expandGnu_eq_some.mpr ⟨by rw [length_names]; omega, ?_⟩
    rw [body]
    exact expandNames_convert small _ _ plain below

theorem macrosKept_iff (called : Text → Nat → Prop) (text : Text) :
    MacrosKept alnum called text ↔ PlainCalls alnum called text := by
  constructor
  · intro kept m mem e closed uses k call enough
    apply (expandTranslated_iff closed uses enough).mp
    intro args instances count
    rw [← count] at call enough
    exact kept m mem e closed uses args instances call enough
  · intro plain m mem e closed uses args instances call enough
    exact (expandTranslated_iff closed uses enough).mpr
      (plain m mem e closed uses args.length call enough) args instances rfl

end Kept

/-- The translation preserves the meaning of a text and of the calls of its macros just when
the text is translatable. -/
theorem preserved_iff (alnum : Char → Bool) (called : Text → Nat → Prop) (text : Text) :
    Preserved alnum called text ↔ Translatable alnum called text := by
  constructor
  · intro kept
    refine ⟨fun m mem => ?_, (macrosKept_iff called _).mp kept.macros,
      (spliced_stages_iff text).mp kept.rest⟩
    exact (sameInstruction_block_iff mem).mp (kept.block m mem)
  · intro sound
    refine ⟨fun m mem => ?_, fun m mem => ?_, (macrosKept_iff called _).mpr sound.calls,
      lead_stages text, (spliced_stages_iff text).mpr sound.apart⟩
    · exact (sameInstruction_block_iff mem).mpr (sound.loads m mem)
    · exact sameInstruction_user mem

/-- A push on a condition becomes a store upwards from the stack pointer. -/
theorem push_not_preserved :
    ¬ Preserved (fun _ => false) (fun _ _ => True) "stmeqfd sp!, {r0}\n".toList := by
  intro kept
  have block := kept.block
  revert block
  decide +kernel

end Stage90.Asm

import Stage90.Lib.Masks

/-!
# Arming one line

`entry_irq_enable_line` over a distributor whose banks hold any words.  A set or clear bank answers
a write of ones, the other banks keep what is written.
-/

set_option autoImplicit false

namespace Stage90.Irq

open Stage90.Lib

def gicdCtlr : UInt32 := 0x000
def gicdIgroupr0 : UInt32 := 0x080
def gicdIsenabler0 : UInt32 := 0x100
def gicdIspendr0 : UInt32 := 0x200
def gicdIcpendr0 : UInt32 := 0x280
def gicdIpriority0 : UInt32 := 0x400
def gicdItargetsr0 : UInt32 := 0x800
def gicdIcfgr0 : UInt32 := 0xc00
def gicMaxIntid : UInt32 := 1020

/-! ## The distributor -/

inductive Bank where
  | igroupr
  | isenabler
  | icenabler
  | ispendr
  | icpendr
  | ipriorityr
  | itargetsr
  | icfgr
  | other
  deriving DecidableEq

def Bank.range : Bank → Nat × Nat
  | .igroupr => (0x080, 0x100)
  | .isenabler => (0x100, 0x180)
  | .icenabler => (0x180, 0x200)
  | .ispendr => (0x200, 0x280)
  | .icpendr => (0x280, 0x300)
  | .ipriorityr => (0x400, 0x800)
  | .itargetsr => (0x800, 0xc00)
  | .icfgr => (0xc00, 0xd00)
  | .other => (0, 2 ^ 32)

def Bank.Has (bank : Bank) (offset : UInt32) : Prop :=
  bank.range.1 ≤ offset.toNat ∧ offset.toNat < bank.range.2

instance (bank : Bank) (offset : UInt32) : Decidable (bank.Has offset) :=
  inferInstanceAs (Decidable (_ ∧ _))

def banks : List Bank :=
  [.igroupr, .isenabler, .icenabler, .ispendr, .icpendr, .ipriorityr, .itargetsr, .icfgr]

def bankOf (offset : UInt32) : Bank × Nat :=
  match banks.find? fun bank => bank.Has offset with
  | some bank => (bank, (offset.toNat - bank.range.1) / 4)
  | none => (.other, offset.toNat)

structure Gicd where
  group : Nat → UInt32
  enable : Nat → UInt32
  pending : Nat → UInt32
  priority : Nat → UInt32
  target : Nat → UInt32
  config : Nat → UInt32
  other : Nat → UInt32

def setWord (words : Nat → UInt32) (i : Nat) (value : UInt32) : Nat → UInt32 :=
  fun j => if j = i then value else words j

def Gicd.read (g : Gicd) (offset : UInt32) : UInt32 :=
  match bankOf offset with
  | (.igroupr, i) => g.group i
  | (.isenabler, i) => g.enable i
  | (.icenabler, i) => g.enable i
  | (.ispendr, i) => g.pending i
  | (.icpendr, i) => g.pending i
  | (.ipriorityr, i) => g.priority i
  | (.itargetsr, i) => g.target i
  | (.icfgr, i) => g.config i
  | (.other, i) => g.other i

def Gicd.write (g : Gicd) (offset value : UInt32) : Gicd :=
  match bankOf offset with
  | (.igroupr, i) => { g with group := setWord g.group i value }
  | (.isenabler, i) => { g with enable := setWord g.enable i (g.enable i ||| value) }
  | (.icenabler, i) => { g with enable := setWord g.enable i (g.enable i &&& ~~~value) }
  | (.ispendr, i) => { g with pending := setWord g.pending i (g.pending i ||| value) }
  | (.icpendr, i) => { g with pending := setWord g.pending i (g.pending i &&& ~~~value) }
  | (.ipriorityr, i) => { g with priority := setWord g.priority i value }
  | (.itargetsr, i) => { g with target := setWord g.target i value }
  | (.icfgr, i) => { g with config := setWord g.config i value }
  | (.other, i) => { g with other := setWord g.other i value }

inductive RegisterAccess where
  | read (offset : UInt32)
  | write (offset value : UInt32)
  /-- A read of `GICC_PMR`. -/
  | priorityMask
  deriving DecidableEq

structure Session where
  gicd : Gicd
  accesses : List RegisterAccess

def Session.reads (s : Session) (offsets : List UInt32) : Session :=
  { s with accesses := s.accesses ++ offsets.map .read }

def Session.write (s : Session) (offset value : UInt32) : Session :=
  ⟨s.gicd.write offset value, s.accesses ++ [.write offset value]⟩

/-! ## The call -/

section Offsets
variable (intid : UInt32)

def lineBit : UInt32 := 1 <<< (intid % 32)
def isaddr : UInt32 := gicdIsenabler0 + intid / 32 * 4
def cpaddr : UInt32 := gicdIcpendr0 + intid / 32 * 4
def ipaddr : UInt32 := gicdIspendr0 + intid / 32 * 4
def gaddr : UInt32 := gicdIgroupr0 + intid / 32 * 4
def tword : UInt32 := gicdItargetsr0 + (intid &&& ~~~3)
def pword : UInt32 := gicdIpriority0 + (intid &&& ~~~3)
def iword : UInt32 := gicdIcfgr0 + intid / 16 * 4
def bshift : UInt32 := intid % 4 * 8
def bmask : UInt32 := 0xff <<< bshift intid

end Offsets

/-- The answer is the enable bit, read back. -/
def entryIrqEnableLine (s : Session) (intid target : UInt32) : UInt32 × Session :=
  if intid = 0 ∨ gicMaxIntid ≤ intid then (0, s)
  else
    let s := s.reads [isaddr intid, ipaddr intid, tword intid, gaddr intid, pword intid,
      iword intid, gicdCtlr]
    let targetBefore := s.gicd.read (tword intid)
    let groupBefore := s.gicd.read (gaddr intid)
    let s := { s with accesses := s.accesses ++ [RegisterAccess.priorityMask] }
    let s := (s.write (cpaddr intid) (lineBit intid)).reads [ipaddr intid]
    let s := (s.write (tword intid)
      ((targetBefore &&& ~~~bmask intid) ||| ((target &&& 0xff) <<< bshift intid))).reads
        [tword intid]
    let s := (s.write (gaddr intid) (groupBefore &&& ~~~lineBit intid)).reads [gaddr intid]
    let s := s.write (isaddr intid) (lineBit intid)
    let isenAfter := s.gicd.read (isaddr intid)
    let s := s.reads [isaddr intid]
    (if isenAfter &&& lineBit intid ≠ 0 then 1 else 0, s)

/-! ## Addresses -/

theorem banks_apart {one two : Bank} (first : one ∈ banks) (second : two ∈ banks)
    (differ : one ≠ two) : one.range.2 ≤ two.range.1 ∨ two.range.2 ≤ one.range.1 := by
  have all : ∀ one ∈ banks, ∀ two ∈ banks, one ≠ two →
      one.range.2 ≤ two.range.1 ∨ two.range.2 ≤ one.range.1 := by decide
  exact all one first two second differ

theorem bankOf_eq {bank : Bank} (known : bank ∈ banks) {offset : UInt32} {i : Nat}
    (starts : offset.toNat = bank.range.1 + 4 * i) (inside : offset.toNat < bank.range.2) :
    bankOf offset = (bank, i) := by
  have has : bank.Has offset := ⟨by omega, inside⟩
  have word : (offset.toNat - bank.range.1) / 4 = i := by omega
  rw [bankOf]
  cases found : banks.find? fun bank => bank.Has offset with
  | none =>
      have missed := List.find?_eq_none.mp found bank known
      exact absurd (decide_eq_true has) missed
  | some hit =>
      have passes := List.find?_some found
      have here : hit.Has offset := of_decide_eq_true passes
      have same : hit = bank := by
        by_contra differ
        have apart := banks_apart (List.mem_of_find?_eq_some found) known differ
        rw [Bank.Has] at here has
        omega
      dsimp only
      rw [same, word]

section Line
variable {intid : UInt32} (accepted : intid.toNat < 1020)
include accepted

theorem bankOf_bit {bank : Bank} (known : bank ∈ banks) (base : UInt32)
    (starts : base.toNat = bank.range.1) (ends : bank.range.2 = bank.range.1 + 0x80)
    (low : bank.range.1 < 0x1000) :
    bankOf (base + intid / 32 * 4) = (bank, intid.toNat / 32) := by
  have address : (base + intid / 32 * 4).toNat = bank.range.1 + 4 * (intid.toNat / 32) := by
    rw [UInt32.toNat_add, UInt32.toNat_mul, UInt32.toNat_div, starts]
    have four : (4 : UInt32).toNat = 4 := rfl
    have word : (32 : UInt32).toNat = 32 := rfl
    rw [four, word]
    omega
  apply bankOf_eq known address
  omega

theorem bankOf_byte {bank : Bank} (known : bank ∈ banks) (base : UInt32)
    (starts : base.toNat = bank.range.1) (ends : bank.range.2 = bank.range.1 + 0x400)
    (low : bank.range.1 < 0x1000) :
    bankOf (base + (intid &&& ~~~3)) = (bank, intid.toNat / 4) := by
  have align : (intid &&& ~~~3).toNat = intid.toNat / 4 * 4 := @toNat_align intid 2 (by decide)
  have address : (base + (intid &&& ~~~3)).toNat = bank.range.1 + 4 * (intid.toNat / 4) := by
    rw [UInt32.toNat_add, align, starts]
    omega
  apply bankOf_eq known address
  omega

theorem bankOf_isaddr : bankOf (isaddr intid) = (.isenabler, intid.toNat / 32) :=
  bankOf_bit accepted (by decide) gicdIsenabler0 rfl rfl (by decide)

theorem bankOf_cpaddr : bankOf (cpaddr intid) = (.icpendr, intid.toNat / 32) :=
  bankOf_bit accepted (by decide) gicdIcpendr0 rfl rfl (by decide)

theorem bankOf_ipaddr : bankOf (ipaddr intid) = (.ispendr, intid.toNat / 32) :=
  bankOf_bit accepted (by decide) gicdIspendr0 rfl rfl (by decide)

theorem bankOf_gaddr : bankOf (gaddr intid) = (.igroupr, intid.toNat / 32) :=
  bankOf_bit accepted (by decide) gicdIgroupr0 rfl rfl (by decide)

theorem bankOf_tword : bankOf (tword intid) = (.itargetsr, intid.toNat / 4) :=
  bankOf_byte accepted (by decide) gicdItargetsr0 rfl rfl (by decide)

theorem bankOf_pword : bankOf (pword intid) = (.ipriorityr, intid.toNat / 4) :=
  bankOf_byte accepted (by decide) gicdIpriority0 rfl rfl (by decide)

theorem bankOf_iword : bankOf (iword intid) = (.icfgr, intid.toNat / 16) := by
  have address : (iword intid).toNat = Bank.icfgr.range.1 + 4 * (intid.toNat / 16) := by
    rw [iword, UInt32.toNat_add, UInt32.toNat_mul, UInt32.toNat_div]
    have base : gicdIcfgr0.toNat = 0xc00 := rfl
    have four : (4 : UInt32).toNat = 4 := rfl
    have word : (16 : UInt32).toNat = 16 := rfl
    have start : Bank.icfgr.range.1 = 0xc00 := rfl
    rw [base, four, word, start]
    omega
  apply bankOf_eq (by decide) address
  have ends : Bank.icfgr.range.2 = 0xd00 := rfl
  have start : Bank.icfgr.range.1 = 0xc00 := rfl
  omega

end Line

/-! ## Words -/

/-- The bit of line `n` in a bank of one bit to the line. -/
def bitAt (words : Nat → UInt32) (n : Nat) : Bool := bit (words (n / 32)) (n % 32)

/-- The byte of line `n` in a bank of one byte to the line. -/
def byteAt (words : Nat → UInt32) (n : Nat) : Nat :=
  (words (n / 4)).toNat / 2 ^ (8 * (n % 4)) % 2 ^ 8

section Words
variable (words : Nat → UInt32) (intid : UInt32)

theorem bit_lineBit (i : Nat) : bit (lineBit intid) i = decide (i = intid.toNat % 32) := by
  have place : (intid % 32).toNat = intid.toNat % 32 := UInt32.toNat_mod intid 32
  rw [lineBit, bit_flag, place]
  rw [place]
  exact Nat.mod_lt _ (by decide)

theorem bitAt_set (n : Nat) :
    bitAt (setWord words (intid.toNat / 32) (words (intid.toNat / 32) ||| lineBit intid)) n =
      if n = intid.toNat then true else bitAt words n := by
  rw [bitAt, setWord]
  by_cases word : n / 32 = intid.toNat / 32
  · rw [if_pos word, bit_or, bit_lineBit, ← word]
    by_cases same : n = intid.toNat
    · rw [if_pos same, same, decide_eq_true rfl, Bool.or_true]
    · have other : n % 32 ≠ intid.toNat % 32 := by omega
      rw [if_neg same, decide_eq_false other, Bool.or_false, bitAt]
  · have other : n ≠ intid.toNat := fun same => word (by rw [same])
    rw [if_neg word, if_neg other, bitAt]

theorem bitAt_clear (n : Nat) :
    bitAt (setWord words (intid.toNat / 32) (words (intid.toNat / 32) &&& ~~~lineBit intid)) n =
      if n = intid.toNat then false else bitAt words n := by
  have inside : n % 32 < 32 := Nat.mod_lt _ (by decide)
  rw [bitAt, setWord]
  by_cases word : n / 32 = intid.toNat / 32
  · rw [if_pos word, bit_and, bit_not, decide_eq_true inside, Bool.true_and, bit_lineBit, ← word]
    by_cases same : n = intid.toNat
    · rw [if_pos same, same, decide_eq_true rfl, Bool.not_true, Bool.and_false]
    · have other : n % 32 ≠ intid.toNat % 32 := by omega
      rw [if_neg same, decide_eq_false other, Bool.not_false, Bool.and_true, bitAt]
  · have other : n ≠ intid.toNat := fun same => word (by rw [same])
    rw [if_neg word, if_neg other, bitAt]

/-- The lane of a line takes the target, the other three keep what they had. -/
theorem bit_lane (word target : UInt32) (i : Nat) (inside : i < 32) :
    bit ((word &&& ~~~bmask intid) ||| ((target &&& 0xff) <<< bshift intid)) i =
      if i / 8 = intid.toNat % 4 then bit target (i % 8) else bit word i := by
  have shift : (bshift intid).toNat = 8 * (intid.toNat % 4) := by
    have lane : (intid % 4).toNat = intid.toNat % 4 := UInt32.toNat_mod intid 4
    have eight : (8 : UInt32).toNat = 8 := rfl
    rw [bshift, UInt32.toNat_mul, lane, eight]
    omega
  have small : (bshift intid).toNat < 32 := by omega
  have ones (j : Nat) : bit 0xff j = decide (j < 8) := Nat.testBit_two_pow_sub_one 8 j
  rw [bit_or, bit_and, bit_not, bmask, bit_shiftLeft _ small, bit_shiftLeft _ small, bit_and,
    ones, shift, decide_eq_true inside]
  simp only [Bool.true_and]
  by_cases lane : i / 8 = intid.toNat % 4
  · have low : 8 * (intid.toNat % 4) ≤ i := by omega
    have high : i - 8 * (intid.toNat % 4) < 8 := by omega
    have place : i - 8 * (intid.toNat % 4) = i % 8 := by omega
    rw [if_pos lane, decide_eq_true low, decide_eq_true high, place]
    simp only [Bool.true_and, Bool.and_true, Bool.not_true, Bool.and_false, Bool.false_or]
  · have outside : (decide (8 * (intid.toNat % 4) ≤ i) &&
        decide (i - 8 * (intid.toNat % 4) < 8)) = false := by
      rw [Bool.and_eq_false_iff, decide_eq_false_iff_not, decide_eq_false_iff_not]
      omega
    rw [if_neg lane]
    cases low : decide (8 * (intid.toNat % 4) ≤ i) with
    | false => simp only [Bool.false_and, Bool.not_false, Bool.and_true, Bool.or_false]
    | true =>
        rw [low, Bool.true_and] at outside
        rw [outside]
        simp only [Bool.and_false, Bool.not_false, Bool.and_true, Bool.or_false]

theorem testBit_byteAt (n j : Nat) :
    (byteAt words n).testBit j = (decide (j < 8) && bit (words (n / 4)) (j + 8 * (n % 4))) := by
  rw [byteAt, Nat.testBit_mod_two_pow, Nat.testBit_div_two_pow, bit]

theorem byteAt_set (target : UInt32) (n : Nat) :
    byteAt (setWord words (intid.toNat / 4)
        ((words (intid.toNat / 4) &&& ~~~bmask intid) ||| ((target &&& 0xff) <<< bshift intid))) n =
      if n = intid.toNat then target.toNat % 2 ^ 8 else byteAt words n := by
  by_cases word : n / 4 = intid.toNat / 4
  · apply Nat.eq_of_testBit_eq
    intro j
    rw [testBit_byteAt, setWord, if_pos word]
    by_cases low : j < 8
    · have lane : (j + 8 * (n % 4)) / 8 = n % 4 := by omega
      have place : (j + 8 * (n % 4)) % 8 = j := by omega
      rw [decide_eq_true low, Bool.true_and, bit_lane intid _ _ _ (by omega), lane, place]
      by_cases same : n = intid.toNat
      · rw [if_pos (by rw [same]), if_pos same, Nat.testBit_mod_two_pow, decide_eq_true low,
          Bool.true_and, bit]
      · have other : n % 4 ≠ intid.toNat % 4 := by omega
        rw [if_neg other, if_neg same, testBit_byteAt, decide_eq_true low, Bool.true_and, word]
    · rw [decide_eq_false low, Bool.false_and]
      split
      · rw [Nat.testBit_mod_two_pow, decide_eq_false low, Bool.false_and]
      · rw [testBit_byteAt, decide_eq_false low, Bool.false_and]
  · have other : n ≠ intid.toNat := fun same => word (by rw [same])
    rw [if_neg other, byteAt, setWord, if_neg word, byteAt]

end Words

/-! ## The frame -/

/-- Line `intid` is enabled, in group 0, not pending and sent to `target`; no other line and no
other register has changed. -/
structure LineOnly (g g' : Gicd) (intid target : UInt32) : Prop where
  enable : ∀ n, bitAt g'.enable n = if n = intid.toNat then true else bitAt g.enable n
  pending : ∀ n, bitAt g'.pending n = if n = intid.toNat then false else bitAt g.pending n
  group : ∀ n, bitAt g'.group n = if n = intid.toNat then false else bitAt g.group n
  target : ∀ n, byteAt g'.target n =
    if n = intid.toNat then target.toNat % 2 ^ 8 else byteAt g.target n
  priority : g'.priority = g.priority
  config : g'.config = g.config
  other : g'.other = g.other

def RegisterAccess.written : RegisterAccess → Option (Bank × Nat)
  | .write offset _ => some (bankOf offset)
  | _ => none

def RegisterAccess.seen : RegisterAccess → Option (Bank × Nat)
  | .read offset => some (bankOf offset)
  | _ => none

/-- Every access of the call is in the bank that it is meant for, at the word of the line. -/
structure InBanks (accesses : List RegisterAccess) (n : Nat) : Prop where
  writes : accesses.filterMap RegisterAccess.written =
    [(.icpendr, n / 32), (.itargetsr, n / 4), (.igroupr, n / 32), (.isenabler, n / 32)]
  reads : accesses.filterMap RegisterAccess.seen =
    [(.isenabler, n / 32), (.ispendr, n / 32), (.itargetsr, n / 4), (.igroupr, n / 32),
      (.ipriorityr, n / 4), (.icfgr, n / 16), (.other, 0), (.ispendr, n / 32), (.itargetsr, n / 4),
      (.igroupr, n / 32), (.isenabler, n / 32)]

def armed (g : Gicd) (intid target : UInt32) : Gicd :=
  { g with
    enable := setWord g.enable (intid.toNat / 32) (g.enable (intid.toNat / 32) ||| lineBit intid)
    pending :=
      setWord g.pending (intid.toNat / 32) (g.pending (intid.toNat / 32) &&& ~~~lineBit intid)
    group := setWord g.group (intid.toNat / 32) (g.group (intid.toNat / 32) &&& ~~~lineBit intid)
    target := setWord g.target (intid.toNat / 4)
      ((g.target (intid.toNat / 4) &&& ~~~bmask intid) ||| ((target &&& 0xff) <<< bshift intid)) }

theorem armed_lineOnly (g : Gicd) (intid target : UInt32) :
    LineOnly g (armed g intid target) intid target where
  enable := bitAt_set g.enable intid
  pending := bitAt_clear g.pending intid
  group := bitAt_clear g.group intid
  target := byteAt_set g.target intid target
  priority := rfl
  config := rfl
  other := rfl

theorem enableLine_refused (s : Session) {intid target : UInt32}
    (refused : intid = 0 ∨ gicMaxIntid ≤ intid) : entryIrqEnableLine s intid target = (0, s) :=
  if_pos refused

theorem enableLine_accepted (s : Session) {intid target : UInt32}
    (accepted : ¬ (intid = 0 ∨ gicMaxIntid ≤ intid)) :
    entryIrqEnableLine s intid target =
      (1, ⟨armed s.gicd intid target, s.accesses ++
        [.read (isaddr intid), .read (ipaddr intid), .read (tword intid), .read (gaddr intid),
          .read (pword intid), .read (iword intid), .read gicdCtlr, .priorityMask,
          .write (cpaddr intid) (lineBit intid), .read (ipaddr intid),
          .write (tword intid) ((s.gicd.target (intid.toNat / 4) &&& ~~~bmask intid) |||
            ((target &&& 0xff) <<< bshift intid)), .read (tword intid),
          .write (gaddr intid) (s.gicd.group (intid.toNat / 32) &&& ~~~lineBit intid),
          .read (gaddr intid), .write (isaddr intid) (lineBit intid), .read (isaddr intid)]⟩) := by
  have below : intid.toNat < 1020 := by
    have less := UInt32.not_le.mp fun le => accepted (Or.inr le)
    exact UInt32.lt_iff_toNat_lt.mp less
  have clear (g : Gicd) (value : UInt32) : g.write (cpaddr intid) value =
      { g with
        pending := setWord g.pending (intid.toNat / 32)
          (g.pending (intid.toNat / 32) &&& ~~~value) } := by
    rw [Gicd.write, bankOf_cpaddr below]
  have steer (g : Gicd) (value : UInt32) : g.write (tword intid) value =
      { g with target := setWord g.target (intid.toNat / 4) value } := by
    rw [Gicd.write, bankOf_tword below]
  have secure (g : Gicd) (value : UInt32) : g.write (gaddr intid) value =
      { g with group := setWord g.group (intid.toNat / 32) value } := by
    rw [Gicd.write, bankOf_gaddr below]
  have set (g : Gicd) (value : UInt32) : g.write (isaddr intid) value =
      { g with
        enable := setWord g.enable (intid.toNat / 32)
          (g.enable (intid.toNat / 32) ||| value) } := by
    rw [Gicd.write, bankOf_isaddr below]
  have targetBefore : s.gicd.read (tword intid) = s.gicd.target (intid.toNat / 4) := by
    rw [Gicd.read, bankOf_tword below]
  have groupBefore : s.gicd.read (gaddr intid) = s.gicd.group (intid.toNat / 32) := by
    rw [Gicd.read, bankOf_gaddr below]
  have enabled : (armed s.gicd intid target).read (isaddr intid) =
      s.gicd.enable (intid.toNat / 32) ||| lineBit intid := by
    rw [Gicd.read, bankOf_isaddr below]
    exact if_pos rfl
  have answer : (armed s.gicd intid target).read (isaddr intid) &&& lineBit intid ≠ 0 := by
    rw [enabled]
    intro zero
    have seen : bit ((s.gicd.enable (intid.toNat / 32) ||| lineBit intid) &&& lineBit intid)
        (intid.toNat % 32) = true := by
      rw [bit_and, bit_or, bit_lineBit, decide_eq_true rfl, Bool.or_true, Bool.and_true]
    rw [zero, bit, UInt32.toNat_zero, Nat.zero_testBit] at seen
    exact Bool.noConfusion seen
  rw [entryIrqEnableLine, if_neg accepted]
  simp only [Session.reads, Session.write, List.map, clear, steer, secure, set]
  rw [targetBefore, groupBefore]
  change (if (armed s.gicd intid target).read (isaddr intid) &&& lineBit intid ≠ 0 then (1 : UInt32)
    else 0, _) = _
  rw [if_pos answer]
  simp only [List.append_assoc, List.cons_append, List.nil_append]
  rfl

theorem accesses_inBanks {intid : UInt32} (below : intid.toNat < 1020) (lane group : UInt32) :
    InBanks [.read (isaddr intid), .read (ipaddr intid), .read (tword intid), .read (gaddr intid),
      .read (pword intid), .read (iword intid), .read gicdCtlr, .priorityMask,
      .write (cpaddr intid) (lineBit intid), .read (ipaddr intid), .write (tword intid) lane,
      .read (tword intid), .write (gaddr intid) group, .read (gaddr intid),
      .write (isaddr intid) (lineBit intid), .read (isaddr intid)] intid.toNat := by
  have ctlr : bankOf gicdCtlr = (.other, 0) := rfl
  constructor
  · simp only [List.filterMap, RegisterAccess.written]
    rw [bankOf_cpaddr below, bankOf_tword below, bankOf_gaddr below, bankOf_isaddr below]
  · simp only [List.filterMap, RegisterAccess.seen]
    rw [bankOf_isaddr below, bankOf_ipaddr below, bankOf_tword below, bankOf_gaddr below,
      bankOf_pword below, bankOf_iword below, ctlr]

/-- A line out of range leaves every register alone, unread; any other is the only one that
changes. -/
theorem enable_line_frame (s : Session) (intid target : UInt32) :
    (intid = 0 ∨ gicMaxIntid ≤ intid → entryIrqEnableLine s intid target = (0, s)) ∧
      (¬ (intid = 0 ∨ gicMaxIntid ≤ intid) →
        (entryIrqEnableLine s intid target).1 = 1 ∧
          LineOnly s.gicd (entryIrqEnableLine s intid target).2.gicd intid target ∧
          ∃ accesses, InBanks accesses intid.toNat ∧
            (entryIrqEnableLine s intid target).2.accesses = s.accesses ++ accesses) := by
  constructor
  · exact enableLine_refused s
  · intro accepted
    have below : intid.toNat < 1020 := by
      have less := UInt32.not_le.mp fun le => accepted (Or.inr le)
      exact UInt32.lt_iff_toNat_lt.mp less
    rw [enableLine_accepted s accepted]
    exact ⟨rfl, armed_lineOnly s.gicd intid target, _, accesses_inBanks below _ _, rfl⟩

end Stage90.Irq

import Stage90.Lib.Masks
import Stage90.Storage.ArrayFold

/-!
# The published label

`st_data_part` prints the name of the entry that the walk took, as its four words and as two
words of four characters each.  A word of the name field holds two code units of sixteen bits
and the packing takes the two bytes of the first, so every second character is lost.
-/

set_option autoImplicit false

namespace Stage90.Storage

open Stage90.Lib

variable {card : Card} {e : Entry} {g : Gpt} {i : Nat}

/-! ## The name field -/

/-- Code unit `j` of the name: a half of one of its little-endian words. -/
def Entry.codeUnit (e : Entry) (j : Fin 8) : UInt32 :=
  (e.name ⟨j.val / 2, by omega⟩ >>> UInt32.ofNat (16 * (j.val % 2))) &&& 0xffff

def Entry.Ascii (e : Entry) : Prop := ∀ j, e.codeUnit j < 128

instance (e : Entry) : Decidable e.Ascii := inferInstanceAs (Decidable (∀ j, e.codeUnit j < 128))

def packBytes (b0 b1 b2 b3 : UInt32) : UInt32 := b0 ||| (b1 <<< 8) ||| (b2 <<< 16) ||| (b3 <<< 24)

/-- The cells of `st_data_part`. -/
structure DataPart where
  dataSector : UInt32
  bestExtent : UInt32
  scanSector : UInt32
  type : Fin 4 → UInt32
  name : Fin 4 → UInt32
  p0 : UInt32
  p1 : UInt32
  nameNonzero : UInt32
  argSector : UInt32
  dataSbSector : UInt32
  firstSbSector : UInt32
  nextIsArg : UInt32
  partIsFirst : UInt32

def stDataPart (s : Ladder) : DataPart :=
  let n0 := s.gpt.dataName 0
  { dataSector := s.gpt.dataSector
    bestExtent := s.gpt.bestExtent
    scanSector := s.gpt.scanSector
    type := s.gpt.dataType
    name := s.gpt.dataName
    p0 := packBytes (n0 &&& 0xff) ((n0 >>> 8) &&& 0xff) (s.gpt.dataName 1 &&& 0xff)
      ((s.gpt.dataName 1 >>> 8) &&& 0xff)
    p1 := packBytes (s.gpt.dataName 2 &&& 0xff) ((s.gpt.dataName 2 >>> 8) &&& 0xff)
      (s.gpt.dataName 3 &&& 0xff) ((s.gpt.dataName 3 >>> 8) &&& 0xff)
    nameNonzero :=
      if (s.gpt.dataName 0 ||| s.gpt.dataName 1 ||| s.gpt.dataName 2 ||| s.gpt.dataName 3) ≠ 0 then 1
      else 0
    argSector := s.readLba
    dataSbSector := s.gpt.dataSector + stFsSbSectorOff
    firstSbSector := s.gpt.partSector + stFsSbSectorOff
    nextIsArg := if s.readLba = s.gpt.dataSector + stFsSbSectorOff then 1 else 0
    partIsFirst := if s.gpt.dataSector = s.gpt.partSector then 1 else 0 }

/-- The label is the name: its characters one to four, and five to eight. -/
structure PublishesLabel (d : DataPart) (e : Entry) : Prop where
  p0 : d.p0 = packBytes (e.codeUnit 0) (e.codeUnit 1) (e.codeUnit 2) (e.codeUnit 3)
  p1 : d.p1 = packBytes (e.codeUnit 4) (e.codeUnit 5) (e.codeUnit 6) (e.codeUnit 7)

/-! ## The packing -/

theorem toNat_packBytes {b0 b1 b2 b3 : UInt32} (h0 : b0.toNat < 2 ^ 8) (h1 : b1.toNat < 2 ^ 8)
    (h2 : b2.toNat < 2 ^ 8) (h3 : b3.toNat < 2 ^ 8) :
    (packBytes b0 b1 b2 b3).toNat =
      b0.toNat + 2 ^ 8 * b1.toNat + 2 ^ 16 * b2.toNat + 2 ^ 24 * b3.toNat := by
  have second : (b1 <<< 8).toNat = 2 ^ 8 * b1.toNat := by
    rw [UInt32.toNat_shiftLeft, Nat.shiftLeft_eq]
    change b1.toNat * 2 ^ 8 % 2 ^ 32 = _
    omega
  have third : (b2 <<< 16).toNat = 2 ^ 16 * b2.toNat := by
    rw [UInt32.toNat_shiftLeft, Nat.shiftLeft_eq]
    change b2.toNat * 2 ^ 16 % 2 ^ 32 = _
    omega
  have fourth : (b3 <<< 24).toNat = 2 ^ 24 * b3.toNat := by
    rw [UInt32.toNat_shiftLeft, Nat.shiftLeft_eq]
    change b3.toNat * 2 ^ 24 % 2 ^ 32 = _
    omega
  have two := Nat.two_pow_add_eq_or_of_lt h0 b1.toNat
  have three := Nat.two_pow_add_eq_or_of_lt (i := 16) (b := b0.toNat + 2 ^ 8 * b1.toNat) (by omega) b2.toNat
  have four := Nat.two_pow_add_eq_or_of_lt (i := 24)
    (b := b0.toNat + 2 ^ 8 * b1.toNat + 2 ^ 16 * b2.toNat) (by omega) b3.toNat
  rw [packBytes, UInt32.toNat_or, UInt32.toNat_or, UInt32.toNat_or, second, third, fourth,
    Nat.or_comm b0.toNat, ← two, Nat.add_comm (2 ^ 8 * _), Nat.or_comm _ (2 ^ 16 * _), ← three,
    Nat.add_comm (2 ^ 16 * _), Nat.or_comm _ (2 ^ 24 * _), ← four, Nat.add_comm (2 ^ 24 * _)]

theorem toNat_byte (w : UInt32) : (w &&& 0xff).toNat = w.toNat % 2 ^ 8 := by
  have mask : (0xff : UInt32).toNat = 2 ^ 8 - 1 := rfl
  rw [UInt32.toNat_and, mask, Nat.and_two_pow_sub_one_eq_mod]

theorem toNat_packed (w w' : UInt32) :
    (packBytes (w &&& 0xff) ((w >>> 8) &&& 0xff) (w' &&& 0xff) ((w' >>> 8) &&& 0xff)).toNat =
      w.toNat % 2 ^ 16 + 2 ^ 16 * (w'.toNat % 2 ^ 16) := by
  have high (w : UInt32) : ((w >>> 8) &&& 0xff).toNat = w.toNat / 2 ^ 8 % 2 ^ 8 :=
    toNat_field w (by decide) rfl
  have low (w : UInt32) : (w &&& 0xff).toNat < 2 ^ 8 := by
    rw [toNat_byte]
    exact Nat.mod_lt _ (by decide)
  have high_lt (w : UInt32) : ((w >>> 8) &&& 0xff).toNat < 2 ^ 8 := by
    rw [high]
    exact Nat.mod_lt _ (by decide)
  rw [toNat_packBytes (low w) (high_lt w) (low w') (high_lt w'), high, high, toNat_byte, toNat_byte]
  omega

theorem codeUnit_even (e : Entry) (j : Fin 4) :
    (e.codeUnit ⟨2 * j.val, by omega⟩).toNat = (e.name j).toNat % 2 ^ 16 := by
  have word : (⟨2 * j.val / 2, by omega⟩ : Fin 4) = j := Fin.ext (Nat.mul_div_cancel_left _ (by decide))
  have half : 2 * j.val % 2 = 0 := Nat.mul_mod_right 2 _
  rw [Entry.codeUnit, @toNat_field _ _ _ 16 (by rw [half]; decide) rfl]
  simp only [word, half]
  rw [Nat.mul_zero]
  change (e.name j).toNat / 2 ^ 0 % 2 ^ 16 = _
  rw [Nat.pow_zero, Nat.div_one]

/-- The pair of words is two packed characters, of the four that it holds. -/
theorem packed_iff {w w' c0 c1 c2 c3 : UInt32} (first : c0.toNat = w.toNat % 2 ^ 16)
    (third : c2.toNat = w'.toNat % 2 ^ 16) (a0 : c0 < 128) (a1 : c1 < 128) (a2 : c2 < 128)
    (a3 : c3 < 128) :
    packBytes (w &&& 0xff) ((w >>> 8) &&& 0xff) (w' &&& 0xff) ((w' >>> 8) &&& 0xff) =
        packBytes c0 c1 c2 c3 ↔
      c1 = 0 ∧ c3 = 0 := by
  rw [UInt32.lt_iff_toNat_lt] at a0 a1 a2 a3
  change _ < 128 at a0 a1 a2 a3
  rw [← UInt32.toNat_inj, toNat_packed, ← first, ← third,
    toNat_packBytes (by omega) (by omega) (by omega) (by omega), ← UInt32.toNat_inj, ← UInt32.toNat_inj,
    UInt32.toNat_zero]
  omega

theorem publishesLabel_iff {s : Ladder} (name : s.gpt.dataName = e.name) (ascii : e.Ascii) :
    PublishesLabel (stDataPart s) e ↔
      e.codeUnit 1 = 0 ∧ e.codeUnit 3 = 0 ∧ e.codeUnit 5 = 0 ∧ e.codeUnit 7 = 0 := by
  have low := packed_iff (codeUnit_even e 0) (codeUnit_even e 1) (ascii 0) (ascii 1) (ascii 2) (ascii 3)
  have high := packed_iff (codeUnit_even e 2) (codeUnit_even e 3) (ascii 4) (ascii 5) (ascii 6) (ascii 7)
  rw [← name] at low high
  constructor
  · intro published
    obtain ⟨one, three⟩ := low.mp published.p0
    obtain ⟨five, seven⟩ := high.mp published.p1
    exact ⟨one, three, five, seven⟩
  · intro ⟨one, three, five, seven⟩
    exact ⟨low.mpr ⟨one, three⟩, high.mpr ⟨five, seven⟩⟩

/-! ## The entry that the walk takes -/

/-- Of the entries that the walk decodes, the first of the largest extents, and it has one. -/
structure Takes (card : Card) (g : Gpt) (i : Nat) : Prop where
  largest : FirstMax (extentOf card g) (extents card g (walked g g.arrayNsec.toNat)) i
  extent : extentOf card g i ≠ 0

theorem walkGpt_taken (best : g.bestExtent = 0) (takes : Takes card g i) :
    TakenFrom card g i (walkGpt card g g.arrayNsec.toNat) := by
  by_cases none_ : g.arrayNsec.toNat = 0
  · have member := takes.largest.mem
    have empty : walked g g.arrayNsec.toNat = 0 := by rw [none_, walked, Nat.zero_mul, Nat.min_zero]
    rw [empty] at member
    exact absurd member List.not_mem_nil
  · have folded := foldl_folded (@Folded.start card g (resetPart 0 g) rfl best)
      (walked g g.arrayNsec.toNat)
    rw [walkGpt, if_neg none_]
    rcases folded.largest with ⟨empty, -⟩ | ⟨k, first, largest, taken⟩
    · have member := takes.largest.mem
      rw [empty] at member
      exact absurd member List.not_mem_nil
    · obtain rfl : k = i := first.unique takes.largest
      apply taken
      intro zero
      rw [zero] at largest
      exact takes.extent largest.symm

/-- Whatever the header and the array, the label of the taken entry is published exactly if every
second one of its characters is zero. -/
theorem label_published_iff (card : Card) (capacity : UInt32) (delivered : ∀ i, card.outcome i = .delivers)
    (i : Nat) (takes : Takes card (headerRead card (bootLadder capacity)).gpt i)
    (ascii : (walkEntry card (headerRead card (bootLadder capacity)).gpt i).Ascii) :
    PublishesLabel (stDataPart (stCmdPath card (bootLadder capacity)))
        (walkEntry card (headerRead card (bootLadder capacity)).gpt i) ↔
      (walkEntry card (headerRead card (bootLadder capacity)).gpt i).codeUnit 1 = 0 ∧
        (walkEntry card (headerRead card (bootLadder capacity)).gpt i).codeUnit 3 = 0 ∧
        (walkEntry card (headerRead card (bootLadder capacity)).gpt i).codeUnit 5 = 0 ∧
        (walkEntry card (headerRead card (bootLadder capacity)).gpt i).codeUnit 7 = 0 := by
  have taken := headerRead_boot (delivered 0) capacity
  have carries := walkGpt_taken taken.bestExtent takes
  rw [← (stCmdPath_gpt delivered capacity).1] at carries
  exact publishesLabel_iff carries.dataName ascii

/-- A table of one entry with a name, at LBA 2. -/
def namedEntryCard (name : Nat → UInt32) : Card where
  sector lba i :=
    if lba = 1 then
      if i = 18 then 2 else if i = 20 then 1 else if i = 21 then 128 else 0
    else if lba = 2 then
      if i = 0 then 1 else if i = 8 then 34 else if i = 10 then 40
      else if 14 ≤ i then name (i.val - 14) else 0
    else 0
  outcome _ := .delivers
  beyond _ := 0

/-- `userdata` in UTF-16. -/
def userdata (i : Nat) : UInt32 := [0x00730075, 0x00720065, 0x00610064, 0x00610074].getD i 0

theorem userdata_takes :
    Takes (namedEntryCard userdata) (headerRead (namedEntryCard userdata) (bootLadder 64)).gpt 0 := by
  refine ⟨⟨[], [], ?_, ?_, ?_⟩, ?_⟩
  · decide
  · exact fun k member => absurd member List.not_mem_nil
  · exact fun k member => absurd member List.not_mem_nil
  · decide

theorem label_published_iff_userdata :
    PublishesLabel (stDataPart (stCmdPath (namedEntryCard userdata) (bootLadder 64)))
        (walkEntry (namedEntryCard userdata) (headerRead (namedEntryCard userdata) (bootLadder 64)).gpt 0) ↔
      (115 : UInt32) = 0 ∧ (114 : UInt32) = 0 ∧ (97 : UInt32) = 0 ∧ (97 : UInt32) = 0 :=
  label_published_iff (namedEntryCard userdata) 64 (fun _ => rfl) 0 userdata_takes
    (by decide)

/-- Of `userdata` the published words are `u`, `e`, `d`, `t`, each with a zero behind it. -/
theorem every_second_character_lost :
    ¬ ∀ (card : Card) (capacity : UInt32), (∀ i, card.outcome i = .delivers) → ∀ i,
      Takes card (headerRead card (bootLadder capacity)).gpt i →
      (walkEntry card (headerRead card (bootLadder capacity)).gpt i).Ascii →
      PublishesLabel (stDataPart (stCmdPath card (bootLadder capacity)))
        (walkEntry card (headerRead card (bootLadder capacity)).gpt i) := by
  intro holds
  have published := holds (namedEntryCard userdata) 64 (fun _ => rfl) 0 userdata_takes
    (by decide)
  have low := published.p0
  exact absurd low (by decide)

end Stage90.Storage

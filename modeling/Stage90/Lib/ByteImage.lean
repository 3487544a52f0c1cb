import Stage90.Lib.Masks
import Stage90.Lib.FlatMemory

/-!
# Byte images

A file that is built by writing byte strings into a zeroed buffer, one after another, and what is
read back when it lies in memory.
-/

set_option autoImplicit false

namespace Stage90.Lib

section Writes
variable {α : Type} {out bytes : List α} {offset : Nat}

def assign (out : List α) (offset : Nat) (bytes : List α) : List α :=
  out.take offset ++ bytes ++ out.drop (offset + bytes.length)

def StandsAt (out : List α) (offset : Nat) (bytes : List α) : Prop :=
  ∀ i < bytes.length, out[offset + i]? = bytes[i]?

theorem length_assign (fits : offset + bytes.length ≤ out.length) :
    (assign out offset bytes).length = out.length := by
  rw [assign, List.length_append, List.length_append, List.length_take, List.length_drop]
  omega

theorem getElem?_assign (fits : offset + bytes.length ≤ out.length) (i : Nat) :
    (assign out offset bytes)[i]? =
      if offset ≤ i ∧ i < offset + bytes.length then bytes[i - offset]? else out[i]? := by
  have front : (out.take offset).length = offset := List.length_take_of_le (by omega)
  rw [assign, List.append_assoc, List.getElem?_append, List.getElem?_append, front,
    List.getElem?_drop]
  by_cases before : i < offset
  · rw [if_pos before, if_neg (by omega), List.getElem?_take_of_lt before]
  · rw [if_neg before]
    by_cases inside : i - offset < bytes.length
    · rw [if_pos inside, if_pos (by omega)]
    · have behind : offset + bytes.length + (i - offset - bytes.length) = i := by omega
      rw [if_neg inside, if_neg (by omega), behind]

theorem standsAt_assign (fits : offset + bytes.length ≤ out.length) :
    StandsAt (assign out offset bytes) offset bytes := by
  intro i inside
  rw [getElem?_assign fits, if_pos (by omega), Nat.add_sub_cancel_left]

theorem StandsAt.take (stands : StandsAt out offset bytes) :
    (out.drop offset).take bytes.length = bytes := by
  apply List.ext_getElem?
  intro i
  by_cases inside : i < bytes.length
  · rw [List.getElem?_take_of_lt inside, List.getElem?_drop, stands i inside]
  · rw [List.getElem?_take, if_neg inside, List.getElem?_eq_none (Nat.not_lt.mp inside)]

theorem StandsAt.assign {offset' : Nat} {bytes' : List α} (stands : StandsAt out offset' bytes')
    (fits : offset + bytes.length ≤ out.length)
    (apart : offset' + bytes'.length ≤ offset ∨ offset + bytes.length ≤ offset') :
    StandsAt (assign out offset bytes) offset' bytes' := by
  intro i inside
  rw [getElem?_assign fits, if_neg (by omega)]
  exact stands i inside

theorem standsAt_append {xs ys : List α} :
    StandsAt out offset (xs ++ ys) ↔
      StandsAt out offset xs ∧ StandsAt out (offset + xs.length) ys := by
  constructor
  · intro stands
    refine ⟨fun i inside => ?_, fun i inside => ?_⟩
    · rw [stands i (by rw [List.length_append]; omega), List.getElem?_append_left inside]
    · have here := stands (xs.length + i) (by rw [List.length_append]; omega)
      rw [← Nat.add_assoc, List.getElem?_append_right (Nat.le_add_right _ _),
        Nat.add_sub_cancel_left] at here
      exact here
  · intro ⟨one, two⟩ i inside
    rw [List.length_append] at inside
    by_cases first : i < xs.length
    · rw [one i first, List.getElem?_append_left first]
    · have here := two (i - xs.length) (by omega)
      rw [Nat.add_assoc, Nat.add_sub_of_le (Nat.not_lt.mp first)] at here
      rw [here, List.getElem?_append_right (Nat.not_lt.mp first)]

abbrev Write (α : Type) := Nat × List α

def Write.stop (w : Write α) : Nat := w.1 + w.2.length

def assignAll (out : List α) (writes : List (Write α)) : List α :=
  writes.foldl (fun out w => assign out w.1 w.2) out

theorem length_assignAll {writes : List (Write α)} (fits : ∀ w ∈ writes, w.stop ≤ out.length) :
    (assignAll out writes).length = out.length := by
  induction writes generalizing out with
  | nil => rfl
  | cons w writes ih =>
      rw [List.forall_mem_cons] at fits
      have length := length_assign fits.1
      refine (ih ?_).trans length
      rw [length]
      exact fits.2

theorem StandsAt.assignAll {writes : List (Write α)} (stands : StandsAt out offset bytes)
    (fits : ∀ w ∈ writes, w.stop ≤ out.length)
    (behind : ∀ w ∈ writes, offset + bytes.length ≤ w.1) :
    StandsAt (assignAll out writes) offset bytes := by
  induction writes generalizing out with
  | nil => exact stands
  | cons w writes ih =>
      rw [List.forall_mem_cons] at fits behind
      apply ih (stands.assign fits.1 (Or.inl behind.1)) _ behind.2
      rw [length_assign fits.1]
      exact fits.2

/-- Writes in the order of their places are all read back. -/
theorem standsAt_assignAll {writes : List (Write α)}
    (ordered : writes.Pairwise fun a b => a.stop ≤ b.1)
    (fits : ∀ w ∈ writes, w.stop ≤ out.length) :
    ∀ w ∈ writes, StandsAt (assignAll out writes) w.1 w.2 := by
  induction writes generalizing out with
  | nil => exact fun w there => absurd there List.not_mem_nil
  | cons w writes ih =>
      rw [List.forall_mem_cons] at fits ⊢
      obtain ⟨first, ordered⟩ := List.pairwise_cons.mp ordered
      have rest : ∀ w' ∈ writes, w'.stop ≤ (assign out w.1 w.2).length := by
        rw [length_assign fits.1]
        exact fits.2
      exact ⟨(standsAt_assign fits.1).assignAll rest first, ih ordered rest⟩

def writesFrom : Nat → List (List α) → List (Write α)
  | _, [] => []
  | offset, bytes :: rest => (offset, bytes) :: writesFrom (offset + bytes.length) rest

theorem writesFrom_bounds (offset : Nat) (strings : List (List α)) :
    ∀ w ∈ writesFrom offset strings, offset ≤ w.1 ∧ w.stop ≤ offset + strings.flatten.length := by
  induction strings generalizing offset with
  | nil => exact fun w there => absurd there List.not_mem_nil
  | cons bytes strings ih =>
      rw [writesFrom, List.forall_mem_cons, List.flatten_cons, List.length_append]
      refine ⟨⟨Nat.le_refl _, Nat.add_le_add_left (Nat.le_add_right _ _) _⟩, ?_⟩
      intro w there
      have here := ih (offset + bytes.length) w there
      omega

theorem writesFrom_ordered (offset : Nat) (strings : List (List α)) :
    (writesFrom offset strings).Pairwise fun a b => a.stop ≤ b.1 := by
  induction strings generalizing offset with
  | nil => exact List.Pairwise.nil
  | cons bytes strings ih =>
      rw [writesFrom, List.pairwise_cons]
      exact ⟨fun w there => (writesFrom_bounds _ _ w there).1, ih _⟩

theorem writesFrom_append (offset : Nat) (strings others : List (List α)) :
    writesFrom offset (strings ++ others) =
      writesFrom offset strings ++ writesFrom (offset + strings.flatten.length) others := by
  induction strings generalizing offset with
  | nil => rfl
  | cons bytes strings ih =>
      rw [List.cons_append, writesFrom, ih, writesFrom, List.cons_append, List.flatten_cons,
        List.length_append, Nat.add_assoc]

theorem assignAll_append (writes others : List (Write α)) :
    assignAll out (writes ++ others) = assignAll (assignAll out writes) others :=
  List.foldl_append

end Writes

/-! ## In memory -/

def LiesAt (mem : Mem) (base : UInt32) (image : List UInt8) : Prop :=
  ∀ i c, image[i]? = some c → mem (base + UInt32.ofNat i) = c

def le32 (n : Nat) : List UInt8 :=
  [UInt8.ofNat n, UInt8.ofNat (n / 2 ^ 8), UInt8.ofNat (n / 2 ^ 16), UInt8.ofNat (n / 2 ^ 24)]

theorem standsAt_words {image : List UInt8} {offset : Nat} {words : List Nat}
    (stands : StandsAt image offset (words.flatMap le32)) {i w : Nat} (there : words[i]? = some w) :
    StandsAt image (offset + 4 * i) (le32 w) := by
  induction words generalizing offset i with
  | nil => exact absurd there.symm (Option.some_ne_none w)
  | cons word words ih =>
      rw [List.flatMap_cons, standsAt_append] at stands
      cases i with
      | zero =>
          rw [List.getElem?_cons_zero, Option.some_inj] at there
          rw [← there]
          exact stands.1
      | succ i =>
          rw [List.getElem?_cons_succ] at there
          have here := ih stands.2 there
          rw [Nat.mul_succ, Nat.add_comm (4 * i), ← Nat.add_assoc]
          exact here

/-- The file from `base` on, and zeros elsewhere. -/
def ofBytes (base : UInt32) (image : List UInt8) : Mem := fun a => image.getD (a - base).toNat 0

theorem liesAt_ofBytes (base : UInt32) {image : List UInt8} (small : image.length ≤ 2 ^ 32) :
    LiesAt (ofBytes base image) base image := by
  intro i c there
  have inside := (List.getElem?_eq_some_iff.mp there).1
  have offset : (base + UInt32.ofNat i - base).toNat = i := by
    rw [UInt32.add_comm, UInt32.add_sub_cancel, UInt32.toNat_ofNat_of_lt']
    exact Nat.lt_of_lt_of_le inside small
  rw [ofBytes, offset, List.getD_eq_getElem?_getD, there]
  rfl

section Memory
variable {mem : Mem} {base : UInt32} {image bytes : List UInt8} {offset n : Nat}

theorem lies_byte (lies : LiesAt mem base image) (stands : StandsAt image offset bytes) {i : Nat}
    (inside : i < bytes.length) :
    mem (base + UInt32.ofNat offset + UInt32.ofNat i) = bytes[i] := by
  rw [UInt32.add_assoc, ← UInt32.ofNat_add]
  apply lies
  rw [stands i inside, List.getElem?_eq_getElem inside]

theorem toNat_or_byte (a : UInt32) (c : UInt8) {k : UInt32} (below : a.toNat < 2 ^ k.toNat)
    (room : k.toNat + 8 ≤ 32) :
    (a ||| (c.toUInt32 <<< k)).toNat = a.toNat + c.toNat * 2 ^ k.toNat := by
  have byte : c.toNat < 2 ^ 8 := c.toNat_lt
  have top : c.toNat * 2 ^ k.toNat < 2 ^ 32 := by
    calc c.toNat * 2 ^ k.toNat < 2 ^ 8 * 2 ^ k.toNat :=
          Nat.mul_lt_mul_of_pos_right byte (Nat.two_pow_pos _)
      _ = 2 ^ (8 + k.toNat) := (Nat.pow_add 2 8 _).symm
      _ ≤ 2 ^ 32 := Nat.pow_le_pow_right (by decide) (by omega)
  have small : k.toNat % 32 = k.toNat := Nat.mod_eq_of_lt (by omega)
  rw [UInt32.toNat_or, UInt32.toNat_shiftLeft, UInt8.toNat_toUInt32, small, Nat.shiftLeft_eq,
    Nat.mod_eq_of_lt top, Nat.lor_comm, Nat.mul_comm, ← Nat.two_pow_add_eq_or_of_lt below,
    Nat.add_comm]

theorem join_bytes (n : Nat) :
    (UInt8.ofNat n).toUInt32 ||| ((UInt8.ofNat (n / 2 ^ 8)).toUInt32 <<< 8) |||
        ((UInt8.ofNat (n / 2 ^ 16)).toUInt32 <<< 16) |||
          ((UInt8.ofNat (n / 2 ^ 24)).toUInt32 <<< 24) = UInt32.ofNat n := by
  have byte (m : Nat) : (UInt8.ofNat m).toNat = m % 256 := UInt8.toNat_ofNat'
  have eight : (8 : UInt32).toNat = 8 := rfl
  have sixteen : (16 : UInt32).toNat = 16 := rfl
  have twentyFour : (24 : UInt32).toNat = 24 := rfl
  have first : (UInt8.ofNat n).toUInt32.toNat = n % 256 := by
    rw [UInt8.toNat_toUInt32, byte]
  have second := toNat_or_byte (UInt8.ofNat n).toUInt32 (UInt8.ofNat (n / 2 ^ 8)) (k := 8)
    (by rw [first, eight]; omega) (by decide)
  rw [first, byte, eight] at second
  have third := toNat_or_byte _ (UInt8.ofNat (n / 2 ^ 16)) (k := 16)
    (by rw [second, sixteen]; omega) (by decide)
  rw [second, byte, sixteen] at third
  have fourth := toNat_or_byte _ (UInt8.ofNat (n / 2 ^ 24)) (k := 24)
    (by rw [third, twentyFour]; omega) (by decide)
  rw [third, byte, twentyFour] at fourth
  rw [← UInt32.toNat_inj, fourth, UInt32.toNat_ofNat']
  omega

theorem offset_add (base : UInt32) (offset k : Nat) :
    base + UInt32.ofNat offset + UInt32.ofNat k = base + UInt32.ofNat (offset + k) := by
  rw [UInt32.ofNat_add, UInt32.add_assoc]

theorem read32_standsAt (lies : LiesAt mem base image) (stands : StandsAt image offset (le32 n)) :
    read32 mem (base + UInt32.ofNat offset) = UInt32.ofNat n := by
  have four : (le32 n).length = 4 := rfl
  have byte (i : Nat) (inside : i < 4) :
      mem (base + UInt32.ofNat offset + UInt32.ofNat i) = (le32 n)[i] := lies_byte lies stands inside
  have zero := byte 0 (by decide)
  have one := byte 1 (by decide)
  have two := byte 2 (by decide)
  have three := byte 3 (by decide)
  have start : base + UInt32.ofNat offset + UInt32.ofNat 0 = base + UInt32.ofNat offset :=
    UInt32.add_zero _
  rw [start] at zero
  change mem (base + UInt32.ofNat offset + 1) = _ at one
  change mem (base + UInt32.ofNat offset + 2) = _ at two
  change mem (base + UInt32.ofNat offset + 3) = _ at three
  rw [read32, zero, one, two, three]
  exact join_bytes n

/-- A word of a structure at `offset`, one of the words that stand at `start`. -/
theorem read32_field {words : List Nat} {start k i w : Nat} (lies : LiesAt mem base image)
    (stands : StandsAt image start (words.flatMap le32)) (there : words[i]? = some w)
    (place : start + 4 * i = offset + k) :
    read32 mem (base + UInt32.ofNat offset + UInt32.ofNat k) = UInt32.ofNat w := by
  rw [offset_add, ← place]
  exact read32_standsAt lies (standsAt_words stands there)

theorem map_standsAt (lies : LiesAt mem base image) (stands : StandsAt image offset bytes) :
    (List.range bytes.length).map (fun i => mem (base + UInt32.ofNat offset + UInt32.ofNat i)) =
      bytes := by
  apply List.ext_getElem
  · rw [List.length_map, List.length_range]
  · intro i _ inside
    rw [List.getElem_map, List.getElem_range]
    exact lies_byte lies stands inside

end Memory

end Stage90.Lib

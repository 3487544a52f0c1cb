import Mathlib.Data.List.TakeWhile
import Mathlib.Logic.Function.Basic
import Stage90.Console.RingLog
import Stage90.Lib.Scan

/-!
# Reading records back

`KV_RE` and `parse_kv` of `tools/usb_ladder_verify.py`.  `=` is no key byte, so the greedy
`[A-Za-z0-9_.]+` can only end where the run of key bytes ends.
-/

set_option autoImplicit false

namespace Stage90.Console

open Stage90.Lib

/-- `[A-Za-z0-9_.]`. -/
def isKeyByte (c : UInt8) : Bool :=
  65 ≤ c && c ≤ 90 || 97 ≤ c && c ≤ 122 || 48 ≤ c && c ≤ 57 || c == 95 || c == 46

/-- `[0-9a-fA-F]`. -/
def isHexByte (c : UInt8) : Bool :=
  48 ≤ c && c ≤ 57 || 97 ≤ c && c ≤ 102 || 65 ≤ c && c ≤ 70

def hexByteValue (c : UInt8) : Nat :=
  if c ≤ 57 then c.toNat - 48 else if c ≤ 70 then c.toNat - 55 else c.toNat - 87

/-- `int(digits, 16)`. -/
def hexNumber (digits : List UInt8) : Nat := digits.foldl (fun n c => n * 16 + hexByteValue c) 0

/-- `=0x([0-9a-fA-F]{8})` for a text of eleven bytes. -/
def isValue (text : List UInt8) : Bool :=
  text.length == 11 && text.take 3 == ascii "=0x" && (text.drop 3).all isHexByte

/-- A match of `KV_RE` at the first position: its two groups, and its length. -/
def kvRe (text : List UInt8) : Option ((List UInt8 × Nat) × Nat) :=
  let key := text.takeWhile isKeyByte
  let value := (text.dropWhile isKeyByte).take 11
  if key ≠ [] ∧ isValue value then some ((key, hexNumber (value.drop 3)), key.length + 11)
  else none

/-- `KV_RE.finditer`. -/
def kvMatches (text : List UInt8) : List (List UInt8 × Nat) := scan kvRe 0 text

structure Parsed where
  vals : List UInt8 → Option Nat
  counts : List UInt8 → Nat

def Parsed.empty : Parsed := ⟨fun _ => none, fun _ => 0⟩

def Parsed.add (p : Parsed) (found : List UInt8 × Nat) : Parsed where
  vals :=
    match p.vals found.1 with
    | none => Function.update p.vals found.1 (some found.2)
    | some v => if v < found.2 then Function.update p.vals found.1 (some found.2) else p.vals
  counts := Function.update p.counts found.1 (p.counts found.1 + 1)

def parseKv (raw : List UInt8) : Parsed := (kvMatches raw).foldl Parsed.add .empty

/-! ## The two dictionaries -/

def valuesOf (found : List (List UInt8 × Nat)) (key : List UInt8) : List Nat :=
  (found.filter fun m => m.1 = key).map Prod.snd

theorem max?_snoc (ns : List Nat) (n : Nat) : (ns ++ [n]).max? = some ((ns.max?.getD n).max n) := by
  cases ns with
  | nil => simp
  | cons m ns =>
      rw [List.cons_append, List.max?_cons', List.max?_cons', List.foldl_append]
      rfl

theorem Parsed.add_vals (p : Parsed) (found : List UInt8 × Nat) (key : List UInt8) :
    (p.add found).vals key =
      if key = found.1 then some (((p.vals key).getD found.2).max found.2) else p.vals key := by
  by_cases here : key = found.1
  · subst here
    rw [if_pos rfl, Parsed.add]
    cases before : p.vals found.1 with
    | none => simp
    | some v =>
        by_cases larger : v < found.2
        · simp [larger, Nat.max_eq_right (Nat.le_of_lt larger)]
        · simp [larger, before, Nat.max_eq_left (Nat.le_of_not_lt larger)]
  · rw [if_neg here, Parsed.add]
    cases p.vals found.1 with
    | none => exact Function.update_of_ne here _ _
    | some v =>
        by_cases larger : v < found.2
        · simp [larger, here]
        · simp [larger]

theorem Parsed.add_counts (p : Parsed) (found : List UInt8 × Nat) (key : List UInt8) :
    (p.add found).counts key = p.counts key + if key = found.1 then 1 else 0 := by
  by_cases here : key = found.1
  · subst here
    simp [Parsed.add]
  · simp [Parsed.add, here]

theorem valuesOf_snoc (found : List (List UInt8 × Nat)) (m : List UInt8 × Nat)
    (key : List UInt8) :
    valuesOf (found ++ [m]) key = valuesOf found key ++ if key = m.1 then [m.2] else [] := by
  rw [valuesOf, List.filter_append, List.map_append, valuesOf]
  by_cases here : key = m.1
  · simp [here]
  · have other : m.1 ≠ key := fun same => here same.symm
    simp [here, other]

theorem parsed_foldl (found : List (List UInt8 × Nat)) (key : List UInt8) :
    (found.foldl Parsed.add .empty).vals key = (valuesOf found key).max? ∧
      (found.foldl Parsed.add .empty).counts key = (valuesOf found key).length := by
  induction found using List.reverseRecOn with
  | nil => exact ⟨rfl, rfl⟩
  | append_singleton found m ih =>
      rw [List.foldl_append, List.foldl_cons, List.foldl_nil, Parsed.add_vals, Parsed.add_counts,
        ih.1, ih.2, valuesOf_snoc, List.length_append]
      by_cases here : key = m.1
      · rw [if_pos here, if_pos here, if_pos here, max?_snoc]
        exact ⟨rfl, rfl⟩
      · rw [if_neg here, if_neg here, if_neg here, List.append_nil]
        exact ⟨rfl, rfl⟩

/-! ## Matches in a text -/

def Stops (text : List UInt8) : Prop := ∀ c ∈ text.head?, isKeyByte c = false

theorem stops_nil : Stops [] := by
  intro c member
  cases member

theorem stops_cons {c : UInt8} (text : List UInt8) (stop : isKeyByte c = false) :
    Stops (c :: text) := by
  intro d member
  cases member
  exact stop

theorem kvRe_run {run text : List UInt8} (keys : ∀ c ∈ run, isKeyByte c) (stops : Stops text) :
    kvRe (run ++ text) =
      if run ≠ [] ∧ isValue (text.take 11) then
        some ((run, hexNumber ((text.take 11).drop 3)), run.length + 11)
      else none := by
  have ends : text.takeWhile isKeyByte = [] ∧ text.dropWhile isKeyByte = text := by
    cases text with
    | nil => exact ⟨rfl, rfl⟩
    | cons c text => simp [stops c rfl]
  rw [kvRe, List.takeWhile_append_of_pos keys, List.dropWhile_append_of_pos keys, ends.1, ends.2,
    List.append_nil]

theorem kvMatches_run {run text : List UInt8} (keys : ∀ c ∈ run, isKeyByte c)
    (stops : Stops text) (other : isValue (text.take 11) = false) :
    kvMatches (run ++ text) = kvMatches text := by
  apply scan_silent
  intro c s inside
  rw [← List.cons_append, kvRe_run (fun d member => keys d (inside.subset member)) stops, if_neg]
  intro ⟨_, value⟩
  rw [other] at value
  cases value

theorem kvMatches_stop {c : UInt8} (text : List UInt8) (stop : isKeyByte c = false) :
    kvMatches (c :: text) = kvMatches text := by
  have none_ : kvRe (c :: text) = none := by
    have empty := @kvRe_run [] _ (by simp) (stops_cons text stop)
    rwa [if_neg (by simp)] at empty
  rw [kvMatches, scan, none_]
  rfl

theorem kvRe_within (text : List UInt8) (m : List UInt8 × Nat) (length : Nat)
    (found : kvRe text = some (m, length)) : length ≤ text.length := by
  rw [kvRe] at found
  split at found
  · rename_i is
    have value := is.2
    simp only [isValue, Bool.and_eq_true, beq_iff_eq, List.length_take] at value
    have total : (text.takeWhile isKeyByte ++ text.dropWhile isKeyByte).length = text.length := by
      rw [List.takeWhile_append_dropWhile]
    rw [List.length_append] at total
    cases found
    omega
  · cases found

theorem isValue_separated (text rest : List UInt8) :
    isValue ((text ++ 32 :: rest).take 11) = isValue (text.take 11) := by
  by_cases long : 11 ≤ text.length
  · rw [List.take_append_of_le_length long]
  · have short : text.length < 11 := Nat.lt_of_not_le long
    have few : isValue (text.take 11) = false := by
      have length : (text.take 11).length ≠ 11 := by
        rw [List.length_take]
        omega
      rw [isValue, beq_false_of_ne length]
      rfl
    rw [few, Bool.eq_false_iff]
    intro value
    simp only [isValue, Bool.and_eq_true, beq_iff_eq, List.all_eq_true] at value
    obtain ⟨⟨_, sign⟩, hex⟩ := value
    -- the space stands among the eleven bytes, before or behind the third
    have space : (32 : UInt8) ∈ (text ++ 32 :: rest).take 11 := by
      rw [List.take_append, List.mem_append]
      right
      obtain ⟨n, room⟩ : ∃ n, 11 - text.length = n + 1 := ⟨11 - text.length - 1, by omega⟩
      rw [room, List.take_succ_cons]
      exact List.mem_cons_self
    rw [← List.take_append_drop 3 ((text ++ 32 :: rest).take 11), List.mem_append] at space
    cases space with
    | inl first =>
        rw [sign] at first
        revert first
        decide
    | inr later =>
        have bad := hex _ later
        revert bad
        decide

theorem kvRe_separated (text rest : List UInt8) : kvRe (text ++ 32 :: rest) = kvRe text := by
  have split : text.takeWhile isKeyByte ++ text.dropWhile isKeyByte = text :=
    List.takeWhile_append_dropWhile
  have keys : ∀ c ∈ text.takeWhile isKeyByte, isKeyByte c := fun c member =>
    List.mem_takeWhile_imp member
  have stops : Stops (text.dropWhile isKeyByte) := by
    intro c first
    have head := List.head?_dropWhile_not isKeyByte text
    rw [Option.mem_def] at first
    rw [first] at head
    simpa using head
  have further : Stops (text.dropWhile isKeyByte ++ 32 :: rest) := by
    cases tail : text.dropWhile isKeyByte with
    | nil => exact stops_cons rest (by decide)
    | cons c more =>
        rw [tail] at stops
        exact stops_cons _ (stops c rfl)
  rw [← split, List.append_assoc, kvRe_run keys further, kvRe_run keys stops, isValue_separated]
  by_cases value : isValue ((text.dropWhile isKeyByte).take 11)
  · have eleven : 11 ≤ (text.dropWhile isKeyByte).length := by
      simp only [isValue, Bool.and_eq_true, beq_iff_eq, List.length_take] at value
      omega
    rw [List.take_append_of_le_length eleven]
  · rw [if_neg (fun is => value is.2), if_neg (fun is => value is.2)]

/-- A space belongs to no match, so it may be cut at. -/
theorem kvMatches_separated (text rest : List UInt8) :
    kvMatches (text ++ 32 :: rest) = kvMatches text ++ kvMatches (32 :: rest) :=
  scan_separated kvRe_separated kvRe_within rest (Nat.zero_le _)

end Stage90.Console

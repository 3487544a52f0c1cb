import Stage90.Console.KvRoundTrip

/-!
# The record writer of the report buffers

`entry_kv_into` of `entry_stubs.c`.  The guard leaves 40 bytes for a record and the key's loop 20 for
the rest of it, both in 32 bits: below the wrap the second covers what follows the key, at it the
guard is met by a length that is past the capacity.
-/

set_option autoImplicit false

namespace Stage90.Console

open Stage90.Lib

/-! ## The code -/

structure KvBuffer where
  buf : Nat → UInt8
  len : UInt32
  dropped : UInt32
  stores : List Nat

def KvBuffer.store (b : KvBuffer) (c : UInt8) : KvBuffer :=
  { b with buf := overlay b.buf b.len.toNat [c], stores := b.stores ++ [b.len.toNat] }

/-- `buf[(*len_p)++] = c`. -/
def KvBuffer.put (b : KvBuffer) (c : UInt8) : KvBuffer := { b.store c with len := b.len + 1 }

def KvBuffer.puts (b : KvBuffer) (cs : List UInt8) : KvBuffer := cs.foldl KvBuffer.put b

def keyLoop (max : UInt32) : List UInt8 → KvBuffer → KvBuffer
  | [], b => b
  | c :: key, b => if b.len + 20 < max then keyLoop max key (b.put c) else b

/-- `d < 10u ? ('0' + d) : ('a' + (d - 10u))`. -/
def digitOf (d : UInt32) : UInt8 := if d < 10 then (48 + d).toUInt8 else (97 + (d - 10)).toUInt8

def digitAt (value : UInt32) (i : Nat) : UInt8 :=
  digitOf ((value >>> UInt32.ofNat (28 - i * 4)) &&& 0xf)

def entryKvInto (max : UInt32) (key : List UInt8) (value : UInt32) (b : KvBuffer) : KvBuffer :=
  if b.len + 40 ≥ max then { b with dropped := b.dropped + 1 }
  else
    let b := b.put 32
    let b := keyLoop max key b
    let b := b.puts (ascii "=0x")
    let b := b.puts ((List.range 8).map (digitAt value))
    let b := b.put 10
    b.store 0

/-! ## What a call has to do -/

def KvBuffer.textFrom (b : KvBuffer) (start : Nat) : List UInt8 :=
  (List.range (b.len.toNat - start)).map fun i => b.buf (start + i)

def readRecord (text : List UInt8) : Option (List UInt8 × Nat) :=
  let body := text.drop 1
  let tail := body.drop (body.length - 12)
  if text.take 1 = ascii " " ∧ isValue (tail.take 11) ∧ tail.drop 11 = ascii "\n" then
    some (body.take (body.length - 12), hexNumber ((tail.take 11).drop 3))
  else none

/-- Record `r` is added to the text, and reads back. -/
structure Appends (r : Record) (b b' : KvBuffer) : Prop where
  dropped : b'.dropped = b.dropped
  before : ∀ i < b.len.toNat, b'.buf i = b.buf i
  len : b'.len.toNat = b.len.toNat + (kvText r).length
  text : b'.textFrom b.len.toNat = kvText r
  terminated : b'.buf b'.len.toNat = 0
  reads : readRecord (b'.textFrom b.len.toNat) = some (r.key, r.value.toNat)
  found : r.Plain → r.key ≠ [] → kvMatches (b'.textFrom b.len.toNat) = [(r.key, r.value.toNat)]

structure Writes (max : UInt32) (key : List UInt8) (value : UInt32) (b b' : KvBuffer) : Prop where
  inside : ∃ stores, b'.stores = b.stores ++ stores ∧ ∀ i ∈ stores, i < max.toNat
  terminated : b.buf b.len.toNat = 0 → b'.buf b'.len.toNat = 0
  outcome : b' = { b with dropped := b.dropped + 1 } ∨ ∃ n, Appends ⟨key.take n, value⟩ b b'

/-- The guard does not wrap, or what gets past it fits all the same. -/
def Room (max len : UInt32) (key : List UInt8) : Prop :=
  len.toNat + 40 < 2 ^ 32 ∨ max.toNat + 2 ^ 32 ≤ len.toNat + 40 ∨
    (len.toNat + 21 < 2 ^ 32 ∧ len.toNat + 13 < max.toNat) ∨
    (2 ^ 32 ≤ len.toNat + 21 ∧ len.toNat + 13 + key.length < max.toNat)

/-! ## Characters -/

theorem digitOf_table : ∀ n : Fin 16, digitOf (UInt32.ofNat n) = hexDigit (UInt32.ofNat n) := by
  decide

theorem digits_eq (value : UInt32) : (List.range 8).map (digitAt value) = hexText value := by
  rw [hexText]
  apply List.map_congr_left
  intro i member
  have small : ((value >>> UInt32.ofNat (28 - i * 4)) &&& 0xf).toNat < 16 := by
    rw [nibble_toNat value (List.mem_range.mp member)]
    exact Nat.mod_lt _ (by decide)
  have entry := digitOf_table ⟨_, small⟩
  rwa [UInt32.ofNat_toNat] at entry

theorem puts_append (b : KvBuffer) (cs ds : List UInt8) : b.puts (cs ++ ds) = (b.puts cs).puts ds :=
  List.foldl_append

theorem puts_cons (b : KvBuffer) (c : UInt8) (cs : List UInt8) : b.puts (c :: cs) = (b.put c).puts cs := rfl

/-- Characters that reach no wrap. -/
theorem puts_eq (cs : List UInt8) : ∀ b : KvBuffer, b.len.toNat + cs.length < 2 ^ 32 →
    (b.puts cs).buf = overlay b.buf b.len.toNat cs ∧
      (b.puts cs).len.toNat = b.len.toNat + cs.length ∧ (b.puts cs).dropped = b.dropped ∧
      (b.puts cs).stores = b.stores ++ List.range' b.len.toNat cs.length := by
  induction cs with
  | nil =>
      intro b _
      refine ⟨(overlay_nil _ _).symm, rfl, rfl, ?_⟩
      rw [List.length_nil, List.range'_zero, List.append_nil]
      rfl
  | cons c cs ih =>
      intro b fits
      rw [List.length_cons] at fits
      have next : (b.put c).len.toNat = b.len.toNat + 1 := by
        change (b.len + 1).toNat = _
        rw [UInt32.toNat_add, UInt32.toNat_one]
        exact Nat.mod_eq_of_lt (by omega)
      obtain ⟨buf, len, dropped, stores⟩ := ih (b.put c) (by omega)
      rw [next] at buf len stores
      refine ⟨?_, ?_, dropped, ?_⟩
      · rw [puts_cons, buf, ← overlay_cons]
        rfl
      · rw [puts_cons, len, List.length_cons]
        omega
      · have one : (b.put c).stores = b.stores ++ [b.len.toNat] := rfl
        rw [puts_cons, stores, one, List.append_assoc, List.length_cons, List.range'_succ]
        rfl

theorem puts_stores (cs : List UInt8) : ∀ b : KvBuffer, ∃ rest, (b.puts cs).stores = b.stores ++ rest := by
  induction cs with
  | nil => exact fun b => ⟨[], (List.append_nil _).symm⟩
  | cons c cs ih =>
      intro b
      obtain ⟨rest, more⟩ := ih (b.put c)
      exact ⟨b.len.toNat :: rest, by rw [puts_cons, more]; exact List.append_assoc _ _ _⟩

/-! ## The key -/

def kept (max : UInt32) : List UInt8 → UInt32 → Nat
  | [], _ => 0
  | _ :: key, len => if len + 20 < max then kept max key (len + 1) + 1 else 0

theorem keyLoop_eq (max : UInt32) (key : List UInt8) : ∀ b : KvBuffer,
    keyLoop max key b = b.puts (key.take (kept max key b.len)) := by
  induction key with
  | nil => exact fun b => rfl
  | cons c key ih =>
      intro b
      rw [keyLoop, kept]
      split
      · rw [ih, List.take_succ_cons, puts_cons]
        rfl
      · rfl

theorem kept_le (max : UInt32) (key : List UInt8) : ∀ len, kept max key len ≤ key.length := by
  induction key with
  | nil => exact fun len => Nat.le_refl 0
  | cons c key ih =>
      intro len
      rw [kept]
      split
      · exact Nat.succ_le_succ (ih (len + 1))
      · exact Nat.zero_le _

theorem toNat_plus (len : UInt32) {n : UInt32} (fits : len.toNat + n.toNat < 2 ^ 32) :
    (len + n).toNat = len.toNat + n.toNat := by
  rw [UInt32.toNat_add]
  exact Nat.mod_eq_of_lt fits

theorem toNat_wrapped (len : UInt32) {n : UInt32} (wraps : 2 ^ 32 ≤ len.toNat + n.toNat) :
    (len + n).toNat = len.toNat + n.toNat - 2 ^ 32 := by
  have low := len.toNat_lt
  have small := n.toNat_lt
  rw [UInt32.toNat_add]
  omega

theorem kept_eq (max : UInt32) (key : List UInt8) : ∀ len : UInt32, len.toNat + 20 < 2 ^ 32 →
    kept max key len = min key.length (max.toNat - 20 - len.toNat) := by
  induction key with
  | nil => exact fun len _ => (Nat.zero_min _).symm
  | cons c key ih =>
      intro len low
      have top := max.toNat_lt
      have ahead : (len + 20).toNat = len.toNat + 20 := toNat_plus len low
      rw [kept, List.length_cons]
      by_cases room : len + 20 < max
      · rw [if_pos room]
        rw [UInt32.lt_iff_toNat_lt, ahead] at room
        have next : (len + 1).toNat = len.toNat + 1 := toNat_plus len (by change len.toNat + 1 < _; omega)
        rw [ih (len + 1) (by omega), next]
        omega
      · rw [if_neg room]
        rw [UInt32.lt_iff_toNat_lt, ahead] at room
        omega

/-- Once the loop's own sum has wrapped it goes on up to the wrap of the length. -/
theorem kept_wrapped (max : UInt32) (large : 20 ≤ max.toNat) (key : List UInt8) : ∀ len : UInt32,
    2 ^ 32 ≤ len.toNat + 20 → min key.length (2 ^ 32 - len.toNat) ≤ kept max key len := by
  induction key with
  | nil => exact fun len _ => Nat.le_of_eq (Nat.zero_min _)
  | cons c key ih =>
      intro len high
      have top := len.toNat_lt
      have ahead : (len + 20).toNat = len.toNat + 20 - 2 ^ 32 := toNat_wrapped len high
      have room : len + 20 < max := by
        rw [UInt32.lt_iff_toNat_lt, ahead]
        omega
      rw [kept, if_pos room, List.length_cons]
      by_cases last : len.toNat + 1 < 2 ^ 32
      · have next : (len + 1).toNat = len.toNat + 1 := toNat_plus len last
        have more := ih (len + 1) (by omega)
        rw [next] at more
        omega
      · omega

/-! ## A record -/

def recordOf (max : UInt32) (key : List UInt8) (value : UInt32) (b : KvBuffer) : Record :=
  ⟨key.take (kept max key (b.len + 1)), value⟩

theorem entryKvInto_eq {max : UInt32} {key : List UInt8} {value : UInt32} {b : KvBuffer}
    (room : ¬ b.len + 40 ≥ max) :
    entryKvInto max key value b = (b.puts (kvText (recordOf max key value b))).store 0 := by
  have single (b : KvBuffer) : b.put 10 = b.puts (ascii "\n") := rfl
  have blank : (b.put 32).len = b.len + 1 := rfl
  rw [entryKvInto, if_neg room]
  dsimp only
  rw [keyLoop_eq, blank, digits_eq, single, kvText_eq, puts_cons, puts_append, puts_append, valueText,
    puts_append]
  rfl

theorem length_recordOf (max : UInt32) (key : List UInt8) (value : UInt32) (b : KvBuffer) :
    (kvText (recordOf max key value b)).length = kept max key (b.len + 1) + 13 := by
  rw [length_kvText, recordOf, List.length_take, Nat.min_eq_left (kept_le max key (b.len + 1))]

theorem readRecord_kvText (r : Record) : readRecord (kvText r) = some (r.key, r.value.toNat) := by
  have body : (kvText r).drop 1 = r.key ++ (valueText r.value ++ ascii "\n") := by
    rw [kvText_eq]
    rfl
  have length : (r.key ++ (valueText r.value ++ ascii "\n")).length - 12 = r.key.length := by
    have newline : (ascii "\n").length = 1 := rfl
    rw [List.length_append, List.length_append, length_valueText, newline]
    exact Nat.add_sub_cancel r.key.length 12
  have eleven := length_valueText r.value
  have value : (valueText r.value ++ ascii "\n").take 11 = valueText r.value := List.take_left' eleven
  have newline : (valueText r.value ++ ascii "\n").drop 11 = ascii "\n" := List.drop_left' eleven
  have first : (kvText r).take 1 = ascii " " := by
    rw [kvText_eq]
    rfl
  have digits : hexNumber ((valueText r.value).drop 3) = r.value.toNat := hexNumber_hexText r.value
  rw [readRecord]
  simp only [body, length, List.drop_left, List.take_left, value, newline, first]
  rw [if_pos ⟨trivial, isValue_valueText r.value, trivial⟩, digits]

theorem textFrom_of_holds {b : KvBuffer} {start : Nat} {cs : List UInt8} (holds : Holds b.buf start cs)
    (len : b.len.toNat = start + cs.length) : b.textFrom start = cs := by
  rw [KvBuffer.textFrom, len, Nat.add_sub_cancel_left]
  apply List.ext_getElem
  · rw [List.length_map, List.length_range]
  · intro i _ inside
    rw [List.getElem_map, List.getElem_range]
    exact holds i cs[i] (List.getElem?_eq_getElem inside)

section Call
variable {max value : UInt32} {key : List UInt8} {b : KvBuffer}

theorem writes_of_fits (room : ¬ b.len + 40 ≥ max)
    (fits : b.len.toNat + kept max key (b.len + 1) + 13 < max.toNat) :
    Writes max key value b (entryKvInto max key value b) := by
  set r := recordOf max key value b with r_eq
  have length : (kvText r).length = kept max key (b.len + 1) + 13 := length_recordOf max key value b
  have top := max.toNat_lt
  obtain ⟨buf, len, dropped, stores⟩ := puts_eq (kvText r) b (by omega)
  set p := b.puts (kvText r) with p_eq
  have final : entryKvInto max key value b = p.store 0 := entryKvInto_eq room
  have nul : (p.store 0).buf = overlay p.buf p.len.toNat [0] := rfl
  have place : (p.store 0).len = p.len := rfl
  have kept_ (i : Nat) (below : i < p.len.toNat) : (p.store 0).buf i = p.buf i := by
    rw [nul, overlay_of_lt _ _ below]
  have terminated : (p.store 0).buf (p.store 0).len.toNat = 0 := by
    rw [nul, place]
    exact holds_overlay p.buf p.len.toNat [0] 0 0 rfl
  have holds : Holds (p.store 0).buf b.len.toNat (kvText r) := by
    have written : Holds p.buf b.len.toNat (kvText r) := by
      rw [buf]
      exact holds_overlay _ _ _
    exact written.frame (Nat.le_of_eq len.symm) kept_
  have text : (p.store 0).textFrom b.len.toNat = kvText r := textFrom_of_holds holds (place ▸ len)
  rw [final]
  constructor
  case inside =>
    refine ⟨List.range' b.len.toNat (kvText r).length ++ [p.len.toNat], ?_, ?_⟩
    · rw [← List.append_assoc, ← stores]
      rfl
    · intro i member
      rcases List.mem_append.mp member with char | last
      · obtain ⟨j, inside, rfl⟩ := List.mem_range'.mp char
        omega
      · rw [List.mem_singleton.mp last]
        omega
  case terminated => exact fun _ => terminated
  case outcome =>
    refine .inr ⟨kept max key (b.len + 1), ?_⟩
    constructor
    case dropped => exact dropped
    case before =>
      intro i below
      rw [kept_ i (by omega), buf, overlay_of_lt _ _ below]
    case len => exact len
    case text => exact text
    case terminated => exact terminated
    case reads =>
      rw [text]
      exact readRecord_kvText r
    case found =>
      intro plain some_
      have whole := kvMatches_whole plain 1
      rw [if_pos some_] at whole
      rw [text, kvText_eq]
      exact whole

/-- A call past the guard that keeps inside has room for all it stores. -/
theorem fits_of_writes (room : ¬ b.len + 40 ≥ max) (writes : Writes max key value b (entryKvInto max key value b)) :
    b.len.toNat + kept max key (b.len + 1) + 13 < max.toNat := by
  by_contra short
  obtain ⟨stores, all, inside⟩ := writes.inside
  have length := length_recordOf max key value b
  have top := max.toNat_lt
  rw [entryKvInto_eq room] at all
  set text := kvText (recordOf max key value b) with text_eq
  -- the characters up to the capacity, and the first store behind them
  have low : b.len.toNat + (text.take (max.toNat - b.len.toNat)).length < 2 ^ 32 := by
    have len := b.len.toNat_lt
    rw [List.length_take]
    omega
  obtain ⟨_, len, _, early⟩ := puts_eq (text.take (max.toNat - b.len.toNat)) b low
  have split : b.puts text = (b.puts (text.take (max.toNat - b.len.toNat))).puts
      (text.drop (max.toNat - b.len.toNat)) := by
    rw [← puts_append, List.take_append_drop]
  rw [split] at all
  rw [List.length_take] at len
  set p := b.puts (text.take (max.toNat - b.len.toNat)) with p_eq
  have outside : ¬ p.len.toNat < max.toNat := by omega
  have stored : ∃ rest, ((p.puts (text.drop (max.toNat - b.len.toNat))).store 0).stores =
      p.stores ++ p.len.toNat :: rest := by
    cases text.drop (max.toNat - b.len.toNat) with
    | nil => exact ⟨[], rfl⟩
    | cons c cs =>
        obtain ⟨rest, more⟩ := puts_stores cs (p.put c)
        refine ⟨rest ++ [((p.put c).puts cs).len.toNat], ?_⟩
        have last : (((p.put c).puts cs).store 0).stores =
            ((p.put c).puts cs).stores ++ [((p.put c).puts cs).len.toNat] := rfl
        have one : (p.put c).stores = p.stores ++ [p.len.toNat] := rfl
        rw [puts_cons, last, more, one, List.append_assoc, List.append_assoc]
        rfl
  obtain ⟨rest, here⟩ := stored
  rw [here, early, List.append_assoc] at all
  have same := List.append_cancel_left all
  apply outside
  apply inside
  rw [← same]
  exact List.mem_append_right _ List.mem_cons_self

/-- The room there is for what gets past the guard. -/
theorem room_iff_fits (room : ¬ b.len + 40 ≥ max) :
    Room max b.len key ↔ b.len.toNat + kept max key (b.len + 1) + 13 < max.toNat := by
  have len := b.len.toNat_lt
  have top := max.toNat_lt
  have most := kept_le max key (b.len + 1)
  rw [ge_iff_le, UInt32.le_iff_toNat_le] at room
  rw [Room]
  by_cases low : b.len.toNat + 21 < 2 ^ 32
  · have next : (b.len + 1).toNat = b.len.toNat + 1 := toNat_plus b.len (by change b.len.toNat + 1 < _; omega)
    have exact_ := kept_eq max key (b.len + 1) (by omega)
    rw [next] at exact_
    by_cases guard : b.len.toNat + 40 < 2 ^ 32
    · have forty : (b.len + 40).toNat = b.len.toNat + 40 := toNat_plus b.len guard
      omega
    · have forty : (b.len + 40).toNat = b.len.toNat + 40 - 2 ^ 32 := toNat_wrapped b.len (Nat.not_lt.mp guard)
      omega
  · have forty : (b.len + 40).toNat = b.len.toNat + 40 - 2 ^ 32 :=
      toNat_wrapped b.len (by change 2 ^ 32 ≤ b.len.toNat + 40; omega)
    by_cases last : b.len.toNat + 1 < 2 ^ 32
    · have next : (b.len + 1).toNat = b.len.toNat + 1 := toNat_plus b.len last
      have least := kept_wrapped max (by omega) key (b.len + 1) (by omega)
      rw [next] at least
      omega
    · omega

end Call

/-- A call writes one whole record or counts it as dropped, exactly if the guard's sum does not wrap or
what it then lets through has room. -/
theorem record_written_iff (max : UInt32) (key : List UInt8) (value : UInt32) (b : KvBuffer) :
    Writes max key value b (entryKvInto max key value b) ↔ Room max b.len key := by
  by_cases room : b.len + 40 ≥ max
  · have dropped : entryKvInto max key value b = { b with dropped := b.dropped + 1 } := if_pos room
    refine ⟨fun _ => ?_, fun _ => ?_⟩
    · rw [Room]
      rw [ge_iff_le, UInt32.le_iff_toNat_le] at room
      by_cases guard : b.len.toNat + 40 < 2 ^ 32
      · exact .inl guard
      · have forty : (b.len + 40).toNat = b.len.toNat + 40 - 2 ^ 32 :=
          toNat_wrapped b.len (Nat.not_lt.mp guard)
        omega
    · rw [dropped]
      exact ⟨⟨[], (List.append_nil _).symm, fun i member => absurd member List.not_mem_nil⟩, id, .inl rfl⟩
  · rw [room_iff_fits room]
    exact ⟨fits_of_writes room, writes_of_fits room⟩

/-- A length near the wrap passes the guard of any capacity above 30. -/
theorem guard_wraps :
    ¬ ∀ (max : UInt32) (key : List UInt8) (value : UInt32) (b : KvBuffer),
      Writes max key value b (entryKvInto max key value b) := by
  intro holds
  obtain ⟨stores, all, inside⟩ := (holds 100 [] 0 ⟨fun _ => 0, 0xfffffff6, 0, []⟩).inside
  have first : 0xfffffff6 ∈ stores := by
    rw [List.nil_append] at all
    rw [← all]
    decide +kernel
  exact absurd (inside _ first) (by decide)

end Stage90.Console

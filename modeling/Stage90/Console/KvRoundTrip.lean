import Stage90.Console.KvParse

/-!
# What the writer wrote and the tool reads

Each record that the ring takes up to its last digit is found again, with its key and its
value, and nothing else is found, wherever the capacity cuts.
-/

set_option autoImplicit false

namespace Stage90.Console

open Stage90.Lib

/-! ## Digits -/

theorem hexDigit_table : ∀ n : Fin 16,
    isHexByte (hexDigit (UInt32.ofNat n)) ∧ isKeyByte (hexDigit (UInt32.ofNat n)) ∧
      hexByteValue (hexDigit (UInt32.ofNat n)) = n := by
  decide

theorem nibble_toNat (value : UInt32) {i : Nat} (digit : i < 8) :
    ((value >>> UInt32.ofNat (28 - i * 4)) &&& 0xf).toNat = value.toNat / 16 ^ (7 - i) % 16 := by
  have shift : (UInt32.ofNat (28 - i * 4)).toNat % 32 = 4 * (7 - i) := by
    rw [UInt32.toNat_ofNat']
    omega
  have mask : (0xf : UInt32).toNat = 2 ^ 4 - 1 := by decide
  rw [UInt32.toNat_and, UInt32.toNat_shiftRight, shift, mask, Nat.and_two_pow_sub_one_eq_mod,
    Nat.shiftRight_eq_div_pow, Nat.pow_mul]

theorem hexAt_spec (value : UInt32) {i : Nat} (digit : i < 8) :
    isHexByte (hexAt value i) ∧ isKeyByte (hexAt value i) ∧
      hexByteValue (hexAt value i) = value.toNat / 16 ^ (7 - i) % 16 := by
  have nibble := nibble_toNat value digit
  have small : ((value >>> UInt32.ofNat (28 - i * 4)) &&& 0xf).toNat < 16 := by
    rw [nibble]
    exact Nat.mod_lt _ (by decide)
  have entry := hexDigit_table ⟨_, small⟩
  rw [UInt32.ofNat_toNat] at entry
  exact ⟨entry.1, entry.2.1, entry.2.2.trans nibble⟩

theorem hexNumber_prefix (value : UInt32) (n : Nat) (digits : n ≤ 8) :
    hexNumber ((List.range n).map (hexAt value)) = value.toNat / 16 ^ (8 - n) := by
  induction n with
  | zero =>
      have bound := value.toNat_lt
      exact (Nat.div_eq_of_lt bound).symm
  | succ n ih =>
      have place : 8 - n = (7 - n) + 1 := by omega
      have below : 8 - (n + 1) = 7 - n := by omega
      rw [List.range_succ, List.map_append, hexNumber, List.foldl_append, ← hexNumber,
        ih (by omega), List.map_singleton, List.foldl_cons, List.foldl_nil,
        (hexAt_spec value digits).2.2, place, below, Nat.pow_succ, ← Nat.div_div_eq_div_mul]
      exact Nat.div_add_mod' _ 16

theorem hexNumber_hexText (value : UInt32) : hexNumber (hexText value) = value.toNat := by
  rw [hexText, hexNumber_prefix value 8 le_rfl, Nat.sub_self, Nat.pow_zero, Nat.div_one]

@[simp] theorem length_hexText (value : UInt32) : (hexText value).length = 8 := by
  simp [hexText]

theorem hexText_bytes (value : UInt32) (c : UInt8) (member : c ∈ hexText value) :
    isHexByte c ∧ isKeyByte c := by
  obtain ⟨i, digit, rfl⟩ := List.mem_map.mp member
  have spec := hexAt_spec value (List.mem_range.mp digit)
  exact ⟨spec.1, spec.2.1⟩

theorem number_bytes (value : UInt32) : ∀ c ∈ ascii "0x" ++ hexText value, isKeyByte c := by
  intro c member
  rw [List.mem_append] at member
  cases member with
  | inl zero =>
      have plain : (ascii "0x").all isKeyByte = true := by decide
      exact List.all_eq_true.mp plain c zero
  | inr digit => exact (hexText_bytes value c digit).2

/-! ## One record -/

/-- `=0x` and the digits. -/
def valueText (value : UInt32) : List UInt8 := ascii "=0x" ++ hexText value

@[simp] theorem length_valueText (value : UInt32) : (valueText value).length = 11 := by
  rw [valueText, List.length_append, length_hexText]
  rfl

theorem isValue_valueText (value : UInt32) : isValue (valueText value) = true := by
  have hex : (hexText value).all isHexByte = true := by
    rw [List.all_eq_true]
    intro c member
    exact (hexText_bytes value c member).1
  have sign : (valueText value).take 3 = ascii "=0x" := rfl
  have digits : (valueText value).drop 3 = hexText value := rfl
  simp only [isValue, length_valueText, sign, digits, hex, beq_self_eq_true, Bool.and_self]

theorem kvText_eq (r : Record) :
    kvText r = 32 :: (r.key ++ (valueText r.value ++ ascii "\n")) := by
  have space : ascii " " = [32] := rfl
  rw [kvText, valueText, space, List.append_assoc, List.append_assoc, List.append_assoc,
    List.append_assoc, List.singleton_append]

/-- A record whose key is a string over `[A-Za-z0-9_.]`. -/
def Record.Plain (r : Record) : Prop := ∀ c ∈ r.key, isKeyByte c

/-- The match that a record leaves in the text, when the ring has taken its last digit. -/
def Entry.found (e : Entry) : List (List UInt8 × Nat) :=
  if e.record.key ≠ [] ∧ e.record.key.length + 12 ≤ e.stored then
    [(e.record.key, e.record.value.toNat)]
  else []

theorem stops_valueText (value : UInt32) (text : List UInt8) : Stops (valueText value ++ text) :=
  stops_cons _ (by decide)

theorem take_valueText (value : UInt32) (text : List UInt8) :
    (valueText value ++ text).take 11 = valueText value :=
  List.take_left' (length_valueText value)

theorem valueText_silent (value : UInt32) {text : List UInt8} (stops : Stops text)
    (other : isValue (text.take 11) = false) :
    kvMatches (valueText value ++ text) = kvMatches text := by
  have run : valueText value = 61 :: (ascii "0x" ++ hexText value) := rfl
  rw [run, List.cons_append, kvMatches_stop _ (by decide),
    kvMatches_run (number_bytes value) stops other]

theorem newline_silent (n : Nat) :
    Stops ((ascii "\n").take n) ∧ isValue (((ascii "\n").take n).take 11) = false ∧
      kvMatches ((ascii "\n").take n) = [] := by
  cases n with
  | zero => exact ⟨stops_nil, rfl, rfl⟩
  | succ n =>
      have all : (ascii "\n").take (n + 1) = [10] := by
        rw [List.take_of_length_le]
        · rfl
        · exact Nat.le_add_left 1 n
      rw [all]
      exact ⟨stops_cons _ (by decide), rfl, kvMatches_stop [] (by decide)⟩

/-- A record that has its digits, with or without its newline. -/
theorem kvMatches_whole {r : Record} (plain : r.Plain) (n : Nat) :
    kvMatches (32 :: (r.key ++ (valueText r.value ++ (ascii "\n").take n))) =
      if r.key ≠ [] then [(r.key, r.value.toNat)] else [] := by
  obtain ⟨stops, other, silent⟩ := newline_silent n
  rw [kvMatches_stop _ (by decide)]
  by_cases empty : r.key = []
  · rw [if_neg (fun some_ => some_ empty), empty, List.nil_append, valueText_silent _ stops other,
      silent]
  · obtain ⟨c, key, cons⟩ := List.exists_cons_of_ne_nil empty
    have digits : hexNumber ((valueText r.value).drop 3) = r.value.toNat := hexNumber_hexText _
    have here := kvRe_run plain (stops_valueText r.value ((ascii "\n").take n))
    rw [take_valueText, if_pos ⟨empty, isValue_valueText _⟩, digits, cons, List.cons_append,
      ← List.append_assoc] at here
    rw [if_pos empty, cons, List.cons_append, ← List.append_assoc, kvMatches, scan_found,
      ← kvMatches, silent]
    rw [here, List.length_append, length_valueText, List.length_cons]

/-- A record that is cut before its last digit. -/
theorem kvMatches_cut {r : Record} (plain : r.Plain) {n : Nat} (cut : n < r.key.length + 11) :
    kvMatches (32 :: (r.key ++ (valueText r.value ++ ascii "\n")).take n) = [] := by
  have shorter : (valueText r.value ++ ascii "\n").take (n - r.key.length) =
      (valueText r.value).take (n - r.key.length) := by
    apply List.take_append_of_le_length
    rw [length_valueText]
    omega
  have run : ∀ c ∈ r.key.take n, isKeyByte c := fun c member => plain c (List.mem_of_mem_take member)
  have other : isValue (((valueText r.value).take (n - r.key.length)).take 11) = false := by
    have length : (((valueText r.value).take (n - r.key.length)).take 11).length ≠ 11 := by
      rw [List.length_take, List.length_take, length_valueText]
      omega
    rw [isValue, beq_false_of_ne length]
    rfl
  rw [kvMatches_stop _ (by decide), List.take_append, shorter]
  cases tail : n - r.key.length with
  | zero =>
      rw [List.take_zero, kvMatches_run run stops_nil rfl]
      rfl
  | succ m =>
      -- `=` and a run of key bytes that nothing follows
      have sign : (valueText r.value).take (m + 1) = 61 :: (ascii "0x" ++ hexText r.value).take m :=
        rfl
      rw [tail, sign] at other
      rw [sign, kvMatches_run run (stops_cons _ (by decide)) other,
        kvMatches_stop _ (by decide), ← List.append_nil ((ascii "0x" ++ hexText r.value).take m),
        kvMatches_run _ stops_nil rfl]
      · rfl
      · intro c member
        exact number_bytes r.value c (List.mem_of_mem_take member)

theorem kvMatches_kept {e : Entry} (plain : e.record.Plain) : kvMatches e.kept = e.found := by
  rw [Entry.kept, Entry.found, kvText_eq]
  cases stored : e.stored with
  | zero =>
      rw [if_neg (by omega)]
      rfl
  | succ n =>
      rw [List.take_succ_cons]
      by_cases cut : n < e.record.key.length + 11
      · rw [kvMatches_cut plain cut, if_neg (by omega)]
      · obtain ⟨m, rfl⟩ : ∃ m, n = e.record.key.length + (11 + m) :=
          ⟨n - (e.record.key.length + 11), by omega⟩
        have whole : (e.record.key ++ (valueText e.record.value ++ ascii "\n")).take
            (e.record.key.length + (11 + m)) =
              e.record.key ++ (valueText e.record.value ++ (ascii "\n").take m) := by
          rw [List.take_length_add_append, ← length_valueText e.record.value,
            List.take_length_add_append]
        rw [whole, kvMatches_whole plain]
        by_cases empty : e.record.key = []
        · rw [if_neg (fun some_ => some_ empty), if_neg (fun some_ => some_.1 empty)]
        · rw [if_pos empty, if_pos ⟨empty, by omega⟩]

/-! ## A whole log -/

/-- The ring's text is what was kept of the records, and its matches are theirs. -/
structure Log.Readable (max : Nat) (l : Log) : Prop where
  text : l.ring.text = l.entries.flatMap Entry.kept
  found : kvMatches l.ring.text = l.entries.flatMap Entry.found
  room : ∀ e ∈ l.entries, e.stored = min (kvText e.record).length (max - e.start)

def Log.submitted (l : Log) : List Record := l.entries.map Entry.record

theorem Log.Readable.writeRecord {max : Nat} {l : Log} (readable : l.Readable max) {r : Record}
    (plain : r.Plain) : (writeRecord max l r).Readable max := by
  have entries : (Console.writeRecord max l r).entries = l.entries ++
      [⟨l.ring.published, r, min (kvText r).length (max - l.ring.published)⟩] := by
    rw [writeRecord_eq]
  have kept := kept_writeRecord r l.ring.published (max - l.ring.published)
  have own : kvMatches ((kvText r).take (max - l.ring.published)) =
      (Entry.mk l.ring.published r (min (kvText r).length (max - l.ring.published))).found := by
    rw [← kept, kvMatches_kept plain]
  constructor
  · rw [writeRecord_text, entries, List.flatMap_append, List.flatMap_singleton, readable.text, kept]
  · rw [writeRecord_text, entries, List.flatMap_append, List.flatMap_singleton, ← readable.found,
      ← own, kvText_eq]
    cases max - l.ring.published with
    | zero => simp [kvMatches]
    | succ room => rw [List.take_succ_cons, kvMatches_separated]
  · intro e member
    rw [entries, List.mem_append, List.mem_singleton] at member
    cases member with
    | inl earlier => exact readable.room e earlier
    | inr own =>
        subst own
        rfl

theorem writeRecord_submitted (max : Nat) (l : Log) (r : Record) :
    (writeRecord max l r).submitted = l.submitted ++ [r] := by
  rw [writeRecord_eq, Log.submitted, List.map_append]
  rfl

theorem writeRecords_spec {max : Nat} {records : List Record} {l : Log}
    (readable : l.Readable max) (plain : ∀ r ∈ records, r.Plain) :
    (writeRecords max l records).Readable max ∧
      (writeRecords max l records).submitted = l.submitted ++ records ∧
      (writeRecords max l records).pending = l.pending := by
  induction records generalizing l with
  | nil => exact ⟨readable, (List.append_nil _).symm, rfl⟩
  | cons r records ih =>
      have first := plain r List.mem_cons_self
      obtain ⟨rest, submitted, pending⟩ := ih (readable.writeRecord first)
        fun s member => plain s (List.mem_cons_of_mem r member)
      rw [writeRecord_submitted, List.append_assoc] at submitted
      exact ⟨rest, submitted, pending⟩

theorem flush_plain (l : Log) : ∀ r ∈ l.flush, r.Plain := by
  intro r member
  rw [Log.flush] at member
  cases pending : l.pending with
  | none =>
      rw [pending] at member
      cases member
  | some probe =>
      have keys : probe.recordsOf.all (fun r => r.key.all isKeyByte) = true := rfl
      rw [pending] at member
      exact List.all_eq_true.mp (List.all_eq_true.mp keys r member)

theorem entryWriteKv_spec {max : Nat} {l : Log} (readable : l.Readable max) {r : Record}
    (plain : r.Plain) :
    (entryWriteKv max l r).Readable max ∧
      (entryWriteKv max l r).submitted = l.submitted ++ (l.flush ++ [r]) ∧
      (entryWriteKv max l r).pending = none := by
  have start : Log.Readable max { l with pending := none } :=
    ⟨readable.text, readable.found, readable.room⟩
  obtain ⟨flushed, submitted, pending⟩ := writeRecords_spec start (flush_plain l)
  refine ⟨flushed.writeRecord plain, ?_, pending⟩
  rw [entryWriteKv, writeRecord_submitted, submitted, List.append_assoc]
  rfl

def Log.appended (l : Log) : List Record → List Record
  | [] => []
  | r :: records => l.flush ++ r :: records

theorem logRun_spec {max : Nat} {records : List Record} {l : Log}
    (readable : l.Readable max) (plain : ∀ r ∈ records, r.Plain) :
    (logRun max l records).Readable max ∧
      (logRun max l records).submitted = l.submitted ++ l.appended records := by
  induction records generalizing l with
  | nil => exact ⟨readable, (List.append_nil _).symm⟩
  | cons r records ih =>
      obtain ⟨first, submitted, pending⟩ := entryWriteKv_spec readable
        (plain r List.mem_cons_self)
      obtain ⟨rest, all⟩ := ih first fun s member => plain s (List.mem_cons_of_mem r member)
      have settled : (entryWriteKv max l r).appended records = records := by
        cases records with
        | nil => rfl
        | cons s records => rw [Log.appended, Log.flush, pending]; rfl
      rw [settled, submitted, List.append_assoc, List.append_assoc] at all
      exact ⟨rest, all⟩

abbrev PlainRecord := { r : Record // r.Plain }

def Log.start (sig : UInt32) (data : Nat → UInt8) (pending : Option Probe) : Log :=
  ⟨⟨sig, 0, data⟩, pending, []⟩

theorem start_readable (max : Nat) (sig : UInt32) (data : Nat → UInt8) (pending : Option Probe) :
    (Log.start sig data pending).Readable max := by
  have empty : (Log.start sig data pending).ring.text = [] := by
    rw [Ring.text, Ring.published, Log.start, ite_self]
    rfl
  constructor
  · exact empty
  · rw [empty]
    rfl
  · intro e member
    cases member

/-- The text is what the ring has kept of the records, each up to the capacity.  The matches of
`KV_RE` are, in order, the key and value of the records whose last digit was kept, and
`parse_kv` gives for a key the largest of their values and their number. -/
theorem parse_kv_reads_back (max : Nat) (sig : UInt32) (data : Nat → UInt8)
    (pending : Option Probe) (records : List PlainRecord) :
    let start := Log.start sig data pending
    let log := logRun max start (records.map Subtype.val)
    log.entries.map Entry.record = start.appended (records.map Subtype.val) ∧
      (∀ e ∈ log.entries, e.stored = min (kvText e.record).length (max - e.start)) ∧
      log.ring.text = log.entries.flatMap Entry.kept ∧
      kvMatches log.ring.text = log.entries.flatMap Entry.found ∧
      ∀ key, (parseKv log.ring.text).vals key =
            (valuesOf (log.entries.flatMap Entry.found) key).max? ∧
          (parseKv log.ring.text).counts key =
            (valuesOf (log.entries.flatMap Entry.found) key).length := by
  intro start log
  have plain : ∀ r ∈ records.map Subtype.val, r.Plain := by
    intro r member
    obtain ⟨s, _, rfl⟩ := List.mem_map.mp member
    exact s.property
  obtain ⟨readable, submitted⟩ := logRun_spec (start_readable max sig data pending) plain
  refine ⟨submitted, readable.room, readable.text, readable.found, ?_⟩
  intro key
  rw [parseKv, readable.found]
  exact parsed_foldl _ key

def recordA (value : UInt32) : Record := ⟨ascii "a", value⟩

def freshRun (max : Nat) (records : List Record) : Log :=
  logRun max (Log.start 0 (fun _ => 0) none) records

/-- The tool also reads a record that lost its newline, reads none whose key is empty, and its
answer does not tell the order of the records. -/
theorem parse_kv_not_exact :
    ((freshRun 13 [recordA 5]).entries = [⟨0, recordA 5, 13⟩] ∧ (kvText (recordA 5)).length = 14 ∧
        (parseKv (freshRun 13 [recordA 5]).ring.text).vals (ascii "a") = some 5) ∧
      ((freshRun ramConsoleMax [⟨[], 5⟩]).entries = [⟨0, ⟨[], 5⟩, 13⟩] ∧
        (kvText ⟨[], 5⟩).length = 13 ∧
        (parseKv (freshRun ramConsoleMax [⟨[], 5⟩]).ring.text).vals [] = none) ∧
      parseKv (freshRun ramConsoleMax [recordA 1, recordA 2]).ring.text =
        parseKv (freshRun ramConsoleMax [recordA 2, recordA 1]).ring.text := by
  have up : kvMatches (freshRun ramConsoleMax [recordA 1, recordA 2]).ring.text =
      [(ascii "a", 1), (ascii "a", 2)] := by
    decide
  have down : kvMatches (freshRun ramConsoleMax [recordA 2, recordA 1]).ring.text =
      [(ascii "a", 2), (ascii "a", 1)] := by
    decide
  refine ⟨by decide, by decide, ?_⟩
  rw [parseKv, parseKv, up, down]
  simp [Parsed.add, Parsed.empty, Function.update_self]

end Stage90.Console

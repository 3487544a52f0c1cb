import Mathlib.Algebra.GroupWithZero.Nat
import Mathlib.Data.List.Basic
import Stage90.Lib.Instances
import Stage90.Lib.Strings

/-!
# The ring of the RAM console

`entry_putc` and `entry_write_kv` of `entry_stubs.c`.  A record goes to the console one
character at a time, and a character for which there is no room is dropped.  The ghost list
`entries` holds, for each record, where it starts and how many of its characters were kept.
-/

set_option autoImplicit false

namespace Stage90.Console

open Stage90.Lib

def ascii (s : String) : List UInt8 := s.toList.map fun c => UInt8.ofNat c.toNat

/-- `'DBGC'`. -/
def ramConsoleSig : UInt32 := 0x43474244

/-- `0x00200000u - 12u`. -/
def ramConsoleMax : Nat := 0x00200000 - 12

structure Ring where
  sig : UInt32
  size : Nat
  data : Nat → UInt8

/-- The size that the console publishes: without the signature there is no buffer yet. -/
def Ring.published (r : Ring) : Nat := if r.sig = ramConsoleSig then r.size else 0

def Ring.text (r : Ring) : List UInt8 := (List.range r.published).map r.data

/-- The `data` and `size_p` arguments of `entry_putc`. -/
structure Cursor where
  data : Nat → UInt8
  size : Nat

def entryPutc (max : Nat) (p : Cursor) (c : UInt8) : Cursor :=
  if p.size < max then ⟨overlay p.data p.size [c], p.size + 1⟩ else p

structure Record where
  key : List UInt8
  value : UInt32
  deriving DecidableEq

/-- `hex[n]` of `"0123456789abcdef"`. -/
def hexDigit (n : UInt32) : UInt8 := (ascii "0123456789abcdef").getD n.toNat 0

/-- The digit of the `i`-th turn of the loop. -/
def hexAt (value : UInt32) (i : Nat) : UInt8 :=
  hexDigit ((value >>> UInt32.ofNat (28 - i * 4)) &&& 0xf)

def hexText (value : UInt32) : List UInt8 := (List.range 8).map (hexAt value)

/-- The characters of ` key=0xvalue` and its newline, in the order of the calls. -/
def kvText (r : Record) : List UInt8 :=
  ascii " " ++ r.key ++ ascii "=0x" ++ hexText r.value ++ ascii "\n"

structure Entry where
  start : Nat
  record : Record
  stored : Nat
  deriving DecidableEq

def Entry.kept (e : Entry) : List UInt8 := (kvText e.record).take e.stored

/-- The five words of the exec-done probe. -/
structure Probe where
  seq : UInt32
  sig : UInt32
  size : UInt32
  records : UInt32
  state : UInt32

def Probe.recordsOf (p : Probe) : List Record :=
  [⟨ascii "xnu_live_exec_done_probe_seq", p.seq⟩,
    ⟨ascii "xnu_live_exec_done_probe_sig", p.sig⟩,
    ⟨ascii "xnu_live_exec_done_probe_size", p.size⟩,
    ⟨ascii "xnu_live_exec_done_probe_records", p.records⟩,
    ⟨ascii "xnu_live_exec_done_probe_state", p.state⟩]

structure Log where
  ring : Ring
  /-- The probe's words while `g_exec_probe_pending` is set. -/
  pending : Option Probe
  entries : List Entry

/-- `entry_write_kv` below the publish site of the probe. -/
def writeRecord (max : Nat) (l : Log) (r : Record) : Log :=
  -- nothing sane to append to: a fresh buffer
  let size := l.ring.published
  let p := (kvText r).foldl (entryPutc max) ⟨l.ring.data, size⟩
  { l with
    ring := ⟨ramConsoleSig, p.size, p.data⟩
    entries := l.entries ++ [⟨size, r, p.size - size⟩] }

def writeRecords (max : Nat) (l : Log) (records : List Record) : Log :=
  records.foldl (writeRecord max) l

def Log.flush (l : Log) : List Record := (l.pending.map Probe.recordsOf).getD []

/-- The probe's flag is cleared first, so the five calls do not flush it again. -/
def entryWriteKv (max : Nat) (l : Log) (r : Record) : Log :=
  writeRecord max (writeRecords max { l with pending := none } l.flush) r

def logRun (max : Nat) (l : Log) (records : List Record) : Log :=
  records.foldl (entryWriteKv max) l

theorem published_of_signed {r : Ring} (signed : r.sig = ramConsoleSig) : r.published = r.size :=
  if_pos signed

/-! ## One record -/

@[simp] theorem length_kvText (r : Record) : (kvText r).length = r.key.length + 13 := by
  simp [kvText, hexText, ascii]

theorem putc_foldl (max : Nat) (data : Nat → UInt8) (size : Nat) (cells : List UInt8) :
    cells.foldl (entryPutc max) ⟨data, size⟩ =
      ⟨overlay data size (cells.take (max - size)), size + min cells.length (max - size)⟩ := by
  induction cells generalizing data size with
  | nil => simp
  | cons c cells ih =>
      rw [List.foldl_cons, entryPutc]
      by_cases room : size < max
      · obtain ⟨n, left⟩ : ∃ n, max - size = n + 1 := ⟨max - size - 1, by omega⟩
        have next : max - (size + 1) = n := by omega
        rw [if_pos room, ih, left, next, List.take_succ_cons, overlay_cons, List.length_cons,
          Nat.succ_min_succ]
        simp only [Nat.succ_eq_add_one, Cursor.mk.injEq, true_and]
        omega
      · have full : max - size = 0 := by omega
        rw [if_neg room, ih, full]
        simp

theorem writeRecord_eq (max : Nat) (l : Log) (r : Record) :
    writeRecord max l r =
      { l with
        ring :=
          ⟨ramConsoleSig, l.ring.published + min (kvText r).length (max - l.ring.published),
            overlay l.ring.data l.ring.published ((kvText r).take (max - l.ring.published))⟩
        entries :=
          l.entries ++
            [⟨l.ring.published, r, min (kvText r).length (max - l.ring.published)⟩] } := by
  simp only [writeRecord, putc_foldl, Nat.add_sub_cancel_left]

@[simp] theorem writeRecord_published (max : Nat) (l : Log) (r : Record) :
    (writeRecord max l r).ring.published =
      l.ring.published + min (kvText r).length (max - l.ring.published) := by
  rw [writeRecord_eq]
  simp [Ring.published]

theorem writeRecord_data {max : Nat} {l : Log} {r : Record} {p : Nat}
    (below : p < l.ring.published) : (writeRecord max l r).ring.data p = l.ring.data p := by
  rw [writeRecord_eq]
  exact overlay_of_lt _ _ below

theorem overlay_text (data : Nat → UInt8) (n : Nat) (cells : List UInt8) :
    (List.range (n + cells.length)).map (overlay data n cells) =
      (List.range n).map data ++ cells := by
  induction cells generalizing data n with
  | nil => simp
  | cons c cells ih =>
      have length : n + (c :: cells).length = n + 1 + cells.length := by
        rw [List.length_cons]
        omega
      have first : (List.range (n + 1)).map (overlay data n [c]) = (List.range n).map data ++ [c] := by
        rw [List.range_succ, List.map_append]
        congr 1
        · apply List.map_congr_left
          intro a below
          exact overlay_of_lt _ _ (List.mem_range.mp below)
        · simp [overlay]
      rw [length, ← overlay_cons, ih, first, List.append_assoc, List.singleton_append]

theorem writeRecord_text (max : Nat) (l : Log) (r : Record) :
    (writeRecord max l r).ring.text =
      l.ring.text ++ (kvText r).take (max - l.ring.published) := by
  have length : min (kvText r).length (max - l.ring.published) =
      ((kvText r).take (max - l.ring.published)).length := by
    rw [List.length_take, Nat.min_comm]
  rw [Ring.text, writeRecord_published, length, writeRecord_eq, overlay_text]
  rfl

theorem kept_writeRecord (r : Record) (start room : Nat) :
    (Entry.mk start r (min (kvText r).length room)).kept = (kvText r).take room := by
  apply List.take_eq_take_iff.mpr
  dsimp only
  omega

/-! ## The probe -/

theorem writeRecords_pending (max : Nat) (l : Log) (records : List Record) :
    (writeRecords max l records).pending = l.pending := by
  induction records generalizing l with
  | nil => rfl
  | cons r records ih => exact ih (writeRecord max l r)

theorem entryWriteKv_pending (max : Nat) (l : Log) (r : Record) :
    (entryWriteKv max l r).pending = none :=
  writeRecords_pending max { l with pending := none } l.flush

theorem logRun_pending {max : Nat} {l : Log} (settled : l.pending = none) (records : List Record) :
    (logRun max l records).pending = none := by
  induction records generalizing l with
  | nil => exact settled
  | cons r records ih => exact ih (entryWriteKv_pending max l r)

theorem logRun_cons_pending (max : Nat) (l : Log) (r : Record) (records : List Record) :
    (logRun max l (r :: records)).pending = none :=
  logRun_pending (entryWriteKv_pending max l r) records

/-- Without a pending probe the writer writes its one record. -/
theorem entryWriteKv_settled {max : Nat} {l : Log} (settled : l.pending = none) (r : Record) :
    entryWriteKv max l r = writeRecord max l r := by
  have flush : l.flush = [] := by
    rw [Log.flush, settled]
    rfl
  have same : ({ l with pending := none } : Log) = l := by rw [← settled]
  rw [entryWriteKv, flush, same]
  rfl

theorem logRun_published {max : Nat} {l : Log} (settled : l.pending = none)
    (records : List Record) :
    (logRun max l records).ring.published =
      l.ring.published + min (records.flatMap kvText).length (max - l.ring.published) := by
  induction records generalizing l with
  | nil => simp [logRun]
  | cons r records ih =>
      have rest := ih (entryWriteKv_pending max l r)
      rw [entryWriteKv_settled settled, writeRecord_published] at rest
      rw [logRun, List.foldl_cons, entryWriteKv_settled settled, List.flatMap_cons,
        List.length_append]
      refine rest.trans ?_
      omega

/-! ## What any number of records leaves alone -/

/-- `l'` is `l` and records behind it. -/
structure Log.Grows (max : Nat) (l l' : Log) : Prop where
  mono : l.ring.published ≤ l'.ring.published
  bound : l.ring.published ≤ max → l'.ring.published ≤ max
  signed : l.ring.sig = ramConsoleSig → l'.ring.sig = ramConsoleSig
  frame : ∀ p < l.ring.published, l'.ring.data p = l.ring.data p
  added : ∃ added, l'.entries = l.entries ++ added ∧
    ∀ e ∈ added, l.ring.published ≤ e.start ∧ e.start + e.kept.length ≤ l'.ring.published ∧
      Holds l'.ring.data e.start e.kept

theorem Log.Grows.refl (max : Nat) (l : Log) : l.Grows max l where
  mono := Nat.le_refl _
  bound := id
  signed := id
  frame := fun _ _ => rfl
  added := ⟨[], (List.append_nil _).symm, by simp⟩

theorem Log.Grows.trans {max : Nat} {l l' l'' : Log} (first : l.Grows max l')
    (second : l'.Grows max l'') : l.Grows max l'' where
  mono := Nat.le_trans first.mono second.mono
  bound := fun within => second.bound (first.bound within)
  signed := fun signed => second.signed (first.signed signed)
  frame := fun p below => (second.frame p (Nat.lt_of_lt_of_le below first.mono)).trans (first.frame p below)
  added := by
    obtain ⟨added, entries, places⟩ := first.added
    obtain ⟨added', entries', places'⟩ := second.added
    refine ⟨added ++ added', by rw [entries', entries, List.append_assoc], ?_⟩
    intro e member
    rw [List.mem_append] at member
    cases member with
    | inl earlier =>
        obtain ⟨behind, within, there⟩ := places e earlier
        exact ⟨behind, Nat.le_trans within second.mono, there.frame within second.frame⟩
    | inr later =>
        obtain ⟨behind, within, there⟩ := places' e later
        exact ⟨Nat.le_trans first.mono behind, within, there⟩

theorem writeRecord_grows (max : Nat) (l : Log) (r : Record) : l.Grows max (writeRecord max l r) where
  mono := by
    rw [writeRecord_published]
    exact Nat.le_add_right _ _
  bound := by
    intro within
    rw [writeRecord_published]
    omega
  signed := fun _ => rfl
  frame := fun _ below => writeRecord_data below
  added := by
    refine ⟨[⟨l.ring.published, r, min (kvText r).length (max - l.ring.published)⟩], ?_, ?_⟩
    · rw [writeRecord_eq]
    · intro e member
      rw [List.mem_singleton] at member
      subst member
      rw [kept_writeRecord, writeRecord_published, List.length_take, Nat.min_comm]
      refine ⟨Nat.le_refl _, Nat.le_refl _, ?_⟩
      rw [writeRecord_eq]
      exact holds_overlay _ _ _

theorem foldl_grows {α : Type} {max : Nat} {write : Log → α → Log}
    (grows : ∀ (l : Log) (a : α), l.Grows max (write l a)) (l : Log) (as : List α) :
    l.Grows max (as.foldl write l) := by
  induction as generalizing l with
  | nil => exact .refl max l
  | cons a as ih => exact (grows l a).trans (ih (write l a))

theorem entryWriteKv_grows (max : Nat) (l : Log) (r : Record) : l.Grows max (entryWriteKv max l r) := by
  have start : l.Grows max { l with pending := none } :=
    ⟨Nat.le_refl _, id, id, fun _ _ => rfl, [], (List.append_nil _).symm, by simp⟩
  have flushed := foldl_grows (writeRecord_grows max) { l with pending := none } l.flush
  exact (start.trans flushed).trans (writeRecord_grows max _ r)

theorem logRun_grows (max : Nat) (l : Log) (records : List Record) :
    l.Grows max (logRun max l records) :=
  foldl_grows (entryWriteKv_grows max) l records

end Stage90.Console

import Mathlib.Data.List.Basic
import Stage90.Console.KvRoundTrip
import Stage90.Usb.Enum

/-!
# The host's verdict on a capture

`verdict` of `tools/usb_ladder_verify.py` over the dictionary of `parse_kv`, and what it says of
the records that a run of the enumeration's poll leaves.  The texts that it gives as reasons
are left out.
-/

set_option autoImplicit false

namespace Stage90.Usb

open Stage90.Console

/-- `RUNG_ORDER`. -/
inductive Rung where
  | probe
  | device
  | enum
  | stream
  deriving DecidableEq

inductive Verdict where
  | fired
  | didNotFire
  | indeterminate
  deriving DecidableEq

def streamMinBytes : Nat := 64

/-- `val(k) or 0`. -/
def valOr0 (vals : List UInt8 → Option Nat) (key : String) : Nat := (vals (ascii key)).getD 0

def probeVerdict (vals : List UInt8 → Option Nat) : Verdict :=
  if vals (ascii "xnu_live_usb_mapped") = some 0 then .didNotFire
  else if vals (ascii "xnu_live_usb_mapped") = some 1 ∧
      (vals (ascii "xnu_live_usb_id_cap")).isSome ∧
      (vals (ascii "xnu_live_usb_hciversion")).isSome then .fired
  else if (vals (ascii "xnu_live_usb_map")).isSome ∨ (vals (ascii "xnu_live_usb_base")).isSome then
    .didNotFire
  else .indeterminate

def deviceVerdict (vals : List UInt8 → Option Nat) : Verdict :=
  if probeVerdict vals ≠ .fired then .indeterminate
  else if vals (ascii "xnu_live_usb_dev_proceed") = some 0 then .didNotFire
  else if vals (ascii "xnu_live_usb_dev_devmode_ok") = some 1 ∧
      vals (ascii "xnu_live_usb_dev_loaded") = some 1 then .fired
  else .didNotFire

def enumVerdict (vals : List UInt8 → Option Nat) : Verdict :=
  if deviceVerdict vals ≠ .fired then .indeterminate
  else if vals (ascii "xnu_live_usb_enum_gated") = some 1 then .didNotFire
  else if vals (ascii "xnu_live_usb_enum_armed") = some 1 ∧
      0 < valOr0 vals "xnu_live_usb_enum_requests" then .fired
  else .didNotFire

def streamVerdict (vals : List UInt8 → Option Nat) (hostBytes : Nat) : Verdict :=
  if enumVerdict vals ≠ .fired then .indeterminate
  else if vals (ascii "xnu_live_usb_stream_waiting") = some 1 ∧
      valOr0 vals "xnu_live_usb_stream_armed" = 0 then .didNotFire
  else if vals (ascii "xnu_live_usb_stream_armed") = some 1 ∧
      0 < valOr0 vals "xnu_live_usb_stream_chunks" then
    -- the reader's code tells the reasons of a silent host apart
    if streamMinBytes ≤ hostBytes then .fired else .didNotFire
  else .didNotFire

def verdict (rung : Rung) (vals : List UInt8 → Option Nat) (hostBytes : Nat) : Verdict :=
  match rung with
  | .probe => probeVerdict vals
  | .device => deviceVerdict vals
  | .enum => enumVerdict vals
  | .stream => streamVerdict vals hostBytes

/-! ## Runs of the poll -/

variable (b : Build)

def enumRun (e : Enum) : List Reading → Enum × List Record
  | [] => (e, [])
  | r :: readings =>
      let (e, _, records) := entryUsbEnumPoll b e r
      let (e, more) := enumRun e readings
      (e, records ++ more)

def answers (r : Reading) : Bool := b.open_ r && r.ui && r.hasSetup

/-- The first poll finds a core that is no device yet. -/
def startsGated : List Reading → Bool
  | [] => false
  | r :: _ => !b.open_ r

/-! ## The counter of requests -/

variable {b}

theorem getDescriptor_keeps (e : Enum) (setup : Fin 8 → UInt8) :
    (usbEnumGetDescriptor e setup).2.1.requests = e.requests ∧
      (usbEnumGetDescriptor e setup).2.1.done = e.done := by
  rw [usbEnumGetDescriptor]
  split
  · exact ⟨rfl, rfl⟩
  · dsimp only
    split
    · exact ⟨rfl, rfl⟩
    · exact ⟨rfl, rfl⟩

theorem armEpIn_keeps (e : Enum) :
    (usbEnumArmEpIn b e).1.requests = e.requests ∧ (usbEnumArmEpIn b e).1.done = e.done := by
  rw [usbEnumArmEpIn]
  split
  · exact ⟨rfl, rfl⟩
  · exact ⟨rfl, rfl⟩

theorem setup_counts (e : Enum) (setup : Fin 8 → UInt8) :
    (usbEnumSetup b e setup).1.requests = e.requests + 1 ∧
      (usbEnumSetup b e setup).1.done = e.done := by
  rw [usbEnumSetup]
  dsimp only [usbEnumStatus]
  split
  · split
    · split
      · exact getDescriptor_keeps _ setup
      · exact getDescriptor_keeps _ setup
    · split
      · exact ⟨rfl, rfl⟩
      · split
        · exact ⟨rfl, rfl⟩
        · split
          · dsimp only
            split
            · exact armEpIn_keeps _
            · exact ⟨rfl, rfl⟩
          · exact ⟨rfl, rfl⟩
  · exact ⟨rfl, rfl⟩

theorem complete_keeps (e : Enum) (complete : Fin 3 → UInt32) :
    (usbEnumComplete b e complete).1.requests = e.requests ∧
      (usbEnumComplete b e complete).1.done = e.done := by
  rw [usbEnumComplete]
  by_cases sent : complete 0 &&& epBit 0 true ≠ 0
  · rw [if_pos sent]
    by_cases data : e.state = .data
    · rw [if_pos data]
      dsimp only
      split <;> split <;> exact ⟨rfl, rfl⟩
    · rw [if_neg data]
      dsimp only
      split <;> split <;> exact ⟨rfl, rfl⟩
  · rw [if_neg sent]
    dsimp only
    split <;> split <;> exact ⟨rfl, rfl⟩

theorem service_counts (e : Enum) (r : Reading) :
    (usbEnumService b e r).1.requests = e.requests + (if r.ui && r.hasSetup then 1 else 0) ∧
      (usbEnumService b e r).1.done = e.done := by
  rw [usbEnumService]
  have reset (first : Enum × List Action)
      (is : first = if r.uri then usbEnumBusReset e else (e, [])) :
      first.1.requests = e.requests ∧ first.1.done = e.done := by
    rw [is]
    split
    · exact ⟨rfl, rfl⟩
    · exact ⟨rfl, rfl⟩
  obtain ⟨requests, done⟩ := reset _ rfl
  dsimp only
  rw [← requests, ← done]
  by_cases ui : r.ui
  · rw [if_pos ui, ui, Bool.true_and, usbEnumUi]
    split
    · exact setup_counts _ _
    · rw [UInt32.add_zero]
      exact complete_keeps _ _
  · rw [if_neg ui, Bool.eq_false_iff.mpr ui, Bool.false_and, if_neg Bool.false_ne_true,
      UInt32.add_zero]
    exact ⟨rfl, rfl⟩

theorem poll_counts (e : Enum) (r : Reading) :
    (entryUsbEnumPoll b e r).1.requests = e.requests + (if answers b r then 1 else 0) ∧
      (entryUsbEnumPoll b e r).1.done = (e.done || b.open_ r) := by
  have armed : (usbEnumArm b e r).1.requests = e.requests ∧ (usbEnumArm b e r).1.done = true := by
    rw [usbEnumArm]
    split
    · rename_i done
      exact ⟨rfl, done⟩
    · exact ⟨rfl, rfl⟩
  rw [entryUsbEnumPoll, answers, Bool.and_assoc]
  by_cases opened : b.open_ r
  · have served := service_counts (b := b) (usbEnumArm b e r).1 r
    rw [if_pos opened, opened, Bool.true_and, Bool.or_true]
    exact ⟨served.1.trans (by rw [armed.1]), served.2.trans armed.2⟩
  · rw [if_neg opened, Bool.eq_false_iff.mpr opened, Bool.false_and, if_neg Bool.false_ne_true,
      UInt32.add_zero, Bool.or_false]
    exact ⟨rfl, rfl⟩

/-! ## The records under the keys of the verdict -/

def found (records : List Record) : List (List UInt8 × Nat) :=
  records.map fun r => (r.key, r.value.toNat)

theorem valuesOf_found_append (first more : List Record) (key : List UInt8) :
    valuesOf (found (first ++ more)) key = valuesOf (found first) key ++ valuesOf (found more) key := by
  rw [found, List.map_append, valuesOf, List.filter_append, List.map_append]
  rfl

theorem state_values (e : Enum) :
    valuesOf (found (usbEnumRecords e)) (ascii "xnu_live_usb_enum_gated") = [] ∧
      valuesOf (found (usbEnumRecords e)) (ascii "xnu_live_usb_enum_armed") = [] ∧
      valuesOf (found (usbEnumRecords e)) (ascii "xnu_live_usb_enum_requests") =
        [e.requests.toNat] :=
  ⟨rfl, rfl, rfl⟩

theorem poll_values (e : Enum) (r : Reading) :
    valuesOf (found (entryUsbEnumPoll b e r).2.2) (ascii "xnu_live_usb_enum_gated") =
        (if !b.open_ r && !e.done then [1] else []) ∧
      valuesOf (found (entryUsbEnumPoll b e r).2.2) (ascii "xnu_live_usb_enum_armed") =
        (if b.open_ r && !e.done then [1] else []) ∧
      valuesOf (found (entryUsbEnumPoll b e r).2.2) (ascii "xnu_live_usb_enum_requests") =
        if b.open_ r then [(entryUsbEnumPoll b e r).1.requests.toNat] else [] := by
  rw [entryUsbEnumPoll]
  by_cases opened : b.open_ r
  · rw [if_pos opened, opened]
    dsimp only
    rw [valuesOf_found_append, valuesOf_found_append, valuesOf_found_append, usbEnumArm]
    obtain ⟨gated, armed, requests⟩ := state_values (usbEnumService b (usbEnumArm b e r).1 r).1
    rw [usbEnumArm] at gated armed requests
    rw [gated, armed, requests]
    cases e.done with
    | true => exact ⟨rfl, rfl, rfl⟩
    | false => exact ⟨rfl, rfl, rfl⟩
  · rw [if_neg opened, Bool.eq_false_iff.mpr opened]
    cases e.done with
    | true => exact ⟨rfl, rfl, rfl⟩
    | false => exact ⟨rfl, rfl, rfl⟩

theorem enumRun_cons (e : Enum) (r : Reading) (readings : List Reading) :
    enumRun b e (r :: readings) =
      ((enumRun b (entryUsbEnumPoll b e r).1 readings).1,
        (entryUsbEnumPoll b e r).2.2 ++ (enumRun b (entryUsbEnumPoll b e r).1 readings).2) :=
  rfl

theorem armed_latches {e : Enum} (done : e.done) (readings : List Reading) :
    valuesOf (found (enumRun b e readings).2) (ascii "xnu_live_usb_enum_gated") = [] ∧
      valuesOf (found (enumRun b e readings).2) (ascii "xnu_live_usb_enum_armed") = [] := by
  induction readings generalizing e with
  | nil => exact ⟨rfl, rfl⟩
  | cons r readings ih =>
      obtain ⟨gated, armed, _⟩ := poll_values (b := b) e r
      have still : (entryUsbEnumPoll b e r).1.done := by
        rw [(poll_counts e r).2, done]
        rfl
      rw [enumRun_cons, valuesOf_found_append, valuesOf_found_append, gated, armed, (ih still).1,
        (ih still).2, done, Bool.not_true, Bool.and_false, Bool.and_false]
      exact ⟨rfl, rfl⟩

theorem run_done (e : Enum) (readings : List Reading) :
    (enumRun b e readings).1.done = (e.done || readings.any b.open_) := by
  induction readings generalizing e with
  | nil => exact (Bool.or_false _).symm
  | cons r readings ih =>
      rw [enumRun_cons, List.any_cons, ih, (poll_counts e r).2, Bool.or_assoc]

/-- Every gated record of a run is a one, and there is one when its first poll is gated. -/
theorem run_gated {e : Enum} (idle : e.done = false) (readings : List Reading) :
    (∀ v ∈ valuesOf (found (enumRun b e readings).2) (ascii "xnu_live_usb_enum_gated"), v = 1) ∧
      (valuesOf (found (enumRun b e readings).2) (ascii "xnu_live_usb_enum_gated") ≠ [] ↔
        startsGated b readings) := by
  induction readings generalizing e with
  | nil =>
      constructor
      · intro v member
        cases member
      · exact ⟨fun some_ => absurd rfl some_, fun gated => absurd gated Bool.false_ne_true⟩
  | cons r readings ih =>
      obtain ⟨gated, _, _⟩ := poll_values (b := b) e r
      rw [enumRun_cons, valuesOf_found_append, gated, idle, startsGated]
      by_cases opened : b.open_ r
      · have done : (entryUsbEnumPoll b e r).1.done := by
          rw [(poll_counts e r).2, opened, Bool.or_true]
        rw [(armed_latches done readings).1, opened]
        constructor
        · intro v member
          cases member
        · exact ⟨fun some_ => absurd rfl some_, fun gated => absurd gated Bool.false_ne_true⟩
      · have closed := Bool.eq_false_iff.mpr opened
        have still : (entryUsbEnumPoll b e r).1.done = false := by
          rw [(poll_counts e r).2, idle, closed]
          rfl
        rw [closed]
        refine ⟨?_, ⟨fun _ => rfl, fun _ => List.cons_ne_nil _ _⟩⟩
        intro v member
        cases member with
        | head => rfl
        | tail _ later => exact (ih still).1 v later

theorem run_armed {e : Enum} (idle : e.done = false) (readings : List Reading) :
    valuesOf (found (enumRun b e readings).2) (ascii "xnu_live_usb_enum_armed") =
      if readings.any b.open_ then [1] else [] := by
  induction readings generalizing e with
  | nil => rfl
  | cons r readings ih =>
      obtain ⟨_, armed, _⟩ := poll_values (b := b) e r
      rw [enumRun_cons, valuesOf_found_append, armed, idle, List.any_cons]
      by_cases opened : b.open_ r
      · have done : (entryUsbEnumPoll b e r).1.done := by
          rw [(poll_counts e r).2, opened, Bool.or_true]
        rw [(armed_latches done readings).2, opened]
        rfl
      · have closed := Bool.eq_false_iff.mpr opened
        have still : (entryUsbEnumPoll b e r).1.done = false := by
          rw [(poll_counts e r).2, idle, closed]
          rfl
        rw [ih still, closed]
        rfl

/-- The counter wraps, the largest value that was recorded does not go back. -/
theorem run_requests {e : Enum} (none : e.requests = 0) (readings : List Reading) :
    (∃ v ∈ valuesOf (found (enumRun b e readings).2) (ascii "xnu_live_usb_enum_requests"), 0 < v) ↔
      readings.any (answers b) := by
  induction readings generalizing e with
  | nil => simp [enumRun, found, valuesOf]
  | cons r readings ih =>
      obtain ⟨_, _, requests⟩ := poll_values (b := b) e r
      have count := (poll_counts (b := b) e r).1
      rw [none, UInt32.zero_add] at count
      rw [enumRun_cons, valuesOf_found_append, requests, count, List.any_cons]
      by_cases answered : answers b r
      · have opened : b.open_ r := by
          rw [answers, Bool.and_assoc, Bool.and_eq_true] at answered
          exact answered.1
        rw [answered, if_pos opened, if_pos rfl, Bool.true_or]
        exact ⟨fun _ => rfl, fun _ => ⟨1, List.mem_cons_self, Nat.one_pos⟩⟩
      · rw [if_neg answered] at count ⊢
        rw [Bool.eq_false_iff.mpr answered, Bool.false_or, ← ih count]
        constructor
        · rintro ⟨v, member, positive⟩
          refine ⟨v, ?_, positive⟩
          rw [List.mem_append] at member
          cases member with
          | inl own =>
              split at own
              · rw [List.mem_singleton] at own
                subst own
                exact absurd positive (by decide)
              · cases own
          | inr later => exact later
        · rintro ⟨v, member, positive⟩
          exact ⟨v, List.mem_append_right _ member, positive⟩

/-! ## The verdict on the enumeration -/

theorem deviceVerdict_fired (vals : List UInt8 → Option Nat) :
    deviceVerdict vals = .fired ↔
      vals (ascii "xnu_live_usb_mapped") = some 1 ∧
        (vals (ascii "xnu_live_usb_id_cap")).isSome ∧
        (vals (ascii "xnu_live_usb_hciversion")).isSome ∧
        vals (ascii "xnu_live_usb_dev_proceed") ≠ some 0 ∧
        vals (ascii "xnu_live_usb_dev_devmode_ok") = some 1 ∧
        vals (ascii "xnu_live_usb_dev_loaded") = some 1 := by
  rw [deviceVerdict, probeVerdict]
  grind

theorem enumVerdict_fired (vals : List UInt8 → Option Nat) :
    enumVerdict vals = .fired ↔
      deviceVerdict vals = .fired ∧ vals (ascii "xnu_live_usb_enum_gated") ≠ some 1 ∧
        vals (ascii "xnu_live_usb_enum_armed") = some 1 ∧
        0 < valOr0 vals "xnu_live_usb_enum_requests" := by
  rw [enumVerdict]
  grind

def enumPrefix : List UInt8 := ascii "xnu_live_usb_enum_"

/-- A text that holds all of a run's records, and no other of the enumeration. -/
def Captures (b : Build) (raw : List UInt8) (readings : List Reading) : Prop :=
  (kvMatches raw).filter (fun m => enumPrefix.isPrefixOf m.1) =
    found (enumRun b .boot readings).2

theorem captured_vals {raw : List UInt8} {readings : List Reading}
    (captured : Captures b raw readings) {key : List UInt8} (own : enumPrefix.isPrefixOf key) :
    (parseKv raw).vals key = (valuesOf (found (enumRun b .boot readings).2) key).max? := by
  have same : valuesOf (kvMatches raw) key = valuesOf (found (enumRun b .boot readings).2) key := by
    rw [← captured, valuesOf, valuesOf, List.filter_filter]
    congr 1
    apply List.filter_congr
    intro m _
    by_cases here : m.1 = key
    · rw [here, own, Bool.and_true]
    · rw [decide_eq_false here, Bool.false_and]
  rw [parseKv, (parsed_foldl _ key).1, same]

theorem max_positive (ns : List Nat) : 0 < ns.max?.getD 0 ↔ ∃ n ∈ ns, 0 < n := by
  cases largest : ns.max? with
  | none =>
      rw [List.max?_eq_none_iff] at largest
      rw [largest]
      simp
  | some m =>
      obtain ⟨member, bound⟩ := List.max?_eq_some_iff.mp largest
      constructor
      · intro positive
        exact ⟨m, member, positive⟩
      · intro ⟨n, inside, positive⟩
        exact Nat.lt_of_lt_of_le positive (bound n inside)

theorem max_of_ones {ns : List Nat} (ones : ∀ n ∈ ns, n = 1) : ns.max? = some 1 ↔ ns ≠ [] := by
  rw [List.max?_eq_some_iff]
  constructor
  · intro largest
    exact List.ne_nil_of_mem largest.1
  · intro some_
    obtain ⟨n, rest, rfl⟩ := List.exists_cons_of_ne_nil some_
    refine ⟨?_, fun m member => Nat.le_of_eq (ones m member)⟩
    rw [← ones n List.mem_cons_self]
    exact List.mem_cons_self

/-- What the capture must say of the two rungs below, and of the first poll. -/
structure Agrees (vals : List UInt8 → Option Nat) (b : Build) (readings : List Reading) : Prop where
  mapped : vals (ascii "xnu_live_usb_mapped") = some 1
  idCap : (vals (ascii "xnu_live_usb_id_cap")).isSome
  hciVersion : (vals (ascii "xnu_live_usb_hciversion")).isSome
  proceed : vals (ascii "xnu_live_usb_dev_proceed") ≠ some 0
  devModeOk : vals (ascii "xnu_live_usb_dev_devmode_ok") = some 1
  loaded : vals (ascii "xnu_live_usb_dev_loaded") = some 1
  first : startsGated b readings = false

theorem opened_of_answered {readings : List Reading} (answered : readings.any (answers b)) :
    readings.any b.open_ := by
  rw [List.any_eq_true] at answered ⊢
  obtain ⟨r, member, answer⟩ := answered
  rw [answers, Bool.and_assoc, Bool.and_eq_true] at answer
  exact ⟨r, member, answer.1⟩

theorem enumVerdict_of_run {raw : List UInt8} {readings : List Reading}
    (captured : Captures b raw readings) :
    enumVerdict (parseKv raw).vals = .fired ↔
      readings.any (answers b) ∧ Agrees (parseKv raw).vals b readings := by
  obtain ⟨ones, some_⟩ := run_gated (b := b) (e := .boot) rfl readings
  have gated : (parseKv raw).vals (ascii "xnu_live_usb_enum_gated") ≠ some 1 ↔
      startsGated b readings = false := by
    rw [captured_vals captured (by decide), Ne, max_of_ones ones, some_, Bool.not_eq_true]
  have armed : (parseKv raw).vals (ascii "xnu_live_usb_enum_armed") = some 1 ↔
      readings.any b.open_ := by
    rw [captured_vals captured (by decide), run_armed (e := .boot) rfl]
    cases readings.any b.open_ <;> decide
  have requests : 0 < valOr0 (parseKv raw).vals "xnu_live_usb_enum_requests" ↔
      readings.any (answers b) := by
    rw [valOr0, captured_vals captured (by decide), max_positive, run_requests rfl]
  rw [enumVerdict_fired, deviceVerdict_fired, gated, armed, requests]
  constructor
  · intro ⟨⟨mapped, idCap, hciVersion, proceed, devModeOk, loaded⟩, first, _, answered⟩
    exact ⟨answered, mapped, idCap, hciVersion, proceed, devModeOk, loaded, first⟩
  · intro ⟨answered, agrees⟩
    exact ⟨⟨agrees.mapped, agrees.idCap, agrees.hciVersion, agrees.proceed, agrees.devModeOk,
      agrees.loaded⟩, agrees.first, opened_of_answered answered, answered⟩

/-- Armed and asked, the run reads as fired exactly when the rungs below do and the first poll
already found a device; a run that nobody asked never reads as fired. -/
theorem enum_verdict_iff {raw : List UInt8} {readings : List Reading}
    (captured : Captures b raw readings) (hostBytes : Nat) :
    (((enumRun b .boot readings).1.done ∧ readings.any (answers b) →
          verdict .enum (parseKv raw).vals hostBytes = .fired) ∧
        (readings.any (answers b) = false →
          verdict .enum (parseKv raw).vals hostBytes ≠ .fired)) ↔
      (readings.any (answers b) → Agrees (parseKv raw).vals b readings) := by
  have fired : verdict .enum (parseKv raw).vals hostBytes = .fired ↔
      readings.any (answers b) ∧ Agrees (parseKv raw).vals b readings :=
    enumVerdict_of_run captured
  constructor
  · intro ⟨consistent, _⟩ answered
    have done : (enumRun b .boot readings).1.done := by
      rw [run_done, opened_of_answered answered]
      exact Bool.or_true _
    exact (fired.mp (consistent ⟨done, answered⟩)).2
  · intro agrees
    constructor
    · intro ⟨_, answered⟩
      exact fired.mpr ⟨answered, agrees answered⟩
    · intro silent fires
      exact Bool.false_ne_true (silent.symm.trans (fired.mp fires).1)

/-! ## Texts of whole records -/

def wellNamed (r : Record) : Bool := r.key.all isKeyByte && !r.key.isEmpty

theorem kvMatches_records {records : List Record} (named : records.all wellNamed) :
    kvMatches (records.flatMap kvText) = found records := by
  induction records with
  | nil => rfl
  | cons r records ih =>
      rw [List.all_cons, Bool.and_eq_true, wellNamed, Bool.and_eq_true, List.all_eq_true] at named
      obtain ⟨⟨plain, some_⟩, named⟩ := named
      have some_ : r.key ≠ [] := by
        intro empty
        rw [empty] at some_
        exact Bool.false_ne_true some_
      have whole := kvMatches_kept (e := ⟨0, r, (kvText r).length⟩) plain
      rw [Entry.kept, Entry.found, List.take_length, length_kvText,
        if_pos ⟨some_, Nat.le_succ _⟩] at whole
      have rest := ih named
      rw [List.flatMap_cons]
      cases records with
      | nil =>
          rw [List.flatMap_nil, List.append_nil, whole]
          rfl
      | cons s records =>
          -- the next record begins with a space
          rw [List.flatMap_cons, kvText_eq s] at rest ⊢
          rw [List.cons_append] at rest ⊢
          rw [kvMatches_separated, whole, rest]
          rfl

theorem wellNamed_append {first more : List Record} (here : first.all wellNamed)
    (there : more.all wellNamed) : (first ++ more).all wellNamed := by
  rw [List.all_append, here, there]
  rfl

def enumRecord (r : Record) : Bool := wellNamed r && enumPrefix.isPrefixOf r.key

theorem poll_enumRecord (e : Enum) (r : Reading) :
    (entryUsbEnumPoll b e r).2.2.all enumRecord := by
  have state (e : Enum) : (usbEnumRecords e).all enumRecord := rfl
  rw [entryUsbEnumPoll]
  split
  · dsimp only
    rw [List.all_append, state, usbEnumArm]
    split
    · rfl
    · rfl
  · split
    · rfl
    · rfl

theorem run_enumRecord (e : Enum) (readings : List Reading) :
    (enumRun b e readings).2.all enumRecord := by
  induction readings generalizing e with
  | nil => rfl
  | cons r readings ih =>
      rw [enumRun_cons, List.all_append, poll_enumRecord, ih]
      rfl

def lowerRecords : List Record :=
  [⟨ascii "xnu_live_usb_mapped", 1⟩, ⟨ascii "xnu_live_usb_id_cap", 0x10002000⟩,
    ⟨ascii "xnu_live_usb_hciversion", 4⟩, ⟨ascii "xnu_live_usb_dev_proceed", 1⟩,
    ⟨ascii "xnu_live_usb_dev_devmode_ok", 1⟩, ⟨ascii "xnu_live_usb_dev_loaded", 1⟩]

def bootRecords (b : Build) (readings : List Reading) : List Record :=
  lowerRecords ++ (enumRun b .boot readings).2

theorem kvMatches_boot (readings : List Reading) :
    kvMatches ((bootRecords b readings).flatMap kvText) = found (bootRecords b readings) := by
  apply kvMatches_records
  apply wellNamed_append
  · rfl
  · have own := run_enumRecord (b := b) .boot readings
    rw [List.all_eq_true] at own ⊢
    intro r member
    exact (Bool.and_eq_true_iff.mp (own r member)).1

theorem boot_captures (readings : List Reading) :
    Captures b ((bootRecords b readings).flatMap kvText) readings := by
  have lower : (found lowerRecords).filter (fun m => enumPrefix.isPrefixOf m.1) = [] := rfl
  rw [Captures, kvMatches_boot, bootRecords, found, List.map_append, List.filter_append, ← found,
    ← found, lower, List.nil_append, List.filter_eq_self]
  intro m member
  obtain ⟨r, inside, rfl⟩ := List.mem_map.mp member
  have own := List.all_eq_true.mp (run_enumRecord (b := b) .boot readings) r inside
  exact (Bool.and_eq_true_iff.mp own).2

theorem boot_lower (readings : List Reading) {key : List UInt8}
    (other : enumPrefix.isPrefixOf key = false) :
    (parseKv ((bootRecords b readings).flatMap kvText)).vals key =
      (valuesOf (found lowerRecords) key).max? := by
  have none_ : valuesOf (found (enumRun b .boot readings).2) key = [] := by
    rw [valuesOf, List.map_eq_nil_iff, List.filter_eq_nil_iff]
    intro m member here
    obtain ⟨r, inside, rfl⟩ := List.mem_map.mp member
    have own := List.all_eq_true.mp (run_enumRecord (b := b) .boot readings) r inside
    have named := (Bool.and_eq_true_iff.mp own).2
    have same : r.key = key := of_decide_eq_true here
    rw [same, other] at named
    exact Bool.false_ne_true named
  rw [parseKv, kvMatches_boot, (parsed_foldl _ key).1, bootRecords, valuesOf_found_append, none_,
    List.append_nil]

theorem boot_device (readings : List Reading) :
    deviceVerdict (parseKv ((bootRecords b readings).flatMap kvText)).vals = .fired := by
  rw [deviceVerdict_fired, boot_lower _ rfl, boot_lower _ rfl, boot_lower _ rfl, boot_lower _ rfl,
    boot_lower _ rfl, boot_lower _ rfl]
  decide

def handedBuild : Build := ⟨true, false, 0⟩

/-- A core that is no device. -/
def gatedReading : Reading := ⟨0, 0, 0, enumIntrValue, 0, fun _ => 0, fun _ => 0⟩

def askedReading : Reading :=
  ⟨0x00000002, 0, stsUi, enumIntrValue, 1, fun i => if i = 0 then 0x80 else if i = 1 then 6 else
    if i = 3 then 1 else if i = 6 then 18 else 0, fun _ => 0⟩

theorem asked_run_fired :
    verdict .enum
      (parseKv ((bootRecords handedBuild [askedReading]).flatMap kvText)).vals 0 = .fired := by
  obtain ⟨mapped, idCap, hciVersion, proceed, devModeOk, loaded⟩ :=
    (deviceVerdict_fired _).mp (boot_device (b := handedBuild) [askedReading])
  have consistent := (enum_verdict_iff (boot_captures [askedReading]) 0).mpr fun _ =>
    ⟨mapped, idCap, hciVersion, proceed, devModeOk, loaded, rfl⟩
  exact consistent.1 ⟨rfl, rfl⟩

/-- A gated poll before the first open one hides an enumeration that the host then drives. -/
theorem gated_first_not_fired :
    let readings := [gatedReading, askedReading]
    let raw := (bootRecords handedBuild readings).flatMap kvText
    Captures handedBuild raw readings ∧ (enumRun handedBuild .boot readings).1.done ∧
      readings.any (answers handedBuild) ∧ verdict .device (parseKv raw).vals 0 = .fired ∧
      verdict .enum (parseKv raw).vals 0 = .didNotFire := by
  intro readings raw
  have captured : Captures handedBuild raw readings := boot_captures readings
  have device : deviceVerdict (parseKv raw).vals = .fired := boot_device readings
  have gated : (parseKv raw).vals (ascii "xnu_live_usb_enum_gated") = some 1 := by
    rw [captured_vals captured rfl]
    rfl
  refine ⟨captured, rfl, rfl, device, ?_⟩
  change enumVerdict _ = _
  rw [enumVerdict, if_neg (not_not.mpr device), if_pos gated]

end Stage90.Usb

import Stage90.Console.OsAccounts

/-!
# The refusals of the OS console

`entry_os_reserve` records its refusal, and is called again for every character as long as there
is no block.
-/

set_option autoImplicit false

namespace Stage90.Console

open Stage90.Lib

variable (max : Nat)

def limitedRecord : Record := ⟨ascii "xnu_live_ostext_limited", 2⟩

def Entry.refuses (e : Entry) : Bool := decide (e.record = limitedRecord) && decide (0 < e.stored)

def Log.refusals (l : Log) : Nat := l.entries.countP Entry.refuses

def Reports (c : State) : Call → Prop
  | .os ch which s => c.log.refusals < (c.call max (.os ch which s)).log.refusals
  | _ => False

/-- A live character that finds no block, no room for one, and a free byte of the ring. -/
def Repeats (c : State) : Call → Prop
  | .os ch which s =>
      let c₁ := osFirst max { c with os := osCount c.os ch which } s
      c.liveState = .live ∧ (c₁.os.at_ = 0 ∧ Refused max c₁) ∧ c₁.log.ring.published < max
  | _ => False

def AtMostOnce (ring : Ring) (pending : Option Probe) (calls : List Call)
    (P : State → Call → Prop) : Prop :=
  ∀ before one middle two after, before ++ one :: (middle ++ two :: after) = calls →
    P (execute (answer max) (boot ring pending) before).2 one →
      ¬ P (execute (answer max) (boot ring pending) (before ++ one :: middle)).2 two

/-! ## Records of another kind -/

theorem writeRecord_refusals (l : Log) (r : Record) :
    (writeRecord max l r).refusals =
      l.refusals + if r = limitedRecord ∧ l.ring.published < max then 1 else 0 := by
  have text : 0 < (kvText r).length := by
    rw [length_kvText]
    omega
  have seen : Entry.refuses
      ⟨l.ring.published, r, min (kvText r).length (max - l.ring.published)⟩ =
        decide (r = limitedRecord ∧ l.ring.published < max) := by
    rw [Entry.refuses, ← Bool.decide_and, decide_eq_decide]
    apply and_congr_right
    intro _
    dsimp only
    omega
  rw [Log.refusals, writeRecord_eq]
  dsimp only
  rw [List.countP_append, List.countP_singleton, seen, Log.refusals]
  simp only [decide_eq_true_eq]

theorem writeRecords_refusals (l : Log) {records : List Record}
    (other : ∀ r ∈ records, r ≠ limitedRecord) :
    (writeRecords max l records).refusals = l.refusals := by
  induction records generalizing l with
  | nil => rfl
  | cons r records ih =>
      have first := writeRecord_refusals max l r
      rw [if_neg fun both => other r List.mem_cons_self both.1, Nat.add_zero] at first
      rw [writeRecords, List.foldl_cons]
      exact (ih _ fun r' member => other r' (List.mem_cons_of_mem r member)).trans first

theorem flush_other (l : Log) : ∀ r ∈ l.flush, r ≠ limitedRecord := by
  have key (r : Record) (differ : r.key ≠ limitedRecord.key) : r ≠ limitedRecord :=
    fun same => differ (congrArg Record.key same)
  intro r member
  rw [Log.flush] at member
  cases found : l.pending with
  | none =>
      rw [found] at member
      exact absurd member List.not_mem_nil
  | some p =>
      rw [found] at member
      simp only [Option.map_some, Option.getD_some, Probe.recordsOf, List.mem_cons,
        List.not_mem_nil, or_false] at member
      apply key
      rcases member with here | here | here | here | here
      all_goals
        rw [here]
        dsimp only
        decide

theorem entryWriteKv_refusals (l : Log) {r : Record} (other : r ≠ limitedRecord) :
    (entryWriteKv max l r).refusals = l.refusals := by
  have last := writeRecord_refusals max (writeRecords max { l with pending := none } l.flush) r
  rw [if_neg fun both => other both.1, Nat.add_zero] at last
  exact last.trans (writeRecords_refusals max { l with pending := none } (flush_other l))

theorem logRun_refusals (l : Log) {records : List Record}
    (other : ∀ r ∈ records, r ≠ limitedRecord) : (logRun max l records).refusals = l.refusals := by
  induction records generalizing l with
  | nil => rfl
  | cons r records ih =>
      rw [logRun, List.foldl_cons]
      apply (ih _ fun r' member => other r' (List.mem_cons_of_mem r member)).trans
      exact entryWriteKv_refusals max l (other r List.mem_cons_self)

/-! ## A live character -/

/-- `c'` has no refusal that `c` has not, and no probe if `c` has none. -/
structure Silent (c c' : State) : Prop where
  refusals : c'.log.refusals = c.log.refusals
  pending : c.log.pending = none → c'.log.pending = none
  live : c'.liveState = c.liveState

theorem Silent.trans {c c' c'' : State} (first : Silent c c') (second : Silent c' c'') :
    Silent c c'' :=
  ⟨second.refusals.trans first.refusals, fun settled => second.pending (first.pending settled),
    second.live.trans first.live⟩

theorem silent_of_entries {c c' : State} (entries : c'.log.entries = c.log.entries)
    (pending : c'.log.pending = c.log.pending) (live : c'.liveState = c.liveState) : Silent c c' :=
  ⟨congrArg (List.countP Entry.refuses) entries, fun settled => pending.trans settled, live⟩

variable {max} in
theorem Silent.write {c c' : State} (silent : Silent c c') {records : List Record}
    (other : ∀ r ∈ records, r ≠ limitedRecord) : Silent c (c'.write max records) :=
  silent.trans ⟨logRun_refusals max c'.log other, fun settled => logRun_pending settled records,
    rfl⟩

theorem reserve_silent (c : State) (block : Nat) : Silent c (c.reserve block) :=
  silent_of_entries rfl rfl rfl

theorem ne_limited_of_key {r : Record} (differ : r.key ≠ ascii "xnu_live_ostext_limited") :
    r ≠ limitedRecord := fun same => differ (congrArg Record.key same)

theorem osFirst_silent (c : State) (s : OsState) : Silent c (osFirst max c s) := by
  rw [osFirst]
  split
  · exact silent_of_entries rfl rfl rfl
  · apply Silent.write
    case silent => exact silent_of_entries rfl rfl rfl
    intro r member
    apply ne_limited_of_key
    rw [List.mem_append, List.mem_singleton, osStateRecords, List.mem_append] at member
    rcases member with (four | fifth) | tank
    · simp only [List.mem_cons, List.not_mem_nil, or_false] at four
      rcases four with here | here | here | here
      all_goals
        rw [here]
        dsimp only
        decide
    · cases count : s.kernelDebuggerEntryCount with
      | none =>
          rw [count] at fifth
          exact absurd fifth List.not_mem_nil
      | some n =>
          rw [count, Option.map_some, Option.toList_some, List.mem_singleton] at fifth
          rw [fifth]
          dsimp only
          decide
    · rw [tank]
      dsimp only
      decide

theorem foldl_store_silent (c : State) (cells : List UInt8) : Silent c (cells.foldl State.store c) := by
  induction cells generalizing c with
  | nil => exact silent_of_entries rfl rfl rfl
  | cons ch cells ih => exact (silent_of_entries rfl rfl rfl : Silent c (c.store ch)).trans (ih _)

theorem granted_silent {c : State} (granted : ¬ Refused max c) :
    Silent c (entryOsReserve max c).2 := by
  rw [entryOsReserve_granted max granted]
  apply Silent.trans _ (foldl_store_silent _ osMarker)
  apply (reserve_silent c entryOsBlock).write
  intro r member
  apply ne_limited_of_key
  simp only [List.mem_cons, List.not_mem_nil, or_false] at member
  rcases member with here | here
  all_goals
    rw [here]
    dsimp only
    decide

theorem opening_silent {c : State} (granted : ¬ (c.os.at_ = 0 ∧ Refused max c)) :
    Silent c (c.opening max) := by
  rw [State.opening]
  by_cases closed : c.os.at_ = 0
  · rw [if_pos closed]
    exact granted_silent max fun refused => granted ⟨closed, refused⟩
  · rw [if_neg closed]
    exact silent_of_entries rfl rfl rfl

theorem emptyTank_silent (c : State) (cells : List UInt8) : Silent c (emptyTank c cells).2 := by
  induction cells generalizing c with
  | nil => exact silent_of_entries rfl rfl rfl
  | cons ch cells ih =>
      rw [emptyTank]
      split
      · exact silent_of_entries rfl rfl rfl
      · exact (silent_of_entries rfl rfl rfl : Silent c (c.take ch)).trans (ih _)

theorem osText_silent (c : State) (ch : UInt8) : Silent c (osText max c ch) := by
  rw [osText]
  split
  · split
    · apply Silent.write
      case silent => exact silent_of_entries rfl rfl rfl
      intro r member
      simp only [List.mem_cons, List.not_mem_nil, or_false] at member
      rcases member with here | here | here
      · -- the key is the refusal's, the value is not
        intro same
        rw [here, limitedRecord, Record.mk.injEq] at same
        exact absurd same.2 (by decide)
      all_goals
        apply ne_limited_of_key
        rw [here]
        dsimp only
        decide
    · exact silent_of_entries rfl rfl rfl
  · apply (silent_of_entries rfl rfl rfl : Silent c (c.take ch)).trans
    rw [osHeal]
    split
    · dsimp only
      apply Silent.write
      case silent => exact silent_of_entries rfl rfl rfl
      intro r member
      apply ne_limited_of_key
      simp only [List.mem_cons, List.not_mem_nil, or_false] at member
      rcases member with here | here | here
      all_goals
        rw [here]
        dsimp only
        decide
    · exact silent_of_entries rfl rfl rfl

theorem osLive_granted_silent (c : State) (ch : UInt8) (s : OsState)
    (granted : ¬ ((osFirst max c s).os.at_ = 0 ∧ Refused max (osFirst max c s))) :
    Silent c (osLive max c ch s) := by
  have opening := osLive_opening max granted ch
  dsimp only at opening
  have opened := (osFirst_silent max c s).trans (opening_silent max granted)
  generalize (osFirst max c s).opening max = c₂ at *
  have emptied := opened.trans ((silent_of_entries rfl rfl rfl :
    Silent c₂ { c₂ with os := { c₂.os with tank := [] } }).trans (emptyTank_silent _ c₂.os.tank))
  rw [opening]
  split
  · exact emptied.trans (osText_silent max _ ch)
  · exact emptied

theorem osLive_refused_refusals {c : State} (settled : c.log.pending = none) {s : OsState}
    (closed : (osFirst max c s).os.at_ = 0) (refused : Refused max (osFirst max c s)) (ch : UInt8) :
    (osLive max c ch s).log.refusals =
      c.log.refusals + (if (osFirst max c s).log.ring.published < max then 1 else 0) ∧
      (osLive max c ch s).log.pending = none ∧ (osLive max c ch s).liveState = c.liveState := by
  have first := osFirst_silent max c s
  have settled₁ := first.pending settled
  have log : (osLive max c ch s).log =
      logRun max (osFirst max c s).log (refusal (osFirst max c s).os.chars) := by
    rw [osLive_refused max closed refused, entryOsReserve_refused max refused]
    rfl
  have live : (osLive max c ch s).liveState = (osFirst max c s).liveState := by
    rw [osLive_refused max closed refused, entryOsReserve_refused max refused]
    rfl
  refine ⟨?_, ?_, live.trans first.live⟩
  · have chars : (⟨ascii "xnu_live_ostext_chars", (osFirst max c s).os.chars⟩ : Record) ≠
        limitedRecord := ne_limited_of_key (by dsimp only; decide)
    rw [log, refusal, logRun, List.foldl_cons, List.foldl_cons, List.foldl_nil,
      entryWriteKv_refusals max _ chars, entryWriteKv_settled settled₁, writeRecord_refusals,
      first.refusals]
    simp only [limitedRecord, true_and]
  · rw [log]
    exact logRun_pending settled₁ _

/-! ## Runs -/

/-- A channel that is live has published the probe. -/
def Settled (c : State) : Prop := c.liveState = .live → c.log.pending = none

theorem Silent.settled {c c' : State} (silent : Silent c c') (settled : Settled c) : Settled c' :=
  fun live => silent.pending (settled (silent.live.symm.trans live))

theorem entryLiveInit_settled {c : State} (untried : c.liveState = .untried) (m : Machine) :
    Settled (entryLiveInit max c m) := by
  have idle : c.liveState ≠ .live := by
    rw [untried]
    exact LiveState.noConfusion
  have refuse (c : State) (why : UInt32) : Settled (entryLiveRefuse c why) := nofun
  rw [entryLiveInit]
  dsimp only
  split
  · split
    · exact fun live => absurd live idle
    · exact refuse _ 1
  split
  · exact refuse _ 5
  split
  · exact refuse _ 3
  split
  · exact refuse _ 2
  split
  · exact refuse _ 4
  · exact fun _ => logRun_cons_pending max _ _ _

theorem entryLiveWrite_settled {c : State} (settled : Settled c) (r : Record) (m : Machine) :
    Settled (entryLiveWrite max c r m) := by
  have first : Settled (if c.liveState = .untried then entryLiveInit max c m else c) := by
    split
    · rename_i untried
      exact entryLiveInit_settled max untried m
    · exact settled
  rw [entryLiveWrite]
  dsimp only
  generalize (if c.liveState = .untried then entryLiveInit max c m else c) = c₁ at first
  split
  · exact first
  split
  · split
    · exact fun _ => logRun_cons_pending max _ _ _
    · exact first
  · exact fun _ => logRun_cons_pending max _ _ _

/-- One character: it reports exactly when it repeats. -/
theorem os_reports {c : State} (settled : Settled c) (ch : UInt8) (which : UInt32) (s : OsState) :
    (Reports max c (.os ch which s) ↔ Repeats max c (.os ch which s)) ∧
      Settled (c.call max (.os ch which s)) := by
  rw [Reports, Repeats]
  by_cases live : c.liveState = .live
  · have step : c.call max (.os ch which s) =
        osLive max { c with os := osCount c.os ch which } ch s := if_neg (not_not.mpr live)
    have counted : Silent c { c with os := osCount c.os ch which } :=
      silent_of_entries rfl rfl rfl
    rw [step]
    generalize ({ c with os := osCount c.os ch which } : State) = c₁ at counted
    have settled₁ : c₁.log.pending = none := counted.pending (settled live)
    by_cases refused : (osFirst max c₁ s).os.at_ = 0 ∧ Refused max (osFirst max c₁ s)
    · obtain ⟨refusals, pending, _⟩ :=
        osLive_refused_refusals max settled₁ refused.1 refused.2 ch
      refine ⟨?_, fun _ => pending⟩
      rw [refusals, counted.refusals]
      constructor
      · intro more
        refine ⟨live, refused, ?_⟩
        by_contra full
        rw [if_neg full] at more
        exact Nat.lt_irrefl _ more
      · intro repeats
        rw [if_pos repeats.2.2]
        exact Nat.lt_succ_self _
    · have silent := counted.trans (osLive_granted_silent max c₁ ch s refused)
      refine ⟨?_, silent.settled settled⟩
      rw [silent.refusals]
      constructor
      · intro more
        exact absurd more (Nat.lt_irrefl _)
      · intro repeats
        exact absurd repeats.2.1 refused
  · have silent : Silent c (c.call max (.os ch which s)) := by
      rw [State.call, entryOsConsoleChar]
      dsimp only
      rw [if_pos live]
      split
      · exact silent_of_entries rfl rfl rfl
      · exact silent_of_entries rfl rfl rfl
    refine ⟨?_, silent.settled settled⟩
    rw [silent.refusals]
    constructor
    · intro more
      exact absurd more (Nat.lt_irrefl _)
    · intro repeats
      exact absurd repeats.1 live

theorem call_reports {c : State} (settled : Settled c) (call : Call) :
    (Reports max c call ↔ Repeats max c call) ∧ Settled (c.call max call) := by
  cases call with
  | kv r => exact ⟨Iff.rfl, fun _ => logRun_cons_pending max c.log r []⟩
  | live r m => exact ⟨Iff.rfl, entryLiveWrite_settled max settled r m⟩
  | os ch which s => exact os_reports max settled ch which s

theorem run_settled (ring : Ring) (pending : Option Probe) (calls : List Call) :
    Settled (execute (answer max) (boot ring pending) calls).2 := by
  apply execute_invariant Settled
  · exact nofun
  · intro c call settled
    exact (call_reports max settled call).2

/-- A run writes one refusal at most exactly when one live character at most finds neither a
block, nor room for one, nor a full ring. -/
theorem one_report_iff (ring : Ring) (pending : Option Probe) (calls : List Call) :
    AtMostOnce max ring pending calls (Reports max) ↔
      AtMostOnce max ring pending calls (Repeats max) := by
  have same (before : List Call) (call : Call) :
      Reports max (execute (answer max) (boot ring pending) before).2 call ↔
        Repeats max (execute (answer max) (boot ring pending) before).2 call :=
    (call_reports max (run_settled max ring pending before) call).1
  constructor
  · intro once before one middle two after split first second
    apply once before one middle two after split
    · exact (same before one).mpr first
    · exact (same (before ++ one :: middle) two).mpr second
  · intro once before one middle two after split first second
    apply once before one middle two after split
    · exact (same before one).mp first
    · exact (same (before ++ one :: middle) two).mp second

/-- Two characters behind the bring-up of a ring without room. -/
theorem refusal_repeated :
    ¬ AtMostOnce ramConsoleMax fullRing none
      (fullCalls ++ [.os 66 1 ⟨0, 0, 0, 0, none⟩]) (Reports ramConsoleMax) := by
  intro once
  have first : Reports ramConsoleMax
      (execute (answer ramConsoleMax) (boot fullRing none)
        [.live ⟨ascii "a", 1⟩ readyMachine]).2 (.os 65 1 ⟨0, 0, 0, 0, none⟩) := by
    rw [Reports]
    decide +kernel
  have second : Reports ramConsoleMax
      (execute (answer ramConsoleMax) (boot fullRing none) fullCalls).2
        (.os 66 1 ⟨0, 0, 0, 0, none⟩) := by
    rw [Reports]
    decide +kernel
  exact once [.live ⟨ascii "a", 1⟩ readyMachine] _ [] _ [] rfl first second

end Stage90.Console

import Stage90.Console.RingSafety

/-!
# The accounts of the OS console

A character is stored, tanked or counted as dropped, unless it finds no room for itself once the
channel is live: nothing counts that one.
-/

set_option autoImplicit false

namespace Stage90.Console

open Stage90.Lib

variable (max : Nat)

/-- The first test of `entry_os_reserve`. -/
def Refused (c : State) : Prop :=
  c.log.ring.sig ≠ ramConsoleSig ∨ max < u32 (c.log.ring.size + entryOsBlock)

instance (c : State) : Decidable (Refused max c) := inferInstanceAs (Decidable (_ ∨ _))

/-- Where the text goes on, and where the block ends, with the block reserved if it is not yet. -/
def State.cursor (c : State) : Nat × Nat :=
  if c.os.at_ = 0 then
    (u32 (c.log.ring.size + osMarker.length), u32 (c.log.ring.size + entryOsBlock))
  else (c.os.at_, c.os.end_)

/-- There is no block, or it cannot hold the tank and one more character. -/
def NoRoom (c : State) : Prop :=
  (c.os.at_ = 0 ∧ Refused max c) ∨ c.cursor.2 ≤ c.cursor.1 + c.os.tank.length

def Loses (c : State) : Call → Prop
  | .os ch which s =>
      c.liveState = .live ∧ NoRoom max (osFirst max { c with os := osCount c.os ch which } s)
  | _ => False

def Os.accounted (os : Os) : UInt32 := os.total + UInt32.ofNat os.tank.length + os.tankDropped

def arrived : Call → Nat
  | .os _ _ _ => 1
  | _ => 0

def received (history : List (Call × Bool)) : Nat := (history.map fun entry => arrived entry.1).sum

/-- The counters are 32 bits wide, and so is the law. -/
structure Accounts (history : List (Call × Bool)) (c : State) : Prop where
  chars : c.os.chars = UInt32.ofNat (received history)
  complete : c.os.chars = c.os.accounted

/-! ## The parts of a call -/

theorem write_os (c : State) (records : List Record) : (c.write max records).os = c.os := rfl

theorem entryLiveInit_os (c : State) (m : Machine) : (entryLiveInit max c m).os = c.os := by
  rw [entryLiveInit]
  dsimp only
  split
  · split
    · rfl
    · rfl
  split
  · rfl
  split
  · rfl
  split
  · rfl
  split
  · rfl
  · rfl

theorem entryLiveWrite_os (c : State) (r : Record) (m : Machine) :
    (entryLiveWrite max c r m).os = c.os := by
  have first : (if c.liveState = .untried then entryLiveInit max c m else c).os = c.os := by
    split
    · exact entryLiveInit_os max c m
    · rfl
  rw [entryLiveWrite]
  dsimp only
  generalize (if c.liveState = .untried then entryLiveInit max c m else c) = c₁ at first
  rw [← first]
  split
  · rfl
  split
  · split
    · rfl
    · rfl
  · rfl

theorem osFirst_os (c : State) (s : OsState) : (osFirst max c s).os = { c.os with first := true } := by
  rw [osFirst]
  split
  · rename_i first
    rw [← first]
  · rfl

def refusal (chars : UInt32) : List Record :=
  [⟨ascii "xnu_live_ostext_limited", 2⟩, ⟨ascii "xnu_live_ostext_chars", chars⟩]

theorem entryOsReserve_refused {c : State} (refused : Refused max c) :
    entryOsReserve max c =
      (false, ({ c with os := { c.os with limited := 2 } } : State).write max
        (refusal c.os.chars)) :=
  if_pos refused

theorem entryOsReserve_granted {c : State} (granted : ¬ Refused max c) :
    entryOsReserve max c =
      (true, osMarker.foldl State.store ((c.reserve entryOsBlock).write max
        [⟨ascii "xnu_live_ostext_at", UInt32.ofNat c.log.ring.size⟩,
          ⟨ascii "xnu_live_ostext_block", UInt32.ofNat entryOsBlock⟩])) :=
  if_neg granted

def Os.opened (os : Os) (size : Nat) : Os :=
  { os with
    at_ := u32 (size + osMarker.length)
    end_ := u32 (size + entryOsBlock)
    atBase := size }

theorem entryOsReserve_os {c : State} (granted : ¬ Refused max c) :
    (entryOsReserve max c).2.os = c.os.opened c.log.ring.size := by
  have marker : osMarker ≠ [] := by decide
  rw [entryOsReserve_granted max granted, foldl_store_os _ marker, write_os, reserve_statics,
    Os.opened]

/-- The tank goes to the block or to the count, and there is a place left behind it exactly when
there was one for all of it and more. -/
theorem emptyTank_os (c : State) (cells : List UInt8) (bounded : c.os.end_ < 2 ^ 32) :
    (emptyTank c cells).2.os.tank = c.os.tank ∧
      (emptyTank c cells).2.os.end_ = c.os.end_ ∧
      (emptyTank c cells).2.os.chars = c.os.chars ∧
      (emptyTank c cells).2.os.total + (emptyTank c cells).2.os.tankDropped =
        c.os.total + c.os.tankDropped + UInt32.ofNat cells.length ∧
      ((emptyTank c cells).1 = true ∧ (emptyTank c cells).2.os.at_ < c.os.end_ ↔
        c.os.at_ + cells.length < c.os.end_) := by
  induction cells generalizing c with
  | nil =>
      refine ⟨rfl, rfl, rfl, (UInt32.add_zero _).symm, ?_⟩
      rw [emptyTank]
      simp
  | cons ch cells ih =>
      rw [emptyTank]
      by_cases full : c.os.end_ ≤ c.os.at_
      · rw [if_pos full]
        refine ⟨rfl, rfl, rfl, (UInt32.add_assoc _ _ _).symm, ?_⟩
        constructor
        · intro both
          exact Bool.noConfusion both.1
        · intro room
          omega
      · have next : (c.take ch).os.at_ = c.os.at_ + 1 := u32_of_lt (by omega)
        obtain ⟨tank, end_, chars, sum, room⟩ := ih (c.take ch) bounded
        rw [if_neg full]
        refine ⟨tank, end_, chars, ?_, ?_⟩
        · have one : UInt32.ofNat (ch :: cells).length = 1 + UInt32.ofNat cells.length := by
            rw [List.length_cons, Nat.add_comm, UInt32.ofNat_add]
            rfl
          have more : (c.take ch).os.total = c.os.total + 1 := rfl
          have same : (c.take ch).os.tankDropped = c.os.tankDropped := rfl
          rw [sum, more, same, one]
          ac_rfl
        · have still : (c.take ch).os.end_ = c.os.end_ := rfl
          rw [still, next] at room
          rw [room, List.length_cons]
          omega

/-- A full block loses the character. -/
theorem osText_os (c : State) (ch : UInt8) :
    (osText max c ch).os.tank = c.os.tank ∧ (osText max c ch).os.end_ = c.os.end_ ∧
      (osText max c ch).os.chars = c.os.chars ∧
      (osText max c ch).os.tankDropped = c.os.tankDropped ∧
      (osText max c ch).os.total = if c.os.end_ ≤ c.os.at_ then c.os.total else c.os.total + 1 := by
  rw [osText]
  by_cases full : c.os.end_ ≤ c.os.at_
  · rw [if_pos full, if_pos full]
    split
    · exact ⟨rfl, rfl, rfl, rfl, rfl⟩
    · exact ⟨rfl, rfl, rfl, rfl, rfl⟩
  · rw [if_neg full, if_neg full, osHeal]
    split
    · exact ⟨rfl, rfl, rfl, rfl, rfl⟩
    · exact ⟨rfl, rfl, rfl, rfl, rfl⟩

/-! ## A live character -/

/-- The console in which the tank is emptied. -/
def State.opening (c : State) : State := if c.os.at_ = 0 then (entryOsReserve max c).2 else c

theorem osLive_refused {c : State} {s : OsState} (closed : (osFirst max c s).os.at_ = 0)
    (refused : Refused max (osFirst max c s)) (ch : UInt8) :
    osLive max c ch s = (entryOsReserve max (osFirst max c s)).2.dropTank := by
  rw [osLive_eq, if_pos closed, entryOsReserve_refused max refused]
  rfl

theorem osLive_opening {c : State} {s : OsState}
    (granted : ¬ ((osFirst max c s).os.at_ = 0 ∧ Refused max (osFirst max c s))) (ch : UInt8) :
    let opened := (osFirst max c s).opening max
    let emptied := emptyTank { opened with os := { opened.os with tank := [] } } opened.os.tank
    osLive max c ch s = if emptied.1 then osText max emptied.2 ch else emptied.2 := by
  intro opened emptied
  have reserved : (if (osFirst max c s).os.at_ = 0 then entryOsReserve max (osFirst max c s)
      else (true, osFirst max c s)) = (true, opened) := by
    by_cases closed : (osFirst max c s).os.at_ = 0
    · have open_ : ¬ Refused max (osFirst max c s) := fun refused => granted ⟨closed, refused⟩
      have same : opened = (entryOsReserve max (osFirst max c s)).2 := if_pos closed
      rw [if_pos closed, same, entryOsReserve_granted max open_]
    · have same : opened = osFirst max c s := if_neg closed
      rw [if_neg closed, same]
  rw [osLive_eq, reserved]
  rfl

theorem opening_os {c : State} (granted : ¬ (c.os.at_ = 0 ∧ Refused max c)) :
    ((c.opening max).os.at_, (c.opening max).os.end_) = c.cursor ∧
      (c.opening max).os.tank = c.os.tank ∧ (c.opening max).os.chars = c.os.chars ∧
      (c.opening max).os.total = c.os.total ∧
      (c.opening max).os.tankDropped = c.os.tankDropped := by
  rw [State.opening, State.cursor]
  by_cases closed : c.os.at_ = 0
  · have open_ : ¬ Refused max c := fun refused => granted ⟨closed, refused⟩
    rw [if_pos closed, if_pos closed, entryOsReserve_os max open_]
    exact ⟨rfl, rfl, rfl, rfl, rfl⟩
  · rw [if_neg closed, if_neg closed]
    exact ⟨rfl, rfl, rfl, rfl, rfl⟩

theorem cursor_bounded {c : State} (bounded : c.os.end_ < 2 ^ 32) : c.cursor.2 < 2 ^ 32 := by
  rw [State.cursor]
  split
  · exact u32_lt _
  · exact bounded

structure Charged (os os' : Os) (loses : Prop) : Prop where
  chars : os'.chars = os.chars
  bounded : os'.end_ < 2 ^ 32
  lost : loses → os'.accounted = os.accounted
  kept : ¬ loses → os'.accounted = os.accounted + 1

theorem osLive_charged (c : State) (ch : UInt8) (s : OsState) (bounded : c.os.end_ < 2 ^ 32) :
    Charged c.os (osLive max c ch s).os (NoRoom max (osFirst max c s)) := by
  have first := osFirst_os max c s
  by_cases refused : (osFirst max c s).os.at_ = 0 ∧ Refused max (osFirst max c s)
  · have drop : (osLive max c ch s).os =
        { c.os with
          first := true
          limited := 2
          tankDropped := c.os.tankDropped + UInt32.ofNat c.os.tank.length
          tank := [] } := by
      rw [osLive_refused max refused.1 refused.2, entryOsReserve_refused max refused.2,
        State.dropTank]
      dsimp only
      rw [write_os]
      dsimp only
      rw [first]
    rw [drop]
    refine ⟨rfl, bounded, ?_, fun kept => absurd (Or.inl refused) kept⟩
    intro _
    rw [Os.accounted, Os.accounted]
    dsimp only
    rw [List.length_nil]
    change c.os.total + 0 + _ = _
    rw [UInt32.add_zero]
    ac_rfl
  · have opening := osLive_opening max refused ch
    dsimp only at opening
    obtain ⟨cursor, tank, chars, total, dropped⟩ := opening_os max refused
    have at_ := congrArg Prod.fst cursor
    have end_ := congrArg Prod.snd cursor
    have bounded₁ : (osFirst max c s).os.end_ < 2 ^ 32 := by
      rw [first]
      exact bounded
    have bounded₂ : ((osFirst max c s).opening max).os.end_ < 2 ^ 32 :=
      Nat.lt_of_le_of_lt (Nat.le_of_eq end_) (cursor_bounded bounded₁)
    generalize (osFirst max c s).opening max = c₂ at *
    obtain ⟨tank₃, end₃, chars₃, sum₃, room₃⟩ :=
      emptyTank_os { c₂ with os := { c₂.os with tank := [] } } c₂.os.tank bounded₂
    dsimp only at tank₃ end₃ chars₃ sum₃ room₃ at_ end_
    generalize emptyTank { c₂ with os := { c₂.os with tank := [] } } c₂.os.tank = emptied at *
    have start : c₂.os.total + c₂.os.tankDropped + UInt32.ofNat c₂.os.tank.length =
        c.os.accounted := by
      rw [total, dropped, tank, first, Os.accounted]
      dsimp only
      ac_rfl
    have noRoom : NoRoom max (osFirst max c s) ↔ ¬ c₂.os.at_ + c₂.os.tank.length < c₂.os.end_ := by
      rw [NoRoom, ← at_, ← end_, ← tank]
      constructor
      · intro either
        exact either.elim (fun both => absurd both refused) Nat.not_lt.mpr
      · intro full
        exact Or.inr (Nat.le_of_not_lt full)
    have passed : emptied.2.os.accounted = c.os.accounted := by
      rw [← start, ← sum₃, Os.accounted, tank₃]
      change emptied.2.os.total + 0 + _ = _
      rw [UInt32.add_zero]
    have chars₄ : emptied.2.os.chars = c.os.chars := by
      rw [chars₃, chars, first]
    have bounded₃ : emptied.2.os.end_ < 2 ^ 32 := by
      rw [end₃]
      exact bounded₂
    rw [opening]
    by_cases whole : emptied.1 = true
    · obtain ⟨tank₄, end₄, chars₅, dropped₄, total₄⟩ := osText_os max emptied.2 ch
      have behind : NoRoom max (osFirst max c s) ↔ emptied.2.os.end_ ≤ emptied.2.os.at_ := by
        rw [noRoom, ← room₃, end₃, ← Nat.not_lt]
        exact not_congr (and_iff_right whole)
      rw [if_pos whole, behind]
      refine ⟨chars₅.trans chars₄, by rw [end₄]; exact bounded₃, ?_, ?_⟩
      · intro full
        rw [Os.accounted, tank₄, dropped₄, total₄, if_pos full]
        exact passed
      · intro room
        rw [Os.accounted, tank₄, dropped₄, total₄, if_neg room, ← passed, Os.accounted]
        ac_rfl
    · have full : NoRoom max (osFirst max c s) := by
        rw [noRoom, ← room₃]
        exact fun both => whole both.1
      rw [if_neg whole]
      exact ⟨chars₄, bounded₃, fun _ => passed, fun room => absurd full room⟩

/-! ## Calls and runs -/

/-- A call counts its character, and loses it or accounts for it. -/
structure Posted (c c' : State) (arrivals : Nat) (loses : Prop) : Prop where
  chars : c'.os.chars = c.os.chars + UInt32.ofNat arrivals
  bounded : c'.os.end_ < 2 ^ 32
  lost : loses → c'.os.accounted = c.os.accounted
  kept : ¬ loses → c'.os.accounted = c.os.accounted + UInt32.ofNat arrivals

theorem posted_silent {c c' : State} (bounded : c.os.end_ < 2 ^ 32) (same : c'.os = c.os) :
    Posted c c' 0 False := by
  refine ⟨?_, by rw [same]; exact bounded, False.elim, ?_⟩
  · rw [same]
    exact (UInt32.add_zero _).symm
  · intro _
    rw [same]
    exact (UInt32.add_zero _).symm

theorem posted_tank {c : State} (bounded : c.os.end_ < 2 ^ 32) (idle : c.liveState ≠ .live)
    (ch : UInt8) (which : UInt32) (s : OsState) :
    Posted c (entryOsConsoleChar max c ch which s) 1 False := by
  rw [entryOsConsoleChar]
  dsimp only
  rw [if_pos idle]
  split
  · refine ⟨rfl, bounded, False.elim, ?_⟩
    intro _
    rw [Os.accounted, Os.accounted]
    dsimp only
    rw [List.length_append, List.length_singleton, UInt32.ofNat_add]
    change c.os.total + (UInt32.ofNat c.os.tank.length + UInt32.ofNat 1) + c.os.tankDropped = _
    ac_rfl
  · refine ⟨rfl, bounded, False.elim, ?_⟩
    intro _
    exact (UInt32.add_assoc _ _ _).symm

theorem call_posted {c : State} (bounded : c.os.end_ < 2 ^ 32) (call : Call) :
    Posted c (c.call max call) (arrived call) (Loses max c call) := by
  cases call with
  | kv r => exact posted_silent bounded (write_os max c [r])
  | live r m => exact posted_silent bounded (entryLiveWrite_os max c r m)
  | os ch which s =>
      by_cases live : c.liveState = .live
      · have step : c.call max (.os ch which s) =
            osLive max { c with os := osCount c.os ch which } ch s := if_neg (not_not.mpr live)
        have loses : Loses max c (.os ch which s) ↔
            NoRoom max (osFirst max { c with os := osCount c.os ch which } s) := and_iff_right live
        have charged := osLive_charged max { c with os := osCount c.os ch which } ch s bounded
        rw [step, loses]
        exact ⟨charged.chars, charged.bounded, charged.lost, charged.kept⟩
      · have loses : Loses max c (.os ch which s) ↔ False := by
          rw [iff_false]
          exact fun both => live both.1
        rw [loses]
        exact posted_tank max bounded live ch which s

theorem received_snoc (history : List (Call × Bool)) (last : Call × Bool) :
    received (history ++ [last]) = received history + arrived last.1 := by
  simp [received]

theorem bounded_run (ring : Ring) (pending : Option Probe) (calls : List Call) :
    (execute (answer max) (boot ring pending) calls).2.os.end_ < 2 ^ 32 := by
  apply execute_invariant fun c : State => c.os.end_ < 2 ^ 32
  · exact Nat.two_pow_pos 32
  · intro c call bounded
    exact (call_posted max bounded call).bounded

def NoneLost (ring : Ring) (pending : Option Probe) (calls : List Call) : Prop :=
  ∀ before call after, before ++ call :: after = calls →
    ¬ Loses max (execute (answer max) (boot ring pending) before).2 call

section Runs
variable (ring : Ring) (pending : Option Probe)

theorem accounts_run (calls : List Call) (none_ : NoneLost max ring pending calls) :
    Accounts (execute (answer max) (boot ring pending) calls).1
      (execute (answer max) (boot ring pending) calls).2 := by
  induction calls using List.reverseRecOn with
  | nil => exact ⟨rfl, rfl⟩
  | append_singleton calls call ih =>
      have earlier : NoneLost max ring pending calls := by
        intro before call' after split
        apply none_ before call' (after ++ [call])
        rw [← List.cons_append, ← List.append_assoc, split]
      obtain ⟨chars, complete⟩ := ih earlier
      have posted := call_posted max (bounded_run max ring pending calls) call
      rw [execute_snoc]
      constructor
      · rw [received_snoc, UInt32.ofNat_add, ← chars]
        exact posted.chars
      · exact (posted.chars.trans (by rw [complete])).trans (posted.kept (none_ calls call [] rfl)).symm

/-- A lost character is missing from the accounts at once. -/
theorem kept_of_accounts {calls : List Call} {call : Call}
    (before : Accounts (execute (answer max) (boot ring pending) calls).1
      (execute (answer max) (boot ring pending) calls).2)
    (after : Accounts (execute (answer max) (boot ring pending) (calls ++ [call])).1
      (execute (answer max) (boot ring pending) (calls ++ [call])).2) :
    ¬ Loses max (execute (answer max) (boot ring pending) calls).2 call := by
  intro loses
  have posted := call_posted max (bounded_run max ring pending calls) call
  have complete := after.complete
  rw [execute_snoc] at complete
  have arrival : arrived call = 1 := by
    cases call with
    | kv r => exact loses.elim
    | live r m => exact loses.elim
    | os ch which s => rfl
  have same : (execute (answer max) (boot ring pending) calls).2.os.chars + UInt32.ofNat 1 =
      (execute (answer max) (boot ring pending) calls).2.os.chars := by
    rw [← arrival, ← posted.chars, before.complete, ← posted.lost loses]
    exact complete
  have one : UInt32.ofNat 1 = 0 := by
    rw [← UInt32.add_right_inj (execute (answer max) (boot ring pending) calls).2.os.chars, same,
      UInt32.add_zero]
  exact absurd one (by decide)

/-- The accounts are complete in every state of a run exactly when no call of it loses its
character. -/
theorem accounts_iff (calls : List Call) :
    (∀ before after, before ++ after = calls →
        Accounts (execute (answer max) (boot ring pending) before).1
          (execute (answer max) (boot ring pending) before).2) ↔
      NoneLost max ring pending calls := by
  constructor
  · intro accounts before call after split
    apply kept_of_accounts max ring pending
    · exact accounts before (call :: after) split
    · apply accounts (before ++ [call]) after
      rw [List.append_assoc, ← split]
      rfl
  · intro none_ before after split
    apply accounts_run
    intro first call rest earlier
    apply none_ first call (rest ++ after)
    rw [← split, ← earlier, List.append_assoc]
    rfl

end Runs

/-! ## A ring without room -/

def fullRing : Ring := ⟨ramConsoleSig, ramConsoleMax - 1200, fun _ => 0⟩

def fullCalls : List Call := [.live ⟨ascii "a", 1⟩ readyMachine, .os 65 1 ⟨0, 0, 0, 0, none⟩]

def fullRun : List (Call × Bool) × State :=
  execute (answer ramConsoleMax) (boot fullRing none) fullCalls

/-- The character comes in, and is nowhere. -/
theorem refused_character_lost :
    (fullRun.2.os.chars = 1 ∧ fullRun.2.os.accounted = 0) ∧ ¬ Accounts fullRun.1 fullRun.2 := by
  have counters : fullRun.2.os.chars = 1 ∧ fullRun.2.os.accounted = 0 := by
    decide +kernel
  refine ⟨counters, ?_⟩
  intro accounts
  have same : (1 : UInt32) = 0 := counters.1.symm.trans (accounts.complete.trans counters.2)
  exact absurd same (by decide)

end Stage90.Console

import Stage90.Callwalk.Listing
import Stage90.Lib.Rounds
import Stage90.Lib.Trajectory

/-!
# The straight-line run

The run in which unconditional branches are followed, conditional branches and returns fall
through and calls return, against the addresses the traversal does not leave cold.
-/

set_option autoImplicit false

namespace Stage90.Callwalk

open Stage90.Lib

/-! ## The run -/

inductive Transfer
  | next
  | goto (addr : Nat)
  | leave

/-- The unconditional loads of several registers, under every name. -/
def loads : List String :=
  ["pop", "ldm", "ldmia", "ldmib", "ldmda", "ldmdb", "ldmfd", "ldmfa", "ldmed", "ldmea"]

def transfer (fn : PyText) (row : Row) : Transfer :=
  if row.mnemonic = ['b'] then
    match localTarget fn row.operands with
    | some addr => .goto addr
    | none => .leave
  else if row.mnemonic = ['b', 'x'] then .leave
  else if among row.mnemonic loads && namesPc row.operands then .leave
  else .next

def inBody (insns : List Row) (addr : Nat) : Option Nat :=
  if (locate insns addr).isSome then some addr else none

def successor (fn : PyText) (insns : List Row) (addr : Nat) : Option Nat :=
  match locate insns addr with
  | none => none
  | some (row, rest) =>
      match transfer fn row with
      | .goto target => inBody insns target
      | .leave => none
      | .next => (rest.head?.map Row.addr).bind (inBody insns)

def entry (insns : List Row) : Option Nat := insns.head?.map Row.addr

def Executed (fn : PyText) (insns : List Row) (addr : Nat) : Prop :=
  ∃ start ∈ entry insns, Visits (successor fn insns) start addr

/-! ## What the traversal takes for the end of a run -/

/-- A `blx`, which is a call, or a `pop` or `ldm` of `pc` under a condition. -/
def TakenForEnd (row : Row) : Prop :=
  row.mnemonic = ['b', 'l', 'x'] ∨
    ((startsWith row.mnemonic "pop" || startsWith row.mnemonic "ldm") = true ∧
      namesPc row.operands = true ∧ among row.mnemonic loads = false)

def EndsAt (insns : List Row) (addr : Nat) : Prop :=
  ∃ row rest, locate insns addr = some (row, rest) ∧ TakenForEnd row

def hotNext (fn : PyText) (insns : List Row) (addr : Nat) : Option Nat :=
  match locate insns addr with
  | none => none
  | some (row, rest) =>
      if row.mnemonic = ['b'] then (localTarget fn row.operands).bind (inBody insns)
      else if breaks row then none
      else (rest.head?.map Row.addr).bind (inBody insns)

theorem among_loads {m : PyText} (load : among m loads = true) :
    (startsWith m "pop" || startsWith m "ldm") = true := by
  have every : ∀ w ∈ loads,
      (startsWith w.toList "pop" || startsWith w.toList "ldm") = true := by
    simp [loads, startsWith]
  obtain ⟨w, member, same⟩ := List.any_eq_true.mp load
  rw [beq_iff_eq.mp same]
  exact every w member

theorem breaks_load {row : Row} (bx : row.mnemonic ≠ ['b', 'x'])
    (blx : row.mnemonic ≠ ['b', 'l', 'x']) :
    breaks row = ((startsWith row.mnemonic "pop" || startsWith row.mnemonic "ldm") &&
      namesPc row.operands) := by
  simp [breaks, among, bx, blx]

/-- The rows at which the traversal breaks are those that leave the body and those it takes for
the end. -/
theorem breaks_iff (fn : PyText) (row : Row) (other : row.mnemonic ≠ ['b']) :
    breaks row = true ↔ TakenForEnd row ∨ transfer fn row = .leave := by
  rw [transfer, if_neg other]
  by_cases bx : row.mnemonic = ['b', 'x']
  · simp [breaks, among, bx]
  by_cases blx : row.mnemonic = ['b', 'l', 'x']
  · simp [breaks, among, blx, TakenForEnd]
  rw [if_neg bx, breaks_load bx blx, TakenForEnd]
  cases load : among row.mnemonic loads with
  | true =>
      have named := among_loads load
      cases pc : namesPc row.operands <;> simp [blx, named]
  | false => simp [blx, Bool.and_eq_true]

theorem takenForEnd_transfer (fn : PyText) {row : Row} (taken : TakenForEnd row) :
    row.mnemonic ≠ ['b'] ∧ transfer fn row = .next := by
  rcases taken with blx | ⟨named, pc, load⟩
  · rw [transfer, blx]
    exact ⟨nofun, rfl⟩
  · have apart : ∀ w : List Char, row.mnemonic = w →
        (startsWith w "pop" || startsWith w "ldm") = true := fun w same => same ▸ named
    have other : row.mnemonic ≠ ['b'] := fun same => absurd (apart _ same) nofun
    have bx : row.mnemonic ≠ ['b', 'x'] := fun same => absurd (apart _ same) nofun
    rw [transfer, if_neg other, if_neg bx, load]
    exact ⟨other, rfl⟩

theorem transfer_plain (fn : PyText) (row : Row) (other : row.mnemonic ≠ ['b']) :
    transfer fn row = .leave ∨ transfer fn row = .next := by
  rw [transfer, if_neg other]
  split_ifs
  · exact .inl rfl
  · exact .inl rfl
  · exact .inr rfl

/-- The traversal's step is the run's, but from where it takes a row for the end. -/
theorem hotNext_cut (fn : PyText) (insns : List Row) :
    CutAt (successor fn insns) (hotNext fn insns) (EndsAt insns) := by
  intro addr
  cases found : locate insns addr with
  | none =>
      have free : ¬ EndsAt insns addr := by
        rintro ⟨row, rest, there, _⟩
        exact absurd (found.symm.trans there) nofun
      exact ⟨fun ends => absurd ends free, fun _ => by simp only [hotNext, successor, found]⟩
  | some pair =>
      obtain ⟨row, rest⟩ := pair
      have ends_iff : EndsAt insns addr ↔ TakenForEnd row := by
        constructor
        · rintro ⟨row', rest', there, taken⟩
          obtain ⟨rfl, _⟩ := Prod.mk.inj (Option.some.inj (found.symm.trans there))
          exact taken
        · exact fun taken => ⟨row, rest, found, taken⟩
      rw [ends_iff]
      simp only [hotNext, successor, found]
      constructor
      · intro taken
        rw [if_neg (takenForEnd_transfer fn taken).1,
          if_pos ((breaks_iff fn row (takenForEnd_transfer fn taken).1).mpr (.inl taken))]
      · intro goes
        by_cases plain : row.mnemonic = ['b']
        · rw [if_pos plain, transfer, if_pos plain]
          cases localTarget fn row.operands <;> rfl
        · rw [if_neg plain]
          by_cases leaves : transfer fn row = .leave
          · rw [if_pos ((breaks_iff fn row plain).mpr (.inr leaves)), leaves]
          · have stays : ¬ breaks row = true := fun broken =>
              ((breaks_iff fn row plain).mp broken).elim goes leaves
            rw [if_neg stays]
            rw [(transfer_plain fn row plain).resolve_left leaves]

/-! ## The traversal covers its own steps -/

theorem locate_member {insns : List Row} {addr : Nat} :
    (locate insns addr).isSome = true ↔ addr ∈ insns.map Row.addr := by
  induction insns with
  | nil => simp [locate]
  | cons row insns ih =>
      rw [List.map_cons, List.mem_cons, ← ih, locate]
      cases locate insns addr with
      | some found => simp
      | none => by_cases here : addr = row.addr <;> simp [here, Ne.symm]

theorem hotNext_located {fn : PyText} {insns : List Row} {a b : Nat}
    (step : hotNext fn insns a = some b) : (locate insns b).isSome = true := by
  have stays : ∀ {at_ : Option Nat}, at_.bind (inBody insns) = some b →
      (locate insns b).isSome = true := by
    intro at_ bound
    obtain ⟨c, _, kept⟩ := Option.bind_eq_some_iff.mp bound
    rw [inBody] at kept
    split_ifs at kept with located
    exact Option.some.inj kept ▸ located
  rw [hotNext] at step
  split at step
  · exact absurd step nofun
  · split_ifs at step
    · exact stays step
    · exact stays step

def Flow.ahead (s : Flow) : List Nat := s.pending.map Prod.fst ++ s.current.toList.map Prod.fst

/-- Rounds that end before the next address is marked. -/
def Flow.idle (s : Flow) : Nat := 2 * s.pending.length + s.current.toList.length

section Traversal
variable {fn : PyText} {insns : List Row} {s t : Flow}

structure Moves (insns : List Row) (s t : Flow) : Prop where
  hot : t.hot = s.hot
  byBranch : t.byBranch = s.byBranch
  idle : t.idle < s.idle
  ahead : t.ahead ⊆ s.ahead
  dropped : ∀ a ∈ s.ahead, a ∈ t.ahead ∨ a ∈ s.hot ∨ locate insns a = none

/-- A round that marks an address and goes where it leads. -/
structure Takes (fn : PyText) (insns : List Row) (s t : Flow) (addr : Nat) (branched : Bool) :
    Prop where
  current : s.current = some (addr, branched)
  located : (locate insns addr).isSome = true
  fresh : ¬ (addr ∈ s.hot ∧ (branched = false ∨ addr ∈ s.byBranch))
  hot : t.hot = addr :: s.hot
  byBranch : t.byBranch = if branched then addr :: s.byBranch else s.byBranch
  idle : t.idle ≤ s.idle + 1
  ahead : ∃ dest : Option Nat, hotNext fn insns addr = dest.bind (inBody insns) ∧
    ∀ b, b ∈ t.ahead ↔ b ∈ s.pending.map Prod.fst ∨ dest = some b

theorem flowRound_next (step : flowRound fn insns s = .inr t) :
    Moves insns s t ∨ ∃ addr branched, Takes fn insns s t addr branched := by
  obtain ⟨hot, byBranch, pending, current⟩ := s
  cases current with
  | none =>
      cases pending with
      | nil => exact absurd step nofun
      | cons next pending =>
          obtain rfl := Sum.inr.inj step
          refine .inl ⟨rfl, rfl, ?_, fun a member => ?_, fun a member => .inl ?_⟩
          · simp only [Flow.idle, Option.toList, List.length_cons, List.length_nil]
            omega
          · simpa [Flow.ahead, or_comm] using member
          · simpa [Flow.ahead, or_comm] using member
  | some here =>
      obtain ⟨addr, branched⟩ := here
      cases found : locate insns addr with
      | none =>
          simp only [flowRound, found] at step
          obtain rfl := Sum.inr.inj step
          refine .inl ⟨rfl, rfl, Nat.lt_succ_self _, fun a member => ?_, fun a member => ?_⟩
          · exact List.mem_append_left _ (by simpa [Flow.ahead] using member)
          · rcases List.mem_append.mp member with later | now
            · exact .inl (by simpa [Flow.ahead] using later)
            · exact .inr (.inr (List.mem_singleton.mp now ▸ found))
      | some pair =>
          obtain ⟨row, rest⟩ := pair
          simp only [flowRound, found] at step
          by_cases seen : addr ∈ hot ∧ (branched = false ∨ addr ∈ byBranch)
          · rw [if_pos seen] at step
            obtain rfl := Sum.inr.inj step
            refine .inl ⟨rfl, rfl, Nat.lt_succ_self _, fun a member => ?_, fun a member => ?_⟩
            · exact List.mem_append_left _ (by simpa [Flow.ahead] using member)
            · rcases List.mem_append.mp member with later | now
              · exact .inl (by simpa [Flow.ahead] using later)
              · exact .inr (.inl (List.mem_singleton.mp now ▸ seen.1))
          rw [if_neg seen] at step
          refine .inr ⟨addr, branched, ?_⟩
          have located : (locate insns addr).isSome = true := by rw [found]; rfl
          by_cases plain : row.mnemonic = ['b']
          · have leads : hotNext fn insns addr =
                (localTarget fn row.operands).bind (inBody insns) := by
              simp only [hotNext, found, if_pos plain]
            rw [if_pos plain] at step
            cases target : localTarget fn row.operands with
            | none =>
                rw [target] at step leads
                obtain rfl := Sum.inr.inj step
                refine ⟨rfl, located, seen, rfl, rfl, ?_, none, leads, fun b => ?_⟩
                · simp only [Flow.idle, Option.toList, List.length_nil]
                  omega
                · simp [Flow.ahead]
            | some to_ =>
                rw [target] at step leads
                obtain rfl := Sum.inr.inj step
                refine ⟨rfl, located, seen, rfl, rfl, ?_, some to_, leads, fun b => ?_⟩
                · simp only [Flow.idle, Option.toList, List.length_nil, List.length_cons]
                  omega
                · simp [Flow.ahead, or_comm, eq_comm]
          rw [if_neg plain] at step
          cases stops : breaks row with
          | true =>
              have leads : hotNext fn insns addr = none := by
                simp only [hotNext, found, if_neg plain, stops, if_true]
              rw [if_pos stops] at step
              obtain rfl := Sum.inr.inj step
              refine ⟨rfl, located, seen, rfl, rfl, ?_, none, leads, fun b => ?_⟩
              · simp only [Flow.idle, Option.toList, List.length_nil]
                omega
              · simp [Flow.ahead]
          | false =>
              have leads : hotNext fn insns addr =
                  (rest.head?.map Row.addr).bind (inBody insns) := by
                simp only [hotNext, found, if_neg plain, stops, Bool.false_eq_true, if_false]
              rw [if_neg (Bool.eq_false_iff.mp stops)] at step
              obtain rfl := Sum.inr.inj step
              refine ⟨rfl, located, seen, rfl, rfl, ?_, _, leads, fun b => ?_⟩
              · cases rest <;> simp only [Flow.idle, Option.toList, List.head?, Option.map,
                  List.length_nil, List.length_cons] <;> omega
              · cases rest <;> simp [Flow.ahead, eq_comm]

def Covered (fn : PyText) (insns : List Row) (addr : Nat) : Prop :=
  ∃ start ∈ entry insns, Visits (hotNext fn insns) start addr

structure Traversed (fn : PyText) (insns : List Row) (s : Flow) : Prop where
  hot : ∀ a ∈ s.hot, Covered fn insns a
  ahead : ∀ a ∈ s.ahead, Covered fn insns a ∨ locate insns a = none
  closed : ∀ a ∈ s.hot, ∀ b, hotNext fn insns a = some b → b ∈ s.hot ∨ b ∈ s.ahead
  rooted : ∀ start ∈ entry insns, start ∈ s.hot ∨ start ∈ s.ahead

theorem Traversed.start (fn : PyText) (insns : List Row) :
    Traversed fn insns (flowStart insns) := by
  have only : (flowStart insns).ahead = (entry insns).toList := by
    cases insns <;> rfl
  refine ⟨nofun, fun a member => .inl ?_, nofun, fun start first => .inr ?_⟩
  · rw [only, Option.mem_toList] at member
    exact ⟨a, member, Visits.start _ a⟩
  · rw [only, Option.mem_toList]
    exact first

theorem entry_located {start : Nat} (first : start ∈ entry insns) :
    (locate insns start).isSome = true := by
  rw [locate_member]
  obtain ⟨row, head, rfl⟩ := Option.mem_map.mp first
  exact List.mem_map_of_mem (List.mem_of_mem_head? head)

theorem Covered.located {a : Nat} (covered : Covered fn insns a) :
    (locate insns a).isSome = true := by
  obtain ⟨start, first, visited⟩ := covered
  exact @Visits.induction _ _ _ (fun x => (locate insns x).isSome = true)
    (entry_located first) (fun _ _ _ step => hotNext_located step) a visited

theorem located_of_some {a : Nat} (located : (locate insns a).isSome = true) :
    locate insns a ≠ none := Option.isSome_iff_ne_none.mp located

theorem Traversed.moves (before : Traversed fn insns s) (moves : Moves insns s t) :
    Traversed fn insns t := by
  have kept : ∀ a, (locate insns a).isSome = true → a ∈ s.hot ∨ a ∈ s.ahead →
      a ∈ t.hot ∨ a ∈ t.ahead := by
    intro a located old
    rw [moves.hot]
    rcases old with marked | waits
    · exact .inl marked
    · rcases moves.dropped a waits with still | marked | lost
      · exact .inr still
      · exact .inl marked
      · exact absurd lost (located_of_some located)
  refine ⟨fun a member => ?_, fun a member => ?_, fun a member b leads => ?_,
    fun start first => ?_⟩
  · exact before.hot a (moves.hot ▸ member)
  · exact before.ahead a (moves.ahead member)
  · exact kept b (hotNext_located leads) (before.closed a (moves.hot ▸ member) b leads)
  · exact kept start (entry_located first) (before.rooted start first)

theorem Traversed.takes (before : Traversed fn insns s) {addr : Nat} {branched : Bool}
    (takes : Takes fn insns s t addr branched) : Traversed fn insns t := by
  obtain ⟨dest, leads, split⟩ := takes.ahead
  have here : addr ∈ s.ahead := by
    rw [Flow.ahead, takes.current]
    exact List.mem_append_right _ (List.mem_singleton_self addr)
  have covered : Covered fn insns addr :=
    (before.ahead addr here).resolve_right (located_of_some takes.located)
  have kept : ∀ a, a ∈ s.hot ∨ a ∈ s.ahead → a ∈ t.hot ∨ a ∈ t.ahead := by
    intro a old
    rw [takes.hot, List.mem_cons]
    rcases old with marked | waits
    · exact .inl (.inr marked)
    · rw [Flow.ahead, takes.current] at waits
      rcases List.mem_append.mp waits with later | now
      · exact .inr ((split a).mpr (.inl later))
      · exact .inl (.inl (List.mem_singleton.mp now))
  refine ⟨fun a member => ?_, fun a member => ?_, fun a member b goes => ?_,
    fun start first => kept start (before.rooted start first)⟩
  · rw [takes.hot] at member
    rcases List.mem_cons.mp member with rfl | marked
    · exact covered
    · exact before.hot a marked
  · rcases (split a).mp member with later | new
    · exact before.ahead a (List.mem_append_left _ later)
    · subst new
      by_cases located : (locate insns a).isSome = true
      · obtain ⟨start, first, visited⟩ := covered
        refine .inl ⟨start, first, visited.next ?_⟩
        rw [leads, Option.bind_some, inBody, if_pos located]
      · exact .inr (Option.not_isSome_iff_eq_none.mp located)
  · rw [takes.hot] at member
    rcases List.mem_cons.mp member with rfl | marked
    · obtain ⟨c, same, stays⟩ := Option.bind_eq_some_iff.mp (leads ▸ goes)
      rw [inBody] at stays
      split_ifs at stays
      exact .inr ((split b).mpr (.inr (same.trans stays)))
    · exact kept b (before.closed a marked b goes)

theorem Traversed.next (before : Traversed fn insns s) (step : flowRound fn insns s = .inr t) :
    Traversed fn insns t := by
  rcases flowRound_next step with moves | ⟨addr, branched, takes⟩
  · exact before.moves moves
  · exact before.takes takes

/-! ## The traversal ends -/

def unmarked (insns : List Row) (marked : List Nat) : Nat :=
  ((insns.map Row.addr).filter fun addr => addr ∉ marked).length

theorem unmarked_cons_le (insns : List Row) (addr : Nat) (marked : List Nat) :
    unmarked insns (addr :: marked) ≤ unmarked insns marked :=
  (List.monotone_filter_right _ fun a new => by
    simp only [decide_eq_true_eq, List.mem_cons, not_or] at new ⊢
    exact new.2).length_le

theorem unmarked_cons {addr : Nat} {marked : List Nat}
    (located : (locate insns addr).isSome = true) (new : addr ∉ marked) :
    unmarked insns (addr :: marked) < unmarked insns marked := by
  have fewer : ((insns.map Row.addr).filter fun a => a ∉ addr :: marked) =
      ((insns.map Row.addr).filter fun a => a ∉ marked).filter fun a => a ≠ addr := by
    rw [List.filter_filter]
    exact List.filter_congr fun a _ => by simp [not_or]
  rw [unmarked, unmarked, fewer, List.length_filter_lt_length_iff_exists]
  exact ⟨addr, List.mem_filter.mpr ⟨locate_member.mp located, by simpa using new⟩, by simp⟩

def toGo (insns : List Row) (s : Flow) : Nat :=
  3 * (unmarked insns s.hot + unmarked insns s.byBranch) + s.idle

theorem toGo_next (step : flowRound fn insns s = .inr t) : toGo insns t < toGo insns s := by
  rw [toGo, toGo]
  rcases flowRound_next step with moves | ⟨addr, branched, takes⟩
  · rw [moves.hot, moves.byBranch]
    exact Nat.add_lt_add_left moves.idle _
  · have idle := takes.idle
    have hotLe := unmarked_cons_le insns addr s.hot
    have branchLe := unmarked_cons_le insns addr s.byBranch
    rw [takes.hot, takes.byBranch]
    by_cases new : addr ∈ s.hot
    · obtain ⟨rfl, fresh⟩ : branched = true ∧ addr ∉ s.byBranch := by
        have fresh := takes.fresh
        cases branched <;> simp_all
      have fewer := unmarked_cons takes.located fresh
      rw [if_pos rfl]
      omega
    · have fewer := unmarked_cons takes.located new
      cases branched
      · simp only [Bool.false_eq_true, if_false]
        omega
      · rw [if_pos rfl]
        omega

theorem flowRound_end {ended : Unit} (last : flowRound fn insns s = .inl ended) :
    s.ahead = [] := by
  obtain ⟨hot, byBranch, pending, current⟩ := s
  cases current with
  | none =>
      cases pending with
      | nil => rfl
      | cons next pending => exact absurd last nofun
  | some here =>
      simp only [flowRound] at last
      split at last
      · exact absurd last nofun
      · split_ifs at last
        all_goals split at last <;> exact absurd last nofun

/-- The traversal ends on every body and marks what its own steps lead to. -/
theorem flow_covers (fn : PyText) (insns : List Row) :
    ∃ s, flow fn insns = some s ∧ ∀ a, a ∈ s.hot ↔ Covered fn insns a := by
  have few : toGo insns (flowStart insns) < 6 * insns.length + 3 := by
    have all : unmarked insns [] ≤ insns.length := by
      rw [← @List.length_map _ _ insns Row.addr]
      exact List.length_filter_le _ _
    have started : (flowStart insns).idle ≤ 2 := by
      cases insns <;> simp [flowStart, Flow.idle]
    rw [toGo]
    simp only [flowStart] at started ⊢
    omega
  obtain ⟨_, s, run, reached, ended⟩ := rounds_ends (toGo insns)
    (fun t u before step => ⟨Traversed.next before step, toGo_next step⟩)
    (Traversed.start fn insns) few
  have traversed : Traversed fn insns s :=
    reached.invariant (fun t u before step => Traversed.next before step)
      (Traversed.start fn insns)
  have nothing : s.ahead = [] := flowRound_end ended
  refine ⟨s, by rw [flow, run, Option.map_some], fun a => ⟨traversed.hot a, ?_⟩⟩
  rintro ⟨start, first, visited⟩
  refine visited.induction ?_ fun b c marked step => ?_
  · exact (traversed.rooted start first).resolve_right (nothing ▸ nofun)
  · exact (traversed.closed b marked c step).resolve_right (nothing ▸ nofun)

end Traversal

/-! ## Against the run -/

/-- The traversal ends on every body.  What it does not leave cold is what the run executes
exactly where every row it takes for the end is the last of the body or leads to an address that
was executed before it. -/
theorem straight_line (fn : PyText) (insns : List Row) :
    ∃ guards, guardedAddresses fn insns = some guards ∧
      ((∀ addr, (addr ∈ insns.map Row.addr ∧ addr ∉ guards.cold) ↔ Executed fn insns addr) ↔
        ∀ start ∈ entry insns, ∀ n a b, trajectory (successor fn insns) start n = some a →
          EndsAt insns a → successor fn insns a = some b →
          ∃ m ≤ n, trajectory (successor fn insns) start m = some b) := by
  obtain ⟨s, run, marks⟩ := flow_covers fn insns
  refine ⟨_, by rw [guardedAddresses, run, Option.map_some], ?_⟩
  have kept : ∀ addr, (addr ∈ insns.map Row.addr ∧
      addr ∉ (insns.map Row.addr).filter fun addr => addr ∉ s.hot) ↔ Covered fn insns addr := by
    intro addr
    rw [← marks]
    simp only [List.mem_filter, decide_eq_true_eq, not_and, not_not]
    refine ⟨fun both => both.2 both.1, fun marked => ⟨?_, fun _ => marked⟩⟩
    exact locate_member.mp ((marks addr).mp marked).located
  simp only [kept, Covered, Executed]
  cases first : entry insns with
  | none => simp
  | some start =>
      simp only [Option.mem_def, Option.some.injEq, exists_eq_left', forall_eq']
      exact (hotNext_cut fn insns).visits_iff start

/-- A call through a register, behind which nothing is executed for the traversal. -/
def callThrough : List Row :=
  [⟨0x8000, "blx".toList, "r3".toList⟩, ⟨0x8004, "mov".toList, "r0, #0".toList⟩,
    ⟨0x8008, "bx".toList, "lr".toList⟩]

theorem call_through_cold :
    ¬ ∀ (fn : PyText) (insns : List Row), ∃ guards, guardedAddresses fn insns = some guards ∧
      ∀ addr, (addr ∈ insns.map Row.addr ∧ addr ∉ guards.cold) ↔ Executed fn insns addr := by
  intro same
  obtain ⟨guards, run, exact_⟩ := same "f".toList callThrough
  have cold : (guardedAddresses "f".toList callThrough).map Guards.cold =
      some [0x8004, 0x8008] := by decide
  have kept : guards.cold = [0x8004, 0x8008] := by
    rw [run] at cold
    exact Option.some.inj cold
  have executed : Executed "f".toList callThrough 0x8004 := ⟨0x8000, rfl, 1, by decide⟩
  exact ((exact_ 0x8004).mpr executed).2 (by rw [kept]; decide)

end Stage90.Callwalk

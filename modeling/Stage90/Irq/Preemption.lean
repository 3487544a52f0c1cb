import Stage90.Irq.Clients

/-!
# Registration under preemption

One CPU: a call of the two functions is a sequence of stores, and the handler may run whole
between any two of them.  `live` is not in the source.  It says which registration each slot
stands for: a registration from its last store on, until the first store that withdraws it.
-/

set_option autoImplicit false

namespace Stage90.Irq

open Stage90.Lib

inductive Call where
  | register (r : Registration)
  | unregister (intid : UInt32)

inductive Work where
  | idle
  | registering (slot : Slot) (r : Registration) (rest : List Store)
  | unregistering (slot : Slot) (rest : List Store)

structure Machine where
  state : State
  work : Work
  live : Slot → Option Registration

/-- A call starts with its scan of the table.  One that refuses makes no store. -/
def begin_ (t : Table) : Call → Work
  | .register r =>
      match registerSlot t r with
      | some slot => .registering slot r (registerStores slot r)
      | none => .idle
  | .unregister intid =>
      match clientSlot t intid with
      | some slot => .unregistering slot (unregisterStores slot)
      | none => .idle

inductive Move where
  | call (c : Call)
  | store
  | dispatch (iar : UInt32)

def Machine.stored (m : Machine) (store : Store) (work : Work) (live : Slot → Option Registration) :
    Machine :=
  { state := { m.state with table := store.apply m.state.table }, work := work, live := live }

/-- A call waits for the one before it, and a store for a call. -/
def advance (m : Machine) (next : Move) : List Effect × Machine :=
  match next, m.work with
  | .call c, .idle => ([], { m with work := begin_ m.state.table c })
  | .store, .registering slot r [last] =>
      ([], m.stored last .idle (Function.update m.live slot (some r)))
  | .store, .registering slot r (store :: rest) =>
      ([], m.stored store (.registering slot r rest) m.live)
  | .store, .unregistering slot [last] =>
      ([], m.stored last .idle (Function.update m.live slot none))
  | .store, .unregistering slot (store :: rest) =>
      ([], m.stored store (.unregistering slot rest) (Function.update m.live slot none))
  | .dispatch iar, _ =>
      ((entryIrqHandler m.state iar).1, { m with state := (entryIrqHandler m.state iar).2 })
  | _, _ => ([], m)

/-- Nothing follows the epilogue. -/
def move (m : Machine) (next : Move) : List Effect × Machine :=
  if m.state.halted then ([], m) else advance m next

def owners (t : Table) (i : Slot) : Option Registration :=
  if t.handler i = 0 then none else some (t.entry i)

def start (s : State) : Machine := { state := s, work := .idle, live := owners s.table }

/-- How far the call under way has come. -/
inductive Progress (t : Table) : Work → Prop where
  | idle : Progress t .idle
  | registering0 {slot : Slot} {r : Registration} : r.handler ≠ 0 → t.handler slot = 0 →
      Progress t (.registering slot r (registerStores slot r))
  | registering1 {slot : Slot} {r : Registration} : r.handler ≠ 0 → t.handler slot = 0 →
      t.intid slot = r.intid →
      Progress t (.registering slot r [.refcon slot r.refCon, .handler slot r.handler])
  | registering2 {slot : Slot} {r : Registration} : r.handler ≠ 0 → t.handler slot = 0 →
      t.intid slot = r.intid → t.refcon slot = r.refCon →
      Progress t (.registering slot r [.handler slot r.handler])
  | unregistering0 {slot : Slot} : Progress t (.unregistering slot (unregisterStores slot))
  | unregistering1 {slot : Slot} : t.handler slot = 0 →
      Progress t (.unregistering slot [.intid slot 0, .refcon slot 0])
  | unregistering2 {slot : Slot} : t.handler slot = 0 →
      Progress t (.unregistering slot [.refcon slot 0])

/-- Between any two stores the slots read as what they stand for. -/
structure Readable (m : Machine) : Prop where
  live : m.live = owners m.state.table
  progress : Progress m.state.table m.work

section Stores
variable {t : Table} {slot : Slot}

attribute [local simp] advance

theorem owners_intid (empty : t.handler slot = 0) (value : UInt32) :
    owners ((Store.intid slot value).apply t) = owners t := by
  funext i
  by_cases here : i = slot
  · subst here
    simp [owners, Store.apply, empty]
  · simp [owners, Store.apply, Table.entry, here]

theorem owners_refcon (empty : t.handler slot = 0) (value : UInt32) :
    owners ((Store.refcon slot value).apply t) = owners t := by
  funext i
  by_cases here : i = slot
  · subst here
    simp [owners, Store.apply, empty]
  · simp [owners, Store.apply, Table.entry, here]

theorem owners_handler (value : UInt32) :
    owners ((Store.handler slot value).apply t) =
      Function.update (owners t) slot
        (if value = 0 then none else some ⟨t.intid slot, value, t.refcon slot⟩) := by
  funext i
  by_cases here : i = slot
  · subst here
    simp [owners, Store.apply, Table.entry]
  · simp [owners, Store.apply, Table.entry, here]

theorem update_owners_none (empty : t.handler slot = 0) :
    Function.update (owners t) slot none = owners t := by
  rw [Function.update_eq_self_iff]
  simp [owners, empty]

end Stores

theorem progress_begin (t : Table) (c : Call) : Progress t (begin_ t c) := by
  cases c with
  | register r =>
      simp only [begin_]
      cases found : registerSlot t r with
      | none => exact .idle
      | some slot =>
          have accepted := registerSlot_some found
          exact .registering0 accepted.handler (not_not.mp accepted.free)
  | unregister n =>
      simp only [begin_]
      cases clientSlot t n with
      | none => exact .idle
      | some slot => exact .unregistering0

theorem readable_store {m : Machine} (readable : Readable m) : Readable (advance m .store).2 := by
  obtain ⟨s, work, live⟩ := m
  obtain ⟨same, progress⟩ := readable
  dsimp only at same progress
  subst same
  cases progress with
  | idle => exact ⟨rfl, .idle⟩
  | registering0 some empty =>
      exact ⟨(owners_intid empty _).symm, .registering1 some empty (Function.update_self _ _ _)⟩
  | registering1 some empty intid =>
      exact ⟨(owners_refcon empty _).symm,
        .registering2 some empty intid (Function.update_self _ _ _)⟩
  | registering2 some empty intid refcon =>
      refine ⟨?_, .idle⟩
      simp only [advance, Machine.stored]
      rw [owners_handler, if_neg some, intid, refcon]
  | unregistering0 =>
      refine ⟨?_, .unregistering1 (Function.update_self _ _ _)⟩
      simp only [advance, unregisterStores, Machine.stored]
      rw [owners_handler, if_pos rfl]
  | unregistering1 empty =>
      refine ⟨?_, .unregistering2 empty⟩
      simp only [advance, Machine.stored]
      rw [owners_intid empty, update_owners_none empty]
  | unregistering2 empty =>
      refine ⟨?_, .idle⟩
      simp only [advance, Machine.stored]
      rw [owners_refcon empty, update_owners_none empty]

theorem readable_advance {m : Machine} (readable : Readable m) (next : Move) :
    Readable (advance m next).2 := by
  cases next with
  | store => exact readable_store readable
  | dispatch iar =>
      have table := handler_table m.state iar
      refine ⟨?_, ?_⟩
      · simp only [advance, table]
        exact readable.live
      · simp only [advance, table]
        exact readable.progress
  | call c =>
      cases working : m.work with
      | idle =>
          simp only [advance, working]
          exact ⟨readable.live, progress_begin m.state.table c⟩
      | registering slot r rest =>
          simp only [advance, working]
          exact readable
      | unregistering slot rest =>
          simp only [advance, working]
          exact readable

theorem readable_move {m : Machine} (readable : Readable m) (next : Move) :
    Readable (move m next).2 := by
  rw [move]
  split
  · exact readable
  · exact readable_advance readable next

/-- A registration that the first table held or a call asked for. -/
def Made (s : State) (history : List (Move × List Effect)) (r : Registration) : Prop :=
  (∃ i, owners s.table i = some r) ∨ ∃ effects, (.call (.register r), effects) ∈ history

/-- The registrations in the slots, and that of the call under way, are made ones. -/
structure Sourced (s : State) (history : List (Move × List Effect)) (m : Machine) : Prop where
  live : ∀ i r, m.live i = some r → Made s history r
  work : ∀ slot r rest, m.work = .registering slot r rest → Made s history r

theorem Made.snoc {s : State} {history : List (Move × List Effect)} {r : Registration}
    (made : Made s history r) (last : Move × List Effect) : Made s (history ++ [last]) r := by
  rcases made with first | ⟨effects, asked⟩
  · exact Or.inl first
  · exact Or.inr ⟨effects, List.mem_append_left _ asked⟩

/-- What a move does to the slots and to the call under way. -/
structure Passed (m : Machine) (next : Move) (m' : Machine) : Prop where
  live : ∀ i r, m'.live i = some r → m.live i = some r ∨ ∃ slot rest, m.work = .registering slot r rest
  work : ∀ slot r rest, m'.work = .registering slot r rest →
    (∃ rest', m.work = .registering slot r rest') ∨ next = .call (.register r)

theorem begin_registering {t : Table} {c : Call} {slot : Slot} {r : Registration}
    {rest : List Store} (begins : begin_ t c = .registering slot r rest) : c = .register r := by
  cases c with
  | register asked =>
      simp only [begin_] at begins
      cases found : registerSlot t asked with
      | none => simp [found] at begins
      | some i =>
          simp only [found, Work.registering.injEq] at begins
          rw [begins.2.1]
  | unregister n =>
      simp only [begin_] at begins
      cases found : clientSlot t n <;> simp [found] at begins

theorem passed_refl (m : Machine) (next : Move) : Passed m next m :=
  ⟨fun _ _ held => Or.inl held, fun _ _ rest under => Or.inl ⟨rest, under⟩⟩

theorem passed_store (m : Machine) : Passed m .store (advance m .store).2 := by
  have withdrawn : ∀ slot i r, Function.update m.live slot none i = some r → m.live i = some r := by
    intro slot i r held
    by_cases here : i = slot
    · subst here
      rw [Function.update_self] at held
      cases held
    · rwa [Function.update_of_ne here] at held
  cases working : m.work with
  | idle =>
      simp only [advance, working]
      exact passed_refl m _
  | registering slot r rest =>
      match rest with
      | [] =>
          simp only [advance, working]
          exact passed_refl m _
      | [last] =>
          simp only [advance, working]
          refine ⟨?_, nofun⟩
          intro i r' held
          simp only [Machine.stored] at held
          by_cases here : i = slot
          · subst here
            rw [Function.update_self] at held
            cases held
            exact Or.inr ⟨i, [last], working⟩
          · rw [Function.update_of_ne here] at held
            exact Or.inl held
      | store :: next :: rest =>
          simp only [advance, working]
          refine ⟨fun i r held => Or.inl held, ?_⟩
          intro slot' r' rest' under
          cases under
          exact Or.inl ⟨_, working⟩
  | unregistering slot rest =>
      match rest with
      | [] =>
          simp only [advance, working]
          exact passed_refl m _
      | [last] =>
          simp only [advance, working]
          exact ⟨fun i r held => Or.inl (withdrawn slot i r held), nofun⟩
      | store :: next :: rest =>
          simp only [advance, working]
          exact ⟨fun i r held => Or.inl (withdrawn slot i r held), nofun⟩

theorem passed_advance (m : Machine) (next : Move) : Passed m next (advance m next).2 := by
  cases next with
  | store => exact passed_store m
  | dispatch iar => exact ⟨fun _ _ held => Or.inl held, fun _ _ rest under => Or.inl ⟨rest, under⟩⟩
  | call c =>
      cases working : m.work with
      | idle =>
          simp only [advance, working]
          refine ⟨fun i r held => Or.inl held, ?_⟩
          intro slot r rest under
          rw [begin_registering under]
          exact Or.inr rfl
      | registering slot r rest =>
          simp only [advance, working]
          exact passed_refl m _
      | unregistering slot rest =>
          simp only [advance, working]
          exact passed_refl m _

theorem passed_move (m : Machine) (next : Move) : Passed m next (move m next).2 := by
  rw [move]
  split
  · exact passed_refl m next
  · exact passed_advance m next

theorem sourced_move {s : State} {history : List (Move × List Effect)} {m : Machine}
    (sourced : Sourced s history m) (next : Move) :
    Sourced s (history ++ [(next, (move m next).1)]) (move m next).2 := by
  have passed := passed_move m next
  constructor
  · intro i r held
    rcases passed.live i r held with before | ⟨slot, rest, under⟩
    · exact (sourced.live i r before).snoc _
    · exact (sourced.work slot r rest under).snoc _
  · intro slot r rest under
    rcases passed.work slot r rest under with ⟨rest', before⟩ | asked
    · exact (sourced.work slot r rest' before).snoc _
    · subst asked
      exact Or.inr ⟨_, List.mem_append_right _ (List.mem_singleton_self _)⟩

/-- What a dispatch may call: the line's own client, as its slot stands for it. -/
theorem dispatch_readable {m : Machine} (readable : Readable m) {iar handler refCon intid : UInt32}
    (called : Effect.client handler refCon intid ∈ (entryIrqHandler m.state iar).1) :
    intid = acknowledged iar ∧ ∃ i, m.live i = some ⟨intid, handler, refCon⟩ := by
  simp only [entryIrqHandler] at called
  split at called
  · simp at called
  split at called
  · rename_i i found
    obtain ⟨live, line⟩ := clientSlot_some found
    split at called
    · simp at called
    · simp only [List.mem_cons, reduceCtorEq, Effect.client.injEq, List.not_mem_nil, or_false,
        false_or] at called
      obtain ⟨rfl, rfl, rfl⟩ := called
      refine ⟨rfl, i, ?_⟩
      rw [readable.live, owners, if_neg live, Table.entry, line]
  · split at called <;> simp at called

/-- Whatever the handler preempts, it calls clients only as they were registered: the intid, the
handler and the refCon of one registration that is in force. -/
theorem dispatch_calls_live_registration (s : State) (moves : List Move) (iar handler refCon intid : UInt32) :
    let run := execute move (start s) moves
    Effect.client handler refCon intid ∈ (move run.2 (.dispatch iar)).1 →
      intid = acknowledged iar ∧
        ∃ i, run.2.live i = some ⟨intid, handler, refCon⟩ ∧
          Made s run.1 ⟨intid, handler, refCon⟩ := by
  intro run called
  have holds : Readable run.2 ∧ Sourced s run.1 run.2 := by
    apply execute_induction fun history (m : Machine) => Readable m ∧ Sourced s history m
    · refine ⟨⟨rfl, .idle⟩, ?_, nofun⟩
      intro i r held
      exact Or.inl ⟨i, held⟩
    · intro history m next ⟨readable, sourced⟩
      exact ⟨readable_move readable next, sourced_move sourced next⟩
  obtain ⟨readable, sourced⟩ := holds
  rw [move] at called
  split at called
  · simp at called
  · obtain ⟨line, i, live⟩ := dispatch_readable readable called
    exact ⟨line, i, live, sourced.live i _ live⟩

/-- Line 40 is registered, with a dispatch between the stores, and then it arrives. -/
def preempted : List Move :=
  [.call (.register ⟨40, 0x80001000, 7⟩), .store, .dispatch 0x3ff, .store, .store]

theorem dispatch_calls_live_registration_preempted :
    (40 : UInt32) = acknowledged 40 ∧
      ∃ i, (execute move (start boot) preempted).2.live i = some ⟨40, 0x80001000, 7⟩ ∧
        Made boot (execute move (start boot) preempted).1 ⟨40, 0x80001000, 7⟩ :=
  dispatch_calls_live_registration boot preempted 40 0x80001000 7 40 (by decide)

end Stage90.Irq

import Mathlib.Data.Fin.VecNotation
import Stage90.Usb.Enum

/-!
# Control transfers

What the poll that takes a SETUP packet primes for it, and what the polls after it prime until the
next one.
-/

set_option autoImplicit false

namespace Stage90.Usb

open Stage90.Console

/-! ## Requests -/

section Request
variable (setup : Fin 8 → UInt8)

def Standard : Prop := (setup 0).toUInt32 &&& typeMask = typeStandard

def GetsDescriptor : Prop :=
  (setup 1).toUInt32 = reqGetDescriptor ∧ (setup 0).toUInt32 &&& dirIn ≠ 0

def GetsStatus : Prop := (setup 1).toUInt32 = reqGetStatus ∧ (setup 0).toUInt32 &&& dirIn ≠ 0

instance : Decidable (Standard setup) := inferInstanceAs (Decidable (_ = _))
instance : Decidable (GetsDescriptor setup) := inferInstanceAs (Decidable (_ ∧ _))
instance : Decidable (GetsStatus setup) := inferInstanceAs (Decidable (_ ∧ _))

def SetsAddress : Prop := Standard setup ∧ (setup 1).toUInt32 = reqSetAddress

def SetsConfiguration : Prop := Standard setup ∧ (setup 1).toUInt32 = reqSetConfiguration

/-- The data that a request asks for, if the device has it. -/
def answer : Option (List UInt8) :=
  if Standard setup then
    if GetsDescriptor setup then (namedDescriptor setup).map Prod.fst
    else if GetsStatus setup then some [0, 0]
    else none
  else none

/-- A descriptor that the device has, and no byte of it. -/
def EmptyDescriptor : Prop :=
  Standard setup ∧ GetsDescriptor setup ∧ (namedDescriptor setup).isSome ∧ wLength setup = 0

instance : Decidable (EmptyDescriptor setup) := inferInstanceAs (Decidable (_ ∧ _))

end Request

/-! ## Stages -/

def Action.in0Payload : Action → Option (List UInt8)
  | .prime .in0 payload => some payload
  | _ => none

def Action.primesOut0 : Action → Bool
  | .prime .out0 _ => true
  | _ => false

def in0Payloads (actions : List Action) : List (List UInt8) := actions.filterMap Action.in0Payload

def out0Primes (actions : List Action) : Nat := actions.countP Action.primesOut0

theorem in0Payloads_append (one two : List Action) :
    in0Payloads (one ++ two) = in0Payloads one ++ in0Payloads two :=
  List.filterMap_append

theorem out0Primes_append (one two : List Action) :
    out0Primes (one ++ two) = out0Primes one + out0Primes two :=
  List.countP_append

/-- `ENDPTCTRL`: the stall bits of the two directions. -/
def endptCtrlStall : UInt32 := 0x00010001

/-- EP0 is not stalled. -/
def Action.unstalled : Action → Bool
  | .write .endptCtrl0 value => value &&& endptCtrlStall = 0
  | _ => true

/-! ## The packet -/

theorem descriptor_pos {setup : Fin 8 → UInt8} {desc : List UInt8} {built : Bool}
    (named : namedDescriptor setup = some (desc, built)) : 0 < desc.length := by
  rw [namedDescriptor] at named
  split at named
  · rw [← (Prod.mk.inj (Option.some_inj.mp named)).1]
    decide
  · split at named
    · rw [← (Prod.mk.inj (Option.some_inj.mp named)).1]
      decide
    · split at named
      · obtain ⟨text, string, same⟩ := Option.map_eq_some_iff.mp named
        rw [← (Prod.mk.inj same).1]
        rw [stringDescriptor] at string
        split at string
        · rw [← Option.some_inj.mp string]
          decide
        · split at string
          · rw [← Option.some_inj.mp string]
            exact Nat.succ_pos _
          · split at string
            · rw [← Option.some_inj.mp string]
              exact Nat.succ_pos _
            · split at string
              · rw [← Option.some_inj.mp string]
                exact Nat.succ_pos _
              · exact absurd string.symm (Option.some_ne_none text)
      · exact absurd named.symm (Option.some_ne_none _)

structure Primes (actions : List Action) (payloads : List (List UInt8)) : Prop where
  in0 : in0Payloads actions = payloads
  out0 : out0Primes actions = 0
  unstalled : actions.all Action.unstalled

theorem Primes.append {one two : List Action} {payloads payloads' : List (List UInt8)}
    (first : Primes one payloads) (second : Primes two payloads') :
    Primes (one ++ two) (payloads ++ payloads') where
  in0 := by rw [in0Payloads_append, first.in0, second.in0]
  out0 := by rw [out0Primes_append, first.out0, second.out0]
  unstalled := by
    rw [List.all_append, first.unstalled, second.unstalled]
    rfl

theorem primes_read : Primes [.write .endptSetupStat 1, .nuke .out0, .nuke .in0] [] :=
  ⟨rfl, rfl, rfl⟩

theorem primes_in0 (payload : List UInt8) : Primes [.prime .in0 payload] [payload] :=
  ⟨rfl, rfl, rfl⟩

theorem primes_status {e : Enum} {actions : List Action} {payloads : List (List UInt8)}
    (before : Primes actions payloads) : Primes (usbEnumStatus e actions).2 (payloads ++ [[]]) :=
  before.append (primes_in0 [])

theorem primes_armEpIn (b : Build) (e : Enum) : Primes (usbEnumArmEpIn b e).2 [] := by
  rw [usbEnumArmEpIn]
  split
  · exact ⟨rfl, rfl, rfl⟩
  · exact ⟨rfl, rfl, rfl⟩

/-- The stages on EP0-IN for a packet: the one that is owed, but for an empty descriptor. -/
def stages (setup : Fin 8 → UInt8) : List (List UInt8) :=
  if EmptyDescriptor setup then [[], []]
  else [((answer setup).getD []).take (wLength setup).toNat]

theorem take_wLength (setup : Fin 8 → UInt8) (desc : List UInt8) :
    desc.take (if (wLength setup).toNat < desc.length then (wLength setup).toNat else desc.length) =
      desc.take (wLength setup).toNat := by
  split
  · rfl
  · rename_i long
    rw [List.take_length, List.take_of_length_le (Nat.not_lt.mp long)]

/-- What a packet gets, and whether a data stage is open behind it. -/
structure Served (b : Build) (setup : Fin 8 → UInt8) (out : Enum × List Action) : Prop where
  primes : Primes out.2 (stages setup)
  data : out.1.state = .data → (answer setup).isSome

section Packet
variable (b : Build) (e : Enum) {setup : Fin 8 → UInt8}

theorem stages_none (none_ : answer setup = none) (some_ : ¬ EmptyDescriptor setup) :
    stages setup = [[]] := by
  rw [stages, if_neg some_, none_, Option.getD_none, List.take_nil]

theorem status_ne_data (actions : List Action) : (usbEnumStatus e actions).1.state ≠ .data :=
  EnumState.noConfusion

theorem served_status {actions : List Action} {e : Enum} (before : Primes actions [])
    (none_ : answer setup = none) (some_ : ¬ EmptyDescriptor setup) :
    Served b setup (usbEnumStatus e actions) := by
  constructor
  · rw [stages_none none_ some_]
    exact primes_status before
  · intro data
    exact absurd data (status_ne_data e actions)

theorem served_descriptor (standard : Standard setup) (gets : GetsDescriptor setup) :
    Served b setup (usbEnumSetup b e setup) := by
  have standard' := standard
  have gets' := gets
  rw [Standard] at standard'
  rw [GetsDescriptor] at gets'
  have asked : answer setup = (namedDescriptor setup).map Prod.fst := by
    rw [answer, if_pos standard, if_pos gets]
  rw [usbEnumSetup]
  dsimp only
  rw [if_pos standard', if_pos gets', usbEnumGetDescriptor]
  cases named : namedDescriptor setup with
  | none =>
      rw [named] at asked
      rw [if_neg (not_not_intro rfl)]
      apply served_status b (primes_read.append ⟨rfl, rfl, rfl⟩) asked
      intro empty
      have some_ := empty.2.2.1
      rw [named] at some_
      exact Bool.false_ne_true some_
  | some pair =>
      obtain ⟨desc, built⟩ := pair
      have positive := descriptor_pos named
      rw [named] at asked
      dsimp only
      rw [take_wLength]
      by_cases zero : wLength setup = 0
      · have empty : EmptyDescriptor setup := by
          refine ⟨standard, gets, ?_, zero⟩
          rw [named]
          rfl
        have none_ : (wLength setup).toNat = 0 := by
          rw [zero]
          rfl
        have count : (if (wLength setup).toNat < desc.length then (wLength setup).toNat
            else desc.length) = 0 := by
          rw [none_, if_pos positive]
        rw [if_neg (not_not_intro count)]
        constructor
        · rw [stages, if_pos empty, none_, List.take_zero]
          exact primes_status (primes_read.append (primes_in0 []))
        · intro data
          exact absurd data (status_ne_data _ _)
      · have some_ : ¬ EmptyDescriptor setup := fun empty => zero empty.2.2.2
        have count : (if (wLength setup).toNat < desc.length then (wLength setup).toNat
            else desc.length) ≠ 0 := by
          have length : (wLength setup).toNat ≠ 0 := fun none_ => zero (UInt32.toNat_inj.mp none_)
          split
          · exact length
          · omega
        rw [if_pos count]
        constructor
        · rw [stages, if_neg some_, asked]
          exact primes_read.append (primes_in0 _)
        · intro _
          rw [asked]
          rfl

theorem setup_address (sets : SetsAddress setup) :
    (usbEnumSetup b e setup).1.addr = wValue setup &&& 0x7f ∧
      .write .deviceAddr (((wValue setup &&& 0x7f) <<< 25) ||| deviceAddrUsbadra) ∈
        (usbEnumSetup b e setup).2 := by
  obtain ⟨standard, address⟩ := sets
  rw [Standard] at standard
  have other : ¬ ((setup 1).toUInt32 = reqGetDescriptor ∧ (setup 0).toUInt32 &&& dirIn ≠ 0) := by
    intro gets
    have same := address.symm.trans gets.1
    exact absurd same (by decide)
  rw [usbEnumSetup]
  dsimp only
  rw [if_pos standard, if_neg other, if_pos address]
  exact ⟨rfl, List.mem_append_left _ (List.mem_append_right _ List.mem_cons_self)⟩

theorem armEpIn_configured (e : Enum) : (usbEnumArmEpIn b e).1.configured = e.configured := by
  rw [usbEnumArmEpIn]
  split
  · rfl
  · rfl

theorem setup_configuration (sets : SetsConfiguration setup) :
    (usbEnumSetup b e setup).1.configured = if wValue setup ≠ 0 then 1 else 0 := by
  obtain ⟨standard, configuration⟩ := sets
  rw [Standard] at standard
  rw [usbEnumSetup]
  dsimp only
  rw [if_pos standard, configuration, if_neg fun gets => absurd gets.1 (by decide),
    if_neg (by decide), if_neg fun gets => absurd gets.1 (by decide), if_pos rfl]
  by_cases configured : wValue setup ≠ 0
  · rw [if_pos configured]
    exact armEpIn_configured b _
  · rw [if_neg configured]
    rfl

theorem setup_served (setup : Fin 8 → UInt8) : Served b setup (usbEnumSetup b e setup) := by
  by_cases standard : Standard setup
  · by_cases gets : GetsDescriptor setup
    · exact served_descriptor b e standard gets
    · have some_ : ¬ EmptyDescriptor setup := fun empty => gets empty.2.1
      have standard' := standard
      have gets' := gets
      rw [Standard] at standard'
      rw [GetsDescriptor] at gets'
      rw [usbEnumSetup]
      dsimp only
      rw [if_pos standard', if_neg gets']
      have other (differs : (setup 1).toUInt32 ≠ reqGetStatus) : answer setup = none := by
        rw [answer, if_pos standard, if_neg gets, if_neg fun status => differs status.1]
      by_cases address : (setup 1).toUInt32 = reqSetAddress
      · rw [if_pos address]
        refine served_status b (primes_read.append ⟨rfl, rfl, rfl⟩) (other ?_) some_
        rw [address]
        decide
      · rw [if_neg address]
        by_cases status : GetsStatus setup
        · have status' := status
          rw [GetsStatus] at status'
          have asked : answer setup = some [0, 0] := by
            rw [answer, if_pos standard, if_neg gets, if_pos status]
          rw [if_pos status']
          constructor
          · have taken := take_wLength setup [0, 0]
            rw [stages, if_neg some_, asked, Option.getD_some, ← taken]
            exact primes_read.append (primes_in0 _)
          · intro _
            rw [asked]
            rfl
        · have status' := status
          rw [GetsStatus] at status'
          have none_ : answer setup = none := by
            rw [answer, if_pos standard, if_neg gets, if_neg status]
          rw [if_neg status']
          split
          · apply served_status b _ none_ some_
            split
            · exact primes_read.append (primes_armEpIn b _)
            · exact primes_read.append ⟨rfl, rfl, rfl⟩
          · exact served_status b primes_read none_ some_
  · have standard' := standard
    rw [Standard] at standard'
    rw [usbEnumSetup]
    dsimp only
    rw [if_neg standard']
    apply served_status b primes_read
    · rw [answer, if_neg standard]
    · exact fun empty => standard empty.1

end Packet

/-! ## Polls -/

def TakesSetup (b : Build) (r : Reading) : Prop :=
  b.open_ r = true ∧ r.ui = true ∧ r.hasSetup = true

def polls (b : Build) : Enum → List Reading → Enum × List Action
  | e, [] => (e, [])
  | e, r :: readings =>
      let poll := entryUsbEnumPoll b e r
      let rest := polls b poll.1 readings
      (rest.1, poll.2.1 ++ rest.2)

/-- A data stage is open, so a status stage on EP0-OUT may follow. -/
def Enum.pending (e : Enum) : Nat := if e.state = .data then 1 else 0

/-- What does not answer a packet: at most the status stage of an open data stage. -/
structure Quiet (e : Enum) (out : Enum × List Action) : Prop where
  in0 : in0Payloads out.2 = []
  out0 : out0Primes out.2 + out.1.pending ≤ e.pending
  unstalled : out.2.all Action.unstalled

theorem pending_le (e : Enum) : e.pending ≤ 1 := by
  rw [Enum.pending]
  split
  · exact Nat.le_refl 1
  · exact Nat.zero_le 1

theorem pending_zero {e : Enum} (other : e.state ≠ .data) : e.pending = 0 := if_neg other

section Quiet
variable {e e' e'' : Enum} {one two : List Action}

theorem Quiet.refl (e : Enum) : Quiet e (e, []) := ⟨rfl, Nat.le_of_eq (Nat.zero_add _), rfl⟩

theorem Quiet.append (first : Quiet e (e', one)) (second : Quiet e' (e'', two)) :
    Quiet e (e'', one ++ two) where
  in0 := by
    rw [in0Payloads_append]
    exact congr (congrArg _ first.in0) second.in0
  out0 := by
    have early := first.out0
    have late := second.out0
    rw [out0Primes_append]
    dsimp only at early late ⊢
    omega
  unstalled := by
    rw [List.all_append]
    exact Bool.and_eq_true_iff.mpr ⟨first.unstalled, second.unstalled⟩

theorem quiet_of_primes (primes : Primes one []) (closed : e'.state ≠ .data) :
    Quiet e (e', one) := by
  refine ⟨primes.in0, ?_, primes.unstalled⟩
  rw [primes.out0, pending_zero closed]
  exact Nat.zero_le _

theorem quiet_of_same (primes : Primes one []) (same : e'.state = e.state) : Quiet e (e', one) := by
  refine ⟨primes.in0, ?_, primes.unstalled⟩
  rw [primes.out0, Enum.pending, Enum.pending, same, Nat.zero_add]

theorem complete_in0 (e : Enum) (complete : Fin 3 → UInt32) :
    Quiet e (if complete 0 &&& epBit 0 true ≠ 0 then
      if e.state = .data then
        ({ e with state := .status }, [.write .endptComplete (epBit 0 true), .prime .out0 []])
      else ({ e with state := .armed }, [.write .endptComplete (epBit 0 true)])
    else (e, [])) := by
  split
  · split
    · rename_i data
      refine ⟨rfl, ?_, rfl⟩
      rw [Enum.pending, Enum.pending, if_pos data]
      exact Nat.le_refl 1
    · exact quiet_of_primes ⟨rfl, rfl, rfl⟩ EnumState.noConfusion
  · exact .refl e

theorem complete_out0 (e : Enum) (complete : Fin 3 → UInt32) :
    Quiet e (if complete 1 &&& epBit 0 false ≠ 0 then
      ({ e with state := .armed }, [.write .endptComplete (epBit 0 false)])
    else (e, [])) := by
  split
  · exact quiet_of_primes ⟨rfl, rfl, rfl⟩ EnumState.noConfusion
  · exact .refl e

theorem complete_in1 (b : Build) (e : Enum) (complete : Fin 3 → UInt32) :
    Quiet e (if !b.stream ∧ complete 2 &&& epBit 1 true ≠ 0 then
      ({ e with inReads := e.inReads + 1 },
        [.write .endptComplete (epBit 1 true), .prime .in1 (e.inBuf.take 4)])
    else (e, [])) := by
  split
  · exact quiet_of_same ⟨rfl, rfl, rfl⟩ rfl
  · exact .refl e

theorem complete_quiet (b : Build) (e : Enum) (complete : Fin 3 → UInt32) :
    Quiet e (usbEnumComplete b e complete) :=
  ((complete_in0 e complete).append (complete_out0 _ complete)).append
    (complete_in1 b _ complete)

theorem arm_quiet (b : Build) (e : Enum) (r : Reading) :
    Quiet e ((usbEnumArm b e r).1, (usbEnumArm b e r).2.1) := by
  rw [usbEnumArm]
  split
  · exact .refl e
  · exact quiet_of_primes ⟨rfl, rfl, rfl⟩ EnumState.noConfusion

theorem reset_quiet (e : Enum) (r : Reading) :
    Quiet e (if r.uri then usbEnumBusReset e else (e, [])) := by
  split
  · exact quiet_of_primes ⟨rfl, rfl, rfl⟩ EnumState.noConfusion
  · exact .refl e

theorem clear_quiet (e : Enum) (r : Reading) : Quiet e (e, [.write .usbSts r.intr]) :=
  quiet_of_same ⟨rfl, rfl, rfl⟩ rfl

theorem ui_quiet (b : Build) (e : Enum) (r : Reading) (none_ : r.ui = true → ¬ r.hasSetup = true) :
    Quiet e (if r.ui then usbEnumUi b e r else (e, [])) := by
  split
  · rename_i ui
    rw [usbEnumUi, if_neg (none_ ui)]
    exact complete_quiet b e r.complete
  · exact .refl e

theorem poll_quiet (b : Build) (e : Enum) (r : Reading) (none_ : ¬ TakesSetup b r) :
    Quiet e ((entryUsbEnumPoll b e r).1, (entryUsbEnumPoll b e r).2.1) := by
  rw [entryUsbEnumPoll]
  by_cases is_open : b.open_ r = true
  · rw [if_pos is_open]
    apply (arm_quiet b e r).append
    apply ((reset_quiet _ r).append (ui_quiet b _ r _)).append (clear_quiet _ r)
    exact fun ui setup => none_ ⟨is_open, ui, setup⟩
  · rw [if_neg is_open]
    exact .refl e

theorem polls_quiet (b : Build) (e : Enum) (later : List Reading)
    (none_ : ∀ r ∈ later, ¬ TakesSetup b r) : Quiet e (polls b e later) := by
  induction later generalizing e with
  | nil => exact .refl e
  | cons r later ih =>
      rw [polls]
      apply (poll_quiet b e r (none_ r List.mem_cons_self)).append
      exact ih _ fun r' later' => none_ r' (List.mem_cons_of_mem r later')

end Quiet

/-! ## The packet and the polls behind it -/

section Taken
variable (b : Build) (e : Enum) {r : Reading}

def Enum.met (e : Enum) (b : Build) (r : Reading) : Enum :=
  (if r.uri then usbEnumBusReset (usbEnumArm b e r).1 else ((usbEnumArm b e r).1, [])).1

def metActions (b : Build) (e : Enum) (r : Reading) : List Action :=
  (usbEnumArm b e r).2.1 ++
    (if r.uri then usbEnumBusReset (usbEnumArm b e r).1 else ((usbEnumArm b e r).1, [])).2

theorem met_primes (r : Reading) : Primes (metActions b e r) [] := by
  have quiet := (arm_quiet b e r).append (reset_quiet (usbEnumArm b e r).1 r)
  refine ⟨quiet.in0, ?_, quiet.unstalled⟩
  rw [metActions, out0Primes_append, usbEnumArm]
  split
  · split
    · rfl
    · rfl
  · split
    · rfl
    · rfl

theorem poll_taken (takes : TakesSetup b r) :
    entryUsbEnumPoll b e r =
      ((usbEnumSetup b (e.met b r) r.setup).1,
        metActions b e r ++ (usbEnumSetup b (e.met b r) r.setup).2 ++ [.write .usbSts r.intr],
        (usbEnumArm b e r).2.2 ++ usbEnumRecords (usbEnumSetup b (e.met b r) r.setup).1) := by
  obtain ⟨is_open, ui, setup⟩ := takes
  rw [entryUsbEnumPoll, if_pos is_open]
  dsimp only
  rw [usbEnumService]
  dsimp only
  rw [if_pos ui, usbEnumUi, if_pos setup, metActions, Enum.met, List.append_assoc,
    List.append_assoc, List.append_assoc]

theorem poll_served (takes : TakesSetup b r) :
    Served b r.setup ((entryUsbEnumPoll b e r).1, (entryUsbEnumPoll b e r).2.1) := by
  rw [poll_taken b e takes]
  have served := setup_served b (e.met b r) r.setup
  constructor
  · have primes := ((met_primes b e r).append served.primes).append
      (⟨rfl, rfl, rfl⟩ : Primes [.write .usbSts r.intr] [])
    rw [List.nil_append, List.append_nil] at primes
    exact primes
  · exact served.data

/-- What a SETUP packet gets of the poll that takes it, and of all that is done until the next. -/
structure Answered (setup : Fin 8 → UInt8) (poll : Enum × List Action × List Record)
    (actions : List Action) : Prop where
  once : ¬ EmptyDescriptor setup → ∃ payload,
    in0Payloads poll.2.1 = [payload] ∧ in0Payloads actions = [payload] ∧
      payload = ((answer setup).getD []).take (wLength setup).toNat
  short : ∀ payload ∈ in0Payloads actions, payload <+: (answer setup).getD [] ∧
    payload.length ≤ (wLength setup).toNat
  out0 : out0Primes actions ≤ if (answer setup).isSome then 1 else 0
  unstalled : ∀ action ∈ actions, action.unstalled
  address : SetsAddress setup →
    .write .deviceAddr (((wValue setup &&& 0x7f) <<< 25) ||| deviceAddrUsbadra) ∈ poll.2.1 ∧
      ⟨ascii "xnu_live_usb_enum_addr", wValue setup &&& 0x7f⟩ ∈ poll.2.2
  configuration : SetsConfiguration setup →
    ⟨ascii "xnu_live_usb_enum_configured", if wValue setup ≠ 0 then 1 else 0⟩ ∈ poll.2.2

theorem mem_stages {setup : Fin 8 → UInt8} {payload : List UInt8} (stage : payload ∈ stages setup) :
    payload <+: (answer setup).getD [] ∧ payload.length ≤ (wLength setup).toNat := by
  rw [stages] at stage
  split at stage
  · have none_ : payload = [] := by
      cases stage with
      | head => rfl
      | tail _ stage => exact List.mem_singleton.mp stage
    rw [none_]
    exact ⟨List.nil_prefix, Nat.zero_le _⟩
  · rw [List.mem_singleton.mp stage]
    exact ⟨List.take_prefix _ _, List.length_take_le _ _⟩

/-- Until the next packet, the stages of the control endpoint are those of this one. -/
theorem setup_answered (later : List Reading) (takes : TakesSetup b r)
    (none_ : ∀ r' ∈ later, ¬ TakesSetup b r') :
    Answered r.setup (entryUsbEnumPoll b e r) (polls b e (r :: later)).2 := by
  have served := poll_served b e takes
  have quiet := polls_quiet b (entryUsbEnumPoll b e r).1 later none_
  have in0 : in0Payloads (polls b e (r :: later)).2 = stages r.setup := by
    rw [polls, in0Payloads_append, served.primes.in0, quiet.in0, List.append_nil]
  have taken := poll_taken b e takes
  constructor
  · intro some_
    have one : stages r.setup = _ := if_neg some_
    exact ⟨_, served.primes.in0.trans one, in0.trans one, rfl⟩
  · intro payload stage
    rw [in0] at stage
    exact mem_stages stage
  · have first : out0Primes (entryUsbEnumPoll b e r).2.1 = 0 := served.primes.out0
    have rest := quiet.out0
    rw [polls, out0Primes_append, first, Nat.zero_add]
    refine Nat.le_trans (Nat.le_add_right _ _) (Nat.le_trans rest ?_)
    by_cases data : (entryUsbEnumPoll b e r).1.state = .data
    · rw [if_pos (served.data data)]
      exact pending_le _
    · rw [pending_zero data]
      exact Nat.zero_le _
  · rw [← List.all_eq_true, polls, List.all_append]
    exact Bool.and_eq_true_iff.mpr ⟨served.primes.unstalled, quiet.unstalled⟩
  · intro sets
    obtain ⟨addr, write⟩ := setup_address b (e.met b r) sets
    rw [taken]
    constructor
    · exact List.mem_append_left _ (List.mem_append_right _ write)
    · apply List.mem_append_right
      rw [usbEnumRecords, addr]
      exact .tail _ (.tail _ (.tail _ (.head _)))
  · intro sets
    rw [taken]
    apply List.mem_append_right
    rw [usbEnumRecords, setup_configuration b (e.met b r) sets]
    exact .tail _ (.tail _ (.tail _ (.tail _ (.head _))))

end Taken

def packet (setup : Fin 8 → UInt8) : Reading := ⟨2, 0, 1, 1, 1, setup, fun _ => 0⟩

/-- A device-mode poll whose first two reads of `ENDPTCOMPLETE` show both halves of EP0. -/
def completion : Reading := ⟨2, 0, 1, 1, 0, fun _ => 0, fun _ => epBit 0 true ||| epBit 0 false⟩

/-- The device descriptor, 64 bytes of it. -/
theorem device_answered :
    Answered ![0x80, 6, 0, 1, 0, 0, 64, 0]
      (entryUsbEnumPoll ⟨false, false, 0⟩ Enum.boot (packet ![0x80, 6, 0, 1, 0, 0, 64, 0]))
      (polls ⟨false, false, 0⟩ Enum.boot
        [packet ![0x80, 6, 0, 1, 0, 0, 64, 0], completion, completion]).2 := by
  have none_ : ∀ r ∈ [completion, completion], ¬ TakesSetup ⟨false, false, 0⟩ r := by
    intro r later takes
    have same : r = completion := by
      cases later with
      | head => rfl
      | tail _ later => exact List.mem_singleton.mp later
    rw [same] at takes
    exact Bool.false_ne_true takes.2.2
  exact @setup_answered ⟨false, false, 0⟩ Enum.boot (packet ![0x80, 6, 0, 1, 0, 0, 64, 0])
    [completion, completion] ⟨rfl, rfl, rfl⟩ none_

/-- A vendor request is acknowledged and not stalled, a descriptor of length zero is primed twice,
and `SET_ADDRESS` leaves the state of its status stage. -/
theorem vendor_acknowledged :
    (let poll := entryUsbEnumPoll ⟨false, false, 0⟩ Enum.boot (packet ![0xc0, 1, 0, 0, 0, 0, 4, 0])
    in0Payloads poll.2.1 = [[]] ∧ poll.2.1.all Action.unstalled) ∧
    in0Payloads (entryUsbEnumPoll ⟨false, false, 0⟩ Enum.boot
      (packet ![0x80, 6, 0, 1, 0, 0, 0, 0])).2.1 = [[], []] ∧
    (entryUsbEnumPoll ⟨false, false, 0⟩ Enum.boot
      (packet ![0x00, 5, 7, 0, 0, 0, 0, 0])).2.2.contains
        ⟨ascii "xnu_live_usb_enum_state", EnumState.status.word⟩ := by
  refine ⟨⟨?_, ?_⟩, ?_, ?_⟩
  · decide
  · decide
  · decide
  · decide

end Stage90.Usb

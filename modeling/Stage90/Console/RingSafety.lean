import Stage90.Console.OsBlock

/-!
# The shared ring is append-only and disjoint

Every sequence of calls of the three writers, from the statics at boot.  The characters of a
run are those it was given before the channel was live and those it was given after.
-/

set_option autoImplicit false

namespace Stage90.Console

open Stage90.Lib

/-- The marker, the tank and the later characters, cut at the block's end. -/
def blockText (tanked later : List UInt8) : List UInt8 :=
  (osMarker ++ tanked.take entryOsTank ++ later).take entryOsBlock

theorem blockText_snoc (tanked later : List UInt8) (ch : UInt8) :
    blockText tanked (later ++ [ch]) = (blockText tanked later ++ [ch]).take entryOsBlock := by
  rw [blockText, blockText, ← List.append_assoc]
  generalize osMarker ++ tanked.take entryOsTank ++ later = text
  by_cases full : entryOsBlock ≤ text.length
  · have length : (text.take entryOsBlock).length = entryOsBlock := by
      rw [List.length_take]
      omega
    rw [List.take_append_of_le_length full, List.take_append_of_le_length (Nat.le_of_eq length.symm),
      List.take_take, Nat.min_self]
  · rw [List.take_of_length_le (Nat.le_of_not_le full)]

/-- What the tank holds, or the block, for the characters so far. -/
inductive Stage (max : Nat) (tanked later : List UInt8) (c : State) : Prop where
  | waiting (closed : c.os.at_ = 0) (tank : c.os.tank = tanked.take entryOsTank) (none_ : later = [])
  | refused (closed : c.os.at_ = 0) (live : c.liveState = .live)
      (full : max < c.log.ring.published + entryOsBlock)
  | opened (base : Nat) (opened : Opened base (blockText tanked later) c) (tank : c.os.tank = [])

theorem marker_le_blockText (tanked later : List UInt8) : 18 ≤ (blockText tanked later).length := by
  have marker : osMarker.length = 18 := by decide
  have block : 18 ≤ entryOsBlock := by decide
  rw [blockText, List.length_take, List.length_append, List.length_append, marker]
  omega

variable {max : Nat} {tanked later : List UInt8} {c : State}

theorem Stage.extends {c' : State} (stage : Stage max tanked later c) (ext : c.Extends max c') :
    Stage max tanked later c' := by
  cases stage with
  | waiting closed tank none_ =>
      exact .waiting (ext.at_.trans closed) (ext.tank.trans tank) none_
  | refused closed live full =>
      have mono := ext.log.mono
      exact .refused (ext.at_.trans closed) (ext.stays live) (by omega)
  | opened base opened tank => exact .opened base (opened.extends ext) (ext.tank.trans tank)

/-! ## A character of the OS -/

theorem tank_stage (stage : Stage max tanked later c) (idle : c.liveState ≠ .live) (ch : UInt8)
    (which : UInt32) (s : OsState) :
    (entryOsConsoleChar max c ch which s).log = c.log ∧
      (entryOsConsoleChar max c ch which s).liveState = c.liveState ∧
      c.os.at_ = 0 ∧
      Stage max (tanked ++ [ch]) later (entryOsConsoleChar max c ch which s) := by
  cases stage with
  | refused _ live _ => exact absurd live idle
  | opened _ opened _ => exact absurd opened.live idle
  | waiting closed tank none_ =>
      have length : c.os.tank.length = min entryOsTank tanked.length := by
        rw [tank, List.length_take]
      have counted : (osCount c.os ch which).tank = c.os.tank := rfl
      rw [entryOsConsoleChar]
      dsimp only
      rw [if_pos idle, counted]
      by_cases room : c.os.tank.length < entryOsTank
      · rw [if_pos room]
        refine ⟨rfl, rfl, closed, .waiting closed ?_ none_⟩
        dsimp only
        rw [tank, List.take_of_length_le (by omega), List.take_of_length_le]
        rw [List.length_append, List.length_singleton]
        omega
      · rw [if_neg room]
        refine ⟨rfl, rfl, closed, .waiting closed ?_ none_⟩
        dsimp only
        rw [List.take_append_of_le_length (by omega)]
        exact tank

theorem no_tank (tank : c.os.tank = []) : { c with os := { c.os with tank := [] } } = c := by
  rw [← tank]

section Live
variable (flat : max + entryOsBlock < 2 ^ 32)

include flat in
theorem osText_stage {base : Nat} (sound : Sound max c)
    (opened : Opened base (blockText tanked later) c) (tank : c.os.tank = []) (ch : UInt8) :
    Sound max (osText max c ch) ∧ Stage max tanked (later ++ [ch]) (osText max c ch) ∧
      c.Later (osText max c ch) := by
  have fills := osText_fills flat sound opened ch
  rw [← blockText_snoc] at fills
  exact ⟨fills.sound, .opened base fills.opened (fills.tank.trans tank), fills.later⟩

def osFirst (max : Nat) (c : State) (s : OsState) : State :=
  if c.os.first then c
  else ({ c with os := { c.os with first := true } } : State).write max
    (osStateRecords s ++ [⟨ascii "xnu_live_ostext_tank", UInt32.ofNat c.os.tank.length⟩])

theorem osLive_eq (max : Nat) (c : State) (ch : UInt8) (s : OsState) :
    osLive max c ch s =
      let reserved := if (osFirst max c s).os.at_ = 0 then entryOsReserve max (osFirst max c s)
        else (true, osFirst max c s)
      let emptied := emptyTank { reserved.2 with os := { reserved.2.os with tank := [] } }
        reserved.2.os.tank
      if reserved.1 then
        if emptied.1 then osText max emptied.2 ch else emptied.2
      else reserved.2.dropTank :=
  rfl

theorem osFirst_extends (max : Nat) (c : State) (s : OsState) :
    c.Extends max (osFirst max c s) := by
  rw [osFirst]
  split
  · exact .refl max c
  · have first : c.Extends max { c with os := { c.os with first := true } } :=
      ⟨.refl max c.log, id, Or.inl, rfl, rfl, rfl⟩
    exact first.trans (write_extends max _ _)

include flat in
theorem refused_stage (sound : Sound max c) (live : c.liveState = .live) (closed : c.os.at_ = 0)
    (full : max < c.log.ring.published + entryOsBlock) (tanked later : List UInt8) :
    ∃ c', entryOsReserve max c = (false, c') ∧ Sound max c'.dropTank ∧
      Stage max tanked later c'.dropTank ∧ c.Later c'.dropTank := by
  obtain ⟨c', reserve, ext⟩ := entryOsReserve_full sound live flat full
  have mono := ext.log.mono
  have still := sound.extends ext
  have published : c'.dropTank.log.ring.published = c'.log.ring.published := rfl
  refine ⟨c', reserve, still.congr rfl rfl, ?_,
    ⟨ext.later.size, ext.later.entries, ext.later.block⟩⟩
  exact .refused (ext.at_.trans closed) (ext.stays live) (by omega)

include flat in
/-- The block takes the marker, the tank and then the character. -/
theorem reserved_stage (sound : Sound max c) (live : c.liveState = .live) (closed : c.os.at_ = 0)
    (tank : c.os.tank = tanked.take entryOsTank)
    (room : c.log.ring.published + entryOsBlock ≤ max) (ch : UInt8) :
    ∃ c', entryOsReserve max c = (true, c') ∧
      ∃ c'', emptyTank { c' with os := { c'.os with tank := [] } } c'.os.tank = (true, c'') ∧
        Sound max (osText max c'' ch) ∧ Stage max tanked [ch] (osText max c'' ch) ∧
        c.Later (osText max c'' ch) := by
  obtain ⟨c', reserve, fills⟩ := entryOsReserve_room sound live flat closed room
  refine ⟨c', reserve, ?_⟩
  have sound' : Sound max { c' with os := { c'.os with tank := [] } } := fills.sound.congr rfl rfl
  have opened' := @Opened.congr _ _ _ { c' with os := { c'.os with tank := [] } } fills.opened
    rfl rfl rfl rfl
  have blanked : c'.Later { c' with os := { c'.os with tank := [] } } :=
    ⟨Nat.le_refl _, List.prefix_refl _, fun open_ => ⟨open_, rfl⟩⟩
  have marker : osMarker.length = 18 := by decide
  have sizes : 18 + entryOsTank ≤ entryOsBlock := by decide
  have short : osMarker.length + c'.os.tank.length ≤ entryOsBlock := by
    rw [fills.tank, tank, marker, List.length_take]
    omega
  obtain ⟨c'', flush, flushed⟩ := emptyTank_fills flat sound' opened' short
  have text : osMarker ++ c'.os.tank = blockText tanked [] := by
    rw [blockText, List.append_nil, ← tank, ← fills.tank]
    exact (List.take_of_length_le (by rw [List.length_append]; exact short)).symm
  have tank'' : c''.os.tank = [] := flushed.tank
  rw [text] at flushed
  obtain ⟨sound₃, stage₃, later₃⟩ := osText_stage flat flushed.sound flushed.opened tank'' ch
  exact ⟨c'', flush, sound₃, stage₃,
    fills.later.trans (blanked.trans (flushed.later.trans later₃))⟩

include flat in
theorem osLive_stage (sound : Sound max c) (live : c.liveState = .live)
    (stage : Stage max tanked later c) (ch : UInt8) (s : OsState) :
    Sound max (osLive max c ch s) ∧ Stage max tanked (later ++ [ch]) (osLive max c ch s) ∧
      c.Later (osLive max c ch s) := by
  rw [osLive_eq]
  have first := osFirst_extends max c s
  generalize osFirst max c s = c₁ at first
  have sound₁ := sound.extends first
  have live₁ := first.stays live
  dsimp only
  have refuse (full : max < c₁.log.ring.published + entryOsBlock) (closed : c₁.os.at_ = 0) :=
    refused_stage flat sound₁ live₁ closed full tanked (later ++ [ch])
  cases stage.extends first with
  | opened base opened tank =>
      have open_ : c₁.os.at_ ≠ 0 := by
        have next := opened.next
        have marker := marker_le_blockText tanked later
        omega
      rw [if_neg open_]
      dsimp only
      rw [if_pos rfl, tank, no_tank tank, emptyTank]
      dsimp only
      rw [if_pos rfl]
      obtain ⟨sound₂, stage₂, later₂⟩ := osText_stage flat sound₁ opened tank ch
      exact ⟨sound₂, stage₂, first.later.trans later₂⟩
  | refused closed _ full =>
      obtain ⟨c₂, reserve, sound₂, stage₂, later₂⟩ := refuse full closed
      rw [if_pos closed, reserve]
      exact ⟨sound₂, stage₂, first.later.trans later₂⟩
  | waiting closed tank none_ =>
      rw [if_pos closed]
      by_cases full : max < c₁.log.ring.published + entryOsBlock
      · obtain ⟨c₂, reserve, sound₂, stage₂, later₂⟩ := refuse full closed
        rw [reserve]
        exact ⟨sound₂, stage₂, first.later.trans later₂⟩
      · have room : c₁.log.ring.published + entryOsBlock ≤ max := Nat.le_of_not_lt full
        obtain ⟨c₂, reserve, c₃, flush, sound₃, stage₃, later₃⟩ :=
          reserved_stage flat sound₁ live₁ closed tank room ch
        rw [reserve]
        dsimp only
        rw [if_pos rfl, flush, none_]
        dsimp only
        rw [if_pos rfl]
        exact ⟨sound₃, stage₃, first.later.trans later₃⟩

end Live

/-! ## Runs -/

def charOf (live : Bool) : Call × Bool → Option UInt8
  | (.os ch _ _, found) => if found = live then some ch else none
  | _ => none

def tankedChars (history : List (Call × Bool)) : List UInt8 := history.filterMap (charOf false)

def laterChars (history : List (Call × Bool)) : List UInt8 := history.filterMap (charOf true)

theorem call_os_live (live : c.liveState = .live) (ch : UInt8) (which : UInt32) (s : OsState) :
    c.call max (.os ch which s) = osLive max { c with os := osCount c.os ch which } ch s :=
  if_neg (not_not.mpr live)

theorem call_stage (flat : max + entryOsBlock < 2 ^ 32) (sound : Sound max c)
    (stage : Stage max tanked later c) (call : Call) :
    Sound max (c.call max call) ∧
      Stage max (tanked ++ (charOf false (call, (answer max c call).1)).toList)
        (later ++ (charOf true (call, (answer max c call).1)).toList) (c.call max call) ∧
      c.Later (c.call max call) := by
  have silent {c' : State} (ext : c.Extends max c') : Sound max c' ∧
      Stage max (tanked ++ []) (later ++ []) c' ∧ c.Later c' := by
    rw [List.append_nil, List.append_nil]
    exact ⟨sound.extends ext, stage.extends ext, ext.later⟩
  cases call with
  | kv r => exact silent (write_extends max c [r])
  | live r m => exact silent (entryLiveWrite_extends max c r m)
  | os ch which s =>
      by_cases live : c.liveState = .live
      · have counted : c.Extends max { c with os := osCount c.os ch which } :=
          ⟨.refl max c.log, id, Or.inl, rfl, rfl, rfl⟩
        obtain ⟨sound', stage', later'⟩ :=
          osLive_stage flat (sound.extends counted) live (stage.extends counted) ch s
        have step := @call_os_live max c live ch which s
        have found : (answer max c (.os ch which s)).1 = true := decide_eq_true live
        have chars : charOf false (.os ch which s, true) = none ∧
            charOf true (.os ch which s, true) = some ch := ⟨rfl, rfl⟩
        rw [found, step, chars.1, chars.2, Option.toList_none, Option.toList_some, List.append_nil]
        exact ⟨sound', stage', counted.later.trans later'⟩
      · obtain ⟨log, state, closed, stage'⟩ := tank_stage stage live ch which s
        have found : (answer max c (.os ch which s)).1 = false := decide_eq_false live
        have chars : charOf false (.os ch which s, false) = some ch ∧
            charOf true (.os ch which s, false) = none := ⟨rfl, rfl⟩
        rw [found, chars.1, chars.2, Option.toList_none, Option.toList_some, List.append_nil]
        refine ⟨sound.congr log state, stage', ⟨?_, ?_, fun open_ => absurd closed open_⟩⟩
        · rw [State.call, log]
        · rw [State.call, log]

/-- A capacity whose last byte still has an address. -/
structure Capacity where
  max : Nat
  addressable : ramConsoleBase + 12 + max ≤ 2 ^ 32

def Capacity.real : Capacity := ⟨ramConsoleMax, by decide⟩

theorem Capacity.flat (capacity : Capacity) : capacity.max + entryOsBlock < 2 ^ 32 := by
  have addressable := capacity.addressable
  simp only [ramConsoleBase] at addressable
  simp only [entryOsBlock]
  omega

def consoleRun (capacity : Capacity) (ring : Ring) (pending : Option Probe) (calls : List Call) :
    List (Call × Bool) × State :=
  execute (answer capacity.max) (boot ring pending) calls

/-- The size is bounded, the records stand where they were put, the block overlaps none of
them and has its text and blanks in it.  Characters without a block have found no room. -/
structure RingSafe (max : Nat) (tanked later : List UInt8) (c : State) : Prop where
  size : c.log.ring.published ≤ max
  records : ∀ e ∈ c.log.entries,
    e.start + e.kept.length ≤ c.log.ring.published ∧ Holds c.log.ring.data e.start e.kept
  apart : ∀ base, c.block = some base → ∀ e ∈ c.log.entries, e.Apart base
  block : ∀ base, c.block = some base → base + entryOsBlock ≤ c.log.ring.published ∧
    Holds c.log.ring.data base (blockText tanked later) ∧
    ∀ a, base + (blockText tanked later).length ≤ a → a < base + entryOsBlock →
      c.log.ring.data a = 32
  noRoom : c.block = none → later ≠ [] → max < c.log.ring.published + entryOsBlock

structure Keeps (c c' : State) : Prop where
  size : c.log.ring.published ≤ c'.log.ring.published
  records : c.log.entries <+: c'.log.entries
  block : ∀ base, c.block = some base → c'.block = some base

def SharedRing (capacity : Capacity) (ring : Ring) (pending : Option Probe) : Prop :=
  ∀ calls more,
    let run := consoleRun capacity ring pending calls
    RingSafe capacity.max (tankedChars run.1) (laterChars run.1) run.2 ∧
      Keeps run.2 (consoleRun capacity ring pending (calls ++ more)).2

theorem Opened.block {base : Nat} (opened : Opened base (blockText tanked later) c) :
    c.block = some base := by
  have next := opened.next
  have marker := marker_le_blockText tanked later
  rw [State.block, if_neg (by omega), opened.end_, Nat.add_sub_cancel]

theorem Sound.safe_closed (sound : Sound max c) (closed : c.os.at_ = 0)
    (noRoom : later ≠ [] → max < c.log.ring.published + entryOsBlock) :
    RingSafe max tanked later c := by
  have unreserved : c.block = none := if_pos closed
  refine ⟨sound.size, sound.kept, ?_, ?_, fun _ => noRoom⟩
  · intro base is
    rw [unreserved] at is
    cases is
  · intro base is
    rw [unreserved] at is
    cases is

theorem Stage.safe (sound : Sound max c) (stage : Stage max tanked later c) :
    RingSafe max tanked later c := by
  cases stage with
  | waiting closed tank none_ => exact sound.safe_closed closed fun some_ => absurd none_ some_
  | refused closed live full => exact sound.safe_closed closed fun _ => full
  | opened base opened tank =>
      refine ⟨sound.size, sound.kept, ?_, ?_, ?_⟩
      · intro base' is
        cases opened.block.symm.trans is
        exact opened.apart
      · intro base' is
        cases opened.block.symm.trans is
        exact ⟨opened.below, opened.there, opened.blank⟩
      · intro is
        cases opened.block.symm.trans is

theorem State.Later.keeps {c' : State} (later : c.Later c') : Keeps c c' := by
  refine ⟨later.size, later.entries, ?_⟩
  intro base there
  rw [State.block] at there ⊢
  split at there
  · cases there
  · rename_i open_
    obtain ⟨still, end_⟩ := later.block open_
    rw [if_neg still, end_]
    exact there

section Runs
variable {capacity : Capacity} {ring : Ring} (fits : ring.sig = ramConsoleSig → ring.size ≤ capacity.max)
variable (pending : Option Probe)

include fits in
theorem run_stage (calls : List Call) :
    Sound capacity.max (consoleRun capacity ring pending calls).2 ∧
      Stage capacity.max (tankedChars (consoleRun capacity ring pending calls).1)
        (laterChars (consoleRun capacity ring pending calls).1)
        (consoleRun capacity ring pending calls).2 := by
  rw [consoleRun]
  apply execute_induction (fun history c =>
    Sound capacity.max c ∧ Stage capacity.max (tankedChars history) (laterChars history) c)
  · refine ⟨⟨?_, fun live => (by cases live), fun e member => (by cases member)⟩, .waiting rfl rfl rfl⟩
    rw [boot, Ring.published]
    split
    · rename_i signed
      exact fits signed
    · exact Nat.zero_le _
  · rintro history c call ⟨sound, stage⟩
    obtain ⟨sound', stage', _⟩ := call_stage capacity.flat sound stage call
    have chars (live : Bool) : (history ++ [(call, (answer capacity.max c call).1)]).filterMap (charOf live) =
        history.filterMap (charOf live) ++ (charOf live (call, (answer capacity.max c call).1)).toList := by
      rw [List.filterMap_append]
      cases found : charOf live (call, (answer capacity.max c call).1) <;> simp [found]
    rw [tankedChars, laterChars, chars false, chars true]
    exact ⟨sound', stage'⟩

include fits in
theorem run_later (calls more : List Call) :
    (consoleRun capacity ring pending calls).2.Later
      (consoleRun capacity ring pending (calls ++ more)).2 := by
  induction more using List.reverseRecOn with
  | nil =>
      rw [List.append_nil]
      exact .refl _
  | append_singleton more call ih =>
      obtain ⟨sound, stage⟩ := run_stage fits pending (calls ++ more)
      rw [← List.append_assoc, consoleRun, consoleRun, execute_snoc]
      exact ih.trans (call_stage capacity.flat sound stage call).2.2

end Runs

/-- The ring is shared safely from exactly those boots at which a signed buffer does not
claim more than its capacity. -/
theorem shared_ring_iff (capacity : Capacity) (ring : Ring) (pending : Option Probe) :
    SharedRing capacity ring pending ↔ (ring.sig = ramConsoleSig → ring.size ≤ capacity.max) := by
  constructor
  · intro safe signed
    have size := (safe [] []).1.size
    rw [consoleRun, execute_nil, boot, published_of_signed signed] at size
    exact size
  · intro fits calls more
    obtain ⟨sound, stage⟩ := run_stage fits pending calls
    exact ⟨stage.safe sound, (run_later fits pending calls more).keeps⟩

/-- A signed buffer whose size word is beyond the capacity. -/
def corruptRing : Ring := ⟨ramConsoleSig, 0xffff0000, fun _ => 0⟩

/-- A machine on which the channel comes up at the first call. -/
def readyMachine : Machine :=
  ⟨0, 0, 0, 1, 0, 0, 0x80000000, 7, 0, 0, 0, 0⟩

def corruptCalls : List Call :=
  [.live ⟨ascii "a", 1⟩ readyMachine, .os 65 1 ⟨0, 0, 0, 0, none⟩]

/-- The sum that guards the reservation wraps, and the block goes over the header: the record behind
it finds no signature and begins at the start of the data. -/
theorem reserve_wraps {c : State} (settled : c.log.pending = none)
    (signed : c.log.ring.sig = ramConsoleSig) (size : c.log.ring.size = 0xffff0000) :
    ∃ c', entryOsReserve ramConsoleMax c = (true, c') ∧ c'.log.pending = none ∧
      c'.log.ring.published = 65 ∧
      c'.os = { c.os with at_ := 0xffff0012, end_ := 0x10000, atBase := 0xffff0000 } := by
  have index : sigIndex = 2 ^ 32 - 12 := rfl
  have block : entryOsBlock = 131072 := rfl
  have wraps : u32 (c.log.ring.size + entryOsBlock) = 0x10000 := by
    rw [size]
    rfl
  have granted : ¬ (c.log.ring.sig ≠ ramConsoleSig ∨
      ramConsoleMax < u32 (c.log.ring.size + entryOsBlock)) := by
    rw [wraps]
    rintro (unsigned | beyond)
    · exact unsigned signed
    · exact absurd beyond (by decide)
  have begins : (c.reserve entryOsBlock).log.ring.published = 0 :=
    if_neg (reserve_unsigned (by omega) (by omega) (by decide))
  have settled' := (reserve_pending c entryOsBlock).trans settled
  let records : List Record := [⟨ascii "xnu_live_ostext_at", UInt32.ofNat c.log.ring.size⟩,
    ⟨ascii "xnu_live_ostext_block", UInt32.ofNat entryOsBlock⟩]
  have os : ((c.reserve entryOsBlock).write ramConsoleMax records).os =
      { c.os with at_ := 0xffff0000, end_ := 0x10000, atBase := 0xffff0000 } := by
    rw [State.write]
    dsimp only
    rw [reserve_statics, wraps, size]
  have published :
      ((c.reserve entryOsBlock).write ramConsoleMax records).log.ring.published = 65 := by
    rw [write_log, logRun_published settled', begins]
    simp only [records, List.flatMap_cons, List.flatMap_nil, List.length_append, length_kvText]
    rfl
  refine ⟨_, if_neg granted, ?_, ?_, ?_⟩
  · rw [foldl_store_pending, write_log]
    exact logRun_pending settled' records
  · rw [foldl_store_published, published]
    rw [os]
    dsimp only
    decide
  · rw [foldl_store_os _ (by decide), os]
    rfl

/-- The character finds such a block full. -/
theorem wrapped_block {c₀ c : State} {s : OsState} (opens : osFirst ramConsoleMax c₀ s = c)
    (closed : c.os.at_ = 0) (tank : c.os.tank = []) (limited : c.os.limited = 0)
    (settled : c.log.pending = none) (signed : c.log.ring.sig = ramConsoleSig)
    (size : c.log.ring.size = 0xffff0000) (ch : UInt8) :
    (osLive ramConsoleMax c₀ ch s).log.ring.published = 0xa9 ∧
      (osLive ramConsoleMax c₀ ch s).os.at_ = 0xffff0012 := by
  obtain ⟨c', reserved, settled', published, os⟩ := reserve_wraps settled signed size
  have tank' : c'.os.tank = [] := by rw [os, tank]
  have limited' : c'.os.limited = 0 := by rw [os, limited]
  have full : c'.os.end_ ≤ c'.os.at_ := by
    rw [os]
    dsimp only
    decide
  rw [osLive_eq, opens, if_pos closed, reserved]
  dsimp only
  rw [if_pos rfl, tank', no_tank tank', emptyTank]
  dsimp only
  rw [if_pos rfl, osText, if_pos full, if_pos limited']
  constructor
  · rw [write_log, logRun_published settled', published]
    simp only [List.flatMap_cons, List.flatMap_nil, List.length_append, length_kvText]
    rfl
  · change c'.os.at_ = _
    rw [os]

def corruptLive : State :=
  entryLiveWrite ramConsoleMax (boot corruptRing none) ⟨ascii "a", 1⟩ readyMachine

/-- The published size falls, and the block's cursor is outside of the ring. -/
theorem corrupt_size_wraps :
    ¬ SharedRing .real corruptRing none ∧
      (consoleRun .real corruptRing none []).2.log.ring.published = 0xffff0000 ∧
      (consoleRun .real corruptRing none corruptCalls).2.log.ring.published = 0xa9 ∧
      ramConsoleMax < (consoleRun .real corruptRing none corruptCalls).2.os.at_ := by
  have live : corruptLive.liveState = .live := by decide
  have step : (consoleRun .real corruptRing none corruptCalls).2 =
      osLive ramConsoleMax { corruptLive with os := osCount corruptLive.os 65 1 } 65
        ⟨0, 0, 0, 0, none⟩ := by
    have calls : corruptCalls =
        [.live ⟨ascii "a", 1⟩ readyMachine] ++ [.os 65 1 ⟨0, 0, 0, 0, none⟩] := rfl
    have up : (execute (answer ramConsoleMax) (boot corruptRing none)
        [.live ⟨ascii "a", 1⟩ readyMachine]).2 = corruptLive := rfl
    rw [calls, consoleRun, execute_snoc]
    dsimp only [Capacity.real]
    rw [up, answer]
    dsimp only
    rw [call_os_live live]
  have falls : (consoleRun .real corruptRing none corruptCalls).2.log.ring.published = 0xa9 ∧
      (consoleRun .real corruptRing none corruptCalls).2.os.at_ = 0xffff0012 := by
    rw [step]
    exact wrapped_block rfl (by decide) (by decide) (by decide) rfl (by decide +kernel)
      (by decide +kernel) 65
  refine ⟨?_, by decide, falls.1, by rw [falls.2]; decide⟩
  intro safe
  exact absurd (safe [] []).1.size (by decide)

end Stage90.Console

import Mathlib.Data.List.Infix
import Mathlib.Data.List.Induction
import Stage90.Console.LiveConsole

/-!
# The ring and its block over whole runs

The ring only grows, its records stay as they were written, and the OS console's block holds
the marker, the tank and the later characters.  `Extends` is what records do to the console,
`Opened` is the block while it is being filled.
-/

set_option autoImplicit false

namespace Stage90.Console

open Stage90.Lib

def State.block (c : State) : Option Nat :=
  if c.os.at_ = 0 then none else some (c.os.end_ - entryOsBlock)

def Entry.Apart (base : Nat) (e : Entry) : Prop :=
  e.start + e.kept.length ≤ base ∨ base + entryOsBlock ≤ e.start

variable {max : Nat}

structure Sound (max : Nat) (c : State) : Prop where
  size : c.log.ring.published ≤ max
  signed : c.liveState = .live → c.log.ring.sig = ramConsoleSig
  kept : ∀ e ∈ c.log.entries,
    e.start + e.kept.length ≤ c.log.ring.published ∧ Holds c.log.ring.data e.start e.kept

/-- The block that starts at `base` and has `text` in it so far. -/
structure Opened (base : Nat) (text : List UInt8) (c : State) : Prop where
  live : c.liveState = .live
  next : c.os.at_ = base + text.length
  end_ : c.os.end_ = base + entryOsBlock
  within : text.length ≤ entryOsBlock
  below : base + entryOsBlock ≤ c.log.ring.published
  apart : ∀ e ∈ c.log.entries, e.Apart base
  there : Holds c.log.ring.data base text
  blank : ∀ a, base + text.length ≤ a → a < base + entryOsBlock → c.log.ring.data a = 32

/-! ## Records -/

/-- What the writing of records does to the console, and what the bring-up does. -/
structure State.Extends (max : Nat) (c c' : State) : Prop where
  log : c.log.Grows max c'.log
  stays : c.liveState = .live → c'.liveState = .live
  comes : c'.liveState = .live → c.liveState = .live ∨ c'.log.ring.sig = ramConsoleSig
  at_ : c'.os.at_ = c.os.at_
  end_ : c'.os.end_ = c.os.end_
  tank : c'.os.tank = c.os.tank

theorem State.Extends.refl (max : Nat) (c : State) : c.Extends max c :=
  ⟨.refl max c.log, id, Or.inl, rfl, rfl, rfl⟩

theorem State.Extends.trans {c c' c'' : State} (first : c.Extends max c')
    (second : c'.Extends max c'') : c.Extends max c'' where
  log := first.log.trans second.log
  stays := fun live => second.stays (first.stays live)
  comes := by
    intro live
    cases second.comes live with
    | inr signed => exact Or.inr signed
    | inl earlier => exact (first.comes earlier).imp_right second.log.signed
  at_ := second.at_.trans first.at_
  end_ := second.end_.trans first.end_
  tank := second.tank.trans first.tank

theorem write_log (max : Nat) (c : State) (records : List Record) :
    (c.write max records).log = logRun max c.log records := rfl

theorem write_extends (max : Nat) (c : State) (records : List Record) :
    c.Extends max (c.write max records) :=
  ⟨logRun_grows max c.log records, id, Or.inl, rfl, rfl, rfl⟩

theorem Sound.extends {c c' : State} (sound : Sound max c) (ext : c.Extends max c') :
    Sound max c' where
  size := ext.log.bound sound.size
  signed := by
    intro live
    cases ext.comes live with
    | inl earlier => exact ext.log.signed (sound.signed earlier)
    | inr signed => exact signed
  kept := by
    intro e member
    obtain ⟨added, entries, places⟩ := ext.log.added
    rw [entries, List.mem_append] at member
    cases member with
    | inl earlier =>
        obtain ⟨within, there⟩ := sound.kept e earlier
        exact ⟨Nat.le_trans within ext.log.mono, there.frame within ext.log.frame⟩
    | inr later =>
        obtain ⟨_, within, there⟩ := places e later
        exact ⟨within, there⟩

theorem Sound.congr {c c' : State} (sound : Sound max c) (log : c'.log = c.log)
    (live : c'.liveState = c.liveState) : Sound max c' := by
  refine ⟨?_, ?_, ?_⟩
  · rw [log]
    exact sound.size
  · rw [log, live]
    exact sound.signed
  · rw [log]
    exact sound.kept

theorem Opened.congr {base : Nat} {text : List UInt8} {c c' : State} (opened : Opened base text c)
    (log : c'.log = c.log) (live : c'.liveState = c.liveState) (at_ : c'.os.at_ = c.os.at_)
    (end_ : c'.os.end_ = c.os.end_) : Opened base text c' := by
  refine ⟨live.trans opened.live, at_.trans opened.next, end_.trans opened.end_, opened.within,
    ?_, ?_, ?_, ?_⟩
  · rw [log]
    exact opened.below
  · rw [log]
    exact opened.apart
  · rw [log]
    exact opened.there
  · rw [log]
    exact opened.blank

theorem Opened.extends {base : Nat} {text : List UInt8} {c c' : State} (opened : Opened base text c)
    (ext : c.Extends max c') : Opened base text c' where
  live := ext.stays opened.live
  next := ext.at_.trans opened.next
  end_ := ext.end_.trans opened.end_
  within := opened.within
  below := Nat.le_trans opened.below ext.log.mono
  apart := by
    intro e member
    obtain ⟨added, entries, places⟩ := ext.log.added
    rw [entries, List.mem_append] at member
    cases member with
    | inl earlier => exact opened.apart e earlier
    | inr later => exact Or.inr (Nat.le_trans opened.below (places e later).1)
  there := by
    have within := opened.within
    have below := opened.below
    exact opened.there.frame (by omega) ext.log.frame
  blank := by
    intro a from_ before
    rw [ext.log.frame a (Nat.lt_of_lt_of_le before opened.below)]
    exact opened.blank a from_ before

/-! ## The channel -/

theorem entryLiveRefuse_extends {c : State} (idle : c.liveState ≠ .live) (why : UInt32) :
    c.Extends max (entryLiveRefuse c why) :=
  ⟨.refl max c.log, fun live => absurd live idle, by simp [entryLiveRefuse], rfl, rfl, rfl⟩

theorem entryLiveInit_extends (max : Nat) {c : State} (untried : c.liveState = .untried)
    (m : Machine) : c.Extends max (entryLiveInit max c m) := by
  have counted : c.Extends max { c with attempts := c.attempts + 1 } :=
    ⟨.refl max c.log, id, Or.inl, rfl, rfl, rfl⟩
  have idle : ({ c with attempts := c.attempts + 1 } : State).liveState ≠ .live := by
    rw [untried]
    decide
  rw [entryLiveInit]
  dsimp only
  split
  · split
    · exact counted
    · exact counted.trans (entryLiveRefuse_extends idle 1)
  · split
    · exact counted.trans (entryLiveRefuse_extends idle 5)
    · rename_i attr _
      split
      · exact counted.trans (entryLiveRefuse_extends idle 3)
      split
      · exact counted.trans (entryLiveRefuse_extends idle 2)
      split
      · exact counted.trans (entryLiveRefuse_extends idle 4)
      · rename_i signed
        have up : c.Extends max
            { c with attempts := c.attempts + 1, liveState := .live, records := 0 } :=
          ⟨.refl max c.log, fun _ => rfl, fun _ => Or.inr (not_not.mp signed), rfl, rfl, rfl⟩
        exact up.trans (write_extends max _ _)

theorem entryLiveWrite_extends (max : Nat) (c : State) (r : Record) (m : Machine) :
    c.Extends max (entryLiveWrite max c r m) := by
  have first : c.Extends max (if c.liveState = .untried then entryLiveInit max c m else c) := by
    split
    · rename_i untried
      exact entryLiveInit_extends max untried m
    · exact .refl max c
  rw [entryLiveWrite]
  dsimp only
  generalize (if c.liveState = .untried then entryLiveInit max c m else c) = c₁ at first
  have counted (records : UInt32) : c₁.Extends max { c₁ with records := records } :=
    ⟨.refl max c₁.log, id, Or.inl, rfl, rfl, rfl⟩
  split
  · exact first.trans ⟨.refl max c₁.log, id, Or.inl, rfl, rfl, rfl⟩
  split
  · apply first.trans
    split
    · have capped := write_extends max c₁ [⟨ascii "xnu_live_capped", c₁.records⟩]
      exact capped.trans ⟨.refl max _, id, Or.inl, rfl, rfl, rfl⟩
    · exact counted _
  · exact first.trans ((counted _).trans (write_extends max _ _))

/-! ## Stores -/

theorem put_data {r : Ring} {i : Nat} (below : i < sigIndex) (ch : UInt8) :
    r.put i ch = { r with data := overlay r.data i [ch] } := by
  have order : sigIndex < sizeIndex := by decide
  rw [Ring.put, if_neg (by omega), if_neg (by omega)]

theorem overlay_single (data : Nat → UInt8) (i : Nat) (ch : UInt8) (a : Nat) :
    overlay data i [ch] a = if a = i then ch else data a := by
  rw [overlay]
  by_cases here : a = i
  · rw [here, if_pos (Nat.le_refl i), if_pos rfl, Nat.sub_self]
    rfl
  · rw [if_neg here]
    split
    · rw [List.getElem?_eq_none (by rw [List.length_singleton]; omega)]
      rfl
    · rfl

theorem byteAt_ofNat {n k : Nat} (low : k < 4) : byteAt (UInt32.ofNat n).toNat k = byteAt n k := by
  rw [byteAt, byteAt, ← UInt8.toNat_inj, UInt8.toNat_ofNat', UInt8.toNat_ofNat',
    UInt32.toNat_ofNat']
  rcases (by omega : k = 0 ∨ k = 1 ∨ k = 2 ∨ k = 3) with rfl | rfl | rfl | rfl
  all_goals omega

/-- The header's words and the data are one memory. -/
theorem get_put (r : Ring) (i j : Nat) (ch : UInt8) :
    (r.put i ch).get j = if j = i then ch else r.get j := by
  have order : sizeIndex = sigIndex + 8 := rfl
  have byte (n base : Nat) (behind : base ≤ i) (behind' : base ≤ j) :
      byteAt (setByte n (i - base) ch) (j - base) =
        if j = i then ch else byteAt n (j - base) := by
    rw [byteAt_setByte]
    exact if_congr (by omega) rfl rfl
  rw [Ring.put]
  split
  · rename_i last
    rw [Ring.get, Ring.get]
    dsimp only
    by_cases size : sizeIndex ≤ j
    · rw [if_pos size, if_pos size, byte r.size sizeIndex last size]
    · rw [if_neg size, if_neg size, if_neg (by omega : ¬ j = i)]
  split
  · rename_i first
    rw [Ring.get, Ring.get]
    dsimp only
    by_cases size : sizeIndex ≤ j
    · rw [if_pos size, if_pos size, if_neg (by omega)]
    rw [if_neg size, if_neg size]
    by_cases sig : sigIndex ≤ j ∧ j < sigIndex + 4
    · rw [if_pos sig, if_pos sig, byteAt_ofNat (by omega), byte r.sig.toNat sigIndex first.1 sig.1]
    · rw [if_neg sig, if_neg sig, if_neg (by omega)]
  · rw [Ring.get, Ring.get]
    dsimp only
    rw [overlay_single]
    by_cases size : sizeIndex ≤ j
    · rw [if_pos size, if_pos size, if_neg (by omega)]
    rw [if_neg size, if_neg size]
    by_cases sig : sigIndex ≤ j ∧ j < sigIndex + 4
    · rw [if_pos sig, if_pos sig, if_neg (by omega)]
    · rw [if_neg sig, if_neg sig]

/-! ## The block -/

structure State.Later (c c' : State) : Prop where
  size : c.log.ring.published ≤ c'.log.ring.published
  entries : c.log.entries <+: c'.log.entries
  block : c.os.at_ ≠ 0 → c'.os.at_ ≠ 0 ∧ c'.os.end_ = c.os.end_

theorem State.Later.refl (c : State) : c.Later c :=
  ⟨Nat.le_refl _, List.prefix_refl _, fun open_ => ⟨open_, rfl⟩⟩

theorem State.Later.trans {c c' c'' : State} (first : c.Later c') (second : c'.Later c'') :
    c.Later c'' where
  size := Nat.le_trans first.size second.size
  entries := first.entries.trans second.entries
  block := by
    intro open_
    obtain ⟨still, same⟩ := first.block open_
    exact ⟨(second.block still).1, (second.block still).2.trans same⟩

theorem State.Extends.later {c c' : State} (ext : c.Extends max c') : c.Later c' where
  size := ext.log.mono
  entries := by
    obtain ⟨added, entries, _⟩ := ext.log.added
    exact ⟨added, entries.symm⟩
  block := by
    intro open_
    rw [ext.at_]
    exact ⟨open_, ext.end_⟩

theorem store_ring {c : State} (below : c.os.at_ < sigIndex) (ch : UInt8) :
    (c.store ch).log.ring = { c.log.ring with data := overlay c.log.ring.data c.os.at_ [ch] } :=
  put_data below ch

theorem store_published {c : State} (below : c.os.at_ < sigIndex) (ch : UInt8) :
    (c.store ch).log.ring.published = c.log.ring.published := by
  rw [store_ring below]
  rfl

theorem foldl_store_os (c : State) {cells : List UInt8} (some_ : cells ≠ []) :
    (cells.foldl State.store c).os = { c.os with at_ := u32 (c.os.at_ + cells.length) } := by
  induction cells generalizing c with
  | nil => exact absurd rfl some_
  | cons ch cells ih =>
      by_cases last : cells = []
      · rw [last]
        rfl
      · have turn : u32 (u32 (c.os.at_ + 1) + cells.length) =
            u32 (c.os.at_ + (ch :: cells).length) := by
          simp only [List.length_cons, u32]
          omega
        rw [List.foldl_cons, ih (c.store ch) last, State.store]
        dsimp only
        rw [turn]

theorem foldl_store_pending (c : State) (cells : List UInt8) :
    (cells.foldl State.store c).log.pending = c.log.pending := by
  induction cells generalizing c with
  | nil => rfl
  | cons ch cells ih => exact ih (c.store ch)

theorem foldl_store_published {c : State} {cells : List UInt8}
    (below : c.os.at_ + cells.length ≤ sigIndex) :
    (cells.foldl State.store c).log.ring.published = c.log.ring.published := by
  have index : sigIndex = 2 ^ 32 - 12 := rfl
  induction cells generalizing c with
  | nil => rfl
  | cons ch cells ih =>
      rw [List.length_cons] at below
      have next : (c.store ch).os.at_ = c.os.at_ + 1 := u32_of_lt (by omega)
      rw [List.foldl_cons, ih (by omega), store_published (by omega)]

section Filling
variable {base : Nat} {text : List UInt8} {c : State}
variable (flat : max + entryOsBlock < 2 ^ 32)

include flat in
theorem Opened.below_header (sound : Sound max c) (opened : Opened base text c) :
    c.os.at_ < sigIndex := by
  have index : sigIndex = 2 ^ 32 - 12 := rfl
  have block : entryOsBlock = 131072 := rfl
  have next := opened.next
  have within := opened.within
  have below := opened.below
  have size := sound.size
  omega

include flat in
theorem Opened.store (sound : Sound max c) (opened : Opened base text c)
    (room : text.length < entryOsBlock) (ch : UInt8) :
    Sound max (c.store ch) ∧ Opened base (text ++ [ch]) (c.store ch) := by
  have next := opened.next
  have below := opened.below
  have size := sound.size
  have step : u32 (c.os.at_ + 1) = base + text.length + 1 := by
    rw [next, u32_of_lt (by omega)]
  have below_header := opened.below_header flat sound
  have ring := store_ring below_header ch
  have elsewhere : ∀ a, a ≠ base + text.length → (c.store ch).log.ring.data a = c.log.ring.data a := by
    intro a other
    rw [ring]
    dsimp only
    rw [overlay_single, if_neg (next ▸ other)]
  have published := store_published below_header ch
  constructor
  · refine ⟨published.trans_le sound.size, ?_, ?_⟩
    · intro live
      rw [ring]
      exact sound.signed live
    intro e member
    rw [published]
    obtain ⟨within, there⟩ := sound.kept e member
    refine ⟨within, ?_⟩
    intro i cell at_i
    have inside : i < e.kept.length := (List.getElem?_eq_some_iff.mp at_i).1
    rw [elsewhere]
    · exact there i cell at_i
    · cases opened.apart e member with
      | inl before => omega
      | inr behind => omega
  · have length : (text ++ [ch]).length = text.length + 1 := List.length_append
    refine ⟨opened.live, ?_, opened.end_, ?_, ?_, opened.apart, ?_, ?_⟩
    · rw [length]
      exact step
    · rw [length]
      exact room
    · rw [published]
      exact opened.below
    · rw [holds_append]
      constructor
      · intro i cell at_i
        have inside : i < text.length := (List.getElem?_eq_some_iff.mp at_i).1
        rw [elsewhere _ (by omega)]
        exact opened.there i cell at_i
      · rw [← next, ring]
        exact holds_overlay _ _ _
    · intro a from_ before
      rw [length] at from_
      rw [elsewhere _ (by omega)]
      exact opened.blank a (by omega) before

/-- `c'` is `c` with `text` in its block. -/
structure State.Fills (max base : Nat) (text : List UInt8) (c c' : State) : Prop where
  sound : Sound max c'
  opened : Opened base text c'
  later : c.Later c'
  tank : c'.os.tank = c.os.tank

theorem State.Fills.trans {text' : List UInt8} {c' c'' : State} (first : c.Fills max base text c')
    (second : c'.Fills max base text' c'') : c.Fills max base text' c'' :=
  ⟨second.sound, second.opened, first.later.trans second.later, second.tank.trans first.tank⟩

theorem State.Fills.extends {c' : State} (sound : Sound max c) (opened : Opened base text c)
    (ext : c.Extends max c') : c.Fills max base text c' :=
  ⟨sound.extends ext, opened.extends ext, ext.later, ext.tank⟩

include flat in
theorem store_fills (sound : Sound max c) (opened : Opened base text c)
    (room : text.length < entryOsBlock) (ch : UInt8) :
    c.Fills max base (text ++ [ch]) (c.store ch) := by
  obtain ⟨sound', opened'⟩ := opened.store flat sound room ch
  have published := store_published (opened.below_header flat sound) ch
  refine ⟨sound', opened', ⟨Nat.le_of_eq published.symm, List.prefix_refl _, ?_⟩, rfl⟩
  intro _
  have next := opened'.next
  rw [List.length_append, List.length_singleton] at next
  exact ⟨by omega, rfl⟩

include flat in
theorem foldl_store_fills {cells : List UInt8} (sound : Sound max c) (opened : Opened base text c)
    (room : text.length + cells.length ≤ entryOsBlock) :
    c.Fills max base (text ++ cells) (cells.foldl State.store c) := by
  induction cells generalizing text c with
  | nil =>
      rw [List.append_nil]
      exact ⟨sound, opened, .refl c, rfl⟩
  | cons ch cells ih =>
      rw [List.length_cons] at room
      have first := store_fills flat sound opened (by omega) ch
      rw [List.append_cons]
      apply first.trans
      apply ih first.sound first.opened
      rw [List.length_append, List.length_singleton]
      omega

include flat in
theorem take_fills (sound : Sound max c) (opened : Opened base text c)
    (room : text.length < entryOsBlock) (ch : UInt8) :
    c.Fills max base (text ++ [ch]) (c.take ch) := by
  have stored := store_fills flat sound opened room ch
  exact ⟨stored.sound.congr rfl rfl, stored.opened.congr rfl rfl rfl rfl,
    ⟨stored.later.size, stored.later.entries, stored.later.block⟩, stored.tank⟩

include flat in
theorem emptyTank_fills {cells : List UInt8} (sound : Sound max c) (opened : Opened base text c)
    (room : text.length + cells.length ≤ entryOsBlock) :
    ∃ c', emptyTank c cells = (true, c') ∧ c.Fills max base (text ++ cells) c' := by
  induction cells generalizing text c with
  | nil =>
      rw [List.append_nil]
      exact ⟨c, rfl, sound, opened, .refl c, rfl⟩
  | cons ch cells ih =>
      rw [List.length_cons] at room
      have open_ : ¬ c.os.end_ ≤ c.os.at_ := by
        rw [opened.end_, opened.next]
        omega
      have first := take_fills flat sound opened (by omega) ch
      obtain ⟨c', emptied, fills⟩ := ih first.sound first.opened (by
        rw [List.length_append, List.length_singleton]
        omega)
      rw [List.append_cons, emptyTank, if_neg open_]
      exact ⟨c', emptied, first.trans fills⟩

/-- The size is never below the block's end here, so the heal only writes records. -/
theorem osHeal_extends (sound : Sound max c) (opened : Opened base text c) :
    c.Extends max (osHeal max c) := by
  rw [osHeal]
  split
  · have published := published_of_signed (sound.signed opened.live)
    have above : ¬ c.log.ring.size < c.os.end_ := by
      have below := opened.below
      rw [opened.end_]
      omega
    dsimp only
    rw [if_neg above]
    have counted (os : Os) (at_ : os.at_ = c.os.at_) (end_ : os.end_ = c.os.end_)
        (tank : os.tank = c.os.tank) : c.Extends max { c with os := os } :=
      ⟨.refl max c.log, id, Or.inl, at_, end_, tank⟩
    exact (counted { c.os with atBase := c.os.at_, chunks := c.os.chunks + 1 } rfl rfl rfl).trans
      (write_extends max _ _)
  · exact .refl max c

include flat in
theorem osText_fills (sound : Sound max c) (opened : Opened base text c) (ch : UInt8) :
    c.Fills max base ((text ++ [ch]).take entryOsBlock) (osText max c ch) := by
  have within := opened.within
  have next := opened.next
  have end_ := opened.end_
  rw [osText]
  by_cases full : c.os.end_ ≤ c.os.at_
  · have cut : (text ++ [ch]).take entryOsBlock = text := by
      rw [List.take_append_of_le_length (by omega), List.take_of_length_le within]
    rw [if_pos full, cut]
    split
    · have limited : c.Extends max { c with os := { c.os with limited := 1 } } :=
        ⟨.refl max c.log, id, Or.inl, rfl, rfl, rfl⟩
      exact .extends sound opened (limited.trans (write_extends max _ _))
    · exact ⟨sound, opened, .refl c, rfl⟩
  · have all : (text ++ [ch]).take entryOsBlock = text ++ [ch] := by
      apply List.take_of_length_le
      rw [List.length_append, List.length_singleton]
      omega
    have taken := take_fills flat sound opened (by omega) ch
    rw [if_neg full, all]
    exact taken.trans (.extends taken.sound taken.opened (osHeal_extends taken.sound taken.opened))

end Filling

/-! ## The reservation -/

theorem spaceFill_data (r : Ring) {base n : Nat} (below : base + n ≤ sigIndex) :
    spaceFill r base n =
      { r with data := fun a => if base ≤ a ∧ a < base + n then 32 else r.data a } := by
  have index : sigIndex = 2 ^ 32 - 12 := rfl
  induction n with
  | zero =>
      have none_ : (fun a => if base ≤ a ∧ a < base + 0 then 32 else r.data a) = r.data := by
        funext a
        exact if_neg (by omega)
      rw [spaceFill, none_]
  | succ n ih =>
      rw [spaceFill, u32_of_lt (by omega), ih (by omega), put_data (by omega)]
      congr 1
      funext a
      rw [overlay_single]
      by_cases here : a = base + n
      · rw [if_pos here, if_pos (by omega)]
      · rw [if_neg here]
        exact if_congr (by omega) rfl rfl

theorem reserve_ring {c : State} {block : Nat} (below : c.log.ring.size + block ≤ sigIndex) :
    (c.reserve block).log.ring =
      { c.log.ring with
        size := c.log.ring.size + block
        data := fun a =>
          if c.log.ring.size ≤ a ∧ a < c.log.ring.size + block then 32 else c.log.ring.data a } := by
  have index : sigIndex = 2 ^ 32 - 12 := rfl
  rw [State.reserve]
  dsimp only
  rw [spaceFill_data _ below, u32_of_lt (by omega)]

theorem reserve_entries (c : State) (block : Nat) :
    (c.reserve block).log.entries = c.log.entries := rfl

theorem reserve_pending (c : State) (block : Nat) :
    (c.reserve block).log.pending = c.log.pending := rfl

theorem reserve_live (c : State) (block : Nat) :
    (c.reserve block).liveState = c.liveState := rfl

theorem reserve_statics (c : State) (block : Nat) :
    (c.reserve block).os =
      { c.os with
        at_ := c.log.ring.size
        end_ := u32 (c.log.ring.size + block)
        atBase := c.log.ring.size } := rfl

theorem spaceFill_get (r : Ring) {base n j : Nat} (turns : n ≤ 2 ^ 32) (index : j < 2 ^ 32) :
    (spaceFill r base n).get j = if sub32 j base < n then 32 else r.get j := by
  induction n with
  | zero => rw [spaceFill, if_neg (Nat.not_lt_zero _)]
  | succ n ih =>
      have here : j = u32 (base + n) ↔ sub32 j base = n := by
        simp only [sub32, u32]
        omega
      rw [spaceFill, get_put, ih (by omega)]
      by_cases last : sub32 j base = n
      · rw [if_pos (here.mpr last), if_pos (by omega)]
      · rw [if_neg fun same => last (here.mp same)]
        exact if_congr (by omega) rfl rfl

/-- The blanks of a block that comes to the header take the signature. -/
theorem reserve_unsigned {c : State} {block : Nat} (starts : c.log.ring.size ≤ sigIndex)
    (reaches : sigIndex < c.log.ring.size + block) (small : block ≤ 2 ^ 32) :
    (c.reserve block).log.ring.sig ≠ ramConsoleSig := by
  intro signed
  have index : sigIndex = 2 ^ 32 - 12 := rfl
  have blank := @spaceFill_get { c.log.ring with size := u32 (c.log.ring.size + block) }
    c.log.ring.size block sigIndex small (by omega)
  rw [if_pos (by rw [sub32_of_le starts (by omega)]; omega)] at blank
  have byte : (c.reserve block).log.ring.get sigIndex = byteAt ramConsoleSig.toNat 0 := by
    rw [← signed]
    rfl
  exact absurd (byte.symm.trans blank) (by decide)

section Reserving
variable {c : State} (sound : Sound max c) (live : c.liveState = .live)
variable (flat : max + entryOsBlock < 2 ^ 32)

include sound live flat in
theorem reserve_opens (closed : c.os.at_ = 0)
    (room : c.log.ring.published + entryOsBlock ≤ max) :
    c.Fills max c.log.ring.published [] (c.reserve entryOsBlock) := by
  have published := published_of_signed (sound.signed live)
  rw [published] at room ⊢
  have sum : u32 (c.log.ring.size + entryOsBlock) = c.log.ring.size + entryOsBlock :=
    u32_of_lt (by omega)
  have ring := @reserve_ring c entryOsBlock (by
    have index : sigIndex = 2 ^ 32 - 12 := rfl
    have block : entryOsBlock = 131072 := rfl
    omega)
  have filled : ∀ a, (c.reserve entryOsBlock).log.ring.data a =
      if c.log.ring.size ≤ a ∧ a < c.log.ring.size + entryOsBlock then 32
      else c.log.ring.data a := by
    intro a
    rw [ring]
  have signed : (c.reserve entryOsBlock).log.ring.sig = ramConsoleSig := by
    rw [ring]
    exact sound.signed live
  have larger : (c.reserve entryOsBlock).log.ring.published = c.log.ring.size + entryOsBlock := by
    rw [published_of_signed signed, ring]
  have entries := reserve_entries c entryOsBlock
  have os := reserve_statics c entryOsBlock
  rw [sum] at os
  have next : (c.reserve entryOsBlock).os.at_ = c.log.ring.size := by rw [os]
  have end_ : (c.reserve entryOsBlock).os.end_ = c.log.ring.size + entryOsBlock := by rw [os]
  have tank : (c.reserve entryOsBlock).os.tank = c.os.tank := by rw [os]
  refine ⟨⟨?_, ?_, ?_⟩, ⟨?_, next, end_, ?_, ?_, ?_, holds_nil _, ?_⟩,
    ⟨?_, ?_, fun open_ => absurd closed open_⟩, tank⟩
  · exact Nat.le_trans (Nat.le_of_eq larger) room
  · intro _
    exact signed
  · intro e member
    rw [entries] at member
    obtain ⟨within, there⟩ := sound.kept e member
    rw [published] at within
    refine ⟨by omega, there.frame within ?_⟩
    intro a below
    rw [filled, if_neg (by omega)]
  · rw [reserve_live]
    exact live
  · rw [List.length_nil]
    exact Nat.zero_le entryOsBlock
  · exact Nat.le_of_eq larger.symm
  · intro e member
    rw [entries] at member
    have within := (sound.kept e member).1
    rw [published] at within
    exact Or.inl within
  · intro a from_ below
    rw [filled, if_pos ⟨from_, below⟩]
  · omega
  · rw [entries]

include sound live flat in
theorem entryOsReserve_room (closed : c.os.at_ = 0)
    (room : c.log.ring.published + entryOsBlock ≤ max) :
    ∃ c', entryOsReserve max c = (true, c') ∧ c.Fills max c.log.ring.published osMarker c' := by
  have published := published_of_signed (sound.signed live)
  have reserved := reserve_opens sound live flat closed room
  have open_ : ¬ (c.log.ring.sig ≠ ramConsoleSig ∨ max < u32 (c.log.ring.size + entryOsBlock)) := by
    rw [u32_of_lt (by omega)]
    intro either
    cases either with
    | inl unsigned => exact unsigned (sound.signed live)
    | inr beyond => omega
  have written := reserved.trans (.extends reserved.sound reserved.opened
    (write_extends max (c.reserve entryOsBlock)
      [⟨ascii "xnu_live_ostext_at", UInt32.ofNat c.log.ring.size⟩,
        ⟨ascii "xnu_live_ostext_block", UInt32.ofNat entryOsBlock⟩]))
  have short : ([] : List UInt8).length + osMarker.length ≤ entryOsBlock := by decide
  rw [entryOsReserve, if_neg open_]
  exact ⟨_, rfl, written.trans (foldl_store_fills flat written.sound written.opened short)⟩

include sound live flat in
theorem entryOsReserve_full (full : max < c.log.ring.published + entryOsBlock) :
    ∃ c', entryOsReserve max c = (false, c') ∧ c.Extends max c' := by
  have published := published_of_signed (sound.signed live)
  have size := sound.size
  have beyond : max < u32 (c.log.ring.size + entryOsBlock) := by
    rw [u32_of_lt (by omega), ← published]
    exact full
  rw [entryOsReserve, if_pos (Or.inr beyond)]
  have limited : c.Extends max { c with os := { c.os with limited := 2 } } :=
    ⟨.refl max c.log, id, Or.inl, rfl, rfl, rfl⟩
  exact ⟨_, rfl, limited.trans (write_extends max _ _)⟩

end Reserving

end Stage90.Console

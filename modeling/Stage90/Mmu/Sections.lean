import Stage90.Console.LiveConsole
import Stage90.Mmu.WalkRefines
import Mathlib.Data.Bool.AllAny

/-!
# Sections in a live table

The bring-up of the live channel, with the three sections that it puts in, and the sections that
`entry_mmio_section` puts in afterwards.  The records of the channel are not part of this memory.
-/

set_option autoImplicit false

namespace Stage90.Mmu

open Stage90.Lib

def liveConsoleAliasBase : UInt32 := 0xde500000 + 0x01000000
def sctlrTre : UInt32 := 0x10000000

/-- What a call finds: the memory and the system registers. -/
structure Readings where
  mem : Nat → UInt32
  ttbr0 : UInt32
  ttbr1 : Ttbr1
  ttbcr : UInt32
  dacr : UInt32
  sctlr : UInt32
  prrr : UInt32

/-- The statics of the channel.  `upAt` is a ghost: what the bring-up found. -/
structure Channel where
  state : UInt32
  attempts : UInt32
  refuse : UInt32
  attr : UInt32
  slotBefore : UInt32
  desc : UInt32
  desc2 : UInt32
  installed : UInt32
  upAt : Option Readings

def machine (ch : Channel) (r : Readings) : Machine :=
  ⟨r.mem, r.ttbr0, r.ttbr1, r.ttbcr, 0, 0, ch.state, ch.attr⟩

def Installed.put (i : Installed) (mem : Nat → UInt32) : Nat → UInt32 :=
  Function.update mem i.slot.toNat i.desc

def sectionSlot (l1 va : UInt32) : UInt32 := l1 + (4 : UInt32) * (va >>> 20)

def entryLiveRefuse (ch : Channel) (why : UInt32) : Channel :=
  { ch with refuse := if ch.refuse = 0 then why else ch.refuse, state := 2 }

/-- `ARM_TTE_BLOCK_ATTRINDX`. -/
def attrIndex (i : UInt32) : UInt32 :=
  (((i >>> 1) &&& 1) <<< 3) ||| ((i &&& 1) <<< 2) ||| (((i >>> 2) &&& 1) <<< 12)

/-- The attribute of the first encoding that is Strongly-ordered. -/
def liveAttr (sctlr prrr : UInt32) : Option UInt32 :=
  if sctlr &&& sctlrTre ≠ 0 then
    ((List.range 8).find? fun i => (prrr >>> UInt32.ofNat (2 * i)) &&& 3 = 0).map fun i =>
      attrIndex (UInt32.ofNat i)
  else some 0

/-- It is the attribute of the channel's own model. -/
theorem liveAttr_console (m : Console.Machine) : Console.liveAttr m = liveAttr m.sctlr m.prrr := rfl

def entryLiveMap (ch : Channel) (r : Readings) (va pa l1 bit : UInt32) :
    UInt32 × Channel × (Nat → UInt32) :=
  let before := r.mem (sectionSlot l1 va).toNat
  let ch' := if ch.slotBefore = 0 then { ch with slotBefore := before } else ch
  match entrySectionInstall (machine ch r) va pa l1 with
  | none => (0, ch', r.mem)
  | some i =>
      (bit, if ch'.desc = 0 then { ch' with desc := i.desc } else { ch' with desc2 := i.desc },
        i.put r.mem)

/-- The sections of the console: its two megabytes, and the first once more. -/
def consoleSections : List (UInt32 × UInt32) :=
  [(0xde500000, 0xde500000), (0xde600000, 0xde600000), (liveConsoleAliasBase, 0xde500000)]

/-- The three calls of `entry_live_map`, and `g_live_installed`. -/
def liveSections (ch : Channel) (r : Readings) (l1 : UInt32) : Channel × (Nat → UInt32) :=
  let one := entryLiveMap ch r 0xde500000 0xde500000 l1 1
  let two := entryLiveMap one.2.1 { r with mem := one.2.2 } 0xde600000 0xde600000 l1 2
  let four := entryLiveMap two.2.1 { r with mem := two.2.2 } liveConsoleAliasBase 0xde500000 l1 4
  ({ four.2.1 with installed := one.1 ||| two.1 ||| four.1 }, four.2.2)

def entryLiveInit (ch : Channel) (r : Readings) : Channel × (Nat → UInt32) :=
  let ch := { ch with attempts := ch.attempts + 1 }
  let l1 := entryLiveTtbBase (machine ch r)
  if l1 < 0x80000000 ∨ l1 &&& 0x3fff ≠ 0 then
    (if ch.attempts < 8 then ch else entryLiveRefuse ch 1, r.mem)
  else
    match liveAttr r.sctlr r.prrr with
    | none => (entryLiveRefuse ch 5, r.mem)
    | some attr =>
        let ch := { ch with attr := attr }
        if r.dacr &&& 3 = 0 then (entryLiveRefuse ch 3, r.mem)
        else
          let mapped := liveSections ch r l1
          if mapped.1.installed &&& 1 = 0 then (entryLiveRefuse mapped.1 2, mapped.2)
          else if mapped.2 0xde500000 ≠ Console.ramConsoleSig then
            (entryLiveRefuse mapped.1 4, mapped.2)
          else ({ mapped.1 with state := 1, upAt := some r }, mapped.2)

/-- The part of `entry_live_write` in which the channel comes up. -/
def bringUp (ch : Channel) (r : Readings) : Channel × (Nat → UInt32) :=
  if ch.state = 0 then entryLiveInit ch r else (ch, r.mem)

def noChannel : Channel := ⟨0, 0, 0, 0, 0, 0, 0, 0, none⟩

def channelAfter (writes : List Readings) : Channel :=
  writes.foldl (fun ch r => (bringUp ch r).1) noChannel

/-! ## Descriptors -/

/-- The descriptor maps the megabyte of `pa`, strongly ordered under these registers. -/
structure MapsOrdered (sctlr prrr desc pa : UInt32) : Prop where
  type : desc.toNat % 4 = 2
  plain : desc.toNat / 2 ^ 18 % 2 = 0
  base : desc.toNat / 2 ^ 20 = pa.toNat / 2 ^ 20
  ordered : sectionType (decide (sctlr &&& sctlrTre ≠ 0)) prrr desc = .stronglyOrdered

/-- The word of the recipe, `attr` being the attribute. -/
def sectionWord (pa attr : UInt32) : UInt32 :=
  (pa &&& liveTtePaMask) ||| liveTteTypeBlock ||| liveTteBlockAf ||| liveTteBlockSh ||| attr

theorem sectionWord_toNat (pa : UInt32) {attr : UInt32}
    (low : (0x10402 ||| attr).toNat < 2 ^ 20) :
    (sectionWord pa attr).toNat = pa.toNat / 2 ^ 20 * 2 ^ 20 + (0x10402 ||| attr).toNat := by
  have mask : liveTtePaMask = ~~~(((1 : UInt32) <<< 20) - 1) := rfl
  have word : sectionWord pa attr = (pa &&& ~~~(((1 : UInt32) <<< 20) - 1)) ||| (0x10402 ||| attr) := by
    rw [sectionWord, mask, UInt32.or_assoc, UInt32.or_assoc, UInt32.or_assoc]
    congr 1
    rw [← UInt32.or_assoc, ← UInt32.or_assoc]
    rfl
  rw [word, toNat_join_of_lt pa _ (by decide) low]
  rfl

theorem attrIndex_word {i : Nat} (small : i < 8) :
    (0x10402 ||| attrIndex (UInt32.ofNat i)).toNat < 2 ^ 18 ∧
      (0x10402 ||| attrIndex (UInt32.ofNat i)).toNat % 4 = 2 ∧
      (0x10402 ||| attrIndex (UInt32.ofNat i)).toNat / 2 ^ 12 % 2 * 4 +
        (0x10402 ||| attrIndex (UInt32.ofNat i)).toNat / 8 % 2 * 2 +
        (0x10402 ||| attrIndex (UInt32.ofNat i)).toNat / 4 % 2 = i := by
  have all : ∀ i : Fin 8, (0x10402 ||| attrIndex (UInt32.ofNat i.val)).toNat < 2 ^ 18 ∧
      (0x10402 ||| attrIndex (UInt32.ofNat i.val)).toNat % 4 = 2 ∧
      (0x10402 ||| attrIndex (UInt32.ofNat i.val)).toNat / 2 ^ 12 % 2 * 4 +
        (0x10402 ||| attrIndex (UInt32.ofNat i.val)).toNat / 8 % 2 * 2 +
        (0x10402 ||| attrIndex (UInt32.ofNat i.val)).toNat / 4 % 2 = i.val := by decide
  exact all ⟨i, small⟩

/-- Without remapping the attribute is 0, with it the index's field of `PRRR` is. -/
theorem liveAttr_cases {sctlr prrr attr : UInt32} (derived : liveAttr sctlr prrr = some attr) :
    (¬ sctlr &&& sctlrTre ≠ 0 ∧ attr = 0) ∨
      sctlr &&& sctlrTre ≠ 0 ∧ ∃ i < 8, attr = attrIndex (UInt32.ofNat i) ∧
        prrr.toNat / 2 ^ (2 * i) % 4 = 0 := by
  rw [liveAttr] at derived
  by_cases tre : sctlr &&& sctlrTre ≠ 0
  · rw [if_pos tre, Option.map_eq_some_iff] at derived
    obtain ⟨i, found, word⟩ := derived
    have small := List.mem_range.mp (List.mem_of_find?_eq_some found)
    have passes := List.find?_some found
    have field : (prrr >>> UInt32.ofNat (2 * i)) &&& 3 = 0 := of_decide_eq_true passes
    have shift : (UInt32.ofNat (2 * i)).toNat = 2 * i := UInt32.toNat_ofNat_of_lt' (by
      change 2 * i < 2 ^ 32
      omega)
    have bits := @toNat_field prrr (UInt32.ofNat (2 * i)) 3 2 (by omega) (by decide)
    rw [field, shift] at bits
    exact Or.inr ⟨tre, i, small, word.symm, bits.symm⟩
  · rw [if_neg tre] at derived
    exact Or.inl ⟨tre, (Option.some.inj derived).symm⟩

theorem liveAttr_ordered {sctlr prrr attr : UInt32} (derived : liveAttr sctlr prrr = some attr)
    (pa : UInt32) : MapsOrdered sctlr prrr (sectionWord pa attr) pa := by
  rcases liveAttr_cases derived with ⟨plain, zero⟩ | ⟨tre, i, small, word, field⟩
  · have low : ((0x10402 : UInt32) ||| 0).toNat = 0x10402 := rfl
    have bits := @sectionWord_toNat pa 0 (by decide)
    rw [low] at bits
    subst zero
    refine ⟨by omega, by omega, by omega, ?_⟩
    have tex : (sectionWord pa 0).toNat / 2 ^ 12 % 8 = 0 := by omega
    have c : (sectionWord pa 0).toNat / 8 % 2 = 0 := by omega
    have b : (sectionWord pa 0).toNat / 4 % 2 = 0 := by omega
    rw [decide_eq_false plain, sectionType, if_neg Bool.false_ne_true, tex, c, b]
    rfl
  · obtain ⟨below, type, index⟩ := attrIndex_word small
    rw [← word] at below type index
    have bits := @sectionWord_toNat pa attr (by omega)
    have same : remapIndex (sectionWord pa attr) = i := by
      rw [remapIndex]
      omega
    refine ⟨by omega, by omega, by omega, ?_⟩
    rw [decide_eq_true tre, sectionType, if_pos rfl, same, remappedType, field]
    rfl

/-! ## One section -/

def Answers (r : Readings) (va : UInt32) : Prop :=
  (r.ttbcr &&& 7) = 0 ∨ ¬ Low (r.ttbcr &&& 7).toNat va

/-- The walk ends in the descriptor, at the megabyte that was asked for. -/
structure Reached (r : Readings) (mem : Nat → UInt32) (va pa desc : UInt32) : Prop where
  ends : ∃ first, walk mem r.ttbr0 r.ttbr1 (r.ttbcr &&& 7).toNat va = .block first desc
  output : (walk mem r.ttbr0 r.ttbr1 (r.ttbcr &&& 7).toNat va).output va =
    some (pa.toNat / 2 ^ 20 * 2 ^ 20 + va.toNat % 2 ^ 20)

theorem slot_toNat (ch : Channel) {r : Readings} {va : UInt32} (answers : Answers r va) :
    (sectionSlot (entryLiveTtbBase (machine ch r)) va).toNat =
      (level1 r.ttbr0 r.ttbr1 (r.ttbcr &&& 7).toNat va).addr := by
  have index : (4 : UInt32) * (va >>> 20) = ((va >>> 20) &&& 0xfff) <<< 2 := by
    rw [← UInt32.toNat_inj, index1_toNat, UInt32.toNat_mul, UInt32.toNat_shiftRight]
    have four : (4 : UInt32).toNat = 4 := rfl
    have twenty : (20 : UInt32).toNat % 32 = 20 := rfl
    have below := va.toNat_lt
    rw [four, twenty, Nat.shiftRight_eq_div_pow]
    omega
  have table : (if (machine ch r).n = 0 then r.ttbr0 else r.ttbr1.word) =
      if Low (machine ch r).n.toNat va then r.ttbr0 else r.ttbr1.word := by
    by_cases one : (machine ch r).n = 0
    · have low := (low_iff (machine ch r) va).mp (Or.inl one)
      rw [if_pos one, if_pos low]
    · have high := answers.resolve_left one
      rw [if_neg one]
      exact (if_neg high).symm
  rw [sectionSlot, index, entryLiveTtbBase]
  exact (congrArg (fun base => (entryTtbrBase base (machine ch r).n +
    (((va >>> 20) &&& 0xfff) <<< 2)).toNat) table).trans (@first_toNat (machine ch r) va).2

theorem walk_mapsOrdered (ch : Channel) {r : Readings} {mem : Nat → UInt32} {va pa : UInt32}
    {sctlr prrr desc : UInt32} (answers : Answers r va)
    (word : mem (sectionSlot (entryLiveTtbBase (machine ch r)) va).toNat = desc)
    (maps : MapsOrdered sctlr prrr desc pa) : Reached r mem va pa desc := by
  rw [slot_toNat ch answers] at word
  have ends := walk_block mem r.ttbr0 r.ttbr1 (r.ttbcr &&& 7).toNat va word maps.type maps.plain
  refine ⟨⟨_, ends⟩, ?_⟩
  rw [ends, Translation.output, maps.base]

/-- A section was free, holds the descriptor, and is the only word that has changed. -/
structure Puts (mem mem' : Nat → UInt32) (slot : Nat) (desc : UInt32) : Prop where
  free : mem slot &&& liveTteTypeMask = 0
  holds : mem' slot = desc
  frame : ∀ p, p ≠ slot → mem' p = mem p

theorem entrySectionInstall_some {m : Machine} {va pa l1 : UInt32} {i : Installed}
    (done : entrySectionInstall m va pa l1 = some i) :
    i.slot = sectionSlot l1 va ∧ i.before = m.mem i.slot.toNat ∧
      i.desc = sectionWord pa m.liveAttr ∧
      Puts m.mem (i.put m.mem) (sectionSlot l1 va).toNat i.desc := by
  rw [entrySectionInstall] at done
  split at done
  · cases done
  · rename_i free
    cases done
    refine ⟨rfl, rfl, rfl, not_not.mp free, Function.update_self _ _ _, ?_⟩
    intro p other
    exact Function.update_of_ne other _ _

/-! ## The bring-up -/

/-- Every word is as it was, or a free slot of one of the sections that maps it now. -/
def Brings (r : Readings) (l1 : UInt32) (mem : Nat → UInt32) : Prop :=
  ∀ p, mem p = r.mem p ∨ ∃ va pa, (va, pa) ∈ consoleSections ∧ p = (sectionSlot l1 va).toNat ∧
    r.mem p &&& liveTteTypeMask = 0 ∧ MapsOrdered r.sctlr r.prrr (mem p) pa

theorem mapsOrdered_occupied {sctlr prrr desc pa : UInt32} (maps : MapsOrdered sctlr prrr desc pa) :
    desc &&& liveTteTypeMask ≠ 0 := by
  intro free
  have mask : liveTteTypeMask.toNat = 2 ^ 2 - 1 := rfl
  have type := maps.type
  have low := congrArg UInt32.toNat free
  rw [UInt32.toNat_and, mask, Nat.and_two_pow_sub_one_eq_mod] at low
  have zero : (0 : UInt32).toNat = 0 := rfl
  omega

theorem entryLiveMap_brings {ch : Channel} {r : Readings} {mem : Nat → UInt32} {l1 va pa : UInt32}
    (bit : UInt32) (derived : liveAttr r.sctlr r.prrr = some ch.attr)
    (known : (va, pa) ∈ consoleSections) (brings : Brings r l1 mem) :
    Brings r l1 (entryLiveMap ch { r with mem := mem } va pa l1 bit).2.2 ∧
      (entryLiveMap ch { r with mem := mem } va pa l1 bit).2.1.attr = ch.attr := by
  rw [entryLiveMap]
  dsimp only
  have kept : (if ch.slotBefore = 0 then
      { ch with slotBefore := mem (sectionSlot l1 va).toNat } else ch).attr = ch.attr := by
    split
    · rfl
    · rfl
  generalize (if ch.slotBefore = 0 then
    { ch with slotBefore := mem (sectionSlot l1 va).toNat } else ch) = ch' at kept
  cases install : entrySectionInstall (machine ch { r with mem := mem }) va pa l1 with
  | none => exact ⟨brings, kept⟩
  | some i =>
      have installed := entrySectionInstall_some install
      have word : i.desc = sectionWord pa ch.attr := installed.2.2.1
      have puts : Puts mem (i.put mem) (sectionSlot l1 va).toNat i.desc := installed.2.2.2
      constructor
      · intro p
        by_cases here : p = (sectionSlot l1 va).toNat
        · have maps := liveAttr_ordered derived pa
          right
          refine ⟨va, pa, known, here, ?_, ?_⟩
          · subst here
            cases brings (sectionSlot l1 va).toNat with
            | inl same =>
                rw [← same]
                exact puts.free
            | inr earlier =>
                obtain ⟨_, _, _, _, _, occupied⟩ := earlier
                exact absurd puts.free (mapsOrdered_occupied occupied)
          · dsimp only
            rw [here]
            have now := puts.holds.trans word
            exact Eq.mpr (congrArg (fun d => MapsOrdered r.sctlr r.prrr d pa) now) maps
        · have same := puts.frame p here
          dsimp only
          rw [same]
          exact brings p
      · dsimp only
        split
        · exact kept
        · exact kept

theorem liveSections_brings {ch : Channel} {r : Readings} {l1 : UInt32}
    (derived : liveAttr r.sctlr r.prrr = some ch.attr) :
    Brings r l1 (liveSections ch r l1).2 ∧ (liveSections ch r l1).1.attr = ch.attr := by
  have still : Brings r l1 r.mem := fun p => Or.inl rfl
  have known : (0xde500000, 0xde500000) ∈ consoleSections ∧
      (0xde600000, 0xde600000) ∈ consoleSections ∧
      (liveConsoleAliasBase, 0xde500000) ∈ consoleSections := by decide
  rw [liveSections]
  dsimp only
  have first : Brings r l1 (entryLiveMap ch r 0xde500000 0xde500000 l1 1).2.2 ∧
      (entryLiveMap ch r 0xde500000 0xde500000 l1 1).2.1.attr = ch.attr :=
    entryLiveMap_brings 1 derived known.1 still
  generalize entryLiveMap ch r 0xde500000 0xde500000 l1 1 = one at first
  obtain ⟨brings, attr⟩ := first
  have second := entryLiveMap_brings 2 (derived.trans (congrArg some attr.symm)) known.2.1 brings
  generalize entryLiveMap one.2.1 { r with mem := one.2.2 } 0xde600000 0xde600000 l1 2 = two
    at second
  obtain ⟨brings', attr'⟩ := second
  have same := attr'.trans attr
  have third := entryLiveMap_brings 4 (derived.trans (congrArg some same.symm)) known.2.2 brings'
  exact ⟨third.1, third.2.trans same⟩

/-- What the bring-up does: nothing, or its three sections, of which none is in an occupied slot. -/
theorem entryLiveInit_brings (ch : Channel) (r : Readings) :
    Brings r (entryLiveTtbBase (machine ch r)) (entryLiveInit ch r).2 ∧
      ((entryLiveInit ch r).1.state = 1 → ch.state = 1 ∨
        (entryLiveInit ch r).1.upAt = some r ∧
          liveAttr r.sctlr r.prrr = some (entryLiveInit ch r).1.attr) := by
  have still : Brings r (entryLiveTtbBase (machine ch r)) r.mem := fun p => Or.inl rfl
  have refused (ch : Channel) (why : UInt32) : (entryLiveRefuse ch why).state ≠ 1 := by
    intro live
    exact absurd (show (2 : UInt32) = 1 from live) (by decide)
  rw [entryLiveInit]
  dsimp only
  by_cases window : entryLiveTtbBase (machine { ch with attempts := ch.attempts + 1 } r) <
      0x80000000 ∨ entryLiveTtbBase (machine { ch with attempts := ch.attempts + 1 } r) &&&
        0x3fff ≠ 0
  · rw [if_pos window]
    refine ⟨still, ?_⟩
    dsimp only
    split
    · exact Or.inl
    · intro live
      exact absurd live (refused _ 1)
  rw [if_neg window]
  cases derived : liveAttr r.sctlr r.prrr with
  | none => exact ⟨still, fun live => absurd live (refused _ 5)⟩
  | some attr =>
      dsimp only
      by_cases domain : r.dacr &&& 3 = 0
      · rw [if_pos domain]
        exact ⟨still, fun live => absurd live (refused _ 3)⟩
      rw [if_neg domain]
      have mapped := @liveSections_brings { ch with attempts := ch.attempts + 1, attr := attr } r
        (entryLiveTtbBase (machine ch r)) derived
      split
      · exact ⟨mapped.1, fun live => absurd live (refused _ 2)⟩
      split
      · exact ⟨mapped.1, fun live => absurd live (refused _ 4)⟩
      · exact ⟨mapped.1, fun _ => Or.inr ⟨rfl, congrArg some mapped.2.symm⟩⟩

/-! ## Runs -/

/-- A live channel has the attribute of the registers that one of the writes found. -/
def Latched (writes : List Readings) (ch : Channel) : Prop :=
  ch.state = 1 → ∃ up ∈ writes, liveAttr up.sctlr up.prrr = some ch.attr

theorem channelAfter_latched (writes : List Readings) : Latched writes (channelAfter writes) := by
  induction writes using List.reverseRecOn with
  | nil => exact fun live => absurd (show (0 : UInt32) = 1 from live) (by decide)
  | append_singleton writes r ih =>
      have last : channelAfter (writes ++ [r]) = (bringUp (channelAfter writes) r).1 := by
        rw [channelAfter, List.foldl_append]
        rfl
      have earlier (live : (channelAfter writes).state = 1) :
          ∃ up ∈ writes ++ [r], liveAttr up.sctlr up.prrr = some (channelAfter writes).attr := by
        obtain ⟨up, member, derived⟩ := ih live
        exact ⟨up, List.mem_append_left _ member, derived⟩
      rw [last, Latched, bringUp]
      by_cases idle : (channelAfter writes).state = 0
      · rw [if_pos idle]
        intro live
        cases (entryLiveInit_brings (channelAfter writes) r).2 live with
        | inl before => exact absurd (idle.symm.trans before) (by decide)
        | inr up => exact ⟨r, List.mem_append_right _ (List.mem_singleton_self r), up.2⟩
      · rw [if_neg idle]
        exact earlier

theorem bringUp_brings (ch : Channel) (r : Readings) :
    Brings r (entryLiveTtbBase (machine ch r)) (bringUp ch r).2 := by
  rw [bringUp]
  split
  · exact (entryLiveInit_brings ch r).1
  · exact fun p => Or.inl rfl

theorem entryMmioSection_some {ch : Channel} {r : Readings} {va pa : UInt32} {i : Installed}
    (done : entryMmioSection (machine ch r) va pa = some i) :
    ch.state = 1 ∧ entrySectionInstall (machine ch r) va pa (entryLiveTtbBase (machine ch r)) =
      some i := by
  rw [entryMmioSection] at done
  split at done
  · cases done
  · rename_i live
    dsimp only at done
    split at done
    · cases done
    · exact ⟨not_not.mp live, done⟩

theorem Installed.restores {i : Installed} {mem : Nat → UInt32} (before : i.before = mem i.slot.toNat)
    (pa : UInt32) : (i.read mem pa).2 = mem := by
  rw [Installed.read, before, Function.update_idem]
  exact Function.update_eq_self _ _

/-- The alias leaves the memory as it found it, whichever section it takes, or none. -/
theorem aliased_restores (ch : Channel) (r : Readings) (w : WalkStatics) (pa : UInt32) :
    (stage90ReadL2WordAliased (machine ch r) w pa).2.2 = r.mem := by
  have restored {va sect : UInt32} {i : Installed}
      (done : entryMmioSection (machine ch r) va sect = some i) (off : UInt32) :
      (i.read r.mem off).2 = r.mem :=
    Installed.restores (entrySectionInstall_some (entryMmioSection_some done).2).2.1 off
  rw [stage90ReadL2WordAliased]
  dsimp only
  cases first : entryMmioSection (machine ch r) abtpteAliasVaA (pa &&& abtpteSectMask) with
  | some i => exact restored first ((pa &&& abtpteSectMask) + (pa &&& 0x000fffff))
  | none =>
      dsimp only
      cases second : entryMmioSection (machine ch r) abtpteAliasVaB (pa &&& abtpteSectMask) with
      | some i => exact restored second ((pa &&& abtpteSectMask) + (pa &&& 0x000fffff))
      | none => rfl

theorem answers_high (r : Readings) {va : UInt32} (high : 0x80000000 ≤ va.toNat) :
    Answers r va := by
  by_cases one : r.ttbcr &&& 7 = 0
  · exact Or.inl one
  · right
    have some_ : (r.ttbcr &&& 7).toNat ≠ 0 := fun none_ => one (UInt32.toNat_inj.mp none_)
    have half : 2 ^ (32 - (r.ttbcr &&& 7).toNat) ≤ 2 ^ 31 :=
      Nat.pow_le_pow_right (by decide) (by omega)
    rw [Low]
    omega

/-- What the calls do to the words of memory, `writes` being the live writes so far. -/
structure AsFound (writes : List Readings) (r : Readings) : Prop where
  console : Brings r (entryLiveTtbBase (machine (channelAfter writes) r))
    (bringUp (channelAfter writes) r).2
  reached : ∀ va pa, (va, pa) ∈ consoleSections →
    let slot := (sectionSlot (entryLiveTtbBase (machine (channelAfter writes) r)) va).toNat
    (bringUp (channelAfter writes) r).2 slot = r.mem slot ∨
      ∃ desc, Reached r (bringUp (channelAfter writes) r).2 va pa desc
  device : ∀ va pa i, entryMmioSection (machine (channelAfter writes) r) va pa = some i →
    Puts r.mem (i.put r.mem)
        (sectionSlot (entryLiveTtbBase (machine (channelAfter writes) r)) va).toNat i.desc ∧
      (∃ up ∈ writes, MapsOrdered up.sctlr up.prrr i.desc pa) ∧
      (Answers r va → Reached r (i.put r.mem) va pa i.desc)
  word : ∀ w pa, (stage90ReadL2WordAliased (machine (channelAfter writes) r) w pa).2.2 = r.mem

theorem consoleSections_high {va pa : UInt32} (known : (va, pa) ∈ consoleSections) :
    0x80000000 ≤ va.toNat := by
  have all : ∀ s ∈ consoleSections, 0x80000000 ≤ s.1.toNat := List.all_iff_forall_prop.mp rfl
  exact all _ known

theorem sectionSlot_inj {l1 va va' : UInt32} (same : sectionSlot l1 va = sectionSlot l1 va') :
    va >>> 20 = va' >>> 20 := by
  have index (v : UInt32) : ((4 : UInt32) * (v >>> 20)).toNat = 4 * (v >>> 20).toNat ∧
      (v >>> 20).toNat < 4096 := by
    have four : (4 : UInt32).toNat = 4 := rfl
    have twenty : (20 : UInt32).toNat % 32 = 20 := rfl
    have below := v.toNat_lt
    rw [UInt32.toNat_mul, UInt32.toNat_shiftRight, four, twenty, Nat.shiftRight_eq_div_pow]
    omega
  have words := congrArg UInt32.toNat (UInt32.add_right_inj l1 |>.mp same)
  rw [(index va).1, (index va').1] at words
  exact UInt32.toNat_inj.mp (by omega)

/-- Two sections of the console in one slot are of one megabyte. -/
theorem consoleSections_apart {va va' pa pa' : UInt32} (known : (va, pa) ∈ consoleSections)
    (known' : (va', pa') ∈ consoleSections) (same : va >>> 20 = va' >>> 20) : pa = pa' := by
  have all : ∀ s ∈ consoleSections,
      (consoleSections.all fun s' => s.1 >>> 20 = s'.1 >>> 20 → s.2 = s'.2) = true :=
    List.all_iff_forall_prop.mp rfl
  exact List.all_iff_forall_prop.mp (all _ known) _ known' same

/-- After any live writes: sections go to free slots and change nothing else, the ones of the
bring-up are ordered under the registers it finds and later ones under those it has found, they
map what was asked for, and the aliased read leaves no trace. -/
theorem sections_as_found (writes : List Readings) (r : Readings) : AsFound writes r := by
  have brings := bringUp_brings (channelAfter writes) r
  refine ⟨brings, ?_, ?_, aliased_restores (channelAfter writes) r⟩
  · intro va pa known slot
    cases brings slot with
    | inl same => exact Or.inl same
    | inr changed =>
        right
        obtain ⟨va', pa', known', here, _, maps⟩ := changed
        have same := consoleSections_apart known known' (sectionSlot_inj (UInt32.toNat_inj.mp here))
        rw [← same] at maps
        exact ⟨_, walk_mapsOrdered (channelAfter writes)
          (answers_high r (consoleSections_high known)) rfl maps⟩
  · intro va pa i done
    obtain ⟨live, install⟩ := entryMmioSection_some done
    obtain ⟨_, _, word, puts⟩ := entrySectionInstall_some install
    obtain ⟨up, member, derived⟩ := channelAfter_latched writes live
    have maps : MapsOrdered up.sctlr up.prrr i.desc pa := by
      rw [word]
      exact liveAttr_ordered derived pa
    refine ⟨puts, ⟨up, member, maps⟩, ?_⟩
    intro answers
    exact walk_mapsOrdered (channelAfter writes) answers puts.holds maps

/-! ## Later registers -/

def emptyTables (p : Nat) : UInt32 := if p = 0xde500000 then Console.ramConsoleSig else 0

/-- One table, with remapping; every field of `PRRR` is 0. -/
def atBringUp : Readings :=
  ⟨emptyTables, 0x80000000, ⟨0x80004000, by decide⟩, 0, 1, sctlrTre, 0⟩

/-- A later section maps its address, strongly ordered under the registers that are current. -/
def MapsNow (writes : List Readings) (r : Readings) (va pa : UInt32) : Prop :=
  ∀ i, entryMmioSection (machine (channelAfter writes) r) va pa = some i →
    MapsOrdered r.sctlr r.prrr i.desc pa ∧ Reached r (i.put r.mem) va pa i.desc

/-- A low address is not the table's, and the attribute is not the current one. -/
theorem later_section_differs :
    ¬ MapsNow [atBringUp] { atBringUp with ttbcr := 2 } 0x0fa00000 0x0fa00000 ∧
      ¬ MapsNow [atBringUp] { atBringUp with prrr := 2 } 0xf9000000 0xf9000000 := by
  constructor
  · intro maps
    have found : entryMmioSection
        (machine (channelAfter [atBringUp]) { atBringUp with ttbcr := 2 }) 0x0fa00000 0x0fa00000 =
          some ⟨0x800043e8, 0, 0x0fa10402⟩ := rfl
    obtain ⟨first, ends⟩ := (maps _ found).2.ends
    have fault : walk (Installed.put ⟨0x800043e8, 0, 0x0fa10402⟩ emptyTables) 0x80000000
        ⟨0x80004000, by decide⟩ 2 0x0fa00000 = .fault := by decide +kernel
    exact Translation.noConfusion (fault.symm.trans ends)
  · intro maps
    have found : entryMmioSection
        (machine (channelAfter [atBringUp]) { atBringUp with prrr := 2 }) 0xf9000000 0xf9000000 =
          some ⟨0x80003e40, 0, 0xf9010402⟩ := rfl
    have ordered := (maps _ found).1.ordered
    exact absurd ordered (by decide +kernel)

end Stage90.Mmu

import Mathlib.Data.List.Basic
import Stage90.MachO.LoaderAccess

/-!
# The loader in its window

From the accesses of one turn to those of a run, and what a run writes.
-/

set_option autoImplicit false

namespace Stage90.MachO

open Stage90.Lib

variable {env : Env}

/-! ## Runs -/

theorem forall_commandLoopAccesses {P : Access → Prop} (room : UInt32 → Nat) (mem : Mem)
    (turns n : Nat) :
    (∀ x ∈ commandLoopAccesses env room turns (stateAt env mem n), P x) ↔
      ∀ m < turns, (∀ j ≤ m, (stateAt env mem (n + j)).more env) →
        ∀ x ∈ turnAccesses env (room (UInt32.ofNat (n + m))) (stateAt env mem (n + m)), P x := by
  induction turns generalizing n with
  | zero =>
      constructor
      · intro _ m none_
        exact absurd none_ (Nat.not_lt_zero m)
      · intro _ x there
        exact absurd there List.not_mem_nil
  | succ turns ih =>
      rw [commandLoopAccesses]
      by_cases more : (stateAt env mem n).more env
      · rw [if_pos more, ← stateAt_succ, List.forall_mem_append, ih (n + 1), stateAt_i]
        constructor
        · intro ⟨first, later⟩ m within reached
          cases m with
          | zero => exact first
          | succ m =>
              have next := later m (Nat.lt_of_succ_lt_succ within)
              rw [Nat.add_right_comm, Nat.add_assoc] at next
              apply next
              intro j early
              rw [Nat.add_right_comm, Nat.add_assoc]
              exact reached (j + 1) (Nat.succ_le_succ early)
        · intro all
          refine ⟨?_, ?_⟩
          · apply all 0 (Nat.succ_pos turns)
            intro j first
            rw [Nat.le_zero.mp first]
            exact more
          · intro m within reached
            have next := all (m + 1) (Nat.succ_lt_succ within)
            rw [Nat.add_right_comm, Nat.add_assoc]
            apply next
            intro j early
            cases j with
            | zero => exact more
            | succ j =>
                have later := reached j (Nat.le_of_succ_le_succ early)
                rw [Nat.add_right_comm, Nat.add_assoc] at later
                exact later
      · rw [if_neg more]
        constructor
        · intro _ m _ reached
          exact absurd (reached 0 (Nat.zero_le m)) more
        · intro _ x there
          exact absurd there List.not_mem_nil

/-- The accesses of a run are those of the turns that the loop gets to. -/
theorem forall_runAccesses {P : Access → Prop} (room : UInt32 → Nat) (mem : Mem) :
    (∀ x ∈ runAccesses env room mem, P x) ↔
      (read32 mem env.machoBase = mhMagic → ∀ k, Reached env mem k →
        ∀ x ∈ turnAccesses env (room (UInt32.ofNat k)) (stateAt env mem k), P x) := by
  rw [runAccesses]
  by_cases magic : read32 mem env.machoBase = mhMagic
  · have turns := @forall_commandLoopAccesses env P room mem (2 ^ 32) 0
    simp only [Nat.zero_add] at turns
    rw [if_neg (not_not_intro magic)]
    refine turns.trans ?_
    constructor
    · intro all _ k reached
      have bound := reached_lt reached
      exact all k (by omega) reached
    · intro all k _ reached
      exact all magic k reached
  · rw [if_pos magic]
    constructor
    · intro _ magic'
      exact absurd magic' magic
    · intro _ x there
      exact absurd there List.not_mem_nil

/-! ## What a run writes -/

/-- No access of the list writes the byte at `a`. -/
def Spares (accesses : List Access) (a : UInt32) : Prop :=
  ∀ x ∈ accesses, x.kind = .write → ¬ x.Covers a

theorem spares_append {one two : List Access} {a : UInt32} :
    Spares (one ++ two) a ↔ Spares one a ∧ Spares two a :=
  List.forall_mem_append

theorem spares_cons {x : Access} {accesses : List Access} {a : UInt32} :
    Spares (x :: accesses) a ↔ (x.kind = .write → ¬ x.Covers a) ∧ Spares accesses a :=
  List.forall_mem_cons

theorem copyAccesses_frame {seg : Segment} {mem : Mem} {a : UInt32}
    (spares : Spares (copyAccesses env seg) a) :
    memset (memcpy mem seg.vmaddr (env.machoBase + seg.fileoff) seg.filesize)
      (seg.vmaddr + seg.filesize) 0 (seg.vmsize - seg.filesize) a = mem a := by
  rw [copyAccesses, spares_append] at spares
  obtain ⟨copy, fill⟩ := spares
  have uncopied : ¬ a - seg.vmaddr < seg.filesize := by
    intro covers
    have some_ : 0 < seg.filesize :=
      UInt32.lt_of_le_of_lt UInt32.zero_le covers
    rw [if_pos some_, spares_cons, spares_cons] at copy
    exact copy.2.1 rfl (UInt32.lt_iff_toNat_lt.mp covers)
  have unfilled : ¬ a - (seg.vmaddr + seg.filesize) < seg.vmsize - seg.filesize := by
    intro covers
    have some_ : 0 < seg.vmsize - seg.filesize :=
      UInt32.lt_of_le_of_lt UInt32.zero_le covers
    rw [if_pos some_, spares_cons] at fill
    exact fill.1 rfl (UInt32.lt_iff_toNat_lt.mp covers)
  rw [memset, if_neg unfilled, memcpy_outside uncopied]

theorem loadSegment_frame {room : Nat} {mem : Mem} {p : UInt32} {r : Result} {a : UInt32}
    (spares : Spares (loadSegmentAccesses env room mem p r) a) :
    (loadSegment env mem (segmentAt mem p) r).1 a = mem a := by
  rw [loadSegmentAccesses, spares_cons] at spares
  replace spares := spares.2
  rw [loadSegment]
  by_cases none_ : (segmentAt mem p).vmsize = 0
  · rw [if_pos none_]
  · rw [if_neg none_, spares_cons] at spares
    replace spares := spares.2
    rw [if_neg none_]
    dsimp only
    by_cases live : (!env.live) = true
    · rw [if_pos live]
    · rw [if_neg live] at spares ⊢
      split
      · rfl
      · rename_i inside
        rw [if_neg inside] at spares
        split
        · rfl
        · rename_i within
          rw [if_neg within, spares_cons, spares_cons, spares_append] at spares
          rw [memcpy_guard, memset_guard]
          exact copyAccesses_frame spares.2.2.1

theorem loadCommand_frame {room : Nat} {s : LoadState} {a : UInt32}
    (spares : Spares (turnAccesses env room s) a) : (loadCommand env s).mem a = s.mem a := by
  cases segment : s.segment env with
  | none => rw [loadCommand_none segment]
  | some seg =>
      obtain ⟨command, reads, -⟩ := segment_some segment
      rw [turnAccesses, spares_cons, if_pos command, spares_append, spares_append] at spares
      rw [(loadCommand_some segment).1, ← reads]
      exact loadSegment_frame spares.2.1.1

/-- Every byte that a run changes is one that an access of it writes. -/
theorem run_frame {room : UInt32 → Nat} {mem : Mem} {a : UInt32}
    (spares : Spares (runAccesses env room mem) a) :
    (xnuMachoLoaderRun env mem).2.2 a = mem a := by
  by_cases magic : read32 mem env.machoBase = mhMagic
  · have turns := (forall_runAccesses room mem).mp spares magic
    obtain ⟨last, ends, reached⟩ := commandLoop_ends env mem
    have kept : ∀ k ≤ last, (stateAt env mem k).mem a = mem a := by
      intro k
      induction k with
      | zero => intro _; rfl
      | succ k ih =>
          intro within
          rw [stateAt_succ, loadCommand_frame (turns k ((reached k).mpr within))]
          exact ih (Nat.le_of_succ_le within)
    rw [xnuMachoLoaderRun, if_neg (not_not_intro magic)]
    dsimp only
    rw [ends]
    exact kept last (Nat.le_refl last)
  · rw [xnuMachoLoaderRun, if_pos magic]

/-! ## The loader -/

/-- The command loop ends; it reads in the image and writes in the window exactly when the command
of every turn is sound; and what it does not write stays as it is. -/
theorem loader_contained_iff (small : env.machoSize.toNat ≤ 2 ^ 31) (room : UInt32 → Nat)
    (mem : Mem) :
    (∃ last, commandLoop env (2 ^ 32) (.init env mem) = stateAt env mem last ∧
        ¬ (stateAt env mem last).more env) ∧
      ((∀ x ∈ runAccesses env room mem, x.Contained env) ↔
        (read32 mem env.machoBase = mhMagic → ∀ k, Reached env mem k →
          Sound env (room (UInt32.ofNat k)) (stateAt env mem k))) ∧
      ∀ a, Spares (runAccesses env room mem) a → (xnuMachoLoaderRun env mem).2.2 a = mem a := by
  refine ⟨?_, ?_, fun a spares => run_frame spares⟩
  · obtain ⟨last, ends, reached⟩ := commandLoop_ends env mem
    refine ⟨last, ends, ?_⟩
    intro more
    have all : Reached env mem last := by
      intro j within
      rcases Nat.lt_or_eq_of_le within with before | same
      · exact (reached j).mpr before j (Nat.le_refl j)
      · rw [same]
        exact more
    exact absurd ((reached last).mp all) (Nat.lt_irrefl last)
  · rw [forall_runAccesses]
    simp only [turnAccesses_contained_iff small]

/-- One segment of the window, and a console that takes 100 more bytes. -/
theorem oneSegment_contained :
    (runAccesses oneSegmentEnv (fun _ => 100) (oneSegment 0x80000000)).Forall
      fun x => x.Contained oneSegmentEnv := by
  have reads : segmentAt (oneSegment 0x80000000)
      ((LoadState.init oneSegmentEnv (oneSegment 0x80000000)).lc oneSegmentEnv) =
        ⟨0x80000000, 8, 84, 4⟩ := by decide +kernel
  have ends : ¬ (stateAt oneSegmentEnv (oneSegment 0x80000000) 1).more oneSegmentEnv := by
    decide +kernel
  have contained :=
    (@loader_contained_iff oneSegmentEnv (by decide) (fun _ => 100) (oneSegment 0x80000000)).2.1
  apply List.forall_iff_forall_mem.mpr
  apply contained.mpr
  intro _ k reached
  cases k with
  | succ k => exact absurd (reached 1 (Nat.succ_le_succ (Nat.zero_le k))) ends
  | zero =>
      refine ⟨by decide, fun _ => ?_, fun thread => absurd thread (by decide +kernel)⟩
      change SoundSegment _ _ _ _ (segmentAt (oneSegment 0x80000000)
        ((LoadState.init oneSegmentEnv (oneSegment 0x80000000)).lc oneSegmentEnv))
      rw [reads]
      constructor
      · decide
      · intro _ refused
        exact absurd ⟨by decide, by decide, by decide, by decide, by decide⟩ refused
      · intro _
        exact ⟨by decide, ⟨⟨by decide, by decide⟩, fun _ => by decide⟩, by decide +kernel⟩

/-- Four bytes at the end of the window, and eight of content. -/
def longContentWords : List UInt32 :=
  [mhMagic, 12, 9, 2, 1, 56, 0, lcSegment, 56, 0x45545f5f, 0x5458, 0, 0, 0x800ffffc, 4, 84, 8, 7, 5,
    0, 0, 0x44332211, 0x88776655]

/-- The copy goes on behind the window. -/
theorem longContent_escapes :
    ofWords oneSegmentBase longContentWords loadWindowEnd = 0 ∧
      (xnuMachoLoaderRun oneSegmentEnv (ofWords oneSegmentBase longContentWords)).2.2
        loadWindowEnd = 0x55 := by
  decide +kernel

end Stage90.MachO

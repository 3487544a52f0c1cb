import Mathlib.Logic.Function.Basic

/-!
# Overwriting

Writers that each cover some addresses, one after another over a memory.  The last one that covers
an address wins, so all of them are read back exactly if they agree where they meet.
-/

set_option autoImplicit false

namespace Stage90.Lib

section
variable {α β γ : Type} (covers : β → α → Prop) [∀ w a, Decidable (covers w a)] (byte : β → α → γ)

def overwrite (memory : α → γ) (w : β) : α → γ := fun a => if covers w a then byte w a else memory a

def overwriteAll (memory : α → γ) (writers : List β) : α → γ :=
  writers.foldl (overwrite covers byte) memory

theorem overwriteAll_apply (memory : α → γ) (writers : List β) (a : α) :
    overwriteAll covers byte memory writers a =
      writers.foldl (fun c w => if covers w a then byte w a else c) (memory a) := by
  induction writers generalizing memory with
  | nil => rfl
  | cons w writers ih => exact ih (overwrite covers byte memory w)

theorem overwriteAll_of_not_covers {memory : α → γ} {writers : List β} {a : α}
    (spared : ∀ w ∈ writers, ¬ covers w a) :
    overwriteAll covers byte memory writers a = memory a := by
  induction writers generalizing memory with
  | nil => rfl
  | cons w writers ih =>
      rw [List.forall_mem_cons] at spared
      exact (ih spared.2).trans (if_neg spared.1)

theorem overwriteAll_of_covers {memory : α → γ} {writers : List β} {a : α}
    (covered : ∃ w ∈ writers, covers w a) :
    ∃ w ∈ writers, covers w a ∧ overwriteAll covers byte memory writers a = byte w a := by
  induction writers generalizing memory with
  | nil =>
      obtain ⟨w, there, _⟩ := covered
      exact absurd there List.not_mem_nil
  | cons w writers ih =>
      by_cases later : ∃ w' ∈ writers, covers w' a
      · obtain ⟨w', there, covers', value⟩ := @ih (overwrite covers byte memory w) later
        exact ⟨w', List.mem_cons_of_mem w there, covers', value⟩
      · have spared : ∀ w' ∈ writers, ¬ covers w' a :=
          fun w' there covers' => later ⟨w', there, covers'⟩
        obtain ⟨first, there, covers'⟩ := covered
        rcases List.mem_cons.mp there with same | among
        · rw [same] at covers'
          refine ⟨w, List.mem_cons_self, covers', ?_⟩
          exact (overwriteAll_of_not_covers covers byte spared).trans (if_pos covers')
        · exact absurd covers' (spared first among)

/-- An address whose writers all put the same there. -/
theorem overwriteAll_eq {memory : α → γ} {writers : List β} {a : α} {value : γ}
    (agree : ∀ w ∈ writers, covers w a → byte w a = value)
    (before : memory a = value ∨ ∃ w ∈ writers, covers w a) :
    overwriteAll covers byte memory writers a = value := by
  by_cases covered : ∃ w ∈ writers, covers w a
  · obtain ⟨w, there, covers_, last⟩ := overwriteAll_of_covers covers byte covered
    exact last.trans (agree w there covers_)
  · have spared : ∀ w ∈ writers, ¬ covers w a := fun w there covers_ => covered ⟨w, there, covers_⟩
    rw [overwriteAll_of_not_covers covers byte spared]
    exact before.resolve_right covered

/-- All writers are read back exactly if they agree. -/
theorem overwriteAll_reads_back {memory : α → γ} {writers : List β} :
    (∀ w ∈ writers, ∀ a, covers w a → overwriteAll covers byte memory writers a = byte w a) ↔
      ∀ w ∈ writers, ∀ w' ∈ writers, ∀ a, covers w a → covers w' a → byte w a = byte w' a := by
  constructor
  · intro reads w there w' there' a covers_ covers'
    exact (reads w there a covers_).symm.trans (reads w' there' a covers')
  · intro agree w there a covers_
    obtain ⟨w', there', covers', value⟩ :=
      overwriteAll_of_covers covers byte ⟨w, there, covers_⟩
    exact value.trans (agree w' there' w there a covers' covers_)

end

theorem foldl_writes {α β γ : Type} [DecidableEq α] {slot : β → α} {word : β → γ}
    {step : (α → γ) → β → α → γ} {writers : List β}
    (writes : ∀ table, ∀ w ∈ writers, step table w = Function.update table (slot w) (word w))
    (table : α → γ) :
    writers.foldl step table =
      overwriteAll (fun w a => a = slot w) (fun w _ => word w) table writers := by
  induction writers generalizing table with
  | nil => rfl
  | cons w writers ih =>
      have one : step table w = overwrite (fun w a => a = slot w) (fun w _ => word w) table w := by
        funext a
        rw [writes table w List.mem_cons_self, Function.update_apply, overwrite]
      rw [List.foldl_cons, ih fun t w there => writes t w (List.mem_cons_of_mem _ there), one]
      rfl

end Stage90.Lib

import Mathlib.Data.List.Induction

/-!
# Runs of a deterministic component

A component answers calls one at a time.  `execute` runs a list of calls and keeps
the history, oldest first.  A property of a whole run is proved once for the empty
history and once for a single call, by `execute_induction`.
-/

set_option autoImplicit false

namespace Stage90.Lib

variable {S C A : Type}

def execute (step : S → C → A × S) (initial : S) (calls : List C) : List (C × A) × S :=
  calls.foldl
    (fun run call =>
      (run.1 ++ [(call, (step run.2 call).1)], (step run.2 call).2))
    ([], initial)

@[simp] theorem execute_nil (step : S → C → A × S) (initial : S) :
    execute step initial [] = ([], initial) := rfl

theorem execute_snoc (step : S → C → A × S) (initial : S) (calls : List C) (call : C) :
    execute step initial (calls ++ [call]) =
      ((execute step initial calls).1 ++
          [(call, (step (execute step initial calls).2 call).1)],
        (step (execute step initial calls).2 call).2) := by
  simp [execute, List.foldl_append]

/-- What holds of the empty history and survives every call of the run holds of the run. -/
theorem execute_induction_mem {step : S → C → A × S} {initial : S}
    (Holds : List (C × A) → S → Prop) (start : Holds [] initial) (calls : List C)
    (preserved : ∀ history state, ∀ call ∈ calls, Holds history state →
      Holds (history ++ [(call, (step state call).1)]) (step state call).2) :
    Holds (execute step initial calls).1 (execute step initial calls).2 := by
  induction calls using List.reverseRecOn with
  | nil => exact start
  | append_singleton calls call ih =>
      rw [execute_snoc]
      apply preserved
      · exact List.mem_append_right _ (List.mem_singleton_self call)
      · apply ih
        intro history state earlier member held
        exact preserved history state earlier (List.mem_append_left _ member) held

theorem execute_induction {step : S → C → A × S} {initial : S}
    (Holds : List (C × A) → S → Prop) (start : Holds [] initial)
    (preserved : ∀ history state call, Holds history state →
      Holds (history ++ [(call, (step state call).1)]) (step state call).2)
    (calls : List C) :
    Holds (execute step initial calls).1 (execute step initial calls).2 :=
  execute_induction_mem Holds start calls fun history state call _ held =>
    preserved history state call held

/-- The same rule for a property of the state alone. -/
theorem execute_invariant {step : S → C → A × S} {initial : S} (Holds : S → Prop)
    (start : Holds initial) (preserved : ∀ state call, Holds state → Holds (step state call).2)
    (calls : List C) : Holds (execute step initial calls).2 :=
  execute_induction (fun _ state => Holds state) start
    (fun _ state call held => preserved state call held) calls

end Stage90.Lib

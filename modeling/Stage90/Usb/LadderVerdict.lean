import Mathlib.Data.List.Chain
import Stage90.Usb.Verdict

/-!
# The verdicts on the whole ladder

`analyze` and `_overall` of `tools/usb_ladder_verify.py`.  Each rung is gated on the one below, so
the rungs that fired are the first of the order.
-/

set_option autoImplicit false

namespace Stage90.Usb

open Stage90.Console

def rungOrder : List Rung := [.probe, .device, .enum, .stream]

/-- The texts of `_overall`. -/
inductive Overall where
  | notReached
  | blockedAt (rung : Rung)
  | reached (top : Rung)
  | topFired (top : Rung)
  deriving DecidableEq

def firedRungs (rungs : Rung → Verdict) : List Rung := rungOrder.filter fun r => rungs r = .fired

def overall (rungs : Rung → Verdict) : Overall :=
  match (firedRungs rungs).getLast? with
  | none => if rungs .probe = .indeterminate then .notReached else .blockedAt .probe
  | some top =>
      if (firedRungs rungs).length = rungOrder.length then .topFired top
      else
        match rungOrder[(firedRungs rungs).length]? with
        | some next => if rungs next = .indeterminate then .reached top else .topFired top
        | none => .topFired top

structure Analysis where
  hostBytes : Nat
  rungs : Rung → Verdict
  overall : Overall

/-- Without a byte count the size of the capture is one, if the reader has written the capture. -/
def analyze (raw : List UInt8) (readerRc : Option Int) (hostBytes : Option Nat) : Analysis :=
  let hostBytes := hostBytes.getD (if readerRc = some 0 then raw.length else 0)
  let rungs := fun rung => verdict rung (parseKv raw).vals hostBytes
  ⟨hostBytes, rungs, overall rungs⟩

/-! ## Gated rungs -/

section Gated
variable {rungs : Rung → Verdict}

/-- A rung is judged only if the one below has fired. -/
def Gates (rungs : Rung → Verdict) (below above : Rung) : Prop :=
  rungs below ≠ .fired → rungs above = .indeterminate

theorem blocked_above {r : Rung} {rest : List Rung} (gated : (r :: rest).IsChain (Gates rungs))
    (blocked : rungs r ≠ .fired) : ∀ q ∈ rest, rungs q = .indeterminate := by
  induction rest generalizing r with
  | nil => exact fun _ member => absurd member List.not_mem_nil
  | cons next rest ih =>
      rw [List.isChain_cons_cons] at gated
      have unknown : rungs next = .indeterminate := gated.1 blocked
      have blocked' : rungs next ≠ .fired := by
        rw [unknown]
        exact Verdict.noConfusion
      intro q member
      cases member with
      | head => exact unknown
      | tail _ later => exact ih gated.2 blocked' q later

theorem fired_initial {order : List Rung} (gated : order.IsChain (Gates rungs)) :
    order.filter (fun r => rungs r = .fired) <+: order := by
  induction order with
  | nil => exact List.prefix_refl []
  | cons r rest ih =>
      by_cases fired : rungs r = .fired
      · rw [List.filter_cons, if_pos (decide_eq_true fired), List.prefix_cons_inj]
        exact ih gated.tail
      · have none_ : rest.filter (fun r => rungs r = .fired) = [] := by
          rw [List.filter_eq_nil_iff]
          intro q member here
          have unknown := blocked_above gated fired q member
          exact Verdict.noConfusion ((of_decide_eq_true here).symm.trans unknown)
        rw [List.filter_cons, if_neg fun is => fired (of_decide_eq_true is), none_]
        exact List.nil_prefix

theorem mem_rungOrder (r : Rung) : r ∈ rungOrder := by cases r <;> decide

def upTo (top : Rung) : List Rung := rungOrder.take (rungOrder.idxOf top + 1)

theorem fired_upTo (gated : rungOrder.IsChain (Gates rungs)) {top : Rung}
    (last : (firedRungs rungs).getLast? = some top) : firedRungs rungs = upTo top := by
  have order := List.prefix_iff_eq_take.mp (fired_initial gated)
  have short : (firedRungs rungs).length ≤ rungOrder.length := (fired_initial gated).length_le
  have all : ∀ n ≤ rungOrder.length, ∀ r ∈ rungOrder, (rungOrder.take n).getLast? = some r →
      rungOrder.take n = upTo r := by decide
  rw [firedRungs] at last short ⊢
  rw [order] at last ⊢
  exact all _ short top (mem_rungOrder top) last

theorem overall_top (gated : rungOrder.IsChain (Gates rungs)) {top : Rung}
    (named : overall rungs = .topFired top ∨ overall rungs = .reached top) :
    ∀ r ∈ upTo top, rungs r = .fired := by
  have last : (firedRungs rungs).getLast? = some top := by
    rw [overall] at named
    grind
  intro r member
  rw [← fired_upTo gated last, firedRungs, List.mem_filter] at member
  exact of_decide_eq_true member.2

end Gated

/-! ## The tool's rungs -/

theorem verdict_gated (vals : List UInt8 → Option Nat) (hostBytes : Nat) :
    rungOrder.IsChain (Gates fun r => verdict r vals hostBytes) := by
  have device : Gates (fun r => verdict r vals hostBytes) .probe .device := fun blocked =>
    if_pos blocked
  have enum : Gates (fun r => verdict r vals hostBytes) .device .enum := fun blocked =>
    if_pos blocked
  have stream : Gates (fun r => verdict r vals hostBytes) .enum .stream := fun blocked =>
    if_pos blocked
  rw [rungOrder, List.isChain_cons_cons, List.isChain_cons_cons, List.isChain_cons_cons]
  exact ⟨device, enum, stream, List.isChain_singleton _⟩

theorem stream_needs_bytes (vals : List UInt8 → Option Nat) {hostBytes : Nat}
    (few : hostBytes < streamMinBytes) : verdict .stream vals hostBytes ≠ .fired := by
  have short : ¬ streamMinBytes ≤ hostBytes := Nat.not_le.mpr few
  rw [verdict, streamVerdict]
  split
  · exact Verdict.noConfusion
  split
  · exact Verdict.noConfusion
  split
  · exact Verdict.noConfusion
  · exact Verdict.noConfusion

structure Monotone (rungs : Rung → Verdict) (overall : Overall) (hostBytes : Nat) : Prop where
  fired : firedRungs rungs <+: rungOrder
  above : ∀ before r after, before ++ r :: after = rungOrder → rungs r ≠ .fired →
    ∀ q ∈ after, rungs q = .indeterminate
  stream : hostBytes < streamMinBytes → rungs .stream ≠ .fired
  top : ∀ top, overall = .topFired top ∨ overall = .reached top → ∀ r ∈ upTo top, rungs r = .fired
  success : overall = .topFired .stream ↔ ∀ r, rungs r = .fired

theorem verdict_monotone (vals : List UInt8 → Option Nat) (hostBytes : Nat) :
    Monotone (fun r => verdict r vals hostBytes) (overall fun r => verdict r vals hostBytes)
      hostBytes := by
  have gated := verdict_gated vals hostBytes
  refine ⟨fired_initial gated, ?_, stream_needs_bytes vals, fun top => overall_top gated, ?_⟩
  · intro before r after order blocked
    rw [← order] at gated
    exact blocked_above gated.right_of_append blocked
  · change _ ↔ ∀ r, (fun r => verdict r vals hostBytes) r = .fired
    generalize (fun r => verdict r vals hostBytes) = rungs at gated ⊢
    constructor
    · intro named r
      have all := overall_top gated (Or.inl named)
      cases r with
      | probe => exact all _ (by decide)
      | device => exact all _ (by decide)
      | enum => exact all _ (by decide)
      | stream => exact all _ (by decide)
    · intro all
      have whole : firedRungs rungs = rungOrder := by
        rw [firedRungs, List.filter_eq_self]
        exact fun r _ => decide_eq_true (all r)
      rw [overall, whole]
      rfl

/-- Of any capture, return code and byte count. -/
theorem analyze_monotone (raw : List UInt8) (readerRc : Option Int) (hostBytes : Option Nat) :
    Monotone (analyze raw readerRc hostBytes).rungs (analyze raw readerRc hostBytes).overall
        (analyze raw readerRc hostBytes).hostBytes ∧
      (hostBytes = none → readerRc ≠ some 0 →
        (analyze raw readerRc hostBytes).hostBytes = 0 ∧
          (analyze raw readerRc hostBytes).rungs .stream ≠ .fired) := by
  have monotone : Monotone (analyze raw readerRc hostBytes).rungs
      (analyze raw readerRc hostBytes).overall (analyze raw readerRc hostBytes).hostBytes :=
    verdict_monotone _ _
  refine ⟨monotone, ?_⟩
  intro unseen other
  have none_ : (analyze raw readerRc hostBytes).hostBytes = 0 := by
    change hostBytes.getD _ = 0
    rw [unseen, if_neg other]
    rfl
  refine ⟨none_, monotone.stream ?_⟩
  rw [none_]
  decide

end Stage90.Usb

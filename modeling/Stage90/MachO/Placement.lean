import Stage90.MachO.ProbeExact

/-!
# Where the load plan places an image

What a result that the probe has accepted says about the addresses of its plan.
-/

set_option autoImplicit false

namespace Stage90.Probe

open Stage90.Lib

/-- An entry lies in the image's addresses, and its place is as far above the RAM base as the entry
is above the lowest address. -/
structure EntryPlaced (r : Result) (entry : LoadPlanEntry) : Prop where
  some_ : 0 < entry.vmsize.toNat
  base : r.loadVmBase.toNat ≤ entry.vmaddr.toNat
  within : entry.vmaddr.toNat + entry.vmsize.toNat ≤ r.loadVmEnd.toNat
  physaddr : entry.physaddr.toNat = ramPhysBase.toNat + (entry.vmaddr.toNat - r.loadVmBase.toNat)
  room : entry.physaddr.toNat + entry.vmsize.toNat ≤ r.loadPhysEnd.toNat

structure Placement (r : Result) : Prop where
  entry : ∃ entry, entry ∈ r.loadPlan.entries
  entries : ∀ entry ∈ r.loadPlan.entries, EntryPlaced r entry
  physBase : r.loadPhysBase = ramPhysBase
  physEnd : r.loadPhysEnd.toNat ≤ ramConsoleBase.toNat

variable {mem : Mem} {artifact size : UInt32} {commands : List UInt32}

theorem le_foldl_max {α : Type} {measure : α → Nat} {xs : List α} {last : Nat} :
    last ≤ xs.foldl (fun last x => max last (measure x)) last ∧
      ∀ x ∈ xs, measure x ≤ xs.foldl (fun last x => max last (measure x)) last := by
  induction xs generalizing last with
  | nil => exact ⟨Nat.le_refl _, fun x there => absurd there List.not_mem_nil⟩
  | cons x xs ih =>
      have rest := @ih (max last (measure x))
      rw [List.foldl_cons, List.forall_mem_cons]
      exact ⟨Nat.le_trans (Nat.le_max_left _ _) rest.1, Nat.le_trans (Nat.le_max_right _ _) rest.1,
        rest.2⟩

theorem foldl_max_le {α : Type} {measure : α → Nat} {xs : List α} {last bound : Nat}
    (start : last ≤ bound) (all : ∀ x ∈ xs, measure x ≤ bound) :
    xs.foldl (fun last x => max last (measure x)) last ≤ bound := by
  induction xs generalizing last with
  | nil => exact start
  | cons x xs ih =>
      rw [List.forall_mem_cons] at all
      exact ih (Nat.max_le.mpr ⟨start, all.1⟩) all.2

/-- Each entry of the plan before it is placed is a segment of the image. -/
theorem accepted_within (accepted : Accepted mem artifact size commands) {entry : LoadPlanEntry}
    (there : entry ∈ (recordedAll mem artifact size commands).loadPlan.entries) :
    0 < entry.vmsize.toNat ∧ entry.vmaddr.toNat + entry.vmsize.toNat ≤
      (recordedAll mem artifact size commands).maxVmaddr.toNat := by
  rw [accepted.recorded.plan] at there
  obtain ⟨i, inside, rfl⟩ := List.mem_mapIdx.mp there
  obtain ⟨among, some_⟩ := mem_loaded (List.getElem_mem inside)
  refine ⟨?_, accepted.recorded.greatest _ among⟩
  exact Nat.pos_of_ne_zero fun zero => some_ (UInt32.toNat_inj.mp zero)

theorem accepted_placement (accepted : Accepted mem artifact size commands) :
    Placement (probed mem artifact size) := by
  obtain ⟨report, core⟩ := checkSeen_core accepted.seen
  obtain ⟨-, -, placed⟩ := finalizeLoadPlan_eq_zero.mp accepted.planned
  have plan : (checkSeen (recordedAll mem artifact size commands)).loadPlan =
      (recordedAll mem artifact size commands).loadPlan := congrArg Core.loadPlan core
  have max : (checkSeen (recordedAll mem artifact size commands)).maxVmaddr =
      (recordedAll mem artifact size commands).maxVmaddr := congrArg Core.maxVmaddr core
  rw [accepted.result]
  generalize (checkSeen (recordedAll mem artifact size commands)) = r at *
  have entries : (finalized r).loadPlan.entries = r.loadPlan.entries.map (place r.minVmaddr) :=
    finalizeEntries_placed placed
  have physEnd : (finalized r).loadPhysEnd.toNat =
      r.loadPlan.entries.foldl (fun last entry => Nat.max last (endOf r.minVmaddr entry))
        ramPhysBase.toNat := finalizeEntries_physEnd placed
  refine ⟨?_, ?_, rfl, ?_⟩
  · have count := recorded_entries accepted.recorded
    have some_ := accepted.parts.plans.some_
    rw [← count, ← plan] at some_
    obtain ⟨entry, there⟩ := List.exists_mem_of_length_pos some_
    rw [entries]
    exact ⟨_, List.mem_map_of_mem there⟩
  · intro entry there
    rw [entries] at there
    obtain ⟨before, among, rfl⟩ := List.mem_map.mp there
    have fits := placed before among
    have within := accepted_within accepted (plan ▸ among)
    rw [← max] at within
    have below : ramConsoleBase.toNat < UInt32.size := ramConsoleBase.toNat_lt
    have size_ := fits.below
    have rounded := le_roundUp before.vmsize.toNat
    have address : (place r.minVmaddr before).physaddr.toNat =
        ramPhysBase.toNat + (before.vmaddr.toNat - r.minVmaddr.toNat) :=
      UInt32.toNat_ofNat_of_lt' (by omega)
    refine ⟨within.1, fits.above, within.2, address, ?_⟩
    rw [address, physEnd]
    have last := (@le_foldl_max _ (endOf r.minVmaddr) r.loadPlan.entries ramPhysBase.toNat).2 before
      among
    refine Nat.le_trans ?_ last
    exact Nat.add_le_add_left rounded _
  · rw [physEnd]
    exact foldl_max_le (by decide) fun entry there => (placed entry there).below

theorem Placement.withStatus {r : Result} {status : UInt32} (placement : Placement r) :
    Placement { r with status } := by
  refine ⟨placement.entry, ?_, placement.physBase, placement.physEnd⟩
  intro entry there
  obtain ⟨some_, base, within, physaddr, room⟩ := placement.entries entry there
  exact ⟨some_, base, within, physaddr, room⟩

theorem probe_accepted (ok : (stage90MachoProbe mem artifact size).1 = true) :
    (∃ commands, Accepted mem artifact size commands) ∧
      (stage90MachoProbe mem artifact size).2 =
        { probed mem artifact size with status := MachO.statusOk } := by
  have failed : ∀ r bits, bits ≠ 0 → (done (Result.fail r bits)).1 ≠ true := by
    intro r bits some_ ok
    rw [done, if_neg fun both => fail_ne_zero some_ both.2] at ok
    exact absurd ok Bool.false_ne_true
  rw [stage90MachoProbe] at ok ⊢
  by_cases null : artifact = 0
  · rw [if_pos null] at ok
    exact absurd ok (failed _ _ (by decide))
  · rw [if_neg null] at ok ⊢
    by_cases short : size < headerSize
    · rw [if_pos short] at ok
      exact absurd ok (failed _ _ (by decide))
    · rw [if_neg short] at ok ⊢
      change (done (probed mem artifact size)).1 = true at ok
      change _ ∧ (done (probed mem artifact size)).2 = _
      rw [done] at ok ⊢
      by_cases both : (probed mem artifact size).validationMask &&& parserRequired = parserRequired ∧
          (probed mem artifact size).failureMask = 0
      · rw [if_pos both]
        exact ⟨probed_sound both.2, rfl⟩
      · rw [if_neg both] at ok
        exact absurd ok Bool.false_ne_true

theorem probe_placement (ok : (stage90MachoProbe mem artifact size).1 = true) :
    Placement (stage90MachoProbe mem artifact size).2 := by
  obtain ⟨⟨commands, accepted⟩, result⟩ := probe_accepted ok
  rw [result]
  exact (accepted_placement accepted).withStatus

/-! ## The ranges of the entries -/

/-- An entry's addresses lie in the image's, and its content lies in the file. -/
structure EntryRange (size : UInt32) (r : Result) (entry : LoadPlanEntry) : Prop where
  base : r.minVmaddr.toNat ≤ entry.vmaddr.toNat
  within : entry.vmaddr.toNat + entry.vmsize.toNat ≤ r.maxVmaddr.toNat
  file : entry.fileoff.toNat + entry.filesize.toNat ≤ size.toNat

theorem accepted_ranges (accepted : Accepted mem artifact size commands) :
    (probed mem artifact size).loadPlan.entries.length ≤ loadPlanMax ∧
      ∀ entry ∈ (probed mem artifact size).loadPlan.entries,
        EntryRange size (probed mem artifact size) entry := by
  obtain ⟨report, core⟩ := checkSeen_core accepted.seen
  obtain ⟨-, -, placed⟩ := finalizeLoadPlan_eq_zero.mp accepted.planned
  have plan : (checkSeen (recordedAll mem artifact size commands)).loadPlan =
      (recordedAll mem artifact size commands).loadPlan := congrArg Core.loadPlan core
  have max : (checkSeen (recordedAll mem artifact size commands)).maxVmaddr =
      (recordedAll mem artifact size commands).maxVmaddr := congrArg Core.maxVmaddr core
  have recorded := accepted.recorded.plan
  have greatest := accepted.recorded.greatest
  rw [accepted.result]
  generalize checkSeen (recordedAll mem artifact size commands) = r at *
  have entries : (finalized r).loadPlan.entries = r.loadPlan.entries.map (place r.minVmaddr) :=
    finalizeEntries_placed placed
  rw [entries, List.length_map]
  refine ⟨?_, ?_⟩
  · rw [plan, recorded, List.length_mapIdx]
    exact accepted.parts.plans.few
  · intro entry there
    obtain ⟨before, among, rfl⟩ := List.mem_map.mp there
    have above := (placed before among).above
    rw [plan, recorded] at among
    obtain ⟨i, inside, rfl⟩ := List.mem_mapIdx.mp among
    obtain ⟨segment, -⟩ := mem_loaded (List.getElem_mem inside)
    have range := greatest _ segment
    rw [← max] at range
    refine ⟨above, range, ?_⟩
    obtain ⟨o, offset, same⟩ := List.mem_map.mp segment
    obtain ⟨command, kind⟩ := List.mem_filter.mp offset
    have fits := (accepted.parts.fits o command).segment (of_decide_eq_true kind)
    have file := fits.file
    rw [same] at file
    exact file

theorem probe_ranges (ok : (stage90MachoProbe mem artifact size).1 = true) :
    (stage90MachoProbe mem artifact size).2.loadPlan.entries.length ≤ loadPlanMax ∧
      ∀ entry ∈ (stage90MachoProbe mem artifact size).2.loadPlan.entries,
        EntryRange size (stage90MachoProbe mem artifact size).2 entry := by
  obtain ⟨⟨commands, accepted⟩, result⟩ := probe_accepted ok
  obtain ⟨few, ranges⟩ := accepted_ranges accepted
  rw [result]
  refine ⟨few, ?_⟩
  intro entry there
  obtain ⟨base, within, file⟩ := ranges entry there
  exact ⟨base, within, file⟩

end Stage90.Probe

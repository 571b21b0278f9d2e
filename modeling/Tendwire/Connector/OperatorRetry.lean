import Tendwire.Connector.Statements

/-!
# The operator's retry

A retry requeues a dead root, recovers the one failed plan that holds the root back, or finds the
revision gone and retires the root. Any other answer is a refusal that writes nothing.
-/

namespace Tendwire.Connector

open Relational

namespace Store

variable {s s' : Store} {now : Int}

/-! ### The plans of a recovery -/

lemma plans_insertOutbox {r : OutboxRow} (h : s.insertOutbox r = .ok s') : s'.plans = s.plans := by
  obtain ⟨t, rfl, -⟩ := insertOutbox_spec h
  rfl

lemma plans_addJob {planId : Nat} {hostId name : String} {token : PlanToken} {common : JobCommon}
    {j : JobSpec} (h : addJob planId hostId name token common now s j = .ok s') :
    s'.plans = s.plans := by
  obtain ⟨s₁, hs₁, h⟩ := addJob_spec h
  obtain ⟨t, rfl, -⟩ := insertJob_spec hs₁
  obtain ⟨_, _, s₂, -, hs₂, h⟩ := materializeConnectorPlanJob_spec h
  have hplans := plans_insertOutbox hs₂
  obtain ⟨u, rfl, -⟩ := linkJob_spec h
  exact hplans

lemma plans_addJobs {planId : Nat} {hostId name : String} {token : PlanToken} {common : JobCommon}
    {specs : List JobSpec}
    (h : specs.foldlM (addJob planId hostId name token common now) s = .ok s') :
    s'.plans = s.plans :=
  Transition.foldlM_invariant (P := fun t : Store => t.plans = s.plans)
    (fun _ _ _ _ ht hstep => (plans_addJob hstep).trans ht) rfl h

/-- A pruned plan was superseded. -/
lemma plans_pruneRecoveries {plan : Plan} (h : s.pruneRecoveries plan = .ok s') (i : Nat) :
    s'.plans.get? i = s.plans.get? i ∨
      s'.plans.get? i = none ∧ ∃ p, s.plans.get? i = some p ∧ p.state = .superseded := by
  unfold pruneRecoveries at h
  dsimp only at h
  split at h
  · rw [← Except.ok.inj h]
    exact .inl rfl
  · obtain ⟨-, rfl⟩ := deletePlans_spec h
    dsimp only
    rw [Constrained.get?_deleteWhere]
    change (s.plans.get? i).filter _ = s.plans.get? i ∨
      (s.plans.get? i).filter _ = none ∧ ∃ p, s.plans.get? i = some p ∧ p.state = .superseded
    cases hp : s.plans.get? i with
    | none => exact .inl rfl
    | some p =>
      rw [Option.filter_some]
      split
      · exact .inl rfl
      · next hkeep =>
        simp only [Bool.not_eq_true', Bool.not_eq_false, Bool.and_eq_true, beq_iff_eq] at hkeep
        exact .inr ⟨rfl, p, rfl, hkeep.1.2⟩

/-- What the end of a recovery does to a plan: a failed one of the lineage is superseded, and only
superseded ones may go. -/
lemma plans_finalizeRecovered {failedId recoveredId : Nat}
    (h : s.finalizeRecoveredPlanMaterialization failedId recoveredId = .ok s')
    (hrecovered : s.plans.get? recoveredId ≠ none) (i : Nat) {p : Plan}
    (hp : s.plans.get? i = some p) :
    (p.state ≠ .failed → p.state ≠ .superseded → s'.plans.get? i = some p) ∧
      (i = failedId → ∀ q, s'.plans.get? i = some q → q.state ≠ .failed) := by
  rcases finalizeRecovered_cases h with ⟨hnone, -⟩ | ⟨recovered, s₂, -, hs₂, h⟩
  · exact absurd hnone hrecovered
  · generalize hlineage : s.lineageIds (s.plans.table.rows.length + 1) failedId = lineage at hs₂
    have hsuperseded : s₂.plans.get? i = (s.plans.get? i).map fun r =>
        if lineage.contains i && r.state == .failed then
          r.mapState fun q => { q with state := .superseded }
        else
          r := by
      obtain ⟨-, rfl⟩ := deleteOutbox_spec hs₂
      exact plans_updatePlans _ _ i
    rw [hp, Option.map_some] at hsuperseded
    have hpruned := plans_pruneRecoveries h i
    rw [hsuperseded] at hpruned
    constructor
    · intro hfailed hnot
      rw [if_neg (by simp [hfailed])] at hpruned
      refine hpruned.resolve_right ?_
      rintro ⟨-, q, hq, hstate⟩
      rw [← Option.some.inj hq] at hstate
      exact hnot hstate
    · rintro rfl q hq
      have hmem : lineage.contains i = true := by
        rw [← hlineage, lineageIds, hp]
        simp
      rw [hmem, Bool.true_and] at hpruned
      rcases hpruned with hsame | ⟨hgone, -⟩
      · rw [hq] at hsame
        rw [Option.some.inj hsame]
        split
        · simp [Plan.mapState]
        · next hstate => simpa using hstate
      · rw [hq] at hgone
        cases hgone

/-- A recovery leaves the failed plan failed no longer, and an active plan in its place. -/
theorem plans_materializeRecovery {w : RecoveryWork} {requestId : RequestId}
    (hfailed : s.plans.get? w.failedId = some w.failed)
    (h : s.materializeRecovery w requestId now = .ok s') :
    s'.plans.get? s.plans.table.freeId = some (w.plan now) ∧
      ∀ q, s'.plans.get? w.failedId = some q → q.state ≠ .failed := by
  obtain ⟨s₁, s₂, s₃, hs₁, hs₂, hs₃, h⟩ := materializeRecovery_spec h
  obtain ⟨t, rfl, ht⟩ := insertPlan_spec hs₁
  have hplans : s₂.plans = t := plans_addJobs hs₂
  obtain ⟨u, rfl, -⟩ := insertRecovery_spec hs₃
  have hnew : s₂.plans.get? s.plans.table.freeId = some (w.plan now) := by
    rw [hplans, ht, if_pos rfl]
  have hold : s₂.plans.get? w.failedId = some w.failed := by
    rw [hplans, ht, if_neg (Table.get?_lt_freeId hfailed).ne]
    exact hfailed
  have hne : s₂.plans.get? s.plans.table.freeId ≠ none := by simp [hnew]
  exact ⟨(plans_finalizeRecovered h hne _ hnew).1 (by simp [RecoveryWork.plan])
      (by simp [RecoveryWork.plan]),
    (plans_finalizeRecovered h hne _ hold).2 rfl⟩

/-! ### The answers of a retry -/

/-- The root is superseded with its deliveries unless delivered, and nothing else has changed. -/
structure Retired (s s' : Store) (i : Nat) : Prop where
  root : ∀ r, s'.outbox.get? i = some r → r.status = .superseded ∨ r.status = .delivered
  rows : ∀ j, j ≠ i → s'.outbox.get? j = s.outbox.get? j
  attempts : ∀ k d, s'.deliveries.get? k = some d → d.outboxId = some i →
    d.status = .superseded ∨ d.status = .delivered
  deliveries : ∀ k d, d.outboxId ≠ some i →
    (s'.deliveries.get? k = some d ↔ s.deliveries.get? k = some d)
  plans : s'.plans = s.plans ∧ s'.jobs = s.jobs ∧ s'.recoveries = s.recoveries

end Store

end Tendwire.Connector

import Tendwire.Connector.Statements

/-!
# Spans of jobs

A part is staged with spans that were validated, a retirement has none and a recovery repeats the
spans of a job. No other operation writes spans, so every span of every job runs forward.
-/

namespace Tendwire.Connector

open Transition

def Span.Forward (span : Span) : Prop := span.startChar < span.endChar

namespace Store

variable {s s' s'' : Store} {now : Int}

def SpansForward (s : Store) : Prop :=
  ∀ k j, s.jobs.get? k = some j → ∀ span ∈ j.spans, span.Forward

lemma spansForward_initial (supersessions : Relational.Constrained supersessionSchema) :
    SpansForward (initial supersessions) := fun _ _ hj => by simp [initial] at hj

/-- What an operation does to the spans. -/
def KeepsSpans (s s' : Store) : Prop := s.SpansForward → s'.SpansForward

namespace KeepsSpans

protected lemma refl (s : Store) : KeepsSpans s s := id

protected lemma trans (h : KeepsSpans s s') (h' : KeepsSpans s' s'') : KeepsSpans s s'' := h' ∘ h

lemma of_jobs (h : s'.jobs = s.jobs) : KeepsSpans s s' := by
  intro hs k j hj
  rw [h] at hj
  exact hs k j hj

lemma of_fewer (h : ∀ k j, s'.jobs.get? k = some j → s.jobs.get? k = some j) :
    KeepsSpans s s' := fun hs k j hj => hs k j (h k j hj)

end KeepsSpans

/-! ### Operations that leave the jobs alone -/

lemma jobs_extendAckDeadline (sourceId : Nat) (deadline : Int) :
    (s.extendAckDeadline sourceId deadline now).jobs = s.jobs := by
  unfold extendAckDeadline
  split
  · dsimp only
    split
    · rfl
    · rfl
  · rfl

lemma jobs_completePlan (planId : Nat) (plan : Plan) :
    (s.completePlan planId plan now).jobs = s.jobs := by
  unfold completePlan
  dsimp only
  split
  · rfl
  · unfold recordTombstone
    dsimp only
    split
    · rfl
    · rfl

lemma jobs_advancePlan (planId : Nat) (plan : Plan) (status : OutboxStatus) (ttl : Option Int) :
    (s.advancePlan planId plan status now ttl).jobs = s.jobs := by
  unfold advancePlan
  split
  · rfl
  · split
    · split
      · split
        · exact jobs_extendAckDeadline _ _
        · rfl
      · exact jobs_completePlan _ _
    · rfl

lemma jobs_afterOutbox (outboxId : Nat) (status : OutboxStatus) (ttl : Option Int) :
    (s.updatePresentationPlanAfterOutbox outboxId status now ttl).jobs = s.jobs := by
  unfold updatePresentationPlanAfterOutbox
  split
  · rfl
  · exact jobs_advancePlan _ _ _ _

lemma jobs_reclaimLease {row : LeasedRow} (h : reclaimLease now s row = some s') :
    s'.jobs = s.jobs := by
  unfold reclaimLease at h
  split at h
  · cases h
  · dsimp only at h
    split at h
    · split at h
      · rw [← Option.some.inj h]
        exact jobs_afterOutbox _ _ _
      · rw [← Option.some.inj h]
        rfl
    · rw [← Option.some.inj h]
      rfl

lemma jobs_deadLetterJobRow (row : Nat × OutboxRow) :
    (deadLetterJobRow now s row).jobs = s.jobs := rfl

lemma jobs_deadLetterJobRows (l : List (Nat × OutboxRow)) :
    (l.foldl (deadLetterJobRow now) s).jobs = s.jobs :=
  foldl_invariant (P := fun t : Store => t.jobs = s.jobs)
    (fun _ row _ h => (jobs_deadLetterJobRow row).trans h) rfl

lemma jobs_reclaimAwaitingAck {row : Nat × OutboxRow} (h : reclaimAwaitingAck now s row = some s') :
    s'.jobs = s.jobs := by
  unfold reclaimAwaitingAck at h
  dsimp only at h
  split at h
  · cases h
  · split at h
    · rw [← Option.some.inj h]
      rfl
    · split at h
      · rw [← Option.some.inj h]
        rfl
      · split at h
        · split at h
          · cases h
          · rw [← Option.some.inj h]
            exact jobs_deadLetterJobRows _
        · rw [← Option.some.inj h]
          rfl

theorem jobs_reclaim (hostId : String) (name : Option String) :
    (s.connectorReclaimExpiredLeases hostId name now).1.jobs = s.jobs := by
  have hleases : (sweep (reclaimLease now) (s.leasedRows hostId name) s).1.jobs = s.jobs :=
    sweep_invariant (P := fun t : Store => t.jobs = s.jobs)
      (fun _ _ _ _ h hstep => (jobs_reclaimLease hstep).trans h) rfl
  rw [connectorReclaimExpiredLeases_fst]
  exact sweep_invariant (P := fun t : Store => t.jobs = s.jobs)
    (fun _ _ _ _ h hstep => (jobs_reclaimAwaitingAck hstep).trans h) hleases

lemma jobs_exhaustRow (row : Nat × OutboxRow) : (exhaustRow now s row).jobs = s.jobs := rfl

lemma jobs_markExhausted (hostId : String) (name : Option String) :
    (s.markExhaustedPresentationPlans hostId name).jobs = s.jobs := rfl

theorem jobs_exhaust (hostId : String) (name : Option String) (maxAttempts : Int) :
    (s.connectorExhaustRetryable hostId name maxAttempts now).1.jobs = s.jobs := by
  have hrows : ((s.exhaustedRows hostId name maxAttempts).foldl (exhaustRow now) s).jobs = s.jobs :=
    foldl_invariant (P := fun t : Store => t.jobs = s.jobs)
      (fun _ row _ h => (jobs_exhaustRow row).trans h) rfl
  exact (jobs_markExhausted hostId name).trans hrows

lemma jobs_leaseRows (req : PollRequest) (rows : List (Nat × OutboxRow)) (items : List PollItem) :
    (leaseRows req now rows s items).1.jobs = s.jobs := by
  induction rows generalizing s items with
  | nil => rfl
  | cons row rows ih => exact ih _

theorem jobs_poll (req : PollRequest) : (s.pollConnectorOutbox req now).1.jobs = s.jobs := by
  refine (jobs_leaseRows req _ _).trans ?_
  unfold beforePoll
  dsimp only
  split
  · exact jobs_reclaim _ _
  · exact (jobs_markExhausted _ _).trans ((jobs_exhaust _ _ _).trans (jobs_reclaim _ _))

lemma jobs_settleMigrationGroup (i : Nat) (group : Option String) :
    (s.settleMigrationGroup i group now).jobs = s.jobs := by
  unfold settleMigrationGroup
  split
  · rfl
  · rfl

lemma jobs_insertOutbox {r : OutboxRow} (h : s.insertOutbox r = .ok s') : s'.jobs = s.jobs := by
  obtain ⟨t, rfl, -⟩ := insertOutbox_spec h
  rfl

lemma jobs_insertOutboxOrIgnore {r : OutboxRow} (h : s.insertOutboxOrIgnore r = .ok s') :
    s'.jobs = s.jobs := by
  rcases insertOutboxOrIgnore_cases h with ⟨rfl, -⟩ | ⟨-, h⟩
  · rfl
  · exact jobs_insertOutbox h

lemma jobs_deleteOutbox {p : Nat → OutboxRow → Bool} (h : s.deleteOutbox p = .ok s') :
    s'.jobs = s.jobs := by
  obtain ⟨-, rfl⟩ := deleteOutbox_spec h
  rfl

lemma jobs_insertPlan {p : Plan} (h : s.insertPlan p = .ok s') : s'.jobs = s.jobs := by
  obtain ⟨t, rfl, -⟩ := insertPlan_spec h
  rfl

/-! ### Operations on jobs -/

lemma keepsSpans_deletePlans {p : Nat → Plan → Bool} (h : s.deletePlans p = .ok s') :
    KeepsSpans s s' := by
  obtain ⟨-, rfl⟩ := deletePlans_spec h
  apply KeepsSpans.of_fewer
  intro k j hj
  dsimp only at hj
  rw [Relational.Constrained.get?_deleteWhere] at hj
  exact (Option.filter_eq_some_iff.mp hj).1

lemma keepsSpans_deleteJobs (p : Nat → Job → Bool) : KeepsSpans s (s.deleteJobs p) := by
  apply KeepsSpans.of_fewer
  intro k j hj
  unfold deleteJobs at hj
  dsimp only at hj
  rw [Relational.Constrained.get?_deleteWhere] at hj
  exact (Option.filter_eq_some_iff.mp hj).1

lemma keepsSpans_insertJob {j : Job} (hj : ∀ span ∈ j.spans, span.Forward)
    (h : s.insertJob j = .ok s') : KeepsSpans s s' := by
  obtain ⟨t, rfl, ht⟩ := insertJob_spec h
  intro hs k j' hj'
  rw [ht] at hj'
  split at hj'
  · rw [← Option.some.inj hj']
    exact hj
  · exact hs k j' hj'

lemma keepsSpans_materialize {planId jobId : Nat} {hostId name : String} {token : PlanToken}
    {payload : PartPayload}
    (h : s.materializeConnectorPlanJob planId jobId hostId name token payload now = .ok s') :
    KeepsSpans s s' := by
  obtain ⟨_, _, s₁, -, hs₁, h⟩ := materializeConnectorPlanJob_spec h
  obtain ⟨u, rfl, hu⟩ := linkJob_spec h
  intro hs k j hj
  rw [hu, jobs_insertOutbox hs₁] at hj
  obtain ⟨j₀, hj₀, rfl⟩ := Option.map_eq_some_iff.mp hj
  split
  · exact hs k j₀ hj₀
  · exact hs k j₀ hj₀

lemma keepsSpans_addJob {planId : Nat} {hostId name : String} {token : PlanToken}
    {common : JobCommon} {j : JobSpec} (hj : ∀ span ∈ j.spans, span.Forward)
    (h : addJob planId hostId name token common now s j = .ok s') : KeepsSpans s s' := by
  obtain ⟨s₁, hs₁, h⟩ := addJob_spec h
  exact (keepsSpans_insertJob hj hs₁).trans (keepsSpans_materialize h)

lemma keepsSpans_addJobs {planId : Nat} {hostId name : String} {token : PlanToken}
    {common : JobCommon} {specs : List JobSpec} (hspecs : ∀ j ∈ specs, ∀ span ∈ j.spans, span.Forward)
    (h : specs.foldlM (addJob planId hostId name token common now) s = .ok s') : KeepsSpans s s' :=
  foldlM_invariant (P := KeepsSpans s)
    (fun _ j _ hj ht hstep => ht.trans (keepsSpans_addJob (hspecs j hj) hstep)) (.refl s) h

lemma keepsSpans_deletePlansOfRevision {hostId turnId : String} {revision : ContentRevision}
    (h : s.deletePlansOfRevision hostId turnId revision = .ok s') : KeepsSpans s s' := by
  obtain ⟨s₃, hs₃, h⟩ := bind_eq_ok.mp h
  have hdeleted := keepsSpans_deletePlans hs₃
  have hjobs := jobs_deleteOutbox h
  exact fun hs => KeepsSpans.of_jobs hjobs (hdeleted hs)

lemma keepsSpans_reactivates {hostId turnId : String} {revision : ContentRevision}
    {payload : FinalPayload} (h : ReactivatesTo s hostId turnId revision payload now s') :
    KeepsSpans s s' := by
  rcases h with ⟨i, row, -, -, h⟩ | ⟨rfl, -⟩
  · obtain ⟨s₁, hs₁, h⟩ := bind_eq_ok.mp h
    have hdeleted := keepsSpans_deletePlansOfRevision hs₁
    rw [← Except.ok.inj h]
    exact fun hs => hdeleted hs
  · exact .refl _

lemma jobs_discard (hostId turnId : String) (revision : ContentRevision) :
    (s.discardAcknowledgedFinalReplay hostId turnId revision).jobs = s.jobs := by
  unfold discardAcknowledgedFinalReplay
  split
  · rfl
  · dsimp only
    split
    · rfl
    · rfl

theorem keepsSpans_ensure {hostId turnId : String} {revision : ContentRevision} {id : Option Nat}
    (h : s.ensureFinalReadyAnchor hostId turnId revision now = .ok (s', id)) : KeepsSpans s s' := by
  rcases ensureFinalReadyAnchor_cases h with ⟨-, rfl⟩ | ⟨payload, hp, h⟩
  · exact .refl _
  · rcases h with ⟨-, -, rfl⟩ | ⟨-, -, rfl⟩ | ⟨s₁, hs₁, h⟩
    · exact .refl _
    · exact .of_jobs (jobs_discard _ _ _)
    · have hinserted := jobs_insertOutboxOrIgnore h
      exact (keepsSpans_reactivates hs₁).trans (.of_jobs hinserted)

/-! ### Begin, part, commit and recovery -/

lemma forward_of_spansInOrder {row : RevisionRow} {cursors : SpanCursors} {rank : Nat}
    {spans : List Span} (h : spansInOrder row cursors rank spans = true) :
    ∀ span ∈ spans, span.Forward := by
  induction spans generalizing cursors rank with
  | nil => simp
  | cons span spans ih =>
    obtain ⟨hfits, hrest⟩ := Bool.and_eq_true_iff.mp h
    simp only [spanFits, Bool.and_eq_true, decide_eq_true_eq] at hfits
    intro x hx
    rcases List.mem_cons.mp hx with rfl | hx
    · exact hfits.1.1.1.2
    · exact ih hrest x hx

theorem keepsSpans_planBegin {req : PlanBegin} {receipt : PlanReceipt}
    (h : s.prepareConnectorPlanBegin req now = .ok (s', receipt)) : KeepsSpans s s' := by
  obtain ⟨-, _, _, _, -, -, ⟨-, h⟩ | ⟨_, _, -, -, rfl | ⟨_, -, -, -, rfl⟩⟩⟩ :=
    prepareConnectorPlanBegin_cases h
  · exact .of_jobs (jobs_insertPlan h)
  · exact .refl _
  · exact .of_jobs rfl

theorem keepsSpans_planPart {hostId name : String} {token : PlanToken} {ordinal : Nat}
    {spans : List Span} {accepted : Nat}
    (h : s.prepareConnectorPlanPart hostId name token ordinal spans now = .ok (s', accepted)) :
    KeepsSpans s s' := by
  unfold prepareConnectorPlanPart at h
  obtain ⟨_, -, h⟩ := bind_eq_ok.mp h
  obtain ⟨⟨planId, plan⟩, -, h⟩ := bind_eq_ok.mp h
  obtain ⟨_, -, h⟩ := bind_eq_ok.mp h
  obtain ⟨row, -, h⟩ := bind_eq_ok.mp h
  obtain ⟨_, hvalid, h⟩ := bind_eq_ok.mp h
  have hforward : ∀ span ∈ spans, span.Forward := by
    have hspans := require_eq_ok.mp hvalid
    simp only [validatePresentationSpans, Bool.and_eq_true] at hspans
    exact forward_of_spansInOrder hspans.1.1
  split at h
  · obtain ⟨_, -, h⟩ := bind_eq_ok.mp h
    rw [← (Prod.mk.inj (Except.ok.inj h)).1]
    exact .refl s
  · obtain ⟨_, -, h⟩ := bind_eq_ok.mp h
    obtain ⟨s₁, hs₁, h⟩ := bind_eq_ok.mp h
    rw [← (Prod.mk.inj (Except.ok.inj h)).1]
    exact keepsSpans_insertJob hforward hs₁

lemma keepsSpans_materializeCommit {w : CommitWork} (h : s.materializeCommit w now = .ok s') :
    KeepsSpans s s' := by
  obtain ⟨s₁, hs₁, h⟩ := bind_eq_ok.mp h
  have hstaged : KeepsSpans s s₁ := foldlM_invariant (P := KeepsSpans s)
    (fun _ _ _ _ ht hstep => ht.trans (keepsSpans_materialize hstep)) (.refl s) hs₁
  refine hstaged.trans (keepsSpans_addJobs ?_ h)
  intro j hj
  obtain ⟨k, -, rfl⟩ := List.mem_map.mp hj
  simp

lemma jobs_holdSource {live : Option LiveRef} {generation footprint : Nat} {deadline : Int}
    (h : s.holdSource live generation footprint deadline now = .ok s') : s'.jobs = s.jobs := by
  unfold holdSource at h
  split at h
  · obtain ⟨_, _, -, -, -, -, -, rfl⟩ := awaitAcknowledgement_spec h
    rfl
  · rw [Except.ok.inj h]

theorem keepsSpans_planCommit {req : PlanCommit} {receipt : PlanReceipt}
    (h : s.prepareConnectorPlanCommit req now = .ok (s', receipt)) : KeepsSpans s s' := by
  rcases prepareConnectorPlanCommit_cases h with rfl | ⟨_, _, w, s₁, _, _, -, -, -, hs₁, h⟩
  · exact .refl _
  · have hheld := jobs_holdSource h
    exact (keepsSpans_materializeCommit hs₁).trans (.of_jobs hheld)

lemma keepsSpans_finalizeRecovered {failedId recoveredId : Nat}
    (h : s.finalizeRecoveredPlanMaterialization failedId recoveredId = .ok s') :
    KeepsSpans s s' := by
  rcases finalizeRecovered_cases h with ⟨-, rfl⟩ | ⟨_, s₂, -, hs₂, h⟩
  · exact .refl _
  · have hdeleted : KeepsSpans s s₂ := fun hs =>
      KeepsSpans.of_jobs (jobs_deleteOutbox hs₂) (keepsSpans_deleteJobs _ hs)
    refine hdeleted.trans ?_
    unfold pruneRecoveries at h
    dsimp only at h
    split at h
    · rw [← Except.ok.inj h]
      exact .of_jobs rfl
    · have hpruned := keepsSpans_deletePlans h
      exact fun hs => hpruned hs

/-- The jobs a recovery adds repeat the spans of the failed plan's jobs. -/
lemma forward_specs {req : PlanRecover} {failedId : Nat} {failed : Plan} {w : RecoveryWork}
    (hs : s.SpansForward) (h : s.recoveryWork req failedId failed = .ok w) :
    ∀ j ∈ w.specs, ∀ span ∈ j.spans, span.Forward := by
  obtain ⟨-, -, -, -, -, hjobs, -, hsuffix, -, -⟩ := recoveryWork_spec h
  intro j hj
  obtain ⟨x, hx, rfl⟩ := List.mem_map.mp hj
  rw [hsuffix, hjobs] at hx
  obtain ⟨e, he, hx⟩ := List.mem_filterMap.mp (List.mem_of_mem_drop hx)
  obtain ⟨r, -, rfl⟩ := Option.map_eq_some_iff.mp hx
  have hmem := (List.mem_insertionSort _).mp he
  exact hs e.1 e.2 (Relational.Table.mem_select.mp hmem).1

theorem keepsSpans_planRecover {req : PlanRecover} {receipt : RecoveryReceipt}
    (h : s.prepareConnectorPlanRecover req now = .ok (s', receipt)) : KeepsSpans s s' := by
  rcases prepareConnectorPlanRecover_cases h with rfl | ⟨failedId, failed, w, -, hw, h⟩
  · exact .refl _
  · intro hs
    obtain ⟨s₁, s₂, s₃, hs₁, hs₂, hs₃, h⟩ := materializeRecovery_spec h
    have hplan : KeepsSpans s s₁ := .of_jobs (jobs_insertPlan hs₁)
    have hjobs : KeepsSpans s₁ s₂ := keepsSpans_addJobs (forward_specs hs hw) hs₂
    obtain ⟨u, rfl, -⟩ := insertRecovery_spec hs₃
    exact keepsSpans_finalizeRecovered h (hjobs (hplan hs))

/-! ### Every operation -/

theorem respects_keepsSpans : Respects KeepsSpans where
  refl := .refl
  trans := .trans
  write _ _ _ := .of_jobs rfl
  ensure := keepsSpans_ensure
  enqueue h := .of_jobs (jobs_insertOutboxOrIgnore h)
  poll _ req _ := .of_jobs (jobs_poll req)
  renew h := by
    obtain ⟨s₁, live, renewed, hlive, rfl⟩ := renewConnectorDelivery_spec h
    obtain ⟨rfl, -⟩ := reclaimedLiveRef_spec hlive
    exact .of_jobs (jobs_reclaim _ _)
  release h := by
    obtain ⟨s₁, live, status, response, next, hlive, -, rfl⟩ := releaseConnectorDelivery_spec h
    obtain ⟨rfl, -⟩ := reclaimedLiveRef_spec hlive
    exact .of_jobs ((jobs_afterOutbox _ _ _).trans (jobs_reclaim _ _))
  ack h := by
    obtain ⟨s₁, live, hlive, -, rfl⟩ := ackConnectorDelivery_spec h
    obtain ⟨rfl, -⟩ := reclaimedLiveRef_spec hlive
    exact .of_jobs ((jobs_afterOutbox _ _ _).trans
      ((jobs_settleMigrationGroup _ _).trans (jobs_reclaim _ _)))
  setback h := by
    obtain ⟨s₁, live, result, next, priv, hlive, -, rfl⟩ := setbackConnectorDelivery_spec h
    obtain ⟨rfl, -⟩ := reclaimedLiveRef_spec hlive
    exact .of_jobs ((jobs_afterOutbox _ _ _).trans (jobs_reclaim _ _))
  reclaim _ _ _ _ := .of_jobs (jobs_reclaim _ _)
  exhaust _ _ _ _ _ := .of_jobs (jobs_exhaust _ _ _)
  planBegin := keepsSpans_planBegin
  planPart := keepsSpans_planPart
  planCommit := keepsSpans_planCommit
  planRecover := keepsSpans_planRecover
  finalRetry h := by
    obtain ⟨i, root, -, -, ⟨-, rfl⟩ | ⟨_, _, h⟩ | ⟨payload, -, -, rfl⟩⟩ :=
      retryFinalReadyDelivery_cases h
    · exact .of_jobs rfl
    · exact keepsSpans_planRecover h
    · exact .of_jobs rfl

/-- In every store of a run the spans run forward. -/
theorem spansForward_run (supersessions : Relational.Constrained supersessionSchema)
    (calls : List Call) : ((initial supersessions).run calls).SpansForward :=
  foldl_invariant (P := SpansForward) (fun s c _ hs => respects_keepsSpans.step s c hs)
    (spansForward_initial supersessions)

end Store

end Tendwire.Connector

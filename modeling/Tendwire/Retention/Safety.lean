import Mathlib.Data.Option.Basic
import Tendwire.Retention.Machine

/-!
# What retention deletes

Every cleanup deletes only work that is over, and a current revision only with its turn, after
each part of a completed plan for that very revision was acknowledged.
-/

namespace Tendwire.Connector

open Relational Transition

/-- The row is the same, or it was resolved and is gone. -/
def RowSpared (r r' : Option OutboxRow) : Prop :=
  r' = r ∨ r' = none ∧ ∀ x, r = some x → x.status.resolved = true

/-- The plan keeps its progress, or it was a draft or finished and is gone. -/
def PlanSpared (p p' : Option Plan) : Prop :=
  (∃ source partCount, p' = p.map fun x => { x with sourceOutboxId := source, partCount }) ∨
    p' = none ∧ ∀ x, p = some x → x.state = .preparing ∨ x.state.finished = true

/-- The attempt may lose its row, or it had ended and is gone. -/
def AttemptSpared (d d' : Option Delivery) : Prop :=
  (∃ outboxId, d' = d.map fun x => { x with outboxId }) ∨
    d' = none ∧ ∀ x, d = some x → x.status.terminalAttempt = true

lemma RowSpared.trans {r r' r'' : Option OutboxRow} (h : RowSpared r r') (h' : RowSpared r' r'') :
    RowSpared r r'' := by
  rcases h with rfl | ⟨rfl, hover⟩
  · exact h'
  · refine .inr ⟨?_, hover⟩
    rcases h' with h' | h'
    · exact h'
    · exact h'.1

lemma PlanSpared.trans {p p' p'' : Option Plan} (h : PlanSpared p p') (h' : PlanSpared p' p'') :
    PlanSpared p p'' := by
  rcases h with ⟨source, partCount, rfl⟩ | ⟨rfl, hover⟩
  · rcases h' with ⟨source', partCount', rfl⟩ | ⟨rfl, hover'⟩
    · refine .inl ⟨source', partCount', ?_⟩
      cases p <;> rfl
    · refine .inr ⟨rfl, fun x hx => ?_⟩
      have hx' := hover' _ (congrArg (Option.map fun x : Plan =>
        { x with sourceOutboxId := source, partCount }) hx)
      exact hx'
  · refine .inr ⟨?_, hover⟩
    rcases h' with ⟨_, _, h'⟩ | h'
    · exact h'
    · exact h'.1

lemma AttemptSpared.trans {d d' d'' : Option Delivery} (h : AttemptSpared d d')
    (h' : AttemptSpared d' d'') : AttemptSpared d d'' := by
  rcases h with ⟨outboxId, rfl⟩ | ⟨rfl, hover⟩
  · rcases h' with ⟨outboxId', rfl⟩ | ⟨rfl, hover'⟩
    · refine .inl ⟨outboxId', ?_⟩
      cases d <;> rfl
    · refine .inr ⟨rfl, fun x hx => ?_⟩
      have hx' := hover' _ (congrArg (Option.map fun x : Delivery => { x with outboxId }) hx)
      exact hx'
  · refine .inr ⟨?_, hover⟩
    rcases h' with ⟨_, h'⟩ | h'
    · exact h'
    · exact h'.1

lemma RowSpared.filter {r : Option OutboxRow} {q : OutboxRow → Bool}
    (h : ∀ x, r = some x → q x = true → x.status.resolved = true) :
    RowSpared r (r.filter fun x => !q x) := by
  cases r with
  | none => exact .inl rfl
  | some x =>
    cases hq : q x with
    | false => exact .inl (by simp [hq])
    | true =>
      refine .inr ⟨by simp [hq], fun y hy => ?_⟩
      obtain rfl := Option.some.inj hy
      exact h x rfl hq

lemma PlanSpared.refl (p : Option Plan) : PlanSpared p p := by
  cases p with
  | none => exact .inl ⟨none, 0, rfl⟩
  | some x => exact .inl ⟨x.sourceOutboxId, x.partCount, rfl⟩

lemma PlanSpared.filter {p : Option Plan} {q : Plan → Bool}
    (h : ∀ x, p = some x → q x = true → x.state = .preparing ∨ x.state.finished = true) :
    PlanSpared p (p.filter fun x => !q x) := by
  cases p with
  | none => exact .refl none
  | some x =>
    cases hq : q x with
    | false =>
      rw [Option.filter_some, hq]
      exact .refl _
    | true =>
      refine .inr ⟨by simp [hq], fun y hy => ?_⟩
      obtain rfl := Option.some.inj hy
      exact h x rfl hq

lemma AttemptSpared.refl (d : Option Delivery) : AttemptSpared d d := by
  cases d with
  | none => exact .inl ⟨none, rfl⟩
  | some x => exact .inl ⟨x.outboxId, rfl⟩

lemma AttemptSpared.filter {d : Option Delivery} {q : Delivery → Bool}
    (h : ∀ x, d = some x → q x = true → x.status.terminalAttempt = true) :
    AttemptSpared d (d.filter fun x => !q x) := by
  cases d with
  | none => exact .refl none
  | some x =>
    cases hq : q x with
    | false =>
      rw [Option.filter_some, hq]
      exact .refl _
    | true =>
      refine .inr ⟨by simp [hq], fun y hy => ?_⟩
      obtain rfl := Option.some.inj hy
      exact h x rfl hq

/-- The calls that delete: the two cleanups and the automatic run of the first. -/
def StoreCall.retention : StoreCall → Bool
  | .connector _ => false
  | .cleanupFinals _ _ | .cleanupContent _ _ | .automatic _ _ => true

namespace Store

variable {s s' s'' : Store}

/-- What is gone was over: resolved rows, drafts and finished plans, attempts that had ended. -/
structure Spares (s s' : Store) : Prop where
  outbox : ∀ i, RowSpared (s.outbox.get? i) (s'.outbox.get? i)
  plans : ∀ i, PlanSpared (s.plans.get? i) (s'.plans.get? i)
  deliveries : ∀ k, AttemptSpared (s.deliveries.get? k) (s'.deliveries.get? k)

lemma Spares.of_eq (ho : s'.outbox = s.outbox) (hp : s'.plans = s.plans)
    (hd : s'.deliveries = s.deliveries) : Spares s s' :=
  ⟨fun _ => .inl (by rw [ho]), fun _ => hp ▸ .refl _, fun _ => hd ▸ .refl _⟩

lemma Spares.refl (s : Store) : Spares s s := .of_eq rfl rfl rfl

lemma Spares.trans (h : Spares s s') (h' : Spares s' s'') : Spares s s'' :=
  ⟨fun i => (h.outbox i).trans (h'.outbox i), fun i => (h.plans i).trans (h'.plans i),
    fun k => (h.deliveries k).trans (h'.deliveries k)⟩

lemma spares_deleteDeliveries {p : Nat → Delivery → Bool}
    (h : ∀ k d, s.deliveries.get? k = some d → p k d = true → d.status.terminalAttempt = true) :
    Spares s (s.deleteDeliveries p) := by
  refine ⟨fun i => .inl rfl, fun i => .refl _, fun k => ?_⟩
  unfold deleteDeliveries
  dsimp only
  rw [Table.get?_deleteWhere]
  exact .filter (h k)

lemma spares_deletePlans {p : Nat → Plan → Bool}
    (hp : ∀ i x, s.plans.get? i = some x → p i x = true →
      x.state = .preparing ∨ x.state.finished = true)
    (h : s.deletePlans p = .ok s') : Spares s s' := by
  obtain ⟨-, rfl⟩ := deletePlans_spec h
  refine ⟨fun i => .inl rfl, fun i => ?_, fun k => .refl _⟩
  dsimp only
  rw [Constrained.get?_deleteWhere]
  exact .filter (hp i)

lemma spares_deleteOutbox {p : Nat → OutboxRow → Bool}
    (hp : ∀ i r, s.outbox.get? i = some r → p i r = true → r.status.resolved = true)
    (h : s.deleteOutbox p = .ok s') : Spares s s' := by
  obtain ⟨-, rfl⟩ := deleteOutbox_spec h
  refine ⟨fun i => ?_, fun i => .refl _, fun k => ?_⟩
  · dsimp only
    rw [Constrained.get?_deleteWhere]
    exact .filter (hp i)
  · dsimp only
    rw [Table.get?_updateWhere]
    cases s.deliveries.get? k with
    | none => exact .refl none
    | some d =>
      rw [Option.map_some]
      split
      · exact .inl ⟨none, rfl⟩
      · exact .refl _

/-! ### Turn content -/

lemma hasUnsafeAttempt_eq_false {o : Nat} {cutoffAt : Int} {allowYoung : Bool}
    (h : s.hasUnsafeAttempt o cutoffAt allowYoung = false) {k : Nat} {d : Delivery}
    (hd : s.deliveries.get? k = some d) (ho : d.outboxId = some o) :
    d.status.terminalAttempt = true := by
  have hfalse := Table.any_eq_false_iff.mp h k d hd
  simp only [ho, beq_self_eq_true, Bool.true_and, Delivery.unsafeAttempt, Bool.or_eq_false_iff,
    Bool.not_eq_false'] at hfalse
  exact hfalse.1

/-- The row of a job that keeps no plan was resolved, and so were its attempts. -/
structure JobOver (s : Store) (o : Nat) : Prop where
  row : ∀ r, s.outbox.get? o = some r → r.status.resolved = true
  attempts : ∀ k d, s.deliveries.get? k = some d → d.outboxId = some o →
    d.status.terminalAttempt = true

lemma jobAnchorReason_eq_none {i : Nat} {p : Plan} {cutoffAt : Int} {allowYoung : Bool}
    (h : s.jobAnchorReason i p cutoffAt allowYoung = none) {k o : Nat} {j : Job}
    (hj : s.jobs.get? k = some j) (hplan : j.planId = i) (ho : j.outboxId = some o) :
    s.JobOver o := by
  have hnone := List.findSome?_eq_none_iff.mp h (k, j)
    (Table.mem_select.mpr ⟨hj, beq_iff_eq.mpr hplan⟩)
  dsimp only at hnone
  split at hnone
  · cases hnone
  · next row hrow =>
    unfold jobOutbox? at hrow
    rw [ho, Option.bind_some] at hrow
    generalize hresolved : (if p.wasCompleted then row.status == .delivered
      else row.status.resolved) = resolved at hnone
    split at hnone
    · cases hnone
    · next hstatus =>
      split at hnone
      · cases hnone
      · next hattempt =>
        refine ⟨fun r hr => ?_, fun k d hd hdo => ?_⟩
        · obtain rfl := Option.some.inj (hr.symm.trans hrow)
          simp only [Bool.or_eq_true, Bool.not_eq_true', not_or, Bool.not_eq_false] at hstatus
          rw [hstatus.1] at hresolved
          split at hresolved
          · rw [beq_iff_eq.mp hresolved]
            rfl
          · exact hresolved
        · rw [ho, Option.any_some] at hattempt
          exact hasUnsafeAttempt_eq_false (Bool.eq_false_iff.mpr hattempt) hd hdo

/-- The rows of a plan's jobs are over when the second check lets the plan go. -/
lemma jobOver_of_treated {i : Nat} {p : Plan} {cutoffAt retentionCount : Int}
    (h : s.terminalPlanReferenceReason i p cutoffAt retentionCount = none) {o : Nat}
    (ho : s.isJobOf (· == i) o = true) : s.JobOver o := by
  obtain ⟨k, j, hj, hc⟩ := Table.any_iff.mp ho
  simp only [Bool.and_eq_true, beq_iff_eq] at hc
  obtain ⟨-, ⟨-, hdraft⟩ | ⟨-, -, allowYoung, hjobs⟩⟩ := terminalPlanReferenceReason_eq_none h
  · have hnone := hdraft k j hj hc.1
    rw [hc.2] at hnone
    cases hnone
  · exact jobAnchorReason_eq_none hjobs hj hc.1 hc.2

lemma spares_deletePlanWork {i : Nat} (hjobs : ∀ o, s.isJobOf (· == i) o = true → s.JobOver o)
    (h : s.deletePlanWork i = .ok s') : Spares s s' := by
  let s₁ := s.deleteRecoveries fun _ a => a.failedPlanId == i || a.recoveredPlanId == i
  let s₂ := s₁.deleteDeliveries fun _ d => d.outboxId.any fun o => s.isJobOf (· == i) o
  have h₁ : Spares s s₁ := .of_eq rfl rfl rfl
  have h₂ : Spares s₁ s₂ := by
    refine spares_deleteDeliveries fun k d hd hc => ?_
    obtain ⟨o, ho, hjob⟩ := (Option.any_eq_true _ _).mp hc
    exact (hjobs o hjob).attempts k d hd ho
  have h₃ : Spares s₂ (s₂.deleteJobs fun _ j => j.planId == i) := .of_eq rfl rfl rfl
  refine ((h₁.trans h₂).trans h₃).trans (spares_deleteOutbox (fun o r hr hjob => ?_) h)
  exact (hjobs o hjob).row r hr

lemma spares_summarizePlan {i m : Nat} (h : s.summarizePlan i m = .ok s') : Spares s s' := by
  obtain ⟨p, plans, hp, -, rfl, hplans⟩ := summarizePlan_spec h
  refine ⟨fun _ => .inl rfl, fun j => ?_, fun _ => .refl _⟩
  dsimp only
  rw [hplans]
  split
  · next hj =>
    rw [hj, hp]
    exact .inl ⟨none, m, rfl⟩
  · exact .refl _

lemma spares_retirePlan {i m : Nat} {p : Plan} {cutoffAt : Int} {retain : Bool}
    (hp : ∀ x, s.plans.get? i = some x → x.state = .preparing ∨ x.state.finished = true)
    (h : s.retirePlan i p cutoffAt retain m = .ok s') : Spares s s' := by
  unfold retirePlan at h
  split at h
  · obtain ⟨s₁, hs₁, h⟩ := bind_eq_ok.mp h
    refine (spares_summarizePlan hs₁).trans (spares_deletePlans (fun j x _ hx => ?_) h)
    simp only [collapsedPlan, Bool.and_eq_true, beq_iff_eq] at hx
    rw [hx.1.1.1.1.2]
    exact .inr rfl
  · refine spares_deletePlans (fun j x hx hj => hp x ?_) h
    rwa [← beq_iff_eq.mp hj]

lemma spares_deleteTerminalSourceAnchor {o : Nat} {hostId turnId : String}
    {revision : ContentRevision} {cutoffAt : Int} {sourceStatus : OutboxStatus} {allowYoung : Bool}
    (hstatus : sourceStatus.resolved = true)
    (h : s.deleteTerminalSourceAnchor o hostId turnId revision cutoffAt sourceStatus allowYoung =
      .ok s') : Spares s s' := by
  unfold deleteTerminalSourceAnchor at h
  split at h
  · rw [Except.ok.inj h]
    exact .refl s'
  · next hreason =>
    simp only [Bool.or_eq_true, not_or, Bool.not_eq_true, Option.isSome_eq_false_iff,
      Option.isNone_iff_eq_none] at hreason
    have hanchor := hreason.1
    unfold terminalSourceAnchorReferenceReason at hanchor
    split at hanchor
    · cases hanchor
    · next source hsource =>
      split at hanchor
      · cases hanchor
      · next hcolumns =>
        split at hanchor
        · cases hanchor
        · split at hanchor
          · cases hanchor
          · next hattempts =>
            simp only [Bool.or_eq_true, not_or, bne_iff_ne, not_not] at hcolumns
            have hdeliveries : Spares s (s.deleteDeliveries fun _ d => d.outboxId == some o) :=
              spares_deleteDeliveries fun k d hd hc =>
                hasUnsafeAttempt_eq_false (Bool.eq_false_iff.mpr hattempts) hd (beq_iff_eq.mp hc)
            refine hdeliveries.trans (spares_deleteOutbox (fun j r hr hj => ?_) h)
            · rw [beq_iff_eq.mp hj] at hr
              obtain rfl := Option.some.inj (hr.symm.trans hsource)
              rw [hcolumns.1.2]
              exact hstatus

/-- The current revisions are still there. -/
def KeepsCurrent (s s' : Store) : Prop :=
  ∀ i r, s.revisions.get? i = some r → r.isCurrent = true → s'.revisions.get? i = some r

lemma keepsCurrent_of_eq (h : s'.revisions = s.revisions) : KeepsCurrent s s' :=
  fun _ _ hr _ => h ▸ hr

lemma keepsCurrent_deleteSupersededRevision (req : ContentCleanup) (i : Nat) (cutoffAt : Int)
    (allowYoung : Bool) :
    KeepsCurrent s (s.deleteSupersededRevision req i cutoffAt allowYoung) := by
  intro j r hr hcurrent
  unfold deleteSupersededRevision
  dsimp only
  rw [Constrained.get?_deleteWhere, hr]
  simp [hcurrent]

lemma keepsCurrent_deleteRevisionOf (req : ContentCleanup) (p : Plan) (cutoffAt : Int)
    (allowYoung : Bool) : KeepsCurrent s (s.deleteRevisionOf req p cutoffAt allowYoung) := by
  unfold deleteRevisionOf
  split
  · exact keepsCurrent_deleteSupersededRevision _ _ _ _
  · exact keepsCurrent_of_eq rfl

lemma deletePlanWork_revisions {i : Nat} (h : s.deletePlanWork i = .ok s') :
    s'.revisions = s.revisions := by
  obtain ⟨-, rfl⟩ := deleteOutbox_spec h
  rfl

lemma retirePlan_revisions {i m : Nat} {p : Plan} {cutoffAt : Int} {retain : Bool}
    (h : s.retirePlan i p cutoffAt retain m = .ok s') : s'.revisions = s.revisions := by
  unfold retirePlan at h
  split at h
  · obtain ⟨s₁, hs₁, h⟩ := bind_eq_ok.mp h
    obtain ⟨_, plans, -, -, rfl, -⟩ := summarizePlan_spec hs₁
    obtain ⟨-, rfl⟩ := deletePlans_spec h
    rfl
  · obtain ⟨-, rfl⟩ := deletePlans_spec h
    rfl

lemma deleteTerminalSourceAnchor_revisions {o : Nat} {hostId turnId : String}
    {revision : ContentRevision} {cutoffAt : Int} {sourceStatus : OutboxStatus} {allowYoung : Bool}
    (h : s.deleteTerminalSourceAnchor o hostId turnId revision cutoffAt sourceStatus allowYoung =
      .ok s') : s'.revisions = s.revisions := by
  unfold deleteTerminalSourceAnchor at h
  split at h
  · rw [Except.ok.inj h]
  · obtain ⟨-, rfl⟩ := deleteOutbox_spec h
    rfl

/-- Content retention spares unfinished work and every current revision. -/
structure ContentSafe (s s' : Store) : Prop where
  spares : Spares s s'
  current : KeepsCurrent s s'

lemma ContentSafe.refl (s : Store) : ContentSafe s s := ⟨.refl s, fun _ _ hr _ => hr⟩

lemma ContentSafe.trans (h : ContentSafe s s') (h' : ContentSafe s' s'') : ContentSafe s s'' :=
  ⟨h.spares.trans h'.spares, fun i r hr hc => h'.current i r (h.current i r hr hc) hc⟩

lemma contentSafe_deleteTerminalSourceAnchor {o : Nat} {hostId turnId : String}
    {revision : ContentRevision} {cutoffAt : Int} {sourceStatus : OutboxStatus} {allowYoung : Bool}
    (hstatus : sourceStatus.resolved = true)
    (h : s.deleteTerminalSourceAnchor o hostId turnId revision cutoffAt sourceStatus allowYoung =
      .ok s') : ContentSafe s s' :=
  ⟨spares_deleteTerminalSourceAnchor hstatus h,
    keepsCurrent_of_eq (deleteTerminalSourceAnchor_revisions h)⟩

lemma contentSafe_deleteRetainedPlan {req : ContentCleanup} {i m : Nat} {p : Plan}
    {cutoffAt : Int} {retain : Bool} (hp : s.plans.get? i = some p)
    (hreason : s.terminalPlanReferenceReason i p cutoffAt req.boundedRetentionCount = none)
    (h : s.deleteRetainedPlan req i p cutoffAt retain m = .ok s') : ContentSafe s s' := by
  obtain ⟨s₁, hs₁, h⟩ := bind_eq_ok.mp h
  obtain ⟨s₂, hs₂, h⟩ := bind_eq_ok.mp h
  obtain ⟨s₃, hs₃, h⟩ := bind_eq_ok.mp h
  obtain rfl := Except.ok.inj h
  have hover : ∀ x, s₁.plans.get? i = some x → x.state = .preparing ∨ x.state.finished = true := by
    intro x hx
    obtain ⟨-, rfl⟩ := deleteOutbox_spec hs₁
    obtain rfl := Option.some.inj (hp.symm.trans hx)
    obtain ⟨-, ⟨hdraft, -⟩ | ⟨hfinished, -⟩⟩ := terminalPlanReferenceReason_eq_none hreason
    · exact .inl hdraft
    · exact .inr hfinished
  have hwork : ContentSafe s s₁ :=
    ⟨spares_deletePlanWork (fun o ho => jobOver_of_treated hreason ho) hs₁,
      keepsCurrent_of_eq (deletePlanWork_revisions hs₁)⟩
  have hplan : ContentSafe s₁ s₂ :=
    ⟨spares_retirePlan hover hs₂, keepsCurrent_of_eq (retirePlan_revisions hs₂)⟩
  have hsource : ContentSafe s₂ s₃ := by
    unfold deleteSourceOf at hs₃
    split at hs₃
    · refine contentSafe_deleteTerminalSourceAnchor ?_ hs₃
      split
      · rfl
      · rfl
    · rw [Except.ok.inj hs₃]
      exact .refl s₃
  have hrevision : ContentSafe s₃ (s₃.deleteRevisionOf req p cutoffAt (p.wasCompleted &&
      p.sourceOutboxId.any fun sourceId => (s.deliveredFinalRank p.hostId sourceId).any fun rank =>
        decide (req.boundedRetentionCount < rank.1))) := by
    refine ⟨?_, keepsCurrent_deleteRevisionOf _ _ _ _⟩
    unfold deleteRevisionOf
    split
    · exact .of_eq rfl rfl rfl
    · exact .refl s₃
  exact ((hwork.trans hplan).trans hsource).trans hrevision

theorem contentSafe_treatCandidate {req : ContentCleanup} {cutoffAt : Int} {c : ContentCandidate}
    (h : treatCandidate req cutoffAt s c = .ok s') : ContentSafe s s' := by
  obtain rfl | ⟨i, p, -, hp, -, hreason, h⟩ | ⟨i, hostId, turnId, revision, h⟩ | ⟨i, rfl⟩ :=
    treatCandidate_cases h
  · exact .refl s'
  · exact contentSafe_deleteRetainedPlan hp hreason h
  · exact contentSafe_deleteTerminalSourceAnchor rfl h
  · exact ⟨.of_eq rfl rfl rfl, keepsCurrent_deleteSupersededRevision _ _ _ _⟩

theorem contentSafe_cleanup {req : ContentCleanup} {now : Int}
    (h : s.cleanupTurnContentRetention req now = .ok s') : ContentSafe s s' := by
  unfold cleanupTurnContentRetention at h
  split at h
  · rw [Except.ok.inj h]
    exact .refl s'
  · exact foldlM_rel ContentSafe.refl (fun _ _ _ h h' => h.trans h')
      (fun _ _ _ h => contentSafe_treatCandidate h) _ h

/-! ### Acknowledged finals -/

/-- The job's row is delivered, and so is an attempt of it. -/
def JobAcknowledged (s : Store) (j : Job) : Prop :=
  ∃ o row, j.outboxId = some o ∧ s.outbox.get? o = some row ∧ row.status = .delivered ∧
    ∃ k d, s.deliveries.get? k = some d ∧ d.outboxId = some o ∧ d.status = .delivered ∧
      d.deliveredAt.isSome = true

/-- Every job of a completed plan for the revision was acknowledged. -/
def RevisionAcknowledged (s : Store) (r : RevisionRow) : Prop :=
  ∃ i p, s.plans.get? i = some p ∧ p.hostId = r.hostId ∧ p.turnId = r.turnId ∧
    p.contentRevision = r.contentRevision ∧ p.completedAt.isSome = true ∧
    ∀ k j, s.jobs.get? k = some j → j.planId = i → s.JobAcknowledged j

/-- The deletions of a turn leave the rest as it is. -/
structure Prunes (s s' : Store) : Prop where
  outbox : ∀ i r, s'.outbox.get? i = some r → s.outbox.get? i = some r
  plans : ∀ i p, s'.plans.get? i = some p → s.plans.get? i = some p
  jobs : ∀ k j, s.jobs.get? k = some j → (s'.plans.get? j.planId).isSome = true →
    s'.jobs.get? k = some j
  deliveries : ∀ k d, s'.deliveries.get? k = some d → ∃ o, s.deliveries.get? k =
    some { d with outboxId := o } ∧ ∀ i, d.outboxId = some i → o = some i
  turns : ∀ i t, s'.turns.get? i = some t → s.turns.get? i = some t
  revisions : ∀ i r, s'.revisions.get? i = some r → s.revisions.get? i = some r

lemma Prunes.refl (s : Store) : Prunes s s where
  outbox _ _ h := h
  plans _ _ h := h
  jobs _ _ h _ := h
  deliveries _ d h := ⟨d.outboxId, h, fun _ h => h⟩
  turns _ _ h := h
  revisions _ _ h := h

lemma Prunes.trans (h : Prunes s s') (h' : Prunes s' s'') : Prunes s s'' where
  outbox i r hr := h.outbox i r (h'.outbox i r hr)
  plans i p hp := h.plans i p (h'.plans i p hp)
  jobs k j hj hp := by
    obtain ⟨p, hp'⟩ := Option.isSome_iff_exists.mp hp
    exact h'.jobs k j (h.jobs k j hj (by rw [h'.plans _ p hp']; rfl)) hp
  deliveries k d hd := by
    obtain ⟨o, hd', ho⟩ := h'.deliveries k d hd
    obtain ⟨o', hd'', ho'⟩ := h.deliveries k _ hd'
    exact ⟨o', hd'', fun i hi => ho' i (ho i hi)⟩
  turns i t ht := h.turns i t (h'.turns i t ht)
  revisions i r hr := h.revisions i r (h'.revisions i r hr)

/-- An acknowledgement that is proved after a deletion was there before it. -/
lemma RevisionAcknowledged.of_prunes (h : Prunes s s') {r : RevisionRow}
    (hr : s'.RevisionAcknowledged r) : s.RevisionAcknowledged r := by
  obtain ⟨i, p, hp, hhost, hturn, hrevision, hcompleted, hjobs⟩ := hr
  refine ⟨i, p, h.plans i p hp, hhost, hturn, hrevision, hcompleted, fun k j hj hplan => ?_⟩
  have hj' := h.jobs k j hj (by rw [hplan, hp]; rfl)
  obtain ⟨o, row, ho, hrow, hstatus, l, d, hd, hdo, hdelivered⟩ := hjobs k j hj' hplan
  obtain ⟨o', hd', ho'⟩ := h.deliveries l d hd
  exact ⟨o, row, ho, h.outbox o row hrow, hstatus, l, _, hd', ho' o hdo, hdelivered⟩

/-- Nothing of the turn is unfinished. -/
structure Settled (s : Store) (hostId turnId : String) : Prop where
  rows : ∀ i r, s.outbox.get? i = some r → rowOfTurn hostId turnId r = true →
    r.status.resolved = true
  plans : ∀ i p, s.plans.get? i = some p → planOfTurn hostId turnId p = true →
    p.state.finished = true
  attempts : ∀ k d i r, s.deliveries.get? k = some d → s.outbox.get? i = some r →
    rowOfTurn hostId turnId r = true → d.AttemptOf r → d.status.terminalAttempt = true

variable {hostId turnId : String}

lemma Settled.of_prunes (h : Prunes s s') (hs : s.Settled hostId turnId) :
    s'.Settled hostId turnId where
  rows i r hr := hs.rows i r (h.outbox i r hr)
  plans i p hp := hs.plans i p (h.plans i p hp)
  attempts k d i r hd hr hturn hattempt := by
    obtain ⟨o, hd', -⟩ := h.deliveries k d hd
    exact hs.attempts k { d with outboxId := o } i r hd' (h.outbox i r hr) hturn hattempt

lemma PlanState.finished_of_not_open {state : PlanState} (h : state.open = false) :
    state.finished = true := by
  cases state <;> first | rfl | cases h

lemma settled_of_resolved (hs : Consistent s) {source : OutboxRow} (hhost : source.hostId = hostId)
    (hname : source.connector = turnFinalName) (hturn : source.turnId = some turnId)
    (h : s.wholeTurnResolved source = true) : s.Settled hostId turnId := by
  unfold wholeTurnResolved at h
  simp only [Bool.and_eq_true, Bool.not_eq_true', Table.any_eq_false_iff, hhost, hname,
    hturn] at h
  obtain ⟨⟨hrows, hplans⟩, hattempts⟩ := h
  have hkey : ∀ r, rowOfTurn hostId turnId r = true →
      (r.hostId == hostId && r.connector == turnFinalName && r.turnId == some turnId) = true :=
    fun _ hr => hr
  refine ⟨fun i r hr hrow => ?_, fun i p hp hplan => ?_, fun k d i r hd hr hrow hd' => ?_⟩
  · have hfalse := hrows i r hr
    rw [hkey r hrow] at hfalse
    simpa using hfalse
  · simp only [planOfTurn, Bool.and_eq_true, beq_iff_eq] at hplan
    have hfalse := hplans i p hp
    have hfinal := (hs.plans i p hp).name
    apply PlanState.finished_of_not_open
    simpa [hplan.1, hplan.2, hfinal] using hfalse
  · have hfalse := hattempts k d hd
    obtain ⟨h₁, h₂, h₃⟩ := hd'
    have hrow' := hkey r hrow
    simp only [Bool.and_eq_true, beq_iff_eq] at hrow'
    have hany : (s.outbox.table.any fun _ r => r.hostId == hostId &&
        r.connector == turnFinalName && r.turnId == some turnId &&
          r.deliveryKey == d.deliveryKey) = true :=
      Table.any_iff.mpr ⟨i, r, hr, by rw [hkey r hrow, h₃]; simp⟩
    rw [hany, h₁, h₂, hrow'.1.1, hrow'.1.2] at hfalse
    simpa using hfalse

/-! ### The deletion of a turn -/

lemma isTombstone_terminal {d : Delivery} (h : d.isTombstone hostId = true) :
    d.status.terminalAttempt = true := by
  simp only [Delivery.isTombstone, Bool.and_eq_true, beq_iff_eq] at h
  rw [h.1.2]
  rfl

lemma prunes_deleteTurn {count : Int} (h : s.deleteAcknowledgedFinalTurn hostId turnId count =
    .ok s') : Prunes s s' := by
  obtain ⟨s₁, hs₁, h⟩ := bind_eq_ok.mp h
  obtain ⟨s₂, hs₂, h⟩ := bind_eq_ok.mp h
  obtain rfl := Except.ok.inj h
  obtain ⟨-, rfl⟩ := deletePlans_spec hs₁
  obtain ⟨-, rfl⟩ := deleteOutbox_spec hs₂
  refine ⟨fun i r hr => ?_, fun i p hp => ?_, fun k j hj hp => ?_, fun k d hd => ?_,
    fun i t ht => ?_, fun i r hr => ?_⟩
  · change (s.outbox.deleteWhere _).get? i = some r at hr
    rw [Constrained.get?_deleteWhere] at hr
    exact (Option.filter_eq_some_iff.mp hr).1
  · change (s.plans.deleteWhere _).get? i = some p at hp
    rw [Constrained.get?_deleteWhere] at hp
    exact (Option.filter_eq_some_iff.mp hp).1
  · change ((s.plans.deleteWhere _).get? j.planId).isSome = true at hp
    change ((s.jobs.deleteWhere _).deleteWhere _).get? k = some j
    obtain ⟨p, hp⟩ := Option.isSome_iff_exists.mp hp
    rw [Constrained.get?_deleteWhere] at hp
    obtain ⟨hp, hturn⟩ := Option.filter_eq_some_iff.mp hp
    rw [Bool.not_eq_true'] at hturn
    have hany : (s.plans.table.any fun i r => planOfTurn hostId turnId r && i == j.planId) =
        false := by
      refine Table.any_eq_false_iff.mpr fun i r hr => ?_
      by_cases hi : i = j.planId
      · subst hi
        obtain rfl := Option.some.inj (hp.symm.trans hr)
        simp [hturn]
      · simp [hi]
    rw [Constrained.get?_deleteWhere, Constrained.get?_deleteWhere, hj]
    simp only [hp, Option.any_some, hturn, Option.filter_some, Bool.not_false, if_true]
    change (if (!s.plans.table.any fun i r => planOfTurn hostId turnId r && i == j.planId) = true
      then some j else none) = some j
    rw [hany]
    rfl
  · unfold deleteTurnRows dropOldTombstones dropRepeatedTombstones deleteDeliveries deleteJobs
      deleteRecoveries at hd
    dsimp only at hd
    rw [Table.get?_deleteWhere, Table.get?_deleteWhere, Table.get?_updateWhere,
      Table.get?_deleteWhere] at hd
    have hd₁ := (Option.filter_eq_some_iff.mp (Option.filter_eq_some_iff.mp hd).1).1
    obtain ⟨d₀, hd₀, rfl⟩ := Option.map_eq_some_iff.mp hd₁
    have hget := (Option.filter_eq_some_iff.mp hd₀).1
    refine ⟨d₀.outboxId, ?_, fun i hi => ?_⟩
    · split
      · exact hget
      · exact hget
    · split at hi
      · cases hi
      · exact hi
  · change (s.turns.deleteWhere _).get? i = some t at ht
    rw [Constrained.get?_deleteWhere] at ht
    exact (Option.filter_eq_some_iff.mp ht).1
  · change (s.revisions.deleteWhere _).get? i = some r at hr
    rw [Constrained.get?_deleteWhere] at hr
    exact (Option.filter_eq_some_iff.mp hr).1

lemma spares_deleteTurn {count : Int} (hs : Consistent s) (hsettled : s.Settled hostId turnId)
    (h : s.deleteAcknowledgedFinalTurn hostId turnId count = .ok s') : Spares s s' := by
  obtain ⟨s₁, hs₁, h⟩ := bind_eq_ok.mp h
  obtain ⟨s₂, hs₂, h⟩ := bind_eq_ok.mp h
  obtain rfl := Except.ok.inj h
  have hattempts : ∀ k d, s.deliveries.get? k = some d → s.attemptOfTurn hostId turnId d = true →
      d.status.terminalAttempt = true := by
    intro k d hd hattempt
    simp only [attemptOfTurn, Bool.and_eq_true, beq_iff_eq, Bool.or_eq_true, Table.any_iff] at hattempt
    obtain ⟨⟨hhost, hname⟩, i, r, hr, hrow, ho | ⟨-, hkey⟩⟩ := hattempt
    · exact hsettled.attempts k d i r hd hr hrow ((hs.attempts k d i hd ho).2 r hr)
    · refine hsettled.attempts k d i r hd hr hrow ⟨?_, ?_, hkey⟩
      · simp only [rowOfTurn, Bool.and_eq_true, beq_iff_eq] at hrow
        exact hhost.trans hrow.1.1.symm
      · simp only [rowOfTurn, Bool.and_eq_true, beq_iff_eq] at hrow
        exact hname.trans hrow.1.2.symm
  have hplans : Spares s s₁ := by
    let t := s.deleteRecoveries fun _ a =>
      (s.plans.get? a.failedPlanId).any (planOfTurn hostId turnId) ||
        (s.plans.get? a.recoveredPlanId).any (planOfTurn hostId turnId)
    let u := t.deleteDeliveries fun _ d =>
      s.attemptOfTurn hostId turnId d && !s.staysAsTombstone hostId turnId d
    have ht : Spares s t := .of_eq rfl rfl rfl
    have hu : Spares t u := by
      refine spares_deleteDeliveries fun k d hd hc => ?_
      rw [Bool.and_eq_true] at hc
      exact hattempts k d hd hc.1
    have hjobs : Spares u (u.deleteJobs fun _ j =>
      (s.plans.get? j.planId).any (planOfTurn hostId turnId)) := .of_eq rfl rfl rfl
    refine ((ht.trans hu).trans hjobs).trans (spares_deletePlans (fun i p hp hturn => ?_) hs₁)
    exact .inr (hsettled.plans i p hp hturn)
  have hrows : Spares s₁ s₂ := by
    refine spares_deleteOutbox (fun i r hr hrow => hsettled.rows i r ?_ hrow) hs₂
    obtain ⟨-, rfl⟩ := deletePlans_spec hs₁
    exact hr
  have hrepeated : Spares s₂ (s₂.dropRepeatedTombstones hostId) := by
    refine spares_deleteDeliveries fun k d _ hc => ?_
    rw [Bool.and_eq_true] at hc
    exact isTombstone_terminal hc.1
  have hold : Spares (s₂.dropRepeatedTombstones hostId)
      ((s₂.dropRepeatedTombstones hostId).dropOldTombstones hostId count) := by
    refine spares_deleteDeliveries fun k d _ hc => ?_
    rw [Bool.and_eq_true] at hc
    exact isTombstone_terminal hc.1
  refine (((hplans.trans hrows).trans hrepeated).trans hold).trans ?_
  exact .of_eq rfl rfl rfl

/-! ### Candidates -/

lemma provenFinal?_spec {outboxId : Nat} {source : OutboxRow} {e : ProvenFinal}
    (h : s.provenFinal? hostId outboxId source = some e) :
    source.hostId = hostId ∧ source.connector = turnFinalName ∧ source.turnId = some e.turnId ∧
      e.wholeTurnResolved = s.wholeTurnResolved source ∧
      ∃ revision row, source.contentRevision = some revision ∧
        s.revision? hostId e.turnId revision = some row ∧ e.isCurrent = row.isCurrent ∧
        ∃ i proof, s.plans.get? i = some proof ∧ s.provesAcknowledged outboxId source proof =
          true := by
  unfold provenFinal? at h
  obtain ⟨turnId, hturn, h⟩ := Option.bind_eq_some_iff.mp h
  obtain ⟨revision, hrevision, h⟩ := Option.bind_eq_some_iff.mp h
  obtain ⟨row, hrow, h⟩ := Option.bind_eq_some_iff.mp h
  obtain ⟨turn, -, h⟩ := Option.bind_eq_some_iff.mp h
  obtain ⟨_, -, h⟩ := Option.bind_eq_some_iff.mp h
  obtain ⟨_, hsource, h⟩ := Option.bind_eq_some_iff.mp h
  obtain ⟨_, hproof, h⟩ := Option.bind_eq_some_iff.mp h
  obtain rfl := Option.some.inj h
  have hc := (Option.guard_eq_some' _).mp hsource
  have hp := (Option.guard_eq_some' _).mp hproof
  simp only [Bool.and_eq_true, beq_iff_eq] at hc
  obtain ⟨i, proof, hget, hproves⟩ := Table.any_iff.mp hp
  rw [hc.1.1.1] at hrow
  exact ⟨hc.1.1.1, hc.1.1.2, hturn, rfl, revision, row, hrevision, hrow, rfl, i, proof, hget, hproves⟩

/-- A proof plan is in its own lineage, so each of its jobs was acknowledged. -/
lemma jobs_of_proof (hs : Consistent s) {outboxId i : Nat} {source : OutboxRow} {proof : Plan}
    (hsource : s.outbox.get? outboxId = some source) (hi : s.plans.get? i = some proof)
    (h : s.provesAcknowledged outboxId source proof = true) :
    proof.SourcedBy source ∧ proof.completedAt.isSome = true ∧
      ∀ k j, s.jobs.get? k = some j → j.planId = i → s.JobAcknowledged j := by
  unfold provesAcknowledged at h
  simp only [Bool.and_eq_true, beq_iff_eq, List.all_eq_true] at h
  obtain ⟨⟨⟨⟨⟨hid, hfinished⟩, hcompleted⟩, -⟩, -⟩, hjobs⟩ := h
  have hsourced := ((hs.plans i proof hi).source outboxId hid).2 source hsource
  refine ⟨hsourced, hcompleted, fun k j hj hplan => ?_⟩
  obtain ⟨hhost, hname, hturn, hrevision⟩ := hsourced
  have hlineage : proofLineage source proof proof = true := by
    simp [proofLineage, hhost, hname, hturn, hrevision, hfinished]
  have hmem : j ∈ s.lineageJobs source proof := by
    refine List.mem_map.mpr ⟨(k, j), Table.mem_select.mpr ⟨hj, ?_⟩, rfl⟩
    rw [hplan, hi, Option.any_some, hlineage]
  obtain ⟨o, ho, hrow⟩ := (Option.any_eq_true _ _).mp (hjobs j hmem)
  obtain ⟨row, hget, hrow⟩ := (Option.any_eq_true _ _).mp hrow
  simp only [Bool.and_eq_true, beq_iff_eq] at hrow
  obtain ⟨l, d, hd, hattempt⟩ := Table.any_iff.mp hrow.2
  simp only [Bool.and_eq_true, beq_iff_eq] at hattempt
  exact ⟨o, row, ho, hget, hrow.1.2, l, d, hd, hattempt.1.1.1.1.1, hattempt.1.2, hattempt.2⟩

/-- A turn may go: nothing of it is unfinished, and its current revision was acknowledged. -/
structure MayGo (s : Store) (hostId turnId : String) : Prop where
  settled : s.Settled hostId turnId
  current : ∀ i r, s.revisions.get? i = some r → r.hostId = hostId → r.turnId = turnId →
    r.isCurrent = true → s.RevisionAcknowledged r

/-- No turn has two current revisions. -/
def CurrentUnique (s : Store) : Prop :=
  ∀ i j a b, s.revisions.get? i = some a → s.revisions.get? j = some b → a.isCurrent = true →
    b.isCurrent = true → a.hostId = b.hostId → a.turnId = b.turnId → i = j

lemma Regular.currentUnique (hs : Regular s) : s.CurrentUnique := by
  intro i j a b ha hb hca hcb hhost hturn
  let t : Constrained currentSchema := ⟨s.revisions.table, hs.current⟩
  refine t.eq_of_key (k := fun r => if r.isCurrent then some (r.hostId, r.turnId) else none)
    (by simp [currentSchema]) ha hb (v := (a.hostId, a.turnId)) ?_ ?_
  · simp [hca]
  · simp [hcb, hhost, hturn]

lemma CurrentUnique.of_prunes (h : Prunes s s') (hs : s.CurrentUnique) : s'.CurrentUnique :=
  fun i j a b ha hb => hs i j a b (h.revisions i a ha) (h.revisions j b hb)

lemma mayGo_of_candidate (hs : Consistent s) (hunique : s.CurrentUnique) {e : ProvenFinal} (he : e ∈ s.candidateFinals hostId) :
    s.MayGo hostId e.turnId := by
  obtain ⟨hproven, hc⟩ := List.mem_filter.mp he
  simp only [Bool.and_eq_true] at hc
  obtain ⟨⟨hcurrent, hresolved⟩, -⟩ := hc
  obtain ⟨⟨outboxId, source⟩, hsource, he⟩ := List.mem_filterMap.mp hproven
  have hget : s.outbox.get? outboxId = some source := Table.get?_eq_some_iff.mpr hsource
  obtain ⟨hhost, hname, hturn, hwhole, revision, row, hrevision, hrow, hrowCurrent, i, proof, hi,
    hproof⟩ := provenFinal?_spec he
  obtain ⟨⟨hh, hn, ht, hr⟩, hcompleted, hjobs⟩ := jobs_of_proof hs hget hi hproof
  refine ⟨settled_of_resolved hs hhost hname hturn (hwhole ▸ hresolved), ?_⟩
  intro k r hr' hrhost hrturn hrcurrent
  obtain ⟨⟨k₀, row₀⟩, hfirst, rfl⟩ := Option.map_eq_some_iff.mp hrow
  obtain ⟨hk₀, hcolumns⟩ := Table.first?_eq_some hfirst
  simp only [Bool.and_eq_true, beq_iff_eq] at hcolumns
  have hsame : k = k₀ := hunique k k₀ r row₀ hr' hk₀ hrcurrent (hrowCurrent.symm.trans hcurrent)
    (hrhost.trans hcolumns.1.1.symm) (hrturn.trans hcolumns.1.2.symm)
  subst hsame
  obtain rfl := Option.some.inj (hr'.symm.trans hk₀)
  refine ⟨i, proof, hi, ?_, ?_, ?_, hcompleted, hjobs⟩
  · exact hh.symm.trans (hhost.trans hrhost.symm)
  · exact (Option.some.inj (ht.symm.trans hturn)).trans hrturn.symm
  · rw [hcolumns.2]
    exact Option.some.inj (hr.symm.trans hrevision)

/-! ### Whole transactions -/

/-- What a cleanup may delete. A current revision goes with its turn, acknowledged. -/
structure RetentionSafe (s s' : Store) : Prop extends Spares s s' where
  current : ∀ i r, s.revisions.get? i = some r → r.isCurrent = true →
    s'.revisions.get? i = some r ∨ s'.revisions.get? i = none ∧
      s'.turn? r.hostId r.turnId = none ∧ s.RevisionAcknowledged r

lemma ContentSafe.retentionSafe (h : ContentSafe s s') : RetentionSafe s s' :=
  ⟨h.spares, fun i r hr hc => .inl (h.current i r hr hc)⟩

lemma RetentionSafe.refl (s : Store) : RetentionSafe s s := (ContentSafe.refl s).retentionSafe

lemma Prunes.turn?_eq_none (h : Prunes s s') (hs : s.turn? hostId turnId = none) :
    s'.turn? hostId turnId = none := by
  have hnone := Option.map_eq_none_iff.mp hs
  refine Option.map_eq_none_iff.mpr ?_
  by_contra hne
  obtain ⟨⟨i, t⟩, ht⟩ := Option.ne_none_iff_exists'.mp hne
  obtain ⟨hget, hc⟩ := Table.first?_eq_some ht
  have hfalse := Table.first?_eq_none hnone (h.turns i t hget)
  rw [hfalse] at hc
  cases hc

lemma Prunes.revision_eq_none (h : Prunes s s') {i : Nat} (hs : s.revisions.get? i = none) :
    s'.revisions.get? i = none := by
  by_contra hne
  obtain ⟨r, hr⟩ := Option.ne_none_iff_exists'.mp hne
  rw [h.revisions i r hr] at hs
  cases hs

lemma RetentionSafe.trans_prunes (h : RetentionSafe s s') (hp : Prunes s s')
    (h' : RetentionSafe s' s'') (hp' : Prunes s' s'') : RetentionSafe s s'' := by
  refine ⟨h.toSpares.trans h'.toSpares, fun i r hr hc => ?_⟩
  rcases h.current i r hr hc with hr' | ⟨hnone, hturn, hack⟩
  · rcases h'.current i r hr' hc with hr'' | ⟨hnone, hturn, hack⟩
    · exact .inl hr''
    · exact .inr ⟨hnone, hturn, hack.of_prunes hp⟩
  · exact .inr ⟨hp'.revision_eq_none hnone, hp'.turn?_eq_none hturn, hack⟩

/-- The deletion of a turn leaves the revisions of other turns, and its turn is gone. -/
lemma deleteTurn_revisions {count : Int}
    (h : s.deleteAcknowledgedFinalTurn hostId turnId count = .ok s') :
    s'.turn? hostId turnId = none ∧ ∀ i, s'.revisions.get? i =
      (s.revisions.get? i).filter fun r => !(r.hostId == hostId && r.turnId == turnId) := by
  obtain ⟨s₁, hs₁, h⟩ := bind_eq_ok.mp h
  obtain ⟨s₂, hs₂, h⟩ := bind_eq_ok.mp h
  obtain rfl := Except.ok.inj h
  obtain ⟨-, rfl⟩ := deletePlans_spec hs₁
  obtain ⟨-, rfl⟩ := deleteOutbox_spec hs₂
  refine ⟨?_, fun i => ?_⟩
  · refine Option.map_eq_none_iff.mpr ?_
    by_contra hne
    obtain ⟨⟨i, t⟩, ht⟩ := Option.ne_none_iff_exists'.mp hne
    obtain ⟨hget, hc⟩ := Table.first?_eq_some ht
    change (s.turns.deleteWhere _).get? i = some t at hget
    rw [Constrained.get?_deleteWhere] at hget
    have hkept := (Option.filter_eq_some_iff.mp hget).2
    rw [hc] at hkept
    cases hkept
  · change (s.revisions.deleteWhere _).get? i = _
    rw [Constrained.get?_deleteWhere]

/-- What holds between the start of a host's deletions and any later point of them. -/
structure Pruned (s s' : Store) : Prop where
  prunes : Prunes s s'
  safe : RetentionSafe s s'
  consistent : Consistent s'

lemma Pruned.deleteTurn {count : Int} {t : Store} (h : Pruned s t) (hgo : s.MayGo hostId turnId)
    (ht : t.deleteAcknowledgedFinalTurn hostId turnId count = .ok s') : Pruned s s' := by
  have hprunes := prunes_deleteTurn ht
  have hspares := spares_deleteTurn h.consistent (hgo.settled.of_prunes h.prunes) ht
  obtain ⟨hturn, hrevisions⟩ := deleteTurn_revisions ht
  refine ⟨h.prunes.trans hprunes, ⟨h.safe.toSpares.trans hspares, fun i r hr hc => ?_⟩,
    (writes_deletesTurn ht).consistent h.consistent⟩
  rcases h.safe.current i r hr hc with hr' | ⟨hnone, hgone, hack⟩
  · by_cases hturn' : r.hostId = hostId ∧ r.turnId = turnId
    · obtain ⟨rfl, rfl⟩ := hturn'
      refine .inr ⟨?_, hturn, hgo.current i r hr rfl rfl hc⟩
      rw [hrevisions, hr']
      simp
    · refine .inl ?_
      rw [hrevisions, hr', Option.filter_some, if_pos]
      simpa [Classical.or_iff_not_imp_left] using hturn'
  · exact .inr ⟨hprunes.revision_eq_none hnone, hprunes.turn?_eq_none hgone, hack⟩

lemma Pruned.refl (hs : Consistent s) : Pruned s s := ⟨.refl s, .refl s, hs⟩

lemma Pruned.trans (h : Pruned s s') (h' : Pruned s' s'') : Pruned s s'' :=
  ⟨h.prunes.trans h'.prunes, h.safe.trans_prunes h.prunes h'.safe h'.prunes, h'.consistent⟩

/-- The deletions of one host, each of a candidate at their start. -/
lemma pruned_deleteTurns (hs : Consistent s) (hunique : s.CurrentUnique) {cutoffAt count : Int}
    {batchSize : Nat}
    (h : ((s.acknowledgedFinalRetentionCandidates hostId cutoffAt count batchSize).map
      (·.turnId)).foldlM (fun (s : Store) turnId =>
        s.deleteAcknowledgedFinalTurn hostId turnId count) s = .ok s') : Pruned s s' := by
  refine foldlM_invariant (P := Pruned s) (fun t turnId t' hmem hP hstep => ?_) (.refl hs) h
  obtain ⟨e, he, rfl⟩ := List.mem_map.mp hmem
  have hcandidate := (List.mem_insertionSort _).mp (List.mem_of_mem_take he)
  exact hP.deleteTurn (mayGo_of_candidate hs hunique (List.mem_filter.mp hcandidate).1) hstep

lemma pruned_automatic (hs : Regular s) {req : AutomaticMaintenance} {now : Int}
    (h : s.maybeRunAutomaticStoreMaintenance req now = .ok s') : Pruned s s' := by
  obtain ⟨_, -, h⟩ := bind_eq_ok.mp h
  obtain ⟨run, hrun, h⟩ := bind_eq_ok.mp h
  obtain rfl := Except.ok.inj h
  refine foldlM_invariant (P := fun run : Store × Nat => Pruned s run.1)
    (fun run hostId run' _ hP hserve => ?_) (.refl hs.toConsistent) hrun
  unfold serveHost at hserve
  obtain ⟨s₁, hs₁, rfl⟩ := map_eq_ok.mp hserve
  exact hP.trans (pruned_deleteTurns hP.consistent (hs.currentUnique.of_prunes hP.prunes) hs₁)

theorem retentionSafe_step (hs : Regular s) {c : StoreCall} (hc : c.retention = true) :
    RetentionSafe s (s.storeStep c) := by
  rcases storeStep_cases s c with heq | ⟨h, -⟩
  · rw [heq]
    exact .refl s
  · cases c with
    | connector call => cases hc
    | cleanupFinals req now =>
      change s.cleanupAcknowledgedFinalRetention req now = _ at h
      unfold cleanupAcknowledgedFinalRetention at h
      split at h
      · rw [← Except.ok.inj h]
        exact .refl s
      · exact (pruned_deleteTurns hs.toConsistent hs.currentUnique h).safe
    | cleanupContent req now => exact (contentSafe_cleanup h).retentionSafe
    | automatic req now => exact (pruned_automatic hs h).safe

/-- In every reachable store a cleanup, alone or as a batch of a store maintenance, destroys no
undelivered work. -/
theorem retention_destroysNoUndelivered (supersessions : Constrained supersessionSchema)
    (calls : List StoreCall) :
    (∀ c : StoreCall, c.retention = true →
      RetentionSafe ((initial supersessions).storeRun calls)
        (((initial supersessions).storeRun calls).storeStep c)) ∧
    ∀ (req : StoreMaintenance) (exhaustAt finalsAt contentAt : Int) (before after : List StoreCall)
      (c : StoreCall), req.calls exhaustAt finalsAt contentAt = before ++ c :: after →
      c.retention = true →
      RetentionSafe (((initial supersessions).storeRun calls).storeRun before)
        ((((initial supersessions).storeRun calls).storeRun before).storeStep c) := by
  have hs : Regular ((initial supersessions).storeRun calls) := (regular_initial supersessions).run calls
  exact ⟨fun c hc => retentionSafe_step hs hc,
    fun _ _ _ _ before _ c _ hc => retentionSafe_step (hs.run before) hc⟩

theorem retention_ofAcknowledgedFinal :
    RetentionSafe ((initial .empty).storeRun acknowledgedFinal)
      (((initial .empty).storeRun acknowledgedFinal).storeStep (.cleanupFinals
        { hostId := "host", retentionDays := 30, retentionCount := 4096, batchSize := 100,
          dryRun := false } 10000000)) ∧
    (((initial .empty).storeRun acknowledgedFinal).storeStep (.cleanupFinals
        { hostId := "host", retentionDays := 30, retentionCount := 4096, batchSize := 100,
          dryRun := false } 10000000)).turns.table.rows.length = 0 :=
  ⟨(retention_destroysNoUndelivered .empty acknowledgedFinal).1 _ rfl, by decide +kernel⟩

end Store

end Tendwire.Connector

import Tendwire.Connector.OperatorRetry
import Tendwire.Connector.Upkeep

/-!
# Filing

Every job is filed under a plan that exists and, once the plan is committed, has a row that exists.
Every audit is of a plan on record, and a recovered plan is named after the plan it recovers.
-/

namespace Tendwire.Connector

open Relational Transition

/-- The audit is of this recovered plan. -/
def Recovery.Of (a : Recovery) (p : Plan) : Prop :=
  a.hostId = p.hostId ∧ a.name = p.name ∧ a.recoveredPlanToken = p.planToken ∧
    a.generation = p.generation

/-- What a job presents, and when. -/
def Job.spec (j : Job) : JobSpec :=
  { sequenceIndex := j.sequenceIndex
    operation := j.operation
    partOrdinal := j.partOrdinal
    spans := j.spans }

namespace Store

variable {s s' s'' : Store} {now : Int}

structure Filed (s : Store) : Prop where
  planned : ∀ i j, s.jobs.get? i = some j → ∃ p, s.plans.get? j.planId = some p ∧
    (p.state.committed = true → j.outboxId ≠ none)
  rows : ∀ i j o, s.jobs.get? i = some j → j.outboxId = some o → ∃ r, s.outbox.get? o = some r
  staged : ∀ i j, s.jobs.get? i = some j → j.outboxId = none → j.operation = .upsert
  recovers : ∀ i p t, s.plans.get? i = some p → p.recoversPlanToken = some t →
    ∃ hostId name requestId generation,
      p.planToken = .recovery hostId name t requestId generation
  audited : ∀ i a, s.recoveries.get? i = some a →
    ∃ p, s.plans.get? a.recoveredPlanId = some p ∧ a.Of p
  once : ∀ i j a b, s.recoveries.get? i = some a → s.recoveries.get? j = some b →
    a.recoveredPlanId = b.recoveredPlanId → i = j

/-! ### Statements that file nothing new -/

/-- Jobs, audits and plans may go, but not the plan or the row of one that stays. -/
structure Retains (s s' : Store) : Prop where
  job : ∀ i j, s'.jobs.get? i = some j → s.jobs.get? i = some j
  audit : ∀ i a, s'.recoveries.get? i = some a → s.recoveries.get? i = some a
  plan : ∀ i p', s'.plans.get? i = some p' → ∃ p, s.plans.get? i = some p ∧ p.Continues p'
  planOfJob : ∀ i j p, s'.jobs.get? i = some j → s.plans.get? j.planId = some p →
    ∃ p', s'.plans.get? j.planId = some p'
  planOfAudit : ∀ i a p, s'.recoveries.get? i = some a →
    s.plans.get? a.recoveredPlanId = some p → ∃ p', s'.plans.get? a.recoveredPlanId = some p'
  row : ∀ i j o r, s'.jobs.get? i = some j → j.outboxId = some o → s.outbox.get? o = some r →
    ∃ r', s'.outbox.get? o = some r'

theorem Filed.retains (hs : s.Filed) (h : Retains s s') : s'.Filed where
  planned i j hj := by
    obtain ⟨p, hp, hlinked⟩ := hs.planned i j (h.job i j hj)
    obtain ⟨p', hp'⟩ := h.planOfJob i j p hj hp
    obtain ⟨p₀, hp₀, hcontinues⟩ := h.plan _ p' hp'
    obtain rfl := Option.some.inj (hp.symm.trans hp₀)
    exact ⟨p', hp', fun hc => hlinked (hcontinues.2 hc)⟩
  rows i j o hj ho := by
    obtain ⟨r, hr⟩ := hs.rows i j o (h.job i j hj) ho
    exact h.row i j o r hj ho hr
  staged i j hj := hs.staged i j (h.job i j hj)
  recovers i p' t hp' ht := by
    obtain ⟨p, hp, hcolumns, -⟩ := h.plan i p' hp'
    rw [hcolumns] at ht ⊢
    exact hs.recovers i p t hp ht
  audited i a ha := by
    obtain ⟨p, hp, hof⟩ := hs.audited i a (h.audit i a ha)
    obtain ⟨p', hp'⟩ := h.planOfAudit i a p ha hp
    obtain ⟨p₀, hp₀, hcolumns, -⟩ := h.plan _ p' hp'
    obtain rfl := Option.some.inj (hp.symm.trans hp₀)
    refine ⟨p', hp', ?_⟩
    unfold Recovery.Of
    rw [hcolumns]
    exact hof
  once i j a b ha hb := hs.once i j a b (h.audit i a ha) (h.audit j b hb)

namespace Retains

protected lemma refl (s : Store) : Retains s s where
  job _ _ := id
  audit _ _ := id
  plan _ p hp := ⟨p, hp, .refl p⟩
  planOfJob _ _ p _ hp := ⟨p, hp⟩
  planOfAudit _ _ p _ hp := ⟨p, hp⟩
  row _ _ _ r _ _ hr := ⟨r, hr⟩

protected lemma trans (h : Retains s s') (h' : Retains s' s'') : Retains s s'' where
  job i j hj := h.job i j (h'.job i j hj)
  audit i a ha := h.audit i a (h'.audit i a ha)
  plan i p'' hp'' := by
    obtain ⟨p', hp', h₂⟩ := h'.plan i p'' hp''
    obtain ⟨p, hp, h₁⟩ := h.plan i p' hp'
    exact ⟨p, hp, h₁.trans h₂⟩
  planOfJob i j p hj hp := by
    obtain ⟨p', hp'⟩ := h.planOfJob i j p (h'.job i j hj) hp
    exact h'.planOfJob i j p' hj hp'
  planOfAudit i a p ha hp := by
    obtain ⟨p', hp'⟩ := h.planOfAudit i a p (h'.audit i a ha) hp
    exact h'.planOfAudit i a p' ha hp'
  row i j o r hj ho hr := by
    obtain ⟨r', hr'⟩ := h.row i j o r (h'.job i j hj) ho hr
    exact h'.row i j o r' hj ho hr'

lemma of_upkeep (h : Upkeep s s') : Retains s s' where
  job i j hj := by rwa [h.jobs] at hj
  audit i a ha := by rwa [h.recoveries] at ha
  plan i p' hp' := h.plan_back hp'
  planOfJob i j p _ hp := by
    obtain ⟨p', hp', -⟩ := h.plan hp
    exact ⟨p', hp'⟩
  planOfAudit i a p _ hp := by
    obtain ⟨p', hp', -⟩ := h.plan hp
    exact ⟨p', hp'⟩
  row i j o r _ _ hr := by
    obtain ⟨r', hr', -⟩ := h.row hr
    exact ⟨r', hr'⟩

lemma of_rows (hjobs : s'.jobs = s.jobs) (hplans : s'.plans = s.plans)
    (hrecoveries : s'.recoveries = s.recoveries)
    (hrows : ∀ i r, s.outbox.get? i = some r → ∃ r', s'.outbox.get? i = some r') :
    Retains s s' where
  job i j hj := by rwa [hjobs] at hj
  audit i a ha := by rwa [hrecoveries] at ha
  plan i p hp := by
    rw [hplans] at hp
    exact ⟨p, hp, .refl p⟩
  planOfJob i j p _ hp := ⟨p, by rwa [hplans]⟩
  planOfAudit i a p _ hp := ⟨p, by rwa [hplans]⟩
  row i j o r _ _ hr := hrows o r hr

lemma deleteDeliveries (q : Nat → Delivery → Bool) : Retains s (s.deleteDeliveries q) :=
  .of_rows rfl rfl rfl fun _ r hr => ⟨r, hr⟩

lemma insertOutbox {r : OutboxRow} (h : s.insertOutbox r = .ok s') : Retains s s' := by
  obtain ⟨t, rfl, -, ht⟩ := insertOutbox_spec h
  refine .of_rows rfl rfl rfl fun i r₀ hr₀ => ⟨r₀, ?_⟩
  dsimp only
  rw [ht, if_neg (Table.get?_lt_next hr₀).ne]
  exact hr₀

lemma insertOutboxOrIgnore {r : OutboxRow} (h : s.insertOutboxOrIgnore r = .ok s') :
    Retains s s' := by
  rcases insertOutboxOrIgnore_cases h with ⟨rfl, -⟩ | ⟨-, h⟩
  · exact .refl _
  · exact insertOutbox h

lemma updateOutbox (p : Nat → OutboxRow → Bool) (f : OutboxState → OutboxState) :
    Retains s (s.updateOutbox p f) := by
  refine .of_rows rfl rfl rfl fun j r hr => ?_
  rw [outbox_updateOutbox, hr]
  exact ⟨_, rfl⟩

lemma deleteJobs (p : Nat → Job → Bool) : Retains s (s.deleteJobs p) where
  job i j hj := by
    change (s.jobs.deleteWhere p).get? i = some j at hj
    rw [Constrained.get?_deleteWhere] at hj
    exact (Option.filter_eq_some_iff.mp hj).1
  audit _ _ := id
  plan _ p hp := ⟨p, hp, .refl p⟩
  planOfJob _ _ p _ hp := ⟨p, hp⟩
  planOfAudit _ _ p _ hp := ⟨p, hp⟩
  row _ _ _ r _ _ hr := ⟨r, hr⟩

lemma deleteRecoveries (p : Nat → Recovery → Bool) : Retains s (s.deleteRecoveries p) where
  job _ _ := id
  audit i a ha := by
    change (s.recoveries.deleteWhere p).get? i = some a at ha
    rw [Constrained.get?_deleteWhere] at ha
    exact (Option.filter_eq_some_iff.mp ha).1
  plan _ p hp := ⟨p, hp, .refl p⟩
  planOfJob _ _ p _ hp := ⟨p, hp⟩
  planOfAudit _ _ p _ hp := ⟨p, hp⟩
  row _ _ _ r _ _ hr := ⟨r, hr⟩

/-- A plan goes with its jobs, and only if no audit names it. -/
lemma deletePlans {p : Nat → Plan → Bool} (h : s.deletePlans p = .ok s') : Retains s s' := by
  obtain ⟨hfree, rfl⟩ := deletePlans_spec h
  have hkept {i : Nat} {x : Plan} (hx : s.plans.get? i = some x) (hp : p i x = false) :
      (s.plans.deleteWhere p).get? i = some x := by
    rw [Constrained.get?_deleteWhere, hx, Option.filter_some, hp]
    rfl
  have hjob {i : Nat} {j : Job} (hj : (s.jobs.deleteWhere fun _ j =>
      s.plans.table.any fun i r => p i r && i == j.planId).get? i = some j) :
      s.jobs.get? i = some j ∧
        (s.plans.table.any fun i r => p i r && i == j.planId) = false := by
    rw [Constrained.get?_deleteWhere] at hj
    obtain ⟨hj, hp⟩ := Option.filter_eq_some_iff.mp hj
    exact ⟨hj, by simpa using hp⟩
  refine ⟨fun i j hj => (hjob hj).1, fun _ _ => id, ?_, ?_, ?_, fun _ _ _ r _ _ hr => ⟨r, hr⟩⟩
  · intro i x hx
    dsimp only at hx
    rw [Constrained.get?_deleteWhere] at hx
    exact ⟨x, (Option.filter_eq_some_iff.mp hx).1, .refl x⟩
  · intro i j x hj hx
    have hnot := Table.any_eq_false_iff.mp (hjob hj).2 j.planId x hx
    exact ⟨x, hkept hx (by simpa using hnot)⟩
  · intro i a x ha hx
    refine ⟨x, hkept hx ?_⟩
    by_contra hp
    have hnot := hfree _ x hx (by simpa using hp)
    unfold planReferenced at hnot
    simpa using Table.any_eq_false_iff.mp hnot i a ha

/-- A row goes only if no job names it. -/
lemma deleteOutbox {p : Nat → OutboxRow → Bool} (h : s.deleteOutbox p = .ok s') :
    Retains s s' := by
  obtain ⟨hfree, rfl⟩ := deleteOutbox_spec h
  refine ⟨fun _ _ => id, fun _ _ => id, fun _ p hp => ⟨p, hp, .refl p⟩,
    fun _ _ p _ hp => ⟨p, hp⟩, fun _ _ p _ hp => ⟨p, hp⟩, ?_⟩
  intro i j o r hj ho hr
  refine ⟨r, ?_⟩
  dsimp only
  rw [Constrained.get?_deleteWhere, hr, Option.filter_some]
  have hkeep : p o r = false := by
    by_contra hp
    have hnot := hfree o r hr (by simpa using hp)
    unfold outboxReferenced at hnot
    rw [Bool.or_eq_false_iff] at hnot
    have hjob := Table.any_eq_false_iff.mp hnot.2 i j hj
    simp [ho] at hjob
  rw [hkeep]
  rfl

end Retains

/-! ### Statements that file -/

lemma Filed.insertPlan (hs : s.Filed) {p : Plan} (hp : ∀ t, p.recoversPlanToken = some t →
      ∃ hostId name requestId generation,
        p.planToken = .recovery hostId name t requestId generation)
    (h : s.insertPlan p = .ok s') : s'.Filed := by
  obtain ⟨t, rfl, ht⟩ := insertPlan_spec h
  have hkept {i : Nat} {x : Plan} (hx : s.plans.get? i = some x) : t.get? i = some x := by
    rw [ht, if_neg (Table.get?_lt_freeId hx).ne]
    exact hx
  refine ⟨?_, hs.rows, hs.staged, ?_, ?_, hs.once⟩
  · intro i j hj
    obtain ⟨x, hx, hlinked⟩ := hs.planned i j hj
    exact ⟨x, hkept hx, hlinked⟩
  · intro i x token hx
    dsimp only at hx
    rw [ht] at hx
    split at hx
    · obtain rfl := Option.some.inj hx
      exact hp token
    · exact hs.recovers i x token hx
  · intro i a ha
    obtain ⟨x, hx, hof⟩ := hs.audited i a ha
    exact ⟨x, hkept hx, hof⟩

/-- A part may be staged into a plan that is not committed. -/
lemma Filed.insertJob (hs : s.Filed) {j : Job} {p : Plan} (hp : s.plans.get? j.planId = some p)
    (hstate : p.state.committed = false) (hrow : j.outboxId = none) (hop : j.operation = .upsert)
    (h : s.insertJob j = .ok s') : s'.Filed := by
  obtain ⟨t, rfl, ht⟩ := insertJob_spec h
  refine ⟨?_, ?_, ?_, hs.recovers, hs.audited, hs.once⟩
  · intro i k hk
    dsimp only at hk
    rw [ht] at hk
    split at hk
    · obtain rfl := Option.some.inj hk
      exact ⟨p, hp, fun hc => by simp [hstate] at hc⟩
    · exact hs.planned i k hk
  · intro i k o hk ho
    dsimp only at hk
    rw [ht] at hk
    split at hk
    · obtain rfl := Option.some.inj hk
      rw [hrow] at ho
      cases ho
    · exact hs.rows i k o hk ho
  · intro i k hk
    dsimp only at hk
    rw [ht] at hk
    split at hk
    · obtain rfl := Option.some.inj hk
      exact fun _ => hop
    · exact hs.staged i k hk

lemma Filed.insertRecovery (hs : s.Filed) {a : Recovery} {p : Plan}
    (hp : s.plans.get? a.recoveredPlanId = some p) (hof : a.Of p)
    (hfresh : ∀ i b, s.recoveries.get? i = some b → b.recoveredPlanId ≠ a.recoveredPlanId)
    (h : s.insertRecovery a = .ok s') : s'.Filed := by
  obtain ⟨t, rfl, ht⟩ := insertRecovery_spec h
  refine ⟨hs.planned, hs.rows, hs.staged, hs.recovers, ?_, ?_⟩
  · intro i b hb
    dsimp only at hb
    rw [ht] at hb
    split at hb
    · obtain rfl := Option.some.inj hb
      exact ⟨p, hp, hof⟩
    · exact hs.audited i b hb
  · intro i j b c hb hc heq
    dsimp only at hb hc
    rw [ht] at hb hc
    split at hb
    · next hi =>
      obtain rfl := Option.some.inj hb
      split at hc
      · next hj => exact hi.trans hj.symm
      · exact absurd heq.symm (hfresh j c hc)
    · split at hc
      · obtain rfl := Option.some.inj hc
        exact absurd heq (hfresh i b hb)
      · exact hs.once i j b c hb hc heq

/-- A job of the plan has got its row. -/
structure Links (s s' : Store) (planId jobId : Nat) : Prop where
  plans : s'.plans = s.plans
  recoveries : s'.recoveries = s.recoveries
  rows : ∀ i r, s.outbox.get? i = some r → s'.outbox.get? i = some r
  row : ∃ r, s'.outbox.get? s.outbox.table.next = some r
  jobs : ∀ i, s'.jobs.get? i = (s.jobs.get? i).map fun j =>
    if i == jobId && j.planId == planId && j.outboxId.isNone then
      { j with outboxId := some s.outbox.table.next }
    else
      j

lemma links_materialize {planId jobId : Nat} {hostId name : String} {token : PlanToken}
    {payload : PartPayload}
    (h : s.materializeConnectorPlanJob planId jobId hostId name token payload now = .ok s') :
    Links s s' planId jobId := by
  obtain ⟨_, _, s₁, -, hs₁, h⟩ := materializeConnectorPlanJob_spec h
  obtain ⟨t, rfl, -, ht⟩ := insertOutbox_spec hs₁
  obtain ⟨u, rfl, hu⟩ := linkJob_spec h
  refine ⟨rfl, rfl, ?_, ?_, hu⟩
  · intro i r hr
    dsimp only
    rw [ht, if_neg (Table.get?_lt_next hr).ne]
    exact hr
  · have hrow := ht s.outbox.table.next
    rw [if_pos rfl] at hrow
    exact ⟨_, hrow⟩

lemma Filed.links (hs : s.Filed) {planId jobId : Nat} (h : Links s s' planId jobId) :
    s'.Filed := by
  refine ⟨?_, ?_, ?_, ?_, ?_, ?_⟩
  · intro i j hj
    rw [h.jobs] at hj
    obtain ⟨j₀, hj₀, rfl⟩ := Option.map_eq_some_iff.mp hj
    obtain ⟨p, hp, hlinked⟩ := hs.planned i j₀ hj₀
    rw [h.plans]
    split
    · exact ⟨p, hp, fun _ => by simp⟩
    · exact ⟨p, hp, hlinked⟩
  · intro i j o hj ho
    rw [h.jobs] at hj
    obtain ⟨j₀, hj₀, rfl⟩ := Option.map_eq_some_iff.mp hj
    split at ho
    · obtain rfl := Option.some.inj ho
      exact h.row
    · obtain ⟨r, hr⟩ := hs.rows i j₀ o hj₀ ho
      exact ⟨r, h.rows o r hr⟩
  · intro i j hj
    rw [h.jobs] at hj
    obtain ⟨j₀, hj₀, rfl⟩ := Option.map_eq_some_iff.mp hj
    split
    · intro hnone
      cases hnone
    · exact hs.staged i j₀ hj₀
  · rw [h.plans]
    exact hs.recovers
  · rw [h.plans, h.recoveries]
    exact hs.audited
  · rw [h.recoveries]
    exact hs.once

/-- A job is there with its row. -/
structure Adds (s s' : Store) (job : Job) : Prop where
  plans : s'.plans = s.plans
  recoveries : s'.recoveries = s.recoveries
  rows : ∀ i r, s.outbox.get? i = some r → s'.outbox.get? i = some r
  row : ∃ r, job.outboxId = some s.outbox.table.next ∧
    s'.outbox.get? s.outbox.table.next = some r
  jobs : ∀ i, s'.jobs.get? i = if i = s.jobs.table.freeId then some job else s.jobs.get? i

lemma adds_addJob {planId : Nat} {hostId name : String} {token : PlanToken} {common : JobCommon}
    {j : JobSpec} (h : addJob planId hostId name token common now s j = .ok s') :
    Adds s s' { j.job planId now with outboxId := some s.outbox.table.next } := by
  obtain ⟨s₁, hs₁, h⟩ := addJob_spec h
  obtain ⟨t, rfl, ht⟩ := insertJob_spec hs₁
  have hlinks := links_materialize h
  refine ⟨hlinks.plans, hlinks.recoveries, hlinks.rows, ?_, ?_⟩
  · obtain ⟨r, hr⟩ := hlinks.row
    exact ⟨r, rfl, hr⟩
  · intro i
    rw [hlinks.jobs]
    dsimp only
    rw [ht]
    split
    · next hi => simp [hi, JobSpec.job]
    · next hi =>
      cases s.jobs.get? i with
      | none => rfl
      | some j₀ => simp [hi]

lemma Filed.adds (hs : s.Filed) {job : Job} (h : Adds s s' job)
    (hplan : ∃ p, s.plans.get? job.planId = some p) : s'.Filed := by
  obtain ⟨r, howned, hr⟩ := h.row
  refine ⟨?_, ?_, ?_, ?_, ?_, ?_⟩
  · intro i j hj
    rw [h.jobs] at hj
    rw [h.plans]
    split at hj
    · obtain rfl := Option.some.inj hj
      obtain ⟨p, hp⟩ := hplan
      exact ⟨p, hp, fun _ => by simp [howned]⟩
    · exact hs.planned i j hj
  · intro i j o hj ho
    rw [h.jobs] at hj
    split at hj
    · obtain rfl := Option.some.inj hj
      obtain rfl := Option.some.inj (howned.symm.trans ho)
      exact ⟨r, hr⟩
    · obtain ⟨r₀, hr₀⟩ := hs.rows i j o hj ho
      exact ⟨r₀, h.rows o r₀ hr₀⟩
  · intro i j hj hnone
    rw [h.jobs] at hj
    split at hj
    · obtain rfl := Option.some.inj hj
      rw [howned] at hnone
      cases hnone
    · exact hs.staged i j hj hnone
  · rw [h.plans]
    exact hs.recovers
  · rw [h.plans, h.recoveries]
    exact hs.audited
  · rw [h.recoveries]
    exact hs.once

/-- The jobs of the plan all have their rows. -/
def AllLinked (s : Store) (planId : Nat) : Prop :=
  ∀ i j, s.jobs.get? i = some j → j.planId = planId → j.outboxId ≠ none

/-- A plan may start once its jobs have their rows. -/
lemma Filed.startPlan (hs : s.Filed) {planId : Nat} (hlinked : s.AllLinked planId)
    {p : Nat → Plan → Bool} (hp : ∀ i x, p i x = true → i = planId)
    (f : PlanProgress → PlanProgress) : (s.updatePlans p f).Filed := by
  refine ⟨?_, hs.rows, hs.staged, ?_, ?_, hs.once⟩
  · intro i j hj
    obtain ⟨x, hx, hold⟩ := hs.planned i j hj
    rw [plans_updatePlans, hx, Option.map_some]
    refine ⟨_, rfl, ?_⟩
    split
    · next hpx => exact fun _ => hlinked i j hj (hp _ x hpx)
    · exact hold
  · intro i x t hx
    rw [plans_updatePlans] at hx
    obtain ⟨y, hy, rfl⟩ := Option.map_eq_some_iff.mp hx
    split
    · exact hs.recovers i y t hy
    · exact hs.recovers i y t hy
  · intro i a ha
    obtain ⟨x, hx, hof⟩ := hs.audited i a ha
    rw [plans_updatePlans, hx, Option.map_some]
    refine ⟨_, rfl, ?_⟩
    split
    · exact hof
    · exact hof

/-! ### Operations -/

lemma retains_poll (req : PollRequest) : Retains s (s.pollConnectorOutbox req now).1 := by
  have hrows (rows : List (Nat × OutboxRow)) (t : Store) (items : List PollItem) :
      Retains t (leaseRows req now rows t items).1 := by
    induction rows generalizing t items with
    | nil => exact .refl t
    | cons row rows ih =>
      have hinserted (d : Delivery) : Retains t (t.insertDelivery d) :=
        .of_rows rfl rfl rfl fun _ r hr => ⟨r, hr⟩
      exact ((hinserted _).trans (.updateOutbox _ _)).trans (ih _ _)
  exact (Retains.of_upkeep (upkeep_beforePoll req)).trans (hrows _ _ _)

lemma retains_deletePlansOfRevision {hostId turnId : String} {revision : ContentRevision}
    (h : s.deletePlansOfRevision hostId turnId revision = .ok s') : Retains s s' := by
  obtain ⟨s₃, hs₃, h⟩ := bind_eq_ok.mp h
  have hsuperseded : Upkeep s (s.updatePlans
      (fun i p => s.planOfRevision hostId turnId revision i && p.state.open)
      fun p => { p with state := .superseded }) := .updatePlans fun _ _ _ _ hc => by cases hc
  exact ((((Retains.of_upkeep hsuperseded).trans (.deleteRecoveries _)).trans
    (.deletePlans hs₃)).trans (.deleteDeliveries _)).trans (.deleteOutbox h)

lemma retains_ensure {hostId turnId : String} {revision : ContentRevision} {id : Option Nat}
    (h : s.ensureFinalReadyAnchor hostId turnId revision now = .ok (s', id)) : Retains s s' := by
  rcases ensureFinalReadyAnchor_cases h with ⟨-, rfl⟩ | ⟨payload, -, h⟩
  · exact .refl _
  · rcases h with ⟨-, -, rfl⟩ | ⟨-, -, rfl⟩ | ⟨s₁, hs₁, h⟩
    · exact .refl _
    · unfold discardAcknowledgedFinalReplay
      split
      · exact .refl s
      · dsimp only
        split
        · exact .of_rows rfl rfl rfl fun _ r hr => ⟨r, hr⟩
        · exact .of_rows rfl rfl rfl fun _ r hr => ⟨r, hr⟩
    · have hreactivated : Retains s s₁ := by
        rcases hs₁ with ⟨i, row, -, -, hs₁⟩ | ⟨rfl, -⟩
        · obtain ⟨s₂, hs₂, hs₁⟩ := bind_eq_ok.mp hs₁
          obtain rfl := Except.ok.inj hs₁
          exact ((retains_deletePlansOfRevision hs₂).trans (.deleteDeliveries _)).trans
            (.updateOutbox _ _)
        · exact .refl _
      exact (hreactivated.trans (.of_upkeep (upkeep_supersedeStaleFinalWork _ _ _))).trans
        (.insertOutboxOrIgnore h)

lemma retains_finalizeRecovered {failedId recoveredId : Nat}
    (h : s.finalizeRecoveredPlanMaterialization failedId recoveredId = .ok s') : Retains s s' := by
  rcases finalizeRecovered_cases h with ⟨-, rfl⟩ | ⟨recovered, s₂, -, hs₂, h⟩
  · exact .refl _
  · have hsuperseded : Upkeep s (s.updatePlans (fun i p => (s.lineageIds
        (s.plans.table.rows.length + 1) failedId).contains i && p.state == .failed)
        fun p => { p with state := .superseded }) := .updatePlans fun _ _ _ _ hc => by cases hc
    have hdeleted := (((Retains.of_upkeep hsuperseded).trans (.deleteDeliveries _)).trans
      (.deleteJobs _)).trans (.deleteOutbox hs₂)
    refine hdeleted.trans ?_
    unfold pruneRecoveries at h
    dsimp only at h
    split at h
    · rw [← Except.ok.inj h]
      exact .deleteRecoveries _
    · exact (Retains.deleteRecoveries _).trans (.deletePlans h)

theorem Filed.planBegin (hs : s.Filed) {req : PlanBegin} {receipt : PlanReceipt}
    (h : s.prepareConnectorPlanBegin req now = .ok (s', receipt)) : s'.Filed := by
  obtain ⟨-, _, _, _, -, -, ⟨-, h⟩ | ⟨planId, plan, -, -, rfl | ⟨_, -, -, -, rfl⟩⟩⟩ :=
    prepareConnectorPlanBegin_cases h
  · exact hs.insertPlan (fun t ht => by cases ht) h
  · exact hs
  · exact hs.retains (.of_upkeep (.updatePlans fun _ _ _ _ hc => hc))

theorem Filed.planPart (hs : s.Filed) {hostId name : String} {token : PlanToken} {ordinal : Nat}
    {spans : List Span} {accepted : Nat}
    (h : s.prepareConnectorPlanPart hostId name token ordinal spans now = .ok (s', accepted)) :
    s'.Filed := by
  obtain ⟨planId, plan, hplan, rfl | ⟨hstate, -, h⟩⟩ := prepareConnectorPlanPart_cases h
  · exact hs
  · refine hs.insertJob (p := plan) (j := stagedPart planId ordinal spans now) ?_ ?_ rfl rfl h
    · exact (Table.first?_eq_some hplan).1
    · simp [hstate, PlanState.committed, PlanState.live]

/-- The loops of a commit give every job of the plan its row. -/
lemma Filed.materializeCommit (hs : s.Filed) {w : CommitWork} {p : Plan}
    (hplan : s.plans.get? w.planId = some p) (hcount : s.materializedJobCount w.planId = 0)
    (hstaged : w.staged = s.stagedJobs w.planId) (h : s.materializeCommit w now = .ok s') :
    s'.Filed ∧ s'.AllLinked w.planId := by
  obtain ⟨s₀, hs₀, h⟩ := bind_eq_ok.mp h
  have hnone (i : Nat) (j : Job) (hj : s.jobs.get? i = some j) (hid : j.planId = w.planId) :
      j.outboxId = none := by
    by_contra hlinked
    have hmem : (i, j) ∈ s.jobs.table.select
        fun _ j => j.planId == w.planId && j.outboxId.isSome :=
      Table.mem_select.mpr ⟨hj, by simp [hid, Option.isSome_iff_ne_none.mpr hlinked]⟩
    rw [materializedJobCount, List.length_eq_zero_iff] at hcount
    rw [hcount] at hmem
    cases hmem
  have hfiled : s₀.Filed ∧ s₀.plans = s.plans ∧ ∀ i j, s₀.jobs.get? i = some j →
      ∃ j₀, s.jobs.get? i = some j₀ ∧ j₀.planId = j.planId := by
    refine foldlM_invariant (P := fun t : Store => t.Filed ∧ t.plans = s.plans ∧
      ∀ i j, t.jobs.get? i = some j → ∃ j₀, s.jobs.get? i = some j₀ ∧ j₀.planId = j.planId)
      ?_ ⟨hs, rfl, fun i j hj => ⟨j, hj, rfl⟩⟩ hs₀
    rintro t e t' - ⟨ht, hplans, hback⟩ hstep
    have hlinks := links_materialize hstep
    refine ⟨ht.links hlinks, hlinks.plans.trans hplans, ?_⟩
    intro i j hj
    rw [hlinks.jobs] at hj
    obtain ⟨j₀, hj₀, rfl⟩ := Option.map_eq_some_iff.mp hj
    obtain ⟨j₁, hj₁, hid⟩ := hback i j₀ hj₀
    refine ⟨j₁, hj₁, ?_⟩
    split
    · exact hid
    · exact hid
  have hsettled : ∀ e ∈ w.staged, ∀ j, s₀.jobs.get? e.1 = some j → j.planId = w.planId →
      j.outboxId ≠ none := by
    refine foldlM_settles (P := fun (t : Store) (e : Nat × Job) => ∀ j, t.jobs.get? e.1 = some j →
      j.planId = w.planId → j.outboxId ≠ none) ?_ ?_ hs₀
    · intro t e t' hstep j hj hid
      have hlinks := links_materialize hstep
      rw [hlinks.jobs] at hj
      obtain ⟨j₀, hj₀, rfl⟩ := Option.map_eq_some_iff.mp hj
      split
      · simp
      · next hkeep =>
        rw [if_neg hkeep] at hid
        simpa [hid] using hkeep
    · intro t e b t' ht hstep j hj hid
      have hlinks := links_materialize hstep
      rw [hlinks.jobs] at hj
      obtain ⟨j₀, hj₀, rfl⟩ := Option.map_eq_some_iff.mp hj
      split
      · simp
      · next hkeep =>
        rw [if_neg hkeep] at hid
        exact ht j₀ hj₀ hid
  have hlinked : s₀.AllLinked w.planId := by
    intro i j hj hid
    obtain ⟨j₀, hj₀, hid₀⟩ := hfiled.2.2 i j hj
    refine hsettled (i, j₀) ?_ j hj hid
    rw [hstaged, stagedJobs, List.mem_insertionSort, Table.mem_select]
    have hop := hs.staged i j₀ hj₀ (hnone i j₀ hj₀ (hid₀.trans hid))
    exact ⟨hj₀, by simp [hid₀.trans hid, hop]⟩
  have hadded : s'.Filed ∧ s'.plans = s.plans ∧ s'.AllLinked w.planId := by
    refine foldlM_invariant (P := fun t : Store => t.Filed ∧ t.plans = s.plans ∧
      t.AllLinked w.planId) ?_ ⟨hfiled.1, hfiled.2.1, hlinked⟩ h
    rintro t j t' - ⟨ht, hplans, hall⟩ hstep
    have hadds := adds_addJob hstep
    refine ⟨ht.adds hadds ⟨p, by rw [hplans]; exact hplan⟩, hadds.plans.trans hplans, ?_⟩
    intro i k hk hid
    rw [hadds.jobs] at hk
    split at hk
    · obtain rfl := Option.some.inj hk
      simp
    · exact hall i k hk hid
  exact ⟨hadded.1, hadded.2.2⟩

theorem Filed.planCommit (hs : s.Filed) {req : PlanCommit} {receipt : PlanReceipt}
    (h : s.prepareConnectorPlanCommit req now = .ok (s', receipt)) : s'.Filed := by
  rcases prepareConnectorPlanCommit_cases h with
    rfl | ⟨planId, plan, w, s₁, _, _, hplan, hcount, hw, hs₁, h⟩
  · exact hs
  · obtain ⟨hid, -, -, hstaged, -⟩ := commitWork_spec hw
    obtain rfl := hid.symm
    have hget := (Table.first?_eq_some hplan).1
    obtain ⟨hfiled, hlinked⟩ := hs.materializeCommit hget hcount hstaged hs₁
    have hobsolete : Upkeep s₁ (s₁.markObsoletePresentationPlans w.plan.hostId w.plan.name
        w.plan.turnId w.planId now).1 := upkeep_markObsolete _ _ _ _
    have hstarted : (s₁.startPlan w now).1.Filed := by
      have hall : (s₁.markObsoletePresentationPlans w.plan.hostId w.plan.name w.plan.turnId
          w.planId now).1.AllLinked w.planId := by
        intro i j hj
        rw [hobsolete.jobs] at hj
        exact hlinked i j hj
      refine (hfiled.retains (.of_upkeep hobsolete)).startPlan hall ?_ _
      intro i x hx
      simp only [Bool.and_eq_true, beq_iff_eq] at hx
      exact hx.1
    exact hstarted.retains (.of_upkeep (upkeep_holdSource h))

/-- The jobs that are added come after those there are. -/
lemma jobs_addJobs {planId : Nat} {hostId name : String} {token : PlanToken} {common : JobCommon}
    {specs : List JobSpec}
    (h : specs.foldlM (addJob planId hostId name token common now) s = .ok s') :
    (s'.jobs.table.select fun _ j => j.planId == planId).map (·.2.spec) =
      (s.jobs.table.select fun _ j => j.planId == planId).map (·.2.spec) ++ specs := by
  induction specs generalizing s with
  | nil =>
    obtain rfl := Except.ok.inj h
    simp
  | cons j specs ih =>
    rw [List.foldlM_cons] at h
    obtain ⟨t, ht, h⟩ := bind_eq_ok.mp h
    have hselect := Table.select_of_append (p := fun _ k => k.planId == planId)
      (adds_addJob ht).jobs (by simp [JobSpec.job])
    rw [ih h, hselect, List.map_append, List.append_assoc]
    rfl

/-- The recovered plan is there with its jobs and its audit, and the old plans are as they were. -/
structure Staged (s s' : Store) (w : RecoveryWork) (requestId : RequestId) (now : Int) : Prop where
  filed : s'.Filed
  plans : ∀ i, s'.plans.get? i =
    if i = s.plans.table.freeId then some (w.plan now) else s.plans.get? i
  recoveries : ∀ i, s'.recoveries.get? i =
    if i = s.recoveries.table.freeId then some (w.audit requestId s.plans.table.freeId now)
    else s.recoveries.get? i
  jobs : (s'.jobs.table.select fun _ j => j.planId == s.plans.table.freeId).map (·.2.spec) = w.specs

lemma Filed.materializeRecovery (hs : s.Filed) {w : RecoveryWork} {requestId : RequestId}
    (htoken : ∃ hostId name q generation,
      w.planToken = .recovery hostId name w.failed.planToken q generation)
    (h : s.materializeRecovery w requestId now = .ok s') :
    ∃ s₃, Staged s s₃ w requestId now ∧
      s₃.finalizeRecoveredPlanMaterialization w.failedId s.plans.table.freeId = .ok s' := by
  obtain ⟨s₁, s₂, s₃, hs₁, hs₂, hs₃, h⟩ := materializeRecovery_spec h
  refine ⟨s₃, ?_, h⟩
  have hfiled₁ : s₁.Filed := by
    refine hs.insertPlan ?_ hs₁
    intro t ht
    obtain rfl := Option.some.inj (show some w.failed.planToken = some t from ht)
    exact htoken
  have hold : (∀ i, s₁.plans.get? i =
        if i = s.plans.table.freeId then some (w.plan now) else s.plans.get? i) ∧
      s₁.recoveries = s.recoveries ∧ s₁.jobs = s.jobs := by
    obtain ⟨t, rfl, ht⟩ := insertPlan_spec hs₁
    exact ⟨ht, rfl, rfl⟩
  obtain ⟨hplans, hrecoveries, hjobs⟩ := hold
  have hnew : s₁.plans.get? s.plans.table.freeId = some (w.plan now) := by
    rw [hplans, if_pos rfl]
  have hadded : s₂.Filed ∧ s₂.plans = s₁.plans ∧ s₂.recoveries = s₁.recoveries := by
    refine foldlM_invariant (P := fun t : Store => t.Filed ∧ t.plans = s₁.plans ∧
      t.recoveries = s₁.recoveries) ?_ ⟨hfiled₁, rfl, rfl⟩ hs₂
    rintro t j t' - ⟨ht, hp, hr⟩ hstep
    have hadds := adds_addJob hstep
    refine ⟨ht.adds hadds ⟨w.plan now, ?_⟩, hadds.plans.trans hp, hadds.recoveries.trans hr⟩
    rw [hp]
    exact hnew
  obtain ⟨hfiled₂, hplans₂, hrecoveries₂⟩ := hadded
  refine ⟨?_, ?_, ?_, ?_⟩
  · refine hfiled₂.insertRecovery (p := w.plan now) ?_ ⟨rfl, rfl, rfl, rfl⟩ ?_ hs₃
    · rw [hplans₂]
      exact hnew
    · intro i b hb heq
      rw [hrecoveries₂, hrecoveries] at hb
      obtain ⟨p, hp, -⟩ := hs.audited i b hb
      exact (Table.get?_lt_freeId hp).ne heq
  · intro i
    obtain ⟨u, rfl, -⟩ := insertRecovery_spec hs₃
    dsimp only
    rw [hplans₂, hplans]
  · intro i
    obtain ⟨u, rfl, hu⟩ := insertRecovery_spec hs₃
    dsimp only
    rw [hu, hrecoveries₂, hrecoveries]
  · obtain ⟨u, rfl, -⟩ := insertRecovery_spec hs₃
    have hnone : (s₁.jobs.table.select fun _ j => j.planId == s.plans.table.freeId) = [] := by
      rw [List.eq_nil_iff_forall_not_mem]
      rintro ⟨i, j⟩ hj
      rw [Table.mem_select, beq_iff_eq, hjobs] at hj
      obtain ⟨p, hp, -⟩ := hs.planned i j hj.1
      exact (Table.get?_lt_freeId hp).ne hj.2
    have hspecs := jobs_addJobs hs₂
    rw [hnone] at hspecs
    exact hspecs

lemma planByToken?_spec {hostId name : String} {token : PlanToken} {i : Nat} {p : Plan}
    (h : s.planByToken? hostId name token = some (i, p)) :
    s.plans.get? i = some p ∧ p.hostId = hostId ∧ p.name = name ∧ p.planToken = token := by
  obtain ⟨hget, hcolumns⟩ := Table.first?_eq_some h
  simp only [Bool.and_eq_true, beq_iff_eq] at hcolumns
  exact ⟨hget, hcolumns.1.1, hcolumns.1.2, hcolumns.2⟩

/-- A request that is not a replay stages a recovery and ends it. -/
lemma Filed.staged_of_recover (hs : s.Filed) {req : PlanRecover} {failedId : Nat} {failed : Plan}
    {w : RecoveryWork}
    (hplan : s.planByToken? req.hostId req.name req.failedPlanToken = some (failedId, failed))
    (hw : s.recoveryWork req failedId failed = .ok w)
    (h : s.materializeRecovery w req.requestId now = .ok s') :
    ∃ t, Staged s t w req.requestId now ∧
      t.finalizeRecoveredPlanMaterialization w.failedId s.plans.table.freeId = .ok s' := by
  obtain ⟨-, -, -, hfound⟩ := planByToken?_spec hplan
  obtain ⟨-, hfailed, -, -, -, -, htoken, -⟩ := recoveryWork_spec hw
  have hrecovers : w.planToken = .recovery req.hostId req.name w.failed.planToken req.requestId
      (failed.generation + 1) := by
    rw [htoken, hfailed, hfound]
  exact hs.materializeRecovery ⟨_, _, _, _, hrecovers⟩ h

theorem Filed.planRecover (hs : s.Filed) {req : PlanRecover} {receipt : RecoveryReceipt}
    (h : s.prepareConnectorPlanRecover req now = .ok (s', receipt)) : s'.Filed := by
  rcases prepareConnectorPlanRecover_cases h with rfl | ⟨failedId, failed, w, hplan, hw, h⟩
  · exact hs
  · obtain ⟨t, hstaged, h⟩ := hs.staged_of_recover hplan hw h
    exact hstaged.filed.retains (retains_finalizeRecovered h)

theorem Filed.finalRetry (hs : s.Filed) {hostId : String} {identity : FinalIdentity}
    {receipt : FinalRetryReceipt}
    (h : s.retryFinalReadyDelivery hostId identity now = .ok (s', receipt)) : s'.Filed := by
  obtain ⟨i, root, hroot, -, ⟨-, rfl⟩ | ⟨_, _, h⟩ | ⟨payload, -, -, rfl⟩⟩ :=
    retryFinalReadyDelivery_cases h
  · exact hs.retains (.of_upkeep (upkeep_retireStaleRoot (rootByKey?_spec hroot).1))
  · exact hs.planRecover h
  · exact hs.retains ((Retains.deleteDeliveries _).trans (.updateOutbox _ _))

theorem respects_filed : Respects fun s s' => s.Filed → s'.Filed where
  refl _ := id
  trans h h' := h' ∘ h
  write _ _ _ hs := hs.retains (.of_rows rfl rfl rfl fun _ r hr => ⟨r, hr⟩)
  ensure h hs := hs.retains (retains_ensure h)
  enqueue h hs := hs.retains (.insertOutboxOrIgnore h)
  poll _ req _ hs := hs.retains (retains_poll req)
  renew h hs := hs.retains (.of_upkeep (upkeep_renew h))
  release h hs := hs.retains (.of_upkeep (upkeep_release h))
  ack h hs := hs.retains (.of_upkeep (upkeep_ack h))
  setback h hs := hs.retains (.of_upkeep (upkeep_setback h))
  reclaim _ hostId name _ hs := hs.retains (.of_upkeep (upkeep_reclaim hostId name))
  exhaust _ hostId name maxAttempts _ hs :=
    hs.retains (.of_upkeep (upkeep_exhaust hostId name maxAttempts))
  planBegin h hs := hs.planBegin h
  planPart h hs := hs.planPart h
  planCommit h hs := hs.planCommit h
  planRecover h hs := hs.planRecover h
  finalRetry h hs := hs.finalRetry h

theorem filed_run (supersessions : Constrained supersessionSchema) (calls : List Call) :
    ((initial supersessions).run calls).Filed := by
  refine foldl_invariant (P := Filed) (fun s c _ hs => respects_filed.step s c hs) ?_
  refine ⟨?_, ?_, ?_, ?_, ?_, ?_⟩
  · intro i j hj
    simp [initial] at hj
  · intro i j o hj
    simp [initial] at hj
  · intro i j hj
    simp [initial] at hj
  · intro i p t hp
    simp [initial] at hp
  · intro i a ha
    simp [initial] at ha
  · intro i j a b ha
    simp [initial] at ha

end Store

end Tendwire.Connector

import Mathlib.Logic.Relation
import Tendwire.Connector.Machine

/-!
# Operations as statements

Every operation of the connector is a chain of statements on its tables. What each statement
preserves, every operation does.
-/

namespace Tendwire.Connector

open Transition

/-- The times of a plan fit its state. -/
structure PlanProgress.Sound (p : PlanProgress) : Prop where
  preparing : p.state = .preparing → p.activatedAt = none
  active : p.state = .active → p.activatedAt.isSome = true
  completed : p.completedAt.isSome = true →
    p.activatedAt.isSome = true ∧ (p.state = .completed ∨ p.state = .superseded)

/-- The key columns of an attempt are those of its row. -/
def Delivery.AttemptOf (d : Delivery) (r : OutboxRow) : Prop :=
  d.hostId = r.hostId ∧ d.connector = r.connector ∧ d.deliveryKey = r.deliveryKey

lemma PlanProgress.Sound.superseded {x : PlanProgress} (h : x.Sound) :
    PlanProgress.Sound { x with state := .superseded } :=
  { preparing := fun hs => by cases hs
    active := fun hs => by cases hs
    completed := fun hc => ⟨(h.completed hc).1, .inr rfl⟩ }

lemma PlanProgress.Sound.completedAt_eq_none {x : PlanProgress} (h : x.Sound)
    (hs : x.state ≠ .completed ∧ x.state ≠ .superseded) : x.completedAt = none := by
  by_contra hne
  obtain ⟨-, hc | hc⟩ := h.completed (Option.isSome_iff_ne_none.mpr hne)
  · exact hs.1 hc
  · exact hs.2 hc

lemma PlanProgress.Sound.failed {x : PlanProgress} (h : x.Sound)
    (hs : x.state.live = true ∨ x.state = .failed) :
    PlanProgress.Sound { x with state := .failed } := by
  have hnone : x.completedAt = none := h.completedAt_eq_none (by
    constructor <;> rintro heq <;> simp [heq, PlanState.live] at hs)
  refine ⟨fun hs => ?_, fun hs => ?_, fun hc => ?_⟩
  · cases hs
  · cases hs
  · dsimp only at hc
    rw [hnone] at hc
    cases hc

/-- Plans that run start and end as they should. -/
lemma PlanProgress.Sound.started {x : PlanProgress} (h : x.Sound)
    (hs : x.state = .preparing ∨ x.state = .waitingPredecessor) (now : Int)
    (replaces : Option PlanToken) :
    PlanProgress.Sound { x with
      state := .active, replacesPlanToken := replaces, activatedAt := some now } ∧
    PlanProgress.Sound { x with
      state := .waitingPredecessor, replacesPlanToken := replaces, activatedAt := none } := by
  have hnone : x.completedAt = none := h.completedAt_eq_none (by
    rcases hs with hs | hs <;> simp [hs])
  refine ⟨⟨fun hs => ?_, fun _ => rfl, fun _ => ?_⟩, ⟨fun _ => rfl, fun hs => ?_, fun hc => ?_⟩⟩
  · cases hs
  · simp_all
  · cases hs
  · simp_all

/-- The root is one of the plan's turn and revision. -/
def Plan.SourcedBy (p : Plan) (r : OutboxRow) : Prop :=
  r.hostId = p.hostId ∧ r.connector = p.name ∧ r.turnId = some p.turnId ∧
    r.contentRevision = some p.contentRevision

namespace Store

/-- A plan of the final connector whose times fit its state and whose source fits its turn. -/
structure PlanFits (outbox : Relational.Constrained outboxSchema) (x : Plan) : Prop where
  sound : x.Sound
  name : x.name = turnFinalName
  source : ∀ o, x.sourceOutboxId = some o →
    o < outbox.table.next ∧ ∀ r, outbox.get? o = some r → x.SourcedBy r

def PlansFit (outbox : Relational.Constrained outboxSchema)
    (plans : Relational.Constrained planSchema) : Prop :=
  ∀ i x, plans.get? i = some x → PlanFits outbox x

/-- The attempts of a row repeat its key, and the plans fit. -/
structure Consistent (s : Store) : Prop where
  attempts : ∀ k d i, s.deliveries.get? k = some d → d.outboxId = some i →
    i < s.outbox.table.next ∧ ∀ r, s.outbox.get? i = some r → d.AttemptOf r
  plans : PlansFit s.outbox s.plans

inductive Statement : Store → Store → Prop
  | turns {s : Store} (turns revisions) : Statement s { s with turns, revisions }
  | updateOutbox {s : Store} (p f) : Statement s (s.updateOutbox p f)
  | updateDeliveries {s : Store} (p) {f} (h : ∀ d, (f d).outboxId = d.outboxId) :
      Statement s (s.updateDeliveries p f)
  | plans {s : Store} (plans) (h : s.Consistent → PlansFit s.outbox plans) : Statement s { s with plans }
  | insertOutbox {s s' : Store} {r} (h : s.insertOutbox r = .ok s') : Statement s s'
  | insertDelivery {s : Store} {d} (h : ∀ i, d.outboxId = some i →
      ∃ r, s.outbox.get? i = some r ∧ d.AttemptOf r) : Statement s (s.insertDelivery d)
  | jobs {s : Store} (jobs) : Statement s { s with jobs }
  | recoveries {s : Store} (recoveries) : Statement s { s with recoveries }
  | deleteDeliveries {s : Store} (p) : Statement s (s.deleteDeliveries p)
  | deletePlans {s s' : Store} {p} (h : s.deletePlans p = .ok s') : Statement s s'
  | deleteOutbox {s s' : Store} {p} (h : s.deleteOutbox p = .ok s') : Statement s s'

/-- A chain of statements. -/
def Writes : Store → Store → Prop := Relation.ReflTransGen Statement

variable {s s' s'' : Store}

namespace Writes

protected lemma refl (s : Store) : Writes s s := Relation.ReflTransGen.refl

lemma of (h : Statement s s') : Writes s s' := Relation.ReflTransGen.single h

lemma andThen (h : Writes s s') (h' : Statement s' s'') : Writes s s'' :=
  Relation.ReflTransGen.tail h h'

protected lemma trans (h : Writes s s') (h' : Writes s' s'') : Writes s s'' :=
  Relation.ReflTransGen.trans h h'

end Writes

/-- The statements of a delivery's outcome: the attempt, then its row. -/
lemma writes_pair {q : Nat → Delivery → Bool} {g : DeliveryState → DeliveryState}
    {p : Nat → OutboxRow → Bool} {f : OutboxState → OutboxState}
    (h : ∀ d, (g d).outboxId = d.outboxId) :
    Writes s ((s.updateDeliveries q g).updateOutbox p f) :=
  (Writes.of (.updateDeliveries q h)).andThen (.updateOutbox p f)

/-! ### What statements preserve -/

lemma consistent_initial (supersessions : Relational.Constrained supersessionSchema) :
    Consistent (initial supersessions) :=
  ⟨fun _ _ _ hd => by simp [initial] at hd, fun _ _ hx => by simp [initial] at hx⟩

lemma Consistent.deleteOutbox (hs : Consistent s) {p : Nat → OutboxRow → Bool}
    (h : s.deleteOutbox p = .ok s') : Consistent s' := by
  obtain ⟨-, rfl⟩ := deleteOutbox_spec h
  have hget : ∀ i r, (s.outbox.deleteWhere p).get? i = some r → s.outbox.get? i = some r := by
    intro i r hr
    rw [Relational.Constrained.get?_deleteWhere] at hr
    exact (Option.filter_eq_some_iff.mp hr).1
  refine ⟨fun k d i hd hi => ?_, fun i x hx =>
    ⟨(hs.plans i x hx).sound, (hs.plans i x hx).name, fun o ho => ?_⟩⟩
  · dsimp only at hd
    rw [Relational.Table.get?_updateWhere] at hd
    obtain ⟨d₀, hd₀, rfl⟩ := Option.map_eq_some_iff.mp hd
    split at hi
    · cases hi
    · next hp =>
      obtain ⟨hlt, hkey⟩ := hs.attempts k d₀ i hd₀ hi
      refine ⟨hlt, fun r hr => ?_⟩
      rw [if_neg hp]
      exact hkey r (hget i r hr)
  · obtain ⟨hlt, hsource⟩ := (hs.plans i x hx).source o ho
    exact ⟨hlt, fun r hr => hsource r (hget o r hr)⟩

theorem Statement.consistent (h : Statement s s') (hs : Consistent s) : Consistent s' := by
  cases h with
  | turns turns revisions => exact ⟨hs.attempts, hs.plans⟩
  | updateOutbox p f =>
    have hkey : ∀ i r, (s.updateOutbox p f).outbox.get? i = some r →
        ∃ r₀, s.outbox.get? i = some r₀ ∧ r.toOutboxKey = r₀.toOutboxKey := by
      intro i r hr
      rw [outbox_updateOutbox] at hr
      obtain ⟨r₀, hr₀, rfl⟩ := Option.map_eq_some_iff.mp hr
      refine ⟨r₀, hr₀, ?_⟩
      split
      · rfl
      · rfl
    refine ⟨fun k d i hd hi => ?_, fun i x hx =>
    ⟨(hs.plans i x hx).sound, (hs.plans i x hx).name, fun o ho => ?_⟩⟩
    · obtain ⟨hlt, hattempt⟩ := hs.attempts k d i hd hi
      refine ⟨hlt, fun r hr => ?_⟩
      obtain ⟨r₀, hr₀, heq⟩ := hkey i r hr
      unfold Delivery.AttemptOf
      rw [heq]
      exact hattempt r₀ hr₀
    · obtain ⟨hlt, hsource⟩ := (hs.plans i x hx).source o ho
      refine ⟨hlt, fun r hr => ?_⟩
      obtain ⟨r₀, hr₀, heq⟩ := hkey o r hr
      unfold Plan.SourcedBy
      rw [heq]
      exact hsource r₀ hr₀
  | @updateDeliveries p f hf =>
    refine ⟨fun k d i hd hi => ?_, hs.plans⟩
    rw [deliveries_updateDeliveries] at hd
    obtain ⟨d₀, hd₀, rfl⟩ := Option.map_eq_some_iff.mp hd
    have hid : d₀.outboxId = some i := by
      split at hi
      · rwa [← hf d₀.toDeliveryState]
      · exact hi
    obtain ⟨hlt, hkey⟩ := hs.attempts k d₀ i hd₀ hid
    refine ⟨hlt, fun r hr => ?_⟩
    have hkey₀ := hkey r hr
    split
    · exact hkey₀
    · exact hkey₀
  | plans plans h => exact ⟨hs.attempts, h hs⟩
  | insertOutbox h =>
    obtain ⟨t, rfl, hnext, ht⟩ := insertOutbox_spec h
    refine ⟨fun k d i hd hi => ?_, fun i x hx =>
    ⟨(hs.plans i x hx).sound, (hs.plans i x hx).name, fun o ho => ?_⟩⟩
    · obtain ⟨hlt, hkey⟩ := hs.attempts k d i hd hi
      refine ⟨hnext ▸ Nat.lt_succ_of_lt hlt, fun r hr => hkey r ?_⟩
      rwa [ht, if_neg hlt.ne] at hr
    · obtain ⟨hlt, hsource⟩ := (hs.plans i x hx).source o ho
      refine ⟨hnext ▸ Nat.lt_succ_of_lt hlt, fun r hr => hsource r ?_⟩
      rwa [ht, if_neg hlt.ne] at hr
  | @insertDelivery d₀ h =>
    refine ⟨fun k d i hd hi => ?_, hs.plans⟩
    unfold Store.insertDelivery at hd
    dsimp only at hd
    rw [Relational.Table.get?_insert] at hd
    split at hd
    · obtain rfl := Option.some.inj hd
      obtain ⟨r, hr, hkey⟩ := h i hi
      refine ⟨Relational.Table.get?_lt_next hr, fun r' hr' => ?_⟩
      obtain rfl := Option.some.inj (hr.symm.trans hr')
      exact hkey
    · exact hs.attempts k d i hd hi
  | jobs jobs => exact ⟨hs.attempts, hs.plans⟩
  | recoveries recoveries => exact ⟨hs.attempts, hs.plans⟩
  | deleteDeliveries p =>
    refine ⟨fun k d i hd hi => ?_, hs.plans⟩
    unfold Store.deleteDeliveries at hd
    dsimp only at hd
    rw [Relational.Table.get?_deleteWhere] at hd
    exact hs.attempts k d i (Option.filter_eq_some_iff.mp hd).1 hi
  | deletePlans h =>
    obtain ⟨-, rfl⟩ := deletePlans_spec h
    refine ⟨hs.attempts, fun i x hx => hs.plans i x ?_⟩
    dsimp only at hx
    rw [Relational.Constrained.get?_deleteWhere] at hx
    exact (Option.filter_eq_some_iff.mp hx).1
  | deleteOutbox h => exact hs.deleteOutbox h

theorem Writes.consistent (h : Writes s s') (hs : Consistent s) : Consistent s' := by
  induction h with
  | refl => exact hs
  | tail _ hstep ih => exact hstep.consistent ih

/-! ### Plans -/

lemma writes_updatePlans {p : Nat → Plan → Bool} {f : PlanProgress → PlanProgress}
    (h : ∀ i x, s.plans.get? i = some x → p i x = true → x.Sound → (f x.toPlanProgress).Sound)
    (hsource : ∀ x, (f x).sourceOutboxId = x.sourceOutboxId) : Writes s (s.updatePlans p f) := by
  refine .of (.plans _ fun hs i x hx => ?_)
  change (s.updatePlans p f).plans.get? i = some x at hx
  rw [plans_updatePlans] at hx
  obtain ⟨y, hy, rfl⟩ := Option.map_eq_some_iff.mp hx
  have hfits := hs.plans i y hy
  split
  · next hp =>
    refine ⟨h i y hy hp hfits.sound, hfits.name, fun o ho => hfits.source o ?_⟩
    rwa [← hsource y.toPlanProgress]
  · exact hfits

lemma writes_insertPlan {p : Plan} (hp : s.Consistent → PlanFits s.outbox p)
    (h : s.insertPlan p = .ok s') : Writes s s' := by
  obtain ⟨t, rfl, ht⟩ := insertPlan_spec h
  refine .of (.plans t fun hs i x hx => ?_)
  rw [ht] at hx
  split at hx
  · obtain rfl := Option.some.inj hx
    exact hp hs
  · exact hs.plans i x hx

lemma writes_supersedePlans (p : Nat → Plan → Bool) :
    Writes s (s.updatePlans p fun x => { x with state := .superseded }) :=
  writes_updatePlans (fun _ _ _ _ h => h.superseded) fun _ => rfl

lemma writes_failPlans {p : Nat → Plan → Bool}
    (hp : ∀ i x, s.plans.get? i = some x → p i x = true →
      x.state.live = true ∨ x.state = .failed) :
    Writes s (s.updatePlans p fun x => { x with state := .failed }) :=
  writes_updatePlans (fun i x hx hpx h => h.failed (hp i x hx hpx)) fun _ => rfl

lemma writes_activateWaiting (hostId name : String) (now : Int) :
    Writes s (s.activateWaitingPresentationPlans hostId name now) := by
  refine writes_updatePlans (fun i x _ hx h => ?_) fun _ => rfl
  simp only [Bool.and_eq_true, beq_iff_eq] at hx
  have hstarted := (h.started (.inr hx.1.2) (x.activatedAt.getD now) x.replacesPlanToken).1
  exact hstarted

lemma writes_failPlan {planId : Nat} {plan : Plan} (hplan : s.plans.get? planId = some plan)
    (hstate : plan.state.live = true ∨ plan.state = .failed) : Writes s (s.failPlan planId) := by
  refine writes_failPlans fun i x hx hi => ?_
  obtain rfl : i = planId := by simpa using hi
  rw [hplan] at hx
  rwa [← Option.some.inj hx]

lemma writes_extendAckDeadline (sourceId : Nat) (deadline now : Int) :
    Writes s (s.extendAckDeadline sourceId deadline now) := by
  unfold extendAckDeadline
  split
  · dsimp only
    split
    · exact (Writes.of (.updateOutbox _ _)).andThen (.updateDeliveries _ fun _ => rfl)
    · exact .of (.updateOutbox _ _)
  · exact .refl s

lemma writes_deliverSource (sourceId : Nat) (now : Int) :
    Writes s (s.deliverSource sourceId now) :=
  writes_pair fun _ => rfl

lemma writes_recordTombstone (plan : Plan) (now : Int) : Writes s (s.recordTombstone plan now) := by
  unfold recordTombstone
  dsimp only
  split
  · exact .refl s
  · exact .of (.insertDelivery fun i hi => by cases hi)

lemma writes_completePlan (planId : Nat) (plan : Plan) (now : Int) :
    Writes s (s.completePlan planId plan now) := by
  have hplan : Writes s (s.updatePlans (fun i p => i == planId && p.state == .active) fun p =>
      { p with state := .completed, completedAt := some (p.completedAt.getD now) }) := by
    refine writes_updatePlans (fun i x _ hx h => ?_) fun _ => rfl
    simp only [Bool.and_eq_true, beq_iff_eq] at hx
    exact {
      preparing := fun hs => by cases hs
      active := fun hs => by cases hs
      completed := fun _ => ⟨h.active hx.2, .inl rfl⟩ }
  unfold completePlan
  dsimp only
  split
  · exact hplan.trans (writes_deliverSource _ now)
  · exact hplan.trans (writes_recordTombstone plan now)

lemma planOfOutbox?_spec {outboxId planId : Nat} {plan : Plan}
    (h : s.planOfOutbox? outboxId = some (planId, plan)) : s.plans.get? planId = some plan := by
  obtain ⟨job, -, h⟩ := Option.bind_eq_some_iff.mp h
  obtain ⟨x, hx, h⟩ := Option.bind_eq_some_iff.mp h
  obtain ⟨rfl, rfl⟩ := Prod.mk.inj (Option.some.inj h)
  exact hx

lemma writes_advancePlan {planId : Nat} {plan : Plan} (hplan : s.plans.get? planId = some plan)
    (outboxStatus : OutboxStatus) (now : Int) (ttl : Option Int) :
    Writes s (s.advancePlan planId plan outboxStatus now ttl) := by
  unfold advancePlan
  split
  · next h =>
    rw [Bool.and_eq_true] at h
    exact writes_failPlan hplan (.inl h.2)
  · split
    · split
      · split
        · exact writes_extendAckDeadline _ _ _
        · exact .refl s
      · exact writes_completePlan _ _ _
    · exact .refl s

lemma writes_afterOutbox (outboxId : Nat) (outboxStatus : OutboxStatus) (now : Int)
    (ttl : Option Int) :
    Writes s (s.updatePresentationPlanAfterOutbox outboxId outboxStatus now ttl) := by
  unfold updatePresentationPlanAfterOutbox
  split
  · exact .refl s
  · next planId plan hplan =>
    exact (writes_advancePlan (planOfOutbox?_spec hplan) outboxStatus now ttl).trans
      (writes_activateWaiting _ _ _)

lemma writes_markExhausted (hostId : String) (name : Option String) :
    Writes s (s.markExhaustedPresentationPlans hostId name) := by
  refine writes_failPlans fun i x _ hx => ?_
  simp only [Bool.and_eq_true] at hx
  exact .inl hx.1.2

lemma writes_markObsolete (hostId name turnId : String) (keepPlanId : Nat) (now : Int) :
    Writes s (s.markObsoletePresentationPlans hostId name turnId keepPlanId now).1 :=
  ((writes_supersedePlans _).andThen (.updateOutbox _ _)).andThen (.updateOutbox _ _)

/-! ### Reclaim and exhaustion -/

lemma writes_closeDelivery (k : Nat) (status : DeliveryStatus) (response : DeliveryResponse)
    (now : Int) : Writes s (s.closeDelivery k status response now) :=
  .of (.updateDeliveries _ fun _ => rfl)

lemma writes_closeAwaitingDelivery (k : Option Nat) (response : DeliveryResponse) (now : Int) :
    Writes s (s.closeAwaitingDelivery k response now) :=
  .of (.updateDeliveries _ fun _ => rfl)

lemma writes_reclaimLease {now : Int} {row : LeasedRow}
    (h : reclaimLease now s row = some s') : Writes s s' := by
  have hclose : Writes s (s.closeDelivery row.deliveryId .expired .expired now) :=
    writes_closeDelivery _ _ _ _
  unfold reclaimLease at h
  split at h
  · cases h
  · dsimp only at h
    split at h
    · split at h
      · obtain rfl := Option.some.inj h
        exact (hclose.andThen (.updateOutbox _ _)).trans (writes_afterOutbox _ _ _ _)
      · obtain rfl := Option.some.inj h
        exact hclose
    · obtain rfl := Option.some.inj h
      exact hclose

lemma writes_deadLetterJobRow (now : Int) (row : Nat × OutboxRow) :
    Writes s (deadLetterJobRow now s row) := by
  unfold deadLetterJobRow setOutbox
  exact writes_pair fun _ => rfl

lemma writes_retryOverdueRoot (i : Nat) (root : OutboxRow) (k : Option Nat) {planId : Nat}
    {plan : Plan} (now : Int) (hplan : s.plans.get? planId = some plan)
    (hstate : plan.state.live = true ∨ plan.state = .failed) :
    Writes s (s.retryOverdueRoot i root k planId plan now) := by
  have hrows : Writes s (((s.failPlan planId).unfinishedJobRows planId).foldl
      (deadLetterJobRow now) (s.failPlan planId)) :=
    foldl_invariant (fun _ row _ h => h.trans (writes_deadLetterJobRow now row))
      (writes_failPlan hplan hstate)
  exact (hrows.trans (writes_closeAwaitingDelivery k _ now)).andThen (.updateOutbox _ _)

lemma writes_deadLetterOverdueRoot (i : Nat) (root : OutboxRow) (k : Option Nat) (now : Int) :
    Writes s (s.deadLetterOverdueRoot i root k now) :=
  (writes_closeAwaitingDelivery k _ now).andThen (.updateOutbox _ _)

lemma writes_settleCompletedRoot (i : Nat) (root : OutboxRow) (k : Option Nat) (now : Int) :
    Writes s (s.settleCompletedRoot i root k now) :=
  writes_pair fun _ => rfl

lemma writes_reclaimAwaitingAck {now : Int} {row : Nat × OutboxRow}
    (h : reclaimAwaitingAck now s row = some s') : Writes s s' := by
  unfold reclaimAwaitingAck at h
  dsimp only at h
  split at h
  · cases h
  · split at h
    · obtain rfl := Option.some.inj h
      exact (writes_deadLetterOverdueRoot _ _ _ _).trans (writes_activateWaiting _ _ _)
    · next planId plan hplan =>
      split at h
      · obtain rfl := Option.some.inj h
        exact writes_settleCompletedRoot _ _ _ _
      · split at h
        · next hstate =>
          split at h
          · cases h
          · obtain rfl := Option.some.inj h
            have hget := (Relational.Table.newest?_eq_some hplan).1
            refine (writes_retryOverdueRoot _ _ _ _ hget ?_).trans (writes_activateWaiting _ _ _)
            simpa using hstate
        · obtain rfl := Option.some.inj h
          exact (writes_deadLetterOverdueRoot _ _ _ _).trans (writes_activateWaiting _ _ _)

theorem writes_reclaim (hostId : String) (name : Option String) (now : Int) :
    Writes s (s.connectorReclaimExpiredLeases hostId name now).1 := by
  have hleases : Writes s (sweep (reclaimLease now) (s.leasedRows hostId name) s).1 :=
    sweep_invariant (fun _ _ _ _ h hstep => h.trans (writes_reclaimLease hstep)) (.refl s)
  rw [connectorReclaimExpiredLeases_fst]
  exact sweep_invariant (P := Writes s)
    (fun _ _ _ _ h hstep => h.trans (writes_reclaimAwaitingAck hstep)) hleases

theorem writes_exhaust (hostId : String) (name : Option String) (maxAttempts now : Int) :
    Writes s (s.connectorExhaustRetryable hostId name maxAttempts now).1 := by
  have hrows : Writes s ((s.exhaustedRows hostId name maxAttempts).foldl (exhaustRow now) s) :=
    foldl_invariant (fun _ _ _ h => h.andThen (.updateOutbox _ _)) (.refl s)
  exact hrows.trans (writes_markExhausted _ _)

/-! ### Roots -/

lemma writes_supersedeStale (hostId turnId : String) (revision : ContentRevision) (now : Int) :
    Writes s (s.supersedeStaleFinalWork hostId turnId revision now) :=
  (writes_supersedePlans _).trans (writes_pair fun _ => rfl)

lemma writes_deletePlansOfRevision {hostId turnId : String} {revision : ContentRevision}
    (h : s.deletePlansOfRevision hostId turnId revision = .ok s') : Writes s s' := by
  obtain ⟨s₃, hs₃, h⟩ := bind_eq_ok.mp h
  exact ((((writes_supersedePlans _).andThen (.recoveries _)).andThen (.deletePlans hs₃)).andThen
    (.deleteDeliveries _)).andThen (.deleteOutbox h)

lemma writes_reactivates {hostId turnId : String} {revision : ContentRevision}
    {payload : FinalPayload} {now : Int}
    (h : ReactivatesTo s hostId turnId revision payload now s') : Writes s s' := by
  rcases h with ⟨i, row, -, -, h⟩ | ⟨rfl, -⟩
  · obtain ⟨s₁, hs₁, h⟩ := bind_eq_ok.mp h
    obtain rfl := Except.ok.inj h
    exact ((writes_deletePlansOfRevision hs₁).andThen (.deleteDeliveries _)).andThen
      (.updateOutbox _ _)
  · exact .refl _

lemma writes_discard (hostId turnId : String) (revision : ContentRevision) :
    Writes s (s.discardAcknowledgedFinalReplay hostId turnId revision) := by
  unfold discardAcknowledgedFinalReplay
  split
  · exact .refl s
  · dsimp only
    split
    · exact .of (.turns _ _)
    · exact .of (.turns _ _)

lemma writes_insertOutboxOrIgnore {r : OutboxRow} (h : s.insertOutboxOrIgnore r = .ok s') :
    Writes s s' := by
  rcases insertOutboxOrIgnore_cases h with ⟨rfl, -⟩ | ⟨-, h⟩
  · exact .refl _
  · exact .of (.insertOutbox h)

theorem writes_ensure {hostId turnId : String} {revision : ContentRevision} {now : Int}
    {id : Option Nat}
    (h : s.ensureFinalReadyAnchor hostId turnId revision now = .ok (s', id)) : Writes s s' := by
  rcases ensureFinalReadyAnchor_cases h with ⟨-, rfl⟩ | ⟨payload, hp, h⟩
  · exact .refl _
  · rcases h with ⟨-, -, rfl⟩ | ⟨-, -, rfl⟩ | ⟨s₁, hs₁, h⟩
    · exact .refl _
    · exact writes_discard _ _ _
    · exact ((writes_reactivates hs₁).trans (writes_supersedeStale _ _ _ _)).trans
        (writes_insertOutboxOrIgnore h)

/-! ### Begin, commit and recovery -/

lemma writes_insertJob {j : Job} (h : s.insertJob j = .ok s') : Writes s s' := by
  obtain ⟨t, rfl, -⟩ := insertJob_spec h
  exact .of (.jobs t)

lemma writes_materialize {planId jobId : Nat} {hostId name : String} {token : PlanToken}
    {payload : PartPayload} {now : Int}
    (h : s.materializeConnectorPlanJob planId jobId hostId name token payload now = .ok s') :
    Writes s s' := by
  obtain ⟨_, _, s₁, -, hs₁, h⟩ := materializeConnectorPlanJob_spec h
  obtain ⟨u, rfl, -⟩ := linkJob_spec h
  exact (Writes.of (.insertOutbox hs₁)).andThen (.jobs u)

lemma writes_addJob {planId : Nat} {hostId name : String} {token : PlanToken}
    {common : JobCommon} {now : Int} {j : JobSpec}
    (h : addJob planId hostId name token common now s j = .ok s') : Writes s s' := by
  obtain ⟨s₁, hs₁, h⟩ := addJob_spec h
  exact (writes_insertJob hs₁).trans (writes_materialize h)

lemma writes_materializeCommit {w : CommitWork} {now : Int}
    (h : s.materializeCommit w now = .ok s') : Writes s s' := by
  obtain ⟨s₁, hs₁, h⟩ := bind_eq_ok.mp h
  have hstaged : Writes s s₁ := foldlM_invariant (P := Writes s)
    (fun _ _ _ _ ht hstep => ht.trans (writes_materialize hstep)) (.refl s) hs₁
  exact foldlM_invariant (P := Writes s)
    (fun _ _ _ _ ht hstep => ht.trans (writes_addJob hstep)) hstaged h

lemma writes_holdSource {live : Option LiveRef} {generation footprint : Nat} {deadline now : Int}
    (h : s.holdSource live generation footprint deadline now = .ok s') : Writes s s' := by
  unfold holdSource at h
  split at h
  · obtain ⟨_, _, -, -, -, -, -, rfl⟩ := awaitAcknowledgement_spec h
    exact writes_pair fun _ => rfl
  · rw [Except.ok.inj h]
    exact .refl _

lemma writes_startPlan (w : CommitWork) (now : Int) : Writes s (s.startPlan w now).1 := by
  have hobsolete : Writes s (s.markObsoletePresentationPlans w.plan.hostId w.plan.name
      w.plan.turnId w.planId now).1 := writes_markObsolete _ _ _ _ _
  refine hobsolete.trans (writes_updatePlans (fun i x _ hx h => ?_) fun _ => rfl)
  simp only [Bool.and_eq_true, beq_iff_eq] at hx
  have hstarted := h.started (.inl hx.2) now w.replacesPlanToken
  split
  · exact hstarted.2
  · exact hstarted.1

theorem writes_planCommit {req : PlanCommit} {now : Int} {receipt : PlanReceipt}
    (h : s.prepareConnectorPlanCommit req now = .ok (s', receipt)) : Writes s s' := by
  rcases prepareConnectorPlanCommit_cases h with rfl | ⟨_, _, w, s₁, _, _, -, -, -, hs₁, h⟩
  · exact .refl _
  · exact ((writes_materializeCommit hs₁).trans (writes_startPlan w now)).trans
      (writes_holdSource h)

lemma writes_pruneRecoveries {plan : Plan} (h : s.pruneRecoveries plan = .ok s') :
    Writes s s' := by
  unfold pruneRecoveries at h
  dsimp only at h
  split at h
  · rw [← Except.ok.inj h]
    exact .of (.recoveries _)
  · exact (Writes.of (.recoveries _)).andThen (.deletePlans h)

lemma writes_deleteUnacknowledged {lineage : Nat → Bool}
    (h : s.deleteUnacknowledged lineage = .ok s') : Writes s s' :=
  ((Writes.of (.deleteDeliveries _)).andThen (.jobs _)).andThen (.deleteOutbox h)

lemma writes_finalizeRecovered {failedId recoveredId : Nat}
    (h : s.finalizeRecoveredPlanMaterialization failedId recoveredId = .ok s') : Writes s s' := by
  rcases finalizeRecovered_cases h with ⟨-, rfl⟩ | ⟨_, s₂, -, hs₂, h⟩
  · exact .refl _
  · exact ((writes_supersedePlans _).trans (writes_deleteUnacknowledged hs₂)).trans
      (writes_pruneRecoveries h)

theorem writes_planRecover {req : PlanRecover} {now : Int} {receipt : RecoveryReceipt}
    (h : s.prepareConnectorPlanRecover req now = .ok (s', receipt)) : Writes s s' := by
  rcases prepareConnectorPlanRecover_cases h with rfl | ⟨failedId, failed, w, hfailed, hw, h⟩
  · exact .refl _
  · obtain ⟨s₁, s₂, s₃, hs₁, hs₂, hs₃, h⟩ := materializeRecovery_spec h
    have hget : s.plans.get? failedId = some w.failed := by
      rw [(recoveryWork_spec hw).2.1]
      exact (Relational.Table.first?_eq_some hfailed).1
    have hsound : (w.plan now).Sound :=
      { preparing := fun hs => by cases hs
        active := fun _ => rfl
        completed := fun hc => by cases hc }
    have hplan : Writes s s₁ := writes_insertPlan (fun hs =>
      have hfits := hs.plans failedId w.failed hget
      ⟨hsound, hfits.name, hfits.source⟩) hs₁
    have hjobs : Writes s s₂ := foldlM_invariant (P := Writes s)
      (fun _ _ _ _ ht hstep => ht.trans (writes_addJob hstep)) hplan hs₂
    obtain ⟨u, rfl, -⟩ := insertRecovery_spec hs₃
    exact (hjobs.andThen (.recoveries u)).trans (writes_finalizeRecovered h)

/-- The source of a begin is a leased root of the turn. -/
lemma beginSource_sourced {req : PlanBegin} {turnId : String} {now : Int} {source : Option Nat}
    {generation : Nat} (hs : Consistent s)
    (h : s.beginSource req turnId now = .ok (source, generation)) :
    ∀ o, source = some o → o < s.outbox.table.next ∧ ∀ r, s.outbox.get? o = some r →
      r.hostId = req.hostId ∧ r.connector = req.name ∧ r.turnId = some turnId ∧
        r.contentRevision = some req.contentRevision := by
  rintro o rfl
  unfold beginSource at h
  split at h
  · obtain ⟨_, -, heq⟩ := map_demand_eq_ok.mp h
    cases heq
  · obtain ⟨live, hlive, heq⟩ := map_eq_ok.mp h
    obtain rfl := Option.some.inj (Prod.mk.inj heq).1
    obtain ⟨hlive, -, hturn, hrevision⟩ := validateSourceRef_spec hlive
    obtain ⟨hd, -, ho, hr, -, hkey, -⟩ := validateLiveRef_spec hlive
    obtain ⟨hlt, hattempt⟩ := hs.attempts _ _ _ hd ho
    refine ⟨hlt, fun r hr' => ?_⟩
    obtain rfl := Option.some.inj (hr.symm.trans hr')
    obtain ⟨hhost, hname, -⟩ := hattempt _ hr
    exact ⟨hhost.symm.trans hkey.1, hname.symm.trans hkey.2, hturn, hrevision⟩

theorem writes_planBegin {req : PlanBegin} {now : Int} {receipt : PlanReceipt}
    (h : s.prepareConnectorPlanBegin req now = .ok (s', receipt)) : Writes s s' := by
  obtain ⟨hfinal, turnId, source, generation, -, hsource, ⟨-, h⟩ |
    ⟨planId, plan, hplan, -, rfl | ⟨i, rfl, -, hstate, rfl⟩⟩⟩ := prepareConnectorPlanBegin_cases h
  · refine writes_insertPlan (fun hs => ⟨?_, hfinal, beginSource_sourced hs hsource⟩) h
    exact {
      preparing := fun _ => rfl
      active := fun hs => by cases hs
      completed := fun hc => by cases hc }
  · exact .refl _
  · obtain ⟨hget, hcolumns⟩ := Relational.Table.first?_eq_some hplan
    simp only [Bool.and_eq_true, beq_iff_eq] at hcolumns
    obtain ⟨⟨⟨⟨⟨hhost, hname⟩, hturn⟩, hrevision⟩, -⟩, -⟩ := hcolumns
    refine .of (.plans _ fun hs j x hx => ?_)
    change (s.setPlan planId _).plans.get? j = some x at hx
    unfold setPlan at hx
    rw [plans_updatePlans] at hx
    obtain ⟨y, hy, rfl⟩ := Option.map_eq_some_iff.mp hx
    have hfits := hs.plans j y hy
    split
    · next hj =>
      obtain rfl : j = planId := by simpa using hj
      obtain rfl := Option.some.inj (hget.symm.trans hy)
      have hsound := hfits.sound
      refine ⟨⟨hsound.preparing, hsound.active, hsound.completed⟩, hfits.name, fun o ho => ?_⟩
      obtain ⟨hlt, hrow⟩ := beginSource_sourced hs hsource o ho
      refine ⟨hlt, fun r hr => ?_⟩
      obtain ⟨h₁, h₂, h₃, h₄⟩ := hrow r hr
      exact ⟨h₁.trans hhost.symm, h₂.trans hname.symm, hturn ▸ h₃, hrevision ▸ h₄⟩
    · exact hfits

theorem writes_planPart {hostId name : String} {token : PlanToken} {ordinal : Nat}
    {spans : List Span} {now : Int} {accepted : Nat}
    (h : s.prepareConnectorPlanPart hostId name token ordinal spans now = .ok (s', accepted)) :
    Writes s s' := by
  obtain ⟨_, _, -, rfl | ⟨-, -, h⟩⟩ := prepareConnectorPlanPart_cases h
  · exact .refl _
  · exact writes_insertJob h

/-! ### Leases -/

/-- The attempt of a leased row repeats the row's key. -/
lemma writes_leaseRow {req : PollRequest} {now : Int} {row : Nat × OutboxRow}
    (h : ∃ r, s.outbox.get? row.1 = some r ∧ r.hostId = req.hostId ∧ r.connector = req.name ∧
      r.deliveryKey = row.2.deliveryKey) : Writes s (s.leaseRow req now row) := by
  unfold leaseRow
  refine (Writes.of (.insertDelivery fun i hi => ?_)).andThen (.updateOutbox _ _)
  obtain rfl := Option.some.inj hi
  obtain ⟨r, hr, hhost, hname, hkey⟩ := h
  exact ⟨r, hr, hhost.symm, hname.symm, hkey.symm⟩

lemma writes_leaseRows {req : PollRequest} {now : Int} {rows : List (Nat × OutboxRow)}
    (h : ∀ row ∈ rows, ∃ r, s.outbox.get? row.1 = some r ∧ r.hostId = req.hostId ∧
      r.connector = req.name ∧ r.deliveryKey = row.2.deliveryKey) (items : List PollItem) :
    Writes s (leaseRows req now rows s items).1 := by
  induction rows generalizing s items with
  | nil => exact .refl s
  | cons row rows ih =>
    refine (writes_leaseRow (h row List.mem_cons_self)).trans (ih (fun row' hrow' => ?_) _)
    obtain ⟨r, hr, hkey⟩ := h row' (List.mem_cons_of_mem _ hrow')
    unfold leaseRow
    dsimp only
    rw [outbox_updateOutbox]
    change ∃ r', (s.outbox.get? row'.1).map _ = some r' ∧ _
    rw [hr]
    refine ⟨_, rfl, ?_⟩
    dsimp only
    split
    · exact hkey
    · exact hkey

lemma writes_beforePoll (req : PollRequest) (now : Int) : Writes s (s.beforePoll req now) := by
  unfold beforePoll
  dsimp only
  split
  · exact writes_reclaim _ _ _
  · exact ((writes_reclaim _ _ _).trans (writes_exhaust _ _ _ _)).trans (writes_markExhausted _ _)

theorem writes_poll (req : PollRequest) (now : Int) :
    Writes s (s.pollConnectorOutbox req now).1 := by
  refine (writes_beforePoll req now).trans (writes_leaseRows (fun row hrow => ?_) _)
  obtain ⟨hr, he⟩ := (eligibleRows_spec _ _ _ _).2 row hrow
  unfold eligible at he
  simp only [Bool.and_eq_true, beq_iff_eq] at he
  exact ⟨row.2, hr, he.1.1.1.1.1.1.1, he.1.1.1.1.1.1.2, rfl⟩

theorem writes_renew {hostId name : String} {ref : Nat} {leaseSeconds now : Int}
    {receipt : RenewReceipt}
    (h : s.renewConnectorDelivery hostId name ref leaseSeconds now = .ok (s', receipt)) :
    Writes s s' := by
  obtain ⟨s₁, live, renewed, hlive, rfl⟩ := renewConnectorDelivery_spec h
  obtain ⟨rfl, -⟩ := reclaimedLiveRef_spec hlive
  refine (writes_reclaim hostId (some name) now).trans ?_
  exact writes_pair fun _ => rfl

theorem writes_release {hostId name : String} {ref : Nat} {now : Int} {receipt : SettleReceipt}
    (h : s.releaseConnectorDelivery hostId name ref now = .ok (s', receipt)) : Writes s s' := by
  obtain ⟨s₁, live, status, response, next, hlive, -, rfl⟩ := releaseConnectorDelivery_spec h
  obtain ⟨rfl, -⟩ := reclaimedLiveRef_spec hlive
  refine (writes_reclaim hostId (some name) now).trans ?_
  refine Writes.trans ?_ (writes_afterOutbox _ _ _ _)
  exact writes_pair fun _ => rfl

lemma writes_settleMigrationGroup (i : Nat) (group : Option String) (now : Int) :
    Writes s (s.settleMigrationGroup i group now) := by
  unfold settleMigrationGroup
  split
  · exact .refl s
  · exact (Writes.of (.updateOutbox _ _)).andThen (.updateOutbox _ _)

theorem writes_ack {hostId name : String} {ref : Nat} {ttl now : Int} {receipt : SettleReceipt}
    (h : s.ackConnectorDelivery hostId name ref ttl now = .ok (s', receipt)) : Writes s s' := by
  obtain ⟨s₁, live, hlive, -, rfl⟩ := ackConnectorDelivery_spec h
  obtain ⟨rfl, -⟩ := reclaimedLiveRef_spec hlive
  refine (writes_reclaim hostId (some name) now).trans ?_
  refine (Writes.trans ?_ (writes_settleMigrationGroup _ _ _)).trans (writes_afterOutbox _ _ _ _)
  exact writes_pair fun _ => rfl

theorem writes_setback {setback : Setback} {hostId name : String} {ref : Nat}
    {availableAt delaySeconds : Option Int} {now : Int} {receipt : SettleReceipt}
    (h : s.setbackConnectorDelivery setback hostId name ref availableAt delaySeconds now =
      .ok (s', receipt)) : Writes s s' := by
  obtain ⟨s₁, live, result, next, priv, hlive, -, rfl⟩ := setbackConnectorDelivery_spec h
  obtain ⟨rfl, -⟩ := reclaimedLiveRef_spec hlive
  refine (writes_reclaim hostId (some name) now).trans ?_
  refine Writes.trans ?_ (writes_afterOutbox _ _ _ _)
  exact writes_pair fun _ => rfl

theorem writes_finalRetry {hostId : String} {identity : FinalIdentity} {now : Int}
    {receipt : FinalRetryReceipt}
    (h : s.retryFinalReadyDelivery hostId identity now = .ok (s', receipt)) : Writes s s' := by
  obtain ⟨i, root, -, -, ⟨-, rfl⟩ | ⟨_, _, h⟩ | ⟨payload, -, -, rfl⟩⟩ :=
    retryFinalReadyDelivery_cases h
  · exact writes_pair fun _ => rfl
  · exact writes_planRecover h
  · exact (Writes.of (.deleteDeliveries _)).andThen (.updateOutbox _ _)

theorem respects_writes : Respects Writes where
  refl := .refl
  trans := .trans
  write _ _ _ := .of (.turns _ _)
  ensure := writes_ensure
  enqueue := writes_insertOutboxOrIgnore
  poll _ := writes_poll
  renew := writes_renew
  release := writes_release
  ack := writes_ack
  setback := writes_setback
  reclaim _ := writes_reclaim
  exhaust _ := writes_exhaust
  planBegin := writes_planBegin
  planPart := writes_planPart
  planCommit := writes_planCommit
  planRecover := writes_planRecover
  finalRetry := writes_finalRetry

end Store

end Tendwire.Connector

import Tendwire.Connector.Reclaim

/-!
# When a reclaim is due

The read-only test that decides whether maintenance takes the write lock, against the two sweeps
it stands for. Each step of a sweep ends the row it is for, brings no row back to a state the
sweeps look for, and leaves what the test reads of every other root.
-/

namespace Tendwire.Connector

open Relational Transition

def PlanState.recoverable (state : PlanState) : Bool := state.live || state == .failed

namespace Store

/-- Nobody holds a lease on a job of the root's plan, or the plan cannot be resumed. -/
def ackOverdue (s : Store) (row : Nat × OutboxRow) (now : Int) : Bool :=
  connectorDeadlineDue [row.2.priv.ackDeadlineAt, row.2.nextAttemptAt,
      (s.awaitingDelivery? row.1).bind (·.2.ackDeadlineAt)] now &&
    !(s.newestPlanOf? row.1).any fun plan =>
      plan.2.state.recoverable && s.planHasLiveJobLease plan.1 now

/-- `connector_reclaim_due` on a store that exists. -/
def connectorReclaimDue (s : Store) (hostId : String) (name : Option String) (now : Int) : Bool :=
  (s.deliveries.any fun _ d => d.status == .leased && d.hostId == hostId &&
      name.all (d.connector == ·) &&
        connectorDeadlineDue [d.lease.map (·.leaseExpiresAt)] now) ||
    (s.awaitingAckRows hostId name).any (s.ackOverdue · now)

/-- A row of a table the sweeps write is not what it was. -/
def ChangesRow (s s' : Store) : Prop :=
  (∃ i, s'.outbox.get? i ≠ s.outbox.get? i) ∨ (∃ k, s'.deliveries.get? k ≠ s.deliveries.get? k) ∨
    ∃ i, s'.plans.get? i ≠ s.plans.get? i

variable {s s' s'' : Store} {now : Int}

lemma reclaimLease_eq_none_iff {row : LeasedRow} :
    reclaimLease now s row = none ↔
      connectorDeadlineDue [row.delivery.lease.map (·.leaseExpiresAt)] now = false := by
  unfold reclaimLease
  cases connectorDeadlineDue [row.delivery.lease.map (·.leaseExpiresAt)] now with
  | false => simp
  | true =>
    simp only [Bool.not_true, Bool.false_eq_true, if_false]
    split
    · split <;> simp
    · simp

lemma reclaimAwaitingAck_eq_none_iff {row : Nat × OutboxRow} :
    reclaimAwaitingAck now s row = none ↔ s.ackOverdue row now = false := by
  unfold reclaimAwaitingAck ackOverdue
  cases hdue : connectorDeadlineDue [row.2.priv.ackDeadlineAt, row.2.nextAttemptAt,
      (s.awaitingDelivery? row.1).bind (·.2.ackDeadlineAt)] now with
  | false => simp [hdue]
  | true =>
    cases hplan : s.newestPlanOf? row.1 with
    | none => simp [hdue, hplan]
    | some plan =>
      obtain ⟨planId, plan⟩ := plan
      cases hlive : s.planHasLiveJobLease planId now <;> cases hstate : plan.state <;>
        simp [hdue, hplan, hlive, hstate, PlanState.recoverable, PlanState.live]

/-! ### Nothing comes back -/

/-- Leased rows, leased deliveries and roots awaiting their acknowledgement end or stay. -/
structure Winds (s s' : Store) : Prop where
  owner : ∀ k d', s'.deliveries.get? k = some d' →
    ∃ d, s.deliveries.get? k = some d ∧ d.outboxId = d'.outboxId
  leased : ∀ k d', s'.deliveries.get? k = some d' → d'.status = .leased →
    s.deliveries.get? k = some d'
  awaiting : ∀ i r', s'.outbox.get? i = some r' → r'.status = .awaitingAck →
    s.outbox.get? i = some r'

lemma Winds.refl (s : Store) : Winds s s where
  owner _ d h := ⟨d, h, rfl⟩
  leased _ _ h _ := h
  awaiting _ _ h _ := h

lemma Winds.trans (h : Winds s s') (h' : Winds s' s'') : Winds s s'' where
  owner := by
    intro k d'' hd''
    obtain ⟨d', hd', howner'⟩ := h'.owner k d'' hd''
    obtain ⟨d, hd, howner⟩ := h.owner k d' hd'
    exact ⟨d, hd, howner.trans howner'⟩
  leased k d hd hleased := h.leased k d (h'.leased k d hd hleased) hleased
  awaiting i r hr hawaiting := h.awaiting i r (h'.awaiting i r hr hawaiting) hawaiting

lemma winds_updateDeliveries {p : Nat → Delivery → Bool} {f : DeliveryState → DeliveryState}
    (howner : ∀ d, (f d).outboxId = d.outboxId) (hstatus : ∀ d, (f d).status ≠ .leased) :
    Winds s (s.updateDeliveries p f) where
  owner := by
    intro k d' hd'
    rw [deliveries_updateDeliveries, Option.map_eq_some_iff] at hd'
    obtain ⟨d, hd, rfl⟩ := hd'
    refine ⟨d, hd, ?_⟩
    split
    · exact (howner _).symm
    · rfl
  leased := by
    intro k d' hd' hleased
    rw [deliveries_updateDeliveries, Option.map_eq_some_iff] at hd'
    obtain ⟨d, hd, rfl⟩ := hd'
    split at hleased
    · exact absurd hleased (hstatus _)
    · next hp => rwa [if_neg hp]
  awaiting _ _ h _ := h

lemma winds_updateOutbox {p : Nat → OutboxRow → Bool} {f : OutboxState → OutboxState}
    (hstatus : ∀ r, (f r).status ≠ .awaitingAck) : Winds s (s.updateOutbox p f) where
  owner _ d h := ⟨d, h, rfl⟩
  leased _ _ h _ := h
  awaiting := by
    intro i r' hr' hawaiting
    rw [outbox_updateOutbox, Option.map_eq_some_iff] at hr'
    obtain ⟨r, hr, rfl⟩ := hr'
    split at hawaiting
    · exact absurd hawaiting (hstatus _)
    · next hp => rwa [if_neg hp]

lemma winds_updatePlans (p : Nat → Plan → Bool) (f : PlanProgress → PlanProgress) :
    Winds s (s.updatePlans p f) where
  owner _ d h := ⟨d, h, rfl⟩
  leased _ _ h _ := h
  awaiting _ _ h _ := h

lemma winds_activate (hostId name : String) :
    Winds s (s.activateWaitingPresentationPlans hostId name now) := winds_updatePlans _ _

lemma winds_deadLetterJobRow (row : Nat × OutboxRow) : Winds s (deadLetterJobRow now s row) := by
  unfold deadLetterJobRow setOutbox
  have hclose : Winds s (s.updateDeliveries
      (fun _ d => d.outboxId == some row.1 && d.status == .leased)
      fun d => { d with
        status := .failed
        response := .ackDeadlineExpired
        deliveredAt := some now }) := winds_updateDeliveries (fun _ => rfl) (by simp)
  exact hclose.trans (winds_updateOutbox (by simp))

lemma winds_endAwaitingAck {i : Nat} {status : OutboxStatus} {next : Option Int}
    {priv : OutboxPrivate} (h : status ≠ .awaitingAck) :
    Winds s (s.endAwaitingAck i status next priv now) := winds_updateOutbox fun _ => h

lemma winds_closeAwaitingDelivery (k : Option Nat) (response : DeliveryResponse) :
    Winds s (s.closeAwaitingDelivery k response now) := winds_updateDeliveries (fun _ => rfl) (by simp)

lemma winds_settleCompletedRoot (i : Nat) (root : OutboxRow) (k : Option Nat) :
    Winds s (s.settleCompletedRoot i root k now) := by
  unfold settleCompletedRoot
  have hclose : Winds s (s.updateDeliveries (fun k' d => k == some k' && d.status == .awaitingAck)
      fun d => { d with status := .delivered, deliveredAt := some (d.deliveredAt.getD now) }) :=
    winds_updateDeliveries (fun _ => rfl) (by simp)
  exact hclose.trans (winds_endAwaitingAck (by simp))

lemma winds_failJobs (planId : Nat) (l : List (Nat × OutboxRow)) :
    Winds s (l.foldl (deadLetterJobRow now) (s.failPlan planId)) :=
  (winds_updatePlans _ _).trans
    (foldl_rel Winds.refl (fun _ _ _ => Winds.trans) (fun _ => winds_deadLetterJobRow) l _)

lemma winds_retryOverdueRoot (i : Nat) (root : OutboxRow) (k : Option Nat) (planId : Nat)
    (plan : Plan) : Winds s (s.retryOverdueRoot i root k planId plan now) := by
  unfold retryOverdueRoot
  exact (winds_failJobs planId _).trans
    ((winds_closeAwaitingDelivery k _).trans (winds_endAwaitingAck (by simp)))

lemma winds_deadLetterOverdueRoot (i : Nat) (root : OutboxRow) (k : Option Nat) :
    Winds s (s.deadLetterOverdueRoot i root k now) := by
  unfold deadLetterOverdueRoot
  exact (winds_closeAwaitingDelivery k _).trans (winds_endAwaitingAck (by simp))

/-- What a step for an overdue root is: its end, maybe followed by plans that start. -/
lemma reclaimAwaitingAck_cases {row : Nat × OutboxRow} (h : reclaimAwaitingAck now s row = some s') :
    let k := (s.awaitingDelivery? row.1).map Prod.fst
    s' = s.settleCompletedRoot row.1 row.2 k now ∨
      s' = (s.deadLetterOverdueRoot row.1 row.2 k now).activateWaitingPresentationPlans
        row.2.hostId row.2.connector now ∨
      ∃ planId plan, s.newestPlanOf? row.1 = some (planId, plan) ∧
        s.planHasLiveJobLease planId now = false ∧
        s' = (s.retryOverdueRoot row.1 row.2 k planId plan
          now).activateWaitingPresentationPlans row.2.hostId row.2.connector now := by
  intro k
  unfold reclaimAwaitingAck at h
  simp only at h
  split at h
  · cases h
  · split at h
    · exact .inr (.inl (Option.some.inj h).symm)
    · next planId plan hplan =>
      split at h
      · exact .inl (Option.some.inj h).symm
      · split at h
        · split at h
          · cases h
          · next hlive =>
            exact .inr (.inr ⟨planId, plan, hplan, by simpa using hlive, (Option.some.inj h).symm⟩)
        · exact .inr (.inl (Option.some.inj h).symm)

lemma winds_reclaimAwaitingAck {row : Nat × OutboxRow}
    (h : reclaimAwaitingAck now s row = some s') : Winds s s' := by
  obtain rfl | rfl | ⟨planId, plan, -, -, rfl⟩ := reclaimAwaitingAck_cases h
  · exact winds_settleCompletedRoot _ _ _
  · exact (winds_deadLetterOverdueRoot _ _ _).trans (winds_activate _ _)
  · exact (winds_retryOverdueRoot _ _ _ _ _).trans (winds_activate _ _)

/-! ### Each step ends its row -/

lemma ended_endAwaitingAck {i : Nat} {status : OutboxStatus} {next : Option Int}
    {priv : OutboxPrivate} (h : status ≠ .awaitingAck) {r : OutboxRow}
    (hr : (s.endAwaitingAck i status next priv now).outbox.get? i = some r) :
    r.status ≠ .awaitingAck := by
  unfold endAwaitingAck at hr
  rw [outbox_updateOutbox, Option.map_eq_some_iff] at hr
  obtain ⟨r₀, -, rfl⟩ := hr
  split
  · exact h
  · next hp => simpa using hp

lemma ended_reclaimAwaitingAck {row : Nat × OutboxRow}
    (h : reclaimAwaitingAck now s row = some s') {r : OutboxRow}
    (hr : s'.outbox.get? row.1 = some r) : r.status ≠ .awaitingAck := by
  obtain rfl | rfl | ⟨planId, plan, -, -, rfl⟩ := reclaimAwaitingAck_cases h
  · exact ended_endAwaitingAck (by simp) hr
  · exact ended_endAwaitingAck (by simp) hr
  · exact ended_endAwaitingAck (by simp) hr

/-- A plan moves on with its job's row only when that row is delivered or dead. -/
lemma advancePlan_requeued (planId : Nat) (plan : Plan) (r : OutboxRow) :
    s.advancePlan planId plan r.requeueStatus now none = s := by
  unfold advancePlan OutboxRow.requeueStatus
  split <;> simp

lemma winds_updatePresentationPlan (s : Store) (i : Nat) (r : OutboxRow) (now : Int) :
    Winds s (s.updatePresentationPlanAfterOutbox i r.requeueStatus now none) ∧
      (s.updatePresentationPlanAfterOutbox i r.requeueStatus now none).deliveries =
        s.deliveries := by
  unfold updatePresentationPlanAfterOutbox
  split
  · exact ⟨Winds.refl s, rfl⟩
  · rw [advancePlan_requeued]
    exact ⟨winds_activate _ _, rfl⟩

lemma winds_closeDelivery (k : Nat) (response : DeliveryResponse) :
    Winds s (s.closeDelivery k .expired response now) :=
  winds_updateDeliveries (fun _ => rfl) (by simp)

lemma winds_endLease (i : Nat) (r : OutboxRow) (next : Option Int) (priv : OutboxPrivate) :
    Winds s (s.endLease i r.requeueStatus next priv now) := by
  apply winds_updateOutbox
  intro r'
  simp only [OutboxRow.requeueStatus]
  split <;> simp

/-- A step for an expired lease writes no delivery but the one it closes. -/
lemma winds_reclaimLease {row : LeasedRow} (h : reclaimLease now s row = some s') :
    Winds s s' ∧ s'.deliveries = (s.closeDelivery row.deliveryId .expired .expired now).deliveries := by
  have hclose : Winds s (s.closeDelivery row.deliveryId .expired .expired now) :=
    winds_closeDelivery _ _
  unfold reclaimLease at h
  split at h
  · cases h
  · simp only at h
    split at h
    · next i r _ _ =>
      split at h
      · rw [← Option.some.inj h]
        obtain ⟨hplan, hdeliveries⟩ := winds_updatePresentationPlan
          ((s.closeDelivery row.deliveryId .expired .expired now).endLease i r.requeueStatus none
            r.priv.clearCurrent now) i r now
        exact ⟨(hclose.trans (winds_endLease i r _ _)).trans hplan, hdeliveries⟩
      · rw [← Option.some.inj h]
        exact ⟨hclose, rfl⟩
    · rw [← Option.some.inj h]
      exact ⟨hclose, rfl⟩

lemma ended_reclaimLease {row : LeasedRow} (h : reclaimLease now s row = some s') {d : Delivery}
    (hd : s'.deliveries.get? row.deliveryId = some d) : d.status ≠ .leased := by
  rw [(winds_reclaimLease h).2, closeDelivery, deliveries_updateDeliveries,
    Option.map_eq_some_iff] at hd
  obtain ⟨d₀, -, rfl⟩ := hd
  split
  · simp [Delivery.mapState]
  · next hp => simpa using hp

/-! ### What a step leaves of the other roots -/

/-- Some delivery of the row holds a lease that has not run out. -/
def LiveLease (s : Store) (now : Int) (i : Nat) : Prop :=
  (∃ r, s.outbox.get? i = some r ∧ r.status = .leased) ∧
    ∃ k d, s.deliveries.get? k = some d ∧ d.outboxId = some i ∧ d.status = .leased ∧
      connectorDeadlineDue [d.lease.map (·.leaseExpiresAt)] now = false

lemma planHasLiveJobLease_iff {planId : Nat} : s.planHasLiveJobLease planId now = true ↔
    ∃ k j i, s.jobs.table.get? k = some j ∧ j.planId = planId ∧ j.outboxId = some i ∧
      s.LiveLease now i := by
  unfold planHasLiveJobLease LiveLease
  rw [Table.any_iff]
  constructor
  · rintro ⟨k, j, hj, hlive⟩
    obtain ⟨hplan, hlive⟩ := Bool.and_eq_true_iff.mp hlive
    cases hi : j.outboxId with
    | none => simp [hi] at hlive
    | some i =>
      simp only [hi, Bool.and_eq_true, Option.any_eq_true, Table.any_iff] at hlive
      obtain ⟨⟨r, hr, hleased⟩, l, d, hd, hlease⟩ := hlive
      simp only [beq_iff_eq, Bool.not_eq_true', and_assoc] at hplan hleased hlease
      exact ⟨k, j, i, hj, hplan, hi, ⟨r, hr, hleased⟩, l, d, hd, hlease⟩
  · rintro ⟨k, j, i, hj, hplan, hi, ⟨r, hr, hleased⟩, l, d, hd, howner, hstatus, hdue⟩
    refine ⟨k, j, hj, ?_⟩
    simp only [hi, Bool.and_eq_true, Option.any_eq_true, Table.any_iff, beq_iff_eq]
    exact ⟨hplan, ⟨r, hr, hleased⟩, l, d, hd, by simp [howner, hstatus, hdue]⟩

/-- What the test reads of the root `i`, and every lease still running. -/
structure LeavesRoot (now : Int) (i : Nat) (s s' : Store) : Prop where
  jobs : s'.jobs = s.jobs
  delivery : s'.awaitingDelivery? i = s.awaitingDelivery? i
  plan : (s'.newestPlanOf? i).map (fun e => (e.1, e.2.state.recoverable)) =
    (s.newestPlanOf? i).map fun e => (e.1, e.2.state.recoverable)
  live : ∀ j, s.LiveLease now j → s'.LiveLease now j

lemma LeavesRoot.trans {i : Nat} (h : LeavesRoot now i s s') (h' : LeavesRoot now i s' s'') :
    LeavesRoot now i s s'' where
  jobs := h'.jobs.trans h.jobs
  delivery := h'.delivery.trans h.delivery
  plan := h'.plan.trans h.plan
  live j hj := h'.live j (h.live j hj)

lemma LeavesRoot.planHasLiveJobLease {i planId : Nat} (h : LeavesRoot now i s s')
    (hlive : s.planHasLiveJobLease planId now = true) : s'.planHasLiveJobLease planId now = true := by
  obtain ⟨k, j, l, hj, hplan, hl, hlease⟩ := planHasLiveJobLease_iff.mp hlive
  exact planHasLiveJobLease_iff.mpr ⟨k, j, l, by rw [h.jobs]; exact hj, hplan, hl, h.live l hlease⟩

/-- A root that was passed over is passed over again. -/
theorem LeavesRoot.not_overdue {row : Nat × OutboxRow} (h : LeavesRoot now row.1 s s')
    (hnot : s.ackOverdue row now = false) : s'.ackOverdue row now = false := by
  have hplans := h.plan
  unfold ackOverdue at hnot ⊢
  rw [h.delivery]
  rw [Bool.and_eq_false_iff, Bool.not_eq_false', Option.any_eq_true] at hnot ⊢
  refine hnot.imp_right ?_
  rintro ⟨plan, hplan, hheld⟩
  obtain ⟨hrecoverable, hlive⟩ := Bool.and_eq_true_iff.mp hheld
  rw [hplan, Option.map_some, Option.map_eq_some_iff] at hplans
  obtain ⟨plan', hplan', heq⟩ := hplans
  obtain ⟨hid, hstate⟩ := Prod.mk.inj heq
  refine ⟨plan', hplan', Bool.and_eq_true_iff.mpr ⟨hstate.trans hrecoverable, ?_⟩⟩
  rw [hid]
  exact h.planHasLiveJobLease hlive

lemma leavesRoot_updateOutbox {i : Nat} {p : Nat → OutboxRow → Bool} {f : OutboxState → OutboxState}
    (h : ∀ j r, s.outbox.get? j = some r → r.status = .leased → s.LiveLease now j →
      p j r = false) : LeavesRoot now i s (s.updateOutbox p f) where
  jobs := rfl
  delivery := rfl
  plan := rfl
  live := by
    intro j hlive
    obtain ⟨⟨r, hr, hleased⟩, hlease⟩ := hlive
    refine ⟨⟨r, ?_, hleased⟩, hlease⟩
    rw [outbox_updateOutbox, hr, Option.map_some, h j r hr hleased ⟨⟨r, hr, hleased⟩, hlease⟩]
    rfl

lemma leavesRoot_updateDeliveries {i : Nat} {p : Nat → Delivery → Bool}
    {f : DeliveryState → DeliveryState}
    (hroot : ∀ k d, s.deliveries.get? k = some d → p k d = true →
      (d.outboxId = some i → d.status ≠ .awaitingAck ∧ (f d.toDeliveryState).status ≠ .awaitingAck) ∧
        (f d.toDeliveryState).outboxId = d.outboxId)
    (hlive : ∀ k d j, s.deliveries.get? k = some d → d.status = .leased → d.outboxId = some j →
      s.LiveLease now j → p k d = false) : LeavesRoot now i s (s.updateDeliveries p f) where
  jobs := rfl
  delivery := by
    unfold awaitingDelivery? Table.newest?
    congr 1
    apply Table.select_updateWhere
    intro k d hd hp
    obtain ⟨hstatus, howner⟩ := hroot k d hd hp
    constructor
    · rw [Bool.eq_false_iff]
      intro hsel
      obtain ⟨hown, hawaiting⟩ := Bool.and_eq_true_iff.mp hsel
      exact (hstatus (beq_iff_eq.mp hown)).1 (beq_iff_eq.mp hawaiting)
    · rw [Bool.eq_false_iff]
      intro hsel
      obtain ⟨hown, hawaiting⟩ := Bool.and_eq_true_iff.mp hsel
      have hown' : d.outboxId = some i := howner.symm.trans (beq_iff_eq.mp hown)
      exact (hstatus hown').2 (beq_iff_eq.mp hawaiting)
  plan := rfl
  live := by
    intro j hlease
    obtain ⟨hrow, k, d, hd, howner, hleased, hdue⟩ := hlease
    refine ⟨hrow, k, d, ?_, howner, hleased, hdue⟩
    rw [deliveries_updateDeliveries, hd, Option.map_some,
      hlive k d j hd hleased howner ⟨hrow, k, d, hd, howner, hleased, hdue⟩]
    rfl

lemma leavesRoot_updatePlans {i : Nat} {p : Nat → Plan → Bool} {f : PlanProgress → PlanProgress}
    (hsource : ∀ x, (f x).sourceOutboxId = x.sourceOutboxId)
    (hstate : ∀ planId plan, s.newestPlanOf? i = some (planId, plan) → p planId plan = true →
      (f plan.toPlanProgress).state.recoverable = plan.state.recoverable) :
    LeavesRoot now i s (s.updatePlans p f) where
  jobs := rfl
  delivery := rfl
  plan := by
    have hnewest : (s.updatePlans p f).newestPlanOf? i =
        (s.newestPlanOf? i).map fun e => if p e.1 e.2 then (e.1, e.2.mapState f) else e := by
      apply Table.newest?_updateWhere
      intro _ plan
      exact congrArg (· == some i) (hsource plan.toPlanProgress)
    rw [hnewest]
    cases hplan : s.newestPlanOf? i with
    | none => rfl
    | some e =>
      simp only [Option.map_some]
      split
      · next hp => exact congrArg (fun b => some (e.1, b)) (hstate e.1 e.2 hplan hp)
      · rfl
  live _ h := h

lemma leavesRoot_activate {i : Nat} (hostId name : String) :
    LeavesRoot now i s (s.activateWaitingPresentationPlans hostId name now) := by
  apply leavesRoot_updatePlans
  · exact fun _ => rfl
  · intro planId plan _ hp
    simp only [Bool.and_eq_true, beq_iff_eq] at hp
    simp [hp.1.2, PlanState.recoverable, PlanState.live]

lemma leavesRoot_endAwaitingAck {i j : Nat} {status : OutboxStatus} {next : Option Int}
    {priv : OutboxPrivate} : LeavesRoot now i s (s.endAwaitingAck j status next priv now) := by
  apply leavesRoot_updateOutbox
  intro l r _ hleased _
  simp [hleased]

/-- The delivery a step closes for the root `j`. -/
lemma leavesRoot_updateAwaiting {i : Nat} {k : Option Nat} {f : DeliveryState → DeliveryState}
    (howner : ∀ d, (f d).outboxId = d.outboxId)
    (hother : ∀ k' d, k = some k' → s.deliveries.get? k' = some d → d.outboxId ≠ some i) :
    LeavesRoot now i s (s.updateDeliveries (fun k' d => k == some k' && d.status == .awaitingAck) f) := by
  apply leavesRoot_updateDeliveries
  · intro k' d hd hp
    obtain ⟨hk, -⟩ := Bool.and_eq_true_iff.mp hp
    exact ⟨fun hown => absurd hown (hother k' d (beq_iff_eq.mp hk) hd), howner _⟩
  · intro k' d _ _ hleased _ _
    simp [hleased]

/-! ### The jobs of a failed plan -/

lemma LiveLease.of_updateDeliveries {p : Nat → Delivery → Bool} {f : DeliveryState → DeliveryState}
    {j : Nat} (howner : ∀ d, (f d).outboxId = d.outboxId) (hstatus : ∀ d, (f d).status ≠ .leased)
    (h : (s.updateDeliveries p f).LiveLease now j) : s.LiveLease now j := by
  obtain ⟨hrow, k, d, hd, hlease⟩ := h
  exact ⟨hrow, k, d, (winds_updateDeliveries howner hstatus).leased k d hd hlease.2.1, hlease⟩

lemma LiveLease.of_setOutbox {f : OutboxState → OutboxState} {i j : Nat}
    (hstatus : ∀ r, (f r).status ≠ .leased) (h : (s.setOutbox i f).LiveLease now j) :
    s.LiveLease now j := by
  obtain ⟨⟨r', hr', hleased⟩, hlease⟩ := h
  rw [outbox_setOutbox, Option.map_eq_some_iff] at hr'
  obtain ⟨r, hr, rfl⟩ := hr'
  split at hleased
  · exact absurd hleased (hstatus _)
  · exact ⟨⟨r, hr, hleased⟩, hlease⟩

lemma LiveLease.of_deadLetterJobRow {row : Nat × OutboxRow} {j : Nat}
    (h : (deadLetterJobRow now s row).LiveLease now j) : s.LiveLease now j := by
  unfold deadLetterJobRow at h
  refine LiveLease.of_updateDeliveries ?_ ?_ (h.of_setOutbox (by simp))
  · exact fun _ => rfl
  · simp

lemma leavesRoot_deadLetterJobRow {i : Nat} {row : Nat × OutboxRow} (h : ¬s.LiveLease now row.1) :
    LeavesRoot now i s (deadLetterJobRow now s row) := by
  unfold deadLetterJobRow
  refine LeavesRoot.trans (leavesRoot_updateDeliveries ?_ ?_) (leavesRoot_updateOutbox ?_)
  · intro k d _ hp
    have hleased : d.status = .leased := beq_iff_eq.mp (Bool.and_eq_true_iff.mp hp).2
    simp [hleased]
  · intro k d j _ _ howner hlive
    have hne : j ≠ row.1 := by
      rintro rfl
      exact h hlive
    simp [howner, hne]
  · intro j r _ _ hlive
    have hlive' : s.LiveLease now j := by
      refine LiveLease.of_updateDeliveries ?_ ?_ hlive
      · exact fun _ => rfl
      · simp
    have hne : j ≠ row.1 := by
      rintro rfl
      exact h hlive'
    simp [hne]

lemma leavesRoot_deadLetterJobRows {i : Nat} {l : List (Nat × OutboxRow)}
    (h : ∀ row ∈ l, ¬s.LiveLease now row.1) : LeavesRoot now i s (l.foldl (deadLetterJobRow now) s) := by
  induction l generalizing s with
  | nil => exact ⟨rfl, rfl, rfl, fun _ hj => hj⟩
  | cons row l ih =>
    have hrow := h row (by simp)
    have hrest : ∀ row' ∈ l, ¬(deadLetterJobRow now s row).LiveLease now row'.1 := by
      intro row' hmem hlive
      exact h row' (List.mem_cons_of_mem row hmem) hlive.of_deadLetterJobRow
    exact (leavesRoot_deadLetterJobRow hrow).trans (ih hrest)

/-- Without a live lease on the plan no row of its jobs has one. -/
lemma not_liveLease_of_unfinished {planId : Nat} (h : s.planHasLiveJobLease planId now = false) :
    ∀ row ∈ (s.failPlan planId).unfinishedJobRows planId, ¬(s.failPlan planId).LiveLease now row.1 := by
  intro row hrow hlive
  obtain ⟨-, hsel⟩ := Table.mem_select.mp hrow
  obtain ⟨k, j, hj, hjob⟩ := Table.any_iff.mp (Bool.and_eq_true_iff.mp hsel).1
  obtain ⟨hplan, howner⟩ := Bool.and_eq_true_iff.mp hjob
  have hheld : s.planHasLiveJobLease planId now = true :=
    planHasLiveJobLease_iff.mpr ⟨k, j, row.1, hj, beq_iff_eq.mp hplan, beq_iff_eq.mp howner, hlive⟩
  rw [h] at hheld
  cases hheld

/-! ### A step leaves the other roots alone -/

lemma awaitingDelivery_owner {i k : Nat} (h : (s.awaitingDelivery? i).map Prod.fst = some k)
    {d : Delivery} (hd : s.deliveries.get? k = some d) : d.outboxId = some i := by
  obtain ⟨⟨k', d'⟩, hnewest, rfl⟩ := Option.map_eq_some_iff.mp h
  obtain ⟨hd', hsel, -⟩ := Table.newest?_eq_some hnewest
  obtain rfl : d' = d := Option.some.inj (hd'.symm.trans hd)
  exact beq_iff_eq.mp (Bool.and_eq_true_iff.mp hsel).1

/-- Closing the delivery of the root `j`, also after other deliveries were closed. -/
lemma leavesRoot_close {i j : Nat} (hne : i ≠ j) {f : DeliveryState → DeliveryState}
    (hwinds : Winds s s') (howner : ∀ d, (f d).outboxId = d.outboxId) :
    LeavesRoot now i s' (s'.updateDeliveries (fun k d =>
      (s.awaitingDelivery? j).map Prod.fst == some k && d.status == .awaitingAck) f) := by
  apply leavesRoot_updateAwaiting howner
  intro k d' hk hd' hown
  obtain ⟨d, hd, hkeep⟩ := hwinds.owner k d' hd'
  have hj := awaitingDelivery_owner hk hd
  rw [hkeep, hown] at hj
  exact hne (Option.some.inj hj)

lemma leavesRoot_settleCompletedRoot {i j : Nat} (hne : i ≠ j) (root : OutboxRow) :
    LeavesRoot now i s
      (s.settleCompletedRoot j root ((s.awaitingDelivery? j).map Prod.fst) now) := by
  unfold settleCompletedRoot
  apply LeavesRoot.trans _ leavesRoot_endAwaitingAck
  exact leavesRoot_close hne (Winds.refl s) fun _ => rfl

lemma leavesRoot_deadLetterOverdueRoot {i j : Nat} (hne : i ≠ j) (root : OutboxRow) :
    LeavesRoot now i s
      (s.deadLetterOverdueRoot j root ((s.awaitingDelivery? j).map Prod.fst) now) := by
  unfold deadLetterOverdueRoot
  apply LeavesRoot.trans _ leavesRoot_endAwaitingAck
  exact leavesRoot_close hne (Winds.refl s) fun _ => rfl

lemma leavesRoot_failPlan {i j planId : Nat} {plan : Plan} (hne : i ≠ j)
    (hplan : s.newestPlanOf? j = some (planId, plan)) : LeavesRoot now i s (s.failPlan planId) := by
  apply leavesRoot_updatePlans
  · exact fun _ => rfl
  · intro planId' plan' hplan' hp
    obtain ⟨hget, hsource, -⟩ := Table.newest?_eq_some hplan
    obtain ⟨hget', hsource', -⟩ := Table.newest?_eq_some hplan'
    rw [beq_iff_eq.mp hp] at hget'
    obtain rfl : plan' = plan := Option.some.inj (hget'.symm.trans hget)
    have hsame := (beq_iff_eq.mp hsource').symm.trans (beq_iff_eq.mp hsource)
    exact absurd (Option.some.inj hsame) hne

lemma leavesRoot_retryOverdueRoot {i j planId : Nat} {plan : Plan} (hne : i ≠ j) (root : OutboxRow)
    (hplan : s.newestPlanOf? j = some (planId, plan))
    (hlive : s.planHasLiveJobLease planId now = false) :
    LeavesRoot now i s
      (s.retryOverdueRoot j root ((s.awaitingDelivery? j).map Prod.fst) planId plan now) := by
  unfold retryOverdueRoot
  have hjobs : LeavesRoot now i (s.failPlan planId) (((s.failPlan planId).unfinishedJobRows
      planId).foldl (deadLetterJobRow now) (s.failPlan planId)) :=
    leavesRoot_deadLetterJobRows (not_liveLease_of_unfinished hlive)
  have hwinds : Winds s (((s.failPlan planId).unfinishedJobRows planId).foldl
      (deadLetterJobRow now) (s.failPlan planId)) := winds_failJobs planId _
  apply ((leavesRoot_failPlan hne hplan).trans hjobs).trans
  apply LeavesRoot.trans _ leavesRoot_endAwaitingAck
  exact leavesRoot_close hne hwinds fun _ => rfl

theorem leavesRoot_reclaimAwaitingAck {row : Nat × OutboxRow} {i : Nat} (hne : i ≠ row.1)
    (h : reclaimAwaitingAck now s row = some s') : LeavesRoot now i s s' := by
  obtain rfl | rfl | ⟨planId, plan, hplan, hlive, rfl⟩ := reclaimAwaitingAck_cases h
  · exact leavesRoot_settleCompletedRoot hne _
  · exact (leavesRoot_deadLetterOverdueRoot hne _).trans (leavesRoot_activate _ _)
  · exact (leavesRoot_retryOverdueRoot hne _ hplan hlive).trans (leavesRoot_activate _ _)

/-! ### The two sweeps -/

/-- The lease of the row has ended or still runs. -/
def LeaseSettled (now : Int) (s : Store) (row : LeasedRow) : Prop :=
  connectorDeadlineDue [row.delivery.lease.map (·.leaseExpiresAt)] now = true →
    ∀ d, s.deliveries.get? row.deliveryId = some d → d.status ≠ .leased

/-- The root no longer awaits its acknowledgement, or it is not overdue. -/
def RootSettled (now : Int) (s : Store) (row : Nat × OutboxRow) : Prop :=
  (∀ r, s.outbox.get? row.1 = some r → r.status ≠ .awaitingAck) ∨ s.ackOverdue row now = false

lemma leaseSettled_sweep (now : Int) (l : List LeasedRow) (s : Store) :
    ∀ row ∈ l, LeaseSettled now (sweep (reclaimLease now) l s).1 row := by
  apply sweep_settles
  · intro s row hpass hdue
    rw [reclaimLease_eq_none_iff.mp hpass] at hdue
    cases hdue
  · intro s row s' hstep _ d hd
    exact ended_reclaimLease hstep hd
  · intro s row other s' hsettled hstep hdue d hd hleased
    exact hsettled hdue d ((winds_reclaimLease hstep).1.leased _ d hd hleased) hleased

lemma rootSettled_sweep (now : Int) (l : List (Nat × OutboxRow)) (s : Store) :
    ∀ row ∈ l, RootSettled now (sweep (reclaimAwaitingAck now) l s).1 row := by
  apply sweep_settles
  · intro s row hpass
    exact .inr (reclaimAwaitingAck_eq_none_iff.mp hpass)
  · intro s row s' hstep
    exact .inl fun _ hr => ended_reclaimAwaitingAck hstep hr
  · intro s row other s' hsettled hstep
    rcases hsettled with hended | hnot
    · left
      intro r hr hawaiting
      exact hended r ((winds_reclaimAwaitingAck hstep).awaiting _ r hr hawaiting) hawaiting
    · by_cases hne : row.1 = other.1
      · left
        intro r hr
        rw [hne] at hr
        exact ended_reclaimAwaitingAck hstep hr
      · exact .inr ((leavesRoot_reclaimAwaitingAck hne hstep).not_overdue hnot)

lemma winds_sweepLeases (now : Int) (l : List LeasedRow) (s : Store) :
    Winds s (sweep (reclaimLease now) l s).1 :=
  sweep_invariant (P := fun t => Winds s t)
    (fun _ _ _ _ ht hstep => ht.trans (winds_reclaimLease hstep).1) (Winds.refl s)

lemma winds_sweepRoots (now : Int) (l : List (Nat × OutboxRow)) (s : Store) :
    Winds s (sweep (reclaimAwaitingAck now) l s).1 :=
  sweep_invariant (P := fun t => Winds s t)
    (fun _ _ _ _ ht hstep => ht.trans (winds_reclaimAwaitingAck hstep)) (Winds.refl s)

/-! ### The test and the sweeps -/

variable {hostId : String} {name : Option String}

lemma mem_leasedRows {k : Nat} {d : Delivery} : ({
      deliveryId := k
      delivery := d
      outbox := d.outboxId.bind s.outbox.get? } : LeasedRow) ∈ s.leasedRows hostId name ↔
    s.deliveries.get? k = some d ∧ d.status = .leased ∧ d.hostId = hostId ∧
      name.all (d.connector == ·) = true := by
  unfold leasedRows
  rw [List.mem_map]
  constructor
  · rintro ⟨⟨k', d'⟩, hmem, heq⟩
    obtain ⟨rfl, rfl, -⟩ := LeasedRow.mk.inj heq
    obtain ⟨hd, hsel⟩ := Table.mem_select.mp hmem
    simp only [Bool.and_eq_true, beq_iff_eq, and_assoc] at hsel
    exact ⟨hd, hsel⟩
  · rintro ⟨hd, hleased, hhost, hname⟩
    exact ⟨(k, d), Table.mem_select.mpr ⟨hd, by simp [hleased, hhost, hname]⟩, rfl⟩

lemma exists_of_mem_leasedRows {row : LeasedRow} (h : row ∈ s.leasedRows hostId name) :
    s.deliveries.get? row.deliveryId = some row.delivery ∧ row.delivery.status = .leased ∧
      row.delivery.hostId = hostId ∧ name.all (row.delivery.connector == ·) = true := by
  obtain ⟨⟨k, d⟩, hmem, rfl⟩ := List.mem_map.mp h
  obtain ⟨hd, hsel⟩ := Table.mem_select.mp hmem
  simp only [Bool.and_eq_true, beq_iff_eq, and_assoc] at hsel
  exact ⟨hd, hsel⟩

lemma mem_awaitingAckRows {row : Nat × OutboxRow} : row ∈ s.awaitingAckRows hostId name ↔
    s.outbox.get? row.1 = some row.2 ∧ row.2.hostId = hostId ∧ row.2.status = .awaitingAck ∧
      name.all (row.2.connector == ·) = true := by
  unfold awaitingAckRows
  rw [Table.mem_select]
  simp only [Bool.and_eq_true, beq_iff_eq, and_assoc]
  rfl

/-- Nothing is due when both sweeps would pass over every row they select. -/
lemma connectorReclaimDue_eq_false_iff : s.connectorReclaimDue hostId name now = false ↔
    (∀ row ∈ s.leasedRows hostId name, reclaimLease now s row = none) ∧
      ∀ row ∈ s.awaitingAckRows hostId name, reclaimAwaitingAck now s row = none := by
  unfold connectorReclaimDue
  rw [Bool.or_eq_false_iff, Table.any_eq_false_iff, List.any_eq_false]
  apply and_congr
  · constructor
    · intro h row hrow
      obtain ⟨hd, hleased, hhost, hname⟩ := exists_of_mem_leasedRows hrow
      have hnot := h _ _ hd
      rw [reclaimLease_eq_none_iff]
      simpa [hleased, hhost, hname] using hnot
    · intro h k d hd
      rw [Bool.eq_false_iff]
      intro hdue
      simp only [Bool.and_eq_true, beq_iff_eq] at hdue
      have hpass := h _ (mem_leasedRows.mpr ⟨hd, hdue.1.1.1, hdue.1.1.2, hdue.1.2⟩)
      rw [reclaimLease_eq_none_iff, hdue.2] at hpass
      cases hpass
  · constructor
    · intro h row hrow
      exact reclaimAwaitingAck_eq_none_iff.mpr (by simpa using h row hrow)
    · intro h row hrow
      simpa using reclaimAwaitingAck_eq_none_iff.mp (h row hrow)

theorem connectorReclaimExpiredLeases_of_not_due
    (h : s.connectorReclaimDue hostId name now = false) :
    s.connectorReclaimExpiredLeases hostId name now = (s, 0) := by
  obtain ⟨hleases, hroots⟩ := connectorReclaimDue_eq_false_iff.mp h
  unfold connectorReclaimExpiredLeases connectorReclaimExpiredAwaitingAck
  simp only [sweep_eq_self hleases, sweep_eq_self hroots]

/-- After a reclaim nothing is due. -/
theorem not_due_after_reclaim :
    (s.connectorReclaimExpiredLeases hostId name now).1.connectorReclaimDue hostId name now =
      false := by
  rw [connectorReclaimExpiredLeases_fst, connectorReclaimDue_eq_false_iff]
  have hleases := leaseSettled_sweep now (s.leasedRows hostId name) s
  have hwinds := winds_sweepLeases now (s.leasedRows hostId name) s
  generalize (sweep (reclaimLease now) (s.leasedRows hostId name) s).1 = s₁ at hleases hwinds ⊢
  have hroots := rootSettled_sweep now (s₁.awaitingAckRows hostId name) s₁
  have hwinds' := winds_sweepRoots now (s₁.awaitingAckRows hostId name) s₁
  generalize (sweep (reclaimAwaitingAck now) (s₁.awaitingAckRows hostId name) s₁).1 = s₂
    at hroots hwinds' ⊢
  constructor
  · intro row hrow
    obtain ⟨hd, hleased, hhost, hname⟩ := exists_of_mem_leasedRows hrow
    have hd₁ := hwinds'.leased _ _ hd hleased
    have hd₀ := hwinds.leased _ _ hd₁ hleased
    have hsettled := hleases _ (mem_leasedRows.mpr ⟨hd₀, hleased, hhost, hname⟩)
    rw [reclaimLease_eq_none_iff, Bool.eq_false_iff]
    intro hdue
    exact hsettled hdue _ hd₁ hleased
  · intro row hrow
    obtain ⟨hr, hhost, hawaiting, hname⟩ := mem_awaitingAckRows.mp hrow
    have hr₁ := hwinds'.awaiting _ _ hr hawaiting
    have hsettled := hroots row (mem_awaitingAckRows.mpr ⟨hr₁, hhost, hawaiting, hname⟩)
    rw [reclaimAwaitingAck_eq_none_iff]
    exact hsettled.resolve_left fun hended => hended _ hr hawaiting

/-- A reclaim that is due changes the first row that one of its sweeps is for. -/
theorem changesRow_of_due (h : s.connectorReclaimDue hostId name now = true) :
    s.ChangesRow (s.connectorReclaimExpiredLeases hostId name now).1 := by
  rw [connectorReclaimExpiredLeases_fst]
  by_cases hleases : ∃ row ∈ s.leasedRows hostId name, reclaimLease now s row ≠ none
  · obtain ⟨row, hrow, s', rest, hstep, heq⟩ := sweep_first hleases
    obtain ⟨hd, hleased, -, -⟩ := exists_of_mem_leasedRows hrow
    rw [heq]
    have hwinds := (winds_sweepLeases now rest s').trans (winds_sweepRoots now
      ((sweep (reclaimLease now) rest s').1.awaitingAckRows hostId name) _)
    refine .inr (.inl ⟨row.deliveryId, fun hsame => ?_⟩)
    rw [hd] at hsame
    exact ended_reclaimLease hstep (hwinds.leased _ _ hsame hleased) hleased
  · have hpass : ∀ row ∈ s.leasedRows hostId name, reclaimLease now s row = none := by
      intro row hrow
      by_contra hne
      exact hleases ⟨row, hrow, hne⟩
    have hroots : ∃ row ∈ s.awaitingAckRows hostId name, reclaimAwaitingAck now s row ≠ none := by
      by_contra hnone
      push Not at hnone
      rw [connectorReclaimDue_eq_false_iff.mpr ⟨hpass, hnone⟩] at h
      cases h
    rw [sweep_eq_self hpass]
    obtain ⟨row, hrow, s', rest, hstep, heq⟩ := sweep_first hroots
    obtain ⟨hr, -, hawaiting, -⟩ := mem_awaitingAckRows.mp hrow
    rw [heq]
    refine .inl ⟨row.1, fun hsame => ?_⟩
    rw [hr] at hsame
    exact ended_reclaimAwaitingAck hstep
      ((winds_sweepRoots now rest s').awaiting _ _ hsame hawaiting) hawaiting

/-- The test answers exactly whether the sweeps at that clock write, and a second reclaim at the
same clock finds nothing. -/
theorem connectorReclaimDue_iff (s : Store) (hostId : String) (name : Option String) (now : Int) :
    let reclaimed := s.connectorReclaimExpiredLeases hostId name now
    (s.connectorReclaimDue hostId name now = true ↔ s.ChangesRow reclaimed.1) ∧
      (s.connectorReclaimDue hostId name now = false → reclaimed = (s, 0)) ∧
      reclaimed.1.connectorReclaimExpiredLeases hostId name now = (reclaimed.1, 0) := by
  intro reclaimed
  refine ⟨⟨changesRow_of_due, ?_⟩, connectorReclaimExpiredLeases_of_not_due,
    connectorReclaimExpiredLeases_of_not_due not_due_after_reclaim⟩
  intro hchanged
  by_contra hnot
  have hsame := connectorReclaimExpiredLeases_of_not_due (Bool.eq_false_iff.mpr hnot)
  rw [show reclaimed = (s, 0) from hsame] at hchanged
  simp [ChangesRow] at hchanged

end Store

end Tendwire.Connector

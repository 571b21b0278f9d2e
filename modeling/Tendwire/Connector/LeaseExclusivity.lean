import Tendwire.Connector.Leases

/-!
# Lease exclusivity

Every operation keeps leases paired, so in every reachable store a leased row has exactly one
leased delivery, the one it names, and no other row has one.
-/

namespace Tendwire.Connector

open Protocol Protocol.LeaseView Transition

namespace Store

variable {s s' : Store}

/-! ### Reclaim -/

lemma leased_of_lease {i : Nat} {l : Option Lease} (h : s.leaseView.lease i = some l) :
    ∃ r, s.outbox.get? i = some r ∧ r.status = .leased ∧ r.priv.lease = l := by
  change (s.outbox.get? i).bind _ = some l at h
  obtain ⟨r, hr, hl⟩ := Option.bind_eq_some_iff.mp h
  unfold OutboxState.currentLease at hl
  split at hl
  · next hs => exact ⟨r, hr, hs, Option.some.inj hl⟩
  · cases hl

lemma lease_of_leased {i : Nat} {r : OutboxRow} (hr : s.outbox.get? i = some r)
    (hl : r.status = .leased) : s.leaseView.lease i = some r.priv.lease := by
  change (s.outbox.get? i).bind _ = _
  rw [hr]
  simp [OutboxState.currentLease, hl]

lemma lease_eq_none {i : Nat} (h : ∀ r, s.outbox.get? i = some r → r.status ≠ .leased) :
    s.leaseView.lease i = none := by
  cases hl : s.leaseView.lease i with
  | none => rfl
  | some l =>
    obtain ⟨r, hr, hs, -⟩ := leased_of_lease hl
    exact absurd hs (h r hr)

lemma leased_of_held {k : Nat} {x : Option Nat × Option Lease}
    (h : s.leaseView.held k = some x) :
    ∃ d, s.deliveries.get? k = some d ∧ d.status = .leased ∧ (d.outboxId, d.lease) = x := by
  change (s.deliveries.get? k).bind _ = some x at h
  obtain ⟨d, hd, hl⟩ := Option.bind_eq_some_iff.mp h
  unfold DeliveryState.currentLease at hl
  split at hl
  · next hs => exact ⟨d, hd, hs, Option.some.inj hl⟩
  · cases hl

lemma held_of_leased {k : Nat} {d : Delivery} (hd : s.deliveries.get? k = some d)
    (hl : d.status = .leased) : s.leaseView.held k = some (d.outboxId, d.lease) := by
  change (s.deliveries.get? k).bind _ = _
  rw [hd]
  simp [DeliveryState.currentLease, hl]

/-- A leased delivery of a paired store, seen from its row. -/
lemma LeasesPaired.row_of_delivery (h : s.LeasesPaired) {k : Nat} {d : Delivery}
    (hd : s.deliveries.get? k = some d) (hl : d.status = .leased) :
    ∃ i r lease, d.outboxId = some i ∧ s.outbox.get? i = some r ∧ r.status = .leased ∧
      r.priv.lease = some lease ∧ d.lease = some lease ∧ lease.deliveryId = k := by
  obtain ⟨i, hi, hlease, hk⟩ := h.lease_of_held _ _ _ (held_of_leased hd hl)
  obtain ⟨r, hr, hs, hrl⟩ := leased_of_lease hlease
  obtain ⟨lease, hle, hid⟩ := Option.map_eq_some_iff.mp hk
  exact ⟨i, r, lease, hi, hr, hs, hrl.trans hle, hle, hid⟩

/-- What holds all along a sweep that only ends leases. -/
def Sweeping (s₀ s : Store) : Prop := s.LeasesPaired ∧ Narrows s₀.leaseView s.leaseView

lemma Sweeping.settles {s₀ : Store} (h : Sweeping s₀ s) (hs : Settles s s') : Sweeping s₀ s' := by
  obtain ⟨hp, hv⟩ := hs h.1
  exact ⟨hp, h.2.trans hv⟩

lemma Settles.of_sweeping (h : s.LeasesPaired → Sweeping s s') : Settles s s' := h

lemma OutboxRow.requeueStatus_ne_leased (r : OutboxRow) : r.requeueStatus ≠ .leased := by
  unfold OutboxRow.requeueStatus
  split <;> simp

lemma sweeping_reclaimLease {s₀ : Store} {hostId : String} {name : Option String} {now : Int}
    {row : LeasedRow} (h₀ : s₀.LeasesPaired) (hrow : row ∈ s₀.leasedRows hostId name)
    (hs : Sweeping s₀ s) (h : reclaimLease now s row = some s') : Sweeping s₀ s' := by
  obtain ⟨⟨k, d⟩, hmem, rfl⟩ := List.mem_map.mp hrow
  obtain ⟨hd, hp⟩ := Relational.Table.mem_select.mp hmem
  have hl : d.status = .leased := by simp_all
  obtain ⟨i, r, lease, hi, hr, hrs, hrl, hdl, hid⟩ := h₀.row_of_delivery hd hl
  unfold reclaimLease at h
  split at h
  · cases h
  · simp only [hi, Option.bind_some, hr, hrl, hrs, hid, Option.all_some, beq_self_eq_true,
      Bool.and_self, ite_true] at h
    cases h
    apply hs.settles
    have hpair : Settles s ((s.closeDelivery k .expired .expired now).endLease i r.requeueStatus
        none r.priv.clearCurrent now) := by
      apply settles_pair (i := i) (k := k)
      · intro j r hj
        simp [hj]
      · exact fun _ => OutboxRow.requeueStatus_ne_leased r
      · intro j d _ hj
        simp [hj]
      · simp
      · intro _ l hlj
        have h₁ := hs.2.lease i l hlj
        rw [lease_of_leased hr hrs] at h₁
        rw [← Option.some.inj h₁, hrl]
        simp [leaseHolder, hid]
      · intro r' l hkj
        have h₁ := hs.2.held k _ hkj
        rw [held_of_leased hd hl] at h₁
        rw [← (Prod.mk.inj (Option.some.inj h₁)).1, hi]
    exact hpair.trans (Settles.of_view_eq (leaseView_updatePresentationPlanAfterOutbox _ _ _ _))

lemma leaseView_endAwaitingAck {outboxId : Nat} {status : OutboxStatus} {next : Option Int}
    {priv : OutboxPrivate} {now : Int} (h : status ≠ .leased) :
    (s.endAwaitingAck outboxId status next priv now).leaseView = s.leaseView := by
  apply leaseView_updateOutbox
  intro i r hp
  have hs : r.status = .awaitingAck := by simp_all
  simp [OutboxState.currentLease, h, hs]

lemma leaseView_closeAwaitingDelivery (k : Option Nat) (response : DeliveryResponse) (now : Int) :
    (s.closeAwaitingDelivery k response now).leaseView = s.leaseView := by
  apply leaseView_updateDeliveries
  intro i d hp
  have hs : d.status = .awaitingAck := by simp_all
  simp [DeliveryState.currentLease, hs]

lemma leaseView_settleCompletedRoot (i : Nat) (root : OutboxRow) (k : Option Nat) (now : Int) :
    (s.settleCompletedRoot i root k now).leaseView = s.leaseView := by
  refine (leaseView_endAwaitingAck (by simp)).trans (leaseView_updateDeliveries ?_)
  intro j d hp
  have hs : d.status = .awaitingAck := by simp_all
  simp [DeliveryState.currentLease, hs]

lemma leaseView_deadLetterOverdueRoot (i : Nat) (root : OutboxRow) (k : Option Nat) (now : Int) :
    (s.deadLetterOverdueRoot i root k now).leaseView = s.leaseView :=
  (leaseView_endAwaitingAck (by simp)).trans (leaseView_closeAwaitingDelivery _ _ _)

lemma settles_deadLetterJobRow (now : Int) (row : Nat × OutboxRow) :
    Settles s (deadLetterJobRow now s row) := by
  refine Settles.of_closes fun _ => closes_update (C := (· == row.1)) ?_ ?_ ?_ ?_
  · exact fun _ _ _ => rfl
  · simp
  · intro k d hl
    cases d.outboxId <;> simp [hl]
  · simp

lemma settles_retryOverdueRoot (i : Nat) (root : OutboxRow) (k : Option Nat) (planId : Nat)
    (plan : Plan) (now : Int) : Settles s (s.retryOverdueRoot i root k planId plan now) := by
  have hfail : Settles s (s.failPlan planId) := Settles.of_view_eq rfl
  have hrows : Settles s (((s.failPlan planId).unfinishedJobRows planId).foldl
      (deadLetterJobRow now) (s.failPlan planId)) :=
    foldl_invariant (fun _ row _ h => h.trans (settles_deadLetterJobRow now row)) hfail
  refine hrows.trans (Settles.of_view_eq ?_)
  exact (leaseView_endAwaitingAck (by simp)).trans (leaseView_closeAwaitingDelivery _ _ _)

lemma settles_reclaimAwaitingAck {now : Int} {row : Nat × OutboxRow}
    (h : reclaimAwaitingAck now s row = some s') : Settles s s' := by
  unfold reclaimAwaitingAck at h
  dsimp only at h
  split at h
  · cases h
  · split at h
    · cases h
      exact Settles.of_view_eq (leaseView_deadLetterOverdueRoot _ _ _ _)
    · split at h
      · cases h
        exact Settles.of_view_eq (leaseView_settleCompletedRoot _ _ _ _)
      · split at h
        · split at h
          · cases h
          · cases h
            exact settles_retryOverdueRoot _ _ _ _ _ _
        · cases h
          exact Settles.of_view_eq (leaseView_deadLetterOverdueRoot _ _ _ _)

theorem settles_reclaim (hostId : String) (name : Option String) (now : Int) :
    Settles s (s.connectorReclaimExpiredLeases hostId name now).1 := by
  intro h
  have hleases : Sweeping s (sweep (reclaimLease now) (s.leasedRows hostId name) s).1 :=
    sweep_invariant (fun _ _ _ hrow hs hstep => sweeping_reclaimLease h hrow hs hstep)
      ⟨h, Narrows.refl _⟩
  rw [connectorReclaimExpiredLeases_fst]
  exact sweep_invariant (P := Sweeping s)
    (fun _ _ _ _ hs hstep => hs.settles (settles_reclaimAwaitingAck hstep)) hleases

/-! ### Exhaustion -/

lemma settles_exhaustRow {s₀ : Store} {now : Int} {row : Nat × OutboxRow}
    (hr : s₀.outbox.get? row.1 = some row.2) (hp : row.2.status.pollable = true)
    (hs : Sweeping s₀ s) : Sweeping s₀ (exhaustRow now s row) := by
  apply hs.settles
  apply Settles.of_view_eq
  apply leaseView_ext
  · intro i
    change (s.setOutbox _ _).leaseView.lease i = _
    rw [setOutbox, lease_updateOutbox]
    change _ = (s.outbox.get? i).bind _
    cases hg : s.outbox.get? i with
    | none => rfl
    | some r =>
      by_cases hi : i = row.1
      · have hne : r.status ≠ .leased := by
          intro hl
          have h₁ := hs.2.lease i _ (lease_of_leased hg hl)
          obtain ⟨r₀, hr₀, hl₀, -⟩ := leased_of_lease h₁
          rw [hi, hr] at hr₀
          rw [Option.some.inj hr₀, hl₀] at hp
          cases hp
        simp [OutboxState.currentLease, hi, hne]
      · simp [hi]
  · exact fun _ => rfl

theorem settles_exhaust (hostId : String) (name : Option String) (maxAttempts now : Int) :
    Settles s (s.connectorExhaustRetryable hostId name maxAttempts now).1 := by
  intro h
  have hrows : Sweeping s ((s.exhaustedRows hostId name maxAttempts).foldl (exhaustRow now) s) := by
    refine foldl_invariant ?_ ⟨h, Narrows.refl _⟩
    intro s₁ row hrow hs
    obtain ⟨hr, hp⟩ := Relational.Table.mem_select.mp hrow
    exact settles_exhaustRow hr (by simp_all) hs
  exact hrows.settles (Settles.of_view_eq rfl)

/-! ### Roots -/

lemma settles_supersedeRows (p : Nat → Bool) (now : Int) : Settles s (s.supersedeRows p now) := by
  refine Settles.of_closes fun _ => closes_update (C := p) ?_ ?_ ?_ ?_
  · intro i r hl
    simp [hl, OutboxStatus.supersedable]
  · simp
  · intro k d hl
    simp [hl]
  · simp

lemma settles_supersedeStale (hostId turnId : String) (revision : ContentRevision) (now : Int) :
    Settles s (s.supersedeStaleFinalWork hostId turnId revision now) :=
  (Settles.of_view_eq (leaseView_updatePlans _ _)).trans (settles_supersedeRows _ _)

/-- Rows are deleted together with their deliveries. -/
lemma closes_delete {t : Store} {C : Nat → Bool}
    (h : t.deleteOutbox (fun i _ => C i) = .ok s') (hout : t.outbox = s.outbox)
    (hdel : t.deliveries = s.deliveries.deleteWhere fun _ d => d.outboxId.any C) :
    Closes (C · = true) s.leaseView s'.leaseView := by
  obtain ⟨-, rfl⟩ := deleteOutbox_spec h
  rw [hout, hdel]
  apply closes_of
  · intro i
    change ((s.outbox.deleteWhere _).get? i).bind _ = ((s.outbox.get? i).bind _).filter _
    rw [Relational.Constrained.get?_deleteWhere]
    cases s.outbox.get? i with
    | none => rfl
    | some r =>
      cases C i <;> cases hl : r.currentLease <;> simp [Option.filter, hl]
  · intro k
    simp only [leaseView, Relational.Table.get?_updateWhere,
      Relational.Table.get?_deleteWhere]
    cases s.deliveries.get? k with
    | none => rfl
    | some d =>
      by_cases hC : d.outboxId.any C = true
      · by_cases hl : d.status = .leased <;>
          simp [Option.filter, hC, hl, DeliveryState.currentLease]
      · have hno : (s.outbox.table.any fun i _ => C i && d.outboxId == some i) = false := by
          rw [Relational.Table.any_eq_false_iff]
          intro i r _
          cases ho : d.outboxId with
          | none => simp
          | some j =>
            have hj : C j = false := by simpa [ho] using hC
            by_cases hij : j = i
            · simp [← hij, hj]
            · simp [hij]
        have hC' : d.outboxId.any C = false := by simpa using hC
        by_cases hl : d.status = .leased <;>
          simp [Option.filter, hC', hl, DeliveryState.currentLease, hno]

lemma leaseView_deletePlans {p : Nat → Plan → Bool} (h : s.deletePlans p = .ok s') :
    s'.leaseView = s.leaseView := by
  obtain ⟨-, rfl⟩ := deletePlans_spec h
  rfl

lemma settles_deletePlansOfRevision {hostId turnId : String} {revision : ContentRevision}
    (h : s.deletePlansOfRevision hostId turnId revision = .ok s') : Settles s s' := by
  obtain ⟨s₃, hs₃, h⟩ := bind_eq_ok.mp h
  have hview : s₃.leaseView = s.leaseView := (leaseView_deletePlans hs₃).trans rfl
  exact (Settles.of_view_eq hview).trans (Settles.of_closes fun _ => closes_delete h rfl rfl)

/-- A row that is not leased gets a status that is not leased, and its deliveries go. -/
lemma leaseView_restartRow {i : Nat} {f : OutboxState → OutboxState}
    (h : s.LeasesPaired) (hrow : s.leaseView.lease i = none) (hf : ∀ r, (f r).status ≠ .leased) :
    ((s.deleteDeliveries fun _ d => d.outboxId == some i).setOutbox i f).leaseView =
      s.leaseView := by
  have hfc : ∀ r, (f r).currentLease = none := fun r => by simp [OutboxState.currentLease, hf r]
  apply leaseView_ext
  · intro j
    rw [setOutbox, lease_updateOutbox]
    change (s.outbox.get? j).bind _ = s.leaseView.lease j
    by_cases hj : j = i
    · rw [hj, hrow]
      cases s.outbox.get? i <;> simp [hfc]
    · simp only [beq_eq_false_iff_ne.mpr hj, Bool.false_eq_true, if_false]
      rfl
  · intro k
    change ((s.deliveries.deleteWhere _).get? k).bind _ = s.leaseView.held k
    rw [Relational.Table.get?_deleteWhere]
    change _ = (s.deliveries.get? k).bind _
    cases hd : s.deliveries.get? k with
    | none => rfl
    | some d =>
      by_cases ho : d.outboxId = some i
      · have hl : d.status ≠ .leased := by
          intro hl
          obtain ⟨j, r, -, hj, hr, hrl, -⟩ := h.row_of_delivery hd hl
          rw [ho] at hj
          obtain rfl := Option.some.inj hj
          rw [lease_of_leased hr hrl] at hrow
          cases hrow
        simp [Option.filter, ho, DeliveryState.currentLease, hl]
      · simp [Option.filter, ho]

lemma settles_reactivates {hostId turnId : String} {revision : ContentRevision}
    {payload : FinalPayload} {now : Int}
    (h : ReactivatesTo s hostId turnId revision payload now s') : Settles s s' := by
  rcases h with ⟨i, row, hroot, hre, h⟩ | ⟨rfl, -⟩
  · obtain ⟨s₁, hs₁, h⟩ := bind_eq_ok.mp h
    obtain rfl := Except.ok.inj h
    have hdel := settles_deletePlansOfRevision hs₁
    intro hp
    obtain ⟨hp₁, hv⟩ := hdel hp
    have hfree : s.leaseView.lease i = none := by
      apply lease_eq_none
      intro r hr hl
      rw [(rootByKey?_spec hroot).1] at hr
      rw [← Option.some.inj hr] at hl
      simp [rootReactivates, hl] at hre
    have hfree₁ : s₁.leaseView.lease i = none := by
      cases hl : s₁.leaseView.lease i with
      | none => rfl
      | some l => exact absurd (hv.lease i l hl) (by simp [hfree])
    have hview := leaseView_restartRow (f := fun r =>
      { r with
        deliveryKind := (s.rootStart hostId turnId revision payload now).deliveryKind
        status := (s.rootStart hostId turnId revision payload now).status
        payload := .final payload
        priv := reactivatedPrivate (s.plansOfRevision hostId turnId revision)
          (s.deliveryCount i) ((s.latestActivated? hostId turnId).map Prod.fst) row.priv
        updatedAt := now
        nextAttemptAt := none }) hp₁ hfree₁ (fun _ => rootStart_ne_leased _ _ _ _ _)
    exact (hdel.trans (Settles.of_view_eq hview)) hp
  · exact Settles.refl _

/-- A new row is not leased. -/
lemma leaseView_insertOutbox {r : OutboxRow} (hr : r.status ≠ .leased)
    (h : s.insertOutbox r = .ok s') : s'.leaseView = s.leaseView := by
  obtain ⟨t, rfl, -, hget⟩ := insertOutbox_spec h
  apply leaseView_ext
  · intro i
    change (t.get? i).bind _ = (s.outbox.get? i).bind _
    rw [hget]
    split
    · next hi =>
      have hnone : s.outbox.get? i = none :=
        Relational.Table.get?_eq_none_of_next_le (Nat.le_of_eq hi.symm)
      rw [hnone]
      simp [OutboxState.currentLease, hr]
    · rfl
  · exact fun _ => rfl

lemma leaseView_insertOutboxOrIgnore {r : OutboxRow} (hr : r.status ≠ .leased)
    (h : s.insertOutboxOrIgnore r = .ok s') : s'.leaseView = s.leaseView := by
  rcases insertOutboxOrIgnore_cases h with ⟨rfl, -⟩ | ⟨-, h⟩
  · rfl
  · exact leaseView_insertOutbox hr h

lemma leaseView_discard (hostId turnId : String) (revision : ContentRevision) :
    (s.discardAcknowledgedFinalReplay hostId turnId revision).leaseView = s.leaseView := by
  unfold discardAcknowledgedFinalReplay
  split
  · rfl
  · dsimp only
    split <;> rfl

theorem settles_ensure {hostId turnId : String} {revision : ContentRevision} {now : Int}
    {id : Option Nat} (h : s.ensureFinalReadyAnchor hostId turnId revision now = .ok (s', id)) :
    Settles s s' := by
  rcases ensureFinalReadyAnchor_cases h with ⟨-, rfl⟩ | ⟨payload, -, h⟩
  · exact Settles.refl _
  · rcases h with ⟨-, -, rfl⟩ | ⟨-, -, rfl⟩ | ⟨s₁, hs₁, h⟩
    · exact Settles.refl _
    · exact Settles.of_view_eq (leaseView_discard _ _ _)
    · have hview := leaseView_insertOutboxOrIgnore (rootStart_ne_leased _ _ _ _ _) h
      exact ((settles_reactivates hs₁).trans (settles_supersedeStale _ _ _ _)).trans
        (Settles.of_view_eq hview)

/-! ### Commit and recovery -/

lemma leaseView_materialize {planId jobId : Nat} {hostId name : String} {token : PlanToken}
    {payload : PartPayload} {now : Int}
    (h : s.materializeConnectorPlanJob planId jobId hostId name token payload now = .ok s') :
    s'.leaseView = s.leaseView := by
  obtain ⟨plan, key, s₁, -, hs₁, h⟩ := materializeConnectorPlanJob_spec h
  obtain ⟨t, rfl, -⟩ := linkJob_spec h
  have hrow : (jobRow plan hostId name token key payload now).status ≠ .leased := by simp [jobRow]
  have hview := leaseView_insertOutbox hrow hs₁
  exact hview

lemma leaseView_addJob {planId : Nat} {hostId name : String} {token : PlanToken}
    {common : JobCommon} {now : Int} {j : JobSpec}
    (h : addJob planId hostId name token common now s j = .ok s') :
    s'.leaseView = s.leaseView := by
  obtain ⟨s₁, hs₁, h⟩ := addJob_spec h
  obtain ⟨t, rfl, -⟩ := insertJob_spec hs₁
  exact (leaseView_materialize h).trans rfl

lemma leaseView_materializeCommit {w : CommitWork} {now : Int}
    (h : s.materializeCommit w now = .ok s') : s'.leaseView = s.leaseView := by
  obtain ⟨s₁, hs₁, h⟩ := bind_eq_ok.mp h
  have hstaged : s₁.leaseView = s.leaseView :=
    foldlM_invariant (P := fun t => t.leaseView = s.leaseView)
      (fun _ _ _ _ ht hstep => (leaseView_materialize hstep).trans ht) rfl hs₁
  exact foldlM_invariant (P := fun t => t.leaseView = s.leaseView)
    (fun _ _ _ _ ht hstep => (leaseView_addJob hstep).trans ht) hstaged h

lemma settles_holdSource {live : Option LiveRef} {generation footprint : Nat} {deadline now : Int}
    (h : s.holdSource live generation footprint deadline now = .ok s') : Settles s s' := by
  unfold holdSource at h
  split at h
  · next live =>
    obtain ⟨root, d, -, -, hd, ho, hl, rfl⟩ := awaitAcknowledgement_spec h
    have hheld := held_of_leased hd hl
    apply settles_pair (i := live.outboxId) (k := live.deliveryId)
    · intro j r hj
      simp [hj]
    · exact fun _ h => OutboxStatus.noConfusion h
    · intro j d' hd' hj
      by_cases hk : j = live.deliveryId
      · rw [hk, hd] at hd'
        rw [← Option.some.inj hd']
        simp [hk, ho, hl]
      · have hne : (j == live.deliveryId) = false := beq_eq_false_iff_ne.mpr hk
        rw [hne]
        rfl
    · exact fun _ h => DeliveryStatus.noConfusion h
    · intro hp l hlease
      obtain ⟨i, hi, hrow, hk⟩ := hp.lease_of_held _ _ _ hheld
      rw [ho] at hi
      rw [← Option.some.inj hi, hlease] at hrow
      rw [Option.some.inj hrow]
      exact hk
    · intro r l hr
      rw [hheld] at hr
      rw [← (Prod.mk.inj (Option.some.inj hr)).1, ho]
  · rw [Except.ok.inj h]
    exact Settles.refl _

lemma leaseView_startPlan (w : CommitWork) (now : Int) :
    (s.startPlan w now).1.leaseView = s.leaseView :=
  leaseView_markObsolete w.plan.hostId w.plan.name w.plan.turnId w.planId now

theorem settles_planCommit {req : PlanCommit} {now : Int} {receipt : PlanReceipt}
    (h : s.prepareConnectorPlanCommit req now = .ok (s', receipt)) : Settles s s' := by
  rcases prepareConnectorPlanCommit_cases h with rfl | ⟨_, _, w, s₁, _, _, -, -, -, hs₁, h⟩
  · exact Settles.refl _
  · have hview : (s₁.startPlan w now).1.leaseView = s.leaseView :=
      (leaseView_startPlan w now).trans (leaseView_materializeCommit hs₁)
    exact (Settles.of_view_eq hview).trans (settles_holdSource h)

lemma settles_deleteUnacknowledged {lineage : Nat → Bool}
    (h : s.deleteUnacknowledged lineage = .ok s') : Settles s s' :=
  Settles.of_closes fun _ => closes_delete h rfl rfl

lemma leaseView_pruneRecoveries {plan : Plan} (h : s.pruneRecoveries plan = .ok s') :
    s'.leaseView = s.leaseView := by
  unfold pruneRecoveries at h
  dsimp only at h
  split at h
  · rw [← Except.ok.inj h]
    rfl
  · exact (leaseView_deletePlans h).trans rfl

lemma settles_finalizeRecovered {failedId recoveredId : Nat}
    (h : s.finalizeRecoveredPlanMaterialization failedId recoveredId = .ok s') :
    Settles s s' := by
  rcases finalizeRecovered_cases h with ⟨-, rfl⟩ | ⟨_, s₂, -, hs₂, h⟩
  · exact Settles.refl _
  · have hfirst := (Settles.of_view_eq (leaseView_updatePlans (s := s) _ _)).trans
      (settles_deleteUnacknowledged hs₂)
    exact hfirst.trans (Settles.of_view_eq (leaseView_pruneRecoveries h))

theorem settles_planRecover {req : PlanRecover} {now : Int} {receipt : RecoveryReceipt}
    (h : s.prepareConnectorPlanRecover req now = .ok (s', receipt)) : Settles s s' := by
  rcases prepareConnectorPlanRecover_cases h with rfl | ⟨_, _, w, -, -, h⟩
  · exact Settles.refl _
  · obtain ⟨s₁, s₂, s₃, hs₁, hs₂, hs₃, h⟩ := materializeRecovery_spec h
    obtain ⟨t, rfl, -⟩ := insertPlan_spec hs₁
    have hjobs : s₂.leaseView = s.leaseView :=
      foldlM_invariant (P := fun t => t.leaseView = s.leaseView)
        (fun _ _ _ _ ht hstep => (leaseView_addJob hstep).trans ht) rfl hs₂
    obtain ⟨t₃, rfl, -⟩ := insertRecovery_spec hs₃
    have haudit : Settles s { s₂ with recoveries := t₃ } := Settles.of_view_eq hjobs
    exact haudit.trans (settles_finalizeRecovered h)

theorem settles_planBegin {req : PlanBegin} {now : Int} {receipt : PlanReceipt}
    (h : s.prepareConnectorPlanBegin req now = .ok (s', receipt)) : Settles s s' := by
  obtain ⟨-, _, _, _, -, -, ⟨-, h⟩ | ⟨_, _, -, -, rfl | ⟨_, -, -, -, rfl⟩⟩⟩ :=
    prepareConnectorPlanBegin_cases h
  · obtain ⟨t, rfl, -⟩ := insertPlan_spec h
    exact Settles.of_view_eq rfl
  · exact Settles.refl _
  · exact Settles.of_view_eq rfl

theorem settles_planPart {hostId name : String} {token : PlanToken} {ordinal : Nat}
    {spans : List Span} {now : Int} {accepted : Nat}
    (h : s.prepareConnectorPlanPart hostId name token ordinal spans now = .ok (s', accepted)) :
    Settles s s' := by
  obtain ⟨_, _, -, rfl | ⟨-, -, h⟩⟩ := prepareConnectorPlanPart_cases h
  · exact Settles.refl _
  · obtain ⟨t, rfl, -⟩ := insertJob_spec h
    exact Settles.of_view_eq rfl

/-! ### Settling a lease -/

lemma settles_live {hostId name : String} {ref : Nat} {now : Int} {live : LiveRef}
    {p : Nat → OutboxRow → Bool} {q : Nat → Delivery → Bool}
    {f : OutboxState → OutboxState} {g : DeliveryState → DeliveryState}
    (hlive : s.validateLiveRef hostId name ref now = .ok live)
    (hp : ∀ j r, r.status = .leased → p j r = (j == live.outboxId))
    (hf : ∀ r, (f r).status ≠ .leased)
    (hq : ∀ j d, d.status = .leased → q j d = (j == live.deliveryId))
    (hg : ∀ d, (g d).status ≠ .leased) :
    Settles s ((s.updateDeliveries q g).updateOutbox p f) := by
  obtain ⟨hd, hl, ho, hr, hrl, -⟩ := validateLiveRef_spec hlive
  apply settles_pair hp hf (fun j d _ => hq j d) hg
  · intro hpaired l hlease
    obtain ⟨i, r, lease, hi, hr', hrs, hrl', -, hk⟩ := hpaired.row_of_delivery hd hl
    rw [ho] at hi
    rw [← Option.some.inj hi] at hr'
    rw [lease_of_leased hr' hrs, hrl'] at hlease
    rw [← Option.some.inj hlease]
    simp [leaseHolder, hk]
  · intro r l hheld
    rw [held_of_leased hd hl] at hheld
    rw [← (Prod.mk.inj (Option.some.inj hheld)).1, ho]

theorem settles_release {hostId name : String} {ref : Nat} {now : Int} {receipt : SettleReceipt}
    (h : s.releaseConnectorDelivery hostId name ref now = .ok (s', receipt)) : Settles s s' := by
  obtain ⟨s₁, live, status, response, next, hlive, hstatus, rfl⟩ := releaseConnectorDelivery_spec h
  obtain ⟨rfl, hlive⟩ := reclaimedLiveRef_spec hlive
  refine ((settles_reclaim hostId (some name) now).trans ?_).trans
    (Settles.of_view_eq (leaseView_updatePresentationPlanAfterOutbox _ _ _ _))
  refine settles_live hlive ?_ ?_ ?_ ?_
  · intro j r hj
    simp [hj]
  · exact fun _ => OutboxRow.requeueStatus_ne_leased _
  · intro j d hj
    simp [hj]
  · rcases hstatus with rfl | rfl <;> simp

lemma leaseView_settleMigrationGroup (i : Nat) (group : Option String) (now : Int) :
    (s.settleMigrationGroup i group now).leaseView = s.leaseView := by
  unfold settleMigrationGroup
  split
  · rfl
  · refine (leaseView_updateOutbox fun _ _ _ => rfl).trans (leaseView_updateOutbox ?_)
    intro j r hp
    have h : r.status.pollable = true := by simp_all
    have hne : r.status ≠ .leased := fun heq => by simp [heq, OutboxStatus.pollable] at h
    simp [OutboxState.currentLease, hne]

theorem settles_ack {hostId name : String} {ref : Nat} {ttl now : Int} {receipt : SettleReceipt}
    (h : s.ackConnectorDelivery hostId name ref ttl now = .ok (s', receipt)) : Settles s s' := by
  obtain ⟨s₁, live, hlive, -, rfl⟩ := ackConnectorDelivery_spec h
  obtain ⟨rfl, hlive⟩ := reclaimedLiveRef_spec hlive
  refine ((settles_reclaim hostId (some name) now).trans ?_).trans (Settles.of_view_eq
    ((leaseView_updatePresentationPlanAfterOutbox _ _ _ _).trans
      (leaseView_settleMigrationGroup _ _ _)))
  exact settles_live hlive (fun _ _ _ => rfl) (by simp) (fun _ _ _ => rfl) (by simp)

theorem settles_setback {setback : Setback} {hostId name : String} {ref : Nat}
    {availableAt delaySeconds : Option Int} {now : Int} {receipt : SettleReceipt}
    (h : s.setbackConnectorDelivery setback hostId name ref availableAt delaySeconds now =
      .ok (s', receipt)) : Settles s s' := by
  obtain ⟨s₁, live, result, next, priv, hlive, -, rfl⟩ := setbackConnectorDelivery_spec h
  obtain ⟨rfl, hlive⟩ := reclaimedLiveRef_spec hlive
  refine ((settles_reclaim hostId (some name) now).trans ?_).trans
    (Settles.of_view_eq (leaseView_updatePresentationPlanAfterOutbox _ _ _ _))
  refine settles_live hlive (fun _ _ _ => rfl) ?_ (fun _ _ _ => rfl) ?_
  · intro r
    have hstatus := setbackOutcome_status
      (s := (s.connectorReclaimExpiredLeases hostId (some name) now).1) live setback
    rcases hstatus with h | h | h | h <;> simp [h]
  · cases setback <;> simp [Setback.deliveryStatus]

/-! ### Operator retry -/

lemma settles_retireStaleRoot (i : Nat) (root : OutboxRow) (now : Int) :
    Settles s (s.retireStaleRoot i root now) := by
  refine Settles.of_closes fun _ => closes_update (C := (· == i)) ?_ ?_ ?_ ?_
  · intro j r hl
    simp [hl]
  · simp
  · intro k d hl
    cases d.outboxId <;> simp [hl]
  · simp

lemma settles_requeueRoot {i : Nat} {root : OutboxRow} (hroot : s.outbox.get? i = some root)
    (hdead : root.status = .deadLetter) (payload : FinalPayload) (now : Int) :
    Settles s (s.requeueRoot i root payload now) := by
  intro hp
  have hfree : s.leaseView.lease i = none := by
    apply lease_eq_none
    intro r hr hl
    rw [hroot] at hr
    rw [← Option.some.inj hr, hdead] at hl
    cases hl
  have hview := leaseView_restartRow (f := fun r =>
    { r with
      deliveryKind := .finalReady
      status := .queued
      payload := if r.deliveryKind == .finalMigrationHold then .final payload else r.payload
      nextAttemptAt := none
      updatedAt := now
      priv := { root.priv.clearCurrent.clearTerminalDiagnostic with
        priorAttemptCount := root.priv.priorAttemptCount + s.deliveryCount i } })
    hp hfree (fun _ h => OutboxStatus.noConfusion h)
  exact Settles.of_view_eq hview hp

theorem settles_finalRetry {hostId : String} {identity : FinalIdentity} {now : Int}
    {receipt : FinalRetryReceipt}
    (h : s.retryFinalReadyDelivery hostId identity now = .ok (s', receipt)) : Settles s s' := by
  obtain ⟨i, root, hroot, -, ⟨-, rfl⟩ | ⟨_, _, h⟩ | ⟨payload, -, hdead, rfl⟩⟩ :=
    retryFinalReadyDelivery_cases h
  · exact settles_retireStaleRoot _ _ _
  · exact settles_planRecover h
  · exact settles_requeueRoot (rootByKey?_spec hroot).1 hdead _ _

/-! ### Opening and renewing -/

/-- A poll's lease on a pollable row. -/
theorem paired_leaseRow {req : PollRequest} {now : Int} {row : Nat × OutboxRow} {r : OutboxRow}
    (hr : s.outbox.get? row.1 = some r) (hp : r.status.pollable = true) (h : s.LeasesPaired) :
    (s.leaseRow req now row).LeasesPaired := by
  have hfree : s.leaseView.lease row.1 = none := by
    apply lease_eq_none
    intro r' hr' hl
    rw [hr] at hr'
    rw [Option.some.inj hr', hl] at hp
    cases hp
  have hfresh : s.leaseView.held s.deliveries.next = none := by
    change (s.deliveries.get? _).bind _ = none
    rw [Relational.Table.get?_eq_none_of_next_le (Nat.le_refl _)]
    rfl
  refine h.opens hfree hfresh (l := some (s.newLease req now row.1)) rfl ?_ ?_
  · intro j
    unfold leaseRow
    dsimp only
    rw [lease_updateOutbox]
    change _ ∨ (s.outbox.get? j).bind _ = s.leaseView.lease j ∧ _
    by_cases hj : j = row.1
    · left
      refine ⟨?_, hj⟩
      change (s.outbox.get? j).bind _ = _
      rw [hj, hr]
      simp [hp, OutboxState.currentLease, OutboxPrivate.withLease]
    · right
      refine ⟨?_, hj⟩
      simp only [beq_eq_false_iff_ne.mpr hj, Bool.false_and, Bool.false_eq_true, if_false]
      rfl
  · intro k
    change ((s.deliveries.insert _).get? k).bind _ = _ ∧ _ ∨
      ((s.deliveries.insert _).get? k).bind _ = (s.deliveries.get? k).bind _ ∧ _
    rw [Relational.Table.get?_insert]
    by_cases hk : k = s.deliveries.next
    · left
      simp [hk, DeliveryState.currentLease]
    · right
      simp [hk]

lemma settles_beforePoll (req : PollRequest) (now : Int) : Settles s (s.beforePoll req now) := by
  have hreclaim : Settles s (s.connectorReclaimExpiredLeases req.hostId (some req.name) now).1 :=
    settles_reclaim _ _ _
  unfold beforePoll
  dsimp only
  split
  · exact hreclaim
  · next maxAttempts _ =>
    refine (hreclaim.trans (settles_exhaust req.hostId (some req.name) maxAttempts now)).trans ?_
    exact Settles.of_view_eq (leaseView_markExhausted _ _)

theorem paired_poll (req : PollRequest) (now : Int) (h : s.LeasesPaired) :
    (s.pollConnectorOutbox req now).1.LeasesPaired := by
  have hbefore := (settles_beforePoll req now h).1
  obtain ⟨hnodup, hrows⟩ := eligibleRows_spec (s := s.beforePoll req now) req.hostId req.name now
    (max 1 (min req.limit 100)).toNat
  have hstep : ∀ (s : Store) (row : Nat × OutboxRow) r, s.outbox.get? row.1 = some r →
      r.status.pollable = true → s.LeasesPaired → (s.leaseRow req now row).LeasesPaired :=
    fun _ _ _ hr hp h => paired_leaseRow hr hp h
  exact leaseRows_invariant hstep hnodup
    (fun row hrow => ⟨row.2, (hrows row hrow).1, eligible_pollable (hrows row hrow).2⟩) hbefore []

theorem paired_renew {hostId name : String} {ref : Nat} {leaseSeconds now : Int}
    {receipt : RenewReceipt}
    (h : s.renewConnectorDelivery hostId name ref leaseSeconds now = .ok (s', receipt))
    (hp : s.LeasesPaired) : s'.LeasesPaired := by
  obtain ⟨s₁, live, renewed, hlive, rfl⟩ := renewConnectorDelivery_spec h
  obtain ⟨rfl, hlive⟩ := reclaimedLiveRef_spec hlive
  have hp₁ := (settles_reclaim hostId (some name) now hp).1
  obtain ⟨hd, hl, ho, hr, hrl, -⟩ := validateLiveRef_spec hlive
  obtain ⟨i, r, lease, hi, hr', hrs, hrl', hdl, hk⟩ := hp₁.row_of_delivery hd hl
  rw [ho] at hi
  obtain rfl := Option.some.inj hi
  have hheld := held_of_leased hd hl
  rw [ho, hdl] at hheld
  have hholder : leaseHolder (some { lease with leaseExpiresAt := renewed }) =
      some live.deliveryId := by
    simp [leaseHolder, hk]
  refine hp₁.rewrites hheld hholder ?_ ?_
  · intro j
    unfold extendLease
    rw [lease_updateOutbox]
    by_cases hj : j = live.outboxId
    · left
      refine ⟨?_, hj⟩
      change ((s.connectorReclaimExpiredLeases hostId (some name) now).1.outbox.get? j).bind _ = _
      rw [hj, hr']
      simp [hrs, OutboxState.currentLease, hrl']
    · right
      refine ⟨?_, hj⟩
      simp only [beq_eq_false_iff_ne.mpr hj, Bool.false_and, Bool.false_eq_true, if_false]
      rfl
  · intro k
    have hview := held_updateDeliveries
      (s := (s.connectorReclaimExpiredLeases hostId (some name) now).1)
      (fun j _ => j == live.deliveryId)
      (fun d => { d with lease := d.lease.map ({ · with leaseExpiresAt := renewed }) }) k
    by_cases hkd : k = live.deliveryId
    · left
      refine ⟨hview.trans ?_, hkd⟩
      rw [hkd, hd]
      simp [DeliveryState.currentLease, hl, ho, hdl]
    · right
      have hne : (k == live.deliveryId) = false := beq_eq_false_iff_ne.mpr hkd
      refine ⟨hview.trans ?_, hkd⟩
      simp only [hne, Bool.false_eq_true, if_false]
      rfl

/-! ### Runs -/

/-- Every operation keeps leases paired. -/
theorem respects_leasesPaired : Respects fun s s' => s.LeasesPaired → s'.LeasesPaired where
  refl _ hp := hp
  trans h h' hp := h' (h hp)
  write _ _ _ hp := hp
  ensure h hp := (settles_ensure h hp).1
  enqueue h hp := (Settles.of_view_eq (leaseView_insertOutboxOrIgnore (by simp [genericRow]) h) hp).1
  poll _ := paired_poll
  renew := paired_renew
  release h hp := (settles_release h hp).1
  ack h hp := (settles_ack h hp).1
  setback h hp := (settles_setback h hp).1
  reclaim _ hostId name now hp := (settles_reclaim hostId name now hp).1
  exhaust _ hostId name maxAttempts now hp := (settles_exhaust hostId name maxAttempts now hp).1
  planBegin h hp := (settles_planBegin h hp).1
  planPart h hp := (settles_planPart h hp).1
  planCommit h hp := (settles_planCommit h hp).1
  planRecover h hp := (settles_planRecover h hp).1
  finalRetry h hp := (settles_finalRetry h hp).1

lemma paired_initial (supersessions : Relational.Constrained supersessionSchema) :
    (initial supersessions).LeasesPaired := by
  constructor
  · intro i l hl
    simp [leaseView, initial, Relational.Constrained.get?_empty] at hl
  · intro k r l hl
    simp [leaseView, initial] at hl

theorem run_leasesPaired (supersessions : Relational.Constrained supersessionSchema)
    (calls : List Call) : ((initial supersessions).run calls).LeasesPaired := by
  exact foldl_invariant (P := LeasesPaired) (fun s c _ => respects_leasesPaired.step s c)
    (paired_initial supersessions)

/-- A leased row and its one leased delivery record the same lease, and a leased delivery is
the delivery of a leased row. -/
structure LeaseExclusive (s : Store) : Prop where
  delivery_of_row : ∀ i r, s.outbox.get? i = some r → r.status = .leased →
    ∃ lease d, r.priv.lease = some lease ∧ s.deliveries.get? lease.deliveryId = some d ∧
      d.status = .leased ∧ d.outboxId = some i ∧ d.lease = some lease ∧
      ∀ k d', s.deliveries.get? k = some d' → d'.status = .leased → d'.outboxId = some i →
        k = lease.deliveryId
  row_of_delivery : ∀ k d, s.deliveries.get? k = some d → d.status = .leased →
    ∃ i r, d.outboxId = some i ∧ s.outbox.get? i = some r ∧ r.status = .leased

theorem leaseExclusive_of_paired (hp : s.LeasesPaired) : s.LeaseExclusive := by
  constructor
  · intro i r hr hl
    have hlease := lease_of_leased hr hl
    obtain ⟨k, hk, hheld⟩ := hp.held_of_lease _ _ hlease
    obtain ⟨lease, hrl, rfl⟩ := Option.map_eq_some_iff.mp hk
    obtain ⟨d, hd, hcurrent⟩ := Option.bind_eq_some_iff.mp hheld
    obtain ⟨hdl, hpair⟩ := Option.ite_none_right_eq_some.mp hcurrent
    obtain ⟨ho, hdlease⟩ := Prod.mk.inj (Option.some.inj hpair)
    refine ⟨lease, d, hrl, hd, hdl, ho, hdlease.trans hrl, ?_⟩
    intro k' d' hd' hl' ho'
    have hheld' := held_of_leased hd' hl'
    rw [ho'] at hheld'
    exact hp.holder_unique hheld' hheld
  · intro k d hd hl
    obtain ⟨i, r, lease, hi, hr, hrl, -⟩ := hp.row_of_delivery hd hl
    exact ⟨i, r, hi, hr, hrl⟩

/-- In every reachable store, leases are exclusive. -/
theorem run_leaseExclusive (supersessions : Relational.Constrained supersessionSchema)
    (calls : List Call) : ((initial supersessions).run calls).LeaseExclusive :=
  leaseExclusive_of_paired (run_leasesPaired supersessions calls)

end Store

end Tendwire.Connector

import Mathlib.Data.Option.Basic
import Tendwire.Connector.Spans

/-!
# Upkeep

The sweeps and the operations on a lease add and remove nothing that is on record: the jobs, the
rows with the attempts they carry over, the attempts of each row and the plans stay, and no plan
starts.
-/

namespace Tendwire.Connector

open Relational Transition

/-- The attempts of earlier retry windows. Only rows of the final connector have any. -/
def OutboxRow.priorAttempts (r : OutboxRow) : Nat :=
  if r.connector == turnFinalName then r.priv.priorAttemptCount else 0

/-- The same row with the attempts it carries over. -/
def OutboxRow.Carries (r r' : OutboxRow) : Prop :=
  r'.toOutboxKey = r.toOutboxKey ∧ r'.priorAttempts = r.priorAttempts

/-- The plan has been committed and is neither complete nor superseded. -/
def PlanState.committed (state : PlanState) : Bool := state.live || state == .failed

/-- The same plan, not started since. -/
def Plan.Continues (p p' : Plan) : Prop :=
  p'.toPlanColumns = p.toPlanColumns ∧ (p'.state.committed = true → p.state.committed = true)

namespace OutboxRow.Carries

variable {r r' r'' : OutboxRow}

protected lemma refl (r : OutboxRow) : r.Carries r := ⟨rfl, rfl⟩

protected lemma trans (h : r.Carries r') (h' : r'.Carries r'') : r.Carries r'' :=
  ⟨h'.1.trans h.1, h'.2.trans h.2⟩

lemma of_priv {f : OutboxState → OutboxState}
    (h : r.connector = turnFinalName →
      (f r.toOutboxState).priv.priorAttemptCount = r.priv.priorAttemptCount) :
    r.Carries (r.mapState f) := by
  refine ⟨rfl, ?_⟩
  by_cases hname : r.connector = turnFinalName
  · simp [priorAttempts, mapState, hname, h hname]
  · simp [priorAttempts, mapState, hname]

end OutboxRow.Carries

lemma Plan.Continues.refl (p : Plan) : p.Continues p := ⟨rfl, id⟩

lemma Plan.Continues.trans {p p' p'' : Plan} (h : p.Continues p') (h' : p'.Continues p'') :
    p.Continues p'' := ⟨h'.1.trans h.1, h.2 ∘ h'.2⟩

namespace Store

variable {s s' s'' : Store} {now : Int}

section Related

variable {α : Type} {R : α → α → Prop} {x y z : Option α}

lemma rel_refl (h : ∀ a, R a a) (x : Option α) : Option.Rel R x x := by
  cases x with
  | none => exact .none
  | some a => exact .some (h a)

lemma rel_trans (h : ∀ {a b c}, R a b → R b c → R a c) (hxy : Option.Rel R x y)
    (hyz : Option.Rel R y z) : Option.Rel R x z := by
  cases hxy with
  | none =>
    cases hyz
    exact .none
  | some hab =>
    cases hyz with
    | some hbc => exact .some (h hab hbc)

lemma rel_some_left {a : α} (h : Option.Rel R x y) (hx : x = some a) :
    ∃ b, y = some b ∧ R a b := by
  cases h with
  | none => cases hx
  | some hab =>
    obtain rfl := Option.some.inj hx
    exact ⟨_, rfl, hab⟩

lemma rel_some_right {b : α} (h : Option.Rel R x y) (hy : y = some b) :
    ∃ a, x = some a ∧ R a b := by
  cases h with
  | none => cases hy
  | some hab =>
    obtain rfl := Option.some.inj hy
    exact ⟨_, rfl, hab⟩

end Related

/-- The attempts of a row that are on record, by id and number. -/
def attemptsOf (s : Store) (i : Nat) : List (Nat × Nat) :=
  (s.deliveries.select fun _ d => d.outboxId == some i).map fun e => (e.1, e.2.attempt)

structure Upkeep (s s' : Store) : Prop where
  jobs : s'.jobs = s.jobs
  recoveries : s'.recoveries = s.recoveries
  next : s'.outbox.table.next = s.outbox.table.next
  ids : s.deliveries.next ≤ s'.deliveries.next
  rows : ∀ i, Option.Rel OutboxRow.Carries (s.outbox.get? i) (s'.outbox.get? i)
  attempts : ∀ i, s'.attemptsOf i = s.attemptsOf i
  plans : ∀ i, Option.Rel Plan.Continues (s.plans.get? i) (s'.plans.get? i)

namespace Upkeep

protected lemma refl (s : Store) : Upkeep s s where
  jobs := rfl
  recoveries := rfl
  next := rfl
  ids := Nat.le_refl _
  rows _ := rel_refl OutboxRow.Carries.refl _
  attempts _ := rfl
  plans _ := rel_refl Plan.Continues.refl _

protected lemma trans (h : Upkeep s s') (h' : Upkeep s' s'') : Upkeep s s'' where
  jobs := h'.jobs.trans h.jobs
  recoveries := h'.recoveries.trans h.recoveries
  next := h'.next.trans h.next
  ids := Nat.le_trans h.ids h'.ids
  rows i := rel_trans OutboxRow.Carries.trans (h.rows i) (h'.rows i)
  attempts i := (h'.attempts i).trans (h.attempts i)
  plans i := rel_trans Plan.Continues.trans (h.plans i) (h'.plans i)

lemma row (h : Upkeep s s') {i : Nat} {r : OutboxRow} (hr : s.outbox.get? i = some r) :
    ∃ r', s'.outbox.get? i = some r' ∧ r.Carries r' := rel_some_left (h.rows i) hr

lemma row_back (h : Upkeep s s') {i : Nat} {r' : OutboxRow} (hr' : s'.outbox.get? i = some r') :
    ∃ r, s.outbox.get? i = some r ∧ r.Carries r' := rel_some_right (h.rows i) hr'

lemma plan (h : Upkeep s s') {i : Nat} {p : Plan} (hp : s.plans.get? i = some p) :
    ∃ p', s'.plans.get? i = some p' ∧ p.Continues p' := rel_some_left (h.plans i) hp

lemma plan_back (h : Upkeep s s') {i : Nat} {p' : Plan} (hp' : s'.plans.get? i = some p') :
    ∃ p, s.plans.get? i = some p ∧ p.Continues p' := rel_some_right (h.plans i) hp'

/-! ### Statements -/

lemma updateOutbox {p : Nat → OutboxRow → Bool} {f : OutboxState → OutboxState}
    (h : ∀ i r, s.outbox.get? i = some r → p i r = true → r.Carries (r.mapState f)) :
    Upkeep s (s.updateOutbox p f) where
  jobs := rfl
  recoveries := rfl
  next := rfl
  ids := Nat.le_refl _
  rows i := by
    rw [outbox_updateOutbox]
    cases hr : s.outbox.get? i with
    | none => exact .none
    | some r =>
      rw [Option.map_some, Option.rel_some_some]
      split
      · next hp => exact h i r hr hp
      · exact .refl r
  attempts _ := rfl
  plans := (Upkeep.refl s).plans

lemma updateDeliveries (q : Nat → Delivery → Bool) {g : DeliveryState → DeliveryState}
    (h : ∀ d, (g d).outboxId = d.outboxId) : Upkeep s (s.updateDeliveries q g) where
  jobs := rfl
  recoveries := rfl
  next := rfl
  ids := Nat.le_refl _
  rows := (Upkeep.refl s).rows
  attempts i := by
    unfold attemptsOf
    change ((s.deliveries.updateWhere q (Delivery.mapState g)).select _).map _ = _
    rw [Table.select_updateWhere_of_keeps]
    · rw [List.map_map]
      apply List.map_congr_left
      intro e _
      dsimp only [Function.comp_apply]
      split
      · rfl
      · rfl
    · intro k d
      simp [Delivery.mapState, h]
  plans := (Upkeep.refl s).plans

lemma updatePlans {p : Nat → Plan → Bool} {f : PlanProgress → PlanProgress}
    (h : ∀ i x, s.plans.get? i = some x → p i x = true →
      (f x.toPlanProgress).state.committed = true → x.state.committed = true) :
    Upkeep s (s.updatePlans p f) where
  jobs := rfl
  recoveries := rfl
  next := rfl
  ids := Nat.le_refl _
  rows := (Upkeep.refl s).rows
  attempts _ := rfl
  plans i := by
    rw [plans_updatePlans]
    cases hx : s.plans.get? i with
    | none => exact .none
    | some x =>
      rw [Option.map_some, Option.rel_some_some]
      split
      · next hp => exact ⟨rfl, h i x hx hp⟩
      · exact ⟨rfl, id⟩

/-- A delivery without a row is a tombstone. -/
lemma insertDelivery {d : Delivery} (h : d.outboxId = none) : Upkeep s (s.insertDelivery d) where
  jobs := rfl
  recoveries := rfl
  next := rfl
  ids := Nat.le_succ _
  rows := (Upkeep.refl s).rows
  attempts i := by
    unfold attemptsOf Store.insertDelivery Table.insert Table.select
    dsimp only
    rw [List.filter_append]
    simp [h]
  plans := (Upkeep.refl s).plans

end Upkeep

/-- A delivery and its row change together. -/
lemma Upkeep.pair {q : Nat → Delivery → Bool} {g : DeliveryState → DeliveryState}
    {p : Nat → OutboxRow → Bool} {f : OutboxState → OutboxState}
    (hg : ∀ d, (g d).outboxId = d.outboxId)
    (h : ∀ i r, s.outbox.get? i = some r → p i r = true → r.Carries (r.mapState f)) :
    Upkeep s ((s.updateDeliveries q g).updateOutbox p f) := by
  have hdeliveries : Upkeep s (s.updateDeliveries q g) := .updateDeliveries q hg
  exact hdeliveries.trans (.updateOutbox h)

/-- Private state that is derived from an earlier read of the row. -/
lemma carries_of_read {r₀ r : OutboxRow} {f : OutboxState → OutboxState} (h : r₀.Carries r)
    (hprior : (f r.toOutboxState).priv.priorAttemptCount = r₀.priv.priorAttemptCount) :
    r.Carries (r.mapState f) := by
  obtain ⟨hkey, hcarried⟩ := h
  have hname : r.connector = r₀.connector := congrArg OutboxKey.connector hkey
  refine ⟨rfl, ?_⟩
  rw [hcarried]
  simp [OutboxRow.priorAttempts, OutboxRow.mapState, hprior, hname]

/-! ### Plans -/

lemma upkeep_activateWaiting (hostId name : String) :
    Upkeep s (s.activateWaitingPresentationPlans hostId name now) := by
  apply Upkeep.updatePlans
  intro i x _ hp _
  have hstate : x.state = .waitingPredecessor := by
    simp only [Bool.and_eq_true, beq_iff_eq] at hp
    exact hp.1.2
  simp [PlanState.committed, PlanState.live, hstate]

lemma upkeep_failPlan {planId : Nat} {plan : Plan} (hplan : s.plans.get? planId = some plan)
    (h : plan.state.committed = true) : Upkeep s (s.failPlan planId) := by
  apply Upkeep.updatePlans
  intro i x hx hp _
  obtain rfl : i = planId := by simpa using hp
  obtain rfl := Option.some.inj (hplan.symm.trans hx)
  exact h

lemma upkeep_markExhausted (hostId : String) (name : Option String) :
    Upkeep s (s.markExhaustedPresentationPlans hostId name) := by
  apply Upkeep.updatePlans
  intro i x _ hp _
  simp only [Bool.and_eq_true] at hp
  simp [PlanState.committed, hp.1.2]

lemma upkeep_extendAckDeadline (sourceId : Nat) (deadline : Int) :
    Upkeep s (s.extendAckDeadline sourceId deadline now) := by
  unfold extendAckDeadline
  split
  · have hset : Upkeep s (s.setOutbox sourceId fun r =>
        { r with
          priv := { r.priv with ackDeadlineAt := some deadline }
          nextAttemptAt := some deadline
          updatedAt := now }) := .updateOutbox fun _ _ _ _ => .of_priv fun _ => rfl
    dsimp only
    split
    · exact hset.trans (.updateDeliveries _ fun _ => rfl)
    · exact hset
  · exact .refl s

lemma upkeep_deliverSource (sourceId : Nat) : Upkeep s (s.deliverSource sourceId now) :=
  .pair (fun _ => rfl) fun _ _ _ _ => .of_priv fun _ => rfl

lemma upkeep_recordTombstone (plan : Plan) : Upkeep s (s.recordTombstone plan now) := by
  unfold recordTombstone
  dsimp only
  split
  · exact .refl s
  · exact .insertDelivery rfl

lemma upkeep_completePlan (planId : Nat) (plan : Plan) :
    Upkeep s (s.completePlan planId plan now) := by
  have hcompleted : Upkeep s (s.updatePlans (fun i p => i == planId && p.state == .active)
      fun p => { p with state := .completed, completedAt := some (p.completedAt.getD now) }) :=
    .updatePlans fun _ _ _ _ hc => by cases hc
  unfold completePlan
  dsimp only
  split
  · exact hcompleted.trans (upkeep_deliverSource _)
  · exact hcompleted.trans (upkeep_recordTombstone _)

lemma upkeep_advancePlan {planId : Nat} {plan : Plan} (hplan : s.plans.get? planId = some plan)
    (status : OutboxStatus) (ttl : Option Int) :
    Upkeep s (s.advancePlan planId plan status now ttl) := by
  unfold advancePlan
  split
  · next hdead =>
    apply upkeep_failPlan hplan
    simp only [Bool.and_eq_true] at hdead
    simp [PlanState.committed, hdead.2]
  · split
    · split
      · split
        · exact upkeep_extendAckDeadline _ _
        · exact .refl s
      · exact upkeep_completePlan _ _
    · exact .refl s

lemma upkeep_afterOutbox (outboxId : Nat) (status : OutboxStatus) (ttl : Option Int) :
    Upkeep s (s.updatePresentationPlanAfterOutbox outboxId status now ttl) := by
  unfold updatePresentationPlanAfterOutbox
  split
  · exact .refl s
  · next planId plan hplan =>
    exact (upkeep_advancePlan (planOfOutbox?_spec hplan) _ _).trans (upkeep_activateWaiting _ _)

/-! ### Sweeps -/

lemma upkeep_closeDelivery (deliveryId : Nat) (status : DeliveryStatus)
    (response : DeliveryResponse) (now : Int) : Upkeep s (s.closeDelivery deliveryId status response now) :=
  .updateDeliveries _ fun _ => rfl

lemma upkeep_endLease {outboxId : Nat} (r₀ : OutboxRow) {priv : OutboxPrivate}
    (hread : ∀ r, s.outbox.get? outboxId = some r → r₀.Carries r)
    (hprior : priv.priorAttemptCount = r₀.priv.priorAttemptCount) (status : OutboxStatus)
    (next : Option Int) : Upkeep s (s.endLease outboxId status next priv now) := by
  apply Upkeep.updateOutbox
  intro i r hr hp
  have hid : i = outboxId := by
    simp only [Bool.and_eq_true, beq_iff_eq] at hp
    exact hp.1
  exact carries_of_read (hread r (hid ▸ hr)) hprior

lemma upkeep_endAwaitingAck {outboxId : Nat} (r₀ : OutboxRow) {priv : OutboxPrivate}
    (hread : ∀ r, s.outbox.get? outboxId = some r → r₀.Carries r)
    (hprior : priv.priorAttemptCount = r₀.priv.priorAttemptCount) (status : OutboxStatus)
    (next : Option Int) : Upkeep s (s.endAwaitingAck outboxId status next priv now) := by
  apply Upkeep.updateOutbox
  intro i r hr hp
  have hid : i = outboxId := by
    simp only [Bool.and_eq_true, beq_iff_eq] at hp
    exact hp.1
  exact carries_of_read (hread r (hid ▸ hr)) hprior

lemma upkeep_reclaimLease {row : LeasedRow}
    (hread : ∀ i r₀ r, row.delivery.outboxId = some i → row.outbox = some r₀ →
      s.outbox.get? i = some r → r₀.Carries r)
    (h : reclaimLease now s row = some s') : Upkeep s s' := by
  unfold reclaimLease at h
  split at h
  · cases h
  · dsimp only at h
    split at h
    · next outboxId outbox hid hrow =>
      split at h
      · rw [← Option.some.inj h]
        have hclosed : Upkeep s (s.closeDelivery row.deliveryId .expired .expired now) :=
          upkeep_closeDelivery _ _ _ _
        refine (hclosed.trans (upkeep_endLease outbox ?_ ?_ _ _)).trans (upkeep_afterOutbox _ _ _)
        · exact fun r hr => hread outboxId outbox r hid hrow hr
        · rfl
      · rw [← Option.some.inj h]
        exact upkeep_closeDelivery _ _ _ _
    · rw [← Option.some.inj h]
      exact upkeep_closeDelivery _ _ _ _

lemma upkeep_closeAwaitingDelivery (deliveryId : Option Nat) (response : DeliveryResponse)
    (now : Int) :
    Upkeep s (s.closeAwaitingDelivery deliveryId response now) := .updateDeliveries _ fun _ => rfl

lemma upkeep_deadLetterJobRow {row : Nat × OutboxRow}
    (hread : ∀ r, s.outbox.get? row.1 = some r → row.2.Carries r) :
    Upkeep s (deadLetterJobRow now s row) := by
  apply Upkeep.pair
  · exact fun _ => rfl
  · intro i r hr hp
    have hid : i = row.1 := by simpa using hp
    exact carries_of_read (hread r (hid ▸ hr)) rfl

lemma Upkeep.carried (h : Upkeep s s') {i : Nat} {r r' : OutboxRow}
    (hr : s.outbox.get? i = some r) (hr' : s'.outbox.get? i = some r') : r.Carries r' := by
  obtain ⟨r'', hr'', hcarries⟩ := h.row hr
  obtain rfl := Option.some.inj (hr''.symm.trans hr')
  exact hcarries

lemma upkeep_deadLetterJobRows {l : List (Nat × OutboxRow)}
    (hread : ∀ row ∈ l, s.outbox.get? row.1 = some row.2) :
    Upkeep s (l.foldl (deadLetterJobRow now) s) := by
  refine foldl_invariant (P := fun t : Store => Upkeep s t) ?_ (.refl s)
  intro t row hmem ht
  exact ht.trans (upkeep_deadLetterJobRow fun r hr => ht.carried (hread row hmem) hr)

lemma newestPlanOf?_spec {outboxId planId : Nat} {plan : Plan}
    (h : s.newestPlanOf? outboxId = some (planId, plan)) :
    s.plans.get? planId = some plan ∧ plan.sourceOutboxId = some outboxId := by
  obtain ⟨hplan, hsource, -⟩ := Table.newest?_eq_some h
  exact ⟨hplan, by simpa using hsource⟩

lemma upkeep_retryOverdueRoot {outboxId planId : Nat} {root : OutboxRow} {plan : Plan}
    (hread : ∀ r, s.outbox.get? outboxId = some r → root.Carries r)
    (hplan : s.plans.get? planId = some plan) (hcommitted : plan.state.committed = true)
    (deliveryId : Option Nat) :
    Upkeep s (s.retryOverdueRoot outboxId root deliveryId planId plan now) := by
  have hfailed := upkeep_failPlan hplan hcommitted
  have hrows : Upkeep s (((s.failPlan planId).unfinishedJobRows planId).foldl
      (deadLetterJobRow now) (s.failPlan planId)) :=
    hfailed.trans (upkeep_deadLetterJobRows fun row hrow => (Table.mem_select.mp hrow).1)
  have hclosed := hrows.trans (upkeep_closeAwaitingDelivery deliveryId .ackDeadlineExpired now)
  refine hclosed.trans (upkeep_endAwaitingAck root ?_ ?_ _ _)
  · intro r hr
    obtain ⟨r₀, hr₀, hcarries⟩ := hclosed.row_back hr
    exact (hread r₀ hr₀).trans hcarries
  · rfl

lemma upkeep_deadLetterOverdueRoot {outboxId : Nat} {root : OutboxRow}
    (hread : ∀ r, s.outbox.get? outboxId = some r → root.Carries r) (deliveryId : Option Nat) :
    Upkeep s (s.deadLetterOverdueRoot outboxId root deliveryId now) := by
  have hclosed : Upkeep s (s.closeAwaitingDelivery deliveryId .planUnrecoverable now) :=
    upkeep_closeAwaitingDelivery _ _ _
  refine hclosed.trans (upkeep_endAwaitingAck root ?_ ?_ _ _)
  · exact fun r hr => hread r hr
  · rfl

lemma upkeep_settleCompletedRoot {outboxId : Nat} {root : OutboxRow}
    (hread : ∀ r, s.outbox.get? outboxId = some r → root.Carries r) (deliveryId : Option Nat) :
    Upkeep s (s.settleCompletedRoot outboxId root deliveryId now) := by
  have hsettled : Upkeep s (s.updateDeliveries
      (fun i d => deliveryId == some i && d.status == .awaitingAck) fun d =>
        { d with status := .delivered, deliveredAt := some (d.deliveredAt.getD now) }) :=
    .updateDeliveries _ fun _ => rfl
  refine hsettled.trans (upkeep_endAwaitingAck root ?_ ?_ _ _)
  · exact fun r hr => hread r hr
  · rfl

lemma upkeep_reclaimAwaitingAck {row : Nat × OutboxRow}
    (hread : ∀ r, s.outbox.get? row.1 = some r → row.2.Carries r)
    (h : reclaimAwaitingAck now s row = some s') : Upkeep s s' := by
  unfold reclaimAwaitingAck at h
  dsimp only at h
  split at h
  · cases h
  · split at h
    · rw [← Option.some.inj h]
      exact (upkeep_deadLetterOverdueRoot hread _).trans (upkeep_activateWaiting _ _)
    · next planId plan hplan =>
      split at h
      · rw [← Option.some.inj h]
        exact upkeep_settleCompletedRoot hread _
      · split at h
        · next hstate =>
          split at h
          · cases h
          · rw [← Option.some.inj h]
            exact (upkeep_retryOverdueRoot hread (newestPlanOf?_spec hplan).1 hstate _).trans
              (upkeep_activateWaiting _ _)
        · rw [← Option.some.inj h]
          exact (upkeep_deadLetterOverdueRoot hread _).trans (upkeep_activateWaiting _ _)

theorem upkeep_reclaim (hostId : String) (name : Option String) :
    Upkeep s (s.connectorReclaimExpiredLeases hostId name now).1 := by
  have hleases : Upkeep s (sweep (reclaimLease now) (s.leasedRows hostId name) s).1 := by
    refine sweep_invariant (P := fun t : Store => Upkeep s t) ?_ (.refl s)
    intro t row t' hmem ht hstep
    refine ht.trans (upkeep_reclaimLease ?_ hstep)
    intro i r₀ r hid hr₀ hr
    obtain ⟨e, -, rfl⟩ := List.mem_map.mp hmem
    have hread : s.outbox.get? i = some r₀ := by simpa [show e.2.outboxId = some i from hid] using hr₀
    exact ht.carried hread hr
  rw [connectorReclaimExpiredLeases_fst]
  refine sweep_invariant (P := fun t : Store => Upkeep s t) ?_ hleases
  intro t row t' hmem ht hstep
  refine ht.trans (upkeep_reclaimAwaitingAck ?_ hstep)
  intro r hr
  have hread := (Table.mem_select.mp hmem).1
  obtain ⟨r₀, hr₀, h₀⟩ := hleases.row_back hread
  obtain ⟨r₁, hr₁, h₁⟩ := ht.row_back hr
  obtain rfl := Option.some.inj (hr₀.symm.trans hr₁)
  exact ⟨h₁.1.trans h₀.1.symm, h₁.2.trans h₀.2.symm⟩

lemma upkeep_exhaustRow {row : Nat × OutboxRow}
    (hread : ∀ r, s.outbox.get? row.1 = some r → row.2.Carries r) :
    Upkeep s (exhaustRow now s row) := by
  apply Upkeep.updateOutbox
  intro i r hr hp
  have hid : i = row.1 := by simpa using hp
  obtain ⟨hkey, hcarried⟩ := hread r (hid ▸ hr)
  have hname : r.connector = row.2.connector := congrArg OutboxKey.connector hkey
  refine ⟨rfl, ?_⟩
  rw [hcarried]
  by_cases hfinal : row.2.connector = turnFinalName
  · simp [OutboxRow.priorAttempts, OutboxRow.mapState, hname, hfinal,
      OutboxPrivate.withTerminalDiagnostic, OutboxPrivate.clearCurrent]
  · simp [OutboxRow.priorAttempts, OutboxRow.mapState, hname, hfinal]

theorem upkeep_exhaust (hostId : String) (name : Option String) (maxAttempts : Int) :
    Upkeep s (s.connectorExhaustRetryable hostId name maxAttempts now).1 := by
  have hrows : Upkeep s ((s.exhaustedRows hostId name maxAttempts).foldl (exhaustRow now) s) := by
    refine foldl_invariant (P := fun t : Store => Upkeep s t) ?_ (.refl s)
    intro t row hmem ht
    exact ht.trans (upkeep_exhaustRow fun r hr => ht.carried (Table.mem_select.mp hmem).1 hr)
  exact hrows.trans (upkeep_markExhausted _ _)

theorem upkeep_beforePoll (req : PollRequest) : Upkeep s (s.beforePoll req now) := by
  unfold beforePoll
  dsimp only
  split
  · exact upkeep_reclaim _ _
  · exact ((upkeep_reclaim _ _).trans (upkeep_exhaust _ _ _)).trans (upkeep_markExhausted _ _)

/-! ### Operations on a lease -/

variable {hostId name : String} {ref : Nat}

lemma reclaimedLiveRef_read {live : LiveRef}
    (h : s.reclaimedLiveRef hostId name ref now = .ok (s', live)) :
    Upkeep s s' ∧ s'.outbox.get? live.outboxId = some live.outbox := by
  obtain ⟨rfl, hlive⟩ := reclaimedLiveRef_spec h
  exact ⟨upkeep_reclaim _ _, (validateLiveRef_spec hlive).2.2.2.1⟩

theorem upkeep_renew {leaseSeconds : Int} {receipt : RenewReceipt}
    (h : s.renewConnectorDelivery hostId name ref leaseSeconds now = .ok (s', receipt)) :
    Upkeep s s' := by
  obtain ⟨s₁, live, leasedUntil, hlive, rfl⟩ := renewConnectorDelivery_spec h
  refine (reclaimedLiveRef_read hlive).1.trans (.pair ?_ ?_)
  · exact fun _ => rfl
  · exact fun _ _ _ _ => .of_priv fun _ => rfl

theorem upkeep_release {receipt : SettleReceipt}
    (h : s.releaseConnectorDelivery hostId name ref now = .ok (s', receipt)) : Upkeep s s' := by
  obtain ⟨s₁, live, status, response, next, hlive, -, rfl⟩ := releaseConnectorDelivery_spec h
  obtain ⟨hreclaimed, hread⟩ := reclaimedLiveRef_read hlive
  have hclosed := hreclaimed.trans (upkeep_closeDelivery live.deliveryId status response now)
  refine (hclosed.trans (upkeep_endLease live.outbox ?_ ?_ _ _)).trans (upkeep_afterOutbox _ _ _)
  · intro r hr
    obtain rfl := Option.some.inj (hread.symm.trans hr)
    exact .refl _
  · rfl

lemma upkeep_settleMigrationGroup (i : Nat) (group : Option String) :
    Upkeep s (s.settleMigrationGroup i group now) := by
  unfold settleMigrationGroup
  split
  · exact .refl s
  · exact .trans (.updateOutbox fun _ _ _ _ => .of_priv fun _ => rfl)
      (.updateOutbox fun _ _ _ _ => .of_priv fun _ => rfl)

theorem upkeep_ack {ttl : Int} {receipt : SettleReceipt}
    (h : s.ackConnectorDelivery hostId name ref ttl now = .ok (s', receipt)) : Upkeep s s' := by
  obtain ⟨s₁, live, hlive, -, rfl⟩ := ackConnectorDelivery_spec h
  obtain ⟨hreclaimed, hread⟩ := reclaimedLiveRef_read hlive
  have hacknowledged : Upkeep s₁ (s₁.acknowledge live now) := by
    apply Upkeep.pair
    · exact fun _ => rfl
    · intro i r hr hp
      have hid : i = live.outboxId := by simpa using hp
      obtain rfl := Option.some.inj (hread.symm.trans (hid ▸ hr))
      exact carries_of_read (.refl _) rfl
  exact ((hreclaimed.trans hacknowledged).trans (upkeep_settleMigrationGroup _ _)).trans
    (upkeep_afterOutbox _ _ _)

lemma setbackPrivate_prior (name : String) (live : LiveRef) (status : OutboxStatus) :
    (s.setbackPrivate name live status now).priorAttemptCount =
      live.outbox.priv.priorAttemptCount := by
  unfold setbackPrivate
  split
  · rfl
  · rfl

theorem upkeep_setback {setback : Setback} {availableAt delaySeconds : Option Int}
    {receipt : SettleReceipt}
    (h : s.setbackConnectorDelivery setback hostId name ref availableAt delaySeconds now =
      .ok (s', receipt)) : Upkeep s s' := by
  obtain ⟨⟨s₁, live⟩, hlive, h⟩ := bind_eq_ok.mp h
  obtain ⟨rfl, -⟩ := Prod.mk.inj (Except.ok.inj h)
  obtain ⟨hreclaimed, hread⟩ := reclaimedLiveRef_read hlive
  refine (hreclaimed.trans (.pair ?_ ?_)).trans (upkeep_afterOutbox _ _ _)
  · exact fun _ => rfl
  · intro i r hr hp
    have hid : i = live.outboxId := by simpa using hp
    obtain rfl := Option.some.inj (hread.symm.trans (hid ▸ hr))
    exact carries_of_read (.refl _) (setbackPrivate_prior _ _ _)

/-! ### Superseding and retiring -/

lemma upkeep_supersedeRows (p : Nat → Bool) : Upkeep s (s.supersedeRows p now) :=
  .pair (fun _ => rfl) fun _ _ _ _ => .of_priv fun _ => rfl

lemma upkeep_supersedeStaleFinalWork (hostId turnId : String) (revision : ContentRevision) :
    Upkeep s (s.supersedeStaleFinalWork hostId turnId revision now) := by
  have hplans : Upkeep s (s.updatePlans (fun i _ => s.stalePlan hostId turnId revision i)
      fun p => { p with state := .superseded }) := .updatePlans fun _ _ _ _ hc => by cases hc
  exact hplans.trans (upkeep_supersedeRows _)

lemma upkeep_retireStaleRoot {i : Nat} {root : OutboxRow} (hread : s.outbox.get? i = some root) :
    Upkeep s (s.retireStaleRoot i root now) := by
  apply Upkeep.pair
  · exact fun _ => rfl
  · intro j r hr hp
    have hid : j = i := by
      simp only [Bool.and_eq_true, beq_iff_eq] at hp
      exact hp.1
    obtain rfl := Option.some.inj (hread.symm.trans (hid ▸ hr))
    exact carries_of_read (.refl _) rfl

lemma upkeep_markObsolete (hostId name turnId : String) (keepPlanId : Nat) :
    Upkeep s (s.markObsoletePresentationPlans hostId name turnId keepPlanId now).1 := by
  unfold markObsoletePresentationPlans
  refine .trans ?_ (.updateOutbox fun _ _ _ _ => .of_priv fun _ => rfl)
  refine .trans ?_ (.updateOutbox fun _ _ _ _ => .of_priv fun _ => rfl)
  exact .updatePlans fun _ _ _ _ hc => by cases hc

lemma upkeep_holdSource {live : Option LiveRef} {generation footprint : Nat} {deadline : Int}
    (h : s.holdSource live generation footprint deadline now = .ok s') : Upkeep s s' := by
  unfold holdSource at h
  split at h
  · next live =>
    unfold awaitAcknowledgement at h
    obtain ⟨root, hroot, h⟩ := bind_eq_ok.mp h
    obtain ⟨_, -, h⟩ := bind_eq_ok.mp h
    obtain ⟨_, -, h⟩ := bind_eq_ok.mp h
    rw [← Except.ok.inj h]
    dsimp only
    refine .trans (.updateDeliveries _ ?_) (upkeep_endLease root ?_ ?_ _ _)
    · exact fun _ => rfl
    · intro r hr
      obtain rfl := Option.some.inj ((demand_eq_ok.mp hroot).symm.trans hr)
      exact .refl _
    · rfl
  · rw [← Except.ok.inj h]
    exact .refl s

end Store

end Tendwire.Connector

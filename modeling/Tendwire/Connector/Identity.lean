import Tendwire.Connector.Machine

/-!
# Identities of rows

The identity of an outbox row never changes: a root keeps its revision key, a job's row keeps
its job key, and no row turns into the other kind. Row ids are not used twice.
-/

namespace Tendwire.Connector

open Transition

/-- Roots have revision keys, rows of jobs have job keys. -/
def DeliveryKind.fits : DeliveryKind → DeliveryKey → Bool
  | .finalReady, .revision _ | .finalMigrationHold, .revision _ => true
  | .finalPart, .job .. => true
  | .generic, .other _ => true
  | _, _ => false

lemma DeliveryKind.isRoot_of_fits {k : DeliveryKind} {identity : FinalIdentity}
    (h : k.fits (.revision identity) = true) : k.isRoot = true := by
  cases k <;> simp_all [fits, isRoot]

lemma DeliveryKind.fits_of_isRoot {k : DeliveryKind} (h : k.isRoot = true)
    (identity : FinalIdentity) : k.fits (.revision identity) = true := by
  cases k <;> simp_all [fits, isRoot]

/-- The key of a row says what the row is of. -/
structure OutboxRow.WellKeyed (r : OutboxRow) : Prop where
  fits : r.deliveryKind.fits r.deliveryKey = true
  root : ∀ identity, r.deliveryKey = .revision identity →
    r.connector = turnFinalName ∧ r.turnId = some identity.turnId ∧
      r.contentRevision = some identity.contentRevision ∧ r.hostId = identity.hostId ∧
      identity.contentRevision.turnId = identity.turnId

/-- The same row later. -/
structure OutboxRow.SameIdentity (r r' : OutboxRow) : Prop where
  key : r'.toOutboxKey = r.toOutboxKey
  kind : r'.deliveryKind = r.deliveryKind ∨ r'.deliveryKind.fits r'.deliveryKey = true

def DeliveryKey.isJob : DeliveryKey → Bool
  | .job .. => true
  | _ => false

namespace OutboxRow

variable {r r' r'' : OutboxRow}

lemma SameIdentity.refl (r : OutboxRow) : r.SameIdentity r := ⟨rfl, .inl rfl⟩

lemma SameIdentity.trans (h : r.SameIdentity r') (h' : r'.SameIdentity r'') :
    r.SameIdentity r'' := by
  refine ⟨h'.key.trans h.key, ?_⟩
  have hkey : r''.deliveryKey = r'.deliveryKey := congrArg OutboxKey.deliveryKey h'.key
  rcases h'.kind with hk | hk
  · rw [hk, hkey]
    exact h.kind
  · exact .inr hk

lemma SameIdentity.mapState {f : OutboxState → OutboxState}
    (h : (f r.toOutboxState).deliveryKind = r.deliveryKind) : r.SameIdentity (r.mapState f) :=
  ⟨rfl, .inl h⟩

theorem WellKeyed.of_same (h : r.WellKeyed) (hs : r.SameIdentity r') : r'.WellKeyed := by
  obtain ⟨hkey, hkind⟩ := hs
  have hdk : r'.deliveryKey = r.deliveryKey := congrArg OutboxKey.deliveryKey hkey
  constructor
  · rcases hkind with hk | hk
    · rw [hk, hdk]
      exact h.fits
    · exact hk
  · intro identity hid
    have hroot := h.root identity (hdk.symm.trans hid)
    have hc : r'.connector = r.connector := congrArg OutboxKey.connector hkey
    have ht : r'.turnId = r.turnId := congrArg OutboxKey.turnId hkey
    have hr : r'.contentRevision = r.contentRevision := congrArg OutboxKey.contentRevision hkey
    have hh : r'.hostId = r.hostId := congrArg OutboxKey.hostId hkey
    rw [hc, ht, hr, hh]
    exact hroot

end OutboxRow

namespace Store

variable {s s' s'' : Store}

/-- What every operation does to identities. -/
structure Evolves (s s' : Store) : Prop where
  next : s.outbox.table.next ≤ s'.outbox.table.next
  row : ∀ i r', s'.outbox.get? i = some r' →
    (∃ r, s.outbox.get? i = some r ∧ r.SameIdentity r') ∨
      s.outbox.table.next ≤ i ∧ r'.WellKeyed
  job : ∀ k j o, s'.jobs.get? k = some j → j.outboxId = some o →
    (∃ k₀ j₀, s.jobs.get? k₀ = some j₀ ∧ j₀.outboxId = some o) ∨
      s.outbox.table.next ≤ o ∧ o < s'.outbox.table.next ∧
        ∀ r, s'.outbox.get? o = some r → r.deliveryKey.isJob = true

lemma Evolves.refl (s : Store) : Evolves s s :=
  ⟨Nat.le_refl _, fun _ r h => .inl ⟨r, h, .refl r⟩, fun k j _ h ho => .inl ⟨k, j, h, ho⟩⟩

lemma Evolves.trans (h : Evolves s s') (h' : Evolves s' s'') : Evolves s s'' := by
  refine ⟨Nat.le_trans h.next h'.next, ?_, ?_⟩
  · intro i r'' hr''
    rcases h'.row i r'' hr'' with ⟨r', hr', hs'⟩ | ⟨hi, hk⟩
    · rcases h.row i r' hr' with ⟨r, hr, hs⟩ | ⟨hi, hk⟩
      · exact .inl ⟨r, hr, hs.trans hs'⟩
      · exact .inr ⟨hi, hk.of_same hs'⟩
    · exact .inr ⟨Nat.le_trans h.next hi, hk⟩
  · intro k j o hj ho
    rcases h'.job k j o hj ho with ⟨k', j', hj', ho'⟩ | ⟨hlo, hhi, hkey⟩
    · rcases h.job k' j' o hj' ho' with hold | ⟨hlo, hhi, hkey⟩
      · exact .inl hold
      · refine .inr ⟨hlo, Nat.lt_of_lt_of_le hhi h'.next, ?_⟩
        intro r'' hr''
        rcases h'.row o r'' hr'' with ⟨r', hr', hs'⟩ | ⟨hle, -⟩
        · have hdk : r''.deliveryKey = r'.deliveryKey := congrArg OutboxKey.deliveryKey hs'.key
          rw [hdk]
          exact hkey r' hr'
        · omega
    · exact .inr ⟨Nat.le_trans h.next hlo, hhi, hkey⟩

/-! ### Statements -/

lemma Evolves.of_eq (hout : s'.outbox = s.outbox) (hjobs : s'.jobs = s.jobs) : Evolves s s' := by
  refine ⟨Nat.le_of_eq (by rw [hout]), ?_, ?_⟩
  · intro i r hr
    rw [hout] at hr
    exact .inl ⟨r, hr, .refl r⟩
  · intro k j o hj ho
    rw [hjobs] at hj
    exact .inl ⟨k, j, hj, ho⟩

lemma evolves_updateOutbox (p : Nat → OutboxRow → Bool) {f : OutboxState → OutboxState}
    (hf : ∀ i r, s.outbox.get? i = some r → p i r = true → r.SameIdentity (r.mapState f)) :
    Evolves s (s.updateOutbox p f) := by
  refine ⟨Nat.le_refl _, ?_, fun k j o hj ho => .inl ⟨k, j, hj, ho⟩⟩
  intro i r' hr'
  left
  rw [outbox_updateOutbox] at hr'
  obtain ⟨r, hr, rfl⟩ := Option.map_eq_some_iff.mp hr'
  refine ⟨r, hr, ?_⟩
  split
  · next hp => exact hf i r hr hp
  · exact .refl r

/-- Most updates leave the kind of a row alone. -/
lemma evolves_update {p : Nat → OutboxRow → Bool} {f : OutboxState → OutboxState}
    (hf : ∀ r, (f r).deliveryKind = r.deliveryKind) : Evolves s (s.updateOutbox p f) :=
  evolves_updateOutbox p fun _ r _ _ => .mapState (hf r.toOutboxState)

lemma evolves_insertOutbox {r : OutboxRow} (hr : r.WellKeyed) (h : s.insertOutbox r = .ok s') :
    Evolves s s' := by
  obtain ⟨t, rfl, hnext, hget⟩ := insertOutbox_spec h
  refine ⟨by dsimp only; omega, ?_, fun k j o hj ho => .inl ⟨k, j, hj, ho⟩⟩
  intro i r' hr'
  change t.get? i = _ at hr'
  rw [hget] at hr'
  split at hr'
  · next hi =>
    obtain rfl := Option.some.inj hr'
    exact .inr ⟨Nat.le_of_eq hi.symm, hr⟩
  · exact .inl ⟨r', hr', .refl r'⟩

lemma evolves_insertJob {j : Job} (hj : j.outboxId = none) (h : s.insertJob j = .ok s') :
    Evolves s s' := by
  obtain ⟨t, rfl, hget⟩ := insertJob_spec h
  refine ⟨Nat.le_refl _, fun i r hr => .inl ⟨r, hr, .refl r⟩, ?_⟩
  intro k j' o hj' ho
  change t.get? k = _ at hj'
  rw [hget] at hj'
  split at hj'
  · rw [← Option.some.inj hj', hj] at ho
    cases ho
  · exact .inl ⟨k, j', hj', ho⟩

/-- The row of a job comes with the link to it. -/
lemma evolves_materialize {planId jobId : Nat} {hostId name : String} {token : PlanToken}
    {payload : PartPayload} {now : Int}
    (h : s.materializeConnectorPlanJob planId jobId hostId name token payload now = .ok s') :
    Evolves s s' := by
  obtain ⟨plan, key, s₁, -, hs₁, h⟩ := materializeConnectorPlanJob_spec h
  have hrow : (jobRow plan hostId name token key payload now).WellKeyed :=
    ⟨rfl, fun _ hid => by cases hid⟩
  have hinsert := evolves_insertOutbox hrow hs₁
  obtain ⟨t, rfl, hnext, hget⟩ := insertOutbox_spec hs₁
  obtain ⟨u, rfl, hlink⟩ := linkJob_spec h
  refine ⟨hinsert.next, hinsert.row, ?_⟩
  intro k j o hj ho
  change u.get? k = _ at hj
  rw [hlink] at hj
  obtain ⟨j₀, hj₀, rfl⟩ := Option.map_eq_some_iff.mp hj
  split at ho
  · obtain rfl := Option.some.inj ho
    refine .inr ⟨Nat.le_refl _, by dsimp only; omega, ?_⟩
    intro r hr
    change t.get? _ = _ at hr
    rw [hget, if_pos rfl] at hr
    rw [← Option.some.inj hr]
    rfl
  · exact .inl ⟨k, j₀, hj₀, ho⟩

lemma evolves_deleteOutbox {p : Nat → OutboxRow → Bool} (h : s.deleteOutbox p = .ok s') :
    Evolves s s' := by
  obtain ⟨-, rfl⟩ := deleteOutbox_spec h
  refine ⟨Nat.le_refl _, ?_, fun k j o hj ho => .inl ⟨k, j, hj, ho⟩⟩
  intro i r hr
  change (s.outbox.deleteWhere p).get? i = _ at hr
  rw [Relational.Constrained.get?_deleteWhere, Option.filter_eq_some_iff] at hr
  exact .inl ⟨r, hr.1, .refl r⟩

lemma evolves_deleteJobs (p : Nat → Job → Bool) : Evolves s (s.deleteJobs p) := by
  refine ⟨Nat.le_refl _, fun i r hr => .inl ⟨r, hr, .refl r⟩, ?_⟩
  intro k j o hj ho
  change (s.jobs.deleteWhere p).get? k = _ at hj
  rw [Relational.Constrained.get?_deleteWhere, Option.filter_eq_some_iff] at hj
  exact .inl ⟨k, j, hj.1, ho⟩

lemma evolves_deletePlans {p : Nat → Plan → Bool} (h : s.deletePlans p = .ok s') :
    Evolves s s' := by
  obtain ⟨-, rfl⟩ := deletePlans_spec h
  exact (evolves_deleteJobs fun _ j =>
    s.plans.table.any fun i r => p i r && i == j.planId).trans (Evolves.of_eq rfl rfl)

/-- Deliveries and then rows. -/
lemma evolves_pair {q : Nat → Delivery → Bool} {g : DeliveryState → DeliveryState}
    {p : Nat → OutboxRow → Bool} {f : OutboxState → OutboxState}
    (hf : ∀ r, (f r).deliveryKind = r.deliveryKind) :
    Evolves s ((s.updateDeliveries q g).updateOutbox p f) := by
  have hdeliveries : Evolves s (s.updateDeliveries q g) := Evolves.of_eq rfl rfl
  exact hdeliveries.trans (evolves_update hf)

/-! ### Plans -/

lemma evolves_extendAckDeadline (sourceId : Nat) (deadline now : Int) :
    Evolves s (s.extendAckDeadline sourceId deadline now) := by
  unfold extendAckDeadline
  split
  · have hroot : Evolves s (s.setOutbox sourceId fun r =>
        { r with
          priv := { r.priv with ackDeadlineAt := some deadline }
          nextAttemptAt := some deadline
          updatedAt := now }) := evolves_update fun _ => rfl
    dsimp only
    split
    · exact hroot.trans (Evolves.of_eq rfl rfl)
    · exact hroot
  · exact .refl s

lemma evolves_completePlan (planId : Nat) (plan : Plan) (now : Int) :
    Evolves s (s.completePlan planId plan now) := by
  unfold completePlan
  dsimp only
  split
  · unfold deliverSource
    refine Evolves.trans ?_ (evolves_pair ?_)
    · exact Evolves.of_eq rfl rfl
    · exact fun _ => rfl
  · unfold recordTombstone
    dsimp only
    split
    · exact Evolves.of_eq rfl rfl
    · exact Evolves.of_eq rfl rfl

lemma evolves_advancePlan (planId : Nat) (plan : Plan) (outboxStatus : OutboxStatus) (now : Int)
    (ttl : Option Int) : Evolves s (s.advancePlan planId plan outboxStatus now ttl) := by
  unfold advancePlan
  split
  · exact Evolves.of_eq rfl rfl
  · split
    · split
      · split
        · exact evolves_extendAckDeadline _ _ _
        · exact .refl s
      · exact evolves_completePlan _ _ _
    · exact .refl s

lemma evolves_afterOutbox (outboxId : Nat) (outboxStatus : OutboxStatus) (now : Int)
    (ttl : Option Int) :
    Evolves s (s.updatePresentationPlanAfterOutbox outboxId outboxStatus now ttl) := by
  unfold updatePresentationPlanAfterOutbox
  split
  · exact .refl s
  · next planId plan _ =>
    exact (evolves_advancePlan planId plan outboxStatus now ttl).trans (Evolves.of_eq rfl rfl)

lemma evolves_markObsolete (hostId name turnId : String) (keepPlanId : Nat) (now : Int) :
    Evolves s (s.markObsoletePresentationPlans hostId name turnId keepPlanId now).1 := by
  unfold markObsoletePresentationPlans
  refine Evolves.trans ?_ (evolves_update ?_)
  · refine Evolves.trans ?_ (evolves_update ?_)
    · exact Evolves.of_eq rfl rfl
    · exact fun _ => rfl
  · exact fun _ => rfl

/-! ### Reclaim and exhaustion -/

lemma evolves_closeDelivery (k : Nat) (status : DeliveryStatus) (response : DeliveryResponse)
    (now : Int) : Evolves s (s.closeDelivery k status response now) := Evolves.of_eq rfl rfl

lemma evolves_endLease (i : Nat) (status : OutboxStatus) (next : Option Int)
    (priv : OutboxPrivate) (now : Int) : Evolves s (s.endLease i status next priv now) :=
  evolves_update fun _ => rfl

lemma evolves_endAwaitingAck (i : Nat) (status : OutboxStatus) (next : Option Int)
    (priv : OutboxPrivate) (now : Int) : Evolves s (s.endAwaitingAck i status next priv now) :=
  evolves_update fun _ => rfl

lemma evolves_reclaimLease {now : Int} {row : LeasedRow}
    (h : reclaimLease now s row = some s') : Evolves s s' := by
  have hclose : Evolves s (s.closeDelivery row.deliveryId .expired .expired now) :=
    evolves_closeDelivery _ _ _ _
  unfold reclaimLease at h
  split at h
  · cases h
  · dsimp only at h
    split at h
    · split at h
      · obtain rfl := Option.some.inj h
        exact (hclose.trans (evolves_endLease _ _ _ _ _)).trans (evolves_afterOutbox _ _ _ _)
      · obtain rfl := Option.some.inj h
        exact hclose
    · obtain rfl := Option.some.inj h
      exact hclose

lemma evolves_deadLetterJobRow (now : Int) (row : Nat × OutboxRow) :
    Evolves s (deadLetterJobRow now s row) := by
  unfold deadLetterJobRow setOutbox
  exact evolves_pair fun _ => rfl

lemma evolves_retryOverdueRoot (i : Nat) (root : OutboxRow) (k : Option Nat) (planId : Nat)
    (plan : Plan) (now : Int) : Evolves s (s.retryOverdueRoot i root k planId plan now) := by
  have hfail : Evolves s (s.failPlan planId) := Evolves.of_eq rfl rfl
  have hrows : Evolves s (((s.failPlan planId).unfinishedJobRows planId).foldl
      (deadLetterJobRow now) (s.failPlan planId)) :=
    foldl_invariant (fun _ row _ h => h.trans (evolves_deadLetterJobRow now row)) hfail
  refine hrows.trans (Evolves.trans ?_ (evolves_endAwaitingAck _ _ _ _ _))
  exact Evolves.of_eq rfl rfl

lemma evolves_deadLetterOverdueRoot (i : Nat) (root : OutboxRow) (k : Option Nat) (now : Int) :
    Evolves s (s.deadLetterOverdueRoot i root k now) := by
  refine Evolves.trans ?_ (evolves_endAwaitingAck _ _ _ _ _)
  exact Evolves.of_eq rfl rfl

lemma evolves_settleCompletedRoot (i : Nat) (root : OutboxRow) (k : Option Nat) (now : Int) :
    Evolves s (s.settleCompletedRoot i root k now) := by
  refine Evolves.trans ?_ (evolves_endAwaitingAck _ _ _ _ _)
  exact Evolves.of_eq rfl rfl

lemma evolves_activateWaiting (hostId name : String) (now : Int) :
    Evolves s (s.activateWaitingPresentationPlans hostId name now) := Evolves.of_eq rfl rfl

lemma evolves_reclaimAwaitingAck {now : Int} {row : Nat × OutboxRow}
    (h : reclaimAwaitingAck now s row = some s') : Evolves s s' := by
  unfold reclaimAwaitingAck at h
  dsimp only at h
  split at h
  · cases h
  · split at h
    · obtain rfl := Option.some.inj h
      exact (evolves_deadLetterOverdueRoot _ _ _ _).trans (evolves_activateWaiting _ _ _)
    · split at h
      · obtain rfl := Option.some.inj h
        exact evolves_settleCompletedRoot _ _ _ _
      · split at h
        · split at h
          · cases h
          · obtain rfl := Option.some.inj h
            exact (evolves_retryOverdueRoot _ _ _ _ _ _).trans (evolves_activateWaiting _ _ _)
        · obtain rfl := Option.some.inj h
          exact (evolves_deadLetterOverdueRoot _ _ _ _).trans (evolves_activateWaiting _ _ _)

theorem evolves_reclaim (hostId : String) (name : Option String) (now : Int) :
    Evolves s (s.connectorReclaimExpiredLeases hostId name now).1 := by
  have hleases : Evolves s (sweep (reclaimLease now) (s.leasedRows hostId name) s).1 :=
    sweep_invariant (fun _ _ _ _ h hstep => h.trans (evolves_reclaimLease hstep)) (.refl s)
  rw [connectorReclaimExpiredLeases_fst]
  exact sweep_invariant (P := Evolves s)
    (fun _ _ _ _ h hstep => h.trans (evolves_reclaimAwaitingAck hstep)) hleases

lemma evolves_exhaustRow (now : Int) (row : Nat × OutboxRow) :
    Evolves s (exhaustRow now s row) := by
  unfold exhaustRow setOutbox
  exact evolves_update fun _ => rfl

lemma evolves_markExhausted (hostId : String) (name : Option String) :
    Evolves s (s.markExhaustedPresentationPlans hostId name) := Evolves.of_eq rfl rfl

theorem evolves_exhaust (hostId : String) (name : Option String) (maxAttempts now : Int) :
    Evolves s (s.connectorExhaustRetryable hostId name maxAttempts now).1 := by
  have hrows : Evolves s ((s.exhaustedRows hostId name maxAttempts).foldl (exhaustRow now) s) :=
    foldl_invariant (fun _ row _ h => h.trans (evolves_exhaustRow now row)) (.refl s)
  exact hrows.trans (evolves_markExhausted _ _)

/-! ### Roots -/

lemma evolves_supersedeStale (hostId turnId : String) (revision : ContentRevision) (now : Int) :
    Evolves s (s.supersedeStaleFinalWork hostId turnId revision now) := by
  unfold supersedeStaleFinalWork supersedeRows
  refine Evolves.trans ?_ (evolves_pair ?_)
  · exact Evolves.of_eq rfl rfl
  · exact fun _ => rfl

lemma evolves_deletePlansOfRevision {hostId turnId : String} {revision : ContentRevision}
    (h : s.deletePlansOfRevision hostId turnId revision = .ok s') : Evolves s s' := by
  obtain ⟨s₃, hs₃, h⟩ := bind_eq_ok.mp h
  have hplans : Evolves s s₃ := by
    refine Evolves.trans ?_ (evolves_deletePlans hs₃)
    exact Evolves.of_eq rfl rfl
  refine hplans.trans (Evolves.trans ?_ (evolves_deleteOutbox h))
  exact Evolves.of_eq rfl rfl

lemma rootStart_isRoot (hostId turnId : String) (revision : ContentRevision)
    (payload : FinalPayload) (now : Int) :
    (s.rootStart hostId turnId revision payload now).deliveryKind.isRoot = true := by
  unfold rootStart
  split <;> rfl

/-- A root that stays a root, whatever its kind becomes. -/
lemma evolves_setRoot {t : Store} {i : Nat} {row : OutboxRow} {identity : FinalIdentity}
    {f : OutboxState → OutboxState} (hrow : s.outbox.get? i = some row)
    (hkey : row.deliveryKey = .revision identity) (ht : Evolves s t)
    (hf : ∀ r, (f r).deliveryKind.isRoot = true) : Evolves s (t.setOutbox i f) := by
  refine ht.trans (evolves_updateOutbox _ ?_)
  intro j r hr hj
  obtain rfl : j = i := by simpa using hj
  refine ⟨rfl, .inr ?_⟩
  have hdk : r.deliveryKey = .revision identity := by
    rcases ht.row j r hr with ⟨r₀, hr₀, hs⟩ | ⟨hle, -⟩
    · rw [hrow] at hr₀
      obtain rfl := Option.some.inj hr₀
      exact (congrArg OutboxKey.deliveryKey hs.key).trans hkey
    · have hlt : j < s.outbox.table.next := Relational.Table.get?_lt_next hrow
      omega
  change DeliveryKind.fits _ r.deliveryKey = true
  rw [hdk]
  exact DeliveryKind.fits_of_isRoot (hf r.toOutboxState) identity

lemma evolves_reactivates {hostId turnId : String} {revision : ContentRevision}
    {payload : FinalPayload} {now : Int}
    (h : ReactivatesTo s hostId turnId revision payload now s') : Evolves s s' := by
  rcases h with ⟨i, row, hroot, -, h⟩ | ⟨rfl, -⟩
  · obtain ⟨s₁, hs₁, h⟩ := bind_eq_ok.mp h
    obtain rfl := Except.ok.inj h
    obtain ⟨hrow, -, -, hkey⟩ := rootByKey?_spec hroot
    have hdel : Evolves s (s₁.deleteDeliveries fun _ d => d.outboxId == some i) :=
      (evolves_deletePlansOfRevision hs₁).trans (Evolves.of_eq rfl rfl)
    exact evolves_setRoot hrow hkey hdel fun _ => rootStart_isRoot _ _ _ _ _
  · exact .refl _

/-- What the payload of a final root is built from. -/
lemma finalReadyPayload_spec {hostId turnId : String} {revision : ContentRevision}
    {unroutable : Bool} {payload : FinalPayload}
    (h : s.finalReadyPayload hostId turnId revision unroutable = some payload) :
    ∃ canonical turn row, s.resolveCanonicalTurnId hostId turnId = some canonical ∧
      s.turn? hostId canonical = some turn ∧ s.revision? hostId canonical revision = some row ∧
      row.isCurrent = true ∧ revision.finalState = .complete ∧ revision.turnId = canonical ∧
      payload.finalIdentity = ⟨hostId, canonical, revision⟩ := by
  obtain ⟨canonical, hcanonical, h⟩ := Option.bind_eq_some_iff.mp h
  obtain ⟨turn, hturn, h⟩ := Option.bind_eq_some_iff.mp h
  obtain ⟨row, hrow, h⟩ := Option.bind_eq_some_iff.mp h
  obtain ⟨_, hcurrent, h⟩ := Option.bind_eq_some_iff.mp h
  obtain ⟨_, -, h⟩ := Option.bind_eq_some_iff.mp h
  have hc : row.isCurrent = true ∧ revision.finalState = .complete := by
    simpa using hcurrent
  obtain ⟨⟨k, r⟩, hfirst, rfl⟩ := Option.map_eq_some_iff.mp hrow
  obtain ⟨hget, hp⟩ := Relational.Table.first?_eq_some hfirst
  have hcheck := s.revisions.check_of_get? hget
  simp only [Bool.and_eq_true, beq_iff_eq] at hp
  have hturnId : r.contentRevision.turnId = r.turnId := by simpa [revisionSchema] using hcheck
  rw [hp.2, hp.1.2] at hturnId
  refine ⟨canonical, turn, r, hcanonical, hturn, hrow, hc.1, hc.2, hturnId, ?_⟩
  rw [← Option.some.inj h]

lemma wellKeyed_newRoot {hostId : String} {revision : ContentRevision} {payload : FinalPayload}
    (h : s.finalReadyPayload hostId revision.turnId revision true = some payload) (t : Store)
    (now : Int) : (t.newRoot hostId revision.turnId revision payload now).WellKeyed := by
  obtain ⟨canonical, _, _, -, -, -, -, -, hturn, hid⟩ := finalReadyPayload_spec h
  constructor
  · exact DeliveryKind.fits_of_isRoot (rootStart_isRoot _ _ _ _ _) _
  · intro identity hkey
    change DeliveryKey.revision payload.finalIdentity = _ at hkey
    rw [hid] at hkey
    rw [← DeliveryKey.revision.inj hkey]
    exact ⟨rfl, congrArg some hturn, rfl, rfl, hturn⟩

lemma evolves_discard (hostId turnId : String) (revision : ContentRevision) :
    Evolves s (s.discardAcknowledgedFinalReplay hostId turnId revision) := by
  unfold discardAcknowledgedFinalReplay
  split
  · exact .refl s
  · dsimp only
    split
    · exact Evolves.of_eq rfl rfl
    · exact Evolves.of_eq rfl rfl

lemma evolves_insertOutboxOrIgnore {r : OutboxRow} (hr : r.WellKeyed)
    (h : s.insertOutboxOrIgnore r = .ok s') : Evolves s s' := by
  rcases insertOutboxOrIgnore_cases h with ⟨rfl, -⟩ | ⟨-, h⟩
  · exact .refl _
  · exact evolves_insertOutbox hr h

theorem evolves_ensure {hostId : String} {revision : ContentRevision} {now : Int}
    {id : Option Nat}
    (h : s.ensureFinalReadyAnchor hostId revision.turnId revision now = .ok (s', id)) :
    Evolves s s' := by
  rcases ensureFinalReadyAnchor_cases h with ⟨-, rfl⟩ | ⟨payload, hp, h⟩
  · exact .refl _
  · rcases h with ⟨-, -, rfl⟩ | ⟨-, -, rfl⟩ | ⟨s₁, hs₁, h⟩
    · exact .refl _
    · exact evolves_discard _ _ _
    · exact ((evolves_reactivates hs₁).trans (evolves_supersedeStale _ _ _ _)).trans
        (evolves_insertOutboxOrIgnore (wellKeyed_newRoot hp _ _) h)

/-! ### Commit and recovery -/

lemma evolves_addJob {planId : Nat} {hostId name : String} {token : PlanToken}
    {common : JobCommon} {now : Int} {j : JobSpec}
    (h : addJob planId hostId name token common now s j = .ok s') : Evolves s s' := by
  obtain ⟨s₁, hs₁, h⟩ := addJob_spec h
  exact (evolves_insertJob rfl hs₁).trans (evolves_materialize h)

lemma evolves_materializeCommit {w : CommitWork} {now : Int}
    (h : s.materializeCommit w now = .ok s') : Evolves s s' := by
  obtain ⟨s₁, hs₁, h⟩ := bind_eq_ok.mp h
  have hstaged : Evolves s s₁ := foldlM_invariant (P := Evolves s)
    (fun _ _ _ _ ht hstep => ht.trans (evolves_materialize hstep)) (.refl s) hs₁
  exact foldlM_invariant (P := Evolves s)
    (fun _ _ _ _ ht hstep => ht.trans (evolves_addJob hstep)) hstaged h

lemma evolves_holdSource {live : Option LiveRef} {generation footprint : Nat} {deadline now : Int}
    (h : s.holdSource live generation footprint deadline now = .ok s') : Evolves s s' := by
  unfold holdSource at h
  split at h
  · obtain ⟨_, _, -, -, -, -, -, rfl⟩ := awaitAcknowledgement_spec h
    exact evolves_pair fun _ => rfl
  · rw [Except.ok.inj h]
    exact .refl _

lemma evolves_startPlan (w : CommitWork) (now : Int) : Evolves s (s.startPlan w now).1 := by
  have hobsolete : Evolves s (s.markObsoletePresentationPlans w.plan.hostId w.plan.name
      w.plan.turnId w.planId now).1 := evolves_markObsolete _ _ _ _ _
  exact hobsolete.trans (Evolves.of_eq rfl rfl)

theorem evolves_planCommit {req : PlanCommit} {now : Int} {receipt : PlanReceipt}
    (h : s.prepareConnectorPlanCommit req now = .ok (s', receipt)) : Evolves s s' := by
  rcases prepareConnectorPlanCommit_cases h with rfl | ⟨_, _, w, s₁, _, _, -, -, -, hs₁, h⟩
  · exact .refl _
  · exact ((evolves_materializeCommit hs₁).trans (evolves_startPlan w now)).trans
      (evolves_holdSource h)

lemma evolves_pruneRecoveries {plan : Plan} (h : s.pruneRecoveries plan = .ok s') :
    Evolves s s' := by
  unfold pruneRecoveries at h
  dsimp only at h
  split at h
  · rw [← Except.ok.inj h]
    exact Evolves.of_eq rfl rfl
  · refine Evolves.trans ?_ (evolves_deletePlans h)
    exact Evolves.of_eq rfl rfl

lemma evolves_deleteUnacknowledged {lineage : Nat → Bool}
    (h : s.deleteUnacknowledged lineage = .ok s') : Evolves s s' := by
  refine Evolves.trans ?_ (evolves_deleteOutbox h)
  refine Evolves.trans ?_ (evolves_deleteJobs _)
  exact Evolves.of_eq rfl rfl

lemma evolves_finalizeRecovered {failedId recoveredId : Nat}
    (h : s.finalizeRecoveredPlanMaterialization failedId recoveredId = .ok s') :
    Evolves s s' := by
  rcases finalizeRecovered_cases h with ⟨-, rfl⟩ | ⟨_, s₂, -, hs₂, h⟩
  · exact .refl _
  · refine Evolves.trans ?_ (evolves_pruneRecoveries h)
    refine Evolves.trans ?_ (evolves_deleteUnacknowledged hs₂)
    exact Evolves.of_eq rfl rfl

theorem evolves_planRecover {req : PlanRecover} {now : Int} {receipt : RecoveryReceipt}
    (h : s.prepareConnectorPlanRecover req now = .ok (s', receipt)) : Evolves s s' := by
  rcases prepareConnectorPlanRecover_cases h with rfl | ⟨_, _, w, -, -, h⟩
  · exact .refl _
  · obtain ⟨s₁, s₂, s₃, hs₁, hs₂, hs₃, h⟩ := materializeRecovery_spec h
    obtain ⟨t, rfl, -⟩ := insertPlan_spec hs₁
    have hplan : Evolves s { s with plans := t } := Evolves.of_eq rfl rfl
    have hjobs : Evolves s s₂ := foldlM_invariant (P := Evolves s)
      (fun _ _ _ _ ht hstep => ht.trans (evolves_addJob hstep)) hplan hs₂
    obtain ⟨u, rfl, -⟩ := insertRecovery_spec hs₃
    have haudit : Evolves s₂ { s₂ with recoveries := u } := Evolves.of_eq rfl rfl
    exact (hjobs.trans haudit).trans (evolves_finalizeRecovered h)

theorem evolves_planBegin {req : PlanBegin} {now : Int} {receipt : PlanReceipt}
    (h : s.prepareConnectorPlanBegin req now = .ok (s', receipt)) : Evolves s s' := by
  obtain ⟨-, _, _, _, -, -, ⟨-, h⟩ | ⟨_, _, -, -, rfl | ⟨_, -, -, -, rfl⟩⟩⟩ :=
    prepareConnectorPlanBegin_cases h
  · obtain ⟨t, rfl, -⟩ := insertPlan_spec h
    exact Evolves.of_eq rfl rfl
  · exact .refl _
  · exact Evolves.of_eq rfl rfl

theorem evolves_planPart {hostId name : String} {token : PlanToken} {ordinal : Nat}
    {spans : List Span} {now : Int} {accepted : Nat}
    (h : s.prepareConnectorPlanPart hostId name token ordinal spans now = .ok (s', accepted)) :
    Evolves s s' := by
  obtain ⟨_, _, -, rfl | ⟨-, -, h⟩⟩ := prepareConnectorPlanPart_cases h
  · exact .refl _
  · exact evolves_insertJob rfl h

/-! ### Leases -/

lemma evolves_leaseRow (req : PollRequest) (now : Int) (row : Nat × OutboxRow) :
    Evolves s (s.leaseRow req now row) := by
  unfold leaseRow
  refine Evolves.trans ?_ (evolves_update ?_)
  · exact Evolves.of_eq rfl rfl
  · exact fun _ => rfl

lemma evolves_leaseRows (req : PollRequest) (now : Int) (rows : List (Nat × OutboxRow))
    (items : List PollItem) : Evolves s (leaseRows req now rows s items).1 := by
  induction rows generalizing s items with
  | nil => exact .refl s
  | cons row rows ih => exact (evolves_leaseRow req now row).trans (ih _)

lemma evolves_beforePoll (req : PollRequest) (now : Int) : Evolves s (s.beforePoll req now) := by
  unfold beforePoll
  dsimp only
  split
  · exact evolves_reclaim _ _ _
  · exact ((evolves_reclaim _ _ _).trans (evolves_exhaust _ _ _ _)).trans
      (evolves_markExhausted _ _)

theorem evolves_poll (req : PollRequest) (now : Int) :
    Evolves s (s.pollConnectorOutbox req now).1 :=
  (evolves_beforePoll req now).trans (evolves_leaseRows _ _ _ _)

theorem evolves_renew {hostId name : String} {ref : Nat} {leaseSeconds now : Int}
    {receipt : RenewReceipt}
    (h : s.renewConnectorDelivery hostId name ref leaseSeconds now = .ok (s', receipt)) :
    Evolves s s' := by
  obtain ⟨s₁, live, renewed, hlive, rfl⟩ := renewConnectorDelivery_spec h
  obtain ⟨rfl, -⟩ := reclaimedLiveRef_spec hlive
  refine (evolves_reclaim hostId (some name) now).trans ?_
  unfold extendLease setDelivery
  exact evolves_pair fun _ => rfl

theorem evolves_release {hostId name : String} {ref : Nat} {now : Int} {receipt : SettleReceipt}
    (h : s.releaseConnectorDelivery hostId name ref now = .ok (s', receipt)) : Evolves s s' := by
  obtain ⟨s₁, live, status, response, next, hlive, -, rfl⟩ := releaseConnectorDelivery_spec h
  obtain ⟨rfl, -⟩ := reclaimedLiveRef_spec hlive
  refine (evolves_reclaim hostId (some name) now).trans ?_
  exact ((evolves_closeDelivery _ _ _ _).trans (evolves_endLease _ _ _ _ _)).trans
    (evolves_afterOutbox _ _ _ _)

lemma evolves_settleMigrationGroup (i : Nat) (group : Option String) (now : Int) :
    Evolves s (s.settleMigrationGroup i group now) := by
  unfold settleMigrationGroup
  split
  · exact .refl s
  · refine Evolves.trans ?_ (evolves_update ?_)
    · exact evolves_update fun _ => rfl
    · exact fun _ => rfl

lemma evolves_acknowledge (live : LiveRef) (now : Int) :
    Evolves s (s.acknowledge live now) := by
  unfold acknowledge setDelivery setOutbox
  exact evolves_pair fun _ => rfl

theorem evolves_ack {hostId name : String} {ref : Nat} {ttl now : Int} {receipt : SettleReceipt}
    (h : s.ackConnectorDelivery hostId name ref ttl now = .ok (s', receipt)) : Evolves s s' := by
  obtain ⟨s₁, live, hlive, -, rfl⟩ := ackConnectorDelivery_spec h
  obtain ⟨rfl, -⟩ := reclaimedLiveRef_spec hlive
  refine (evolves_reclaim hostId (some name) now).trans ?_
  exact ((evolves_acknowledge _ _).trans (evolves_settleMigrationGroup _ _ _)).trans
    (evolves_afterOutbox _ _ _ _)

theorem evolves_setback {setback : Setback} {hostId name : String} {ref : Nat}
    {availableAt delaySeconds : Option Int} {now : Int} {receipt : SettleReceipt}
    (h : s.setbackConnectorDelivery setback hostId name ref availableAt delaySeconds now =
      .ok (s', receipt)) : Evolves s s' := by
  obtain ⟨s₁, live, result, next, priv, hlive, -, rfl⟩ := setbackConnectorDelivery_spec h
  obtain ⟨rfl, -⟩ := reclaimedLiveRef_spec hlive
  refine (evolves_reclaim hostId (some name) now).trans ?_
  refine Evolves.trans ?_ (evolves_afterOutbox _ _ _ _)
  unfold settleSetback setDelivery setOutbox
  exact evolves_pair fun _ => rfl

lemma evolves_retireStaleRoot (i : Nat) (root : OutboxRow) (now : Int) :
    Evolves s (s.retireStaleRoot i root now) := by
  unfold retireStaleRoot
  exact evolves_pair fun _ => rfl

theorem evolves_finalRetry {hostId : String} {identity : FinalIdentity} {now : Int}
    {receipt : FinalRetryReceipt}
    (h : s.retryFinalReadyDelivery hostId identity now = .ok (s', receipt)) : Evolves s s' := by
  obtain ⟨i, root, hroot, -, ⟨-, rfl⟩ | ⟨_, _, h⟩ | ⟨payload, -, -, rfl⟩⟩ :=
    retryFinalReadyDelivery_cases h
  · exact evolves_retireStaleRoot _ _ _
  · exact evolves_planRecover h
  · obtain ⟨hrow, -, -, hkey⟩ := rootByKey?_spec hroot
    have hdel : Evolves s (s.deleteDeliveries fun _ d => d.outboxId == some i) :=
      Evolves.of_eq rfl rfl
    exact evolves_setRoot hrow hkey hdel fun _ => rfl

/-! ### Runs -/

theorem respects_evolves : Respects Evolves where
  refl := .refl
  trans := .trans
  write _ _ _ := Evolves.of_eq rfl rfl
  ensure := evolves_ensure
  enqueue := evolves_insertOutboxOrIgnore ⟨rfl, fun _ hid => by cases hid⟩
  poll _ := evolves_poll
  renew := evolves_renew
  release := evolves_release
  ack := evolves_ack
  setback := evolves_setback
  reclaim _ := evolves_reclaim
  exhaust _ := evolves_exhaust
  planBegin := evolves_planBegin
  planPart := evolves_planPart
  planCommit := evolves_planCommit
  planRecover := evolves_planRecover
  finalRetry := evolves_finalRetry

/-- Keys are well formed and the rows of jobs are job rows. -/
structure Keyed (s : Store) : Prop where
  row : ∀ i r, s.outbox.get? i = some r → r.WellKeyed
  job : ∀ k j o, s.jobs.get? k = some j → j.outboxId = some o → o < s.outbox.table.next ∧
    ∀ r, s.outbox.get? o = some r → r.deliveryKey.isJob = true

theorem Keyed.evolves (hk : s.Keyed) (h : Evolves s s') : s'.Keyed := by
  constructor
  · intro i r' hr'
    rcases h.row i r' hr' with ⟨r, hr, hs⟩ | ⟨-, hnew⟩
    · exact (hk.row i r hr).of_same hs
    · exact hnew
  · intro k j o hj ho
    rcases h.job k j o hj ho with ⟨k₀, j₀, hj₀, ho₀⟩ | ⟨-, hlt, hkey⟩
    · obtain ⟨hlt, hkey⟩ := hk.job k₀ j₀ o hj₀ ho₀
      refine ⟨Nat.lt_of_lt_of_le hlt h.next, ?_⟩
      intro r' hr'
      rcases h.row o r' hr' with ⟨r, hr, hs⟩ | ⟨hle, -⟩
      · have hdk : r'.deliveryKey = r.deliveryKey := congrArg OutboxKey.deliveryKey hs.key
        rw [hdk]
        exact hkey r hr
      · omega
    · exact ⟨hlt, hkey⟩

lemma keyed_initial (supersessions : Relational.Constrained supersessionSchema) :
    (initial supersessions).Keyed := by
  constructor
  · intro i r hr
    simp [initial] at hr
  · intro k j o hj
    simp [initial] at hj

end Store

end Tendwire.Connector

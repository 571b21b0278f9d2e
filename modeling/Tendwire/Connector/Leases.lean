import Tendwire.Connector.Machine
import Tendwire.Protocol.LeasePairing

/-!
# Leases of the outbox

A leased outbox row and a leased delivery each record the lease. Every operation of the
connector closes both halves, opens both halves or leaves both alone, so the two stay paired.
-/

namespace Tendwire.Connector

open Protocol Protocol.LeaseView Transition

def OutboxState.currentLease (r : OutboxState) : Option (Option Lease) :=
  if r.status = .leased then some r.priv.lease else none

def DeliveryState.currentLease (d : DeliveryState) : Option (Option Nat × Option Lease) :=
  if d.status = .leased then some (d.outboxId, d.lease) else none

def leaseHolder (lease : Option Lease) : Option Nat := lease.map (·.deliveryId)

namespace Store

variable {s s' s'' : Store}

def leaseView (s : Store) : LeaseView Nat Nat (Option Lease) where
  lease i := (s.outbox.get? i).bind (·.currentLease)
  held k := (s.deliveries.get? k).bind (·.currentLease)

abbrev LeasesPaired (s : Store) : Prop := Paired leaseHolder s.leaseView

/-- From paired leases, what an operation without a new lease does to them. -/
def Settles (s s' : Store) : Prop :=
  s.LeasesPaired → s'.LeasesPaired ∧ Narrows s.leaseView s'.leaseView

lemma Settles.refl (s : Store) : Settles s s := fun h => ⟨h, Narrows.refl _⟩

lemma Settles.trans (h : Settles s s') (h' : Settles s' s'') : Settles s s'' := by
  intro hp
  obtain ⟨hp', hs⟩ := h hp
  obtain ⟨hp'', hs'⟩ := h' hp'
  exact ⟨hp'', hs.trans hs'⟩

lemma Settles.of_view_eq (h : s'.leaseView = s.leaseView) : Settles s s' := by
  intro hp
  unfold LeasesPaired
  rw [h]
  exact ⟨hp, Narrows.refl _⟩

lemma Settles.of_closes {closed : Nat → Prop}
    (h : s.LeasesPaired → Closes closed s.leaseView s'.leaseView) : Settles s s' :=
  fun hp => ⟨hp.closes (h hp), (h hp).narrows⟩

/-! ### Views after the statements -/

lemma lease_updateOutbox (p : Nat → OutboxRow → Bool) (f : OutboxState → OutboxState) (i : Nat) :
    (s.updateOutbox p f).leaseView.lease i = (s.outbox.get? i).bind fun r =>
      if p i r then (f r.toOutboxState).currentLease else r.currentLease := by
  change ((s.updateOutbox p f).outbox.get? i).bind _ = _
  rw [updateOutbox, Relational.Constrained.get?_updateKeep]
  cases s.outbox.get? i with
  | none => rfl
  | some r =>
    by_cases hp : p i r <;> simp [hp, OutboxRow.mapState]

lemma held_updateDeliveries (p : Nat → Delivery → Bool) (f : DeliveryState → DeliveryState)
    (k : Nat) : (s.updateDeliveries p f).leaseView.held k = (s.deliveries.get? k).bind fun d =>
      if p k d then (f d.toDeliveryState).currentLease else d.currentLease := by
  change ((s.updateDeliveries p f).deliveries.get? k).bind _ = _
  rw [updateDeliveries, Relational.Table.get?_updateWhere]
  cases s.deliveries.get? k with
  | none => rfl
  | some d =>
    by_cases hp : p k d <;> simp [hp, Delivery.mapState]

lemma leaseView_ext (hlease : ∀ i, s'.leaseView.lease i = s.leaseView.lease i)
    (hheld : ∀ k, s'.leaseView.held k = s.leaseView.held k) : s'.leaseView = s.leaseView := by
  have h₁ := funext hlease
  have h₂ := funext hheld
  cases hv : s'.leaseView
  cases hw : s.leaseView
  rw [hv, hw] at h₁ h₂
  simp_all

lemma leaseView_updateOutbox {p : Nat → OutboxRow → Bool} {f : OutboxState → OutboxState}
    (h : ∀ i r, p i r → (f r.toOutboxState).currentLease = r.currentLease) :
    (s.updateOutbox p f).leaseView = s.leaseView := by
  apply leaseView_ext
  · intro i
    rw [lease_updateOutbox]
    change _ = (s.outbox.get? i).bind _
    cases s.outbox.get? i with
    | none => rfl
    | some r =>
      by_cases hp : p i r
      · simp [hp, h i r hp]
      · simp [hp]
  · exact fun _ => rfl

lemma leaseView_updateDeliveries {p : Nat → Delivery → Bool} {f : DeliveryState → DeliveryState}
    (h : ∀ k d, p k d → (f d.toDeliveryState).currentLease = d.currentLease) :
    (s.updateDeliveries p f).leaseView = s.leaseView := by
  apply leaseView_ext
  · exact fun _ => rfl
  · intro k
    rw [held_updateDeliveries]
    change _ = (s.deliveries.get? k).bind _
    cases s.deliveries.get? k with
    | none => rfl
    | some d =>
      by_cases hp : p k d
      · simp [hp, h k d hp]
      · simp [hp]

lemma leaseView_updatePlans (p : Nat → Plan → Bool) (f : PlanProgress → PlanProgress) :
    (s.updatePlans p f).leaseView = s.leaseView := rfl

lemma leaseView_insertDelivery {d : Delivery} (h : d.status ≠ .leased) :
    (s.insertDelivery d).leaseView = s.leaseView := by
  apply leaseView_ext
  · exact fun _ => rfl
  · intro k
    change ((s.deliveries.insert d).get? k).bind _ = (s.deliveries.get? k).bind _
    rw [Relational.Table.get?_insert]
    split
    · next hk =>
      rw [hk, Relational.Table.get?_eq_none_of_next_le (Nat.le_refl _)]
      simp [DeliveryState.currentLease, h]
    · rfl

/-! ### Closing -/

/-- Everything on the rows in `C` is closed, on both sides. -/
lemma closes_of {C : Nat → Bool}
    (hlease : ∀ i, s'.leaseView.lease i = (s.leaseView.lease i).filter fun _ => !C i)
    (hheld : ∀ k, s'.leaseView.held k = (s.leaseView.held k).filter fun x => !x.1.any C) :
    Closes (C · = true) s.leaseView s'.leaseView := by
  constructor
  · intro i l
    rw [hlease, Option.filter_eq_some_iff]
    simp
  · intro k r l
    rw [hheld, Option.filter_eq_some_iff]
    cases r with
    | none => simp
    | some r => simp

/-- The deliveries of some rows are closed and the rows leave their leased status. -/
lemma closes_update {C : Nat → Bool} {p : Nat → OutboxRow → Bool} {q : Nat → Delivery → Bool}
    {f : OutboxState → OutboxState} {g : DeliveryState → DeliveryState}
    (hp : ∀ i r, r.status = .leased → p i r = C i) (hf : ∀ r, (f r).status ≠ .leased)
    (hq : ∀ k d, d.status = .leased → q k d = d.outboxId.any C)
    (hg : ∀ d, (g d).status ≠ .leased) :
    Closes (C · = true) s.leaseView ((s.updateDeliveries q g).updateOutbox p f).leaseView := by
  have hfc : ∀ r, (f r).currentLease = none := fun r => by simp [OutboxState.currentLease, hf r]
  have hgc : ∀ d, (g d).currentLease = none := fun d => by simp [DeliveryState.currentLease, hg d]
  apply closes_of
  · intro i
    rw [lease_updateOutbox]
    change (s.outbox.get? i).bind _ = ((s.outbox.get? i).bind _).filter _
    cases s.outbox.get? i with
    | none => rfl
    | some r =>
      simp only [Option.bind_some, hfc]
      by_cases hl : r.status = .leased
      · rw [hp i r hl]
        cases C i <;> simp [OutboxState.currentLease, hl, Option.filter]
      · simp [OutboxState.currentLease, hl]
  · intro k
    change (s.updateDeliveries q g).leaseView.held k = _
    rw [held_updateDeliveries]
    change _ = ((s.deliveries.get? k).bind _).filter _
    cases s.deliveries.get? k with
    | none => rfl
    | some d =>
      simp only [Option.bind_some, hgc]
      by_cases hl : d.status = .leased
      · rw [hq k d hl]
        cases h : d.outboxId.any C <;> simp [DeliveryState.currentLease, hl, Option.filter, h]
      · simp [DeliveryState.currentLease, hl]

/-- A row and the delivery that holds its lease are closed together. -/
lemma settles_pair {i k : Nat} {p : Nat → OutboxRow → Bool} {q : Nat → Delivery → Bool}
    {f : OutboxState → OutboxState} {g : DeliveryState → DeliveryState}
    (hp : ∀ j r, r.status = .leased → p j r = (j == i)) (hf : ∀ r, (f r).status ≠ .leased)
    (hq : ∀ j d, s.deliveries.get? j = some d → d.status = .leased → q j d = (j == k))
    (hg : ∀ d, (g d).status ≠ .leased)
    (hrow : s.LeasesPaired → ∀ l, s.leaseView.lease i = some l → leaseHolder l = some k)
    (hheld : ∀ r l, s.leaseView.held k = some (r, l) → r = some i) :
    Settles s ((s.updateDeliveries q g).updateOutbox p f) := by
  have hfc : ∀ r, (f r).currentLease = none := fun r => by simp [OutboxState.currentLease, hf r]
  have hgc : ∀ d, (g d).currentLease = none := fun d => by simp [DeliveryState.currentLease, hg d]
  refine Settles.of_closes fun hpaired => hpaired.closes_one (hrow hpaired) hheld ?_ ?_
  · intro j l
    rw [lease_updateOutbox]
    change (s.outbox.get? j).bind _ = _ ↔ (s.outbox.get? j).bind _ = _ ∧ _
    cases s.outbox.get? j with
    | none => simp
    | some r =>
      simp only [Option.bind_some, hfc]
      by_cases hl : r.status = .leased
      · rw [hp j r hl]
        by_cases hj : j = i <;> simp [OutboxState.currentLease, hl, hj]
      · simp [OutboxState.currentLease, hl]
  · intro j x
    change (s.updateDeliveries q g).leaseView.held j = _ ↔ _
    rw [held_updateDeliveries]
    change (s.deliveries.get? j).bind _ = _ ↔ (s.deliveries.get? j).bind _ = _ ∧ _
    cases hd : s.deliveries.get? j with
    | none => simp
    | some d =>
      simp only [Option.bind_some, hgc]
      by_cases hl : d.status = .leased
      · rw [hq j d hd hl]
        by_cases hj : j = k <;> simp [DeliveryState.currentLease, hl, hj]
      · simp [DeliveryState.currentLease, hl]

/-! ### Plans -/

lemma leaseView_activateWaiting (hostId name : String) (now : Int) :
    (s.activateWaitingPresentationPlans hostId name now).leaseView = s.leaseView := rfl

lemma leaseView_markExhausted (hostId : String) (name : Option String) :
    (s.markExhaustedPresentationPlans hostId name).leaseView = s.leaseView := rfl

lemma leaseView_extendAckDeadline (sourceId : Nat) (deadline now : Int) :
    (s.extendAckDeadline sourceId deadline now).leaseView = s.leaseView := by
  unfold extendAckDeadline
  split
  · have h : (s.setOutbox sourceId fun r =>
        { r with
          priv := { r.priv with ackDeadlineAt := some deadline }
          nextAttemptAt := some deadline
          updatedAt := now }).leaseView = s.leaseView := leaseView_updateOutbox fun _ _ _ => rfl
    dsimp only
    split
    · exact (leaseView_updateDeliveries fun _ _ _ => rfl).trans h
    · exact h
  · rfl

lemma leaseView_deliverSource (sourceId : Nat) (now : Int) :
    (s.deliverSource sourceId now).leaseView = s.leaseView := by
  unfold deliverSource
  refine (leaseView_updateOutbox ?_).trans (leaseView_updateDeliveries ?_)
  · intro i r hp
    have h : r.status = .awaitingAck := by simp_all
    simp [OutboxState.currentLease, h]
  · intro k d hp
    have h : d.status = .awaitingAck := by simp_all
    simp [DeliveryState.currentLease, h]

lemma leaseView_recordTombstone (plan : Plan) (now : Int) :
    (s.recordTombstone plan now).leaseView = s.leaseView := by
  unfold recordTombstone
  dsimp only
  split
  · rfl
  · exact leaseView_insertDelivery (by simp)

lemma leaseView_advancePlan (planId : Nat) (plan : Plan) (outboxStatus : OutboxStatus) (now : Int)
    (ttl : Option Int) :
    (s.advancePlan planId plan outboxStatus now ttl).leaseView = s.leaseView := by
  unfold advancePlan
  split
  · rfl
  · split
    · split
      · split
        · exact leaseView_extendAckDeadline _ _ _
        · rfl
      · unfold completePlan
        dsimp only
        split
        · exact leaseView_deliverSource _ _
        · exact leaseView_recordTombstone _ _
    · rfl

lemma leaseView_updatePresentationPlanAfterOutbox (outboxId : Nat) (outboxStatus : OutboxStatus)
    (now : Int) (ttl : Option Int) :
    (s.updatePresentationPlanAfterOutbox outboxId outboxStatus now ttl).leaseView = s.leaseView := by
  unfold updatePresentationPlanAfterOutbox
  split
  · rfl
  · exact leaseView_advancePlan _ _ _ _ _

lemma leaseView_markObsolete (hostId name turnId : String) (keepPlanId : Nat) (now : Int) :
    (s.markObsoletePresentationPlans hostId name turnId keepPlanId now).1.leaseView =
      s.leaseView := by
  unfold markObsoletePresentationPlans
  refine (leaseView_updateOutbox fun _ _ _ => rfl).trans (leaseView_updateOutbox ?_)
  intro i r hp
  have h : r.status.pollable = true := by simp_all
  have hne : r.status ≠ .leased := fun heq => by simp [heq, OutboxStatus.pollable] at h
  simp [OutboxState.currentLease, hne]

end Store

end Tendwire.Connector

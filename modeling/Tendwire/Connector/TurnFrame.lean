import Tendwire.Connector.Roots

/-!
# What ensuring a root leaves of the turn tables

The connector reads the turns and their revisions. The only statement of it that changes them is
the discard of a replayed final whose acknowledgement is all that is left.
-/

namespace Tendwire.Connector.Store

variable {s s' s'' : Store}

/-- The turn tables are the same, and no delivery is new. -/
structure KeepsTurns (s s' : Store) : Prop where
  turns : s'.turns = s.turns
  revisions : s'.revisions = s.revisions
  deliveries : ∀ k, s.deliveries.get? k = none → s'.deliveries.get? k = none

lemma KeepsTurns.refl (s : Store) : KeepsTurns s s := ⟨rfl, rfl, fun _ h => h⟩

lemma KeepsTurns.trans (h : KeepsTurns s s') (h' : KeepsTurns s' s'') : KeepsTurns s s'' :=
  ⟨h'.turns.trans h.turns, h'.revisions.trans h.revisions,
    fun k hk => h'.deliveries k (h.deliveries k hk)⟩

lemma keepsTurns_supersedeRows (p : Nat → Bool) (now : Int) :
    KeepsTurns s (s.supersedeRows p now) := by
  refine ⟨rfl, rfl, fun k hk => ?_⟩
  unfold supersedeRows updateOutbox
  simp [hk]

lemma keepsTurns_supersedeStale (hostId turnId : String) (revision : ContentRevision)
    (now : Int) : KeepsTurns s (s.supersedeStaleFinalWork hostId turnId revision now) := by
  have hplans : KeepsTurns s (s.updatePlans (fun i _ => s.stalePlan hostId turnId revision i)
      fun p => { p with state := .superseded }) := ⟨rfl, rfl, fun _ h => h⟩
  exact hplans.trans (keepsTurns_supersedeRows _ _)

lemma keepsTurns_insertOutboxOrIgnore {r : OutboxRow} (h : s.insertOutboxOrIgnore r = .ok s') :
    KeepsTurns s s' := by
  obtain ⟨rfl, -⟩ | ⟨-, h⟩ := insertOutboxOrIgnore_cases h
  · exact .refl s'
  · obtain ⟨t, rfl, -⟩ := insertOutbox_spec h
    exact ⟨rfl, rfl, fun _ h => h⟩

lemma keepsTurns_deleteOutbox {p : Nat → OutboxRow → Bool} (h : s.deleteOutbox p = .ok s') :
    KeepsTurns s s' := by
  obtain ⟨-, rfl⟩ := deleteOutbox_spec h
  refine ⟨rfl, rfl, fun k hk => ?_⟩
  simp [hk]

lemma keepsTurns_deletePlans {p : Nat → Plan → Bool} (h : s.deletePlans p = .ok s') :
    KeepsTurns s s' := by
  obtain ⟨-, rfl⟩ := deletePlans_spec h
  exact ⟨rfl, rfl, fun _ h => h⟩

lemma keepsTurns_deleteDeliveries (p : Nat → Delivery → Bool) :
    KeepsTurns s (s.deleteDeliveries p) := by
  refine ⟨rfl, rfl, fun k hk => ?_⟩
  rw [deleteDeliveries, Relational.Table.get?_deleteWhere, hk]
  rfl

lemma keepsTurns_deletePlansOfRevision {hostId turnId : String} {revision : ContentRevision}
    (h : s.deletePlansOfRevision hostId turnId revision = .ok s') : KeepsTurns s s' := by
  unfold deletePlansOfRevision at h
  obtain ⟨s₃, h₃, h⟩ := bind_eq_ok.mp h
  have hplans := keepsTurns_deletePlans h₃
  refine KeepsTurns.trans ⟨hplans.turns, hplans.revisions, hplans.deliveries⟩ ?_
  exact (keepsTurns_deleteDeliveries _).trans (keepsTurns_deleteOutbox h)

lemma keepsTurns_reactivateFinalRoot {hostId turnId : String} {revision : ContentRevision}
    {outboxId : Nat} {priv : OutboxPrivate} {latest : Option Nat} {start : RootStart}
    {payload : FinalPayload} {now : Int}
    (h : s.reactivateFinalRoot hostId turnId revision outboxId priv latest start payload now =
      .ok s') : KeepsTurns s s' := by
  unfold reactivateFinalRoot at h
  obtain ⟨s₁, h₁, h⟩ := bind_eq_ok.mp h
  obtain rfl := Except.ok.inj h
  have hdeleted := keepsTurns_deleteDeliveries (s := s₁) fun _ d => d.outboxId == some outboxId
  exact (keepsTurns_deletePlansOfRevision h₁).trans
    ⟨hdeleted.turns, hdeleted.revisions, hdeleted.deliveries⟩

lemma keepsTurns_reactivates {hostId turnId : String} {revision : ContentRevision}
    {payload : FinalPayload} {now : Int}
    (h : ReactivatesTo s hostId turnId revision payload now s') : KeepsTurns s s' := by
  obtain ⟨i, row, -, -, h⟩ | ⟨rfl, -⟩ := h
  · exact keepsTurns_reactivateFinalRoot h
  · exact .refl s'

/-- Ensuring a root keeps the turn tables, unless an acknowledged tombstone of it discards the
replay. -/
theorem ensureFinalReadyAnchor_turns {hostId turnId : String} {revision : ContentRevision}
    {now : Int} {id : Option Nat}
    (h : s.ensureFinalReadyAnchor hostId turnId revision now = .ok (s', id)) :
    KeepsTurns s s' ∨ ∃ payload, s.finalReadyPayload hostId turnId revision true = some payload ∧
      s.rootByKey? hostId (.revision payload.finalIdentity) = none ∧
      s.hasAcknowledgedTombstone hostId turnFinalName (.revision payload.finalIdentity) = true ∧
      s' = s.discardAcknowledgedFinalReplay hostId turnId revision := by
  obtain ⟨-, rfl⟩ | ⟨payload, hp, ⟨-, -, rfl⟩ | ⟨hnone, htomb, hs⟩ | ⟨s₁, hs₁, hs⟩⟩ :=
    ensureFinalReadyAnchor_cases h
  · exact .inl (.refl s')
  · exact .inl (.refl s')
  · exact .inr ⟨payload, hp, hnone, htomb, hs⟩
  · refine .inl ((keepsTurns_reactivates hs₁).trans ?_)
    exact (keepsTurns_supersedeStale _ _ _ _).trans (keepsTurns_insertOutboxOrIgnore hs)

lemma hasAcknowledgedTombstone_of_empty (h : ∀ k, s.deliveries.get? k = none)
    (hostId name : String) (key : DeliveryKey) :
    s.hasAcknowledgedTombstone hostId name key = false := by
  unfold hasAcknowledgedTombstone
  rw [Relational.Table.any_eq_false_iff]
  intro i d hd
  rw [h i] at hd
  cases hd

end Tendwire.Connector.Store

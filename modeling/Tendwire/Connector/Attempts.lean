import Tendwire.Connector.Upkeep

/-!
# Attempts

A row carries the attempts of earlier retry windows and numbers those of the current window from
one. Only a poll adds an attempt, and an operation that drops the attempts of a row either drops
the row too or carries them over.
-/

namespace Tendwire.Connector

open Relational Transition

namespace Store

variable {s s' s'' : Store} {now : Int}

/-- The delivery ended by a release, or by the expiry of its acknowledgement deadline. -/
def returned (s : Store) (k : Nat) : Bool :=
  (s.deliveries.get? k).any fun d =>
    d.status == .released || d.status == .failed && d.response == .ackDeadlineExpired

/-- What the attempts of the rows add up to, with at most `m` in a retry window besides those that
were given back. -/
structure Accounted (m : Nat) (granted : Nat → Nat) (back : Nat → Bool) (s : Store) : Prop where
  total : ∀ i r, s.outbox.get? i = some r → r.priorAttempts + (s.attemptsOf i).length = granted i
  numbered : ∀ i, (s.attemptsOf i).map Prod.snd = List.range' 1 (s.attemptsOf i).length
  fresh : ∀ i, s.outbox.table.next ≤ i → s.attemptsOf i = [] ∧ granted i = 0
  budget : ∀ i, (s.attemptsOf i).length ≤ m + (s.attemptsOf i).countP fun e => back e.1

/-- An operation that grants no attempt. -/
structure Tallies (s s' : Store) : Prop where
  attempts : ∀ i, s'.attemptsOf i = s.attemptsOf i ∨ s'.attemptsOf i = []
  account : ∀ {m granted back}, Accounted m granted back s → Accounted m granted back s'

namespace Tallies

protected lemma refl (s : Store) : Tallies s s := ⟨fun _ => .inl rfl, id⟩

protected lemma trans (h : Tallies s s') (h' : Tallies s' s'') : Tallies s s'' where
  attempts i := by
    rcases h'.attempts i with heq | hnil
    · rw [heq]
      exact h.attempts i
    · exact .inr hnil
  account ha := h'.account (h.account ha)

/-- The rows in `q` have lost their attempts; those that are still there carry them over. -/
lemma of_rows {q : Nat → Bool}
    (hattempts : ∀ i, s'.attemptsOf i = if q i then [] else s.attemptsOf i)
    (hnext : s'.outbox.table.next = s.outbox.table.next)
    (hrow : ∀ i r', s'.outbox.get? i = some r' → ∃ r, s.outbox.get? i = some r ∧
      r'.priorAttempts = r.priorAttempts + if q i then (s.attemptsOf i).length else 0) :
    Tallies s s' where
  attempts i := by
    rw [hattempts]
    split
    · exact .inr rfl
    · exact .inl rfl
  account ha := by
    refine ⟨?_, ?_, ?_, ?_⟩
    · intro i r' hr'
      obtain ⟨r, hr, hprior⟩ := hrow i r' hr'
      rw [hprior, hattempts, ← ha.total i r hr]
      split
      · simp
      · simp
    · intro i
      rw [hattempts]
      split
      · simp
      · exact ha.numbered i
    · intro i hi
      obtain ⟨hnil, hzero⟩ := ha.fresh i (hnext ▸ hi)
      rw [hattempts, hnil]
      exact ⟨ite_self _, hzero⟩
    · intro i
      rw [hattempts]
      split
      · simp
      · exact ha.budget i

lemma of_same (houtbox : s'.outbox = s.outbox) (hdeliveries : s'.deliveries = s.deliveries) :
    Tallies s s' := by
  apply of_rows (q := fun _ => false)
  · intro i
    unfold attemptsOf
    rw [hdeliveries]
    rfl
  · rw [houtbox]
  · intro i r hr
    rw [houtbox] at hr
    exact ⟨r, hr, rfl⟩

lemma of_upkeep (h : Upkeep s s') : Tallies s s' := by
  apply of_rows (q := fun _ => false)
  · exact h.attempts
  · exact h.next
  · intro i r' hr'
    obtain ⟨r, hr, hcarries⟩ := h.row_back hr'
    exact ⟨r, hr, hcarries.2⟩

/-- A new row has no attempts. -/
lemma insertOutbox {r : OutboxRow} (hr : r.priv.priorAttemptCount = 0)
    (h : s.insertOutbox r = .ok s') : Tallies s s' := by
  obtain ⟨t, rfl, hnext, ht⟩ := insertOutbox_spec h
  refine ⟨fun _ => .inl rfl, fun ha => ⟨?_, ha.numbered, ?_, ha.budget⟩⟩
  · intro i r' hr'
    change t.get? i = some r' at hr'
    rw [ht] at hr'
    split at hr'
    · next hi =>
      obtain ⟨hnil, hzero⟩ := ha.fresh i (Nat.le_of_eq hi.symm)
      rw [← Option.some.inj hr']
      change r.priorAttempts + (s.attemptsOf i).length = _
      rw [hnil, hzero]
      simp [OutboxRow.priorAttempts, hr]
    · exact ha.total i r' hr'
  · intro i hi
    change t.table.next ≤ i at hi
    exact ha.fresh i (by omega)

lemma insertOutboxOrIgnore {r : OutboxRow} (hr : r.priv.priorAttemptCount = 0)
    (h : s.insertOutboxOrIgnore r = .ok s') : Tallies s s' := by
  rcases insertOutboxOrIgnore_cases h with ⟨rfl, -⟩ | ⟨-, h⟩
  · exact .refl _
  · exact insertOutbox hr h

end Tallies

/-! ### Deleting attempts and rows -/

lemma attemptsOf_deleteDeliveries (q : Nat → Bool) (i : Nat) :
    (s.deleteDeliveries fun _ d => d.outboxId.any q).attemptsOf i =
      if q i then [] else s.attemptsOf i := by
  unfold attemptsOf deleteDeliveries Table.deleteWhere Table.select
  dsimp only
  rw [List.filter_filter]
  split
  · next hq =>
    rw [List.map_eq_nil_iff, List.filter_eq_nil_iff]
    intro e _
    simp only [Bool.and_eq_true, beq_iff_eq, Bool.not_eq_true', not_and]
    intro hid
    simp [hid, hq]
  · next hq =>
    congr 1
    apply List.filter_congr
    intro e _
    by_cases hid : e.2.outboxId = some i
    · simp [hid, hq]
    · simp [hid]

/-- Deliveries that lose their row are attempts of no row. -/
lemma attemptsOf_disown (q : Nat → Bool) (i : Nat) :
    (s.updateDeliveries (fun _ d => d.outboxId.any q)
      fun d => { d with outboxId := none }).attemptsOf i =
        if q i then [] else s.attemptsOf i := by
  unfold attemptsOf updateDeliveries Table.updateWhere Table.select
  dsimp only
  rw [List.filter_map, List.map_map]
  split
  · next hq =>
    rw [List.map_eq_nil_iff, List.filter_eq_nil_iff]
    intro e _
    dsimp only [Function.comp_apply]
    split
    · simp [Delivery.mapState]
    · next hkept =>
      rw [beq_iff_eq]
      intro howner
      simp [howner, hq] at hkept
  · next hq =>
    have howned : ∀ e : Nat × Delivery, e.2.outboxId = some i → e.2.outboxId.any q = false := by
      intro e howner
      simpa [howner] using hq
    have hfilter : s.deliveries.rows.filter ((fun e : Nat × Delivery => e.2.outboxId == some i) ∘
        fun e => if e.2.outboxId.any q = true then
          (e.1, e.2.mapState fun d => { d with outboxId := none }) else e) =
        s.deliveries.rows.filter fun e => e.2.outboxId == some i := by
      apply List.filter_congr
      intro e _
      dsimp only [Function.comp_apply]
      split
      · next hdisowned =>
        have hne : e.2.outboxId ≠ some i := by
          intro howner
          rw [howned e howner] at hdisowned
          cases hdisowned
        simp [Delivery.mapState, hne]
      · rfl
    rw [hfilter]
    apply List.map_congr_left
    intro e _
    dsimp only [Function.comp_apply]
    split
    · rfl
    · rfl

lemma attemptsOf_deleteOutbox {p : Nat → OutboxRow → Bool} (h : s.deleteOutbox p = .ok s')
    (i : Nat) : s'.attemptsOf i =
      if s.outbox.table.any (fun j r => p j r && i == j) then [] else s.attemptsOf i := by
  obtain ⟨-, rfl⟩ := deleteOutbox_spec h
  have hdisowned : (fun (_ : Nat) (d : Delivery) =>
      s.outbox.table.any fun j r => p j r && d.outboxId == some j) =
      fun _ d => d.outboxId.any fun i => s.outbox.table.any fun j r => p j r && i == j := by
    funext _ d
    cases d.outboxId with
    | none => simp [Table.any]
    | some i => simp
  unfold attemptsOf
  dsimp only
  rw [hdisowned]
  exact attemptsOf_disown _ i

/-- The rows in `q` are gone with their attempts. -/
structure Drops (q : Nat → Bool) (s s' : Store) : Prop where
  attempts : ∀ i, s'.attemptsOf i = if q i then [] else s.attemptsOf i
  next : s'.outbox.table.next = s.outbox.table.next
  row : ∀ i r, s'.outbox.get? i = some r → s.outbox.get? i = some r ∧ q i = false

lemma Drops.tallies {q : Nat → Bool} (h : Drops q s s') : Tallies s s' := by
  apply Tallies.of_rows (q := q)
  · exact h.attempts
  · exact h.next
  · intro i r hr
    obtain ⟨hr₀, hq⟩ := h.row i r hr
    exact ⟨r, hr₀, by simp [hq]⟩

lemma drops_deleteOutbox {t : Store} {q : Nat → Bool} (houtbox : t.outbox = s.outbox)
    (hdeliveries : t.deliveries = (s.deleteDeliveries fun _ d => d.outboxId.any q).deliveries)
    (h : t.deleteOutbox (fun i _ => q i) = .ok s') : Drops q s s' where
  attempts i := by
    have hdropped : t.attemptsOf i = if q i then [] else s.attemptsOf i := by
      rw [← attemptsOf_deleteDeliveries]
      unfold attemptsOf
      rw [hdeliveries]
    rw [attemptsOf_deleteOutbox h, hdropped]
    by_cases hq : q i = true
    · simp [hq]
    · have hnone : (t.outbox.table.any fun j _ => q j && i == j) = false := by
        rw [Table.any_eq_false_iff]
        intro j r _
        by_cases hj : i = j
        · subst hj
          simpa using hq
        · simp [hj]
      rw [hnone]
      simp [hq]
  next := by
    obtain ⟨-, rfl⟩ := deleteOutbox_spec h
    exact congrArg (fun o => o.table.next) houtbox
  row i r hr := by
    obtain ⟨-, rfl⟩ := deleteOutbox_spec h
    dsimp only at hr
    rw [Constrained.get?_deleteWhere, houtbox] at hr
    obtain ⟨hr₀, hq⟩ := Option.filter_eq_some_iff.mp hr
    exact ⟨hr₀, by simpa using hq⟩

/-! ### Roots -/

lemma drops_deletePlansOfRevision {hostId turnId : String} {revision : ContentRevision}
    (h : s.deletePlansOfRevision hostId turnId revision = .ok s') :
    Drops (s.isJobOf (s.planOfRevision hostId turnId revision)) s s' := by
  obtain ⟨s₃, hs₃, h⟩ := bind_eq_ok.mp h
  obtain ⟨-, rfl⟩ := deletePlans_spec hs₃
  apply drops_deleteOutbox ?_ ?_ h
  · rfl
  · rfl

lemma deliveryCount_eq (i : Nat) : s.deliveryCount i = (s.attemptsOf i).length := by
  unfold deliveryCount attemptsOf
  rw [List.length_map]

lemma tallies_reactivates {hostId turnId : String} {revision : ContentRevision}
    {payload : FinalPayload} (h : ReactivatesTo s hostId turnId revision payload now s') :
    Tallies s s' := by
  rcases h with ⟨i, row, hroot, -, h⟩ | ⟨rfl, -⟩
  · obtain ⟨hrow, -, hname, -⟩ := rootByKey?_spec hroot
    obtain ⟨s₁, hs₁, h⟩ := bind_eq_ok.mp h
    have hdrops := drops_deletePlansOfRevision hs₁
    generalize s.isJobOf (s.planOfRevision hostId turnId revision) = q at hdrops
    obtain rfl := Except.ok.inj h
    apply Tallies.of_rows (q := fun j => q j || i == j)
    · intro j
      change (s₁.deleteDeliveries fun _ d => d.outboxId == some i).attemptsOf j = _
      have howner : (fun (_ : Nat) (d : Delivery) => d.outboxId == some i) =
          fun _ d => d.outboxId.any (i == ·) := by
        funext _ d
        cases d.outboxId with
        | none => rfl
        | some k => simp [eq_comm]
      rw [howner, attemptsOf_deleteDeliveries, hdrops.attempts]
      by_cases hj : i = j
      · simp [hj]
      · simp [hj]
    · exact hdrops.next
    · intro j r hr
      rw [outbox_setOutbox] at hr
      obtain ⟨r₁, hr₁, rfl⟩ := Option.map_eq_some_iff.mp hr
      obtain ⟨hr₀, hq⟩ := hdrops.row j r₁ hr₁
      refine ⟨r₁, hr₀, ?_⟩
      by_cases hj : j = i
      · subst hj
        obtain rfl := Option.some.inj (hrow.symm.trans hr₀)
        simp [OutboxRow.priorAttempts, OutboxRow.mapState, hname, reactivatedPrivate,
          OutboxPrivate.clearCurrent, OutboxPrivate.clearTerminalDiagnostic, deliveryCount_eq]
      · simp [hj, hq, Ne.symm hj]
  · exact .refl _

lemma prior_newRoot (hostId turnId : String) (revision : ContentRevision) (payload : FinalPayload) :
    (s.newRoot hostId turnId revision payload now).priv.priorAttemptCount = 0 := by
  unfold newRoot rootStart
  dsimp only
  split
  · rfl
  · rfl

lemma tallies_discard (hostId turnId : String) (revision : ContentRevision) :
    Tallies s (s.discardAcknowledgedFinalReplay hostId turnId revision) := by
  unfold discardAcknowledgedFinalReplay
  split
  · exact .refl s
  · dsimp only
    split
    · exact .of_same rfl rfl
    · exact .of_same rfl rfl

theorem tallies_ensure {hostId turnId : String} {revision : ContentRevision} {id : Option Nat}
    (h : s.ensureFinalReadyAnchor hostId turnId revision now = .ok (s', id)) : Tallies s s' := by
  rcases ensureFinalReadyAnchor_cases h with ⟨-, rfl⟩ | ⟨payload, -, h⟩
  · exact .refl _
  · rcases h with ⟨-, -, rfl⟩ | ⟨-, -, rfl⟩ | ⟨s₁, hs₁, h⟩
    · exact .refl _
    · exact tallies_discard _ _ _
    · have hsuperseded : Tallies s₁ (s₁.supersedeStaleFinalWork hostId turnId revision now) :=
        .of_upkeep (upkeep_supersedeStaleFinalWork hostId turnId revision)
      have hinserted := Tallies.insertOutboxOrIgnore (prior_newRoot _ _ _ _) h
      exact ((tallies_reactivates hs₁).trans hsuperseded).trans hinserted

lemma tallies_requeueRoot {i : Nat} {root : OutboxRow} (hroot : s.outbox.get? i = some root)
    (hname : root.connector = turnFinalName) (payload : FinalPayload) :
    Tallies s (s.requeueRoot i root payload now) := by
  apply Tallies.of_rows (q := fun j => i == j)
  · intro j
    change (s.deleteDeliveries fun _ d => d.outboxId == some i).attemptsOf j = _
    have howner : (fun (_ : Nat) (d : Delivery) => d.outboxId == some i) =
        fun _ d => d.outboxId.any (i == ·) := by
      funext _ d
      cases d.outboxId with
      | none => rfl
      | some k => simp [eq_comm]
    rw [howner, attemptsOf_deleteDeliveries]
  · rfl
  · intro j r hr
    unfold requeueRoot at hr
    dsimp only at hr
    rw [outbox_setOutbox] at hr
    obtain ⟨r₀, hr₀, rfl⟩ := Option.map_eq_some_iff.mp hr
    refine ⟨r₀, hr₀, ?_⟩
    by_cases hj : j = i
    · subst hj
      obtain rfl := Option.some.inj (hroot.symm.trans hr₀)
      simp [OutboxRow.priorAttempts, OutboxRow.mapState, hname, OutboxPrivate.clearCurrent,
        OutboxPrivate.clearTerminalDiagnostic, deliveryCount_eq]
    · simp [hj, Ne.symm hj]

/-! ### Plans -/

lemma tallies_materialize {planId jobId : Nat} {hostId name : String} {token : PlanToken}
    {payload : PartPayload}
    (h : s.materializeConnectorPlanJob planId jobId hostId name token payload now = .ok s') :
    Tallies s s' := by
  obtain ⟨_, _, s₁, -, hs₁, h⟩ := materializeConnectorPlanJob_spec h
  obtain ⟨u, rfl, -⟩ := linkJob_spec h
  exact (Tallies.insertOutbox rfl hs₁).trans (.of_same rfl rfl)

lemma tallies_addJobs {planId : Nat} {hostId name : String} {token : PlanToken}
    {common : JobCommon} {specs : List JobSpec}
    (h : specs.foldlM (addJob planId hostId name token common now) s = .ok s') : Tallies s s' := by
  refine foldlM_invariant (P := Tallies s) ?_ (.refl s) h
  intro t j t' _ ht hstep
  obtain ⟨t₁, ht₁, hstep⟩ := addJob_spec hstep
  obtain ⟨u, rfl, -⟩ := insertJob_spec ht₁
  have hjob : Tallies t { t with jobs := u } := .of_same rfl rfl
  exact (ht.trans hjob).trans (tallies_materialize hstep)

theorem tallies_planBegin {req : PlanBegin} {receipt : PlanReceipt}
    (h : s.prepareConnectorPlanBegin req now = .ok (s', receipt)) : Tallies s s' := by
  obtain ⟨-, _, _, _, -, -, ⟨-, h⟩ | ⟨_, _, -, -, rfl | ⟨_, -, -, -, rfl⟩⟩⟩ :=
    prepareConnectorPlanBegin_cases h
  · obtain ⟨t, rfl, -⟩ := insertPlan_spec h
    exact .of_same rfl rfl
  · exact .refl _
  · exact .of_same rfl rfl

theorem tallies_planPart {hostId name : String} {token : PlanToken} {ordinal : Nat}
    {spans : List Span} {accepted : Nat}
    (h : s.prepareConnectorPlanPart hostId name token ordinal spans now = .ok (s', accepted)) :
    Tallies s s' := by
  unfold prepareConnectorPlanPart at h
  obtain ⟨_, -, h⟩ := bind_eq_ok.mp h
  obtain ⟨⟨planId, plan⟩, -, h⟩ := bind_eq_ok.mp h
  obtain ⟨_, -, h⟩ := bind_eq_ok.mp h
  obtain ⟨row, -, h⟩ := bind_eq_ok.mp h
  obtain ⟨_, -, h⟩ := bind_eq_ok.mp h
  split at h
  · obtain ⟨_, -, h⟩ := bind_eq_ok.mp h
    rw [← (Prod.mk.inj (Except.ok.inj h)).1]
    exact .refl s
  · obtain ⟨_, -, h⟩ := bind_eq_ok.mp h
    obtain ⟨s₁, hs₁, h⟩ := bind_eq_ok.mp h
    rw [← (Prod.mk.inj (Except.ok.inj h)).1]
    obtain ⟨u, rfl, -⟩ := insertJob_spec hs₁
    exact .of_same rfl rfl

theorem tallies_planCommit {req : PlanCommit} {receipt : PlanReceipt}
    (h : s.prepareConnectorPlanCommit req now = .ok (s', receipt)) : Tallies s s' := by
  rcases prepareConnectorPlanCommit_cases h with rfl | ⟨_, _, w, s₁, _, _, -, -, -, hs₁, h⟩
  · exact .refl _
  · obtain ⟨s₀, hs₀, hs₁⟩ := bind_eq_ok.mp hs₁
    have hstaged : Tallies s s₀ := by
      refine foldlM_invariant (P := Tallies s) ?_ (.refl s) hs₀
      exact fun t j t' _ ht hstep => ht.trans (tallies_materialize hstep)
    have hstarted : Tallies s₁ (s₁.startPlan w now).1 :=
      (Tallies.of_upkeep (upkeep_markObsolete _ _ _ _)).trans (.of_same rfl rfl)
    exact ((hstaged.trans (tallies_addJobs hs₁)).trans hstarted).trans
      (.of_upkeep (upkeep_holdSource h))

lemma tallies_finalizeRecovered {failedId recoveredId : Nat}
    (h : s.finalizeRecoveredPlanMaterialization failedId recoveredId = .ok s') : Tallies s s' := by
  rcases finalizeRecovered_cases h with ⟨-, rfl⟩ | ⟨_, s₂, -, hs₂, h⟩
  · exact .refl _
  · have hdeleted : Tallies s s₂ := by
      refine Drops.tallies (drops_deleteOutbox ?_ ?_ hs₂)
      · rfl
      · rfl
    refine hdeleted.trans ?_
    unfold pruneRecoveries at h
    dsimp only at h
    split at h
    · rw [← Except.ok.inj h]
      exact .of_same rfl rfl
    · obtain ⟨-, rfl⟩ := deletePlans_spec h
      exact .of_same rfl rfl

theorem tallies_planRecover {req : PlanRecover} {receipt : RecoveryReceipt}
    (h : s.prepareConnectorPlanRecover req now = .ok (s', receipt)) : Tallies s s' := by
  rcases prepareConnectorPlanRecover_cases h with rfl | ⟨_, _, w, -, -, h⟩
  · exact .refl _
  · obtain ⟨s₁, s₂, s₃, hs₁, hs₂, hs₃, h⟩ := materializeRecovery_spec h
    obtain ⟨t, rfl, -⟩ := insertPlan_spec hs₁
    obtain ⟨u, rfl, -⟩ := insertRecovery_spec hs₃
    have hplan : Tallies s { s with plans := t } := .of_same rfl rfl
    have haudit : Tallies s₂ { s₂ with recoveries := u } := .of_same rfl rfl
    exact ((hplan.trans (tallies_addJobs hs₂)).trans haudit).trans (tallies_finalizeRecovered h)

theorem tallies_finalRetry {hostId : String} {identity : FinalIdentity}
    {receipt : FinalRetryReceipt}
    (h : s.retryFinalReadyDelivery hostId identity now = .ok (s', receipt)) : Tallies s s' := by
  obtain ⟨i, root, hroot, -, ⟨-, rfl⟩ | ⟨_, _, h⟩ | ⟨payload, -, -, rfl⟩⟩ :=
    retryFinalReadyDelivery_cases h
  · exact .of_upkeep (upkeep_retireStaleRoot (rootByKey?_spec hroot).1)
  · exact tallies_planRecover h
  · obtain ⟨hget, -, hname, -⟩ := rootByKey?_spec hroot
    exact tallies_requeueRoot hget hname payload

end Store

end Tendwire.Connector

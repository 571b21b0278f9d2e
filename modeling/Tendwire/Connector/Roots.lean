import Tendwire.Connector.Plans

/-!
# Final roots

Every current complete final of a turn has one root row, keyed by its revision. A transaction
that touches the turn ensures the root and supersedes what older revisions left.
-/

namespace Tendwire.Connector

/-- `delivery_kind IN ('final_ready', 'final_migration_hold')`. -/
def DeliveryKind.isRoot : DeliveryKind → Bool
  | .finalReady | .finalMigrationHold => true
  | _ => false

/-- `delivery_kind GLOB 'final_*'`. -/
def DeliveryKind.isFinal : DeliveryKind → Bool
  | .generic => false
  | .finalReady | .finalPart | .finalMigrationHold => true

/-- `json_extract(payload_json, '$.content_revision')`. -/
def Payload.contentRevision? : Payload → Option ContentRevision
  | .final p => some p.contentRevision
  | .part p => some p.contentRevision
  | .generic _ => none

/-- `status NOT IN ('delivered', 'superseded')`. -/
def OutboxStatus.supersedable : OutboxStatus → Bool
  | .delivered | .superseded => false
  | _ => true

namespace Store

variable (s : Store)

def rootByKey? (hostId : String) (key : DeliveryKey) : Option (Nat × OutboxRow) :=
  s.outbox.table.first? fun _ r => r.hostId == hostId && r.connector == turnFinalName &&
    r.deliveryKey == key

def newestRoot? (hostId turnId : String) (revision : ContentRevision) : Option (Nat × OutboxRow) :=
  s.outbox.table.newest? fun _ r => r.hostId == hostId && r.connector == turnFinalName &&
    r.turnId == some turnId && r.contentRevision == some revision && r.deliveryKind.isRoot

def sourceLessAuthoritativeRoute (hostId turnId : String) (revision : ContentRevision) :
    Option FinalPayload := do
  let route ← match s.newestRoot? hostId turnId revision with
    | some (_, root) =>
      if root.deliveryKind == .finalReady && root.status == .delivered then
        root.payload.final?
      else
        none
    | none => s.finalReadyPayload hostId turnId revision false
  guard (route.turnId == turnId && route.contentRevision == revision &&
    route.finalIdentity == ⟨hostId, turnId, revision⟩ &&
    route.stableKey.any validFinalStableKey &&
    !s.finalRevisionIsInternalAutomation hostId turnId revision)
  return route

/-! ### Superseding older revisions -/

/-- Supersedes the deliveries and the rows that meet `p`. -/
def supersedeRows (p : Nat → Bool) (now : Int) : Store :=
  (s.updateDeliveries (fun _ d => d.outboxId.any p && d.status != .delivered) fun d =>
    { d with
      status := .superseded
      response := .superseded
      deliveredAt := some (d.deliveredAt.getD now) }).updateOutbox
    (fun i r => p i && r.status.supersedable)
    fun r => { r with
      status := .superseded
      nextAttemptAt := none
      updatedAt := now
      priv := r.priv.clearCurrent }

def staleRoot (hostId turnId : String) (revision : ContentRevision) (i : Nat) : Bool :=
  (s.outbox.get? i).any fun r => r.hostId == hostId && r.connector == turnFinalName &&
    r.turnId == some turnId && r.deliveryKind.isRoot && r.contentRevision.any (· != revision) &&
    r.status.supersedable

def stalePlan (hostId turnId : String) (revision : ContentRevision) (i : Nat) : Bool :=
  (s.plans.get? i).any fun p => p.hostId == hostId && p.name == turnFinalName &&
    p.turnId == turnId && p.contentRevision != revision && p.state.open

def supersedeStaleFinalWork (hostId turnId : String) (revision : ContentRevision) (now : Int) :
    Store :=
  let stalePlan := s.stalePlan hostId turnId revision
  (s.updatePlans (fun i _ => stalePlan i) fun p => { p with state := .superseded }).supersedeRows
    (fun i => s.staleRoot hostId turnId revision i || s.isJobOf stalePlan i) now

/-! ### Reactivating a superseded root -/

def planOfRevision (hostId turnId : String) (revision : ContentRevision) (i : Nat) : Bool :=
  (s.plans.get? i).any fun p => p.hostId == hostId && p.name == turnFinalName &&
    p.turnId == turnId && p.contentRevision == revision

def plansOfRevision (hostId turnId : String) (revision : ContentRevision) : List Plan :=
  (s.plans.table.select fun i _ => s.planOfRevision hostId turnId revision i).map Prod.snd

/-- Deletes the plans of a revision with their audits and job rows. -/
def deletePlansOfRevision (hostId turnId : String) (revision : ContentRevision) : Txn Store := do
  let ofRevision := s.planOfRevision hostId turnId revision
  let jobRow := s.isJobOf ofRevision
  let s₁ := s.updatePlans (fun i p => ofRevision i && p.state.open)
    fun p => { p with state := .superseded }
  let s₂ := s₁.deleteRecoveries fun _ a => ofRevision a.failedPlanId || ofRevision a.recoveredPlanId
  let s₃ ← s₂.deletePlans fun i p => ofRevision i && !p.state.open
  (s₃.deleteDeliveries fun _ d => d.outboxId.any jobRow).deleteOutbox fun i _ => jobRow i

def reactivatedPrivate (plans : List Plan) (deliveries : Nat) (latestActivatedPlanId : Option Nat)
    (priv : OutboxPrivate) : OutboxPrivate :=
  { priv.clearCurrent.clearTerminalDiagnostic with
    presentationGeneration :=
      max (max 1 priv.presentationGeneration) ((plans.map (·.generation)).foldl max 0) + 1
    presentationMaxPartCount :=
      max priv.presentationMaxPartCount ((plans.map (·.partCount)).foldl max 0)
    priorAttemptCount := priv.priorAttemptCount + deliveries
    reactivatedAfterPlanId := latestActivatedPlanId.getD priv.reactivatedAfterPlanId }

/-- The row a root starts with: held back, or queued for polling. -/
structure RootStart where
  deliveryKind : DeliveryKind
  status : OutboxStatus
  priv : OutboxPrivate

def reactivateFinalRoot (hostId turnId : String) (revision : ContentRevision) (outboxId : Nat)
    (priv : OutboxPrivate) (latestActivatedPlanId : Option Nat) (start : RootStart)
    (payload : FinalPayload) (now : Int) : Txn Store := do
  let next := reactivatedPrivate (s.plansOfRevision hostId turnId revision)
    (s.deliveryCount outboxId) latestActivatedPlanId priv
  let s₁ ← s.deletePlansOfRevision hostId turnId revision
  return (s₁.deleteDeliveries fun _ d => d.outboxId == some outboxId).setOutbox outboxId fun r =>
    { r with
      deliveryKind := start.deliveryKind
      status := start.status
      payload := .final payload
      priv := next
      updatedAt := now
      nextAttemptAt := none }

/-! ### Ensuring the root of a revision -/

/-- The acknowledged final is gone from the connector: its replayed turn goes too. -/
def discardAcknowledgedFinalReplay (hostId turnId : String) (revision : ContentRevision) : Store :=
  if (s.outbox.table.any fun _ r => r.hostId == hostId && r.turnId == some turnId) ||
      s.plans.table.any fun _ p => p.hostId == hostId && p.turnId == turnId then
    s
  else
    let s₁ := { s with revisions := s.revisions.deleteWhere fun _ r =>
      r.hostId == hostId && r.turnId == turnId && r.contentRevision == revision }
    if s₁.revisions.table.any fun _ r => r.hostId == hostId && r.turnId == turnId then
      s₁
    else
      { s₁ with turns := s₁.turns.deleteWhere fun _ t => t.hostId == hostId && t.turnId == turnId }

def hasSourceLessDelivery (hostId turnId : String) (revision : ContentRevision) : Bool :=
  s.plans.table.any fun i p => p.hostId == hostId && p.name == turnFinalName &&
    p.turnId == turnId && p.contentRevision == revision && p.sourceOutboxId.isNone &&
    (p.state.live || p.state == .completed) &&
    s.jobs.table.any fun _ j => j.planId == i && j.outboxId.isSome

/-- The newest activated plan of the turn with an attempt on one of its jobs. -/
def latestActivated? (hostId turnId : String) : Option (Nat × Plan) :=
  s.plans.table.newest? fun i p => p.hostId == hostId && p.name == turnFinalName &&
    p.turnId == turnId && p.activatedAt.isSome &&
    s.jobs.table.any fun _ j => j.planId == i && j.outboxId.isSome &&
      s.deliveries.any fun _ d => d.outboxId == j.outboxId

def rootHeld (hostId turnId : String) (revision : ContentRevision) (payload : FinalPayload) : Bool :=
  payload.knownIncomplete || payload.stableKey.isNone ||
    s.finalRevisionIsInternalAutomation hostId turnId revision

def rootStart (hostId turnId : String) (revision : ContentRevision) (payload : FinalPayload)
    (now : Int) : RootStart :=
  if s.rootHeld hostId turnId revision payload then
    { deliveryKind := .finalMigrationHold
      status := .deadLetter
      priv := OutboxPrivate.empty.withTerminalDiagnostic 0 .migrationHold now }
  else
    { deliveryKind := .finalReady, status := .queued, priv := .empty }

def newRoot (hostId turnId : String) (revision : ContentRevision) (payload : FinalPayload)
    (now : Int) : OutboxRow :=
  let start := s.rootStart hostId turnId revision payload now
  { hostId
    connector := turnFinalName
    deliveryKey := .revision payload.finalIdentity
    turnId := some turnId
    contentRevision := some revision
    orderingKey := s.turnOrderingKey hostId turnId
    createdAt := now
    deliveryKind := start.deliveryKind
    status := start.status
    payload := .final payload
    priv := start.priv
    updatedAt := now
    nextAttemptAt := none }

/-- A superseded root comes back, and a delivered one after another revision was shown; but
only with the payload it was stored with. -/
def rootReactivates (revision : ContentRevision) (root : OutboxRow) (latest : Option (Nat × Plan))
    (payload : FinalPayload) : Bool :=
  (root.status == .superseded || (root.status == .delivered && latest.any fun e =>
    e.2.contentRevision != revision && root.priv.reactivatedAfterPlanId != e.1)) &&
  root.payload == .final payload

def reactivateIfDue (hostId turnId : String) (revision : ContentRevision)
    (existing : Option (Nat × OutboxRow)) (payload : FinalPayload) (now : Int) : Txn Store :=
  let latest := s.latestActivated? hostId turnId
  match existing with
  | some (outboxId, row) =>
    if rootReactivates revision row latest payload then
      s.reactivateFinalRoot hostId turnId revision outboxId row.priv (latest.map Prod.fst)
        (s.rootStart hostId turnId revision payload now) payload now
    else
      .ok s
  | none => .ok s

def ensureFinalReadyAnchor (hostId turnId : String) (revision : ContentRevision) (now : Int) :
    Txn (Store × Option Nat) := do
  match s.finalReadyPayload hostId turnId revision true with
  | none => return (s, none)
  | some payload =>
    let key := DeliveryKey.revision payload.finalIdentity
    let existing := s.rootByKey? hostId key
    if existing.isNone && s.hasSourceLessDelivery hostId turnId revision then
      return (s, none)
    if existing.isNone && s.hasAcknowledgedTombstone hostId turnFinalName key then
      return (s.discardAcknowledgedFinalReplay hostId turnId revision, none)
    let root := s.newRoot hostId turnId revision payload now
    let s₁ ← s.reactivateIfDue hostId turnId revision existing payload now
    let s₂ ← (s₁.supersedeStaleFinalWork hostId turnId revision now).insertOutboxOrIgnore root
    return (s₂, (s₂.rootByKey? hostId key).map Prod.fst)

/-! ### What ensuring does -/

variable {s} {s' : Store}

lemma rootByKey?_spec {hostId : String} {key : DeliveryKey} {i : Nat} {r : OutboxRow}
    (h : s.rootByKey? hostId key = some (i, r)) :
    s.outbox.get? i = some r ∧ r.hostId = hostId ∧ r.connector = turnFinalName ∧
      r.deliveryKey = key := by
  obtain ⟨hr, hp⟩ := Relational.Table.first?_eq_some h
  simp only [Bool.and_eq_true, beq_iff_eq] at hp
  exact ⟨hr, hp.1.1, hp.1.2, hp.2⟩

lemma rootStart_ne_leased (hostId turnId : String) (revision : ContentRevision)
    (payload : FinalPayload) (now : Int) :
    (s.rootStart hostId turnId revision payload now).status ≠ .leased := by
  unfold rootStart
  split <;> simp

/-- The root with the key that the ensured revision gives, reactivated if it has to be. -/
def ReactivatesTo (s : Store) (hostId turnId : String) (revision : ContentRevision)
    (payload : FinalPayload) (now : Int) (s₁ : Store) : Prop :=
  (∃ i row, s.rootByKey? hostId (.revision payload.finalIdentity) = some (i, row) ∧
    rootReactivates revision row (s.latestActivated? hostId turnId) payload = true ∧
    s.reactivateFinalRoot hostId turnId revision i row.priv
      ((s.latestActivated? hostId turnId).map Prod.fst)
      (s.rootStart hostId turnId revision payload now) payload now = .ok s₁) ∨
  (s₁ = s ∧ ∀ i row, s.rootByKey? hostId (.revision payload.finalIdentity) = some (i, row) →
    rootReactivates revision row (s.latestActivated? hostId turnId) payload = false)

theorem ensureFinalReadyAnchor_cases {hostId turnId : String} {revision : ContentRevision}
    {now : Int} {id : Option Nat}
    (h : s.ensureFinalReadyAnchor hostId turnId revision now = .ok (s', id)) :
    (s.finalReadyPayload hostId turnId revision true = none ∧ s' = s) ∨
    ∃ payload, s.finalReadyPayload hostId turnId revision true = some payload ∧
      ((s.rootByKey? hostId (.revision payload.finalIdentity) = none ∧
          s.hasSourceLessDelivery hostId turnId revision = true ∧ s' = s) ∨
        (s.rootByKey? hostId (.revision payload.finalIdentity) = none ∧
          s.hasAcknowledgedTombstone hostId turnFinalName (.revision payload.finalIdentity) = true ∧
          s' = s.discardAcknowledgedFinalReplay hostId turnId revision) ∨
        ∃ s₁, ReactivatesTo s hostId turnId revision payload now s₁ ∧
          (s₁.supersedeStaleFinalWork hostId turnId revision now).insertOutboxOrIgnore
            (s.newRoot hostId turnId revision payload now) = .ok s') := by
  unfold ensureFinalReadyAnchor at h
  split at h
  · next hp =>
    left
    exact ⟨hp, (Prod.mk.inj (Except.ok.inj h)).1.symm⟩
  · next payload hp =>
    right
    refine ⟨payload, hp, ?_⟩
    dsimp only at h
    split at h
    · next hc =>
      left
      rw [Bool.and_eq_true] at hc
      exact ⟨by simpa using hc.1, hc.2, (Prod.mk.inj (Except.ok.inj h)).1.symm⟩
    · split at h
      · next hc =>
        right
        left
        rw [Bool.and_eq_true] at hc
        exact ⟨by simpa using hc.1, hc.2, (Prod.mk.inj (Except.ok.inj h)).1.symm⟩
      · right
        right
        obtain ⟨s₁, hs₁, h⟩ := bind_eq_ok.mp h
        obtain ⟨s₂, hs₂, h⟩ := bind_eq_ok.mp h
        obtain rfl := (Prod.mk.inj (Except.ok.inj h)).1
        refine ⟨s₁, ?_, hs₂⟩
        unfold reactivateIfDue at hs₁
        dsimp only at hs₁
        split at hs₁
        · next i row he =>
          split at hs₁
          · next hr => exact .inl ⟨i, row, he, hr, hs₁⟩
          · next hr =>
            refine .inr ⟨(Except.ok.inj hs₁).symm, fun i' row' he' => ?_⟩
            rw [he] at he'
            obtain ⟨rfl, rfl⟩ := Prod.mk.inj (Option.some.inj he')
            simpa using hr
        · next he =>
          refine .inr ⟨(Except.ok.inj hs₁).symm, fun i' row' he' => ?_⟩
          rw [he] at he'
          cases he'

end Store

end Tendwire.Connector

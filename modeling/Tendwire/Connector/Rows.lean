import Tendwire.Relational.Schema

/-!
# Rows of the connector store

The rows of `connector_outbox`, `connector_deliveries`, the three `turn_presentation_*`
tables and the turn tables they read. Identities the store derives by hashing (content
revisions, final identities, plan tokens) are their preimages. Times are seconds.

A row is a fixed part, which no statement updates, and a mutable part.
-/

namespace Tendwire.Connector

/-! ### Identities -/

inductive ContentState where
  | absent | complete | knownIncomplete
  deriving DecidableEq, Repr

inductive TurnField where
  | userText | assistantFinalText
  deriving DecidableEq, Repr

structure ContentRevision where
  turnId : String
  userText : Option String
  finalText : Option String
  userState : ContentState
  finalState : ContentState
  deriving DecidableEq, Repr

structure FinalIdentity where
  hostId : String
  turnId : String
  contentRevision : ContentRevision
  deriving DecidableEq, Repr

mutual

inductive PlanToken where
  | plan (hostId name turnId : String) (contentRevision : ContentRevision)
      (presentationVersion : String) (partCount generation : Nat)
  | recovery (hostId name : String) (failed : PlanToken) (requestId : RequestId) (generation : Nat)
  deriving DecidableEq, Repr

/-- A consumer's label, or the one an operator retry derives from the failed plan. -/
inductive RequestId where
  | label (value : String)
  | finalRetry (hostId : String) (failed : PlanToken)
  deriving DecidableEq, Repr

end

inductive DeliveryKey where
  | revision (identity : FinalIdentity)
  | job (name : String) (token : PlanToken) (sequenceIndex : Nat)
  | other (key : String)
  deriving DecidableEq, Repr

/-! ### Payloads -/

structure ContentCursor where
  contentRevision : ContentRevision
  field : TurnField
  page : Nat
  startChar : Nat
  startByte : Nat
  deriving DecidableEq, Repr

structure FieldDescriptor where
  availability : ContentState
  charLength : Nat
  byteLength : Nat
  pageCount : Nat
  firstCursor : Option ContentCursor
  deriving DecidableEq, Repr

/-- The payload of a final root. A stable key makes it routable, schema version 2. -/
structure FinalPayload where
  finalIdentity : FinalIdentity
  turnId : String
  workerId : String
  spaceId : Option String
  contentRevision : ContentRevision
  knownIncomplete : Bool
  userText : FieldDescriptor
  assistantFinalText : FieldDescriptor
  stableKey : Option String
  deriving DecidableEq, Repr

def FinalPayload.schemaVersion (p : FinalPayload) : Nat := if p.stableKey.isSome then 2 else 1

inductive JobOperation where
  | upsert | retire
  deriving DecidableEq, Repr

structure Span where
  field : TurnField
  startChar : Nat
  endChar : Nat
  deriving DecidableEq, Repr

structure PartPayload where
  planToken : PlanToken
  contentRevision : ContentRevision
  presentationVersion : String
  partCount : Nat
  replacesPlanToken : Option PlanToken
  turn : Option FinalPayload
  predecessorJobKey : Option DeliveryKey
  operation : JobOperation
  sequenceIndex : Nat
  partOrdinal : Nat
  spans : List Span
  deriving DecidableEq, Repr

inductive Payload where
  | final (payload : FinalPayload)
  | part (payload : PartPayload)
  | generic (json : String)
  deriving DecidableEq, Repr

def Payload.final? : Payload → Option FinalPayload
  | .final p => some p
  | _ => none

def Payload.part? : Payload → Option PartPayload
  | .part p => some p
  | _ => none

/-! ### `connector_outbox` -/

inductive OutboxStatus where
  | queued | deferred | retry | leased | awaitingAck | delivered | deadLetter | superseded
  deriving DecidableEq, Repr

/-- `status IN ('queued', 'deferred', 'retry')`. -/
def OutboxStatus.pollable : OutboxStatus → Bool
  | .queued | .deferred | .retry => true
  | _ => false

/-- `status IN ('delivered', 'superseded', 'dead_letter')`. -/
def OutboxStatus.terminal : OutboxStatus → Bool
  | .delivered | .superseded | .deadLetter => true
  | _ => false

inductive DeliveryKind where
  | generic | finalReady | finalPart | finalMigrationHold
  deriving DecidableEq, Repr

/-- The five keys of the current lease, which the store writes and clears together. -/
structure Lease where
  deliveryId : Nat
  attempt : Nat
  leaseToken : Nat
  leaseExpiresAt : Int
  publicRef : Nat
  deriving DecidableEq, Repr

inductive Classification where
  | attemptsExhausted | ackDeadlineExpired | planUnrecoverable | migrationHold
  deriving DecidableEq, Repr

structure TerminalDiagnostic where
  attemptCount : Nat
  classification : Classification
  terminalizedAt : Int
  deriving DecidableEq, Repr

/-- `connector_outbox.private_state_json`; a missing counter is 0. -/
structure OutboxPrivate where
  lease : Option Lease
  terminalAfterLease : Bool
  ackDeadlineAt : Option Int
  ackTimeoutCount : Nat
  presentationGeneration : Nat
  presentationMaxPartCount : Nat
  priorAttemptCount : Nat
  reactivatedAfterPlanId : Nat
  terminalDiagnostic : Option TerminalDiagnostic
  migrationGroup : Option String
  deriving DecidableEq, Repr

def OutboxPrivate.empty : OutboxPrivate := ⟨none, false, none, 0, 0, 0, 0, 0, none, none⟩

structure OutboxKey where
  hostId : String
  connector : String
  deliveryKey : DeliveryKey
  turnId : Option String
  contentRevision : Option ContentRevision
  orderingKey : String
  createdAt : Int
  deriving DecidableEq, Repr

structure OutboxState where
  deliveryKind : DeliveryKind
  status : OutboxStatus
  payload : Payload
  priv : OutboxPrivate
  updatedAt : Int
  nextAttemptAt : Option Int
  deriving DecidableEq, Repr

structure OutboxRow extends OutboxKey, OutboxState
  deriving DecidableEq, Repr

def OutboxRow.mapState (f : OutboxState → OutboxState) (r : OutboxRow) : OutboxRow :=
  { r with toOutboxState := f r.toOutboxState }

def outboxSchema : Relational.Schema OutboxRow (String × String × DeliveryKey) where
  check := fun _ => true
  keys := [fun r => some (r.hostId, r.connector, r.deliveryKey)]

/-! ### `connector_deliveries` -/

inductive DeliveryStatus where
  | leased | awaitingAck | delivered | superseded | failed | deferred | expired | released
  deriving DecidableEq, Repr

/-- `response_json.status`. -/
inductive DeliveryResponse where
  | none | expired | acknowledged | released | superseded | retryScheduled | deferred
  | attemptsExhausted | prepared | ackDeadlineExpired | planUnrecoverable
  deriving DecidableEq, Repr

structure DeliveryKeyColumns where
  hostId : String
  connector : String
  deliveryKey : DeliveryKey
  attempt : Nat
  createdAt : Int
  deriving DecidableEq, Repr

structure DeliveryState where
  outboxId : Option Nat
  status : DeliveryStatus
  response : DeliveryResponse
  lease : Option Lease
  ackDeadlineAt : Option Int
  deliveredAt : Option Int
  deriving DecidableEq, Repr

structure Delivery extends DeliveryKeyColumns, DeliveryState
  deriving DecidableEq, Repr

def Delivery.mapState (f : DeliveryState → DeliveryState) (d : Delivery) : Delivery :=
  { d with toDeliveryState := f d.toDeliveryState }

/-! ### `turn_presentation_plans`, `_jobs` and `_recoveries` -/

inductive PlanState where
  | preparing | waitingPredecessor | active | completed | superseded | failed
  deriving DecidableEq, Repr

/-- `state IN ('active', 'waiting_predecessor')`. -/
def PlanState.live : PlanState → Bool
  | .active | .waitingPredecessor => true
  | _ => false

/-- `state IN ('preparing', 'waiting_predecessor', 'active', 'failed')`. -/
def PlanState.open : PlanState → Bool
  | .preparing | .waitingPredecessor | .active | .failed => true
  | _ => false

structure PlanColumns where
  hostId : String
  name : String
  planToken : PlanToken
  turnId : String
  contentRevision : ContentRevision
  presentationVersion : String
  generation : Nat
  partCount : Nat
  recoversPlanToken : Option PlanToken
  createdAt : Int
  deriving DecidableEq, Repr

structure PlanProgress where
  sourceOutboxId : Option Nat
  state : PlanState
  replacesPlanToken : Option PlanToken
  activatedAt : Option Int
  completedAt : Option Int
  deriving DecidableEq, Repr

structure Plan extends PlanColumns, PlanProgress
  deriving DecidableEq, Repr

def Plan.mapState (f : PlanProgress → PlanProgress) (p : Plan) : Plan :=
  { p with toPlanProgress := f p.toPlanProgress }

inductive PlanKey where
  | token (hostId name : String) (planToken : PlanToken)
  | generation (hostId name turnId : String) (contentRevision : ContentRevision)
      (presentationVersion : String) (generation : Nat)
  deriving DecidableEq

def planSchema : Relational.Schema Plan PlanKey where
  check := fun p => decide (1 ≤ p.generation) && decide (0 < p.partCount)
  keys := [
    fun p => some (.token p.hostId p.name p.planToken),
    fun p => some (.generation p.hostId p.name p.turnId p.contentRevision p.presentationVersion
      p.generation)]

structure Job where
  planId : Nat
  sequenceIndex : Nat
  operation : JobOperation
  partOrdinal : Nat
  spans : List Span
  outboxId : Option Nat
  createdAt : Int
  deriving DecidableEq, Repr

inductive JobKey where
  | sequence (planId sequenceIndex : Nat)
  | part (planId : Nat) (operation : JobOperation) (partOrdinal : Nat)
  | outbox (outboxId : Nat)
  deriving DecidableEq

def jobSchema : Relational.Schema Job JobKey where
  check := fun _ => true
  keys := [
    fun j => some (.sequence j.planId j.sequenceIndex),
    fun j => some (.part j.planId j.operation j.partOrdinal),
    fun j => j.outboxId.map .outbox]

structure Recovery where
  hostId : String
  name : String
  requestId : RequestId
  failedPlanId : Nat
  recoveredPlanId : Nat
  failedPlanToken : PlanToken
  recoveredPlanToken : PlanToken
  generation : Nat
  sourceJobCount : Nat
  deliveredPrefixCount : Nat
  freshJobCount : Nat
  retainedFailedJobCount : Nat
  priorAttemptCount : Nat
  createdAt : Int
  deriving DecidableEq, Repr

inductive RecoveryKey where
  | request (hostId name : String) (requestId : RequestId)
  | failedPlan (planId : Nat)
  deriving DecidableEq

def recoverySchema : Relational.Schema Recovery RecoveryKey where
  check := fun r => decide (2 ≤ r.generation) && decide (0 < r.sourceJobCount) &&
    decide (0 < r.freshJobCount) && decide (0 < r.retainedFailedJobCount) &&
    decide (0 < r.priorAttemptCount)
  keys := [
    fun r => some (.request r.hostId r.name r.requestId),
    fun r => some (.failedPlan r.failedPlanId)]

/-! ### `turns`, `turn_content_revisions` and `turn_supersessions` -/

/-- `automation` is what the internal-automation test answers on the turn's payload with the
texts of a revision put in. -/
structure TurnRow where
  hostId : String
  turnId : String
  workerId : String
  spaceId : Option String
  stableKey : Option String
  stableKeyVersion : Option Int
  automation : ContentRevision → Bool

def turnSchema : Relational.Schema TurnRow (String × String) where
  check := fun _ => true
  keys := [fun t => some (t.hostId, t.turnId)]

structure RevisionRow where
  hostId : String
  turnId : String
  contentRevision : ContentRevision
  userCharLength : Nat
  userByteLength : Nat
  finalCharLength : Nat
  finalByteLength : Nat
  userPageCount : Nat
  finalPageCount : Nat
  isCurrent : Bool

/-- A revision's identity is computed from the turn it belongs to. -/
def revisionSchema : Relational.Schema RevisionRow (String × String × ContentRevision) where
  check := fun r => decide (r.contentRevision.turnId = r.turnId)
  keys := [fun r => some (r.hostId, r.turnId, r.contentRevision)]

structure TurnSupersession where
  hostId : String
  supersededTurnId : String
  canonicalTurnId : String

def supersessionSchema : Relational.Schema TurnSupersession (String × String) where
  check := fun _ => true
  keys := [fun r => some (r.hostId, r.supersededTurnId)]

end Tendwire.Connector

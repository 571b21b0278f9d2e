import Mathlib.Algebra.Group.Int.Defs
import Tendwire.Connector.Machine

/-!
# Retention of acknowledged finals

Which final roots have a proof that every part was acknowledged, which of them are old enough
to go, and the deletion of a turn with everything the connector keeps about it. Of each
acknowledged final one delivery stays as its tombstone.
-/

namespace Tendwire.Connector

open Relational

def maxRetentionDays : Int := 365000

def sqliteMaxInteger : Int := 2 ^ 63 - 1

def turnContentMaintenanceBatchMax : Int := 1000

/-- `_utc_cutoff`. -/
def utcCutoff (retentionDays now : Int) : Int :=
  now - max 1 (min retentionDays maxRetentionDays) * (24 * 60 * 60)

/-- `status IN ('delivered', 'superseded')`. -/
def OutboxStatus.resolved : OutboxStatus → Bool
  | .delivered | .superseded => true
  | _ => false

/-- `status IN ('delivered', 'superseded', 'failed', 'deferred', 'expired')`. -/
def DeliveryStatus.terminalAttempt : DeliveryStatus → Bool
  | .delivered | .superseded | .failed | .deferred | .expired => true
  | .leased | .awaitingAck | .released => false

/-- `state IN ('completed', 'superseded')`. -/
def PlanState.finished : PlanState → Bool
  | .completed | .superseded => true
  | _ => false

/-- A row of the CTE `proven`. -/
structure ProvenFinal where
  sourceOutboxId : Nat
  hostId : String
  turnId : String
  acknowledgedAt : Int
  isCurrent : Bool
  wholeTurnResolved : Bool
  deriving DecidableEq, Repr

/-- Before the other in `ORDER BY acknowledged_at DESC, source_outbox_id DESC`. -/
def ProvenFinal.precedes (a b : ProvenFinal) : Bool :=
  decide (b.acknowledgedAt < a.acknowledgedAt) ||
    a.acknowledgedAt == b.acknowledgedAt && decide (b.sourceOutboxId < a.sourceOutboxId)

/-- `ROW_NUMBER()` of a row in that order. -/
def ProvenFinal.rank (among : List ProvenFinal) (e : ProvenFinal) : Nat :=
  (among.filter (·.precedes e)).length + 1

/-- A delivered attempt of a final revision that lost its row. -/
def Delivery.isTombstone (hostId : String) (d : Delivery) : Bool :=
  d.outboxId.isNone && d.hostId == hostId && d.connector == turnFinalName &&
    (match d.deliveryKey with | .revision _ => true | _ => false) && d.status == .delivered &&
    d.deliveredAt.isSome

/-- Before the other in `ORDER BY delivered_at DESC, id DESC`. -/
def tombstonePrecedes (a b : Nat × Delivery) : Bool :=
  decide (b.2.deliveredAt.getD 0 < a.2.deliveredAt.getD 0) ||
    b.2.deliveredAt.getD 0 == a.2.deliveredAt.getD 0 && decide (b.1 < a.1)

namespace Store

variable (s : Store)

/-! ### Proof of acknowledgement -/

/-- A finished plan of the root's revision in the version of the proof plan, up to its
generation. -/
def proofLineage (source : OutboxRow) (proof plan : Plan) : Bool :=
  plan.hostId == source.hostId && plan.name == source.connector &&
    source.turnId == some plan.turnId && source.contentRevision == some plan.contentRevision &&
    plan.presentationVersion == proof.presentationVersion &&
    decide (plan.generation ≤ proof.generation) && plan.state.finished

def lineageJobs (source : OutboxRow) (proof : Plan) : List Job :=
  (s.jobs.table.select fun _ j =>
    (s.plans.get? j.planId).any (proofLineage source proof)).map Prod.snd

def hasDeliveredAttempt (outboxId : Nat) (row : OutboxRow) : Bool :=
  s.deliveries.any fun _ d => d.outboxId == some outboxId && d.hostId == row.hostId &&
    d.connector == row.connector && d.deliveryKey == row.deliveryKey && d.status == .delivered &&
    d.deliveredAt.isSome

/-- The job's row is a delivered part of the root's revision, with a delivered attempt. -/
def jobProven (source : OutboxRow) (job : Job) : Bool :=
  job.outboxId.any fun i => (s.outbox.get? i).any fun row => row.hostId == source.hostId &&
    row.connector == source.connector && row.turnId == source.turnId &&
    row.contentRevision == source.contentRevision && row.deliveryKind == .finalPart &&
    row.status == .delivered && s.hasDeliveredAttempt i row

/-- The plan was completed, and its lineage shows every part, each of them acknowledged. -/
def provesAcknowledged (outboxId : Nat) (source : OutboxRow) (proof : Plan) : Bool :=
  let jobs := s.lineageJobs source proof
  let upserts := (jobs.filter (·.operation == .upsert)).map (·.partOrdinal)
  proof.sourceOutboxId == some outboxId && proof.state.finished && proof.completedAt.isSome &&
    upserts.dedup.length == proof.partCount && upserts.all (decide <| · < proof.partCount) &&
    jobs.all (s.jobProven source)

/-- No unfinished row, plan or attempt of the root's turn is left. -/
def wholeTurnResolved (source : OutboxRow) : Bool :=
  let ofTurn (r : OutboxRow) := r.hostId == source.hostId && r.connector == source.connector &&
    r.turnId == source.turnId
  !(s.outbox.table.any fun _ r => ofTurn r && !r.status.resolved) &&
    !(s.plans.table.any fun _ p => p.hostId == source.hostId && p.name == source.connector &&
      source.turnId == some p.turnId && p.state.open) &&
    !s.deliveries.any fun _ d => d.hostId == source.hostId && d.connector == source.connector &&
      (s.outbox.table.any fun _ r => ofTurn r && r.deliveryKey == d.deliveryKey) &&
      !d.status.terminalAttempt

/-- The join of a root with its complete revision and its turn. -/
def provenFinal? (hostId : String) (outboxId : Nat) (source : OutboxRow) : Option ProvenFinal := do
  let turnId ← source.turnId
  let revision ← source.contentRevision
  let row ← s.revision? source.hostId turnId revision
  let _ ← s.turn? source.hostId turnId
  guard (revision.finalState == .complete)
  guard (source.hostId == hostId && source.connector == turnFinalName &&
    source.deliveryKind == .finalReady && source.status == .delivered)
  guard (s.plans.table.any fun _ proof => s.provesAcknowledged outboxId source proof)
  return {
    sourceOutboxId := outboxId
    hostId := source.hostId
    turnId
    acknowledgedAt := source.updatedAt
    isCurrent := row.isCurrent
    wholeTurnResolved := s.wholeTurnResolved source }

def provenFinals (hostId : String) : List ProvenFinal :=
  s.outbox.table.rows.filterMap fun e => s.provenFinal? hostId e.1 e.2

/-- `candidate_ranked`: the newest proof of each resolved turn whose revision is current. -/
def candidateFinals (hostId : String) : List ProvenFinal :=
  let proven := s.provenFinals hostId
  proven.filter fun e => e.isCurrent && e.wholeTurnResolved &&
    (proven.filter fun e' => e'.turnId == e.turnId && e'.isCurrent == e.isCurrent).all
      fun e' => !e'.precedes e

/-- `_acknowledged_final_retention_candidates_conn`. -/
def acknowledgedFinalRetentionCandidates (hostId : String) (cutoffAt : Int) (retentionCount : Int)
    (batchSize : Nat) : List ProvenFinal :=
  let candidates := s.candidateFinals hostId
  (((candidates.filter fun e => decide (e.acknowledgedAt < cutoffAt) ||
    decide (retentionCount < e.rank candidates)).insertionSort
      fun a b => a.precedes b = false).take batchSize)

/-! ### Deletion of a turn -/

def planOfTurn (hostId turnId : String) (p : Plan) : Bool :=
  p.hostId == hostId && p.turnId == turnId

def rowOfTurn (hostId turnId : String) (r : OutboxRow) : Bool :=
  r.hostId == hostId && r.connector == turnFinalName && r.turnId == some turnId

/-- An attempt of a row of the turn, by its row or, without one, by its key. -/
def attemptOfTurn (hostId turnId : String) (d : Delivery) : Bool :=
  d.hostId == hostId && d.connector == turnFinalName &&
    s.outbox.table.any fun i r => rowOfTurn hostId turnId r &&
      (d.outboxId == some i || d.outboxId.isNone && d.deliveryKey == r.deliveryKey)

/-- The delivered attempts of delivered roots stay as tombstones. -/
def staysAsTombstone (hostId turnId : String) (d : Delivery) : Bool :=
  d.status == .delivered && d.deliveredAt.isSome &&
    s.outbox.table.any fun _ r => rowOfTurn hostId turnId r && r.deliveryKind == .finalReady &&
      r.status == .delivered && r.deliveryKey == d.deliveryKey

def tombstones (hostId : String) : List (Nat × Delivery) :=
  s.deliveries.select fun _ d => d.isTombstone hostId

/-- Of each key only the newest tombstone stays. -/
def dropRepeatedTombstones (hostId : String) : Store :=
  s.deleteDeliveries fun i d => d.isTombstone hostId && (s.tombstones hostId).any fun e =>
    e.2.deliveryKey == d.deliveryKey && tombstonePrecedes e (i, d)

/-- Only the newest tombstones of the host stay. -/
def dropOldTombstones (hostId : String) (retentionCount : Int) : Store :=
  s.deleteDeliveries fun i d => d.isTombstone hostId &&
    decide (max 1 retentionCount ≤
      (((s.tombstones hostId).filter (tombstonePrecedes · (i, d))).length : Int))

def deleteTurnRows (hostId turnId : String) : Store :=
  { s with
    revisions := s.revisions.deleteWhere fun _ r => r.hostId == hostId && r.turnId == turnId
    turns := s.turns.deleteWhere fun _ t => t.hostId == hostId && t.turnId == turnId }

/-- The audits, attempts, jobs and plans of a turn. -/
def deleteTurnPlans (hostId turnId : String) : Txn Store :=
  let ofTurn (i : Nat) : Bool := (s.plans.get? i).any (planOfTurn hostId turnId)
  (((s.deleteRecoveries fun _ a => ofTurn a.failedPlanId || ofTurn a.recoveredPlanId).deleteDeliveries
    fun _ d => s.attemptOfTurn hostId turnId d && !s.staysAsTombstone hostId turnId d).deleteJobs
      fun _ j => ofTurn j.planId).deletePlans fun _ p => planOfTurn hostId turnId p

/-- `_delete_acknowledged_final_turn_conn`. -/
def deleteAcknowledgedFinalTurn (hostId turnId : String) (tombstoneRetentionCount : Int) :
    Txn Store := do
  let s₁ ← s.deleteTurnPlans hostId turnId
  let s₂ ← s₁.deleteOutbox fun _ r => rowOfTurn hostId turnId r
  return ((s₂.dropRepeatedTombstones hostId).dropOldTombstones hostId
    tombstoneRetentionCount).deleteTurnRows hostId turnId

end Store

/-! ### The batch -/

structure FinalCleanup where
  hostId : String
  retentionDays : Int
  retentionCount : Int
  batchSize : Int
  dryRun : Bool

def FinalCleanup.validPolicy (req : FinalCleanup) : Bool :=
  decide (0 < req.retentionDays ∧ 0 < req.retentionCount ∧ 0 < req.batchSize) &&
    decide (req.retentionDays ≤ maxRetentionDays ∧ req.retentionCount ≤ sqliteMaxInteger ∧
      req.batchSize ≤ sqliteMaxInteger)

def boundedBatch (batchSize : Int) : Nat :=
  (max 1 (min batchSize turnContentMaintenanceBatchMax)).toNat

namespace Store

/-- The turns that one batch deletes. -/
def finalCleanupTurns (s : Store) (req : FinalCleanup) (now : Int) : List String :=
  (s.acknowledgedFinalRetentionCandidates req.hostId (utcCutoff req.retentionDays now)
    req.retentionCount (boundedBatch req.batchSize)).map (·.turnId)

def cleanupAcknowledgedFinalRetention (s : Store) (req : FinalCleanup) (now : Int) : Txn Store :=
  if !req.validPolicy || req.dryRun then
    .ok s
  else
    (s.finalCleanupTurns req now).foldlM
      (fun s turnId => s.deleteAcknowledgedFinalTurn req.hostId turnId req.retentionCount) s

end Store

end Tendwire.Connector

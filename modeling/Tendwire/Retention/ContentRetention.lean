import Tendwire.Retention.FinalRetention

/-!
# Retention of turn content

One batch takes stale drafts and finished plans with their rows, superseded roots without
plans, and superseded revisions, oldest first. Each candidate is checked again before its rows
go. The newest superseded plan of a turn is kept as a summary of the parts shown so far.

When a revision was superseded, and which revisions the stored payloads of turns name, is read
nowhere else; both are arguments of a batch.
-/

namespace Tendwire.Connector

open Relational

structure ContentCleanup where
  hostId : String
  retentionDays : Int
  retentionCount : Int
  batchSize : Int
  dryRun : Bool
  supersededAt : RevisionRow → Option Int
  namedByTurn : RevisionRow → Bool

namespace ContentCleanup

variable (req : ContentCleanup)

def cutoffAt (now : Int) : Int := utcCutoff (max 1 req.retentionDays) now

def boundedRetentionCount : Int := max 1 req.retentionCount

end ContentCleanup

inductive ContentCandidate where
  | plan (id : Nat)
  | revision (id : Nat)
  | source (id : Nat)
  deriving DecidableEq, Repr

/-- `candidate_type, candidate_id`, types by their names. -/
def ContentCandidate.order : ContentCandidate → Nat × Nat
  | .plan id => (0, id)
  | .revision id => (1, id)
  | .source id => (2, id)

/-- `ORDER BY eligible_at, candidate_type, candidate_id`. -/
def candidateAtMost (a b : Int × ContentCandidate) : Bool :=
  decide (a.1 < b.1) || a.1 == b.1 && (decide (a.2.order.1 < b.2.order.1) ||
    a.2.order.1 == b.2.order.1 && decide (a.2.order.2 ≤ b.2.order.2))

namespace Plan

/-- The same host, connector and turn. -/
def sameTurn (p q : Plan) : Bool :=
  q.hostId == p.hostId && q.name == p.name && q.turnId == p.turnId

def wasCompleted (p : Plan) : Bool :=
  p.state == .completed || p.state == .superseded && p.completedAt.isSome

/-- `COALESCE(completed_at, activated_at, created_at)`. -/
def finishedAt (p : Plan) : Int := p.completedAt.getD (p.activatedAt.getD p.createdAt)

def eligibleAt (p : Plan) : Int := if p.state == .preparing then p.createdAt else p.finishedAt

end Plan

/-- An attempt that is not over, or is too young where its age counts. -/
def Delivery.unsafeAttempt (cutoffAt : Int) (allowYoung : Bool) (d : Delivery) : Bool :=
  !d.status.terminalAttempt || !allowYoung && decide (cutoffAt ≤ d.deliveredAt.getD d.createdAt)

def OutboxRow.young (cutoffAt : Int) (allowYoung : Bool) (r : OutboxRow) : Bool :=
  !allowYoung && decide (cutoffAt ≤ r.updatedAt)

namespace Store

variable (s : Store)

/-! ### Plans of one turn -/

def hasUnsafeAttempt (outboxId : Nat) (cutoffAt : Int) (allowYoung : Bool) : Bool :=
  s.deliveries.any fun _ d => d.outboxId == some outboxId && d.unsafeAttempt cutoffAt allowYoung

/-- A replacement of the plan that has not ended. -/
def hasLiveReplacement (p : Plan) : Bool :=
  s.plans.table.any fun _ q => p.sameTurn q && q.replacesPlanToken == some p.planToken &&
    (q.state == .preparing || q.state.live)

/-- `COALESCE(MAX(id), 0)` over plans of the turn. -/
def newestPlanId (p : Plan) (q : Nat → Plan → Bool) : Nat :=
  ((s.plans.table.newest? fun i x => p.sameTurn x && q i x).map Prod.fst).getD 0

/-- The last plan of the turn that was ever completed. -/
def newestCompletedId (p : Plan) : Nat := s.newestPlanId p fun _ x => x.completedAt.isSome

def newestSupersededId (p : Plan) : Nat :=
  s.newestPlanId p fun _ x => x.state == .superseded && x.activatedAt.isSome

/-- A later plan of the turn that is completed now. -/
def hasNewerCompleted (i : Nat) (p : Plan) : Bool :=
  s.plans.table.any fun j x => p.sameTurn x && decide (i < j) && x.state == .completed &&
    x.completedAt.isSome

/-- A later superseded plan of the turn without a source, which may be a summary. -/
def hasNewerSummary (i : Nat) (p : Plan) : Bool :=
  s.plans.table.any fun j x => p.sameTurn x && decide (i < j) && x.state == .superseded &&
    x.activatedAt.isSome && x.sourceOutboxId.isNone

/-! ### Candidates -/

/-- A job whose row or attempts keep the plan: `keeps` says which rows do. -/
def planAnchored (planId : Nat) (cutoffAt : Int) (allowYoung : Bool) (keeps : OutboxRow → Bool) :
    Bool :=
  s.jobs.table.any fun _ j => j.planId == planId && match s.jobOutbox? j with
    | none => false
    | some row => keeps row || j.outboxId.any fun o => s.hasUnsafeAttempt o cutoffAt allowYoung

def sourceLessCandidate (hostId : String) (cutoffAt : Int) (i : Nat) (p : Plan) : Bool :=
  p.hostId == hostId && p.sourceOutboxId.isNone &&
    (p.state == .preparing && decide (p.createdAt < cutoffAt) ||
      p.state.finished && decide (p.finishedAt < cutoffAt)) &&
    !s.hasLiveReplacement p &&
    (p.state == .preparing || p.activatedAt.isNone || decide (i < s.newestCompletedId p)) &&
    !s.planAnchored i cutoffAt false fun row =>
      p.state == .preparing || !row.status.resolved || row.young cutoffAt false

/-- The plan's source is a final root of its revision in the given status. -/
def sourceOf (p : Plan) (status : OutboxStatus) (source : OutboxRow) : Bool :=
  source.hostId == p.hostId && source.connector == turnFinalName &&
    source.deliveryKind == .finalReady && source.turnId == some p.turnId &&
    source.contentRevision == some p.contentRevision && source.status == status

def supersededCandidate (hostId : String) (cutoffAt : Int) (i : Nat) (p : Plan) : Bool :=
  p.sourceOutboxId.any fun sourceId => (s.outbox.get? sourceId).any fun source =>
    p.hostId == hostId && p.state == .superseded &&
    decide (p.activatedAt.getD p.createdAt < cutoffAt) &&
    (p.activatedAt.isNone || i == s.newestSupersededId p || s.hasNewerSummary i p ||
      s.hasNewerCompleted i p) &&
    sourceOf p .superseded source && !source.young cutoffAt false &&
    !s.hasUnsafeAttempt sourceId cutoffAt false &&
    !s.planAnchored i cutoffAt false fun row => !row.status.resolved || row.young cutoffAt false

/-- The rank of an acknowledged final and whether its revision is current. -/
def deliveredFinalRank (hostId : String) (sourceOutboxId : Nat) : Option (Nat × Bool) :=
  let proven := s.provenFinals hostId
  (proven.find? (·.sourceOutboxId == sourceOutboxId)).map fun e => (e.rank proven, e.isCurrent)

/-- A job without a row keeps a completed plan, too. -/
def completedPlanAnchored (planId : Nat) (cutoffAt : Int) (allowYoung : Bool) : Bool :=
  s.jobs.table.any fun _ j => j.planId == planId && match s.jobOutbox? j with
    | none => true
    | some row => row.status != .delivered || row.young cutoffAt allowYoung ||
        j.outboxId.any fun o => s.hasUnsafeAttempt o cutoffAt allowYoung

def completedCandidate (hostId : String) (cutoffAt retentionCount : Int) (i : Nat) (p : Plan) :
    Bool :=
  p.sourceOutboxId.any fun sourceId => (s.outbox.get? sourceId).any fun source =>
    (s.deliveredFinalRank hostId sourceId).any fun rank =>
      let allowYoung := decide (retentionCount < rank.1)
      !rank.2 && p.hostId == hostId && p.state.finished && p.completedAt.isSome &&
      (p.completedAt.any (decide <| · < cutoffAt) || allowYoung) && s.hasNewerCompleted i p &&
      sourceOf p .delivered source && !source.young cutoffAt allowYoung &&
      !s.hasUnsafeAttempt sourceId cutoffAt allowYoung &&
      !s.completedPlanAnchored i cutoffAt allowYoung

def sourceCandidate (hostId : String) (cutoffAt : Int) (i : Nat) (source : OutboxRow) : Bool :=
  source.hostId == hostId && source.connector == turnFinalName &&
    source.deliveryKind == .finalReady && source.status == .superseded &&
    !source.young cutoffAt false && !(s.plans.table.any fun _ p => p.sourceOutboxId == some i) &&
    !s.hasUnsafeAttempt i cutoffAt false

def typedFinalReferenceExists (hostId turnId : String) (revision : ContentRevision) : Bool :=
  s.outbox.table.any fun _ r => r.hostId == hostId && r.turnId == some turnId &&
    r.deliveryKind.isFinal && r.contentRevision == some revision

/-- A plan, a row of the connector or the turn names the revision. -/
def revisionReferenced (req : ContentCleanup) (r : RevisionRow) : Bool :=
  (s.plans.table.any fun _ p => p.hostId == r.hostId && p.turnId == r.turnId &&
      p.contentRevision == r.contentRevision) ||
    (s.outbox.table.any fun _ o => o.hostId == r.hostId && o.connector == turnFinalName &&
      o.payload.contentRevision? == some r.contentRevision) || req.namedByTurn r

def revisionCandidate (req : ContentCleanup) (cutoffAt : Int) (r : RevisionRow) : Bool :=
  r.hostId == req.hostId && !r.isCurrent && (req.supersededAt r).any (decide <| · < cutoffAt) &&
    !s.typedFinalReferenceExists r.hostId r.turnId r.contentRevision && !s.revisionReferenced req r

def planCandidate? (req : ContentCleanup) (cutoffAt : Int) (i : Nat) (p : Plan) : Option Int :=
  if s.sourceLessCandidate req.hostId cutoffAt i p then
    some p.eligibleAt
  else if s.supersededCandidate req.hostId cutoffAt i p then
    some (p.activatedAt.getD p.createdAt)
  else if s.completedCandidate req.hostId cutoffAt req.boundedRetentionCount i p then
    p.sourceOutboxId.bind fun sourceId => (s.outbox.get? sourceId).map (·.updatedAt)
  else
    none

/-- `_turn_content_retention_candidates_conn`. -/
def turnContentRetentionCandidates (req : ContentCleanup) (cutoffAt : Int) :
    List ContentCandidate :=
  let plans := s.plans.table.rows.filterMap fun e =>
    (s.planCandidate? req cutoffAt e.1 e.2).map (·, ContentCandidate.plan e.1)
  let sources := (s.outbox.table.select fun i r =>
    s.sourceCandidate req.hostId cutoffAt i r).map fun e => (e.2.updatedAt, .source e.1)
  let revisions := (s.revisions.table.select fun _ r =>
    s.revisionCandidate req cutoffAt r).map fun e =>
      ((req.supersededAt e.2).getD 0, ContentCandidate.revision e.1)
  (((plans ++ sources ++ revisions).insertionSort fun a b => candidateAtMost a b).take
    (boundedBatch req.batchSize)).map Prod.snd

/-! ### The second check -/

/-- `_terminal_source_anchor_reference_reason_conn`. -/
def terminalSourceAnchorReferenceReason (sourceOutboxId : Nat) (hostId turnId : String)
    (revision : ContentRevision) (sourceStatus : OutboxStatus) (cutoffAt : Int)
    (allowYoung : Bool) : Option String :=
  match s.outbox.get? sourceOutboxId with
  | none => some "source_anchor"
  | some source =>
    if source.hostId != hostId || source.connector != turnFinalName ||
        source.deliveryKind != .finalReady || source.turnId != some turnId ||
        source.contentRevision != some revision || source.status != sourceStatus ||
        source.young cutoffAt allowYoung then
      some "source_anchor"
    else if sourceStatus == .delivered && (s.revision? hostId turnId revision).all (·.isCurrent) then
      some "current_source_anchor"
    else if s.hasUnsafeAttempt sourceOutboxId cutoffAt allowYoung then
      some "source_attempt"
    else
      none

/-- What the source root of a plan says against the plan's deletion, and whether its age
counts. -/
def planSourceReason (i : Nat) (p : Plan) (sourceId : Nat) (cutoffAt retentionCount : Int) :
    Option String × Bool :=
  let anchor (status : OutboxStatus) (allowYoung : Bool) : Option String × Bool :=
    (s.terminalSourceAnchorReferenceReason sourceId p.hostId p.turnId p.contentRevision status
      cutoffAt allowYoung, allowYoung)
  if p.state == .superseded && !p.wasCompleted then
    anchor .superseded false
  else if p.wasCompleted then
    match s.deliveredFinalRank p.hostId sourceId with
    | none => (some "current_completed_baseline", false)
    | some rank =>
      if !s.hasNewerCompleted i p || rank.2 then
        (some "current_completed_baseline", false)
      else
        anchor .delivered (decide (max 1 retentionCount < rank.1))
  else
    (some "source_anchor", false)

/-- The first job whose row or attempt is not over. -/
def jobAnchorReason (planId : Nat) (p : Plan) (cutoffAt : Int) (allowYoung : Bool) :
    Option String :=
  (s.jobs.table.select fun _ j => j.planId == planId).findSome? fun e =>
    match s.jobOutbox? e.2 with
    | none => some "outbox"
    | some row =>
      if !(if p.wasCompleted then row.status == .delivered else row.status.resolved) ||
          row.young cutoffAt allowYoung then
        some "outbox"
      else if e.2.outboxId.any fun o => s.hasUnsafeAttempt o cutoffAt allowYoung then
        some "delivery"
      else
        none

/-- `_terminal_plan_reference_reason_conn`. -/
def terminalPlanReferenceReason (i : Nat) (p : Plan) (cutoffAt retentionCount : Int) :
    Option String :=
  let (sourceReason, allowYoung) := match p.sourceOutboxId with
    | some sourceId => s.planSourceReason i p sourceId cutoffAt retentionCount
    | none => (none, false)
  if sourceReason.isSome then
    sourceReason
  else if p.state == .preparing then
    if s.jobs.table.any fun _ j => j.planId == i && j.outboxId.isSome then some "reference"
    else none
  else if !p.state.finished then
    some "reference"
  else if p.sourceOutboxId.isNone && s.hasLiveReplacement p then
    some "replacement"
  else if p.sourceOutboxId.isNone && p.activatedAt.isSome &&
      (s.newestCompletedId p == 0 || decide (s.newestCompletedId p ≤ i)) then
    some "failed_prefix_or_current_baseline"
  else
    s.jobAnchorReason i p cutoffAt allowYoung

/-! ### Deletion -/

/-- The most parts an activated plan of the turn has, from a plan on. -/
def footprintFrom (p : Plan) (baselineId : Nat) : Nat :=
  ((s.plans.table.select fun j x => p.sameTurn x && x.activatedAt.isSome &&
    decide (baselineId ≤ j)).map (·.2.partCount)).foldl max 0

/-- `_superseded_plan_summary_conn`: whether the plan stays as a summary, and with how many
parts. -/
def supersededPlanSummary (i : Nat) (p : Plan) : Bool × Nat :=
  if p.sourceOutboxId.isNone || p.state != .superseded || p.activatedAt.isNone then
    (false, p.partCount)
  else if s.hasNewerCompleted i p then
    (false, p.partCount)
  else if s.newestSupersededId p != i then
    (false, p.partCount)
  else
    let baselineId := s.newestPlanId p fun j x =>
      decide (j < i) && x.state == .completed && x.completedAt.isSome
    (true, max p.partCount (s.footprintFrom p baselineId))

/-- `_delete_terminal_source_anchor_conn`. -/
def deleteTerminalSourceAnchor (sourceOutboxId : Nat) (hostId turnId : String)
    (revision : ContentRevision) (cutoffAt : Int) (sourceStatus : OutboxStatus)
    (allowYoung : Bool) : Txn Store :=
  if (s.terminalSourceAnchorReferenceReason sourceOutboxId hostId turnId revision sourceStatus
      cutoffAt allowYoung).isSome ||
      s.plans.table.any fun _ p => p.sourceOutboxId == some sourceOutboxId then
    .ok s
  else
    (s.deleteDeliveries fun _ d => d.outboxId == some sourceOutboxId).deleteOutbox
      fun i _ => i == sourceOutboxId

/-- The plan's job rows, with its audits, attempts and jobs. -/
def deletePlanWork (planId : Nat) : Txn Store :=
  let jobRow (o : Nat) : Bool := s.isJobOf (· == planId) o
  (((s.deleteRecoveries fun _ a => a.failedPlanId == planId || a.recoveredPlanId == planId
    ).deleteDeliveries fun _ d => d.outboxId.any jobRow).deleteJobs fun _ j =>
      j.planId == planId).deleteOutbox fun i _ => jobRow i

/-- `UPDATE turn_presentation_plans SET source_outbox_id = NULL, part_count = ?`. -/
def summarizePlan (planId partCount : Nat) : Txn Store :=
  if (s.plans.get? planId).any (·.state == .superseded) then
    (demand (s.plans.updateWhere (fun i x => i == planId && x.state == .superseded) fun x =>
      { x with sourceOutboxId := none, partCount }) .integrityError).map fun plans =>
        { s with plans }
  else
    .error .schemaError

/-- An earlier summary, or any superseded plan that has nothing left but its row. -/
def collapsedPlan (keepId : Nat) (p : Plan) (cutoffAt : Int) (i : Nat) (x : Plan) : Bool :=
  p.sameTurn x && i != keepId && x.state == .superseded && x.sourceOutboxId.isNone &&
    x.activatedAt.any (decide <| · < cutoffAt) && !(s.jobs.table.any fun _ j => j.planId == i) &&
    !s.planReferenced i

/-- The plan as a summary in place of the earlier ones, or its deletion. -/
def retirePlan (planId : Nat) (p : Plan) (cutoffAt : Int) (retainSummary : Bool)
    (summaryPartCount : Nat) : Txn Store :=
  if retainSummary then do
    let s₁ ← s.summarizePlan planId summaryPartCount
    s₁.deletePlans (s₁.collapsedPlan planId p cutoffAt)
  else
    s.deletePlans fun i _ => i == planId

/-- `_delete_superseded_revision_conn`. -/
def deleteSupersededRevision (req : ContentCleanup) (revisionId : Nat) (cutoffAt : Int)
    (allowYoung : Bool) : Store :=
  { s with
    revisions := s.revisions.deleteWhere fun i r => i == revisionId && r.hostId == req.hostId &&
      !s.typedFinalReferenceExists r.hostId r.turnId r.contentRevision && !r.isCurrent &&
      (req.supersededAt r).any (fun time => allowYoung || decide (time < cutoffAt)) &&
      !s.revisionReferenced req r }

/-- The source root of a plan that is gone. -/
def deleteSourceOf (p : Plan) (cutoffAt : Int) (sourceStatus : OutboxStatus) (allowYoung : Bool) :
    Txn Store :=
  match p.sourceOutboxId with
  | some sourceId => s.deleteTerminalSourceAnchor sourceId p.hostId p.turnId p.contentRevision
      cutoffAt sourceStatus allowYoung
  | none => .ok s

/-- The revision of a plan that is gone. -/
def deleteRevisionOf (req : ContentCleanup) (p : Plan) (cutoffAt : Int) (allowYoung : Bool) :
    Store :=
  match s.revisions.table.first? fun _ r => r.hostId == p.hostId && r.turnId == p.turnId &&
      r.contentRevision == p.contentRevision with
  | some (revisionId, _) => s.deleteSupersededRevision req revisionId cutoffAt allowYoung
  | none => s

/-- `_delete_retained_plan_conn`. -/
def deleteRetainedPlan (req : ContentCleanup) (planId : Nat) (p : Plan) (cutoffAt : Int)
    (retainSummary : Bool) (summaryPartCount : Nat) : Txn Store := do
  let sourceStatus : OutboxStatus := if p.wasCompleted then .delivered else .superseded
  let allowYoung := p.wasCompleted && p.sourceOutboxId.any fun sourceId =>
    (s.deliveredFinalRank p.hostId sourceId).any fun rank =>
      decide (req.boundedRetentionCount < rank.1)
  let s₁ ← s.deletePlanWork planId
  let s₂ ← s₁.retirePlan planId p cutoffAt retainSummary summaryPartCount
  let s₃ ← s₂.deleteSourceOf p cutoffAt sourceStatus allowYoung
  return s₃.deleteRevisionOf req p cutoffAt allowYoung

/-! ### The batch -/

def treatPlan (req : ContentCleanup) (cutoffAt : Int) (i : Nat) (p : Plan) : Txn Store :=
  if p.hostId != req.hostId ||
      (s.terminalPlanReferenceReason i p cutoffAt req.boundedRetentionCount).isSome then
    .ok s
  else
    let (retainSummary, summaryPartCount) := s.supersededPlanSummary i p
    s.deleteRetainedPlan req i p cutoffAt retainSummary summaryPartCount

def treatSource (cutoffAt : Int) (i : Nat) (source : OutboxRow) : Txn Store :=
  match source.turnId, source.contentRevision with
  | some turnId, some revision =>
    s.deleteTerminalSourceAnchor i source.hostId turnId revision cutoffAt .superseded false
  | _, _ => .ok s

/-- One candidate of the batch; it may be gone or referenced by now. -/
def treatCandidate (req : ContentCleanup) (cutoffAt : Int) (s : Store) :
    ContentCandidate → Txn Store
  | .plan i =>
    match s.plans.get? i with
    | some p => s.treatPlan req cutoffAt i p
    | none => .ok s
  | .source i =>
    match s.outbox.get? i with
    | some source => s.treatSource cutoffAt i source
    | none => .ok s
  | .revision i => .ok (s.deleteSupersededRevision req i cutoffAt false)

def cleanupTurnContentRetention (req : ContentCleanup) (now : Int) : Txn Store :=
  if req.dryRun then
    .ok s
  else
    (s.turnContentRetentionCandidates req (req.cutoffAt now)).foldlM
      (treatCandidate req (req.cutoffAt now)) s

end Store

end Tendwire.Connector

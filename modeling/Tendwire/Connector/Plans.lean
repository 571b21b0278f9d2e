import Tendwire.Connector.Turns

/-!
# Presentation plans

How the state of an outbox row moves the plan its job belongs to, and how a plan's end moves
its source root.
-/

namespace Tendwire.Connector

/-! ### Deadlines and private state -/

/-- The first deadline present decides; with none the row is overdue. -/
def connectorDeadlineDue (values : List (Option Int)) (now : Int) : Bool :=
  match values with
  | [] => true
  | some deadline :: _ => decide (deadline ≤ now)
  | none :: rest => connectorDeadlineDue rest now

def maxTimedeltaSeconds : Int := 365000 * 24 * 60 * 60

def connectorAddSeconds (now seconds : Int) : Int := now + max 0 (min seconds maxTimedeltaSeconds)

namespace OutboxPrivate

def clearCurrent (p : OutboxPrivate) : OutboxPrivate := { p with lease := none }

def withLease (p : OutboxPrivate) (lease : Lease) : OutboxPrivate := { p with lease := some lease }

def clearTerminalDiagnostic (p : OutboxPrivate) : OutboxPrivate :=
  { p with terminalDiagnostic := none }

def withTerminalDiagnostic (p : OutboxPrivate) (attemptCount : Nat)
    (classification : Classification) (terminalizedAt : Int) : OutboxPrivate :=
  { p.clearCurrent with
    terminalDiagnostic := some
      { attemptCount := min attemptCount 0x7fffffffffffffff, classification, terminalizedAt } }

/-- Records one ACK timeout. -/
def ackRetryState (p : OutboxPrivate) : OutboxPrivate :=
  { p.clearCurrent with ackTimeoutCount := p.ackTimeoutCount + 1, ackDeadlineAt := none }

def ackRetryDelay (p : OutboxPrivate) : Int := min (Nat.pow 2 (min p.ackTimeoutCount 30)) 30

end OutboxPrivate

namespace Store

variable (s : Store)

/-! ### Attempts -/

def maxAttempt (outboxId : Nat) : Nat :=
  ((s.deliveries.select fun _ d => d.outboxId == some outboxId).map (·.2.attempt)).foldl max 0

def attemptCount (outboxId : Nat) (priv : OutboxPrivate) : Nat :=
  min (priv.priorAttemptCount + s.maxAttempt outboxId) 0x7fffffffffffffff

def deliveryCount (outboxId : Nat) : Nat :=
  (s.deliveries.select fun _ d => d.outboxId == some outboxId).length

/-- Attempts that count against the budget: an expired ACK deadline gives one back. -/
def attemptsUsed (outboxId : Nat) : Int :=
  (s.maxAttempt outboxId : Int) -
    (s.deliveries.select fun _ d => d.outboxId == some outboxId && d.status == .failed &&
      d.response == .ackDeadlineExpired).length

/-! ### Jobs and their rows -/

def jobOutbox? (j : Job) : Option OutboxRow := j.outboxId.bind s.outbox.get?

/-- `EXISTS` over the jobs of a plan joined with their outbox rows. -/
def planHasJobRow (planId : Nat) (q : OutboxRow → Bool) : Bool :=
  s.jobs.table.any fun _ j => j.planId == planId && (s.jobOutbox? j).any q

/-- The newest delivery of a row that awaits its acknowledgement. -/
def awaitingDelivery? (outboxId : Nat) : Option (Nat × Delivery) :=
  s.deliveries.newest? fun _ d => d.outboxId == some outboxId && d.status == .awaitingAck

def planOfOutbox? (outboxId : Nat) : Option (Nat × Plan) := do
  let job ← s.jobs.table.first? fun _ j => j.outboxId == some outboxId
  let plan ← s.plans.get? job.2.planId
  return (job.2.planId, plan)

def isJobOf (planIds : Nat → Bool) (outboxId : Nat) : Bool :=
  s.jobs.table.any fun _ j => planIds j.planId && j.outboxId == some outboxId

def planHasLiveJobLease (planId : Nat) (now : Int) : Bool :=
  s.jobs.table.any fun _ j => j.planId == planId && match j.outboxId with
    | none => false
    | some outboxId =>
      (s.outbox.get? outboxId).any (·.status == .leased) &&
        s.deliveries.any fun _ d => d.outboxId == some outboxId && d.status == .leased &&
          !connectorDeadlineDue [d.lease.map (·.leaseExpiresAt)] now

/-! ### Plan states -/

/-- No job row of another plan of the turn is leased. -/
def predecessorsIdle (waitingId : Nat) (waiting : Plan) : Bool :=
  !s.plans.table.any fun olderId older => older.hostId == waiting.hostId &&
    older.name == waiting.name && older.turnId == waiting.turnId && olderId != waitingId &&
    s.planHasJobRow olderId (·.status == .leased)

def activateWaitingPresentationPlans (hostId name : String) (now : Int) : Store :=
  s.updatePlans
    (fun i p => p.hostId == hostId && p.name == name && p.state == .waitingPredecessor &&
      s.predecessorsIdle i p)
    (fun p => { p with state := .active, activatedAt := some (p.activatedAt.getD now) })

def failPlan (planId : Nat) : Store := s.setPlan planId fun p => { p with state := .failed }

/-- An acknowledged job renews the ACK deadline of the source root and its delivery. -/
def extendAckDeadline (sourceId : Nat) (deadline now : Int) : Store :=
  if (s.outbox.get? sourceId).any (·.status == .awaitingAck) then
    let s₁ := s.setOutbox sourceId fun r =>
      { r with
        priv := { r.priv with ackDeadlineAt := some deadline }
        nextAttemptAt := some deadline
        updatedAt := now }
    match s₁.awaitingDelivery? sourceId with
    | some (deliveryId, _) =>
      s₁.setDelivery deliveryId fun d => { d with ackDeadlineAt := some deadline }
    | none => s₁
  else
    s

/-- The source root of a completed plan, if it still awaits the acknowledgement. -/
def deliverSource (sourceId : Nat) (now : Int) : Store :=
  (s.updateDeliveries (fun _ d => d.outboxId == some sourceId && d.status == .awaitingAck)
    fun d => { d with status := .delivered, deliveredAt := some now }).updateOutbox
    (fun i r => i == sourceId && r.status == .awaitingAck)
    fun r => { r with
      status := .delivered
      nextAttemptAt := none
      updatedAt := now
      priv := r.priv.clearCurrent }

def revisionKey (hostId turnId : String) (revision : ContentRevision) : DeliveryKey :=
  .revision ⟨hostId, turnId, revision⟩

def hasAcknowledgedTombstone (hostId name : String) (key : DeliveryKey) : Bool :=
  s.deliveries.any fun _ d => d.outboxId.isNone && d.hostId == hostId && d.connector == name &&
    d.deliveryKey == key && d.status == .delivered && d.deliveredAt.isSome

/-- A plan without a source leaves the tombstone of its revision. -/
def recordTombstone (plan : Plan) (now : Int) : Store :=
  let key := revisionKey plan.hostId plan.turnId plan.contentRevision
  if s.hasAcknowledgedTombstone plan.hostId plan.name key then
    s
  else
    s.insertDelivery {
      hostId := plan.hostId
      connector := plan.name
      deliveryKey := key
      attempt := 0
      createdAt := now
      outboxId := none
      status := .delivered
      response := .none
      lease := none
      ackDeadlineAt := none
      deliveredAt := some now }

def completePlan (planId : Nat) (plan : Plan) (now : Int) : Store :=
  let s₁ := s.updatePlans (fun i p => i == planId && p.state == .active) fun p =>
    { p with state := .completed, completedAt := some (p.completedAt.getD now) }
  match plan.sourceOutboxId with
  | some sourceId => s₁.deliverSource sourceId now
  | none => s₁.recordTombstone plan now

/-- What the new status of a job's row does to its plan. -/
def advancePlan (planId : Nat) (plan : Plan) (outboxStatus : OutboxStatus) (now : Int)
    (ackTtlSeconds : Option Int) : Store :=
  if outboxStatus == .deadLetter && plan.state.live then
    s.failPlan planId
  else if outboxStatus == .delivered && plan.state == .active then
    if s.planHasJobRow planId (·.status != .delivered) then
      match plan.sourceOutboxId, ackTtlSeconds with
      | some sourceId, some ttl =>
        s.extendAckDeadline sourceId (connectorAddSeconds now (max 1 ttl)) now
      | _, _ => s
    else
      s.completePlan planId plan now
  else
    s

def updatePresentationPlanAfterOutbox (outboxId : Nat) (outboxStatus : OutboxStatus) (now : Int)
    (ackTtlSeconds : Option Int) : Store :=
  match s.planOfOutbox? outboxId with
  | none => s
  | some (planId, plan) =>
    (s.advancePlan planId plan outboxStatus now ackTtlSeconds).activateWaitingPresentationPlans
      plan.hostId plan.name now

def markExhaustedPresentationPlans (hostId : String) (name : Option String) : Store :=
  s.updatePlans
    (fun i p => p.hostId == hostId && name.all (p.name == ·) && p.state.live &&
      s.planHasJobRow i (·.status == .deadLetter))
    (fun p => { p with state := .failed })

/-- The other plans of a turn, when one of its plans is committed. -/
def obsoletePlan (hostId name turnId : String) (keepPlanId i : Nat) : Bool :=
  (s.plans.get? i).any fun p => p.hostId == hostId && p.name == name && p.turnId == turnId &&
    i != keepPlanId && (p.state == .preparing || p.state.live || p.state == .completed)

/-- Supersedes them and their unleased rows; a leased row ends with its lease. Also whether
there was one. -/
def markObsoletePresentationPlans (hostId name turnId : String) (keepPlanId : Nat) (now : Int) :
    Store × Bool :=
  let obsolete := s.obsoletePlan hostId name turnId keepPlanId
  let s₁ := s.updatePlans (fun i _ => obsolete i) fun p => { p with state := .superseded }
  let s₂ := s₁.updateOutbox (fun i r => s.isJobOf obsolete i && r.status.pollable) fun r =>
    { r with status := .superseded, nextAttemptAt := none, updatedAt := now }
  let leased := fun i (r : OutboxRow) => s.isJobOf obsolete i && r.status == .leased
  (s₂.updateOutbox leased fun r => { r with priv := { r.priv with terminalAfterLease := true } },
    s₂.outbox.table.any leased)

end Store

end Tendwire.Connector

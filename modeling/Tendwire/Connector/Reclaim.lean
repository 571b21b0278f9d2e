import Tendwire.Connector.Plans
import Tendwire.Transition.Loop

/-!
# Reclaim and exhaustion

The sweeps that run before a poll and before every operation on a lease: leases that expired,
roots whose acknowledgement is overdue, rows that used up their attempts.
-/

namespace Tendwire.Connector

open Transition (sweep)

/-- A leased delivery as the sweep first reads it, with its outbox row. -/
structure LeasedRow where
  deliveryId : Nat
  delivery : Delivery
  outbox : Option OutboxRow

/-- Where a row goes when its lease ends without a verdict. -/
def OutboxRow.requeueStatus (r : OutboxRow) : OutboxStatus :=
  if r.priv.terminalAfterLease then .superseded else .queued

namespace Store

variable (s : Store)

/-! ### Expired leases -/

def leasedRows (hostId : String) (name : Option String) : List LeasedRow :=
  (s.deliveries.select fun _ d => d.status == .leased && d.hostId == hostId &&
    name.all (d.connector == ·)).map fun e =>
      { deliveryId := e.1, delivery := e.2, outbox := e.2.outboxId.bind s.outbox.get? }

/-- Closes a leased delivery. -/
def closeDelivery (deliveryId : Nat) (status : DeliveryStatus) (response : DeliveryResponse)
    (now : Int) : Store :=
  s.updateDeliveries (fun i d => i == deliveryId && d.status == .leased) fun d =>
    { d with status, response, deliveredAt := some now }

/-- Gives a leased row its next status. -/
def endLease (outboxId : Nat) (status : OutboxStatus) (nextAttemptAt : Option Int)
    (priv : OutboxPrivate) (now : Int) : Store :=
  s.updateOutbox (fun i r => i == outboxId && r.status == .leased) fun r =>
    { r with status, nextAttemptAt, priv, updatedAt := now }

def reclaimLease (now : Int) (s : Store) (row : LeasedRow) : Option Store :=
  if !connectorDeadlineDue [row.delivery.lease.map (·.leaseExpiresAt)] now then
    none
  else
    let s₁ := s.closeDelivery row.deliveryId .expired .expired now
    match row.delivery.outboxId, row.outbox with
    | some outboxId, some outbox =>
      if outbox.priv.lease.all (·.deliveryId == row.deliveryId) && outbox.status == .leased then
        some ((s₁.endLease outboxId outbox.requeueStatus none outbox.priv.clearCurrent
          now).updatePresentationPlanAfterOutbox outboxId outbox.requeueStatus now none)
      else
        some s₁
    | _, _ => some s₁

/-! ### Overdue acknowledgements -/

def awaitingAckRows (hostId : String) (name : Option String) : List (Nat × OutboxRow) :=
  s.outbox.table.select fun _ r => r.hostId == hostId && r.status == .awaitingAck &&
    name.all (r.connector == ·)

/-- The plan that stands for a root: the newest with it as the source. -/
def newestPlanOf? (outboxId : Nat) : Option (Nat × Plan) :=
  s.plans.table.newest? fun _ p => p.sourceOutboxId == some outboxId

def closeAwaitingDelivery (deliveryId : Option Nat) (response : DeliveryResponse) (now : Int) :
    Store :=
  s.updateDeliveries (fun i d => deliveryId == some i && d.status == .awaitingAck) fun d =>
    { d with status := .failed, response, deliveredAt := some now }

def endAwaitingAck (outboxId : Nat) (status : OutboxStatus) (nextAttemptAt : Option Int)
    (priv : OutboxPrivate) (now : Int) : Store :=
  s.updateOutbox (fun i r => i == outboxId && r.status == .awaitingAck) fun r =>
    { r with status, nextAttemptAt, priv, updatedAt := now }

/-- The newest plan of the root is complete: the root is delivered. -/
def settleCompletedRoot (outboxId : Nat) (root : OutboxRow) (deliveryId : Option Nat) (now : Int) :
    Store :=
  (s.updateDeliveries (fun i d => deliveryId == some i && d.status == .awaitingAck) fun d =>
    { d with status := .delivered, deliveredAt := some (d.deliveredAt.getD now) }).endAwaitingAck
      outboxId .delivered none root.priv.clearCurrent now

def unfinishedJobRows (planId : Nat) : List (Nat × OutboxRow) :=
  s.outbox.table.select fun i r => s.isJobOf (· == planId) i && !r.status.terminal

def deadLetterJobRow (now : Int) (s : Store) (row : Nat × OutboxRow) : Store :=
  let priv := row.2.priv.withTerminalDiagnostic (s.attemptCount row.1 row.2.priv)
    .ackDeadlineExpired now
  (s.updateDeliveries (fun _ d => d.outboxId == some row.1 && d.status == .leased) fun d =>
    { d with
      status := .failed
      response := .ackDeadlineExpired
      deliveredAt := some now }).setOutbox row.1 fun r =>
        { r with status := .deadLetter, nextAttemptAt := none, updatedAt := now, priv }

/-- The root returns to polling one generation later; its plan fails with what it left. -/
def retryOverdueRoot (outboxId : Nat) (root : OutboxRow) (deliveryId : Option Nat)
    (planId : Nat) (plan : Plan) (now : Int) : Store :=
  let s₁ := s.failPlan planId
  let s₂ := (s₁.unfinishedJobRows planId).foldl (deadLetterJobRow now) s₁
  let priv := { root.priv.ackRetryState with
    presentationGeneration := max (max 1 root.priv.presentationGeneration) (plan.generation + 1) }
  (s₂.closeAwaitingDelivery deliveryId .ackDeadlineExpired now).endAwaitingAck outboxId .retry
    (some (now + root.priv.ackRetryDelay)) priv now

/-- No plan of the root can be resumed. -/
def deadLetterOverdueRoot (outboxId : Nat) (root : OutboxRow) (deliveryId : Option Nat)
    (now : Int) : Store :=
  let priv := root.priv.withTerminalDiagnostic (s.attemptCount outboxId root.priv)
    .planUnrecoverable now
  (s.closeAwaitingDelivery deliveryId .planUnrecoverable now).endAwaitingAck outboxId .deadLetter
    none priv now

def reclaimAwaitingAck (now : Int) (s : Store) (row : Nat × OutboxRow) : Option Store :=
  let outboxId := row.1
  let root := row.2
  let delivery := s.awaitingDelivery? outboxId
  let deliveryId := delivery.map Prod.fst
  if !connectorDeadlineDue
      [root.priv.ackDeadlineAt, root.nextAttemptAt, delivery.bind (·.2.ackDeadlineAt)] now then
    none
  else
    match s.newestPlanOf? outboxId with
    | none => some ((s.deadLetterOverdueRoot outboxId root deliveryId
        now).activateWaitingPresentationPlans root.hostId root.connector now)
    | some (planId, plan) =>
      if plan.state == .completed then
        some (s.settleCompletedRoot outboxId root deliveryId now)
      else if plan.state.live || plan.state == .failed then
        if s.planHasLiveJobLease planId now then
          none
        else
          some ((s.retryOverdueRoot outboxId root deliveryId planId plan
            now).activateWaitingPresentationPlans root.hostId root.connector now)
      else
        some ((s.deadLetterOverdueRoot outboxId root deliveryId
          now).activateWaitingPresentationPlans root.hostId root.connector now)

def connectorReclaimExpiredAwaitingAck (hostId : String) (name : Option String) (now : Int) :
    Store × Nat :=
  sweep (reclaimAwaitingAck now) (s.awaitingAckRows hostId name) s

/-- Also the number of rows reclaimed. -/
def connectorReclaimExpiredLeases (hostId : String) (name : Option String) (now : Int) :
    Store × Nat :=
  let (s₁, leases) := sweep (reclaimLease now) (s.leasedRows hostId name) s
  let (s₂, roots) := s₁.connectorReclaimExpiredAwaitingAck hostId name now
  (s₂, leases + roots)

lemma connectorReclaimExpiredLeases_fst (hostId : String) (name : Option String) (now : Int) :
    (s.connectorReclaimExpiredLeases hostId name now).1 =
      (sweep (reclaimAwaitingAck now)
        ((sweep (reclaimLease now) (s.leasedRows hostId name) s).1.awaitingAckRows hostId name)
        (sweep (reclaimLease now) (s.leasedRows hostId name) s).1).1 := rfl

/-! ### Exhausted attempts -/

def exhaustedRows (hostId : String) (name : Option String) (maxAttempts : Int) :
    List (Nat × OutboxRow) :=
  s.outbox.table.select fun i r => r.hostId == hostId && name.all (r.connector == ·) &&
    r.status.pollable && decide (max 1 maxAttempts ≤ s.attemptsUsed i)

def exhaustRow (now : Int) (s : Store) (row : Nat × OutboxRow) : Store :=
  let priv :=
    if row.2.connector == turnFinalName then
      row.2.priv.withTerminalDiagnostic (s.attemptCount row.1 row.2.priv) .attemptsExhausted now
    else
      .empty
  s.setOutbox row.1 fun r =>
    { r with status := .deadLetter, nextAttemptAt := none, updatedAt := now, priv }

def connectorExhaustRetryable (hostId : String) (name : Option String) (maxAttempts now : Int) :
    Store × Nat :=
  let rows := s.exhaustedRows hostId name maxAttempts
  ((rows.foldl (exhaustRow now) s).markExhaustedPresentationPlans hostId name, rows.length)

end Store

end Tendwire.Connector

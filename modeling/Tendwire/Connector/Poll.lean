import Tendwire.Connector.Recover

/-!
# Polling and settling leases

A poll leases due rows that pass the ordering gates. A lease then ends by acknowledgement,
failure, deferral or release, or is renewed. The operator can requeue a dead final.
-/

namespace Tendwire.Connector

/-- The secrets drawn for a new delivery. -/
structure LeaseSecrets where
  leaseToken : Nat
  publicRef : Nat

structure PollRequest where
  hostId : String
  name : String
  limit : Int
  leaseSeconds : Int
  maxAttempts : Option Int
  secrets : Nat → LeaseSecrets

structure PollItem where
  outboxId : Nat
  deliveryId : Nat
  key : DeliveryKey
  attempt : Nat
  leaseToken : Nat
  leasedUntil : Int
  ref : Nat
  availableAt : Int
  payload : Payload
  deriving DecidableEq

/-- What a consumer is told of a settled delivery. -/
structure SettleReceipt where
  result : DeliveryResponse
  key : DeliveryKey
  attempt : Nat
  availableAt : Option Int
  deriving DecidableEq

structure RenewReceipt where
  key : DeliveryKey
  attempt : Nat
  leasedUntil : Int
  deriving DecidableEq

/-- A failure or a deferral. -/
inductive Setback where
  | fail (maxAttempts : Option Int)
  | defer

def Setback.deliveryStatus : Setback → DeliveryStatus
  | .fail _ => .failed
  | .defer => .deferred

inductive FinalRetryReceipt where
  | staleRevision
  | recovered (receipt : RecoveryReceipt)
  | requeued (priorAttemptCount : Nat)
  deriving DecidableEq

namespace Store

variable (s : Store)

/-! ### The gates of a poll -/

def nextAttemptDue (r : OutboxRow) (now : Int) : Bool := r.nextAttemptAt.all (· ≤ now)

/-- An earlier root of the lane has not been handed to a plan yet. -/
def hasEarlierRoot (i : Nat) (r : OutboxRow) : Bool :=
  s.outbox.table.any fun j e => e.hostId == r.hostId && e.connector == r.connector &&
    e.deliveryKind == .finalReady && e.orderingKey == r.orderingKey && decide (j < i) &&
    !(e.status.terminal || e.status == .awaitingAck)

/-- `EXISTS` over the jobs of a plan left joined with their outbox rows. -/
def planHasJob (planId : Nat) (q : Option OutboxRow → Bool) : Bool :=
  s.jobs.table.any fun _ j => j.planId == planId && q (s.jobOutbox? j)

def hasActivePlan (r : OutboxRow) : Bool :=
  s.plans.table.any fun p plan => plan.hostId == r.hostId && plan.name == r.connector &&
    r.turnId == some plan.turnId && r.contentRevision == some plan.contentRevision &&
    plan.state == .active && s.planHasJob p fun o => o.all (·.status != .delivered)

/-- The plan came before row `i` in its lane: through its source, or through a job row. -/
def planPrecedes (p : Nat) (plan : Plan) (i : Nat) (r : OutboxRow) : Bool :=
  match plan.sourceOutboxId with
  | some sourceId => decide (sourceId < i) &&
      (s.outbox.get? sourceId).any (·.orderingKey == r.orderingKey)
  | none => s.jobs.table.any fun _ j => j.planId == p && match j.outboxId with
    | some jobRow => decide (jobRow < i) &&
        (s.outbox.get? jobRow).any (·.orderingKey == r.orderingKey)
    | none => false

def hasEarlierPlan (i : Nat) (r : OutboxRow) : Bool :=
  s.plans.table.any fun p plan => plan.hostId == r.hostId && plan.name == r.connector &&
    plan.state.live && s.planPrecedes p plan i r &&
    s.planHasJob p fun o => o.all (!·.status.terminal)

def hasEarlierPart (i : Nat) (r : OutboxRow) : Bool :=
  s.outbox.table.any fun j e => e.hostId == r.hostId && e.connector == r.connector &&
    e.deliveryKind == .finalPart && e.orderingKey == r.orderingKey && decide (j < i) &&
    !e.status.terminal

/-- An earlier job of the same plan is not delivered. -/
def hasUnfinishedPredecessor (job : Job) : Bool :=
  s.jobs.table.any fun _ j => j.planId == job.planId && decide (j.sequenceIndex < job.sequenceIndex)
    && (s.jobOutbox? j).any (·.status != .delivered)

/-- A job's row is due only in an active plan, after the jobs before it. -/
def jobDue (i : Nat) : Bool :=
  (!s.jobs.table.any fun _ j => j.outboxId == some i) ||
    s.jobs.table.any fun _ j => j.outboxId == some i &&
      (s.plans.get? j.planId).any (·.state == .active) && !s.hasUnfinishedPredecessor j

def eligible (hostId name : String) (now : Int) (i : Nat) (r : OutboxRow) : Bool :=
  r.hostId == hostId && r.connector == name && r.status.pollable &&
    r.deliveryKind != .finalMigrationHold && nextAttemptDue r now &&
    (r.deliveryKind != .finalReady ||
      !s.hasEarlierRoot i r && !s.hasActivePlan r && !s.hasEarlierPlan i r) &&
    (r.deliveryKind != .finalPart || !s.hasEarlierPart i r) && s.jobDue i

/-- A row of an active plan's job. -/
def inActivePlan (i : Nat) : Bool :=
  s.jobs.table.any fun _ j => j.outboxId == some i &&
    (s.plans.get? j.planId).any (·.state == .active)

/-- Rows of active plans first, then by id. -/
def eligibleRows (hostId name : String) (now : Int) (limit : Nat) : List (Nat × OutboxRow) :=
  ((s.outbox.table.select fun i r => s.eligible hostId name now i r && s.inActivePlan i) ++
    (s.outbox.table.select fun i r => s.eligible hostId name now i r && !s.inActivePlan i)).take limit

/-! ### Poll -/

def newLease (req : PollRequest) (now : Int) (outboxId : Nat) : Lease :=
  let secrets := req.secrets s.deliveries.next
  { deliveryId := s.deliveries.next
    attempt := s.maxAttempt outboxId + 1
    leaseToken := secrets.leaseToken
    leaseExpiresAt := connectorAddSeconds now (max 1 req.leaseSeconds)
    publicRef := secrets.publicRef }

/-- One attempt row and the lease it holds. -/
def leaseRow (req : PollRequest) (now : Int) (row : Nat × OutboxRow) : Store :=
  let lease := s.newLease req now row.1
  (s.insertDelivery {
    hostId := req.hostId
    connector := req.name
    deliveryKey := row.2.deliveryKey
    attempt := lease.attempt
    createdAt := now
    outboxId := some row.1
    status := .leased
    response := .none
    lease := some lease
    ackDeadlineAt := none
    deliveredAt := none }).updateOutbox (fun i r => i == row.1 && r.status.pollable) fun r =>
      { r with status := .leased, updatedAt := now, priv := row.2.priv.withLease lease }

def pollItem (req : PollRequest) (now : Int) (row : Nat × OutboxRow) : PollItem :=
  let lease := s.newLease req now row.1
  { outboxId := row.1
    deliveryId := lease.deliveryId
    key := row.2.deliveryKey
    attempt := lease.attempt
    leaseToken := lease.leaseToken
    leasedUntil := lease.leaseExpiresAt
    ref := lease.publicRef
    availableAt := now
    payload := row.2.payload }

def leaseRows (req : PollRequest) (now : Int) :
    List (Nat × OutboxRow) → Store → List PollItem → Store × List PollItem
  | [], s, items => (s, items)
  | row :: rows, s, items =>
    leaseRows req now rows (s.leaseRow req now row) (items ++ [s.pollItem req now row])

/-- The sweeps a poll starts with. -/
def beforePoll (req : PollRequest) (now : Int) : Store :=
  let s₁ := (s.connectorReclaimExpiredLeases req.hostId (some req.name) now).1
  match req.maxAttempts with
  | none => s₁
  | some maxAttempts =>
    (s₁.connectorExhaustRetryable req.hostId (some req.name) maxAttempts
      now).1.markExhaustedPresentationPlans req.hostId (some req.name)

def pollConnectorOutbox (req : PollRequest) (now : Int) : Store × List PollItem :=
  let s₁ := s.beforePoll req now
  let limit := (max 1 (min req.limit 100)).toNat
  leaseRows req now (s₁.eligibleRows req.hostId req.name now limit) s₁ []

/-! ### Settling a lease -/

/-- The sweep and the reference check before every operation on a lease. -/
def reclaimedLiveRef (hostId name : String) (ref : Nat) (now : Int) : Txn (Store × LiveRef) := do
  let s₁ := (s.connectorReclaimExpiredLeases hostId (some name) now).1
  let live ← s₁.validateLiveRef hostId name ref now
  return (s₁, live)

def extendLease (live : LiveRef) (leasedUntil now : Int) : Store :=
  (s.setDelivery live.deliveryId fun d =>
    { d with lease := d.lease.map ({ · with leaseExpiresAt := leasedUntil }) }).updateOutbox
    (fun i r => i == live.outboxId && r.status == .leased)
    fun r => { r with
      priv := { r.priv with lease := r.priv.lease.map ({ · with leaseExpiresAt := leasedUntil }) }
      updatedAt := now }

def renewConnectorDelivery (hostId name : String) (ref : Nat) (leaseSeconds now : Int) :
    Txn (Store × RenewReceipt) := do
  let (s₁, live) ← s.reclaimedLiveRef hostId name ref now
  let current := ((live.delivery.lease.map (·.leaseExpiresAt)).getD now)
  let leasedUntil := max current (connectorAddSeconds now (max 1 leaseSeconds))
  return (s₁.extendLease live leasedUntil now,
    { key := live.delivery.deliveryKey, attempt := live.delivery.attempt, leasedUntil })

def releaseConnectorDelivery (hostId name : String) (ref : Nat) (now : Int) :
    Txn (Store × SettleReceipt) := do
  let (s₁, live) ← s.reclaimedLiveRef hostId name ref now
  let superseded := live.outbox.priv.terminalAfterLease
  let status : OutboxStatus := live.outbox.requeueStatus
  let availableAt := if superseded then none else some now
  let s₂ := s₁.closeDelivery live.deliveryId (if superseded then .superseded else .released)
    (if superseded then .superseded else .released) now
  let s₃ := s₂.endLease live.outboxId status availableAt live.outbox.priv.clearCurrent now
  return (s₃.updatePresentationPlanAfterOutbox live.outboxId status now none,
    { result := if superseded then .superseded else .released
      key := live.delivery.deliveryKey
      attempt := live.delivery.attempt
      availableAt })

/-- An acknowledged row retires the others of its migration group. -/
def settleMigrationGroup (outboxId : Nat) (group : Option String) (now : Int) : Store :=
  match group with
  | none => s
  | some group =>
    (s.updateOutbox (fun i r => i != outboxId && r.status.pollable &&
      r.priv.migrationGroup == some group) fun r =>
        { r with status := .superseded, nextAttemptAt := none, updatedAt := now }).updateOutbox
      (fun i r => i != outboxId && r.status == .leased && r.priv.migrationGroup == some group)
      fun r => { r with priv := { r.priv with terminalAfterLease := true } }

def acknowledge (live : LiveRef) (now : Int) : Store :=
  (s.setDelivery live.deliveryId fun d =>
    { d with
      status := .delivered
      response := .acknowledged
      deliveredAt := some now }).setOutbox live.outboxId fun r =>
        { r with
          status := .delivered
          nextAttemptAt := none
          updatedAt := now
          priv := live.outbox.priv.clearCurrent }

def ackConnectorDelivery (hostId name : String) (ref : Nat) (ackTtlSeconds now : Int) :
    Txn (Store × SettleReceipt) := do
  let (s₁, live) ← s.reclaimedLiveRef hostId name ref now
  require (live.outbox.deliveryKind != .finalReady) .prepareRequired
  let s₂ := (s₁.acknowledge live now).settleMigrationGroup live.outboxId
    live.outbox.priv.migrationGroup now
  return (s₂.updatePresentationPlanAfterOutbox live.outboxId .delivered now
      (some (max 1 ackTtlSeconds)),
    { result := .acknowledged
      key := live.delivery.deliveryKey
      attempt := live.delivery.attempt
      availableAt := none })

/-- The row's next status and the recorded response. -/
def setbackOutcome (live : LiveRef) (setback : Setback) : OutboxStatus × DeliveryResponse :=
  if live.outbox.priv.terminalAfterLease then
    (.superseded, .superseded)
  else
    match setback with
    | .defer => (.deferred, .deferred)
    | .fail maxAttempts =>
      if maxAttempts.any fun limit => max 1 limit ≤ s.attemptsUsed live.outboxId then
        (.deadLetter, .attemptsExhausted)
      else
        (.retry, .retryScheduled)

def setbackPrivate (name : String) (live : LiveRef) (status : OutboxStatus) (now : Int) :
    OutboxPrivate :=
  if name == turnFinalName && status == .deadLetter then
    live.outbox.priv.withTerminalDiagnostic (s.attemptCount live.outboxId live.outbox.priv)
      .attemptsExhausted now
  else
    live.outbox.priv.clearCurrent

/-- The row and the delivery after a failure or a deferral. -/
def settleSetback (setback : Setback) (live : LiveRef) (status : OutboxStatus)
    (result : DeliveryResponse) (next : Option Int) (priv : OutboxPrivate) (now : Int) : Store :=
  (s.setDelivery live.deliveryId fun d =>
    { d with
      status := setback.deliveryStatus
      response := result
      deliveredAt := some now }).setOutbox live.outboxId fun r =>
        { r with status, nextAttemptAt := next, updatedAt := now, priv }

/-- `fail` and `defer`: `availableAt` if given, else `delaySeconds` from now, a minute by
default. -/
def setbackConnectorDelivery (setback : Setback) (hostId name : String) (ref : Nat)
    (availableAt : Option Int) (delaySeconds : Option Int) (now : Int) :
    Txn (Store × SettleReceipt) := do
  let (s₁, live) ← s.reclaimedLiveRef hostId name ref now
  let status := (s₁.setbackOutcome live setback).1
  let result := (s₁.setbackOutcome live setback).2
  let requested := availableAt.getD (connectorAddSeconds now (delaySeconds.getD 60))
  let nextAttemptAt := if status.terminal then none else some requested
  let priv := s₁.setbackPrivate name live status now
  let s₂ := s₁.settleSetback setback live status result nextAttemptAt priv now
  return (s₂.updatePresentationPlanAfterOutbox live.outboxId status now none,
    { result
      key := live.delivery.deliveryKey
      attempt := live.delivery.attempt
      availableAt := nextAttemptAt })

/-! ### Operator retry -/

/-- The revision of a root is no longer current: the root is superseded. -/
def retireStaleRoot (outboxId : Nat) (root : OutboxRow) (now : Int) : Store :=
  (s.updateDeliveries (fun _ d => d.outboxId == some outboxId && d.status != .delivered) fun d =>
    { d with status := .superseded, deliveredAt := some (d.deliveredAt.getD now) }).updateOutbox
    (fun i r => i == outboxId && r.status != .delivered)
    fun r => { r with
      status := .superseded
      nextAttemptAt := none
      updatedAt := now
      priv := root.priv.clearCurrent }

/-- The failed plans that hold a root back and have not been recovered. -/
def unrecoveredPlans (outboxId : Nat) (root : OutboxRow) : List (Nat × Plan) :=
  s.plans.table.select fun i p => p.hostId == root.hostId && p.name == turnFinalName &&
    root.turnId == some p.turnId && root.contentRevision == some p.contentRevision &&
    (p.sourceOutboxId.isNone || p.sourceOutboxId == some outboxId && root.status == .awaitingAck) &&
    p.state == .failed && !s.recoveries.table.any fun _ a => a.failedPlanId == i

def requeueRoot (outboxId : Nat) (root : OutboxRow) (authoritative : FinalPayload) (now : Int) :
    Store :=
  let priv := { root.priv.clearCurrent.clearTerminalDiagnostic with
    priorAttemptCount := root.priv.priorAttemptCount + s.deliveryCount outboxId }
  (s.deleteDeliveries fun _ d => d.outboxId == some outboxId).setOutbox outboxId fun r =>
    { r with
      deliveryKind := .finalReady
      status := .queued
      payload := if r.deliveryKind == .finalMigrationHold then .final authoritative else r.payload
      nextAttemptAt := none
      updatedAt := now
      priv }

def authoritativePayload? (hostId : String) (root : OutboxRow) : Option FinalPayload := do
  let turnId ← root.turnId
  let revision ← root.contentRevision
  let payload ← s.finalReadyPayload hostId turnId revision false
  guard (DeliveryKey.revision payload.finalIdentity == root.deliveryKey)
  return payload

def retryFinalReadyDelivery (hostId : String) (identity : FinalIdentity) (now : Int) :
    Txn (Store × FinalRetryReceipt) := do
  let (outboxId, root) ← demand (s.rootByKey? hostId (.revision identity)) .notFound
  require root.deliveryKind.isRoot .notRetryable
  match s.authoritativePayload? hostId root with
  | none => return (s.retireStaleRoot outboxId root now, .staleRevision)
  | some payload =>
    require (!(payload.knownIncomplete ||
      s.finalRevisionIsInternalAutomation hostId payload.turnId payload.contentRevision))
      .notRetryable
    match s.unrecoveredPlans outboxId root with
    | [(_, plan)] =>
      let (s₁, receipt) ← s.prepareConnectorPlanRecover
        { hostId
          name := turnFinalName
          failedPlanToken := plan.planToken
          requestId := .finalRetry hostId plan.planToken } now
      return (s₁, .recovered receipt)
    | _ =>
      require (root.status == .deadLetter) .notRetryable
      let attempts := s.deliveryCount outboxId
      require (!(root.deliveryKind == .finalMigrationHold && decide (0 < attempts))) .notRetryable
      return (s.requeueRoot outboxId root payload now,
        .requeued (root.priv.priorAttemptCount + attempts))

/-! ### What the operations do -/

variable {s} {s' : Store}

/-- The rows a poll leases are distinct and pass every gate. -/
theorem eligibleRows_spec (hostId name : String) (now : Int) (limit : Nat) :
    ((s.eligibleRows hostId name now limit).map Prod.fst).Nodup ∧
      ∀ row ∈ s.eligibleRows hostId name now limit,
        s.outbox.get? row.1 = some row.2 ∧ s.eligible hostId name now row.1 row.2 = true := by
  have hsel : ∀ p, ((s.outbox.table.select p).map Prod.fst).Nodup := by
    intro p
    rw [List.Nodup, List.pairwise_map]
    exact (s.outbox.table.sorted_select p).imp fun h => Nat.ne_of_lt h
  constructor
  · refine List.Nodup.sublist ((List.take_sublist _ _).map _) ?_
    rw [List.map_append]
    refine List.Nodup.append (hsel _) (hsel _) ?_
    intro i hi hi'
    obtain ⟨⟨j, r⟩, hm, rfl⟩ := List.mem_map.mp hi
    obtain ⟨⟨j', r'⟩, hm', hj⟩ := List.mem_map.mp hi'
    have h₁ := (Relational.Table.mem_select.mp hm).2
    have h₂ := (Relational.Table.mem_select.mp hm').2
    simp_all
  · intro row hrow
    rcases List.mem_append.mp (List.mem_of_mem_take hrow) with h | h
    · obtain ⟨hr, hp⟩ := Relational.Table.mem_select.mp h
      rw [Bool.and_eq_true] at hp
      exact ⟨hr, hp.1⟩
    · obtain ⟨hr, hp⟩ := Relational.Table.mem_select.mp h
      rw [Bool.and_eq_true] at hp
      exact ⟨hr, hp.1⟩

lemma eligible_pollable {hostId name : String} {now : Int} {i : Nat} {r : OutboxRow}
    (h : s.eligible hostId name now i r = true) : r.status.pollable = true := by
  unfold eligible at h
  simp only [Bool.and_eq_true] at h
  exact h.1.1.1.1.1.2

/-- Leasing rows one by one: what each lease preserves while the rest stays pollable, the
whole poll does. -/
theorem leaseRows_invariant {P : Store → Prop} {req : PollRequest} {now : Int}
    (hstep : ∀ s row r, s.outbox.get? row.1 = some r → r.status.pollable = true → P s →
      P (s.leaseRow req now row))
    {rows : List (Nat × OutboxRow)} (hnodup : (rows.map Prod.fst).Nodup)
    (hrows : ∀ row ∈ rows, ∃ r, s.outbox.get? row.1 = some r ∧ r.status.pollable = true)
    (hs : P s) (items : List PollItem) : P (leaseRows req now rows s items).1 := by
  induction rows generalizing s items with
  | nil => exact hs
  | cons row rows ih =>
    rw [List.map_cons, List.nodup_cons] at hnodup
    obtain ⟨r, hr, hp⟩ := hrows row (by simp)
    apply ih hnodup.2
    · intro row' hmem
      obtain ⟨r', hr', hp'⟩ := hrows row' (List.mem_cons_of_mem _ hmem)
      have hne : row'.1 ≠ row.1 := fun heq =>
        hnodup.1 (heq ▸ List.mem_map.mpr ⟨row', hmem, rfl⟩)
      refine ⟨r', ?_, hp'⟩
      unfold leaseRow
      dsimp only
      rw [outbox_updateOutbox]
      change (s.outbox.get? row'.1).map _ = _
      simp [hr', hne]
    · exact hstep s row r hr hp hs

theorem reclaimedLiveRef_spec {hostId name : String} {ref : Nat} {now : Int} {live : LiveRef}
    (h : s.reclaimedLiveRef hostId name ref now = .ok (s', live)) :
    s' = (s.connectorReclaimExpiredLeases hostId (some name) now).1 ∧
      s'.validateLiveRef hostId name ref now = .ok live := by
  obtain ⟨l, hl, h⟩ := bind_eq_ok.mp h
  obtain ⟨rfl, rfl⟩ := Prod.mk.inj (Except.ok.inj h)
  exact ⟨rfl, hl⟩

theorem renewConnectorDelivery_spec {hostId name : String} {ref : Nat} {leaseSeconds now : Int}
    {receipt : RenewReceipt}
    (h : s.renewConnectorDelivery hostId name ref leaseSeconds now = .ok (s', receipt)) :
    ∃ s₁ live leasedUntil, s.reclaimedLiveRef hostId name ref now = .ok (s₁, live) ∧
      s' = s₁.extendLease live leasedUntil now := by
  obtain ⟨⟨s₁, live⟩, hlive, h⟩ := bind_eq_ok.mp h
  obtain ⟨rfl, -⟩ := Prod.mk.inj (Except.ok.inj h)
  exact ⟨s₁, live, _, hlive, rfl⟩

theorem releaseConnectorDelivery_spec {hostId name : String} {ref : Nat} {now : Int}
    {receipt : SettleReceipt}
    (h : s.releaseConnectorDelivery hostId name ref now = .ok (s', receipt)) :
    ∃ s₁ live status response next, s.reclaimedLiveRef hostId name ref now = .ok (s₁, live) ∧
      (status = .superseded ∨ status = .released) ∧
      s' = ((s₁.closeDelivery live.deliveryId status response now).endLease live.outboxId
        live.outbox.requeueStatus next live.outbox.priv.clearCurrent
        now).updatePresentationPlanAfterOutbox live.outboxId live.outbox.requeueStatus now none := by
  obtain ⟨⟨s₁, live⟩, hlive, h⟩ := bind_eq_ok.mp h
  obtain ⟨rfl, -⟩ := Prod.mk.inj (Except.ok.inj h)
  refine ⟨s₁, live, _, _, _, hlive, ?_, rfl⟩
  split
  · exact .inl rfl
  · exact .inr rfl

theorem ackConnectorDelivery_spec {hostId name : String} {ref : Nat} {ttl now : Int}
    {receipt : SettleReceipt}
    (h : s.ackConnectorDelivery hostId name ref ttl now = .ok (s', receipt)) :
    ∃ s₁ live, s.reclaimedLiveRef hostId name ref now = .ok (s₁, live) ∧
      live.outbox.deliveryKind ≠ .finalReady ∧
      s' = ((s₁.acknowledge live now).settleMigrationGroup live.outboxId
        live.outbox.priv.migrationGroup now).updatePresentationPlanAfterOutbox live.outboxId
          .delivered now (some (max 1 ttl)) := by
  obtain ⟨⟨s₁, live⟩, hlive, h⟩ := bind_eq_ok.mp h
  obtain ⟨_, hkind, h⟩ := bind_eq_ok.mp h
  obtain ⟨rfl, -⟩ := Prod.mk.inj (Except.ok.inj h)
  exact ⟨s₁, live, hlive, by simpa using require_eq_ok.mp hkind, rfl⟩

lemma setbackOutcome_status (live : LiveRef) (setback : Setback) :
    (s.setbackOutcome live setback).1 = .superseded ∨
      (s.setbackOutcome live setback).1 = .deferred ∨
      (s.setbackOutcome live setback).1 = .deadLetter ∨
      (s.setbackOutcome live setback).1 = .retry := by
  unfold setbackOutcome
  split
  · simp
  · split
    · simp
    · split <;> simp

lemma setbackPrivate_lease (name : String) (live : LiveRef) (status : OutboxStatus) (now : Int) :
    (s.setbackPrivate name live status now).lease = none := by
  unfold setbackPrivate
  split <;> rfl

theorem setbackConnectorDelivery_spec {setback : Setback} {hostId name : String} {ref : Nat}
    {availableAt delaySeconds : Option Int} {now : Int} {receipt : SettleReceipt}
    (h : s.setbackConnectorDelivery setback hostId name ref availableAt delaySeconds now =
      .ok (s', receipt)) :
    ∃ s₁ live result next priv, s.reclaimedLiveRef hostId name ref now = .ok (s₁, live) ∧
      priv.lease = none ∧
      s' = (s₁.settleSetback setback live (s₁.setbackOutcome live setback).1 result next priv
        now).updatePresentationPlanAfterOutbox live.outboxId (s₁.setbackOutcome live setback).1
          now none := by
  obtain ⟨⟨s₁, live⟩, hlive, h⟩ := bind_eq_ok.mp h
  obtain ⟨rfl, -⟩ := Prod.mk.inj (Except.ok.inj h)
  exact ⟨s₁, live, _, _, _, hlive, setbackPrivate_lease _ _ _ _, rfl⟩

/-- An operator retry supersedes a stale root, recovers the plan that holds the root back, or
requeues a dead root. -/
theorem retryFinalReadyDelivery_cases {hostId : String} {identity : FinalIdentity} {now : Int}
    {receipt : FinalRetryReceipt}
    (h : s.retryFinalReadyDelivery hostId identity now = .ok (s', receipt)) :
    ∃ i root, s.rootByKey? hostId (.revision identity) = some (i, root) ∧
      root.deliveryKind.isRoot = true ∧
      (s.authoritativePayload? hostId root = none ∧ s' = s.retireStaleRoot i root now ∨
        (∃ plan receipt', s.prepareConnectorPlanRecover
          { hostId
            name := turnFinalName
            failedPlanToken := plan
            requestId := .finalRetry hostId plan } now = .ok (s', receipt')) ∨
        ∃ payload, s.authoritativePayload? hostId root = some payload ∧
          root.status = .deadLetter ∧ s' = s.requeueRoot i root payload now) := by
  unfold retryFinalReadyDelivery at h
  obtain ⟨⟨i, root⟩, hroot, h⟩ := bind_eq_ok.mp h
  obtain ⟨_, hkind, h⟩ := bind_eq_ok.mp h
  refine ⟨i, root, demand_eq_ok.mp hroot, require_eq_ok.mp hkind, ?_⟩
  split at h
  · next hnone =>
    obtain ⟨rfl, -⟩ := Prod.mk.inj (Except.ok.inj h)
    exact .inl ⟨hnone, rfl⟩
  · next payload hsome =>
    right
    obtain ⟨_, -, h⟩ := bind_eq_ok.mp h
    split at h
    · obtain ⟨⟨s₁, receipt'⟩, hrec, h⟩ := bind_eq_ok.mp h
      obtain ⟨rfl, -⟩ := Prod.mk.inj (Except.ok.inj h)
      exact .inl ⟨_, receipt', hrec⟩
    · obtain ⟨_, hdead, h⟩ := bind_eq_ok.mp h
      obtain ⟨_, -, h⟩ := bind_eq_ok.mp h
      obtain ⟨rfl, -⟩ := Prod.mk.inj (Except.ok.inj h)
      exact .inr ⟨payload, hsome, by simpa using require_eq_ok.mp hdead, rfl⟩

end Store

end Tendwire.Connector

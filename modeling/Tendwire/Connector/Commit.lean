import Tendwire.Connector.Prepare
import Tendwire.Connector.Reclaim

/-!
# Committing a plan

The commit checks that the staged parts cover the content, materializes one job row for each
part and one for each older part to retire, and moves the source root to `awaiting_ack`.
-/

namespace Tendwire.Connector

/-- The fields of a plan that the payload of every job repeats. -/
structure JobCommon where
  planToken : PlanToken
  contentRevision : ContentRevision
  presentationVersion : String
  partCount : Nat
  replacesPlanToken : Option PlanToken
  turn : Option FinalPayload
  predecessorJobKey : Option DeliveryKey

structure JobSpec where
  sequenceIndex : Nat
  operation : JobOperation
  partOrdinal : Nat
  spans : List Span

def JobSpec.job (j : JobSpec) (planId : Nat) (now : Int) : Job :=
  { planId
    sequenceIndex := j.sequenceIndex
    operation := j.operation
    partOrdinal := j.partOrdinal
    spans := j.spans
    outboxId := none
    createdAt := now }

def JobCommon.payload (c : JobCommon) (j : JobSpec) : PartPayload :=
  { planToken := c.planToken
    contentRevision := c.contentRevision
    presentationVersion := c.presentationVersion
    partCount := c.partCount
    replacesPlanToken := c.replacesPlanToken
    turn := c.turn
    predecessorJobKey := c.predecessorJobKey
    operation := j.operation
    sequenceIndex := j.sequenceIndex
    partOrdinal := j.partOrdinal
    spans := j.spans }

/-! ### Coverage -/

def advanceCoverage (row : RevisionRow) (cursors : SpanCursors) (span : Span) :
    Option SpanCursors :=
  if row.state span.field == .complete && span.startChar == (cursors span.field).getD 0 then
    some (cursors.advance span)
  else
    none

def requiredCursor (row : RevisionRow) (field : TurnField) : Option Nat :=
  if row.state field == .complete && decide (0 < row.charLength field) then
    some (row.charLength field)
  else
    none

/-- Every complete nonempty field is covered from 0 to its length without gap or overlap. -/
def presentationExactCoverage (row : RevisionRow) (parts : List (List Span)) : Bool :=
  match parts.flatten.foldlM (advanceCoverage row) (fun _ => none) with
  | none => false
  | some cursors => cursors .userText == requiredCursor row .userText &&
      cursors .assistantFinalText == requiredCursor row .assistantFinalText

/-- The row a job starts with. -/
def jobRow (plan : Plan) (hostId name : String) (token : PlanToken) (orderingKey : String)
    (payload : PartPayload) (now : Int) : OutboxRow :=
  { hostId
    connector := name
    deliveryKey := .job name token payload.sequenceIndex
    turnId := some plan.turnId
    contentRevision := some plan.contentRevision
    orderingKey
    createdAt := now
    deliveryKind := .finalPart
    status := .queued
    payload := .part payload
    priv := .empty
    updatedAt := now
    nextAttemptAt := none }

structure PlanCommit where
  hostId : String
  name : String
  planToken : PlanToken
  sourceRef : Option Nat
  ackTtlSeconds : Int

namespace Store

variable (s : Store)

/-! ### Materializing jobs -/

def jobOrderingKey (planId : Nat) (hostId : String) : Txn (Plan × String) := do
  let plan ← demand (s.plans.get? planId) .schemaError
  return (plan, match plan.sourceOutboxId.bind s.outbox.get? with
    | some source => source.orderingKey
    | none => s.turnOrderingKey hostId plan.turnId)

/-- The job's queued outbox row, linked to the job. -/
def materializeConnectorPlanJob (planId jobId : Nat) (hostId name : String) (token : PlanToken)
    (payload : PartPayload) (now : Int) : Txn Store := do
  let (plan, orderingKey) ← s.jobOrderingKey planId hostId
  let s₁ ← s.insertOutbox (jobRow plan hostId name token orderingKey payload now)
  s₁.linkJob planId jobId s.outbox.table.next

/-- Inserts a job together with its row. -/
def addJob (planId : Nat) (hostId name : String) (token : PlanToken) (common : JobCommon)
    (now : Int) (s : Store) (j : JobSpec) : Txn Store := do
  let s₁ ← s.insertJob (j.job planId now)
  s₁.materializeConnectorPlanJob planId s.jobs.table.freeId hostId name token (common.payload j) now

def stagedSpec (job : Job) : JobSpec :=
  { sequenceIndex := job.partOrdinal
    operation := .upsert
    partOrdinal := job.partOrdinal
    spans := job.spans }

/-- Gives a staged part its row. -/
def materializeStaged (planId : Nat) (hostId name : String) (token : PlanToken)
    (common : JobCommon) (now : Int) (s : Store) (job : Nat × Job) : Txn Store :=
  s.materializeConnectorPlanJob planId job.1 hostId name token (common.payload (stagedSpec job.2)) now

/-- The staged parts of a plan by ordinal. -/
def stagedJobs (planId : Nat) : List (Nat × Job) :=
  (s.jobs.table.select fun _ j => j.planId == planId && j.operation == .upsert).insertionSort
    fun a b => a.2.partOrdinal ≤ b.2.partOrdinal

def materializedJobCount (planId : Nat) : Nat :=
  (s.jobs.table.select fun _ j => j.planId == planId && j.outboxId.isSome).length

/-! ### The footprint of earlier plans -/

def activatedPredecessor? (hostId name turnId : String) (planId : Nat) : Option (Nat × Plan) :=
  s.plans.table.newest? fun i p => p.hostId == hostId && p.name == name && p.turnId == turnId &&
    i != planId && p.activatedAt.isSome

def completedBaseline (hostId name turnId : String) (planId : Nat) : Nat :=
  ((s.plans.table.newest? fun i p => p.hostId == hostId && p.name == name && p.turnId == turnId &&
    i != planId && p.completedAt.isSome).map Prod.fst).getD 0

/-- The most parts an activated plan of the turn has, from the last completed one on. -/
def priorPartCount (hostId name turnId : String) (planId : Nat) : Nat :=
  ((s.plans.table.select fun i p => p.hostId == hostId && p.name == name && p.turnId == turnId &&
    i != planId && p.activatedAt.isSome &&
    decide (s.completedBaseline hostId name turnId planId ≤ i)).map (·.2.partCount)).foldl max 0

/-- The jobs that retire the parts `[partCount, priorPartCount)`, last part first. -/
def retireSpecs (partCount priorPartCount : Nat) : List JobSpec :=
  (List.range (priorPartCount - partCount)).map fun k =>
    { sequenceIndex := partCount + k
      operation := .retire
      partOrdinal := priorPartCount - 1 - k
      spans := [] }

/-! ### The source root -/

def commitSource (plan : Plan) (sourceRef : Option Nat) (now : Int) :
    Txn (Option LiveRef × Option FinalPayload) := do
  match plan.sourceOutboxId with
  | some sourceId =>
    let ref ← demand sourceRef .invalidRef
    let live ← s.validateSourceRef plan.hostId plan.name plan.turnId plan.contentRevision ref now
    require (live.outboxId == sourceId) .staleRef
    return (some live, live.outbox.payload.final?)
  | none =>
    let route ← demand
      (s.sourceLessAuthoritativeRoute plan.hostId plan.turnId plan.contentRevision) .invalidRef
    require sourceRef.isNone .staleRef
    return (none, some route)

/-- The leased root waits for the acknowledgement of the plan's jobs. -/
def awaitAcknowledgement (live : LiveRef) (generation footprint : Nat) (deadline now : Int) :
    Txn Store := do
  let root ← demand (s.outbox.get? live.outboxId) .schemaError
  require (root.status == .leased) .schemaError
  require (s.deliveries.any fun i d => i == live.deliveryId &&
    d.outboxId == some live.outboxId && d.status == .leased) .schemaError
  let s₁ := s.updateDeliveries
    (fun i d => i == live.deliveryId && d.outboxId == some live.outboxId && d.status == .leased)
    fun d => { d with
      status := .awaitingAck
      response := .prepared
      ackDeadlineAt := some deadline
      deliveredAt := none }
  return s₁.endLease live.outboxId .awaitingAck (some deadline)
    { root.priv.clearCurrent with
      presentationGeneration := generation
      ackDeadlineAt := some deadline
      presentationMaxPartCount := max root.priv.presentationMaxPartCount footprint } now

def holdSource (live : Option LiveRef) (generation footprint : Nat) (deadline now : Int) :
    Txn Store :=
  match live with
  | some live => s.awaitAcknowledgement live generation footprint deadline now
  | none => .ok s

/-! ### Commit -/

/-- Everything the commit checks before its first write. -/
structure CommitWork where
  planId : Nat
  plan : Plan
  live : Option LiveRef
  turn : Option FinalPayload
  staged : List (Nat × Job)
  replacesPlanToken : Option PlanToken
  priorPartCount : Nat

def commitWork (req : PlanCommit) (planId : Nat) (plan : Plan) (now : Int) : Txn CommitWork := do
  let row ← s.currentPresentationRevision req.hostId plan.turnId plan.contentRevision
  let (live, turn) ← s.commitSource plan req.sourceRef now
  require (plan.state == .preparing) .planConflict
  let staged := s.stagedJobs planId
  require (staged.map (·.2.partOrdinal) == List.range plan.partCount &&
    presentationExactCoverage row (staged.map (·.2.spans))) .planIncomplete
  return {
    planId
    plan
    live
    turn
    staged
    replacesPlanToken :=
      (s.activatedPredecessor? req.hostId req.name plan.turnId planId).map (·.2.planToken)
    priorPartCount := max (s.priorPartCount req.hostId req.name plan.turnId planId)
      ((live.map (·.outbox.priv.presentationMaxPartCount)).getD 0) }

def CommitWork.common (w : CommitWork) : JobCommon :=
  { planToken := w.plan.planToken
    contentRevision := w.plan.contentRevision
    presentationVersion := w.plan.presentationVersion
    partCount := w.plan.partCount
    replacesPlanToken := w.replacesPlanToken
    turn := w.turn
    predecessorJobKey := none }

def materializeCommit (w : CommitWork) (now : Int) : Txn Store := do
  let s₁ ← w.staged.foldlM (materializeStaged w.planId w.plan.hostId w.plan.name w.plan.planToken
    w.common now) s
  (retireSpecs w.plan.partCount w.priorPartCount).foldlM
    (addJob w.planId w.plan.hostId w.plan.name w.plan.planToken w.common now) s₁

/-- The plan starts, or waits for the leased rows of the plans it replaces. -/
def startPlan (w : CommitWork) (now : Int) : Store × PlanState :=
  let (s₁, leasedPredecessor) := s.markObsoletePresentationPlans w.plan.hostId w.plan.name
    w.plan.turnId w.planId now
  let state := if leasedPredecessor then .waitingPredecessor else .active
  (s₁.updatePlans (fun i p => i == w.planId && p.state == .preparing) fun p =>
    { p with
      state
      replacesPlanToken := w.replacesPlanToken
      activatedAt := if leasedPredecessor then none else some now }, state)

def prepareConnectorPlanCommit (req : PlanCommit) (now : Int) : Txn (Store × PlanReceipt) := do
  require (req.name == turnFinalName) .invalidParams
  let (planId, plan) ← demand (s.planByToken? req.hostId req.name req.planToken) .planNotFound
  if 0 < s.materializedJobCount planId then
    return (s, { planToken := plan.planToken
                 state := plan.state
                 jobCount := s.materializedJobCount planId
                 generation := plan.generation })
  let w ← s.commitWork req planId plan now
  let s₁ ← s.materializeCommit w now
  let (s₂, state) := s₁.startPlan w now
  let deadline := connectorAddSeconds now (max 1 req.ackTtlSeconds)
  let footprint := max w.priorPartCount plan.partCount
  let s₃ ← s₂.holdSource w.live plan.generation footprint deadline now
  return (s₃, { planToken := plan.planToken
                state
                jobCount := footprint
                generation := plan.generation })

/-! ### What a commit does -/

variable {s} {s' : Store}

theorem materializeConnectorPlanJob_spec {planId jobId : Nat} {hostId name : String}
    {token : PlanToken} {payload : PartPayload} {now : Int}
    (h : s.materializeConnectorPlanJob planId jobId hostId name token payload now = .ok s') :
    ∃ plan orderingKey s₁, s.jobOrderingKey planId hostId = .ok (plan, orderingKey) ∧
      s.insertOutbox (jobRow plan hostId name token orderingKey payload now) = .ok s₁ ∧
      s₁.linkJob planId jobId s.outbox.table.next = .ok s' := by
  obtain ⟨⟨plan, orderingKey⟩, hkey, h⟩ := bind_eq_ok.mp h
  obtain ⟨s₁, hs₁, h⟩ := bind_eq_ok.mp h
  exact ⟨plan, orderingKey, s₁, hkey, hs₁, h⟩

theorem addJob_spec {planId : Nat} {hostId name : String} {token : PlanToken} {common : JobCommon}
    {now : Int} {j : JobSpec} (h : addJob planId hostId name token common now s j = .ok s') :
    ∃ s₁, s.insertJob (j.job planId now) = .ok s₁ ∧
      s₁.materializeConnectorPlanJob planId s.jobs.table.freeId hostId name token
        (common.payload j) now = .ok s' :=
  bind_eq_ok.mp h

theorem commitSource_spec {plan : Plan} {sourceRef : Option Nat} {now : Int}
    {live : Option LiveRef} {turn : Option FinalPayload}
    (h : s.commitSource plan sourceRef now = .ok (live, turn)) :
    (∃ i l, plan.sourceOutboxId = some i ∧ live = some l ∧ l.outboxId = i ∧
        ∃ ref, s.validateSourceRef plan.hostId plan.name plan.turnId plan.contentRevision ref
          now = .ok l) ∨
      plan.sourceOutboxId = none ∧ live = none := by
  unfold commitSource at h
  split at h
  · next i hi =>
    left
    obtain ⟨ref, -, h⟩ := bind_eq_ok.mp h
    obtain ⟨l, hl, h⟩ := bind_eq_ok.mp h
    obtain ⟨_, hid, h⟩ := bind_eq_ok.mp h
    obtain ⟨rfl, -⟩ := Prod.mk.inj (Except.ok.inj h)
    have hc := require_eq_ok.mp hid
    exact ⟨i, l, hi, rfl, by simpa using hc, ref, hl⟩
  · next hi =>
    right
    obtain ⟨_, -, h⟩ := bind_eq_ok.mp h
    obtain ⟨_, -, h⟩ := bind_eq_ok.mp h
    obtain ⟨rfl, -⟩ := Prod.mk.inj (Except.ok.inj h)
    exact ⟨hi, rfl⟩

theorem commitWork_spec {req : PlanCommit} {planId : Nat} {plan : Plan} {now : Int} {w : CommitWork}
    (h : s.commitWork req planId plan now = .ok w) :
    w.planId = planId ∧ w.plan = plan ∧ plan.state = .preparing ∧ w.staged = s.stagedJobs planId ∧
      w.staged.map (·.2.partOrdinal) = List.range plan.partCount ∧
      w.priorPartCount = max (s.priorPartCount req.hostId req.name plan.turnId planId)
        ((w.live.map (·.outbox.priv.presentationMaxPartCount)).getD 0) ∧
      ∃ ref, s.commitSource plan ref now = .ok (w.live, w.turn) := by
  unfold commitWork at h
  obtain ⟨_, -, h⟩ := bind_eq_ok.mp h
  obtain ⟨⟨live, turn⟩, hsource, h⟩ := bind_eq_ok.mp h
  obtain ⟨_, hstate, h⟩ := bind_eq_ok.mp h
  obtain ⟨_, hparts, h⟩ := bind_eq_ok.mp h
  obtain rfl := Except.ok.inj h
  have hc := require_eq_ok.mp hparts
  rw [Bool.and_eq_true, beq_iff_eq] at hc
  exact ⟨rfl, rfl, by simpa using require_eq_ok.mp hstate, rfl, hc.1, rfl, _, hsource⟩

/-- A commit starts a prepared plan without job rows, or changes nothing. -/
theorem prepareConnectorPlanCommit_cases {req : PlanCommit} {now : Int} {receipt : PlanReceipt}
    (h : s.prepareConnectorPlanCommit req now = .ok (s', receipt)) :
    s' = s ∨ ∃ planId plan w s₁ footprint deadline,
      s.planByToken? req.hostId req.name req.planToken = some (planId, plan) ∧
      s.materializedJobCount planId = 0 ∧ s.commitWork req planId plan now = .ok w ∧
      s.materializeCommit w now = .ok s₁ ∧
      (s₁.startPlan w now).1.holdSource w.live plan.generation footprint deadline now = .ok s' := by
  unfold prepareConnectorPlanCommit at h
  obtain ⟨_, -, h⟩ := bind_eq_ok.mp h
  obtain ⟨⟨planId, plan⟩, hplan, h⟩ := bind_eq_ok.mp h
  dsimp only at h
  split at h
  · obtain ⟨rfl, -⟩ := Prod.mk.inj (Except.ok.inj h)
    exact .inl rfl
  · next hcount =>
    right
    obtain ⟨w, hw, h⟩ := bind_eq_ok.mp h
    obtain ⟨s₁, hs₁, h⟩ := bind_eq_ok.mp h
    obtain ⟨s₃, hs₃, h⟩ := bind_eq_ok.mp h
    obtain ⟨rfl, -⟩ := Prod.mk.inj (Except.ok.inj h)
    exact ⟨planId, plan, w, s₁, _, _, demand_eq_ok.mp hplan, by omega, hw, hs₁, hs₃⟩

/-- The root and the delivery that hold the lease move to `awaiting_ack` together. -/
theorem awaitAcknowledgement_spec {live : LiveRef} {generation footprint : Nat}
    {deadline now : Int}
    (h : s.awaitAcknowledgement live generation footprint deadline now = .ok s') :
    ∃ root d, s.outbox.get? live.outboxId = some root ∧ root.status = .leased ∧
      s.deliveries.get? live.deliveryId = some d ∧ d.outboxId = some live.outboxId ∧
      d.status = .leased ∧
      s' = (s.updateDeliveries
        (fun i d => i == live.deliveryId && d.outboxId == some live.outboxId && d.status == .leased)
        fun d => { d with
          status := .awaitingAck
          response := .prepared
          ackDeadlineAt := some deadline
          deliveredAt := none }).endLease live.outboxId .awaitingAck (some deadline)
        { root.priv.clearCurrent with
          presentationGeneration := generation
          ackDeadlineAt := some deadline
          presentationMaxPartCount := max root.priv.presentationMaxPartCount footprint } now := by
  unfold awaitAcknowledgement at h
  obtain ⟨root, hroot, h⟩ := bind_eq_ok.mp h
  obtain ⟨_, hstatus, h⟩ := bind_eq_ok.mp h
  obtain ⟨_, hany, h⟩ := bind_eq_ok.mp h
  obtain ⟨k, d, hd, hc⟩ := Relational.Table.any_iff.mp (require_eq_ok.mp hany)
  simp only [Bool.and_eq_true, beq_iff_eq] at hc
  obtain ⟨⟨rfl, ho⟩, hl⟩ := hc
  exact ⟨root, d, demand_eq_ok.mp hroot, by simpa using require_eq_ok.mp hstatus, hd, ho, hl,
    (Except.ok.inj h).symm⟩

end Store

end Tendwire.Connector

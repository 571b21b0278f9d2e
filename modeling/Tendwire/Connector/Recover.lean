import Tendwire.Connector.Commit

/-!
# Recovering a failed plan

An explicit recovery replaces a failed plan by one that holds only its unfinished suffix. The
acknowledged prefix stays where it is, and the replaced jobs are deleted.
-/

namespace Tendwire.Connector

def presentationRecoveryHistoryLimit : Nat := 4

structure RecoveryReceipt where
  failedPlanToken : PlanToken
  planToken : PlanToken
  generation : Nat
  contentRevision : ContentRevision
  acknowledgedPrefixCount : Nat
  executableJobCount : Nat
  retainedFailedJobCount : Nat
  priorAttemptCount : Nat
  idempotentReplay : Bool
  deriving DecidableEq

structure PlanRecover where
  hostId : String
  name : String
  failedPlanToken : PlanToken
  requestId : RequestId

/-- A job of the failed plan with its outbox row. -/
structure SourceJob where
  job : Job
  outbox : OutboxRow

namespace Store

variable (s : Store)

/-! ### The failed plan's jobs -/

/-- The materialized jobs of a plan in sequence order. -/
def sourceJobs (planId : Nat) : List SourceJob :=
  ((s.jobs.table.select fun _ j => j.planId == planId).insertionSort
    fun a b => a.2.sequenceIndex ≤ b.2.sequenceIndex).filterMap fun e =>
      (s.jobOutbox? e.2).map fun outbox => { job := e.2, outbox }

def planAttemptCount (planId : Nat) : Nat :=
  (s.deliveries.select fun _ d => d.outboxId.any (s.isJobOf (· == planId))).length

def latestGeneration (plan : Plan) : Nat :=
  ((s.plans.table.select fun _ p => p.hostId == plan.hostId && p.name == plan.name &&
    p.turnId == plan.turnId && p.contentRevision == plan.contentRevision &&
    p.presentationVersion == plan.presentationVersion).map (·.2.generation)).foldl max 0

/-- The audit that a plan came from, if it is itself a recovery. -/
def inheritedAudit? (planId : Nat) : Option Recovery :=
  (s.recoveries.table.first? fun _ a => a.recoveredPlanId == planId).map Prod.snd

/-- The route a source-less plan was committed with: the one its jobs agree on. -/
def jobRoute (plan : Plan) (jobs : List SourceJob) : Txn (Option FinalPayload) := do
  let routes := ((jobs.filterMap fun j => j.outbox.payload.part? >>= (·.turn)).filter fun route =>
    route.turnId == plan.turnId && route.contentRevision == plan.contentRevision &&
      route.stableKey.any validFinalStableKey).dedup
  match routes with
  | [route] =>
    require (!s.finalRevisionIsInternalAutomation plan.hostId plan.turnId plan.contentRevision)
      .planConflict
    return some route
  | _ => .error .planConflict

def recoveryRoute (plan : Plan) (jobs : List SourceJob) : Txn (Option FinalPayload) :=
  match plan.sourceOutboxId with
  | some sourceId => do
    let root ← demand ((s.outbox.get? sourceId).filter (·.deliveryKind == .finalReady)) .planConflict
    return root.payload.final?
  | none => s.jobRoute plan jobs

/-- The key of the last acknowledged job, through earlier recoveries if need be. -/
def predecessorJobKey (jobs : List SourceJob) (acknowledged inherited : Nat) :
    Txn (Option DeliveryKey) :=
  if acknowledged = 0 then
    if inherited = 0 then
      .ok none
    else
      (demand (jobs.head?.bind (·.outbox.payload.part?) >>= (·.predecessorJobKey))
        .planConflict).map some
  else
    .ok (jobs[acknowledged - 1]?.map (·.outbox.deliveryKey))

/-- Everything a recovery checks and computes before its first write. -/
structure RecoveryWork where
  failedId : Nat
  failed : Plan
  planToken : PlanToken
  jobs : List SourceJob
  acknowledgedPrefixCount : Nat
  suffix : List SourceJob
  retainedFailedJobCount : Nat
  priorAttemptCount : Nat
  turn : Option FinalPayload
  predecessorJobKey : Option DeliveryKey

def recoveryWork (req : PlanRecover) (failedId : Nat) (failed : Plan) : Txn RecoveryWork := do
  require (!s.recoveries.table.any fun _ a => a.failedPlanId == failedId) .planConflict
  require (failed.state == .failed) .planNotFailed
  let _ ← s.currentPresentationRevision req.hostId failed.turnId failed.contentRevision
  require (s.latestGeneration failed == failed.generation) .planConflict
  let inherited := s.inheritedAudit? failedId
  let inheritedPrefix := (inherited.map (·.deliveredPrefixCount)).getD 0
  let inheritedFailed := (inherited.map (·.retainedFailedJobCount)).getD 0
  let inheritedAttempts := (inherited.map (·.priorAttemptCount)).getD 0
  let jobs := s.sourceJobs failedId
  require (!jobs.isEmpty && jobs.map (·.job.sequenceIndex) ==
    (List.range jobs.length).map (inheritedPrefix + ·)) .planConflict
  let acknowledged := (jobs.takeWhile (·.outbox.status == .delivered)).length
  let suffix := jobs.drop acknowledged
  let failedCount := suffix.countP (·.outbox.status == .deadLetter)
  require (!suffix.isEmpty && decide (0 < failedCount) &&
    suffix.all fun j => j.outbox.status != .delivered && j.outbox.status != .leased) .planConflict
  let attempts := s.planAttemptCount failedId
  require (decide (1 ≤ attempts)) .planConflict
  let turn ← s.recoveryRoute failed jobs
  let key ← predecessorJobKey jobs acknowledged inheritedPrefix
  return {
    failedId
    failed
    planToken := .recovery req.hostId req.name req.failedPlanToken req.requestId
      (failed.generation + 1)
    jobs
    acknowledgedPrefixCount := inheritedPrefix + acknowledged
    suffix
    retainedFailedJobCount := inheritedFailed + failedCount
    priorAttemptCount := inheritedAttempts + attempts
    turn
    predecessorJobKey := key }

/-! ### Writing the recovered plan -/

def RecoveryWork.plan (w : RecoveryWork) (now : Int) : Plan :=
  { hostId := w.failed.hostId
    name := w.failed.name
    planToken := w.planToken
    turnId := w.failed.turnId
    contentRevision := w.failed.contentRevision
    presentationVersion := w.failed.presentationVersion
    generation := w.failed.generation + 1
    partCount := w.failed.partCount
    recoversPlanToken := some w.failed.planToken
    createdAt := now
    sourceOutboxId := w.failed.sourceOutboxId
    state := .active
    replacesPlanToken := some w.failed.planToken
    activatedAt := some now
    completedAt := none }

def RecoveryWork.common (w : RecoveryWork) : JobCommon :=
  { planToken := w.planToken
    contentRevision := w.failed.contentRevision
    presentationVersion := w.failed.presentationVersion
    partCount := w.failed.partCount
    replacesPlanToken := some w.failed.planToken
    turn := w.turn
    predecessorJobKey := w.predecessorJobKey }

def RecoveryWork.specs (w : RecoveryWork) : List JobSpec :=
  w.suffix.map fun j =>
    { sequenceIndex := j.job.sequenceIndex
      operation := j.job.operation
      partOrdinal := j.job.partOrdinal
      spans := j.job.spans }

def RecoveryWork.audit (w : RecoveryWork) (requestId : RequestId) (recoveredId : Nat) (now : Int) :
    Recovery :=
  { hostId := w.failed.hostId
    name := w.failed.name
    requestId
    failedPlanId := w.failedId
    recoveredPlanId := recoveredId
    failedPlanToken := w.failed.planToken
    recoveredPlanToken := w.planToken
    generation := w.failed.generation + 1
    sourceJobCount := w.jobs.length
    deliveredPrefixCount := w.acknowledgedPrefixCount
    freshJobCount := w.suffix.length
    retainedFailedJobCount := w.retainedFailedJobCount
    priorAttemptCount := w.priorAttemptCount
    createdAt := now }

/-- The failed plan and the plans it recovers, back to the first. -/
def lineageIds : Nat → Nat → List Nat
  | 0, _ => []
  | fuel + 1, planId =>
    match s.plans.get? planId with
    | none => []
    | some plan =>
      planId :: match plan.recoversPlanToken >>= s.planByToken? plan.hostId plan.name with
        | some (predecessorId, _) => lineageIds fuel predecessorId
        | none => []

/-- The unacknowledged rows of the replaced plans go, with their jobs and attempts. The
source first supersedes the rows that it then deletes. -/
def deleteUnacknowledged (lineage : Nat → Bool) : Txn Store :=
  let obsolete := fun i => s.isJobOf lineage i && (s.outbox.get? i).any (·.status != .delivered)
  ((s.deleteDeliveries fun _ d => d.outboxId.any obsolete).deleteJobs
    fun _ j => j.outboxId.any obsolete).deleteOutbox fun i _ => obsolete i

def ofPresentation (plan p : Plan) : Bool :=
  p.hostId == plan.hostId && p.name == plan.name && p.turnId == plan.turnId &&
    p.contentRevision == plan.contentRevision && p.presentationVersion == plan.presentationVersion

/-- The audits of a presentation, newest generation first. -/
def presentationAudits (plan : Plan) : List (Nat × Recovery) :=
  (s.recoveries.table.select fun _ a => a.hostId == plan.hostId && a.name == plan.name &&
    (s.plans.get? a.recoveredPlanId).any fun p => p.turnId == plan.turnId &&
      p.contentRevision == plan.contentRevision &&
      p.presentationVersion == plan.presentationVersion).insertionSort
    fun a b => b.2.generation < a.2.generation ∨ a.2.generation = b.2.generation ∧ b.1 ≤ a.1

/-- Keeps the newest audits and the superseded plans they name. -/
def pruneRecoveries (plan : Plan) : Txn Store :=
  let audits := s.presentationAudits plan
  let retained := audits.take presentationRecoveryHistoryLimit
  let obsolete := (audits.drop presentationRecoveryHistoryLimit).map Prod.fst
  let keep := retained.flatMap fun a => [a.2.failedPlanId, a.2.recoveredPlanId]
  let s₁ := s.deleteRecoveries fun i _ => obsolete.contains i
  if retained.isEmpty then
    .ok s₁
  else
    s₁.deletePlans fun i p => ofPresentation plan p && p.state == .superseded && !keep.contains i

def finalizeRecoveredPlanMaterialization (failedId recoveredId : Nat) : Txn Store :=
  match s.plans.get? recoveredId with
  | none => .ok s
  | some recovered => do
    let lineage := s.lineageIds (s.plans.table.rows.length + 1) failedId
    require (!lineage.isEmpty) .schemaError
    let s₁ := s.updatePlans (fun i p => lineage.contains i && p.state == .failed)
      fun p => { p with state := .superseded }
    let s₂ ← s₁.deleteUnacknowledged (lineage.contains ·)
    s₂.pruneRecoveries recovered

def materializeRecovery (w : RecoveryWork) (requestId : RequestId) (now : Int) : Txn Store := do
  let recoveredId := s.plans.table.freeId
  let s₁ ← s.insertPlan (w.plan now)
  let s₂ ← w.specs.foldlM
    (addJob recoveredId w.failed.hostId w.failed.name w.planToken w.common now) s₁
  let s₃ ← s₂.insertRecovery (w.audit requestId recoveredId now)
  s₃.finalizeRecoveredPlanMaterialization w.failedId recoveredId

def replayedReceipt (audit : Recovery) (recovered : Plan) : RecoveryReceipt :=
  { failedPlanToken := audit.failedPlanToken
    planToken := audit.recoveredPlanToken
    generation := audit.generation
    contentRevision := recovered.contentRevision
    acknowledgedPrefixCount := audit.deliveredPrefixCount
    executableJobCount := audit.freshJobCount
    retainedFailedJobCount := audit.retainedFailedJobCount
    priorAttemptCount := audit.priorAttemptCount
    idempotentReplay := true }

def priorRequest? (req : PlanRecover) : Option (Recovery × Plan) := do
  let audit ← s.recoveries.table.first? fun _ a =>
    a.hostId == req.hostId && a.name == req.name && a.requestId == req.requestId
  let plan ← s.plans.get? audit.2.recoveredPlanId
  return (audit.2, plan)

def prepareConnectorPlanRecover (req : PlanRecover) (now : Int) : Txn (Store × RecoveryReceipt) := do
  require (req.name == turnFinalName) .invalidParams
  match s.priorRequest? req with
  | some (audit, recovered) =>
    require (audit.failedPlanToken == req.failedPlanToken) .requestConflict
    return (s, replayedReceipt audit recovered)
  | none =>
    let (failedId, failed) ← demand (s.planByToken? req.hostId req.name req.failedPlanToken)
      .planNotFound
    let w ← s.recoveryWork req failedId failed
    let s₁ ← s.materializeRecovery w req.requestId now
    return (s₁, {
      failedPlanToken := req.failedPlanToken
      planToken := w.planToken
      generation := failed.generation + 1
      contentRevision := failed.contentRevision
      acknowledgedPrefixCount := w.acknowledgedPrefixCount
      executableJobCount := w.suffix.length
      retainedFailedJobCount := w.retainedFailedJobCount
      priorAttemptCount := w.priorAttemptCount
      idempotentReplay := false })

/-! ### What a recovery does -/

variable {s} {s' : Store}

theorem recoveryWork_spec {req : PlanRecover} {failedId : Nat} {failed : Plan} {w : RecoveryWork}
    (h : s.recoveryWork req failedId failed = .ok w) :
    w.failedId = failedId ∧ w.failed = failed ∧ failed.state = .failed ∧
      (∀ i a, s.recoveries.get? i = some a → a.failedPlanId ≠ failedId) ∧
      s.latestGeneration failed = failed.generation ∧ w.jobs = s.sourceJobs failedId ∧
      w.planToken = .recovery req.hostId req.name req.failedPlanToken req.requestId
        (failed.generation + 1) ∧
      w.suffix = w.jobs.drop (w.jobs.takeWhile (·.outbox.status == .delivered)).length ∧
      w.suffix ≠ [] ∧
      (∀ j ∈ w.suffix, j.outbox.status ≠ .delivered ∧ j.outbox.status ≠ .leased) := by
  unfold recoveryWork at h
  obtain ⟨_, haudit, h⟩ := bind_eq_ok.mp h
  obtain ⟨_, hfailed, h⟩ := bind_eq_ok.mp h
  obtain ⟨_, -, h⟩ := bind_eq_ok.mp h
  obtain ⟨_, hlatest, h⟩ := bind_eq_ok.mp h
  obtain ⟨_, -, h⟩ := bind_eq_ok.mp h
  obtain ⟨_, hsuffix, h⟩ := bind_eq_ok.mp h
  obtain ⟨_, -, h⟩ := bind_eq_ok.mp h
  obtain ⟨_, -, h⟩ := bind_eq_ok.mp h
  obtain ⟨_, -, h⟩ := bind_eq_ok.mp h
  obtain rfl := Except.ok.inj h
  have hno := Relational.Table.any_eq_false_iff.mp (by simpa using require_eq_ok.mp haudit)
  have hs := require_eq_ok.mp hsuffix
  simp only [Bool.and_eq_true] at hs
  refine ⟨rfl, rfl, by simpa using require_eq_ok.mp hfailed, ?_,
    by simpa using require_eq_ok.mp hlatest, rfl, rfl, rfl, ?_, ?_⟩
  · intro i a ha heq
    have := hno i a ha
    simp [heq] at this
  · intro hnil
    have h₁ := hs.1.1
    dsimp only at hnil
    rw [hnil] at h₁
    cases h₁
  · intro j hj
    have := List.all_eq_true.mp hs.2 j hj
    simpa using this

theorem finalizeRecovered_cases {failedId recoveredId : Nat}
    (h : s.finalizeRecoveredPlanMaterialization failedId recoveredId = .ok s') :
    s.plans.get? recoveredId = none ∧ s' = s ∨
    ∃ recovered s₂, s.plans.get? recoveredId = some recovered ∧
      (s.updatePlans (fun i p =>
          (s.lineageIds (s.plans.table.rows.length + 1) failedId).contains i && p.state == .failed)
        fun p => { p with state := .superseded }).deleteUnacknowledged
          ((s.lineageIds (s.plans.table.rows.length + 1) failedId).contains ·) = .ok s₂ ∧
      s₂.pruneRecoveries recovered = .ok s' := by
  unfold finalizeRecoveredPlanMaterialization at h
  split at h
  · next hnone =>
    left
    exact ⟨hnone, (Except.ok.inj h).symm⟩
  · next recovered hrec =>
    right
    obtain ⟨_, -, h⟩ := bind_eq_ok.mp h
    obtain ⟨s₂, hs₂, h⟩ := bind_eq_ok.mp h
    exact ⟨recovered, s₂, hrec, hs₂, h⟩

theorem materializeRecovery_spec {w : RecoveryWork} {requestId : RequestId} {now : Int}
    (h : s.materializeRecovery w requestId now = .ok s') :
    ∃ s₁ s₂ s₃, s.insertPlan (w.plan now) = .ok s₁ ∧
      w.specs.foldlM (addJob s.plans.table.freeId w.failed.hostId w.failed.name w.planToken
        w.common now) s₁ = .ok s₂ ∧
      s₂.insertRecovery (w.audit requestId s.plans.table.freeId now) = .ok s₃ ∧
      s₃.finalizeRecoveredPlanMaterialization w.failedId s.plans.table.freeId = .ok s' := by
  obtain ⟨s₁, hs₁, h⟩ := bind_eq_ok.mp h
  obtain ⟨s₂, hs₂, h⟩ := bind_eq_ok.mp h
  obtain ⟨s₃, hs₃, h⟩ := bind_eq_ok.mp h
  exact ⟨s₁, s₂, s₃, hs₁, hs₂, hs₃, h⟩

/-- A recovery replaces a failed plan, or replays what an earlier request did. -/
theorem prepareConnectorPlanRecover_cases {req : PlanRecover} {now : Int}
    {receipt : RecoveryReceipt} (h : s.prepareConnectorPlanRecover req now = .ok (s', receipt)) :
    s' = s ∨ ∃ failedId failed w,
      s.planByToken? req.hostId req.name req.failedPlanToken = some (failedId, failed) ∧
      s.recoveryWork req failedId failed = .ok w ∧
      s.materializeRecovery w req.requestId now = .ok s' := by
  unfold prepareConnectorPlanRecover at h
  obtain ⟨_, -, h⟩ := bind_eq_ok.mp h
  dsimp only at h
  split at h
  · obtain ⟨_, -, h⟩ := bind_eq_ok.mp h
    obtain ⟨rfl, -⟩ := Prod.mk.inj (Except.ok.inj h)
    exact .inl rfl
  · right
    obtain ⟨⟨failedId, failed⟩, hplan, h⟩ := bind_eq_ok.mp h
    obtain ⟨w, hw, h⟩ := bind_eq_ok.mp h
    obtain ⟨s₁, hs₁, h⟩ := bind_eq_ok.mp h
    obtain ⟨rfl, -⟩ := Prod.mk.inj (Except.ok.inj h)
    exact ⟨failedId, failed, w, demand_eq_ok.mp hplan, hw, hs₁⟩

end Store

end Tendwire.Connector

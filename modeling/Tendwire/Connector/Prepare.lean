import Mathlib.Data.List.Sort
import Tendwire.Connector.Roots

/-!
# Preparing a presentation plan

`connector.prepare` begin, part and commit: a consumer that leased a final root splits its
content into parts, and the commit turns the parts into ordered job rows.
-/

namespace Tendwire.Connector

def presentationMaxParts : Nat := 10000

def presentationMaxSpansPerPart : Nat := 64

def TurnField.rank : TurnField → Nat
  | .userText => 0
  | .assistantFinalText => 1

def RevisionRow.state (r : RevisionRow) : TurnField → ContentState
  | .userText => r.contentRevision.userState
  | .assistantFinalText => r.contentRevision.finalState

def RevisionRow.charLength (r : RevisionRow) : TurnField → Nat
  | .userText => r.userCharLength
  | .assistantFinalText => r.finalCharLength

/-- The end of the last span of each field, if the field has one. -/
abbrev SpanCursors := TurnField → Option Nat

def SpanCursors.advance (cursors : SpanCursors) (span : Span) : SpanCursors := fun field =>
  if field = span.field then some span.endChar else cursors field

/-! ### Live references -/

structure LiveRef where
  deliveryId : Nat
  delivery : Delivery
  outboxId : Nat
  outbox : OutboxRow

/-- What a consumer is told of a plan. -/
structure PlanReceipt where
  planToken : PlanToken
  state : PlanState
  jobCount : Nat
  generation : Nat
  deriving DecidableEq

structure PlanBegin where
  hostId : String
  name : String
  turnId : String
  contentRevision : ContentRevision
  presentationVersion : String
  partCount : Nat
  sourceRef : Option Nat

def PlanBegin.token (req : PlanBegin) (turnId : String) (generation : Nat) : PlanToken :=
  .plan req.hostId req.name turnId req.contentRevision req.presentationVersion req.partCount
    generation

/-- The plan that a first begin stores. -/
def PlanBegin.draft (req : PlanBegin) (turnId : String) (source : Option Nat) (generation : Nat)
    (now : Int) : Plan :=
  { hostId := req.hostId
    name := req.name
    planToken := req.token turnId generation
    turnId
    contentRevision := req.contentRevision
    presentationVersion := req.presentationVersion
    generation
    partCount := req.partCount
    recoversPlanToken := none
    createdAt := now
    sourceOutboxId := source
    state := .preparing
    replacesPlanToken := none
    activatedAt := none
    completedAt := none }

/-- A staged part: its sequence index is its ordinal, and it has no row yet. -/
def stagedPart (planId ordinal : Nat) (spans : List Span) (now : Int) : Job :=
  { planId
    sequenceIndex := ordinal
    operation := .upsert
    partOrdinal := ordinal
    spans
    outboxId := none
    createdAt := now }

namespace Store

variable (s : Store)

def validateLiveRef (hostId name : String) (ref : Nat) (now : Int) : Txn LiveRef :=
  match s.deliveries.newest? fun _ d => d.hostId == hostId && d.connector == name &&
      d.status == .leased && d.lease.any (·.publicRef == ref) with
  | none => .error .invalidRef
  | some (deliveryId, delivery) =>
    match delivery.outboxId with
    | none => .error .staleRef
    | some outboxId =>
      match s.outbox.get? outboxId with
      | none => .error .staleRef
      | some outbox =>
        if !(outbox.priv.lease.any (·.deliveryId == deliveryId) && outbox.status == .leased) then
          .error .staleRef
        else if connectorDeadlineDue [delivery.lease.map (·.leaseExpiresAt)] now then
          .error .expiredRef
        else
          .ok { deliveryId, delivery, outboxId, outbox }

/-- A live reference to the final root of a revision. -/
def validateSourceRef (hostId name turnId : String) (revision : ContentRevision) (ref : Nat)
    (now : Int) : Txn LiveRef := do
  let live ← s.validateLiveRef hostId name ref now
  require (live.outbox.deliveryKind == .finalReady && live.outbox.turnId == some turnId &&
    live.outbox.contentRevision == some revision) .staleRef
  return live

/-! ### Begin -/

def planByToken? (hostId name : String) (token : PlanToken) : Option (Nat × Plan) :=
  s.plans.table.first? fun _ p => p.hostId == hostId && p.name == name && p.planToken == token

def acceptedParts (planId : Nat) : Nat :=
  (s.jobs.table.select fun _ j => j.planId == planId && j.operation == .upsert).length

def planReceipt (planId : Nat) (plan : Plan) : PlanReceipt :=
  { planToken := plan.planToken
    state := plan.state
    jobCount := s.acceptedParts planId
    generation := plan.generation }

/-- The source root of a new plan and its generation. Without a reference, the revision must
have an authoritative route of its own. -/
def beginSource (req : PlanBegin) (turnId : String) (now : Int) : Txn (Option Nat × Nat) :=
  match req.sourceRef with
  | none =>
    (demand (s.sourceLessAuthoritativeRoute req.hostId turnId req.contentRevision)
      .invalidRef).map fun _ => (none, 1)
  | some ref =>
    (s.validateSourceRef req.hostId req.name turnId req.contentRevision ref now).map fun live =>
      (some live.outboxId, max 1 live.outbox.priv.presentationGeneration)

/-- Begin on a plan that exists: idempotent, and it gives a source-less draft its source. -/
def resumePlan (planId : Nat) (plan : Plan) (source : Option Nat) : Txn (Store × PlanReceipt) := do
  require (source.isNone || plan.sourceOutboxId.isNone || plan.sourceOutboxId == source) .staleRef
  let s₁ :=
    if source.isSome && plan.sourceOutboxId.isNone && plan.state == .preparing then
      s.setPlan planId fun p => { p with sourceOutboxId := source }
    else
      s
  return (s₁, s.planReceipt planId plan)

def planOfGeneration? (req : PlanBegin) (turnId : String) (generation : Nat) :
    Option (Nat × Plan) :=
  s.plans.table.first? fun _ p => p.hostId == req.hostId && p.name == req.name &&
    p.turnId == turnId && p.contentRevision == req.contentRevision &&
    p.presentationVersion == req.presentationVersion && p.generation == generation

def prepareConnectorPlanBegin (req : PlanBegin) (now : Int) : Txn (Store × PlanReceipt) := do
  require (req.name == turnFinalName && decide (1 ≤ req.partCount) &&
    decide (req.partCount ≤ presentationMaxParts)) .invalidParams
  let turnId ← demand (s.resolveCanonicalTurnId req.hostId req.turnId) .contentRevisionNotFound
  let _ ← s.currentPresentationRevision req.hostId turnId req.contentRevision
  let (source, generation) ← s.beginSource req turnId now
  match s.planOfGeneration? req turnId generation with
  | some (planId, plan) =>
    require (plan.partCount == req.partCount && plan.planToken == req.token turnId generation)
      .planConflict
    s.resumePlan planId plan source
  | none =>
    let s₁ ← s.insertPlan (req.draft turnId source generation now)
    return (s₁, {
      planToken := req.token turnId generation
      state := .preparing
      jobCount := 0
      generation })

/-! ### Part -/

/-- One more span: in a complete field, in field order, not before the last one's end. -/
def spanFits (row : RevisionRow) (cursors : SpanCursors) (priorRank : Nat) (span : Span) : Bool :=
  row.state span.field == .complete && decide (span.startChar < span.endChar) &&
    decide (span.endChar ≤ row.charLength span.field) && decide (priorRank ≤ span.field.rank) &&
    decide ((cursors span.field).getD 0 ≤ span.startChar)

def spansInOrder (row : RevisionRow) : SpanCursors → Nat → List Span → Bool
  | _, _, [] => true
  | cursors, priorRank, span :: spans =>
    spanFits row cursors priorRank span &&
      spansInOrder row (cursors.advance span) span.field.rank spans

def validatePresentationSpans (row : RevisionRow) (spans : List Span) : Bool :=
  spansInOrder row (fun _ => none) 0 spans && !spans.isEmpty &&
    decide (spans.length ≤ presentationMaxSpansPerPart)

def prepareConnectorPlanPart (hostId name : String) (token : PlanToken) (ordinal : Nat)
    (spans : List Span) (now : Int) : Txn (Store × Nat) := do
  require (name == turnFinalName && !spans.isEmpty &&
    decide (spans.length ≤ presentationMaxSpansPerPart)) .invalidParams
  let (planId, plan) ← demand (s.planByToken? hostId name token) .planNotFound
  require (decide (ordinal < plan.partCount)) .invalidParams
  let row ← s.currentPresentationRevision hostId plan.turnId plan.contentRevision
  require (validatePresentationSpans row spans) .invalidParams
  match s.jobs.table.first? fun _ j => j.planId == planId && j.operation == .upsert &&
      j.partOrdinal == ordinal with
  | some (_, job) =>
    require (job.spans == spans) .planConflict
    return (s, s.acceptedParts planId)
  | none =>
    require (plan.state == .preparing) .planConflict
    let s₁ ← s.insertJob (stagedPart planId ordinal spans now)
    return (s₁, s₁.acceptedParts planId)

/-! ### What the requests do -/

variable {s} {s' : Store}

theorem validateLiveRef_spec {hostId name : String} {ref : Nat} {now : Int} {live : LiveRef}
    (h : s.validateLiveRef hostId name ref now = .ok live) :
    s.deliveries.get? live.deliveryId = some live.delivery ∧ live.delivery.status = .leased ∧
      live.delivery.outboxId = some live.outboxId ∧
      s.outbox.get? live.outboxId = some live.outbox ∧ live.outbox.status = .leased ∧
      (live.delivery.hostId = hostId ∧ live.delivery.connector = name) ∧
      live.delivery.lease.any (·.publicRef == ref) = true := by
  unfold validateLiveRef at h
  split at h
  · cases h
  · next deliveryId delivery hd =>
    obtain ⟨hget, hp, -⟩ := Relational.Table.newest?_eq_some hd
    simp only [Bool.and_eq_true, beq_iff_eq] at hp
    split at h
    · cases h
    · next outboxId ho =>
      split at h
      · cases h
      · next outbox hr =>
        split at h
        · cases h
        · next hc =>
          split at h
          · cases h
          · cases h
            have hstatus : outbox.status = .leased := by simp_all
            exact ⟨hget, hp.1.2, ho, hr, hstatus, ⟨hp.1.1.1, hp.1.1.2⟩, hp.2⟩

theorem validateSourceRef_spec {hostId name turnId : String} {revision : ContentRevision}
    {ref : Nat} {now : Int} {live : LiveRef}
    (h : s.validateSourceRef hostId name turnId revision ref now = .ok live) :
    s.validateLiveRef hostId name ref now = .ok live ∧ live.outbox.deliveryKind = .finalReady ∧
      live.outbox.turnId = some turnId ∧ live.outbox.contentRevision = some revision := by
  obtain ⟨live', hlive, h⟩ := bind_eq_ok.mp h
  obtain ⟨_, hreq, h⟩ := bind_eq_ok.mp h
  cases h
  have hc := require_eq_ok.mp hreq
  simp only [Bool.and_eq_true, beq_iff_eq] at hc
  exact ⟨hlive, hc.1.1, hc.1.2, hc.2⟩

/-- A begin stores a draft, gives an existing draft its source, or changes nothing. -/
theorem prepareConnectorPlanBegin_cases {req : PlanBegin} {now : Int} {receipt : PlanReceipt}
    (h : s.prepareConnectorPlanBegin req now = .ok (s', receipt)) :
    req.name = turnFinalName ∧
    ∃ turnId source generation,
      s.resolveCanonicalTurnId req.hostId req.turnId = some turnId ∧
      s.beginSource req turnId now = .ok (source, generation) ∧
      (s.planOfGeneration? req turnId generation = none ∧
          s.insertPlan (req.draft turnId source generation now) = .ok s' ∨
        ∃ planId plan, s.planOfGeneration? req turnId generation = some (planId, plan) ∧
          plan.planToken = req.token turnId generation ∧
          (s' = s ∨ ∃ i, source = some i ∧ plan.sourceOutboxId = none ∧ plan.state = .preparing ∧
            s' = s.setPlan planId fun p => { p with sourceOutboxId := source })) := by
  unfold prepareConnectorPlanBegin at h
  obtain ⟨_, hreq, h⟩ := bind_eq_ok.mp h
  have hname : req.name = turnFinalName := by
    have hc := require_eq_ok.mp hreq
    simp only [Bool.and_eq_true, beq_iff_eq] at hc
    exact hc.1.1
  obtain ⟨turnId, hturn, h⟩ := bind_eq_ok.mp h
  obtain ⟨_, -, h⟩ := bind_eq_ok.mp h
  obtain ⟨⟨source, generation⟩, hsource, h⟩ := bind_eq_ok.mp h
  refine ⟨hname, turnId, source, generation, demand_eq_ok.mp hturn, hsource, ?_⟩
  dsimp only at h
  split at h
  · next planId plan hplan =>
    right
    refine ⟨planId, plan, hplan, ?_⟩
    obtain ⟨_, hsame, h⟩ := bind_eq_ok.mp h
    have hc := require_eq_ok.mp hsame
    simp only [Bool.and_eq_true, beq_iff_eq] at hc
    refine ⟨hc.2, ?_⟩
    obtain ⟨_, -, h⟩ := bind_eq_ok.mp h
    obtain ⟨rfl, -⟩ := Prod.mk.inj (Except.ok.inj h)
    split
    · next hdraft =>
      right
      simp only [Bool.and_eq_true, beq_iff_eq] at hdraft
      obtain ⟨i, hi⟩ := Option.isSome_iff_exists.mp hdraft.1.1
      exact ⟨i, hi, Option.isNone_iff_eq_none.mp hdraft.1.2, hdraft.2, rfl⟩
    · exact .inl rfl
  · next hnone =>
    left
    obtain ⟨s₁, hs₁, h⟩ := bind_eq_ok.mp h
    obtain ⟨rfl, -⟩ := Prod.mk.inj (Except.ok.inj h)
    exact ⟨hnone, hs₁⟩

/-- A part is staged into a plan in preparation, or changes nothing. -/
theorem prepareConnectorPlanPart_cases {hostId name : String} {token : PlanToken} {ordinal : Nat}
    {spans : List Span} {now : Int} {accepted : Nat}
    (h : s.prepareConnectorPlanPart hostId name token ordinal spans now = .ok (s', accepted)) :
    ∃ planId plan, s.planByToken? hostId name token = some (planId, plan) ∧
      (s' = s ∨ plan.state = .preparing ∧ ordinal < plan.partCount ∧
        s.insertJob (stagedPart planId ordinal spans now) = .ok s') := by
  unfold prepareConnectorPlanPart at h
  obtain ⟨_, -, h⟩ := bind_eq_ok.mp h
  obtain ⟨⟨planId, plan⟩, hplan, h⟩ := bind_eq_ok.mp h
  obtain ⟨_, hord, h⟩ := bind_eq_ok.mp h
  obtain ⟨_, -, h⟩ := bind_eq_ok.mp h
  obtain ⟨_, -, h⟩ := bind_eq_ok.mp h
  refine ⟨planId, plan, demand_eq_ok.mp hplan, ?_⟩
  split at h
  · obtain ⟨_, -, h⟩ := bind_eq_ok.mp h
    obtain ⟨rfl, -⟩ := Prod.mk.inj (Except.ok.inj h)
    exact .inl rfl
  · obtain ⟨_, hstate, h⟩ := bind_eq_ok.mp h
    obtain ⟨s₁, hs₁, h⟩ := bind_eq_ok.mp h
    obtain ⟨rfl, -⟩ := Prod.mk.inj (Except.ok.inj h)
    have hc := require_eq_ok.mp hstate
    exact .inr ⟨by simpa using hc, by simpa using require_eq_ok.mp hord, hs₁⟩

end Store

end Tendwire.Connector

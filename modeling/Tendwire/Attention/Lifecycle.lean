import Mathlib.Data.List.AList
import Mathlib.Data.List.Dedup
import Mathlib.Data.List.Sort
import Mathlib.Data.String.Basic
import Tendwire.Text

/-!
# Attention lifecycles

A family is what a human has to look at, whatever its severity. An observation of a host plans
one transition for each family and writes it to the lifecycle, the projection and the outbox.
Instants are microseconds, in which the canonical timestamps of the store have the order of
their texts.
-/

namespace Tendwire

/-- The input of `_attention_family_key`. -/
structure AttentionFamily where
  hostId : String
  source : String
  kind : String
deriving DecidableEq, Repr

/-- The input of `attention_fingerprint`, which makes the id of a signal. -/
structure AttentionIdentity where
  hostId : String
  source : String
  kind : String
  severity : String
  reason : String
  status : String
deriving DecidableEq, Repr

structure AttentionRules where
  lower : String → String
  /-- `_store_public_text(value, default="unknown")`. -/
  storePublicText : String → String
  storePublicLabel : String → String
  strictUtcTimestamp : String → Option String
  familyDigest : AttentionFamily → String
  identityDigest : AttentionIdentity → String

/-- An entry of `attention` in a snapshot. -/
structure AttentionSignal where
  source : String
  kind : String
  severity : String
  status : String
  reason : String
  updatedAt : Option String
deriving DecidableEq, Repr

def AttentionSignal.attentionId (hostId : String) (item : AttentionSignal) : AttentionIdentity where
  hostId := hostId
  source := item.source
  kind := item.kind
  severity := item.severity
  reason := item.reason
  status := item.status

def severityAliases : List (String × String) := [
  ("", "info"), ("warn", "warning"), ("warning", "warning"), ("critical", "critical"),
  ("error", "critical"), ("failed", "critical"), ("failure", "critical"), ("info", "info"),
  ("notice", "info"), ("debug", "info")]

/-- `ATTENTION_MISSING_REQUIRED`. -/
def attentionMissingRequired : Nat := 2

/-- `ATTENTION_MISSING_GRACE_SECONDS`, in microseconds. -/
def attentionMissingGrace : Int := 120 * 1000000

inductive LifecycleStatus where
  | opened
  | resolved
deriving DecidableEq, Repr

inductive ObservationAuthority where
  | none
  | positive
  | complete
deriving DecidableEq, Repr

/-- The input of `_attention_observation_key`. -/
structure AttentionObservationKey where
  hostId : String
  authority : ObservationAuthority
  observedAt : Int
  contentFingerprint : String
deriving DecidableEq, Repr

/-- A row of `attention_lifecycles`. -/
structure AttentionLifecycle where
  familyKey : AttentionFamily
  generation : Nat
  lifecycleStatus : LifecycleStatus
  currentAttentionId : Option AttentionIdentity
  firstSeenAt : Int
  lastPositiveAt : Int
  firstMissingAt : Option Int
  missingObservationCount : Nat
  lastAcceptedAt : Int
  lastObservationKey : AttentionObservationKey
  maxNotifiedSeverityRank : Nat
deriving DecidableEq, Repr

structure AttentionObservation where
  familyKey : AttentionFamily
  authority : ObservationAuthority
  observedAt : Int
  observationKey : AttentionObservationKey
  signal : Option AttentionSignal
deriving DecidableEq, Repr

inductive AttentionAction where
  | noOp
  | opened
  | escalate
  | update
  | resolve
  | startMissing
  | advanceMissing
deriving DecidableEq, Repr

inductive AttentionDelivery where
  | created
  | escalated (severity : String)
deriving DecidableEq, Repr

def AttentionDelivery.eventType : AttentionDelivery → String
  | created => "attention_created"
  | escalated _ => "attention_escalated"

def AttentionDelivery.stage : AttentionDelivery → String
  | created => "initial"
  | escalated severity => "severity:" ++ severity

structure AttentionTransition where
  action : AttentionAction
  nextState : Option AttentionLifecycle
  upsertSignal : Option AttentionSignal
  supersededAttentionId : Option AttentionIdentity
  resolveAttentionId : Option AttentionIdentity
  delivery : Option AttentionDelivery
deriving DecidableEq, Repr

def AttentionTransition.noOp (state : Option AttentionLifecycle) : AttentionTransition where
  action := .noOp
  nextState := state
  upsertSignal := none
  supersededAttentionId := none
  resolveAttentionId := none
  delivery := none

section Planner

variable (R : AttentionRules)

def normalizeSeverity (severity : String) : String :=
  let raw := replaceChar '_' '-' (R.lower (strip severity))
  (severityAliases.lookup raw).getD (if raw == "" then "info" else raw)

/-- `_ATTENTION_SEVERITY_RANK`. -/
def attentionSeverityRank (value : String) : Nat :=
  (([("info", 0), ("warning", 1), ("critical", 2)] : List (String × Nat)).lookup
    (normalizeSeverity R value)).getD 0

def attentionFamilyKey (hostId : String) (item : AttentionSignal) : AttentionFamily where
  hostId := hostId
  source := R.storePublicText item.source
  kind := R.storePublicLabel item.kind

/-- A new episode of the family. -/
def AttentionObservation.opens (observation : AttentionObservation) (signal : AttentionSignal)
    (generation : Nat) : AttentionTransition where
  action := .opened
  nextState := some {
    familyKey := observation.familyKey
    generation := generation
    lifecycleStatus := .opened
    currentAttentionId := some (signal.attentionId observation.familyKey.hostId)
    firstSeenAt := observation.observedAt
    lastPositiveAt := observation.observedAt
    firstMissingAt := none
    missingObservationCount := 0
    lastAcceptedAt := observation.observedAt
    lastObservationKey := observation.observationKey
    maxNotifiedSeverityRank := attentionSeverityRank R signal.severity }
  upsertSignal := some signal
  supersededAttentionId := none
  resolveAttentionId := none
  delivery := some .created

/-- A signal of an open episode. -/
def AttentionObservation.continues (observation : AttentionObservation) (state : AttentionLifecycle)
    (signal : AttentionSignal) : AttentionTransition :=
  let attentionId := signal.attentionId observation.familyKey.hostId
  let rank := attentionSeverityRank R signal.severity
  let escalated := decide (state.maxNotifiedSeverityRank < rank)
  { action := if escalated then .escalate else .update
    nextState := some { state with
      lifecycleStatus := .opened
      currentAttentionId := some attentionId
      lastPositiveAt := observation.observedAt
      firstMissingAt := none
      missingObservationCount := 0
      lastAcceptedAt := observation.observedAt
      lastObservationKey := observation.observationKey
      maxNotifiedSeverityRank := max state.maxNotifiedSeverityRank rank }
    upsertSignal := some signal
    supersededAttentionId :=
      if state.currentAttentionId != some attentionId then state.currentAttentionId else none
    resolveAttentionId := none
    delivery := if escalated then some (.escalated (normalizeSeverity R signal.severity)) else none }

/-- A complete observation without a signal of an open episode. -/
def AttentionObservation.misses (observation : AttentionObservation)
    (state : AttentionLifecycle) : AttentionTransition :=
  let firstMissingAt := state.firstMissingAt.getD observation.observedAt
  let missingCount := state.missingObservationCount + 1
  let resolves := decide (attentionMissingRequired ≤ missingCount ∧
    attentionMissingGrace ≤ observation.observedAt - firstMissingAt)
  { action := if resolves then .resolve
      else if state.firstMissingAt.isNone then .startMissing else .advanceMissing
    nextState := some { state with
      lifecycleStatus := if resolves then .resolved else .opened
      currentAttentionId := if resolves then none else state.currentAttentionId
      firstMissingAt := some firstMissingAt
      missingObservationCount := missingCount
      lastAcceptedAt := observation.observedAt
      lastObservationKey := observation.observationKey }
    upsertSignal := none
    supersededAttentionId := none
    resolveAttentionId := if resolves then state.currentAttentionId else none
    delivery := none }

/-- `_plan_attention_transition`. -/
def planAttentionTransition (state : Option AttentionLifecycle)
    (observation : AttentionObservation) : AttentionTransition :=
  if state.any fun l => decide (observation.observedAt ≤ l.lastAcceptedAt) then .noOp state
  else match observation.signal, state with
    | some signal, none => observation.opens R signal 1
    | some signal, some l =>
      if l.lifecycleStatus = .resolved then observation.opens R signal (l.generation + 1)
      else observation.continues R l signal
    | none, none => .noOp state
    | none, some l =>
      if l.lifecycleStatus ≠ .opened then .noOp state
      else if observation.authority ≠ .complete then .noOp state
      else observation.misses l

end Planner

/-! ### The store -/

/-- A row of `attention_items`. -/
structure AttentionItemRow where
  source : String
  kind : String
  severity : String
  status : String
  updatedAt : Option String
  fingerprint : AttentionIdentity
  snapshotContentFingerprint : String
  observedAt : Int
  firstSeenAt : Int
  lastSeenAt : Int
  lastChangedAt : Int
  resolvedAt : Option Int
  lifecycleStatus : LifecycleStatus
  resolvedReason : Option String
  signalCount : Nat
  payload : AttentionSignal
deriving DecidableEq, Repr

/-- The input of the delivery key of a lifecycle job. -/
structure AttentionJobKey where
  familyKey : AttentionFamily
  generation : Nat
  eventType : String
  stage : String
deriving DecidableEq, Repr

/-- A row of `connector_outbox` for the attention connector, with the projection it carries. -/
structure AttentionJob where
  key : AttentionJobKey
  attention : AttentionItemRow
  transitionAt : Int
deriving DecidableEq, Repr

structure AttentionStore where
  lifecycles : AList fun _ : AttentionFamily => AttentionLifecycle
  items : AList fun _ : AttentionIdentity => AttentionItemRow
  /-- In the order of their ids. -/
  jobs : List AttentionJob

namespace AttentionStore

def empty : AttentionStore := ⟨∅, ∅, []⟩

/-- Close the row of an attention id if it is open. -/
def closeItem (s : AttentionStore) (attentionId : Option AttentionIdentity)
    (close : AttentionItemRow → AttentionItemRow) : AttentionStore :=
  match attentionId with
  | none => s
  | some i =>
    match s.items.lookup i with
    | none => s
    | some row =>
      if row.lifecycleStatus = .opened then { s with items := s.items.insert i (close row) } else s

/-- `_upsert_attention_projection_conn`. -/
def projectedRow (R : AttentionRules) (s : AttentionStore) (state : AttentionLifecycle)
    (item : AttentionSignal) (contentFingerprint : String) (observedAt : Int)
    (priorSignalCount : Nat) : AttentionItemRow :=
  let attentionId := item.attentionId state.familyKey.hostId
  let severity := normalizeSeverity R item.severity
  let existing := s.items.lookup attentionId
  let changed := existing.all fun row => row.fingerprint != attentionId ||
    row.lifecycleStatus != .opened || normalizeSeverity R row.severity != severity ||
    row.status != item.status
  { source := R.storePublicText item.source
    kind := R.storePublicLabel item.kind
    severity := severity
    status := item.status
    updatedAt := item.updatedAt
    fingerprint := attentionId
    snapshotContentFingerprint := contentFingerprint
    observedAt := observedAt
    firstSeenAt := state.firstSeenAt
    lastSeenAt := observedAt
    lastChangedAt := if changed then observedAt else (existing.map (·.lastChangedAt)).getD observedAt
    resolvedAt := none
    lifecycleStatus := .opened
    resolvedReason := none
    signalCount := max priorSignalCount ((existing.map (·.signalCount)).getD 0) + 1
    payload := item }

/-- `_enqueue_attention_lifecycle_job_conn`. -/
def enqueue (s : AttentionStore) (state : AttentionLifecycle) (delivery : AttentionDelivery)
    (attention : AttentionItemRow) (transitionAt : Int) : AttentionStore :=
  let key : AttentionJobKey := ⟨state.familyKey, state.generation, delivery.eventType, delivery.stage⟩
  if s.jobs.any fun job => job.key == key then s
  else { s with jobs := s.jobs ++ [⟨key, attention, transitionAt⟩] }

/-- Write the projection of a signal. -/
def upsert (s : AttentionStore) (hostId : String)
    (projection : Option (AttentionSignal × AttentionItemRow)) : AttentionStore :=
  match projection with
  | none => s
  | some (item, row) => { s with items := s.items.insert (item.attentionId hostId) row }

/-- Enqueue a delivery with the projection that it is about. -/
def deliver (s : AttentionStore) (state : AttentionLifecycle) (delivery : Option AttentionDelivery)
    (projection : Option (AttentionSignal × AttentionItemRow)) (transitionAt : Int) :
    AttentionStore :=
  match delivery, projection with
  | some delivery, some (_, row) => s.enqueue state delivery row transitionAt
  | _, _ => s

end AttentionStore

/-- The arguments of `_apply_attention_observation_conn`. A malformed time is none. -/
structure AttentionCall where
  hostId : String
  authority : ObservationAuthority
  observedAt : Option Int
  contentFingerprint : String
  attention : List AttentionSignal
deriving DecidableEq, Repr

section Apply

variable (R : AttentionRules)

/-- `candidate_rank`, where the smaller of two ids ranks higher. -/
def candidateRank (hostId : String) (item : AttentionSignal) : Nat × String × List Nat :=
  (attentionSeverityRank R item.severity, (item.updatedAt.bind R.strictUtcTimestamp).getD "",
    (R.identityDigest (item.attentionId hostId)).toList.map fun c => 0x10FFFF - c.toNat)

def outranks (a b : Nat × String × List Nat) : Bool :=
  decide (b.1 < a.1) || (a.1 == b.1 &&
    (decide (b.2.1 < a.2.1) || (a.2.1 == b.2.1 && decide (b.2.2 < a.2.2))))

/-- `max(items, key=candidate_rank)`. -/
def selectCandidate (hostId : String) (items : List AttentionSignal) : Option AttentionSignal :=
  items.foldl (fun best item => match best with
    | none => some item
    | some b => if outranks (candidateRank R hostId item) (candidateRank R hostId b) then some item
        else some b) none

def AttentionCall.selected (c : AttentionCall) (family : AttentionFamily) : Option AttentionSignal :=
  selectCandidate R c.hostId
    (c.attention.filter fun item => attentionFamilyKey R c.hostId item == family)

def AttentionCall.familyKeys (c : AttentionCall) (s : AttentionStore) : List AttentionFamily :=
  let signalled := c.attention.map (attentionFamilyKey R c.hostId)
  let opened := if c.authority = .complete then
      (s.lifecycles.entries.filter fun e => e.1.hostId == c.hostId &&
        e.2.lifecycleStatus == .opened).map Sigma.fst
    else []
  ((signalled ++ opened).dedup).insertionSort fun a b => R.familyDigest a ≤ R.familyDigest b

def AttentionCall.observation (c : AttentionCall) (observedAt : Int) (family : AttentionFamily) :
    AttentionObservation where
  familyKey := family
  authority := c.authority
  observedAt := observedAt
  observationKey := ⟨c.hostId, c.authority, observedAt, c.contentFingerprint⟩
  signal := c.selected R family

/-- What a transition writes besides the lifecycle row. -/
def AttentionStore.project (s : AttentionStore) (c : AttentionCall) (observedAt : Int)
    (nextState : AttentionLifecycle) (transition : AttentionTransition) : AttentionStore :=
  let priorSignalCount := ((transition.supersededAttentionId.bind fun attentionId =>
    s.items.lookup attentionId).map (·.signalCount)).getD 0
  let s₁ := s.closeItem transition.supersededAttentionId fun row => { row with
    lifecycleStatus := .resolved
    resolvedAt := some observedAt
    resolvedReason := some "superseded"
    lastChangedAt := observedAt }
  let projection := transition.upsertSignal.map fun item =>
    (item, s₁.projectedRow R nextState item c.contentFingerprint observedAt priorSignalCount)
  let s₂ := s₁.upsert nextState.familyKey.hostId projection
  let s₃ := s₂.closeItem transition.resolveAttentionId fun row => { row with
    lifecycleStatus := .resolved
    resolvedAt := some observedAt
    resolvedReason := some "gone"
    lastChangedAt := observedAt
    snapshotContentFingerprint := c.contentFingerprint }
  s₃.deliver nextState transition.delivery projection observedAt

/-- The body of the loop over families. -/
def AttentionStore.applyFamily (c : AttentionCall) (observedAt : Int) (s : AttentionStore)
    (family : AttentionFamily) : AttentionStore :=
  let state := s.lifecycles.lookup family
  let transition := planAttentionTransition R state (c.observation R observedAt family)
  match transition.nextState with
  | none => s
  | some nextState =>
    if transition.action = .noOp then s
    -- the guard of the update of a row
    else if state.all fun l => decide (l.lastAcceptedAt < observedAt) then
      { s with lifecycles := s.lifecycles.insert family nextState }.project R c observedAt nextState
        transition
    else s

/-- `_apply_attention_observation_conn`. -/
def applyAttentionObservation (s : AttentionStore) (c : AttentionCall) : AttentionStore :=
  if c.authority = .none then s
  else match c.observedAt with
    | none => s
    | some observedAt => (c.familyKeys R s).foldl (AttentionStore.applyFamily R c observedAt) s

end Apply

end Tendwire

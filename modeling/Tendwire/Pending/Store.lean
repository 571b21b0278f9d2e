import Mathlib.Data.List.AList
import Mathlib.Data.List.Nodup
import Mathlib.Data.String.Basic
import Tendwire.Text

/-!
# Pending prompts of a host

The row that a worker's reads leave, and the claim of whoever answers it. Both tables have one
row for each worker. Instants are microseconds, in which the canonical timestamps of the store
have the order of their texts.
-/

namespace Tendwire

inductive DecisionKind where
  | single
  | multi
  | plan
deriving DecidableEq, Repr

/-- `meta.decision` of a public prompt. The reference of an option is its place, from 1. -/
structure PendingDecision where
  decisionRef : String
  kind : DecisionKind
  prompt : String
  options : List String
  multiSelect : Bool
  questionCount : Nat
deriving DecidableEq, Repr

structure PublicChoice where
  choiceId : String
  label : String
deriving DecidableEq, Repr

/-- The public overlay of one prompt. -/
structure PendingPayload where
  question : String
  kind : String
  choices : List PublicChoice
  decision : Option PendingDecision
deriving DecidableEq, Repr

/-- `payload_json`. -/
inductive StoredPayload where
  | empty
  | unsupportedDecision
  | prompt (payload : PendingPayload)
deriving DecidableEq, Repr

inductive ObservationState where
  | opened
  | none
  | failed
  | invalid
deriving DecidableEq, Repr

inductive Freshness where
  | fresh
  | stale
deriving DecidableEq, Repr

/-- A row of `backend_pending`. -/
structure PendingRow where
  payload : StoredPayload
  observedAt : Int
  revisionDigest : String
  choiceRoutes : List (String × Nat)
  bindingPrivateFingerprint : String
  observedTurnTargetValue : String
  observationState : ObservationState
  freshness : Freshness
  lastSuccessAt : Option Int
  lastFailureAt : Option Int
  graceDeadline : Option Int
  updatedAt : Int
deriving DecidableEq, Repr

inductive ClaimState where
  | claimed
  | sendStarted
deriving DecidableEq, Repr

inductive DecisionSelection where
  | optionRefs (refs : List String)
  | text (text : String)
deriving DecidableEq, Repr

/-- `choice_id` of a claim, where the selection of a decision is told apart by its prefix. -/
inductive ClaimedChoice where
  | choice (choiceId : String)
  | decision (selection : DecisionSelection)
deriving DecidableEq, Repr

/-- A row of `backend_pending_claims`. -/
structure PendingClaim where
  claimToken : String
  revisionDigest : String
  choiceId : ClaimedChoice
  pickerOrdinal : Nat
  workerFingerprint : String
  bindingPrivateFingerprint : String
  turnTargetValue : String
  state : ClaimState
  claimedAt : Int
  sendStartedAt : Option Int
deriving DecidableEq, Repr

structure PendingStore where
  pending : AList fun _ : String => PendingRow
  claims : AList fun _ : String => PendingClaim

namespace PendingStore

def empty : PendingStore := ⟨∅, ∅⟩

def put (s : PendingStore) (workerId : String) (row : PendingRow) : PendingStore :=
  { s with pending := s.pending.insert workerId row }

/-- Delete the claim of a worker if it is one of those named. -/
def dropClaim (s : PendingStore) (workerId : String) (p : PendingClaim → Bool) : PendingStore :=
  if (s.claims.lookup workerId).any p then { s with claims := s.claims.erase workerId } else s

end PendingStore

/-! ### Observations -/

structure ObservedChoice where
  label : String
  pickerOrdinal : Nat
deriving DecidableEq, Repr

structure ObservedDecision where
  kind : DecisionKind
  options : List String
  multiSelect : Bool
  questionCount : Nat
deriving DecidableEq, Repr

structure ObservedPrompt where
  question : String
  pendingKind : Option String
  choices : List ObservedChoice
  revisionDigest : String
  decision : Option ObservedDecision
deriving DecidableEq, Repr

inductive PendingObservation where
  | openPrompt (prompt : ObservedPrompt)
  | readSucceededNoPrompt
  | readSucceededInvalidPrompt
  | readSucceededUnsupportedDecision
  | readFailed
  | workerAuthoritativelyAbsent
deriving DecidableEq, Repr

/-- When and from where an observation was made. -/
structure ObservationSource where
  observedAt : Int
  staleGrace : Int
  bindingPrivateFingerprint : String
  observedTurnTargetValue : String
  bindingAuthoritative : Bool
deriving DecidableEq, Repr

/-- A pending interaction as the overlay shows it. -/
structure PendingInteraction where
  id : String
  workerId : String
  question : String
  kind : String
  choices : List PublicChoice
  decision : Option PendingDecision
  freshness : Freshness
  workerFingerprint : Option String
  createdAt : Option Int
  updatedAt : Int
  expiresAt : Option Int
deriving DecidableEq, Repr

/-- Digests and the sanitizers of public text. -/
structure PendingRules where
  revisionDigest : (decisionRevision binding target : String) → String
  choiceDigest : (revision label : String) → (ordinal : Nat) → String
  pendingDigest : (revision workerId : String) → String
  interactionFingerprint : PendingInteraction → String
  /-- The sanitized payload, if its texts are valid. -/
  sanitizePayload : PendingPayload → Option PendingPayload
  validInstructionText : String → Bool

section Observe

variable (R : PendingRules)

/-- The revision of a prompt read from a source. -/
def ObservedPrompt.revision (prompt : ObservedPrompt) (x : ObservationSource) : String :=
  R.revisionDigest prompt.revisionDigest x.bindingPrivateFingerprint x.observedTurnTargetValue

/-- `persisted_choices`. -/
def ObservedPrompt.persistedChoices (prompt : ObservedPrompt) (x : ObservationSource) :
    List (String × String × Nat) :=
  prompt.choices.map fun choice =>
    ("choice-" ++ R.choiceDigest (prompt.revision R x) choice.label choice.pickerOrdinal,
      choice.label, choice.pickerOrdinal)

def ObservedPrompt.routes (prompt : ObservedPrompt) (x : ObservationSource) :
    List (String × Nat) :=
  (prompt.persistedChoices R x).map fun e => (e.1, e.2.2)

def ObservedPrompt.publicPayload (prompt : ObservedPrompt) (x : ObservationSource) :
    PendingPayload where
  question := prompt.question
  kind := prompt.pendingKind.getD "question"
  choices := (prompt.persistedChoices R x).map fun e => ⟨e.1, e.2.1⟩
  decision := prompt.decision.map fun d =>
    { decisionRef := "decision-" ++ prompt.revision R x
      kind := d.kind
      prompt := prompt.question
      options := d.options
      multiSelect := d.multiSelect
      questionCount := d.questionCount }

/-- `_normalize_pending_decision_meta`. -/
def PendingDecision.valid (d : PendingDecision) : Bool :=
  strip d.decisionRef != "" && strip d.prompt != "" && !d.options.isEmpty &&
    d.multiSelect == (d.kind == .multi) && decide (1 ≤ d.questionCount) &&
    d.options.all fun label => strip label != ""

/-- `_normalize_backend_pending_payload`, which raises when there is no result. -/
def normalizeBackendPendingPayload (pending : PendingPayload) (routes : List (String × Nat)) :
    Option PendingPayload :=
  (R.sanitizePayload pending).filter fun clean =>
    decide (clean.choices.map (·.choiceId)).Nodup &&
      (routes.map Prod.fst).all (fun id => (clean.choices.map (·.choiceId)).contains id) &&
      (clean.choices.map (·.choiceId)).all (fun id => (routes.map Prod.fst).contains id) &&
      routes.all (fun route => decide (1 ≤ route.2)) && clean.decision.all PendingDecision.valid

def effectiveBinding (row : Option PendingRow) (x : ObservationSource) : String :=
  if x.bindingPrivateFingerprint != "" then x.bindingPrivateFingerprint
  else (row.map (·.bindingPrivateFingerprint)).getD ""

def effectiveTarget (row : Option PendingRow) (x : ObservationSource) : String :=
  if x.observedTurnTargetValue != "" then x.observedTurnTargetValue
  else (row.map (·.observedTurnTargetValue)).getD ""

/-- The row came from another binding than the observation. -/
def bindingChanged (row : Option PendingRow) (x : ObservationSource) : Bool :=
  row.any fun r => x.bindingPrivateFingerprint != "" && r.bindingPrivateFingerprint != "" &&
    x.bindingPrivateFingerprint != r.bindingPrivateFingerprint

/-- The row of a read that found nothing to answer. -/
def settledRow (row : Option PendingRow) (x : ObservationSource) (payload : StoredPayload)
    (state : ObservationState) (freshness : Freshness) : PendingRow where
  payload := payload
  observedAt := x.observedAt
  revisionDigest := ""
  choiceRoutes := []
  bindingPrivateFingerprint := effectiveBinding row x
  observedTurnTargetValue := effectiveTarget row x
  observationState := state
  freshness := freshness
  lastSuccessAt := if freshness = .fresh then some x.observedAt else none
  lastFailureAt := if freshness = .fresh then none else some x.observedAt
  graceDeadline := none
  updatedAt := x.observedAt

namespace PendingStore

/-- A failed read of a worker without a row, or of one with it. -/
def readFailed (s : PendingStore) (workerId : String) (x : ObservationSource) :
    PendingStore × Bool :=
  let row := s.pending.lookup workerId
  match row with
  | none => (s.put workerId (settledRow row x .empty .failed .stale), true)
  | some r =>
    if r.observationState = .opened then
      if r.graceDeadline.any fun deadline => decide (deadline ≤ x.observedAt) then
        ((s.put workerId { r with
            observedAt := x.observedAt
            bindingPrivateFingerprint := effectiveBinding row x
            observedTurnTargetValue := effectiveTarget row x
            observationState := .failed
            freshness := .stale
            lastFailureAt := some x.observedAt
            graceDeadline := none
            updatedAt := x.observedAt }).dropClaim workerId fun claim => claim.state == .claimed, true)
      else if r.freshness = .stale then
        (s.put workerId { r with
          observedAt := x.observedAt
          lastFailureAt := some x.observedAt }, false)
      else
        ((s.put workerId { r with
            observedAt := x.observedAt
            bindingPrivateFingerprint := effectiveBinding row x
            observedTurnTargetValue := effectiveTarget row x
            freshness := .stale
            lastFailureAt := some x.observedAt
            graceDeadline := some (x.observedAt + x.staleGrace)
            updatedAt := x.observedAt }).dropClaim workerId fun claim => claim.state == .claimed, true)
    else if r.freshness = .stale then
      (s.put workerId { r with
        observedAt := x.observedAt
        lastFailureAt := some x.observedAt }, false)
    else
      (s.put workerId { r with
        observedAt := x.observedAt
        bindingPrivateFingerprint := effectiveBinding row x
        observedTurnTargetValue := effectiveTarget row x
        freshness := .stale
        lastFailureAt := some x.observedAt
        graceDeadline := none
        updatedAt := x.observedAt }, true)

/-- A successful read without an answerable prompt. -/
def readSettled (s : PendingStore) (workerId : String) (x : ObservationSource)
    (payload : StoredPayload) (state : ObservationState) (freshness : Freshness)
    (samePayload : PendingRow → Bool) : PendingStore × Bool :=
  let row := s.pending.lookup workerId
  let changed := row.all fun r => !(samePayload r && r.observationState == state &&
    r.freshness == freshness && r.bindingPrivateFingerprint == effectiveBinding row x &&
    r.observedTurnTargetValue == effectiveTarget row x)
  ((s.put workerId (settledRow row x payload state freshness)).dropClaim workerId fun _ => true,
    changed)

/-- The row of an open prompt. -/
def openRow (prompt : ObservedPrompt) (x : ObservationSource) (payload : PendingPayload) :
    PendingRow where
  payload := .prompt payload
  observedAt := x.observedAt
  revisionDigest := prompt.revision R x
  choiceRoutes := prompt.routes R x
  bindingPrivateFingerprint := x.bindingPrivateFingerprint
  observedTurnTargetValue := x.observedTurnTargetValue
  observationState := .opened
  freshness := .fresh
  lastSuccessAt := some x.observedAt
  lastFailureAt := none
  graceDeadline := none
  updatedAt := x.observedAt

def readPrompt (s : PendingStore) (workerId : String) (prompt : ObservedPrompt)
    (x : ObservationSource) : Option (PendingStore × Bool) :=
  (normalizeBackendPendingPayload R (prompt.publicPayload R x) (prompt.routes R x)).map
    fun payload =>
      let next := openRow R prompt x payload
      let changed := (s.pending.lookup workerId).all fun r => !(r.payload == next.payload &&
        r.revisionDigest == next.revisionDigest && r.choiceRoutes == next.choiceRoutes &&
        r.bindingPrivateFingerprint == next.bindingPrivateFingerprint &&
        r.observedTurnTargetValue == next.observedTurnTargetValue &&
        r.observationState == .opened && r.freshness == .fresh)
      ((s.dropClaim workerId fun claim => claim.revisionDigest != next.revisionDigest ||
        claim.bindingPrivateFingerprint != x.bindingPrivateFingerprint ||
        claim.turnTargetValue != x.observedTurnTargetValue).put workerId next, changed)

/-- The worker is gone with the binding of the observation, or whatever its binding. -/
def workerAbsent (s : PendingStore) (workerId : String) (x : ObservationSource) :
    PendingStore × Bool :=
  if (s.pending.lookup workerId).any fun r => x.bindingPrivateFingerprint == "" ||
      r.bindingPrivateFingerprint == x.bindingPrivateFingerprint then
    ({ s with pending := s.pending.erase workerId }.dropClaim workerId fun _ => true, true)
  else (s, false)

/-- `_apply_backend_pending_observation_conn`, which raises when there is no result. -/
def applyObservation (s : PendingStore) (workerId : String) (observation : PendingObservation)
    (x : ObservationSource) : Option (PendingStore × Bool) :=
  let row := s.pending.lookup workerId
  if x.staleGrace ≤ 0 then none
  else if row.any fun r => decide (x.observedAt < r.observedAt) then some (s, false)
  else if observation = .workerAuthoritativelyAbsent then some (s.workerAbsent workerId x)
  else if bindingChanged row x && !x.bindingAuthoritative then some (s, false)
  else match observation with
    | .workerAuthoritativelyAbsent => some (s, false)
    | .readFailed => some (s.readFailed workerId x)
    | .readSucceededUnsupportedDecision =>
      some (s.readSettled workerId x .unsupportedDecision .invalid .fresh
        fun r => r.payload == .unsupportedDecision)
    | .readSucceededInvalidPrompt =>
      some (s.readSettled workerId x .empty .invalid .stale fun _ => true)
    | .readSucceededNoPrompt => some (s.readSettled workerId x .empty .none .fresh fun _ => true)
    | .openPrompt prompt => s.readPrompt R workerId prompt x

end PendingStore

end Observe

end Tendwire

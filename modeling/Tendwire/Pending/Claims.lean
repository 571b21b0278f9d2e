import Mathlib.Data.List.Sort
import Tendwire.Pending.Store
import Tendwire.Transition.Schedule

/-!
# Answering a pending prompt

Two kinds of claims share one row for each worker. A claim is taken under a lease, started once
before anything is typed into the pane, and finished with the tombstone of the answered revision.
-/

namespace Tendwire

structure PendingWorker where
  id : String
  fingerprint : String
  status : String
deriving DecidableEq, Repr

/-- A row of `worker_bindings`, as far as a claim looks at it. -/
structure PendingBinding where
  workerId : String
  workerFingerprint : String
  backend : String
  turnTargetKind : String
  privateFingerprint : String
  turnTargetValue : String
  sendable : Bool
  expiresAt : Int
deriving DecidableEq, Repr

/-- What a claim reads of other tables: the workers of the latest snapshot, if it can be read, and
the bindings. -/
structure PendingEnvironment where
  workers : Option (List PendingWorker)
  bindings : List PendingBinding
deriving DecidableEq, Repr

structure ClaimContext where
  worker : PendingWorker
  privateFingerprint : String
  workerFingerprint : String
  turnTargetValue : String
deriving DecidableEq, Repr

def PendingEnvironment.liveWorker (env : PendingEnvironment) (workerId : String) :
    Option PendingWorker :=
  ((env.workers.getD []).find? fun worker => worker.id == workerId).filter fun worker =>
    !(["closed", "failed", "unknown"].contains worker.status)

/-- `_backend_pending_claim_context_conn`. -/
def PendingEnvironment.claimContext (env : PendingEnvironment) (workerId binding target : String)
    (now : Int) : Option ClaimContext :=
  if binding = "" ∨ target = "" then none
  else (env.liveWorker workerId).bind fun worker =>
    (env.bindings.find? fun b => b.workerId == workerId && b.workerFingerprint == worker.fingerprint &&
      b.backend == "herdr" && b.turnTargetKind == "pane_id" && b.privateFingerprint == binding &&
      b.turnTargetValue == target && b.sendable && decide (now < b.expiresAt)).map fun b =>
        ⟨worker, b.privateFingerprint, b.workerFingerprint, b.turnTargetValue⟩

inductive SendRoute where
  | picker (ordinal : Nat)
  | decision (ref : String) (kind : DecisionKind) (optionCount : Nat) (optionRefs : List String)
      (text : Option String)
deriving DecidableEq, Repr

/-- The private fields of a claim or a send. -/
structure SendFields where
  workerId : String
  workerFingerprint : String
  bindingPrivateFingerprint : String
  turnTargetValue : String
  route : SendRoute
deriving DecidableEq, Repr

inductive PendingAnswer where
  | refused (status : String)
  | validated (fields : SendFields)
  | claimed (token : String) (fields : SendFields)
  | alreadyStarted (fields : SendFields)
  | started (fields : SendFields)
  | done (changed : Bool)
  | pruned (count : Nat)
  | raised
deriving DecidableEq, Repr

section Answer

variable (R : PendingRules)

/-- `_backend_pending_interaction`, which raises when there is no result. -/
def backendPendingInteraction (worker : Option PendingWorker) (workerId : String)
    (row : PendingRow) : Option PendingInteraction :=
  match row.payload with
  | .prompt payload =>
    let routes := if row.choiceRoutes.isEmpty then
        payload.choices.mapIdx fun n choice => (choice.choiceId, n + 1)
      else row.choiceRoutes
    if row.choiceRoutes.any (fun route => route.1 == "" || route.2 == 0) || row.revisionDigest == "" then
      none
    else (normalizeBackendPendingPayload R payload routes).map fun normalized =>
      { id := "pending-" ++ R.pendingDigest row.revisionDigest workerId
        workerId := workerId
        question := normalized.question
        kind := normalized.kind
        choices := normalized.choices
        decision := normalized.decision
        freshness := row.freshness
        workerFingerprint := worker.map (·.fingerprint)
        createdAt := row.lastSuccessAt
        updatedAt := row.updatedAt
        expiresAt := if row.freshness = .stale then row.graceDeadline else none }
  | _ => none

/-- `_decision_from_pending_row`. -/
def decisionFromPendingRow (row : PendingRow) : Option PendingDecision :=
  match row.payload with
  | .prompt payload =>
    ((normalizeBackendPendingPayload R payload row.choiceRoutes).bind (·.decision)).filter
      fun decision => decision.decisionRef == "decision-" ++ row.revisionDigest
  | _ => none

def PendingDecision.refs (d : PendingDecision) : List String :=
  (List.range d.options.length).map fun n => toString (n + 1)

/-- `_validated_decision_selection`. -/
def validatedDecisionSelection (d : PendingDecision) :
    DecisionSelection → Option (List String × Option String)
  | .optionRefs refs =>
    if refs.isEmpty || !decide refs.Nodup || refs.any (fun ref => !d.refs.contains ref) then none
    else if d.kind ≠ .multi ∧ refs.length ≠ 1 then none
    else some (refs, none)
  | .text text =>
    if d.kind ≠ .single ∨ R.validInstructionText text = false then none else some ([], some text)

/-- `_backend_pending_claim_expired`. -/
def PendingClaim.expired (claim : PendingClaim) (now lease : Int) : Bool :=
  decide (claim.claimedAt + lease ≤ now)

structure ClaimTerms where
  env : PendingEnvironment
  claim : Bool
  now : Int
  lease : Int
  token : String
deriving DecidableEq, Repr

namespace PendingStore

/-- The claim with a token. -/
def claimOf (s : PendingStore) (token : String) : Option (String × PendingClaim) :=
  (s.claims.entries.find? fun e => e.2.claimToken == token).map fun e => (e.1, e.2)

/-- Take the claim of a worker over whatever lease has run out, or only look. -/
def takeClaim (s : PendingStore) (workerId : String) (terms : ClaimTerms) (next : PendingClaim)
    (fields : SendFields) : PendingStore × PendingAnswer :=
  let existing := s.claims.lookup workerId
  if existing.any fun e => e.state == .claimed && decide (terms.lease ≤ 0) then (s, .raised)
  else if existing.any fun e => !(e.state == .claimed && e.expired terms.now terms.lease) then
    (s, .refused "already_claimed")
  else if !terms.claim then (s, .validated fields)
  else
    let s' := s.dropClaim workerId fun _ => true
    -- the token is unique
    if (s'.claimOf terms.token).isSome then (s, .raised)
    else ({ s' with claims := s'.claims.insert workerId next }, .claimed terms.token fields)

/-- `claim_backend_pending_choice`. -/
def claimChoice (s : PendingStore) (pendingId pendingFingerprint choiceId : String) (terms : ClaimTerms) :
    PendingStore × PendingAnswer :=
  let candidates := (s.pending.entries.filter fun e => e.2.observationState == .opened).insertionSort
    fun a b => a.1 ≤ b.1
  let matched := candidates.findSome? fun e =>
    (terms.env.claimContext e.1 e.2.bindingPrivateFingerprint e.2.observedTurnTargetValue
      terms.now).bind fun context =>
        ((backendPendingInteraction R (some context.worker) e.1 e.2).filter fun interaction =>
          interaction.id == pendingId).map fun interaction => (e.1, e.2, interaction, context)
  match matched with
  | none => (s, .refused "not_found")
  | some (workerId, row, interaction, context) =>
    if row.freshness ≠ .fresh then (s, .refused "stale")
    else if R.interactionFingerprint interaction ≠ pendingFingerprint then (s, .refused "changed")
    else match (row.choiceRoutes.lookup choiceId).filter fun ordinal => decide (1 ≤ ordinal) with
      | none => (s, .refused "unknown_choice")
      | some ordinal =>
        s.takeClaim workerId terms
          { claimToken := terms.token
            revisionDigest := row.revisionDigest
            choiceId := .choice choiceId
            pickerOrdinal := ordinal
            workerFingerprint := context.workerFingerprint
            bindingPrivateFingerprint := context.privateFingerprint
            turnTargetValue := context.turnTargetValue
            state := .claimed
            claimedAt := terms.now
            sendStartedAt := none }
          ⟨workerId, context.workerFingerprint, context.privateFingerprint, context.turnTargetValue,
            .picker ordinal⟩

/-- `claim_backend_pending_decision`. -/
def claimDecision (s : PendingStore) (workerId decisionRef : String)
    (selection : DecisionSelection) (terms : ClaimTerms) : PendingStore × PendingAnswer :=
  if (terms.env.liveWorker workerId).isNone then (s, .refused "unknown_worker")
  else match s.pending.lookup workerId with
    | none => (s, .refused "decision_not_pending")
    | some row =>
      if row.observationState = .invalid ∧ row.payload = .unsupportedDecision then
        (s, .refused "unsupported_decision")
      else if row.observationState ≠ .opened ∨ row.freshness ≠ .fresh then
        (s, .refused "decision_not_pending")
      else match terms.env.claimContext workerId row.bindingPrivateFingerprint
          row.observedTurnTargetValue terms.now, decisionFromPendingRow R row with
        | some context, some decision =>
          if decision.decisionRef ≠ decisionRef then (s, .refused "decision_not_pending")
          else if 1 < decision.questionCount then (s, .refused "unsupported_decision")
          else match validatedDecisionSelection R decision selection with
            | none => (s, .refused "invalid_selection")
            | some (refs, text) =>
              s.takeClaim workerId terms
                { claimToken := terms.token
                  revisionDigest := row.revisionDigest
                  choiceId := .decision selection
                  pickerOrdinal := (refs.head?.map fun ref => decision.refs.idxOf ref + 1).getD
                    (decision.options.length + 1)
                  workerFingerprint := context.workerFingerprint
                  bindingPrivateFingerprint := context.privateFingerprint
                  turnTargetValue := context.turnTargetValue
                  state := .claimed
                  claimedAt := terms.now
                  sendStartedAt := none }
                ⟨workerId, context.workerFingerprint, context.privateFingerprint,
                  context.turnTargetValue,
                  .decision decisionRef decision.kind decision.options.length refs text⟩
        | _, _ => (s, .refused "decision_not_pending")

/-- What starting a send says of the prompt that its claim was taken on. -/
inductive StartCheck where
  | refused (status : String)
  | matches (route : SendRoute)
deriving DecidableEq, Repr

/-- The current prompt of a worker against a claim. -/
def checkPrompt (s : PendingStore) (workerId : String) (claim : PendingClaim)
    (route : PendingRow → Option SendRoute) : StartCheck :=
  match (s.pending.lookup workerId).filter fun row => row.observationState == .opened with
  | none => .refused "changed"
  | some row =>
    if row.freshness ≠ .fresh then .refused "stale"
    else if row.revisionDigest ≠ claim.revisionDigest ∨
        row.bindingPrivateFingerprint ≠ claim.bindingPrivateFingerprint ∨
        row.observedTurnTargetValue ≠ claim.turnTargetValue then .refused "changed"
    else (route row).elim (.refused "changed") .matches

def PendingClaim.fields (claim : PendingClaim) (workerId : String) (route : SendRoute) :
    SendFields :=
  ⟨workerId, claim.workerFingerprint, claim.bindingPrivateFingerprint, claim.turnTargetValue, route⟩

/-- The compare-and-set of a claim under its binding. -/
def beginSend (s : PendingStore) (env : PendingEnvironment) (workerId : String)
    (claim : PendingClaim) (route : SendRoute) (now : Int) : PendingStore × PendingAnswer :=
  if (env.claimContext workerId claim.bindingPrivateFingerprint claim.turnTargetValue now).any
      fun context => context.privateFingerprint == claim.bindingPrivateFingerprint &&
        context.workerFingerprint == claim.workerFingerprint &&
        context.turnTargetValue == claim.turnTargetValue then
    let begun : PendingClaim := { claim with state := .sendStarted, sendStartedAt := some now }
    ({ s with claims := s.claims.insert workerId begun },
      .started (PendingClaim.fields claim workerId route))
  else (s, .refused "binding_changed")

/-- The route of a claimed choice in the current prompt. -/
def choiceRoute (claim : PendingClaim) (row : PendingRow) : Option SendRoute :=
  match claim.choiceId with
  | .choice choiceId =>
    if row.choiceRoutes.lookup choiceId = some claim.pickerOrdinal then
      some (.picker claim.pickerOrdinal)
    else none
  | .decision _ => none

/-- The route of a claimed selection in the current decision. -/
def decisionRoute (claim : PendingClaim) (row : PendingRow) : Option SendRoute :=
  match claim.choiceId with
  | .choice _ => none
  | .decision selection =>
    (decisionFromPendingRow R row).bind fun decision =>
      (validatedDecisionSelection R decision selection).map fun selected =>
        .decision decision.decisionRef decision.kind decision.options.length selected.1 selected.2

/-- `start_backend_pending_choice_send`. -/
def startChoice (s : PendingStore) (env : PendingEnvironment) (token : String)
    (now lease : Int) : PendingStore × PendingAnswer :=
  match s.claimOf token with
  | none => (s, .refused "not_found")
  | some (workerId, claim) =>
    if claim.state = .claimed ∧ lease ≤ 0 then (s, .raised)
    else if claim.state = .claimed ∧ claim.expired now lease then
      (s.dropClaim workerId fun _ => true, .refused "not_found")
    else if claim.state = .sendStarted then
      (s, .alreadyStarted (PendingClaim.fields claim workerId (.picker claim.pickerOrdinal)))
    else match s.checkPrompt workerId claim (choiceRoute claim) with
      | .refused status => (s, .refused status)
      | .matches route => s.beginSend env workerId claim route now

/-- `start_backend_pending_decision_send`. -/
def startDecision (s : PendingStore) (env : PendingEnvironment) (token : String)
    (now lease : Int) : PendingStore × PendingAnswer :=
  match s.claimOf token with
  | none => (s, .refused "not_found")
  | some (workerId, claim) =>
    if claim.state = .claimed ∧ lease ≤ 0 then (s, .raised)
    else if claim.state = .claimed ∧ claim.expired now lease then
      (s.dropClaim workerId fun _ => true, .refused "not_found")
    else match s.checkPrompt workerId claim (decisionRoute R claim) with
      | .refused status => (s, .refused status)
      | .matches route =>
        if claim.state = .sendStarted then
          (s, .alreadyStarted (PendingClaim.fields claim workerId route))
        else s.beginSend env workerId claim route now

/-- `abandon_backend_pending_choice_claim`. -/
def abandon (s : PendingStore) (token : String) : PendingStore × PendingAnswer :=
  match s.claimOf token with
  | some (workerId, claim) =>
    if claim.state = .claimed then (s.dropClaim workerId fun _ => true, .done true)
    else (s, .done false)
  | none => (s, .done false)

/-- The row is the one that a claim was taken on, whether or not its reads failed since. -/
def answers (claim : PendingClaim) (row : PendingRow) : Bool :=
  row.revisionDigest == claim.revisionDigest &&
    row.bindingPrivateFingerprint == claim.bindingPrivateFingerprint &&
    row.observedTurnTargetValue == claim.turnTargetValue &&
    (row.observationState == .opened || row.observationState == .failed)

/-- `_finish_backend_pending_choice_send_conn`. -/
def finishSend (s : PendingStore) (token : String) (accepted : Bool) (now : Int) :
    PendingStore × Bool :=
  if !accepted then (s, false)
  else match (s.claimOf token).filter fun e => e.2.state == .sendStarted with
    | none => (s, false)
    | some (workerId, claim) =>
      let matched := (s.pending.lookup workerId).filter (answers claim)
      let s' := match matched with
        | some row => s.put workerId { row with
            payload := .empty
            observedAt := now
            revisionDigest := ""
            choiceRoutes := []
            observationState := .none
            freshness := .fresh
            lastSuccessAt := some now
            lastFailureAt := none
            graceDeadline := none
            updatedAt := now }
        | none => s
      (s'.dropClaim workerId fun _ => true, matched.isSome)

/-- `DEFAULT_PENDING_STALE_GRACE_SECONDS`, in microseconds. -/
def defaultStaleGrace : Int := 30 * 1000000

/-- `prune_backend_pending`. -/
def prune (s : PendingStore) (live : List String) (cancelled : Bool) (now : Int) :
    PendingStore × PendingAnswer :=
  if cancelled then (s, .pruned 0)
  else
    let stale := s.pending.entries.filter fun e =>
      !(live.filter (· != "")).contains e.2.bindingPrivateFingerprint
    (stale.foldl (fun s e => ((s.applyObservation R e.1 .workerAuthoritativelyAbsent
      ⟨now, defaultStaleGrace, e.2.bindingPrivateFingerprint, e.2.observedTurnTargetValue,
        false⟩).map Prod.fst).getD s) s, .pruned stale.length)

end PendingStore

/-! ### The machine -/

inductive PendingCall where
  | observe (workerId : String) (observation : PendingObservation) (source : ObservationSource)
  | claimChoice (pendingId pendingFingerprint choiceId : String) (terms : ClaimTerms)
  | claimDecision (workerId decisionRef : String) (selection : DecisionSelection)
      (terms : ClaimTerms)
  | startChoice (env : PendingEnvironment) (token : String) (now lease : Int)
  | startDecision (env : PendingEnvironment) (token : String) (now lease : Int)
  | abandon (token : String)
  | finish (token : String) (accepted : Bool) (now : Int)
  /-- A finish within the transaction of a command, which a failure rolls back. -/
  | finishCommand (token : String) (accepted : Bool) (now : Int)
  | prune (live : List String) (cancelled : Bool) (now : Int)
deriving DecidableEq, Repr

def pendingStep (s : PendingStore) : PendingCall → PendingStore × PendingAnswer
  | .observe workerId observation source =>
    match s.applyObservation R workerId observation source with
    | some (s', changed) => (s', .done changed)
    | none => (s, .raised)
  | .claimChoice pendingId pendingFingerprint choiceId terms =>
    s.claimChoice R pendingId pendingFingerprint choiceId terms
  | .claimDecision workerId decisionRef selection terms =>
    s.claimDecision R workerId decisionRef selection terms
  | .startChoice env token now lease => s.startChoice env token now lease
  | .startDecision env token now lease => s.startDecision R env token now lease
  | .abandon token => s.abandon token
  | .finish token accepted now =>
    ((s.finishSend token accepted now).1, .done (s.finishSend token accepted now).2)
  | .finishCommand token accepted now =>
    if accepted && !(s.finishSend token accepted now).2 then (s, .raised)
    else ((s.finishSend token accepted now).1, .done (s.finishSend token accepted now).2)
  | .prune live cancelled now => s.prune R live cancelled now

end Answer

end Tendwire

import Mathlib.Data.List.Sort
import Tendwire.Commands.Receipt
import Tendwire.Transition.Schedule

/-!
# The calls on command receipts

Each call is one transaction: a refused statement or a raising effect leaves the store as it
was. Secrets, clocks and the effects of other subsystems are arguments.
-/

namespace Tendwire

open Relational

def commandRetryHorizonSeconds : Int := 604800
def commandReceiptRetentionSeconds : Int := 2592000
def commandReceiptRetentionMinSeconds : Int := 691200
def commandReceiptRetentionCount : Int := 4096
def commandReceiptRetentionBatchSize : Int := 100
def commandReceiptRetentionBatchMax : Int := 1000
def sqliteMaxInteger : Int := 0x7fffffffffffffff
def maxTimedeltaSeconds : Int := 365000 * 24 * 60 * 60

def commandRequestUncertainResultJson : String :=
  "\x7b\"ok\":false,\"status\":\"request_state_uncertain\"\x7d"

/-- The hash of an owner token and the JSON reader, which the store takes from libraries. -/
structure CommandLibrary where
  sha256Hex : String → String
  isJsonObject : String → Bool

/-- `_owner_token_hash`. -/
def ownerTokenHash (lib : CommandLibrary) (ownerToken : String) : String :=
  if ownerToken = "" then "" else lib.sha256Hex ("tendwire.command-owner.v1\x00" ++ ownerToken)

def isSelectorProof (value : String) : Bool :=
  value.toList.take 3 == ['v', '1', ':'] &&
    (value.toList.drop 3).length == 64 && (value.toList.drop 3).all isLowerHexDigit

inductive CommandStatus where
  | reserved
  | terminal
  | requestIdConflict
  | inProgress
  | notFound
  | invalidState
  | notOwner
  | sendStarted
  | queued
  | accepted
  | rejected
  | uncertain
deriving DecidableEq, Repr

/-- `_command_request_response`, with the id of the row it shows. -/
structure CommandResponse where
  status : CommandStatus
  receipt : Option (Nat × CommandReceipt)
  ownerToken : Option String := none
deriving DecidableEq, Repr

structure CanonicalRequest where
  hostId : String
  requestId : String
  action : String
  canonicalVersion : Int
  canonicalFingerprint : String
  canonicalRequestJson : String
  publicWorkerId : String
  selectorProof : String
  legacyRawPayloadFingerprint : Option String
deriving DecidableEq, Repr

structure ReserveCall where
  request : CanonicalRequest
  pendingResultJson : String
  ownerLeaseMicroseconds : Int
  ownerToken : String
  now : Int
deriving DecidableEq, Repr

structure ReplayCall where
  request : CanonicalRequest
  terminalState : ReceiptState
  status : String
  resultJson : String
  now : Int
deriving DecidableEq, Repr

/-- The request that a call of an existing receipt names. -/
structure ReceiptRef where
  hostId : String
  requestId : String
  canonicalFingerprint : String
deriving DecidableEq, Repr

/-- What the ledger row of a submission is made of: its worker's owner identity, the two
derived identifiers and the two windows. -/
structure SubmissionSeed where
  submissionId : String
  ownerIdentity : Option (String × Int)
  instructionFingerprint : String
  linkWindowSeconds : Int
  hardTtlSeconds : Int
deriving DecidableEq, Repr

structure MarkCall where
  ref : ReceiptRef
  ownerToken : String
  bindingFingerprint : String
  submission : Option SubmissionSeed
  effectRaises : Bool
  now : Int
deriving DecidableEq, Repr

structure FinishCall where
  ref : ReceiptRef
  ownerToken : String
  expectedState : ReceiptState
  terminalState : ReceiptState
  status : String
  resultJson : String
  effectRaises : Bool
  now : Int
deriving DecidableEq, Repr

structure CleanupCall where
  retryHorizonSeconds : Int
  retentionSeconds : Int
  retentionCount : Int
  hostId : Option String
  dryRun : Bool
  batchSize : Int
  now : Int
deriving DecidableEq, Repr

structure CleanupResult where
  ok : Bool
  status : String
  hostId : Option String
  dryRun : Bool
  retryHorizonSeconds : Int
  retentionSeconds : Int
  retentionCount : Int
  batchSize : Int
  cutoffAt : Int
  retryCutoffAt : Int
  examined : Nat
  staleActive : Nat
  deleted : Nat
  remainingCandidates : Bool
deriving DecidableEq, Repr

/-! ### Reserving -/

/-- The shared argument check of `reserve_command_request` and its terminal sibling. -/
def CanonicalRequest.validate (lib : CommandLibrary) (c : CanonicalRequest) :
    Except StoreError CanonicalRequest :=
  let values := { c with
    hostId := strip c.hostId
    requestId := strip c.requestId
    action := strip c.action
    canonicalFingerprint := strip c.canonicalFingerprint }
  if values.hostId = "" ∨ values.requestId = "" ∨ values.action = "" ∨
      values.canonicalFingerprint = "" then
    .error (.valueError "command request identity fields must be non-empty")
  else if c.canonicalVersion < 1 then
    .error (.valueError "canonical_version must be an integer >= 1")
  else if c.selectorProof ≠ "" ∧ isSelectorProof c.selectorProof = false then
    .error (.valueError "selector_proof must be a supported selector proof")
  else if lib.isJsonObject c.canonicalRequestJson = false then
    .error (.valueError "canonical_request_json must be a JSON object")
  else
    .ok values

/-- `_canonical_request_matches`. -/
def canonicalRequestMatches (r : CommandReceipt) (c : CanonicalRequest) : Bool :=
  r.action == c.action &&
    if r.canonicalVersion = 0 then
      c.legacyRawPayloadFingerprint == some r.canonicalFingerprint
    else
      r.canonicalVersion == c.canonicalVersion &&
        r.canonicalFingerprint == c.canonicalFingerprint &&
        r.canonicalRequestJson == c.canonicalRequestJson &&
        r.publicWorkerId == c.publicWorkerId

/-- Read the row again and answer with it. -/
def answerWithRow (s : CommandStore) (hostId requestId : String) (status : CommandStatus)
    (ownerToken : Option String) (missing : String) :
    Except StoreError (CommandStore × CommandResponse) :=
  match s.commandRequestRow hostId requestId with
  | some row => .ok (s, { status := status, receipt := some row, ownerToken := ownerToken })
  | none => .error (.runtimeError missing)

/-- The columns of an abandoned reservation that a new owner re-drives; the selector proof
of the original spelling stays. -/
def CommandReceipt.retaken (r : CommandReceipt) (ownerHash : String) (ownerExpiresAt : Int)
    (pendingResultJson : String) (now : Int) : CommandReceipt :=
  { r with
    ownerTokenHash := ownerHash
    ownerExpiresAt := some ownerExpiresAt
    bindingFingerprint := none
    status := "pending"
    resultJson := pendingResultJson
    reservedAt := now
    sendStartedAt := none
    updatedAt := now }

def reserveCommandRequest (lib : CommandLibrary) (s : CommandStore) (call : ReserveCall) :
    Except StoreError (CommandStore × CommandResponse) :=
  match call.request.validate lib with
  | .error e => .error e
  | .ok values =>
    if call.ownerLeaseMicroseconds ≤ 0 ∨
        commandRetryHorizonSeconds * 1000000 < call.ownerLeaseMicroseconds then
      .error (.valueError "owner_lease_seconds must be positive and finite")
    else
      let ownerHash := ownerTokenHash lib call.ownerToken
      let ownerExpiresAt := call.now + call.ownerLeaseMicroseconds / 1000000
      match s.commandRequestRow values.hostId values.requestId with
      | some (n, row) =>
        if row.legacyCollision then
          .ok (s, { status := .terminal, receipt := some (n, row) })
        else if canonicalRequestMatches row values = false then
          .ok (s, { status := .requestIdConflict, receipt := some (n, row) })
        else if row.state.isTerminal then
          .ok (s, { status := .terminal, receipt := some (n, row) })
        else if row.state = .sendStarted then
          .ok (s, { status := .inProgress, receipt := some (n, row) })
        else if row.ownerExpiresAt.any (fun expiresAt => decide (call.now < expiresAt)) then
          .ok (s, { status := .inProgress, receipt := some (n, row) })
        else
          match s.updateReceipts (fun m r => m == n && r.state == .reserved)
            (fun r => r.retaken ownerHash ownerExpiresAt call.pendingResultJson call.now) with
          | .error e => .error e
          | .ok (s', count) =>
            if count ≠ 1 then
              .ok (s', { status := .inProgress,
                         receipt := s'.commandRequestRow values.hostId values.requestId })
            else
              answerWithRow s' values.hostId values.requestId .reserved (some call.ownerToken)
                "command request reservation disappeared"
      | none =>
        match s.insertReceipt
          { hostId := values.hostId
            requestId := values.requestId
            action := values.action
            canonicalVersion := values.canonicalVersion
            canonicalFingerprint := values.canonicalFingerprint
            canonicalRequestJson := values.canonicalRequestJson
            publicWorkerId := values.publicWorkerId
            state := .reserved
            status := "pending"
            resultJson := call.pendingResultJson
            ownerTokenHash := ownerHash
            ownerExpiresAt := some ownerExpiresAt
            bindingFingerprint := none
            createdAt := call.now
            reservedAt := call.now
            sendStartedAt := none
            terminalAt := none
            updatedAt := call.now
            legacyCollision := false
            legacyCollisionCount := 0
            selectorProof := values.selectorProof } with
        | .error e => .error e
        | .ok s' =>
          answerWithRow s' values.hostId values.requestId .reserved (some call.ownerToken)
            "command request reservation disappeared"

/-- Whether the caller's unsent reservation was released. -/
def abandonCommandRequestReservation (lib : CommandLibrary) (s : CommandStore) (ref : ReceiptRef)
    (ownerToken : String) (now : Int) : Except StoreError (CommandStore × Bool) :=
  let ownerHash := ownerTokenHash lib ownerToken
  if ownerHash = "" then
    .ok (s, false)
  else
    match s.updateReceipts (fun _ r => r.hostId == ref.hostId && r.requestId == ref.requestId &&
        r.canonicalFingerprint == ref.canonicalFingerprint && r.state == .reserved &&
        r.ownerTokenHash == ownerHash)
      (fun r => { r with ownerExpiresAt := some now, updatedAt := now }) with
    | .error e => .error e
    | .ok (s', count) => .ok (s', count == 1)

def reserveTerminalCommandReplay (lib : CommandLibrary) (s : CommandStore) (call : ReplayCall) :
    Except StoreError (CommandStore × CommandResponse) :=
  match call.request.validate lib with
  | .error e => .error e
  | .ok values =>
    if call.terminalState ≠ .rejected ∧ call.terminalState ≠ .uncertain then
      .error (.valueError "terminal replay state must be rejected or uncertain")
    else if call.terminalState = .uncertain ∧ call.status ≠ "request_state_uncertain" then
      .error (.valueError "uncertain terminal state requires request_state_uncertain status")
    else if call.terminalState = .rejected ∧
        ["pending", "accepted", "request_state_uncertain"].contains call.status then
      .error (.valueError "rejected terminal state requires a rejection status")
    else
      match s.commandRequestRow values.hostId values.requestId with
      | some (n, row) =>
        if row.legacyCollision then
          .ok (s, { status := .terminal, receipt := some (n, row) })
        else if canonicalRequestMatches row values = false then
          .ok (s, { status := .requestIdConflict, receipt := some (n, row) })
        else if row.state.isTerminal then
          .ok (s, { status := .terminal, receipt := some (n, row) })
        else
          .ok (s, { status := .inProgress, receipt := some (n, row) })
      | none =>
        match s.insertReceipt
          { hostId := values.hostId
            requestId := values.requestId
            action := values.action
            canonicalVersion := values.canonicalVersion
            canonicalFingerprint := values.canonicalFingerprint
            canonicalRequestJson := values.canonicalRequestJson
            publicWorkerId := values.publicWorkerId
            state := call.terminalState
            status := call.status
            resultJson := call.resultJson
            ownerTokenHash := ""
            ownerExpiresAt := none
            bindingFingerprint := none
            createdAt := call.now
            reservedAt := call.now
            sendStartedAt := none
            terminalAt := some call.now
            updatedAt := call.now
            legacyCollision := false
            legacyCollisionCount := 0
            selectorProof := values.selectorProof } with
        | .error e => .error e
        | .ok s' =>
          answerWithRow s' values.hostId values.requestId
            (if call.terminalState = .rejected then .rejected else .uncertain) none
            "terminal command replay disappeared"

/-! ### Sending -/

/-- The prologue of every call on an existing receipt: it must exist, be the same canonical
request and not be terminal. -/
def withActiveReceipt (s : CommandStore) (ref : ReceiptRef)
    (body : Nat → CommandReceipt → Except StoreError (CommandStore × CommandResponse)) :
    Except StoreError (CommandStore × CommandResponse) :=
  match s.commandRequestRow ref.hostId ref.requestId with
  | none => .ok (s, { status := .notFound, receipt := none })
  | some (n, row) =>
    if row.canonicalFingerprint ≠ ref.canonicalFingerprint then
      .ok (s, { status := .requestIdConflict, receipt := some (n, row) })
    else if row.state.isTerminal then
      .ok (s, { status := .terminal, receipt := some (n, row) })
    else
      body n row

/-- `_insert_turn_submission_conn`. -/
def insertTurnSubmission (s : CommandStore) (ref : ReceiptRef) (seed : SubmissionSeed)
    (now : Int) : Except StoreError CommandStore :=
  if seed.linkWindowSeconds ≤ 0 ∨ seed.hardTtlSeconds ≤ 0 then
    .error (.valueError "turn submission windows must be positive integers")
  else if seed.hardTtlSeconds < seed.linkWindowSeconds then
    .error (.valueError "turn submission hard TTL must cover the link window")
  else
    match seed.ownerIdentity with
    | none => .error (.schemaError "turn_submission_owner_missing")
    | some (ownerKey, ownerKeyVersion) =>
      match s.submissions.insertOrIgnore
        { hostId := ref.hostId
          submissionId := seed.submissionId
          requestId := ref.requestId
          ownerKey := ownerKey
          ownerKeyVersion := ownerKeyVersion
          instructionFingerprint := seed.instructionFingerprint
          state := .sendStarted
          linkedTurnId := none
          linkNotBefore := now - seed.linkWindowSeconds
          linkExpiresAt := now + seed.linkWindowSeconds
          hardExpiresAt := now + seed.hardTtlSeconds
          linkedAt := none
          terminalAt := none
          submittedAt := none
          sendStartedAt := some now
          updatedAt := now } with
      | none => .error .integrityError
      | some submissions => .ok { s with submissions := submissions }

def CommandReceipt.sendStartedBy (r : CommandReceipt) (bindingFingerprint : String)
    (now : Int) : CommandReceipt :=
  { r with
    state := .sendStarted
    bindingFingerprint := some bindingFingerprint
    sendStartedAt := some now
    updatedAt := now }

def markCommandSendStarted (lib : CommandLibrary) (s : CommandStore) (call : MarkCall) :
    Except StoreError (CommandStore × CommandResponse) :=
  if strip call.bindingFingerprint = "" then
    .error (.valueError "binding_fingerprint must be non-empty")
  else
    let ownerHash := ownerTokenHash lib call.ownerToken
    withActiveReceipt s call.ref (fun n row =>
      if row.state ≠ .reserved then
        .ok (s, { status := .invalidState, receipt := some (n, row) })
      else if ownerHash = "" ∨ row.ownerTokenHash ≠ ownerHash then
        .ok (s, { status := .notOwner, receipt := some (n, row) })
      else
        match s.updateReceipts (fun m r => m == n && r.state == .reserved &&
            r.canonicalFingerprint == call.ref.canonicalFingerprint &&
            r.ownerTokenHash == ownerHash)
          (fun r => r.sendStartedBy call.bindingFingerprint call.now) with
        | .error e => .error e
        | .ok (s', count) =>
          if count ≠ 1 then
            .ok (s', { status := .notOwner,
                       receipt := s'.commandRequestRow call.ref.hostId call.ref.requestId })
          else
            match call.submission.elim (.ok s')
                (fun seed => insertTurnSubmission s' call.ref seed call.now) with
            | .error e => .error e
            | .ok s'' =>
              if call.effectRaises then
                .error .effectError
              else
                answerWithRow s'' call.ref.hostId call.ref.requestId .sendStarted
                  (some call.ownerToken) "command request send-start disappeared")

def recordCommandSendQueued (lib : CommandLibrary) (s : CommandStore) (ref : ReceiptRef)
    (ownerToken resultJson : String) (now : Int) :
    Except StoreError (CommandStore × CommandResponse) :=
  let ownerHash := ownerTokenHash lib ownerToken
  withActiveReceipt s ref (fun n row =>
    if row.state ≠ .sendStarted then
      .ok (s, { status := .invalidState, receipt := some (n, row) })
    else if ownerHash = "" ∨ row.ownerTokenHash ≠ ownerHash then
      .ok (s, { status := .notOwner, receipt := some (n, row) })
    else
      match s.updateReceipts (fun m r => m == n && r.state == .sendStarted &&
          r.canonicalFingerprint == ref.canonicalFingerprint && r.ownerTokenHash == ownerHash)
        (fun r => { r with status := "pending", resultJson := resultJson, updatedAt := now }) with
      | .error e => .error e
      | .ok (s', count) =>
        if count ≠ 1 then
          .ok (s', { status := .notOwner,
                     receipt := s'.commandRequestRow ref.hostId ref.requestId })
        else
          match s'.updateSubmissions (fun _ t => t.hostId == ref.hostId &&
              t.requestId == ref.requestId && (t.state == .sendStarted || t.state == .linked))
            (fun t => { t with
              state := .sendStarted
              linkedTurnId := none
              linkedAt := none
              submittedAt := some now
              linkExpiresAt := t.hardExpiresAt
              updatedAt := now }) with
          | .error e => .error e
          | .ok (s'', submissionCount) =>
            if submissionCount ≠ 1 then
              .error (.schemaError "queued turn submission transition failed")
            else
              answerWithRow s'' ref.hostId ref.requestId .queued none
                "queued command request disappeared")

/-! ### Finishing -/

/-- The submission state that follows a terminal receipt. -/
def submissionAfter : ReceiptState → Option SubmissionState
  | .accepted => some .submitted
  | .rejected => some .cancelled
  | .uncertain => some .uncertain
  | .reserved | .sendStarted => none

/-- The columns a submission gets with its receipt's terminal state. -/
def TurnSubmission.advanced (t : TurnSubmission) (state : SubmissionState) (now : Int) :
    TurnSubmission :=
  { t with
    state := state
    terminalAt := some now
    submittedAt := if state = .submitted then some now else t.submittedAt
    updatedAt := now }

/-- `_terminalize_turn_submission_conn`: a row that may not advance is left alone. -/
def terminalizeTurnSubmission (s : CommandStore) (hostId requestId : String)
    (terminalState : ReceiptState) (now : Int) : Except StoreError CommandStore :=
  match submissionAfter terminalState with
  | none => .ok s
  | some nextState =>
    match s.submissions.table.first?
        (fun _ t => t.hostId == hostId && t.requestId == requestId) with
    | none => .ok s
    | some (_, ledger) =>
      if nextState ∉ ledger.state.next then
        .ok s
      else
        match s.updateSubmissions (fun _ t => t.hostId == hostId && t.requestId == requestId &&
            t.state == ledger.state)
          (fun t => t.advanced nextState now) with
        | .error e => .error e
        | .ok (s', count) =>
          if count ≠ 1 then .error (.schemaError "turn_submission_terminal_transition_failed")
          else .ok s'

/-- The columns a receipt gets when it becomes terminal. -/
def CommandReceipt.terminated (r : CommandReceipt) (state : ReceiptState)
    (status resultJson : String) (now : Int) : CommandReceipt :=
  { r with
    state := state
    status := status
    resultJson := resultJson
    ownerTokenHash := ""
    ownerExpiresAt := none
    terminalAt := some now
    updatedAt := now }

/-- The guarded `UPDATE` by which a verdict-less send becomes terminal. -/
def terminateSend (s : CommandStore) (ref : ReceiptRef) (n : Nat) (pendingResultJson : String)
    (state : ReceiptState) (status resultJson : String) (now : Int) :
    Except StoreError (CommandStore × Nat) :=
  s.updateReceipts (fun m r => m == n && r.state == .sendStarted &&
      r.canonicalFingerprint == ref.canonicalFingerprint && r.status == "pending" &&
      r.resultJson == pendingResultJson)
    (fun r => r.terminated state status resultJson now)

def finishQueuedCommandRequest (s : CommandStore) (ref : ReceiptRef)
    (queuedResultJson acceptedResultJson : String) (now : Int) :
    Except StoreError (CommandStore × CommandResponse) :=
  withActiveReceipt s ref (fun n row =>
    if row.state ≠ .sendStarted ∨ row.status ≠ "pending" ∨ row.resultJson ≠ queuedResultJson then
      .ok (s, { status := .invalidState, receipt := some (n, row) })
    else if s.submissions.table.any (fun _ t => t.hostId == ref.hostId &&
        t.requestId == ref.requestId && t.state == .linked && t.linkedTurnId.isSome) = false then
      .ok (s, { status := .inProgress, receipt := some (n, row) })
    else
      match terminateSend s ref n queuedResultJson .accepted "accepted" acceptedResultJson now with
      | .error e => .error e
      | .ok (s', count) =>
        if count ≠ 1 then
          .ok (s', { status := .inProgress,
                     receipt := s'.commandRequestRow ref.hostId ref.requestId })
        else
          answerWithRow s' ref.hostId ref.requestId .accepted none
            "accepted queued command request disappeared")

def finishUnverifiedQueuedCommandRequest (s : CommandStore) (ref : ReceiptRef)
    (queuedResultJson uncertainResultJson : String) (now : Int) :
    Except StoreError (CommandStore × CommandResponse) :=
  withActiveReceipt s ref (fun n row =>
    if row.state ≠ .sendStarted ∨ row.status ≠ "pending" ∨ row.resultJson ≠ queuedResultJson then
      .ok (s, { status := .inProgress, receipt := some (n, row) })
    else if (s.submissions.table.first? (fun _ t => t.hostId == ref.hostId &&
        t.requestId == ref.requestId)).all (fun ledger =>
          (ledger.2.state != .ambiguous && ledger.2.state != .expired) ||
            ledger.2.linkedTurnId.isSome) then
      .ok (s, { status := .inProgress, receipt := some (n, row) })
    else
      match terminateSend s ref n queuedResultJson .uncertain "request_state_uncertain"
          uncertainResultJson now with
      | .error e => .error e
      | .ok (s', count) =>
        if count ≠ 1 then
          .ok (s', { status := .inProgress,
                     receipt := s'.commandRequestRow ref.hostId ref.requestId })
        else
          answerWithRow s' ref.hostId ref.requestId .uncertain none
            "uncertain queued command request disappeared")

def recoverUnresolvedCommandSend (s : CommandStore) (ref : ReceiptRef)
    (unresolvedResultJson uncertainResultJson : String) (now : Int) :
    Except StoreError (CommandStore × CommandResponse) :=
  withActiveReceipt s ref (fun n row =>
    if row.state ≠ .sendStarted ∨ row.status ≠ "pending" ∨
        row.resultJson ≠ unresolvedResultJson then
      .ok (s, { status := .inProgress, receipt := some (n, row) })
    else if row.ownerExpiresAt.all (fun expiresAt => decide (now < expiresAt)) then
      .ok (s, { status := .inProgress, receipt := some (n, row) })
    else
      match terminateSend s ref n unresolvedResultJson .uncertain "request_state_uncertain"
          uncertainResultJson now with
      | .error e => .error e
      | .ok (s', count) =>
        if count ≠ 1 then
          .ok (s', { status := .inProgress,
                     receipt := s'.commandRequestRow ref.hostId ref.requestId })
        else
          match terminalizeTurnSubmission s' ref.hostId ref.requestId .uncertain now with
          | .error e => .error e
          | .ok s'' =>
            answerWithRow s'' ref.hostId ref.requestId .uncertain none
              "uncertain recovered command request disappeared")

/-- The transitions `finish_command_request` allows. -/
def finishAllowed (expected terminal : ReceiptState) : Bool :=
  match expected, terminal with
  | .reserved, .rejected | .reserved, .uncertain => true
  | .sendStarted, .accepted | .sendStarted, .rejected | .sendStarted, .uncertain => true
  | _, _ => false

def finishStatus : ReceiptState → CommandStatus
  | .accepted => .accepted
  | .rejected => .rejected
  | .uncertain => .uncertain
  | .reserved => .reserved
  | .sendStarted => .sendStarted

def finishCommandRequest (lib : CommandLibrary) (s : CommandStore) (call : FinishCall) :
    Except StoreError (CommandStore × CommandResponse) :=
  if finishAllowed call.expectedState call.terminalState = false then
    .error (.valueError "illegal command request transition")
  else if call.terminalState = .accepted ∧ call.status ≠ "accepted" then
    .error (.valueError "accepted terminal state requires accepted status")
  else if call.terminalState = .uncertain ∧ call.status ≠ "request_state_uncertain" then
    .error (.valueError "uncertain terminal state requires request_state_uncertain status")
  else if call.terminalState = .rejected ∧
      ["pending", "answer_in_progress", "accepted", "request_state_uncertain"].contains
        call.status then
    .error (.valueError "rejected terminal state requires a rejection status")
  else
    let ownerHash := ownerTokenHash lib call.ownerToken
    withActiveReceipt s call.ref (fun n row =>
      if row.state ≠ call.expectedState then
        .ok (s, { status := .invalidState, receipt := some (n, row) })
      else if ownerHash = "" ∨ row.ownerTokenHash ≠ ownerHash then
        .ok (s, { status := .notOwner, receipt := some (n, row) })
      else
        match s.updateReceipts (fun m r => m == n && r.state == call.expectedState &&
            r.canonicalFingerprint == call.ref.canonicalFingerprint &&
            r.ownerTokenHash == ownerHash)
          (fun r => r.terminated call.terminalState call.status call.resultJson call.now) with
        | .error e => .error e
        | .ok (s', count) =>
          if count ≠ 1 then
            .ok (s', { status := .notOwner,
                       receipt := s'.commandRequestRow call.ref.hostId call.ref.requestId })
          else if call.effectRaises then
            .error .effectError
          else
            match terminalizeTurnSubmission s' call.ref.hostId call.ref.requestId
                call.terminalState call.now with
            | .error e => .error e
            | .ok s'' =>
              answerWithRow s'' call.ref.hostId call.ref.requestId
                (finishStatus call.terminalState) none "command request terminal row disappeared")

end Tendwire

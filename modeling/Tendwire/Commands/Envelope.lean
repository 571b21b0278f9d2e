import Tendwire.Commands.Request
import Tendwire.Python.Equality

/-!
# Command envelopes

The envelope of a command's result. Its constructor checks types and cross-field rules, and keeps
only what the public sanitizer lets through.
-/

namespace Tendwire.Commands

open Strings Python Public

inductive Disposition where
  | noReceipt | inProgress | terminalAccepted | terminalRejected | terminalUncertain
deriving DecidableEq

def Disposition.word : Disposition → String
  | noReceipt => "no_receipt"
  | inProgress => "in_progress"
  | terminalAccepted => "terminal_accepted"
  | terminalRejected => "terminal_rejected"
  | terminalUncertain => "terminal_uncertain"

/-- `VALID_DISPOSITIONS`. -/
def Disposition.all : List Disposition :=
  [noReceipt, inProgress, terminalAccepted, terminalRejected, terminalUncertain]

def Disposition.text (d : Disposition) : Text := ofString d.word

def Disposition.ofText? (t : Text) : Option Disposition := Disposition.all.find? (·.text == t)

/-- `TERMINAL_MUTATION_REJECTION_STATUSES`. -/
def terminalRejectionStatuses : List Status :=
  [.rejected, .staleTarget, .backendUnavailable, .backendUnsupported, .ambiguousBackendTarget,
    .backendFailed, .duplicateRequest, .decisionNotPending, .unknownWorker, .invalidSelection,
    .unsupportedDecision]

/-- `LIVE_MUTATION_NO_RECEIPT_REJECTION_STATUSES`. -/
def liveRejectionStatuses : List Status :=
  [.invalidRequest, .rejected, .notFound, .ambiguousTarget, .staleTarget, .backendUnavailable,
    .backendUnsupported, .ambiguousBackendTarget, .backendFailed, .answerInProgress,
    .decisionNotPending, .unknownWorker, .invalidSelection, .unsupportedDecision]

/-- `DRY_RUN_MUTATION_NO_RECEIPT_REJECTION_STATUSES`. -/
def dryRunRejectionStatuses : List Status :=
  [.invalidRequest, .invalidSelection, .rejected, .notFound, .ambiguousTarget, .staleTarget]

inductive EnvelopeVersion where
  | two
  | three
deriving DecidableEq

def EnvelopeVersion.int : EnvelopeVersion → ShortInt
  | two => shortTwo
  | three => shortThree

/-- The arguments of the constructor, of any type. -/
structure EnvelopeArgs (F : Type) where
  ok : Object F
  status : Object F
  action : Object F
  disposition : Object F
  requestId : Object F
  dryRun : Object F
  result : Object F
  error : Object F
  warnings : Object F
  schemaVersion : Object F

structure CommandEnvelope (F : Type) where
  ok : Bool
  status : Status
  action : Text
  disposition : Disposition
  requestId : Option Text
  dryRun : Bool
  result : Option (Entries F)
  error : Option (Entries F)
  warnings : List Text
  schemaVersion : EnvelopeVersion

section Types

variable {F : Type}

def asBool : Object F → Option Bool
  | .bool b => some b
  | _ => none

def asText : Object F → Option Text
  | .str t => some t
  | _ => none

/-- A string or `None`. -/
def asOptionalText : Object F → Option (Option Text)
  | .none => some none
  | .str t => some (some t)
  | _ => none

/-- A mapping or `None`. -/
def asOptionalMapping : Object F → Option (Option (List (Text × Object F)))
  | .none => some none
  | .dict entries => some (some entries)
  | _ => none

def asTexts : Object F → Option (List Text)
  | .list items => items.mapM asText
  | _ => none

def asVersion : Object F → Option EnvelopeVersion
  | .int n => if n.val = 2 then some .two else if n.val = 3 then some .three else none
  | _ => none

def ofVersion : EnvelopeVersion → Object F := fun v => .int v.int

end Types

/-- A value of the wanted type, or the exception. -/
def required {α : Type} (message : String) : Option α → Except String α
  | some a => .ok a
  | none => .error message

/-- Raises when the condition holds. -/
def refuseIf (condition : Bool) (message : String) : Except String Unit :=
  if condition then .error message else .ok ()

namespace CommandEnvelope

section Rules

variable {F : Type} (e : CommandEnvelope F)

def mutating : Bool := mutatingActions.contains e.action

def liveMutation : Bool := e.mutating && !e.dryRun

def hasValidRequestId : Bool := e.requestId.any isValidRequestIdText

def isAnswerDecision : Bool := e.action == ofString "answer_decision"

/-- `valid_no_receipt_tuple`. -/
def validNoReceipt : Bool :=
  if e.liveMutation then
    !e.ok && liveRejectionStatuses.contains e.status &&
      (e.status != .answerInProgress || e.isAnswerDecision)
  else if e.mutating then
    (e.ok && e.status == .dryRun) || (!e.ok && dryRunRejectionStatuses.contains e.status)
  else true

/-- What each disposition asks of the other fields. -/
def checkDisposition : Except String Unit :=
  match e.disposition with
  | .noReceipt =>
    refuseIf (!e.validNoReceipt) "no_receipt disposition has an inconsistent command tuple"
  | .inProgress =>
    refuseIf (!e.mutating || e.dryRun || e.ok ||
        !(e.status == .pending || e.status == .answerInProgress) ||
        (e.status == .answerInProgress && !e.isAnswerDecision))
      "in_progress disposition has an inconsistent command tuple"
  | .terminalAccepted =>
    refuseIf (!e.mutating || e.dryRun || !e.ok || e.status != .accepted)
      "terminal_accepted disposition has an inconsistent command tuple"
  | .terminalRejected =>
    refuseIf (!e.mutating || e.dryRun || e.ok || !terminalRejectionStatuses.contains e.status)
      "terminal_rejected disposition has an inconsistent command tuple"
  | .terminalUncertain =>
    refuseIf (!e.mutating || e.dryRun || e.ok || e.status != .requestStateUncertain)
      "terminal_uncertain disposition has an inconsistent command tuple"

/-- `is_turn_submission_id` of a string. -/
def isTurnSubmissionId (t : Text) : Bool :=
  (ofString "twsub1.").isPrefixOf t && (t.drop 7).length == 64 &&
    (t.drop 7).all fun c => isAsciiDigit c || (0x61 ≤ c.val && c.val ≤ 0x66)

/-- An accepted submission: a submission id, and a turn id that is null or no empty string. -/
def hasSubmission : Bool :=
  e.result.any fun m =>
    ((m.get? (ofString "submission_id")).bind Json.str?).any isTurnSubmissionId &&
      match m.get? (ofString "turn_id") with
      | some .null => true
      | some (.str t) => t != []
      | _ => false

/-- The rules across fields, checked on the sanitized envelope. -/
def checkRules : Except String Unit := do
  refuseIf (e.ok && e.error.isSome) "successful command envelope must not include an error"
  e.checkDisposition
  refuseIf (e.schemaVersion == .three && (e.action != ofString "send_instruction" ||
      e.disposition != .terminalAccepted || !e.hasSubmission))
    "schema-v3 envelopes require an accepted instruction submission"
  refuseIf (e.status == .answerInProgress && !(e.isAnswerDecision && e.liveMutation && !e.ok &&
      (e.disposition == .noReceipt || e.disposition == .inProgress)))
    "answer_in_progress has an inconsistent command tuple"

/-- The two rules that come before sanitizing. -/
def checkRequestId : Except String Unit := do
  refuseIf (e.liveMutation && !e.hasValidRequestId)
    "non-dry-run mutation requires a valid request_id"
  refuseIf (e.disposition != .noReceipt && !e.hasValidRequestId)
    "receipt-bearing disposition requires a valid request_id"

end Rules

section Construction

variable {F : Type} [FloatText F] (T : Tables)

/-- `__post_init__`. -/
def construct (args : EnvelopeArgs F) : Except String (CommandEnvelope F) := do
  let ok ← required "ok must be a boolean" (asBool args.ok)
  let status ← required "status must be a supported command status"
    ((asText args.status).bind Status.ofText?)
  let action ← required "action must be a string" (asText args.action)
  let disposition ← required "disposition must be a supported command disposition"
    ((asText args.disposition).bind Disposition.ofText?)
  let requestId ← required "request_id must be a string or null" (asOptionalText args.requestId)
  let dryRun ← required "dry_run must be a boolean" (asBool args.dryRun)
  let result ← required "result must be an object or null" (asOptionalMapping args.result)
  let error ← required "error must be an object or null" (asOptionalMapping args.error)
  let warnings ← required "warnings must be an array of strings" (asTexts args.warnings)
  let schemaVersion ← required "command envelope schema_version must be 2 or 3"
    (asVersion args.schemaVersion)
  let envelope : CommandEnvelope F :=
    { ok, status, action, disposition, requestId, dryRun
      result := result.map (sanitizePublicMapping T)
      error := error.map (sanitizePublicMapping T)
      warnings := (warnings.map (sanitizePublicText T none)).filter (!·.isEmpty)
      schemaVersion }
  envelope.checkRequestId
  envelope.checkRules
  return envelope

end Construction

section Serialization

variable {F : Type} (e : CommandEnvelope F)

/-- `to_dict`. -/
def toDict : Entries F :=
  [(ofString "schema_version", .int e.schemaVersion.int), (ofString "action", .str e.action),
    (ofString "request_id", Json.ofOption e.requestId), (ofString "ok", .bool e.ok),
    (ofString "dry_run", .bool e.dryRun), (ofString "status", .str e.status.text),
    (ofString "disposition", .str e.disposition.text), (ofString "result", ofMapping e.result),
    (ofString "error", ofMapping e.error), (ofString "warnings", namesJson e.warnings)]

def requiredFields : List Text :=
  ["schema_version", "action", "request_id", "ok", "dry_run", "status", "disposition", "result",
    "error", "warnings"].map ofString

end Serialization

section FromDict

variable {F : Type} [FloatText F] (T : Tables)

/-- `data[field]`, of a field that is there. -/
def fieldOf (data : Entries F) (field : String) : Object F :=
  Object.ofJson ((data.get? (ofString field)).getD .null)

def argsOf (data : Entries F) : EnvelopeArgs F where
  ok := fieldOf data "ok"
  status := fieldOf data "status"
  action := fieldOf data "action"
  disposition := fieldOf data "disposition"
  requestId := fieldOf data "request_id"
  dryRun := fieldOf data "dry_run"
  result := fieldOf data "result"
  error := fieldOf data "error"
  warnings := fieldOf data "warnings"
  schemaVersion := fieldOf data "schema_version"

/-- `from_dict` of a mapping. What the constructor keeps of a value is the same object, so the
values are compared as trees; only the order of the fields does not count. -/
def fromDict (data : Entries F) : Except String (CommandEnvelope F) :=
  if !hasExactly data requiredFields then
    .error "command envelope must contain exactly the schema fields"
  else do
    let envelope ← construct T (argsOf data)
    refuseIf (!requiredFields.all fun field => envelope.toDict.get? field == data.get? field)
      "command envelope is not an exact public roundtrip"
    return envelope

end FromDict

section FromError

variable {F : Type} [FloatText F] (I : Interpreter F)

/-- `error.get("code", default)`. -/
def errorCode (error : Entries F) (default : Status) : Object F :=
  Object.ofJson ((error.get? (ofString "code")).getD (.str default.text))

/-- The arguments that `from_error` leaves at their defaults. -/
def errorArgs (status action requestId dryRun : Object F) (error : Entries F) : EnvelopeArgs F where
  ok := .bool false
  status := status
  action := action
  disposition := .str Disposition.noReceipt.text
  requestId := requestId
  dryRun := dryRun
  result := .none
  error := Object.ofJson (.dict error)
  warnings := .list []
  schemaVersion := ofVersion .two

/-- `from_error`. -/
def fromError (request : Option (CommandRequest F)) (error : Entries F) :
    Except String (CommandEnvelope F) :=
  match request with
  | none =>
    construct I.toTables
      (errorArgs (errorCode error .invalidRequest) (.str []) .none (.bool true) error)
  | some r =>
    let validId := isValidRequestId r.requestId
    let requestId := if validId || (!r.mutating && r.requestId.str?.isSome) then r.requestId else .null
    -- an invalid request was rejected before it became a live mutation
    let dryRun := if r.mutating && isFalse r.dryRun && !validId then .bool true else r.dryRun
    construct I.toTables
      (errorArgs (errorCode error .rejected) (.str r.action) (Object.ofJson requestId)
        (Object.ofJson dryRun) error)

end FromError

end CommandEnvelope

end Tendwire.Commands

import Tendwire.Commands.InstructionText
import Tendwire.Public.Ascii
import Tendwire.Python.Decode

/-!
# Command requests

The request contract: what a JSON text is parsed into, and which requests are valid. An error is
the sanitized mapping that the caller gets.
-/

namespace Tendwire.Commands

open Strings Python Public

/-- What the interpreter says of values beyond their data. -/
structure Interpreter (F : Type) extends Tables where
  /-- `repr(value)`. -/
  repr : Json F → Text
  /-- The text of the exception that `json.loads` raises. -/
  jsonError : Text → Text

/-- An interpreter of ASCII texts without fractions. -/
def asciiInterpreter : Interpreter Empty where
  toTables := asciiTables
  repr _ := []
  jsonError _ := ofString "Expecting value: line 1 column 2 (char 1)"

/-! ### Statuses -/

inductive Status where
  | noop | snapshot | resolved | dryRun | accepted | rejected | notFound | ambiguousTarget
  | staleTarget | backendUnavailable | backendUnsupported | ambiguousBackendTarget | backendFailed
  | duplicateRequest | requestStateUncertain | invalidRequest | pending | answerInProgress
  | decisionNotPending | unknownWorker | invalidSelection | unsupportedDecision
deriving DecidableEq

def Status.word : Status → String
  | noop => "noop"
  | snapshot => "snapshot"
  | resolved => "resolved"
  | dryRun => "dry_run"
  | accepted => "accepted"
  | rejected => "rejected"
  | notFound => "not_found"
  | ambiguousTarget => "ambiguous_target"
  | staleTarget => "stale_target"
  | backendUnavailable => "backend_unavailable"
  | backendUnsupported => "backend_unsupported"
  | ambiguousBackendTarget => "ambiguous_backend_target"
  | backendFailed => "backend_failed"
  | duplicateRequest => "duplicate_request"
  | requestStateUncertain => "request_state_uncertain"
  | invalidRequest => "invalid_request"
  | pending => "pending"
  | answerInProgress => "answer_in_progress"
  | decisionNotPending => "decision_not_pending"
  | unknownWorker => "unknown_worker"
  | invalidSelection => "invalid_selection"
  | unsupportedDecision => "unsupported_decision"

/-- `VALID_STATUSES`. -/
def Status.all : List Status :=
  [noop, snapshot, resolved, dryRun, accepted, rejected, notFound, ambiguousTarget, staleTarget,
    backendUnavailable, backendUnsupported, ambiguousBackendTarget, backendFailed, duplicateRequest,
    requestStateUncertain, invalidRequest, pending, answerInProgress, decisionNotPending,
    unknownWorker, invalidSelection, unsupportedDecision]

def Status.text (s : Status) : Text := ofString s.word

def Status.ofText? (t : Text) : Option Status := Status.all.find? (·.text == t)

/-! ### Field values -/

section Fields

variable {F : Type} [FloatText F] (I : Interpreter F)

def floatStr : Float F → Text
  | .finite x => FloatText.repr x
  | .infinite false => ofString "inf"
  | .infinite true => ofString "-inf"
  | .nan => ofString "nan"

/-- `str(value)`. -/
def str : Json F → Text
  | .null => ofString "None"
  | .bool true => ofString "True"
  | .bool false => ofString "False"
  | .int n => intText n
  | .float x => floatStr x
  | .str t => t
  | v => I.repr v

/-- `_string_value(mapping.get(key))`. -/
def stringValue : Option (Json F) → Text
  | none | some .null => []
  | some v => str I v

/-- `_optional_string(mapping.get(key))`. -/
def optionalString : Option (Json F) → Option Text
  | none | some .null => none
  | some v => some (str I v)

/-- `_clean_mapping`. -/
def cleanMapping : Option (Json F) → Option (Entries F)
  | none | some .null => none
  | some (.dict entries) => some entries
  | some _ => some []

def textJson (s : String) : Json F := .str (ofString s)

/-- A list of names. -/
def namesJson (names : List Text) : Json F := .list (names.map .str)

def sortTexts (names : List Text) : List Text := names.insertionSort (· ≤ ·)

/-- `error_value(code, message, details=details)`. -/
def errorValue (code : Status) (message : Text) (details : Entries F) : Entries F :=
  sanitizePublicMapping I.toTables [(ofString "code", .str code.text),
    (ofString "message", .str message), (ofString "details", Object.ofJson (.dict details))]

def fieldDetails (field : String) : Entries F := [(ofString "field", textJson field)]

/-- An error of one field. -/
def fieldError (code : Status) (message field : String) : Entries F :=
  errorValue I code (ofString message) (fieldDetails field)

end Fields

/-! ### Requests -/

def allowedActions : List String :=
  ["noop", "read_snapshot", "resolve_target", "send_instruction", "answer_pending",
    "answer_decision"]

def requestAllowedFields : List Text :=
  ["schema_version", "action", "request_id", "dry_run", "target", "instruction", "params",
    "response_schema_version"].map ofString

def mutatingActions : List Text :=
  ["send_instruction", "answer_pending", "answer_decision"].map ofString

def targetAllowedFields : List Text :=
  ["worker_id", "worker_fingerprint", "space_id", "name"].map ofString

def targetStableSelectorFields : List Text := ["worker_id", "space_id", "name"].map ofString

def instructionAllowedFields : List Text := ["text"].map ofString

def answerPendingParamFields : List Text :=
  ["pending_id", "pending_fingerprint", "choice_id"].map ofString

def answerDecisionParamFields : List Text := ["decision_ref", "selection"].map ofString

/-- A request with the types that `CommandRequest` itself establishes. -/
structure CommandRequest (F : Type) where
  action : Text
  schemaVersion : Json F
  requestId : Json F
  dryRun : Json F
  target : Option (Entries F)
  instruction : Option (Entries F)
  params : Option (Entries F)
  responseSchemaVersion : Json F

def shortOne : ShortInt := ⟨1, by decide⟩

def shortTwo : ShortInt := ⟨2, by decide⟩

def shortThree : ShortInt := ⟨3, by decide⟩

section Requests

variable {F : Type}

def isRequestIdChar (c : CodePoint) : Bool :=
  isAsciiAlnum c || c == codePoint '.' || c == codePoint '_' || c == codePoint '-'

/-- `is_valid_request_id` of a string. -/
def isValidRequestIdText (t : Text) : Bool :=
  t.all isRequestIdChar && decide (1 ≤ t.length) && decide (t.length ≤ 128)

def isValidRequestId (v : Json F) : Bool := v.str?.any isValidRequestIdText

/-- `isinstance(v, int)` of no boolean, with a value of the list. -/
def isIntOf (values : List Int) : Json F → Bool
  | .int n => values.contains n.val
  | _ => false

def isBool : Json F → Bool
  | .bool _ => true
  | _ => false

/-- `dry_run is False`. -/
def isFalse : Json F → Bool
  | .bool false => true
  | _ => false

def isDefaultVersion : Json F → Bool
  | .int n => n.val == 2
  | _ => false

def ofMapping (m : Option (Entries F)) : Json F := m.elim .null .dict

namespace CommandRequest

/-- `to_dict`. -/
def toDict (r : CommandRequest F) : Entries F :=
  [(ofString "schema_version", r.schemaVersion), (ofString "action", .str r.action),
    (ofString "request_id", r.requestId), (ofString "dry_run", r.dryRun),
    (ofString "target", ofMapping r.target), (ofString "instruction", ofMapping r.instruction),
    (ofString "params", ofMapping r.params)] ++
  if isDefaultVersion r.responseSchemaVersion then []
  else [(ofString "response_schema_version", r.responseSchemaVersion)]

def mutating (r : CommandRequest F) : Bool := mutatingActions.contains r.action

variable [FloatText F] (I : Interpreter F)

/-- `from_dict`. -/
def fromDict (data : Entries F) : CommandRequest F where
  action := stringValue I (data.get? (ofString "action"))
  schemaVersion := (data.get? (ofString "schema_version")).getD (.int shortOne)
  requestId := (data.get? (ofString "request_id")).getD .null
  dryRun := (data.get? (ofString "dry_run")).getD (.bool true)
  target := cleanMapping (data.get? (ofString "target"))
  instruction := cleanMapping (data.get? (ofString "instruction"))
  params := cleanMapping (data.get? (ofString "params"))
  responseSchemaVersion := (data.get? (ofString "response_schema_version")).getD (.int shortTwo)

end CommandRequest

mutual

/-- `_find_forbidden_fields(value, path)`. -/
def findForbiddenFields (T : Tables) (path : Text) : Json F → List Text
  | .dict entries => findForbiddenEntries T path entries
  | .list items => findForbiddenItems T path 0 items
  | _ => []

def findForbiddenEntries (T : Tables) (path : Text) : List (Text × Json F) → List Text
  | [] => []
  | (key, v) :: entries =>
    let here := path ++ ofString "." ++ key
    (if isForbiddenFieldName T key then [here] else []) ++ findForbiddenFields T here v ++
      findForbiddenEntries T path entries

def findForbiddenItems (T : Tables) (path : Text) (index : ℕ) : List (Json F) → List Text
  | [] => []
  | v :: items =>
    findForbiddenFields T (path ++ ofString "[" ++ decimal index ++ ofString "]") v ++
      findForbiddenItems T path (index + 1) items

end

/-- `set(mapping) == names`. -/
def hasExactly (m : Entries F) (names : List Text) : Bool :=
  m.keys.all names.contains && names.all m.keys.contains

/-- The keys of a mapping that are not among the names, in order. -/
def extraKeys (m : Entries F) (names : List Text) : List Text :=
  sortTexts (m.keys.filter (!names.contains ·))

end Requests

/-! ### Validation -/

section Validation

variable {F : Type} [FloatText F] (I : Interpreter F)

/-- `validate_instruction_text`. -/
def validateInstructionText : Option (Json F) → Option (Entries F)
  | none | some .null => some (fieldError I .invalidRequest "instruction.text is required"
      "instruction.text")
  | some (.str t) => (instructionTextMessage t).map fun message =>
      fieldError I .invalidRequest message "instruction.text"
  | some _ => some (fieldError I .invalidRequest "instruction.text must be a string"
      "instruction.text")

/-- `_target_has_stable_selector`. -/
def targetHasStableSelector (target : Option (Entries F)) : Bool :=
  target.any fun m => targetStableSelectorFields.any fun field => stringValue I (m.get? field) != []

/-- `f"{name} contains disallowed fields: {sorted(extra)}"`. -/
def disallowedError (name : String) (extra : List Text) : Entries F :=
  errorValue I .invalidRequest
    (ofString name ++ ofString " contains disallowed fields: " ++ I.repr (namesJson extra))
    [(ofString "field", textJson name), (ofString "disallowed", namesJson extra)]

/-- `_validate_target_shape`. -/
def validateTargetShape : Option (Entries F) → Option (Entries F)
  | none => none
  | some target =>
    let extra := extraKeys target targetAllowedFields
    if extra ≠ [] then some (disallowedError I "target" extra)
    else if stringValue I (target.get? (ofString "worker_fingerprint")) ≠ [] ∧
        ¬targetHasStableSelector I (some target) then
      some (errorValue I .invalidRequest
        (ofString "target requires a stable selector beside worker_fingerprint")
        [(ofString "field", textJson "target"),
          (ofString "allowed", namesJson (sortTexts targetStableSelectorFields))])
    else none

/-- `_validate_instruction_shape`. -/
def validateInstructionShape : Option (Entries F) → Option (Entries F)
  | none => none
  | some instruction =>
    let extra := extraKeys instruction instructionAllowedFields
    if extra ≠ [] then some (disallowedError I "instruction" extra)
    else validateInstructionText I (instruction.get? (ofString "text"))

/-- `isinstance(value, str) and value.strip()`. -/
def isNonblank (v : Option (Json F)) : Bool := (v.bind Json.str?).any fun t => strip t != []

/-- The checks of `send_instruction`. -/
def validateSend (r : CommandRequest F) : Option (Entries F) :=
  if r.target.isNone then
    some (fieldError I .invalidRequest "send_instruction requires a target" "target")
  else if !targetHasStableSelector I r.target then
    some (errorValue I .invalidRequest
      (ofString "send_instruction requires at least one stable target selector")
      [(ofString "field", textJson "target"),
        (ofString "allowed", namesJson (sortTexts targetStableSelectorFields))])
  else if (r.instruction.map fun m => stringValue I (m.get? (ofString "text"))).getD [] = [] then
    some (fieldError I .invalidRequest "send_instruction requires instruction.text"
      "instruction.text")
  else none

/-- The checks of `answer_pending`. -/
def validateAnswerPending (r : CommandRequest F) : Option (Entries F) :=
  if r.target.isSome then
    some (fieldError I .invalidRequest "answer_pending does not accept a target" "target")
  else if r.instruction.isSome then
    some (fieldError I .invalidRequest "answer_pending does not accept an instruction"
      "instruction")
  else
    match r.params with
    | none => some (fieldError I .invalidRequest "answer_pending requires params" "params")
    | some params =>
      if !hasExactly params answerPendingParamFields then
        some (errorValue I .invalidRequest
          (ofString "answer_pending params must contain exactly pending_id, pending_fingerprint, "
            ++ ofString "and choice_id")
          [(ofString "field", textJson "params"),
            (ofString "required", namesJson (sortTexts answerPendingParamFields)),
            (ofString "missing",
              namesJson (sortTexts (answerPendingParamFields.filter (!params.keys.contains ·)))),
            (ofString "disallowed", namesJson (extraKeys params answerPendingParamFields))])
      else
        ((sortTexts answerPendingParamFields).find? fun field =>
          !isNonblank (params.get? field)).map fun field =>
            errorValue I .invalidRequest
              (ofString "answer_pending requires nonblank params." ++ field)
              [(ofString "field", .str (ofString "params." ++ field))]

/-- The checks of the selection of an `answer_decision`. -/
def validateSelection (selection : Option (Json F)) : Option (Entries F) :=
  match selection.bind Json.dict? with
  | none => some (fieldError I .invalidSelection
      "selection must contain exactly one selection form" "params.selection")
  | some m =>
    if m.length ≠ 1 then
      some (fieldError I .invalidSelection "selection must contain exactly one selection form"
        "params.selection")
    else if hasExactly m [ofString "option_refs"] then
      match m.get? (ofString "option_refs") with
      | some (.list refs) =>
        if refs = [] ∨ ¬(refs.all fun ref => isNonblank (some ref)) then
          some (fieldError I .invalidSelection
            "selection.option_refs must be a nonempty array of strings"
            "params.selection.option_refs")
        else none
      | _ => some (fieldError I .invalidSelection
          "selection.option_refs must be a nonempty array of strings"
          "params.selection.option_refs")
    else if hasExactly m [ofString "text"] then
      if (validateInstructionText I (m.get? (ofString "text"))).isSome then
        some (fieldError I .invalidSelection "selection.text must be nonempty safe text"
          "params.selection.text")
      else none
    else some (fieldError I .invalidSelection "selection must contain option_refs or text"
      "params.selection")

/-- The checks of `answer_decision`. -/
def validateAnswerDecision (r : CommandRequest F) : Option (Entries F) :=
  if !r.target.any (hasExactly · [ofString "worker_id"]) then
    some (fieldError I .invalidRequest "answer_decision requires exactly target.worker_id" "target")
  else if !isNonblank (r.target.bind (·.get? (ofString "worker_id"))) then
    some (fieldError I .invalidRequest "answer_decision requires nonblank target.worker_id"
      "target.worker_id")
  else if r.instruction.isSome then
    some (fieldError I .invalidRequest "answer_decision does not accept an instruction"
      "instruction")
  else
    match r.params with
    | none => some (fieldError I .invalidRequest
        "answer_decision params must contain exactly decision_ref and selection" "params")
    | some params =>
      if !hasExactly params answerDecisionParamFields then
        some (fieldError I .invalidRequest
          "answer_decision params must contain exactly decision_ref and selection" "params")
      else if !isNonblank (params.get? (ofString "decision_ref")) then
        some (fieldError I .invalidRequest "answer_decision requires nonblank params.decision_ref"
          "params.decision_ref")
      else validateSelection I (params.get? (ofString "selection"))

/-- The checks of the action itself, after those of every request. -/
def validateAction (r : CommandRequest F) : Option (Entries F) :=
  if r.action = ofString "send_instruction" then validateSend I r
  else if r.action = ofString "answer_pending" then validateAnswerPending I r
  else if r.action = ofString "answer_decision" then validateAnswerDecision I r
  else none

def forbiddenError (paths : List Text) : Entries F :=
  errorValue I .invalidRequest
    (ofString "request contains forbidden connector or terminal fields")
    [(ofString "fields", namesJson paths)]

/-- `validate_request`. -/
def validateRequest (r : CommandRequest F) : Option (Entries F) :=
  if !isIntOf [1] r.schemaVersion then
    some (fieldError I .invalidRequest "schema_version must be 1" "schema_version")
  else if r.action = [] then some (fieldError I .invalidRequest "action is required" "action")
  else if !isBool r.dryRun then
    some (fieldError I .invalidRequest "dry_run must be a JSON boolean" "dry_run")
  else if !isIntOf [2, 3] r.responseSchemaVersion then
    some (fieldError I .invalidRequest "response_schema_version must be 2 or 3"
      "response_schema_version")
  else if !(allowedActions.map ofString).contains r.action then
    some (errorValue I .rejected (ofString "unknown action " ++ I.repr (.str r.action))
      [(ofString "field", textJson "action"),
        (ofString "allowed", namesJson (sortTexts (allowedActions.map ofString)))])
  else if r.mutating && isFalse r.dryRun && !isValidRequestId r.requestId then
    some (errorValue I .invalidRequest
      (ofString "non-dry-run " ++ r.action ++ ofString " requires a valid request_id")
      (fieldDetails "request_id"))
  else
    let forbidden := findForbiddenFields I.toTables (ofString "$") (.dict r.toDict)
    if forbidden ≠ [] then some (forbiddenError I forbidden)
    else (validateTargetShape I r.target).or
      ((validateInstructionShape I r.instruction).or (validateAction I r))

/-! ### Parsing -/

def unknownFields (data : Entries F) : List Text := extraKeys data requestAllowedFields

/-- The checks of `parse_command_request` on a mapping without forbidden fields. -/
def checkData (data : Entries F) : Option (Entries F) :=
  let unknown := unknownFields data
  if unknown ≠ [] then
    some (errorValue I .invalidRequest
      (ofString "request contains unknown top-level fields: " ++ I.repr (namesJson unknown))
      [(ofString "fields", namesJson (unknown.map (ofString "$." ++ ·)))])
  else if !(data.get? (ofString "schema_version")).any (isIntOf [1]) then
    some (fieldError I .invalidRequest "schema_version must be 1" "schema_version")
  else if (data.get? (ofString "dry_run")).any (!isBool ·) then
    some (fieldError I .invalidRequest "dry_run must be a JSON boolean" "dry_run")
  else if (data.get? (ofString "response_schema_version")).any (!isIntOf [2, 3] ·) then
    some (fieldError I .invalidRequest "response_schema_version must be 2 or 3"
      "response_schema_version")
  else none

/-- `parse_command_request`: a request, an error, or both. -/
def parseCommandRequest (payload : Text) : Option (CommandRequest F) × Option (Entries F) :=
  match loads (F := F) payload with
  | none => (none, some (errorValue I .invalidRequest (ofString "invalid JSON: " ++
      I.jsonError payload) (fieldDetails "request")))
  | some (.dict data) =>
    let forbidden := findForbiddenFields I.toTables (ofString "$") (.dict data)
    if forbidden ≠ [] then
      -- a request comes back although none of its fields was checked
      (if (Entries.keys data).any (isForbiddenFieldName I.toTables) then none
        else some (CommandRequest.fromDict I data), some (forbiddenError I forbidden))
    else
      match checkData I data with
      | some error => (none, some error)
      | none => (some (CommandRequest.fromDict I data), none)
  | some _ => (none, some (fieldError I .invalidRequest "request must be a JSON object" "request"))

end Validation

end Tendwire.Commands

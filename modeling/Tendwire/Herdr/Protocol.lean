import Mathlib.Data.List.Infix
import Tendwire.Json.Encoded
import Tendwire.Text

/-!
# The line protocol of the terminal server

Requests, responses and events are JSON objects, one on each line. A response carries the id of
its request; an event may carry one.
-/

namespace Tendwire

open Json

inductive HerdrError where
  | malformedLine (message : String)
  | envelope (message : String)
  | requestIdMismatch (expected actual : String)
  | errorResponse (error : Value) (requestId : String) (uncorrelated : Bool)
  | timeout (message : String)
  | disconnected (message : String)
  | connection (message : String)

/-- A value that `json.dumps` can write: its numbers have texts of numbers. -/
structure HerdrParams where
  fields : Fields
  numeric : Value.numericFields fields = true

structure HerdrRequest where
  id : String
  method : String
  params : HerdrParams

/-- `uuid4().hex`. -/
structure UuidHex where
  text : String
  length : text.toList.length = 32
  digits : ∀ c ∈ text.toList, isLowerHexDigit c = true

def buildRequest (method : String) (params : HerdrParams) (requestId : String) :
    Except HerdrError HerdrRequest :=
  if method = "" then .error (.envelope "request method must be a non-empty string")
  else .ok ⟨requestId, method, params⟩

def newRequestId (hex : UuidHex) : String := "req-" ++ hex.text

def HerdrRequest.envelope (request : HerdrRequest) : Fields :=
  [("id", .text request.id), ("method", .text request.method),
    ("params", .object request.params.fields)]

/-- The line break at the end of a frame. -/
def newline : UInt8 := 0x0A

def frameRequest (request : HerdrRequest) : Bytes :=
  utf8 (dumps (.object request.envelope)) ++ [newline]

/-! ### Envelopes -/

/-- `text[:-1]` if the text ends with the character. -/
def withoutLast (c : Char) (text : String) : String :=
  if text.toList.getLast? = some c then String.ofList text.toList.dropLast else text

section Decode

-- `json.loads`, without a result where it raises
variable (loads : String → Option Value)

def parseJsonLine (line : Bytes) : Except HerdrError Fields :=
  match String.fromUTF8? ⟨line.toArray⟩ with
  | none => .error (.malformedLine "Herdr line is not valid UTF-8")
  | some decoded =>
    let text := withoutLast '\r' (withoutLast '\n' decoded)
    if text = "" then .error (.malformedLine "Herdr line is empty")
    else match loads text with
      | none => .error (.malformedLine "Herdr line is not valid JSON")
      | some (.object envelope) => .ok envelope
      | some _ => .error (.envelope "Herdr envelope must be a JSON object")

end Decode

def validatedId (envelope : Fields) : Except HerdrError String :=
  match envelope.get? "id" with
  | some (.text requestId) =>
    if requestId = "" then .error (.envelope "Herdr envelope id must be a non-empty string")
    else .ok requestId
  | _ => .error (.envelope "Herdr envelope id must be a non-empty string")

def hasField (envelope : Fields) (key : String) : Bool := (envelope.get? key).isSome

def isResultResponse (envelope : Fields) : Bool :=
  hasField envelope "result" && !hasField envelope "error" && !hasField envelope "event"

def isErrorResponse (envelope : Fields) : Bool :=
  hasField envelope "error" && !hasField envelope "result" && !hasField envelope "event"

def isResponse (envelope : Fields) : Bool := isResultResponse envelope || isErrorResponse envelope

def isEvent (envelope : Fields) : Bool :=
  hasField envelope "event" && !hasField envelope "result" && !hasField envelope "error"

/-- `envelope.get("id") == ""`. -/
def idIsEmpty (envelope : Fields) : Bool := Value.sameEntry (envelope.get? "id") (.text "")

/-- The message of an `invalid_request` error. -/
def invalidRequestMessage? (envelope : Fields) : Option String :=
  match envelope.get? "error" with
  | some (.object error) =>
    if Value.sameEntry (Fields.get? error "code") (.text "invalid_request") then
      (Fields.get? error "message").bind Value.text?
    else none
  | _ => none

/-- What a caller accepts besides its own responses. -/
structure Uncorrelated where
  error : Bool
  methodError : Bool
deriving DecidableEq, Repr

/-- An error that the server answers to subscription parameters of the wrong shape. -/
def uncorrelatedSubscriptionError (allow : Uncorrelated) (envelope : Fields) : Bool :=
  allow.error && isErrorResponse envelope && idIsEmpty envelope &&
    (invalidRequestMessage? envelope).any fun message =>
      "invalid request:".toList.isPrefixOf message.toList

/-- An error that the server answers to a method that it does not know. -/
def uncorrelatedMethodError (allow : Uncorrelated) (envelope : Fields) : Bool :=
  allow.methodError && isErrorResponse envelope && (!hasField envelope "id" || idIsEmpty envelope) &&
    (invalidRequestMessage? envelope).any fun message =>
      "invalid request: unknown variant".toList.isPrefixOf message.toList &&
        decide ("pane.turns".toList <:+: message.toList)

/-- `if not condition: raise`. -/
def require (condition : Bool) (e : HerdrError) : Except HerdrError Unit :=
  if condition then .ok () else .error e

def validateResponse (allow : Uncorrelated) (envelope : Fields) : Except HerdrError Fields := do
  require (isResponse envelope)
    (.envelope "Herdr response must contain exactly one of result or error")
  if uncorrelatedSubscriptionError allow envelope || uncorrelatedMethodError allow envelope then
    return envelope
  else
    let _requestId ← validatedId envelope
    return envelope

/-- An event needs no id, but an id that it has is a text. -/
def eventIdValid (envelope : Fields) : Bool :=
  match envelope.get? "id" with
  | none | some .null => true
  | some (.text requestId) => requestId != ""
  | some _ => false

def eventNameValid (envelope : Fields) : Bool :=
  match envelope.get? "event" with
  | some (.text name) => name != ""
  | _ => false

def validateEvent (envelope : Fields) : Except HerdrError Fields := do
  require (eventIdValid envelope)
    (.envelope "Herdr event id must be a non-empty string when present")
  require (eventNameValid envelope) (.envelope "Herdr event name must be a non-empty string")
  require (isEvent envelope) (.envelope "Herdr event must not contain result or error fields")
  return envelope

def validateServerEnvelope (allow : Uncorrelated) (envelope : Fields) :
    Except HerdrError Fields := do
  if isResponse envelope then validateResponse allow envelope
  else if isEvent envelope then validateEvent envelope
  else
    let _ ← validatedId envelope
    throw (.envelope "Herdr envelope is neither a response nor an event")

def ensureResponseId (envelope : Fields) (expectedId : String) : Except HerdrError Unit := do
  let actualId ← validatedId envelope
  require (actualId == expectedId) (.requestIdMismatch expectedId actualId)

def resultPayload (response : Fields) : Except HerdrError Value := do
  let response ← validateResponse ⟨false, false⟩ response
  require (isResultResponse response) (.envelope "Herdr response does not contain a result")
  return (response.get? "result").getD .null

def errorPayload (response : Fields) : Except HerdrError Value := do
  let response ← validateResponse ⟨false, false⟩ response
  require (isErrorResponse response) (.envelope "Herdr response does not contain an error")
  return (response.get? "error").getD .null

end Tendwire

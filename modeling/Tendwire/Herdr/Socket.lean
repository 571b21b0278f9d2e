import Tendwire.Herdr.Protocol
import Tendwire.Transition.Fallible
import Tendwire.Transition.Schedule

/-!
# The socket client

The client writes a frame and reads lines until the response is there. Events that arrive before
it are parked. The network answers every call of the operating system: a failed `sendall` has
transferred a strict prefix, and the bytes of the server arrive in any chunks.
-/

namespace Tendwire

open Json Transition Fallible

inductive SendOutcome where
  | sent
  | timedOut (transferred : ℕ)
  /-- A broken pipe or a connection that was reset. -/
  | reset (transferred : ℕ)
  | failed (transferred : ℕ)
deriving DecidableEq, Repr

def SendOutcome.transferred (payload : Bytes) : SendOutcome → Bytes
  | sent => payload
  | timedOut n | reset n | failed n => payload.dropLast.take n

inductive RecvOutcome where
  /-- No bytes at the end of the stream. -/
  | chunk (bytes : Bytes)
  | timedOut
  | failed
deriving DecidableEq, Repr

/-- What the network answers to a call of the client, in order. Behind the last answer, nobody
listens and every deadline has passed. -/
structure NetworkAnswers where
  connects : List Bool
  sends : List SendOutcome
  recvs : List RecvOutcome

/-- The bytes that each side of a connection has received. -/
structure HerdrConnection where
  atServer : Bytes
  atClient : Bytes
deriving DecidableEq, Repr

/-- The client with the network, the newest connection first. -/
structure SocketState where
  connected : Bool
  buffer : Bytes
  pendingEvents : List Fields
  connections : List HerdrConnection
  answers : NetworkAnswers

abbrev SocketProgram (α : Type) := Fallible SocketState HerdrError α

/-- `_MAX_PENDING_EVENTS`. -/
def maxPendingEvents : ℕ := 1024

namespace HerdrSocketClient

def init : SocketState := ⟨false, [], [], [], ⟨[], [], []⟩⟩

def close : SocketProgram Unit :=
  update fun s => { s with connected := false, buffer := [], pendingEvents := [] }

/-- `sock.connect`, and whether it succeeds. -/
def openSocket : SocketProgram Bool := fun s =>
  let s' := { s with answers := { s.answers with connects := s.answers.connects.tail } }
  if s.answers.connects.head? = some true then
    (.ok true, { s' with connected := true, connections := ⟨[], []⟩ :: s.connections })
  else (.ok false, s')

def connect : SocketProgram Unit := do
  let connected ← read SocketState.connected
  if connected then pure ()
  else
    let opened ← openSocket
    if opened then pure () else raise (.connection "could not connect to Herdr socket")

def activeSocket : SocketProgram Unit := connect

def sendall (payload : Bytes) : SocketProgram SendOutcome := fun s =>
  let outcome := s.answers.sends.head?.getD (.timedOut 0)
  (.ok outcome, { s with
    connections := s.connections.modifyHead fun c =>
      { c with atServer := c.atServer ++ outcome.transferred payload }
    answers := { s.answers with sends := s.answers.sends.tail } })

/-- The second attempt, on a new connection. -/
def rewrite (payload : Bytes) : SocketProgram Unit := do
  let opened ← openSocket
  if opened then
    let outcome ← sendall payload
    match outcome with
    | .sent => pure ()
    | .timedOut _ => raise (.timeout "Herdr socket write timed out")
    | .reset _ | .failed _ =>
      close
      raise (.disconnected "Herdr socket disconnected during write")
  else
    close
    raise (.disconnected "Herdr socket disconnected during write")

def write (payload : Bytes) : SocketProgram Unit := do
  activeSocket
  let outcome ← sendall payload
  match outcome with
  | .sent => pure ()
  | .reset _ =>
    close
    rewrite payload
  | .timedOut _ => raise (.timeout "Herdr socket write timed out")
  | .failed _ =>
    close
    raise (.disconnected "Herdr socket disconnected during write")

/-- The first line of a buffer with its line break, and the rest. -/
def takeLine (buffer : Bytes) : Option (Bytes × Bytes) :=
  if newline ∈ buffer then
    some (buffer.takeWhile (· != newline) ++ [newline], (buffer.dropWhile (· != newline)).tail)
  else none

/-- A chunk that was received. -/
def receive (bytes : Bytes) (rest : List RecvOutcome) : SocketProgram Unit :=
  update fun s => { s with
    buffer := s.buffer ++ bytes
    connections := s.connections.modifyHead fun c => { c with atClient := c.atClient ++ bytes }
    answers := { s.answers with recvs := rest } }

/-- `_read_line`, by what the network still answers. -/
def readLineFrom (outcomes : List RecvOutcome) : SocketProgram Bytes := do
  let buffer ← read SocketState.buffer
  match takeLine buffer with
  | some (line, rest) =>
    update fun s => { s with buffer := rest }
    pure line
  | none =>
    activeSocket
    match outcomes with
    | [] | .timedOut :: _ => raise (.timeout "Herdr socket read timed out")
    | .failed :: _ =>
      close
      raise (.disconnected "Herdr socket disconnected during read")
    | .chunk bytes :: rest =>
      if bytes = [] then
        close
        raise (.disconnected "Herdr socket disconnected before a complete line was received")
      else
        receive bytes rest
        readLineFrom rest

def readLine : SocketProgram Bytes := do
  let outcomes ← read fun s => s.answers.recvs
  readLineFrom outcomes

section Decode

variable (loads : String → Option Value)

def readServerEnvelope (allow : Uncorrelated) : SocketProgram Fields := do
  let line ← readLine
  lift (parseJsonLine loads line >>= validateServerEnvelope allow)

def park (envelope : Fields) : SocketProgram Unit :=
  update fun s => { s with pendingEvents := s.pendingEvents ++ [envelope] }

def tooManyEvents : HerdrError := .envelope "too many Herdr events arrived before the response"

/-- An error that belongs to the only request in flight without carrying its id. -/
def isUncorrelatedError (allow : Uncorrelated) (envelope : Fields) : Bool :=
  (allow.error || allow.methodError) && isErrorResponse envelope &&
    (allow.error && idIsEmpty envelope ||
      allow.methodError && (!hasField envelope "id" || idIsEmpty envelope))

def raiseUncorrelated (requestId : String) (envelope : Fields) : SocketProgram Fields :=
  match envelope.get? "error" with
  | some (.object payload) => raise (.errorResponse (.object payload) requestId true)
  | _ => raise (.envelope "Herdr error payload must be an object")

/-- A response is correlated, or it is an error. -/
def acceptResponse (requestId : String) (envelope : Fields) : SocketProgram Fields := do
  lift (ensureResponseId envelope requestId)
  if isResultResponse envelope || isErrorResponse envelope then pure envelope
  else raise (.envelope "expected Herdr response envelope")

/-- `_read_response`. The number bounds the passes: every pass but the last parks an event. -/
def readResponseFrom (requestId : String) (allow : Uncorrelated) : ℕ → SocketProgram Fields
  | 0 => raise tooManyEvents
  | passes + 1 => do
    let envelope ← readServerEnvelope loads allow
    if isEvent envelope then
      let pending ← read SocketState.pendingEvents
      if maxPendingEvents ≤ pending.length then raise tooManyEvents
      else
        park envelope
        readResponseFrom requestId allow passes
    else if isUncorrelatedError allow envelope then raiseUncorrelated requestId envelope
    else acceptResponse requestId envelope

def readResponse (requestId : String) (allow : Uncorrelated) : SocketProgram Fields :=
  readResponseFrom loads requestId allow (maxPendingEvents + 1)

def sendRequest (method : String) (params : HerdrParams) (hex : UuidHex) : SocketProgram String := do
  connect
  let request ← lift (buildRequest method params (newRequestId hex))
  write (frameRequest request)
  pure request.id

/-- An error response is raised, and a result is answered. -/
def answerResponse (requestId : String) (response : Fields) : SocketProgram Value := do
  if isErrorResponse response then
    let error ← lift (errorPayload response)
    raise (.errorResponse error requestId false)
  else lift (resultPayload response)

def request (method : String) (params : HerdrParams) (allowUncorrelated : Bool) (hex : UuidHex) :
    SocketProgram Value := do
  let requestId ← sendRequest method params hex
  let response ← readResponse loads requestId ⟨false, allowUncorrelated⟩
  answerResponse requestId response

/-- The id that events are correlated to, and the acknowledgement. -/
def subscribe (method : String) (params : HerdrParams) (hex : UuidHex) :
    SocketProgram (String × Value) := do
  let requestId ← sendRequest method params hex
  let response ← readResponse loads requestId ⟨true, false⟩
  let ack ← answerResponse requestId response
  pure (requestId, ack)

/-- The event that has been parked first, or else the next envelope. -/
def nextEnvelope : SocketProgram Fields := do
  let pending ← read SocketState.pendingEvents
  match pending with
  | envelope :: rest =>
    update fun s => { s with pendingEvents := rest }
    pure envelope
  | [] => readServerEnvelope loads ⟨false, false⟩

def readEvent (subscriptionId : String) : SocketProgram Fields := do
  let envelope ← nextEnvelope loads
  if isEvent envelope then
    if Value.sameEntry (envelope.get? "id") .null then pure envelope
    else
      lift (ensureResponseId envelope subscriptionId)
      pure envelope
  else raise (.envelope "expected Herdr event envelope")

end Decode

end HerdrSocketClient

/-! ### Calls -/

inductive HerdrCall where
  | connect
  | close
  | request (method : String) (params : HerdrParams) (allowUncorrelated : Bool)
  | subscribe (method : String) (params : HerdrParams)
  | readEvent (subscriptionId : String)

inductive HerdrReply where
  | done
  | payload (value : Value)
  | stream (subscriptionId : String) (ack : Value)
  | event (envelope : Fields)

/-- What a call meets: the `uuid4().hex` that it may use, and the network. -/
structure HerdrConditions where
  hex : UuidHex
  answers : NetworkAnswers

section Decode

variable (loads : String → Option Value)

def HerdrCall.program (hex : UuidHex) : HerdrCall → SocketProgram HerdrReply
  | .connect => do
    HerdrSocketClient.connect
    pure .done
  | .close => do
    HerdrSocketClient.close
    pure .done
  | .request method params allowUncorrelated => do
    let value ← HerdrSocketClient.request loads method params allowUncorrelated hex
    pure (.payload value)
  | .subscribe method params => do
    let (subscriptionId, ack) ← HerdrSocketClient.subscribe loads method params hex
    pure (.stream subscriptionId ack)
  | .readEvent subscriptionId => do
    let envelope ← HerdrSocketClient.readEvent loads subscriptionId
    pure (.event envelope)

def herdrStep (s : SocketState) (call : HerdrCall × HerdrConditions) :
    SocketState × Except HerdrError HerdrReply :=
  let run := call.1.program loads call.2.hex { s with answers := call.2.answers }
  (run.2, run.1)

def herdrMachine : Machine SocketState (HerdrCall × HerdrConditions)
    (Except HerdrError HerdrReply) := ⟨herdrStep loads⟩

end Decode

end Tendwire

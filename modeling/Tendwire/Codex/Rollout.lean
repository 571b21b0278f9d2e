import Mathlib.Algebra.GroupWithZero.Nat
import Tendwire.Json.Fields
import Tendwire.Text

/-!
# The rollout reader

A rollout is a file of JSON lines that only grows. A poll thaws the checkpoint of the poll before
it, applies the records appended since, and publishes the content of one turn. The checkpoint
keeps coordinates and flags but neither the prompt nor the final text.
-/

namespace Tendwire

open Json

structure CodexRecordSpan where
  start : Nat
  stop : Nat
deriving DecidableEq, Repr

inductive CodexEventKind where
  | start
  | user
  | commentary
  | final
  | completeEmpty
deriving DecidableEq, Repr

structure CodexSemanticEvent where
  kind : CodexEventKind
  turnId : String
  text : String
deriving DecidableEq, Repr

inductive CodexReadError where
  | valueError (message : String)
  | turnReadFailed
deriving DecidableEq, Repr

/-- Decoding and the tests of texts. -/
structure CodexRules where
  /-- `json.loads(raw.decode("utf-8"))`, which raises when there is no result. -/
  decode : List UInt8 → Option Value
  /-- `str` of a value that is no text. -/
  str : Value → String
  looksLikeAutomationUserText : String → Bool
  looksLikeAutomationResultText : String → Bool
  /-- `_PROMPTLESS_STATUS_FINAL_RE.search`. -/
  promptlessStatusFinal : String → Bool

/-- The public content of a turn. -/
structure CodexContent where
  userText : Option String
  assistantStreamText : Option String
  assistantFinalText : Option String
  complete : Bool
  hasOpenTurn : Bool
  sourceTurnId : String
deriving DecidableEq, Repr

structure CodexWork where
  committedOffset : Nat
  partialRecord : List UInt8
  observedSize : Nat
  activeTurnId : String
  lastContentTurnId : String
  turnOpen : Bool
  finalSeen : Bool
  complete : Bool
  internalTurn : Bool
  streamItems : List (CodexRecordSpan × String)
  userText : Option String
  finalText : Option String
  publicChanged : Bool
deriving DecidableEq, Repr

structure CodexCheckpoint where
  committedOffset : Nat
  partialRecord : List UInt8
  observedSize : Nat
  activeTurnId : String
  lastContentTurnId : String
  turnOpen : Bool
  finalSeen : Bool
  complete : Bool
  internalTurn : Bool
  streamSpans : List CodexRecordSpan
deriving DecidableEq, Repr

def maxCodexStreamMessages : Nat := 4

def codexRecordMaxBytes : Nat := 8 * 1024 * 1024

def codexTurnIdMaxBytes : Nat := 1024

def codexPollMaxBytes : Nat := 64 * 1024 * 1024

/-! ### Texts -/

/-- `text.lstrip().replace("\r\n", "\n")`. -/
def cleanUserText (text : String) : String :=
  let rec replaceCrLf : List Char → List Char
    | '\r' :: '\n' :: rest => '\n' :: replaceCrLf rest
    | c :: rest => c :: replaceCrLf rest
    | [] => []
  String.ofList (replaceCrLf (text.toList.dropWhile isWhitespace))

def internalUserTextPrefixes : List String :=
  ["<subagent_notification>", "<environment_context>", "<local-command-caveat>",
    "<local-command-stdout>", "<local-command-stderr>", "<command-name>", "<command-message>",
    "<system-reminder>",
    "Caveat: The messages below were generated by the user while running local commands."]

section Texts

variable (R : CodexRules)

/-- `is_internal_automation_turn_payload`. -/
def isInternalAutomationTurnPayload (userText finalText streamText : Option String) : Bool :=
  if userText.any R.looksLikeAutomationUserText then true
  else if userText.any fun text => strip text != "" then false
  else finalText.any R.looksLikeAutomationResultText ||
    streamText.any R.looksLikeAutomationResultText

def isInternalUserText (text : String) : Bool :=
  internalUserTextPrefixes.any (fun p => p.toList.isPrefixOf (cleanUserText text).toList) ||
    isInternalAutomationTurnPayload R (some (cleanUserText text)) none none

def isPromptlessStatusFinal (content : CodexContent) : Bool :=
  let finalText := strip (content.assistantFinalText.getD "")
  strip (content.userText.getD "") == "" && content.complete && !content.hasOpenTurn &&
    finalText != "" && decide (finalText.toList.length ≤ 800) && R.promptlessStatusFinal finalText

def isInternalTurnContent (content : CodexContent) : Bool :=
  content.userText.any (isInternalUserText R) || isPromptlessStatusFinal R content ||
    isInternalAutomationTurnPayload R content.userText content.assistantFinalText
      content.assistantStreamText

end Texts

/-! ### Records -/

section Records

variable (R : CodexRules)

/-- `str(value or "")`. -/
def textOrEmpty (value : Option Value) : String :=
  match value with
  | some (.text s) => s
  | some v => if v.truthy then R.str v else ""
  | none => ""

def nonblankText? (value : Option Value) : Option String :=
  ((value.bind Value.text?).map strip).filter (· != "")

def payloadTurnId (payload : Fields) : String :=
  match nonblankText? (payload.get? "turn_id") with
  | some turnId => turnId
  | none =>
    (((payload.get? "internal_chat_message_metadata_passthrough").bind Value.object?).bind
      fun metadata => nonblankText? (metadata.get? "turn_id")).getD ""

def messageText (payload : Fields) : String :=
  match payload.get? "content" with
  | some (.array items) =>
    "\n".intercalate (items.filterMap fun item => item.object?.bind fun m =>
      ((m.get? "text").bind Value.text?).filter fun text => strip text != "")
  | _ => ((payload.get? "message").bind Value.text?).getD ""

def codexRecordEvent (record : Fields) : Except CodexReadError (Option CodexSemanticEvent) :=
  match (record.get? "payload").bind Value.object? with
  | none => .ok none
  | some payload =>
    let recordType := (record.get? "type").bind Value.text?
    let payloadType := textOrEmpty R (payload.get? "type")
    let turnId := payloadTurnId payload
    if codexTurnIdMaxBytes < turnId.utf8ByteSize then
      .error (.valueError "oversized Codex turn identity")
    else if recordType = some "event_msg" ∧ payloadType = "task_started" then
      .ok (some ⟨.start, turnId, ""⟩)
    else if recordType = some "event_msg" ∧ payloadType = "task_complete" then
      let text := textOrEmpty R (payload.get? "last_agent_message")
      .ok (some (if text = "" then ⟨.completeEmpty, turnId, ""⟩ else ⟨.final, turnId, text⟩))
    else if recordType ≠ some "response_item" ∨ payloadType ≠ "message" then .ok none
    else
      let text := messageText payload
      let role := textOrEmpty R (payload.get? "role")
      if text = "" then .ok none
      else if role = "user" then .ok (some ⟨.user, turnId, text⟩)
      else if role ≠ "assistant" then .ok none
      else if textOrEmpty R (payload.get? "phase") = "commentary" then
        .ok (some ⟨.commentary, turnId, text⟩)
      else .ok (some ⟨.final, turnId, text⟩)

def codexDecodeRecord (raw : List UInt8) : Except CodexReadError Fields :=
  if codexRecordMaxBytes < raw.length then .error (.valueError "oversized Codex record")
  else match R.decode raw with
    | some (.object record) => .ok record
    | some _ => .error (.valueError "invalid Codex record shape")
    | none => .error (.valueError "invalid Codex record")

end Records

/-! ### Events -/

section Events

variable (R : CodexRules)

namespace CodexWork

/-- The turn that a content of the work is of. -/
def currentTurnId (w : CodexWork) : String :=
  if w.activeTurnId != "" then w.activeTurnId else w.lastContentTurnId

/-- The work of a turn that starts. -/
def started (w : CodexWork) (turnId : String) : CodexWork :=
  { w with
    activeTurnId := turnId
    lastContentTurnId := ""
    turnOpen := true
    finalSeen := false
    complete := false
    internalTurn := false
    streamItems := []
    userText := none
    finalText := none
    publicChanged := true }

/-- The work before a record of a turn, which without an active turn may be another one. -/
def selected (w : CodexWork) (turnId : String) : CodexWork :=
  if w.activeTurnId = "" ∧ w.currentTurnId ≠ "" ∧ turnId ≠ w.currentTurnId then
    { w with
      streamItems := []
      finalSeen := false
      complete := false
      internalTurn := false
      userText := none
      finalText := none }
  else w

def applyUser (w : CodexWork) (turnId text : String) : CodexWork :=
  if isInternalUserText R text then
    -- context before the prompt hides the turn, later context must not erase it
    if w.userText = none then
      { w with
        internalTurn := true
        lastContentTurnId := turnId
        streamItems := []
        finalText := none }
    else w
  else
    { w with
      internalTurn := false
      userText := some text
      lastContentTurnId := turnId
      turnOpen := !w.finalSeen
      publicChanged := true }

/-- The commentary of a turn, each text once and the last few only. -/
def pushStreamItem (items : List (CodexRecordSpan × String)) (span : CodexRecordSpan)
    (text : String) : List (CodexRecordSpan × String) :=
  let items := items.filter (fun item => item.2 != text) ++ [(span, text)]
  items.drop (items.length - maxCodexStreamMessages)

def applyCommentary (w : CodexWork) (turnId text : String) (span : CodexRecordSpan) : CodexWork :=
  if strip text = "" then w
  else
    { w with
      streamItems := pushStreamItem w.streamItems span (strip text)
      lastContentTurnId := turnId
      turnOpen := !w.finalSeen
      publicChanged := true }

def applyFinal (w : CodexWork) (turnId text : String) : CodexWork :=
  { w with
    finalText := some text
    lastContentTurnId := turnId
    finalSeen := true
    complete := true
    turnOpen := false
    streamItems := []
    publicChanged := true }

/-- `_apply_codex_event`. -/
def applyEvent (w : CodexWork) (event : CodexSemanticEvent) (span : CodexRecordSpan) : CodexWork :=
  if event.kind = .start then
    if event.turnId = "" then w else w.started event.turnId
  else
    let turnId := if event.turnId != "" then event.turnId else w.activeTurnId
    if turnId = "" ∨ event.kind = .completeEmpty then w
    else if w.activeTurnId ≠ "" ∧ turnId ≠ w.activeTurnId then w
    else
      let w' := w.selected turnId
      if event.kind = .user then w'.applyUser R turnId event.text
      else if w'.internalTurn then w'
      else if event.kind = .commentary then w'.applyCommentary turnId event.text span
      else w'.applyFinal turnId event.text

/-- The content that the work shows, whether or not it has changed. -/
def shown (w : CodexWork) : CodexContent where
  userText := w.userText
  assistantStreamText :=
    if w.finalSeen || w.streamItems.isEmpty then none
    else some ("\n\n".intercalate (w.streamItems.map Prod.snd))
  assistantFinalText := w.finalText
  complete := w.complete && w.finalSeen
  hasOpenTurn := !w.finalSeen
  sourceTurnId := prefixChars 160 w.currentTurnId

/-- `_codex_content_from_work`. -/
def content (w : CodexWork) : Option CodexContent :=
  if w.internalTurn || !w.publicChanged || w.currentTurnId == "" then none
  else if isInternalTurnContent R w.shown then none
  else some w.shown

/-- `_codex_freeze_work`. -/
def freeze (w : CodexWork) : CodexCheckpoint where
  committedOffset := w.committedOffset
  partialRecord := w.partialRecord
  observedSize := w.observedSize
  activeTurnId := w.activeTurnId
  lastContentTurnId := w.lastContentTurnId
  turnOpen := w.turnOpen
  finalSeen := w.finalSeen
  complete := w.complete
  internalTurn := w.internalTurn
  streamSpans := w.streamItems.map Prod.fst

end CodexWork

end Events

/-! ### The poll -/

section Poll

variable (R : CodexRules)

/-- The record of a line, if it has an event. A blank line has none. -/
def codexLineEvent (raw : List UInt8) : Except CodexReadError (Option CodexSemanticEvent) :=
  if raw.all fun b => b == 32 || (decide (9 ≤ b) && decide (b ≤ 13)) then .ok none
  else match codexDecodeRecord R raw with
    | .error e => .error e
    | .ok record => codexRecordEvent R record

/-- The commentary that a span of the file holds. -/
def codexCommentaryAt (file : List UInt8) (span : CodexRecordSpan) : Except CodexReadError String :=
  let raw := (file.take span.stop).drop span.start
  if raw.length ≠ span.stop - span.start then .error .turnReadFailed
  else match codexDecodeRecord R raw with
    | .error e => .error e
    | .ok record => match codexRecordEvent R record with
      | .error e => .error e
      | .ok event => match event.filter fun e => e.kind == .commentary with
        | some e => .ok (strip e.text)
        | none => .error .turnReadFailed

/-- `_codex_materialize_stream_items`. -/
def codexMaterializeStreamItems (file : List UInt8) (spans : List CodexRecordSpan) :
    Except CodexReadError (List (CodexRecordSpan × String)) :=
  spans.foldlM (fun items span => (codexCommentaryAt R file span).map fun text =>
    items.filter (fun item => item.2 != text) ++ [(span, text)]) []

/-- `_codex_work_from_prior`. -/
def CodexCheckpoint.thaw (file : List UInt8) (prior : CodexCheckpoint) :
    Except CodexReadError CodexWork :=
  (codexMaterializeStreamItems R file prior.streamSpans).map fun items =>
    { committedOffset := prior.committedOffset
      partialRecord := prior.partialRecord
      observedSize := file.length
      activeTurnId := prior.activeTurnId
      lastContentTurnId := prior.lastContentTurnId
      turnOpen := prior.turnOpen
      finalSeen := prior.finalSeen
      complete := prior.complete
      internalTurn := prior.internalTurn
      streamItems := items
      userText := none
      finalText := none
      publicChanged := false }

/-- The work after the event of a line that ends at the next newline. -/
def CodexWork.advance (w : CodexWork) (event : Option CodexSemanticEvent) (length : Nat) :
    CodexWork :=
  let span := ⟨w.committedOffset, w.committedOffset + length⟩
  { event.elim w (fun e => w.applyEvent R e span) with
    committedOffset := w.committedOffset + length + 1 }

/-- Whether a poll ends with the record: the first final of a turn is published at once. -/
def endsPoll (event : Option CodexSemanticEvent) (before after : CodexWork) : Bool :=
  event.any (fun e => e.kind == .final) && !before.finalSeen && after.finalSeen

/-- The loop of `_read_codex_incremental` over the bytes of the file that are left, with the bytes
of the unfinished line. -/
def codexScan (w : CodexWork) (buffer : List UInt8) :
    List UInt8 → Except CodexReadError CodexWork
  | [] =>
    if codexRecordMaxBytes < buffer.length then .error (.valueError "oversized Codex record")
    else .ok { w with partialRecord := buffer }
  | b :: rest =>
    if b = 10 then
      if codexRecordMaxBytes < buffer.length then .error (.valueError "oversized Codex record")
      else match codexLineEvent R buffer with
        | .error e => .error e
        | .ok event =>
          let w' := w.advance R event buffer.length
          if endsPoll event w w' then
            -- the bytes after this record are read again by the next poll
            .ok { w' with partialRecord := [], observedSize := w'.committedOffset }
          else codexScan w' [] rest
    else codexScan w (buffer ++ [b]) rest

/-- `_read_codex_incremental`, over the bytes that the file has now. -/
def readCodexIncremental (file : List UInt8) (prior : CodexCheckpoint) :
    Except CodexReadError (Option CodexContent × CodexCheckpoint) :=
  match prior.thaw R file with
  | .error e => .error e
  | .ok w =>
    let physicalOffset := prior.committedOffset + prior.partialRecord.length
    if codexPollMaxBytes < (prior.streamSpans.map fun span => span.stop - span.start).sum +
        (file.length - physicalOffset) then
      .error (.valueError "Codex poll byte limit exceeded")
    else match codexScan R w prior.partialRecord (file.drop physicalOffset) with
      | .error e => .error e
      | .ok w' => .ok (w'.content R, w'.freeze)

end Poll

end Tendwire

import Tendwire.Connector.Turns
import Tendwire.Json.Fields

/-!
# The public turn

The recursive public sanitizer, and the `Turn` record that a payload is read into and
written from. The leaf functions on text rest on regular expressions, Unicode tables and
digests; they are `TextRules`, and every result holds for all of them.
-/

namespace Tendwire

open Json Connector

structure TextRules where
  /-- `str(value)` of a value that is not a string. -/
  display : Value → String
  lower : String → String
  sanitizePublicText : String → String
  /-- `sanitize_public_text(value, max_chars=_PUBLIC_VALUE_TEXT_MAX_CHARS)`. -/
  sanitizeValueText : String → String
  /-- `sanitize_canonical_turn_text` of a string. -/
  sanitizeTurnText : String → String
  isForbiddenFieldName : String → Bool
  isForbiddenPublicMappingKey : String → Bool
  containsForbiddenPublicText : String → Bool
  looksLikeRawCommand : String → Bool
  isRedacted : String → Bool
  isOpaqueId : String → Bool
  isTelegramChatId : Int → Bool
  looksLikeAutomationUserText : String → Bool
  looksLikeAutomationResultText : String → Bool
  stableFingerprint : Value → String
  revisionText : ContentRevision → String
  cursorText : ContentCursor → String
  /-- `_strict_utc_timestamp`. -/
  strictUtcTimestamp : String → Option String
  /-- The instant of a strict timestamp. -/
  instant : String → Int
  canonicalJson : Value → String
  /-- `complete` and `has_open_turn` are public field names. -/
  completion_public : ∀ key ∈ ["complete", "has_open_turn"], lower key = key ∧
    sanitizeValueText key = key ∧ isForbiddenFieldName key = false ∧
    isForbiddenPublicMappingKey key = false

/-! ### Word tables -/

def canonicalStatuses : List String :=
  ["unknown", "active", "idle", "waiting", "blocked", "warning", "done", "failed", "closed"]

def statusAliases : List (String × String) := [
  ("", "unknown"), ("ok", "active"), ("okay", "active"), ("ready", "active"),
  ("running", "active"), ("run", "active"), ("online", "active"), ("connected", "active"),
  ("healthy", "active"), ("success", "done"), ("open", "active"), ("working", "active"),
  ("busy", "active"), ("processing", "active"), ("in-progress", "active"),
  ("in_progress", "active"), ("thinking", "active"), ("executing", "active"),
  ("responding", "waiting"), ("awaiting-input", "waiting"), ("awaiting_input", "waiting"),
  ("needs-input", "waiting"), ("needs_input", "waiting"), ("paused", "idle"), ("pause", "idle"),
  ("sleeping", "idle"), ("wait", "waiting"), ("pending", "waiting"), ("queued", "waiting"),
  ("queue", "waiting"), ("blocked", "blocked"), ("block", "blocked"), ("stalled", "blocked"),
  ("stuck", "blocked"), ("warn", "warning"), ("warning", "warning"), ("degraded", "warning"),
  ("error", "failed"), ("errors", "failed"), ("fail", "failed"), ("failure", "failed"),
  ("crashed", "failed"), ("crash", "failed"), ("panic", "failed"), ("closed", "closed"),
  ("complete", "done"), ("completed", "done"), ("done", "done"), ("stopped", "closed"),
  ("exited", "closed"), ("terminated", "closed")]

def turnKindAliases : List (String × String) := [
  ("", "unknown"), ("task", "task"), ("work", "task"), ("job", "task"), ("message", "message"),
  ("note", "message"), ("review", "review"), ("inspect", "review")]

def volatileKeys : List String := [
  "updated_at", "observed_at", "created_at", "started_at", "completed_at", "expires_at",
  "last_seen_at", "timestamp", "fingerprint", "content_fingerprint"]

def publicSubmissionVerdicts : List String := [
  "submitted", "written_to_pty", "agent_not_ready", "agent_target_ambiguous",
  "agent_prompt_not_received", "agent_prompt_unsubmitted", "agent_input_pending",
  "agent_prompt_stalled", "unknown"]

/-- The allowed mapping keys that are also structural (`id`, `…_id`, `…_fingerprint`). -/
def publicStructuralKeys : List String := [
  "action_id", "active_tab_id", "attention_id", "choice_id", "content_fingerprint", "fingerprint",
  "host_id", "id", "origin_command_id", "request_id", "row_id", "segment_id", "source_turn_id",
  "space_id", "submission_id", "turn_id", "worker_fingerprint", "worker_id"]

def publicFreeTextKeys : List String := [
  "assistant_final_text", "assistant_stream_text", "description", "detail", "fields", "label",
  "message", "name", "prompt", "question", "raw_status", "reason", "status_line", "request_id",
  "summary", "title", "user_text"]

/-! ### Sanitizers -/

namespace TextRules

variable (R : TextRules)

def str : Value → String
  | .text s => s
  | v => R.display v

/-- `str(value or "")`. -/
def strOrEmpty (value : Option Value) : String :=
  match value with
  | some v => if v.truthy then R.str v else ""
  | none => ""

def normalizedField (field : String) : String := replaceChar '-' '_' (R.lower (strip field))

/-- The string branch of `sanitize_public_value`. -/
def sanitizePublicString (field value : String) : Option Value :=
  let text := R.sanitizeValueText value
  if publicStructuralKeys.contains field then
    if R.isRedacted text || R.looksLikeRawCommand text then none else some (.text text)
  else if publicFreeTextKeys.contains (R.normalizedField field) then
    some (.text text)
  else if R.isRedacted text then
    none
  else if R.isOpaqueId text then
    some (.text text)
  else if R.containsForbiddenPublicText text || R.looksLikeRawCommand text then
    none
  else
    some (.text text)

def keepsKey (key : String) (value : Value) : Bool :=
  R.sanitizeValueText key == key &&
    ((key == "outbox" && value.object?.isSome) ||
      !(R.isForbiddenFieldName key || R.isForbiddenPublicMappingKey key))

/-- The two fields that keep no value other than a string. -/
def dropsField (field : String) : Bool :=
  R.normalizedField field == "composer_state" || R.normalizedField field == "submission_verdict"

mutual

/-- `sanitize_public_value` of a nested value; `none` is the dropped value. -/
def sanitizePublicValue (field : String) : Value → Option Value
  | .text s =>
    if R.normalizedField field = "composer_state" then
      none
    else if R.normalizedField field = "submission_verdict" then
      let verdict := R.sanitizeValueText s
      if publicSubmissionVerdicts.contains verdict then some (.text verdict) else none
    else
      R.sanitizePublicString field s
  | .object m => if R.dropsField field then none else some (.object (sanitizePublicMapping m))
  | .array items =>
    if R.dropsField field then none else some (.array (sanitizePublicItems field items))
  | .int n => if R.dropsField field || R.isTelegramChatId n then none else some (.int n)
  | .null => if R.dropsField field then none else some .null
  | .bool b => if R.dropsField field then none else some (.bool b)
  | .float t => if R.dropsField field then none else some (.float t)

def sanitizePublicMapping : List (String × Value) → List (String × Value)
  | [] => []
  | (key, value) :: m =>
    if R.keepsKey key value then
      match sanitizePublicValue key value with
      | some v => (key, v) :: sanitizePublicMapping m
      | none => sanitizePublicMapping m
    else
      sanitizePublicMapping m

def sanitizePublicItems (field : String) : List Value → List Value
  | [] => []
  | value :: items =>
    match sanitizePublicValue field value with
    | some v => v :: sanitizePublicItems field items
    | none => sanitizePublicItems field items

end

mutual

def sanitizeForbiddenFields : Value → Value
  | .object m => .object (sanitizeForbiddenMapping m)
  | .array items => .array (sanitizeForbiddenItems items)
  | v => v

def sanitizeForbiddenMapping : List (String × Value) → List (String × Value)
  | [] => []
  | (key, value) :: m =>
    if R.isForbiddenFieldName key then
      sanitizeForbiddenMapping m
    else
      (key, sanitizeForbiddenFields value) :: sanitizeForbiddenMapping m

def sanitizeForbiddenItems : List Value → List Value
  | [] => []
  | value :: items => sanitizeForbiddenFields value :: sanitizeForbiddenItems items

end

mutual

def stripVolatile : Value → Value
  | .object m => .object (stripVolatileMapping m)
  | .array items => .array (stripVolatileItems items)
  | v => v

def stripVolatileMapping : List (String × Value) → List (String × Value)
  | [] => []
  | (key, value) :: m =>
    if volatileKeys.contains (R.lower key) then
      stripVolatileMapping m
    else
      (key, stripVolatile value) :: stripVolatileMapping m

def stripVolatileItems : List Value → List Value
  | [] => []
  | value :: items => stripVolatile value :: stripVolatileItems items

end

/-! ### Field normalizers -/

def stringValue (value : Option Value) (default : String) : String :=
  match value with
  | none | some .null => default
  | some v => if R.str v = "" then default else R.str v

/-- A value that is not `None`, put through `f`. -/
def optional {α : Type} (f : Value → Option α) (value : Option Value) : Option α :=
  match value with
  | none | some .null => none
  | some v => f v

def normalizeStatus (value : Option Value) : String :=
  let raw := replaceChar '_' '-' (R.lower (strip (R.stringValue value "")))
  if canonicalStatuses.contains raw then raw else (statusAliases.lookup raw).getD "unknown"

def normalizeTurnKind (value : Option Value) : String :=
  let raw := replaceChar ' ' '_' (R.lower (strip (R.stringValue value "unknown")))
  let normalized := replaceChar '-' '_' raw
  ((turnKindAliases.lookup normalized).or (turnKindAliases.lookup raw)).getD "unknown"

def publicText (value : Option Value) (default : String) : String :=
  let text := R.sanitizePublicText (strip (R.stringValue value ""))
  if text = "" || R.containsForbiddenPublicText text || R.looksLikeRawCommand text then
    default
  else
    collapseSpaces text

def optionalPublicText : Option Value → Option String :=
  optional fun v =>
    let text := R.publicText (some v) ""
    if text = "" then none else some text

def publicIdentity (label : String) (value : Option Value) (default : String) : String :=
  let stripped := strip (R.stringValue value default)
  let raw := if stripped = "" then default else stripped
  let text := R.sanitizePublicText raw
  if text = raw && !R.containsForbiddenPublicText text then
    collapseSpaces text
  else
    label ++ "-" ++
      R.stableFingerprint (.object [("type", .text label), ("raw_id", .text raw)])

def optionalPublicIdentity (label : String) : Option Value → Option String :=
  optional fun v => some (R.publicIdentity label (some v) "unknown")

def optionalPublicFingerprint : Option Value → Option String :=
  optional fun v =>
    let raw := strip (R.stringValue (some v) "")
    let text := R.sanitizePublicText raw
    if raw = "" || R.containsForbiddenPublicText raw || text != raw ||
        R.containsForbiddenPublicText text then
      none
    else
      some text

def sanitizeCanonicalTurnText (value : Option Value) : Option String :=
  (value.bind Value.text?).map R.sanitizeTurnText

def turnStreamTextMaxChars : Nat := 4000

def publicStreamText (value : Option Value) : Option String :=
  match (value.bind Value.text?).map R.sanitizePublicText with
  | none | some "" => none
  | some text => some (suffixChars turnStreamTextMaxChars text)

def optionalTimestamp : Option Value → Option String := optional fun v => some (R.str v)

/-- `sanitize_public_mapping`: anything but a mapping counts as empty. -/
def publicMapping (value : Option Value) : Fields :=
  R.sanitizePublicMapping ((value.bind Value.object?).getD [])

def cleanMeta (value : Option Value) : Fields := R.publicMapping value

def isInternalAutomationTurnPayload (payload : Fields) : Bool :=
  let user := (payload.get? "user_text").bind Value.text?
  let resultText (key : String) :=
    ((payload.get? key).bind Value.text?).any R.looksLikeAutomationResultText
  if user.any R.looksLikeAutomationUserText then
    true
  else if user.any (fun text => strip text != "") then
    false
  else
    resultText "assistant_final_text" || resultText "assistant_stream_text"

/-! ### Source turn ids -/

def stableId (label : String) (value : Fields) : String :=
  label ++ "-" ++
    R.stableFingerprint
      (stripVolatile R (((R.sanitizePublicValue "" (.object value)).getD (.object []))))

def isTurnSourceToken (raw : String) : Bool :=
  let digits := raw.toList.drop 8
  raw.startsWith "turnsrc-" && digits.length == 24 && digits.all isLowerHexDigit

def opaqueTurnSourceId (raw : String) (publicMaterial : Fields) : String :=
  if isTurnSourceToken (strip raw) then
    strip raw
  else
    R.stableId "turnsrc" [("seed", .text (strip raw)), ("public", .object publicMaterial)]

end TextRules

/-- The stable key of a turn's owner, with version 1. -/
def turnOwnerIdentity (fields : Fields) : Option String :=
  match fields.get? "stable_key", fields.get? "stable_key_version" with
  | some (.text key), some (.int 1) =>
    if Connector.validFinalStableKey key then some key else none
  | _, _ => none

def TextRules.turnSourceIdCandidates (R : TextRules) (rawValue : Option Value) (fields : Fields)
    (source kind : Option Value) : List String :=
  match R.optionalPublicText rawValue with
  | none => []
  | some raw =>
    let normalizedKind := R.normalizeTurnKind kind
    let legacyToken := R.opaqueTurnSourceId raw
      [("source", .text (R.publicText source "snapshot")), ("kind", .text normalizedKind)]
    match turnOwnerIdentity fields with
    | none => [legacyToken]
    | some key =>
      let ownerToken := R.opaqueTurnSourceId raw [
        ("identity_domain", .text "stable-owner-source-v1"), ("stable_key", .text key),
        ("stable_key_version", .int 1), ("kind", .text normalizedKind)]
      if ownerToken = legacyToken then [ownerToken] else [ownerToken, legacyToken]

/-! ### The turn record -/

def turnSchemaVersion : Nat := 1

structure Turn where
  hostId : String
  workerId : String
  status : String
  kind : String
  source : String
  workerFingerprint : Option String
  spaceId : Option String
  title : Option String
  summary : Option String
  userText : Option String
  assistantFinalText : Option String
  assistantStreamText : Option String
  model : Option String
  complete : Option Bool
  hasOpenTurn : Option Bool
  startedAt : Option String
  updatedAt : Option String
  completedAt : Option String
  originCommandId : Option String
  sourceTurnId : Option String
  supersededByTurnId : Option String
  supersededAt : Option String
  metaFields : Fields
  id : String
  fingerprint : String

namespace Turn

variable (R : TextRules)

def contentIdentityPayload (t : Turn) : Fields :=
  [("schema_version", .int turnSchemaVersion), ("host_id", .text t.hostId),
    ("worker_id", .text t.workerId), ("space_id", .ofText? t.spaceId), ("kind", .text t.kind),
    ("source", .text t.source), ("origin_command_id", .ofText? t.originCommandId)] ++
  (match turnOwnerIdentity t.metaFields with
  | some key => [("stable_key", .text key), ("stable_key_version", .int 1)]
  | none => [("stable_key_status", .text "unavailable")]) ++
  (t.sourceTurnId.toList.map fun source => ("source_turn_id", .text source))

/-- A turn of a stable owner keeps its id when its worker is renamed. -/
def identityPayload (t : Turn) : Fields :=
  match turnOwnerIdentity t.metaFields with
  | none => t.contentIdentityPayload
  | some key =>
    [("identity_domain", .text "stable-owner-turn-v1"), ("schema_version", .int turnSchemaVersion),
      ("host_id", .text t.hostId), ("stable_key", .text key), ("stable_key_version", .int 1),
      ("kind", .text t.kind)] ++
    match t.sourceTurnId, t.originCommandId with
    | some source, _ => [("source_turn_id", .text source)]
    | none, some command => [("origin_command_id", .text command)]
    | none, none => [("owner_placeholder", .bool true)]

def contentPayload (t : Turn) : Fields :=
  t.contentIdentityPayload ++
  [("worker_fingerprint", .ofText? t.workerFingerprint), ("status", .text t.status),
    ("title", .ofText? t.title), ("summary", .ofText? t.summary),
    ("user_text", .ofText? t.userText), ("assistant_final_text", .ofText? t.assistantFinalText),
    ("assistant_stream_text", .ofText? t.assistantStreamText), ("model", .ofText? t.model),
    ("complete", .ofBool? t.complete), ("has_open_turn", .ofBool? t.hasOpenTurn),
    ("meta", .object t.metaFields)]

/-- The identity and the fingerprint are computed, never read. -/
def identify (t : Turn) : Turn :=
  { t with
    id := R.stableId "turn" t.identityPayload
    fingerprint := R.stableFingerprint (R.stripVolatile (.object t.contentPayload)) }

/-- The record from the raw values of its fields. -/
def ofFields (clean : Fields) : Turn :=
  let source := R.publicText ((clean.get? "source").or (some (.text "snapshot"))) "snapshot"
  let kind := R.normalizeTurnKind ((clean.get? "kind").or (some (.text "unknown")))
  let metaFields := R.cleanMeta (clean.get? "meta")
  identify R {
    hostId := R.stringValue (clean.get? "host_id") "unknown"
    workerId := R.publicIdentity "worker" (clean.get? "worker_id") "unknown"
    status := R.normalizeStatus ((clean.get? "status").or (some (.text "unknown")))
    kind
    source
    workerFingerprint := R.optionalPublicFingerprint (clean.get? "worker_fingerprint")
    spaceId := R.optionalPublicIdentity "space" (clean.get? "space_id")
    title := R.optionalPublicText (clean.get? "title")
    summary := R.optionalPublicText (clean.get? "summary")
    userText := R.sanitizeCanonicalTurnText (clean.get? "user_text")
    assistantFinalText := R.sanitizeCanonicalTurnText (clean.get? "assistant_final_text")
    assistantStreamText := R.publicStreamText (clean.get? "assistant_stream_text")
    model := R.optionalPublicText (clean.get? "model")
    complete := (clean.get? "complete").bind Value.bool?
    hasOpenTurn := (clean.get? "has_open_turn").bind Value.bool?
    startedAt := R.optionalTimestamp (clean.get? "started_at")
    updatedAt := R.optionalTimestamp (clean.get? "updated_at")
    completedAt := R.optionalTimestamp (clean.get? "completed_at")
    originCommandId := R.optionalPublicText (clean.get? "origin_command_id")
    sourceTurnId :=
      (R.turnSourceIdCandidates (clean.get? "source_turn_id") metaFields (some (.text source))
        (some (.text kind))).head?
    supersededByTurnId := R.optionalPublicText (clean.get? "superseded_by_turn_id")
    supersededAt := R.optionalTimestamp (clean.get? "superseded_at")
    metaFields
    id := ""
    fingerprint := "" }

def fromDict (data : Fields) : Turn := ofFields R (R.sanitizeForbiddenMapping data)

def toDict (t : Turn) : Fields := [
  ("schema_version", .int turnSchemaVersion), ("id", .text t.id), ("host_id", .text t.hostId),
  ("worker_id", .text t.workerId), ("worker_fingerprint", .ofText? t.workerFingerprint),
  ("space_id", .ofText? t.spaceId), ("status", .text t.status), ("kind", .text t.kind),
  ("title", .ofText? t.title), ("summary", .ofText? t.summary),
  ("user_text", .ofText? t.userText), ("assistant_final_text", .ofText? t.assistantFinalText),
  ("assistant_stream_text", .ofText? t.assistantStreamText), ("model", .ofText? t.model),
  ("complete", .ofBool? t.complete), ("has_open_turn", .ofBool? t.hasOpenTurn),
  ("started_at", .ofText? t.startedAt), ("updated_at", .ofText? t.updatedAt),
  ("completed_at", .ofText? t.completedAt), ("source", .text t.source),
  ("origin_command_id", .ofText? t.originCommandId), ("source_turn_id", .ofText? t.sourceTurnId),
  ("superseded_by_turn_id", .ofText? t.supersededByTurnId),
  ("superseded_at", .ofText? t.supersededAt), ("fingerprint", .text t.fingerprint),
  ("meta", .object (R.cleanMeta (some (.object t.metaFields))))]

end Turn

end Tendwire

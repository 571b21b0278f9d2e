import Tendwire.Strings.CodePoints

/-!
# Public words

The names that public fields and texts must not have, and the word tests of the public sanitizer.
What the interpreter knows about characters beyond ASCII is `Tables`.
-/

namespace Tendwire.Public

open Strings

/-- The Unicode tables of the interpreter, asked for characters beyond ASCII only. -/
structure Tables where
  lower : Text → Text
  /-- `unicodedata.normalize("NFKC", text)`. -/
  nfkc : Text → Text
  isAlnum : CodePoint → Bool
  /-- The value of a decimal digit. -/
  decimal : CodePoint → Option ℕ
  /-- `str.isdigit` of one character. -/
  isDigit : CodePoint → Bool

def isAscii (t : Text) : Bool := t.all fun c => c.val < 0x80

def isLowerLetter (c : CodePoint) : Bool := 0x61 ≤ c.val && c.val ≤ 0x7A

def isUpperLetter (c : CodePoint) : Bool := 0x41 ≤ c.val && c.val ≤ 0x5A

def isAsciiDigit (c : CodePoint) : Bool := 0x30 ≤ c.val && c.val ≤ 0x39

def isAsciiAlnum (c : CodePoint) : Bool := isLowerLetter c || isUpperLetter c || isAsciiDigit c

def asciiLower (c : CodePoint) : CodePoint := if isUpperLetter c then c + 0x20 else c

namespace Tables

variable (T : Tables)

/-- `text.lower()`. -/
def lowerText (t : Text) : Text := if isAscii t then t.map asciiLower else T.lower t

/-- NFKC changes no ASCII text. -/
def normalize (t : Text) : Text := if isAscii t then t else T.nfkc t

/-- `\w`. -/
def isWord (c : CodePoint) : Bool :=
  if c.val < 0x80 then isAsciiAlnum c || c == codePoint '_' else T.isAlnum c

/-- `\d`. -/
def isDecimal (c : CodePoint) : Bool :=
  if c.val < 0x80 then isAsciiDigit c else (T.decimal c).isSome

end Tables

/-! ### Names -/

def forbiddenFieldNames : List String :=
  ["telegram", "telegram_chat_id", "telegram_chat_ids", "telegram_id", "telegram_ids",
   "telegram_message_id", "telegram_message_ids", "telegram_thread_id", "telegram_thread_ids",
   "telegram_topic_id", "telegram_topic_ids", "chat_id", "chat_ids", "topic_id", "topic_ids",
   "message_id", "message_ids", "thread_id", "thread_ids", "token", "tokens", "bot_token",
   "bot_tokens", "auth", "auth_token", "auth_tokens", "authorization", "authorization_header",
   "authorization_headers", "bearer_token", "bearer_tokens", "cookie", "cookies", "credential",
   "credentials", "delivery", "delivery_id", "delivery_ids", "deliveries", "route", "route_id",
   "route_ids", "routes", "connector", "connector_id", "connector_ids", "connectors",
   "herdres_delivery", "backend_target", "backend_target_id", "backend_target_ids",
   "backend_targets", "terminal", "terminal_id", "terminal_ids", "terminals", "pane_id",
   "pane_ids", "tab_id", "tab_ids", "window_id", "window_ids", "tty", "pty", "pid", "pids",
   "process_id", "process_ids", "process", "tmux", "tmux_session", "tmux_session_id",
   "tmux_session_ids", "tmux_sessions", "tmux_window", "tmux_window_id", "tmux_window_ids",
   "tmux_windows", "tmux_pane", "tmux_pane_id", "tmux_pane_ids", "tmux_panes", "screen",
   "screen_session", "screen_session_id", "screen_session_ids", "screen_sessions", "screen_window",
   "screen_window_id", "screen_window_ids", "screen_windows", "agent_session", "agent_session_id",
   "agent_session_ids", "agent_sessions", "session", "session_id", "session_ids", "sessions",
   "herdr_state", "herdres_state", "target_kind", "target_value", "turn_target_kind",
   "turn_target_value", "private", "private_binding", "private_bindings", "private_fingerprint",
   "private_fingerprints", "argv", "args", "command", "command_arg", "command_args",
   "command_argv", "command_argvs", "command_line", "command_lines", "command_payload",
   "command_payloads", "command_text", "command_texts", "env", "environment", "raw_arg",
   "raw_args", "raw_argv", "raw_argvs", "raw_command", "raw_command_line", "raw_command_lines",
   "raw_payload", "raw_payloads", "raw_control", "raw_controls", "shell_command", "shell_commands",
   "terminal_control", "terminal_controls", "control_sequence", "control_sequences",
   "escape_sequence", "escape_sequences", "ansi_escape", "stdin", "stderr", "stdout", "shell",
   "secret", "secrets", "password", "passwords", "api_keys", "api_key", "tool_id", "tool_ids",
   "tool_use_id", "tool_use_ids", "tool_call_id", "tool_call_ids", "decision_id", "decision_ids",
   "pending_decision_id", "pending_decision_ids", "cwd", "workdir", "working_dir",
   "working_directory", "project_root", "repository_root", "repo_root", "path", "paths",
   "file_path", "file_paths", "filepath", "filepaths", "socket_path", "socket_paths", "url",
   "urls", "endpoint", "endpoints", "network_endpoint", "network_endpoints", "ip", "ip_address",
   "port", "headers", "output"]

def underscore : CodePoint := codePoint '_'

/-- `text.replace("_", "")`. -/
def compact (t : Text) : Text := t.filter (· ≠ underscore)

def forbiddenNames : List Text := forbiddenFieldNames.map ofString

/-- `_FORBIDDEN_FIELD_COMPACT`. -/
def forbiddenCompact : List Text := forbiddenNames.map compact

/-- `_FORBIDDEN_BACKEND_NAME_TEXT`. -/
def forbiddenBackendNames : List Text := ["private", "raw", "secret", "token"].map ofString

/-- `_PUBLIC_TEXT_ALLOWED_FIELD_WORDS`. -/
def allowedFieldWords : List Text :=
  ["connector", "connectors", "delivery", "deliveries", "herdres", "herdr", "outbox", "telegram",
    "terminal", "terminals"].map ofString

/-- `_TEXT_FORBIDDEN_FIELD_NAMES`. -/
def textForbiddenNames : List Text := forbiddenNames.filter (!allowedFieldWords.contains ·)

/-- `_PUBLIC_PHRASE_MAX_COMPACT_CHARS`. -/
def phraseMaxCompact : ℕ :=
  ((forbiddenNames ++ allowedFieldWords).map fun name => (compact name).length).foldl max 0

/-- `key.lower().replace("-", "_").replace(".", "_")`. -/
def normalizedName (T : Tables) (key : Text) : Text :=
  (T.lowerText key).map fun c => if c = codePoint '-' ∨ c = codePoint '.' then underscore else c

/-- `_is_forbidden_field_name`, which is also `_is_forbidden_request_field`. -/
def isForbiddenFieldName (T : Tables) (key : Text) : Bool :=
  forbiddenNames.contains (normalizedName T key) ||
    forbiddenCompact.contains (compact (normalizedName T key))

/-! ### Words of a text -/

/-- A space at each `(?<=[a-z0-9])(?=[A-Z])`. -/
def splitCamelCase : Text → Text
  | [] => []
  | c :: t =>
    if (isLowerLetter c || isAsciiDigit c) && t.head?.any isUpperLetter then
      c :: space :: splitCamelCase t
    else c :: splitCamelCase t

/-- `_public_text_tokens`. -/
def publicTextTokens (t : Text) : List Text :=
  (((splitCamelCase t).splitOnP (!isAsciiAlnum ·)).filter (!·.isEmpty)).map (·.map asciiLower)

/-- `"_".join(tokens)`. -/
def joinTokens (tokens : List Text) : Text := [underscore].intercalate tokens

/-- What `_is_forbidden_public_text_phrase` has read: the pieces of both spellings in reverse, the
last character, and whether a separator came last. -/
structure PhraseScan where
  normalized : List Text
  compact : List Text
  previous : Option CodePoint
  separated : Bool

/-- The loop; `none` is the early return for a phrase that is too long. -/
def scanPhrase (T : Tables) : Text → PhraseScan → Option PhraseScan
  | [], scan => some scan
  | c :: t, scan =>
    let camel := scan.previous.all (fun p => isLowerLetter p || isAsciiDigit p) && isUpperLetter c
    let lowered := T.lowerText [c]
    if camel || c == underscore || c == codePoint '.' || c == codePoint '-' || isSpace c then
      let normalized :=
        if !scan.normalized.isEmpty && !scan.separated then [underscore] :: scan.normalized
        else scan.normalized
      if camel then
        scanPhrase T t ⟨lowered :: normalized, lowered :: scan.compact, some c, false⟩
      else scanPhrase T t ⟨normalized, scan.compact, some c, true⟩
    else if phraseMaxCompact < scan.compact.length + 1 then none
    else scanPhrase T t ⟨lowered :: scan.normalized, lowered :: scan.compact, some c, false⟩

/-- `_is_forbidden_public_text_phrase`. -/
def isForbiddenPhrase (T : Tables) (phrase : Text) : Bool :=
  match scanPhrase T phrase ⟨[], [], none, true⟩ with
  | none => false
  | some scan =>
    let pieces :=
      if scan.normalized.head? = some [underscore] then scan.normalized.tail else scan.normalized
    let normalized := pieces.reverse.flatten
    let compacted := scan.compact.reverse.flatten
    if allowedFieldWords.contains normalized || (allowedFieldWords.map compact).contains compacted
    then false
    else forbiddenNames.contains normalized || forbiddenCompact.contains compacted

/-- The phrases of one to four tokens. -/
def phrases : List Text → List Text
  | [] => []
  | token :: tokens =>
    (List.range (min 4 (tokens.length + 1))).map
      (fun n => joinTokens ((token :: tokens).take (n + 1))) ++ phrases tokens

/-- `_contains_forbidden_public_text`. -/
def containsForbiddenText (T : Tables) (t : Text) : Bool :=
  let tokens := publicTextTokens t
  if tokens.any fun token => forbiddenBackendNames.contains token && token != ofString "raw" then
    true
  else if (phrases tokens).any fun phrase =>
      phrase != ofString "command" && isForbiddenPhrase T phrase then true
  else tokens.any fun token => textForbiddenNames.contains token && token != ofString "command"

/-! ### Keys of mappings -/

/-- `_PUBLIC_ALLOWED_MAPPING_KEYS`. -/
def allowedMappingKeys : List Text :=
  ["action_id", "active_tab_id", "attention_id", "choice_id", "content_fingerprint",
    "delivery_state", "fingerprint", "host_id", "id", "max_outbox_attempts", "origin_command_id",
    "outbox_ack_ttl_seconds", "outbox_claim_ttl_seconds", "outbox_max_claim_ttl_seconds",
    "output_excerpt_chars", "raw_status", "request_id", "row_id", "segment_id", "source_turn_id",
    "space_id", "submission_verdict", "submission_id", "transport_state", "turn_id",
    "worker_fingerprint", "worker_id"].map ofString

/-- `_is_public_structural_mapping_key`. -/
def isStructuralKey (key : Text) : Bool :=
  (["id", "ids", "fingerprint", "fingerprints"].map ofString).contains key ||
    (["_id", "_ids", "_fingerprint", "_fingerprints"].map ofString).any (·.isSuffixOf key)

def sensitiveKeyTokens : List Text :=
  forbiddenBackendNames ++ ["connector", "delivery", "herdres", "outbox", "private", "raw", "route",
    "telegram", "provider", "transport"].map ofString

/-- `_is_forbidden_public_mapping_key`. -/
def isForbiddenMappingKey (T : Tables) (key : Text) : Bool :=
  let tokens := publicTextTokens key
  let normalized := joinTokens tokens
  if tokens = [] then false
  else if key = normalized ∧ allowedMappingKeys.contains normalized then false
  else if isStructuralKey normalized then true
  else if containsForbiddenText T key then true
  else tokens.any sensitiveKeyTokens.contains

end Tendwire.Public

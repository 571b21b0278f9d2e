import Tendwire.Public.Patterns
import Tendwire.Python.Json

/-!
# The public sanitizer

Redaction of private text, and the recursive sanitizer of public values.
-/

namespace Tendwire.Public

open Strings Regex Python

variable (T : Tables)

/-! ### Texts -/

def redactedMark : Text := ofString "[redacted]"

def truncatedMark : Text := ofString "\n[truncated]"

/-- `_PUBLIC_ZERO_WIDTH_RE`. -/
def isZeroWidth (c : CodePoint) : Bool :=
  (0x200B ≤ c.val && c.val ≤ 0x200F) || (0x202A ≤ c.val && c.val ≤ 0x202E) ||
    (0x2060 ≤ c.val && c.val ≤ 0x2064) || c.val == 0xFEFF

def redact (t : Text) : Text := sub T.test sensitiveText redactedMark t

/-- `_redact_and_truncate_public_text`. -/
def redactAndTruncate (maxChars : Option ℕ) (t : Text) : Text :=
  match maxChars with
  | none => redact T t
  | some limit =>
    if t = [] ∨ limit = 0 then []
    else if t.length ≤ limit then redact T t
    else if limit ≤ truncatedMark.length then truncatedMark.take limit
    else
      let prefixLimit := limit - truncatedMark.length
      let visible := t.take prefixLimit
      let redacted :=
        match search T.test sensitiveCrossing visible with
        | none => redact T visible
        | some cut => redact T (visible.take cut) ++ redactedMark
      (redacted.take prefixLimit).rdropWhile isSpace ++ truncatedMark

/-- `sanitize_public_text` with `strip_outer`; the cache only keeps results. -/
def sanitizePublicText (maxChars : Option ℕ) (t : Text) : Text :=
  strip (redactAndTruncate T maxChars
    (((T.normalize t).filter (· ≠ 0)).filter (!isZeroWidth ·)))

/-- `_PUBLIC_VALUE_TEXT_MAX_CHARS`. -/
def valueTextMaxChars : ℕ := 12000

def sanitizeValueText (t : Text) : Text := sanitizePublicText T (some valueTextMaxChars) t

/-- `sub in text`. -/
def hasText (sub t : Text) : Bool := t.tails.any fun rest => sub.isPrefixOf rest

/-- `_looks_like_raw_command`. -/
def looksLikeRawCommand (t : Text) : Bool :=
  let text := strip t
  let first := (words text).headD []
  if text = [] then false
  else if text.any (fun c => c.val < 0x20 || (0x80 ≤ c.val && c.val ≤ 0x9F)) then true
  else if (search T.test shellMeta text).isSome then true
  else if (search T.test rawCommandHead text).isSome then true
  else if (search T.test rawCommandOption text).isSome then true
  else (first.contains (codePoint '/') ||
    ([".bat", ".cmd", ".exe", ".py", ".sh"].map ofString).any (·.isSuffixOf first)) &&
      text.contains space

/-! ### Values -/

/-- A value as the interpreter may pass it in. The keys of a dictionary are the texts of its keys,
and a time is its UTC text. -/
inductive Object (F : Type) where
  | none
  | bool (b : Bool)
  | int (n : ShortInt)
  | float (x : Float F)
  | str (t : Text)
  | list (items : List (Object F))
  | tuple (items : List (Object F))
  | set (items : List (Object F))
  | dict (entries : List (Text × Object F))
  | time (text : Text)
  | other

variable {F : Type}

mutual

def Object.ofJson : Json F → Object F
  | .null => .none
  | .bool b => .bool b
  | .int n => .int n
  | .float x => .float x
  | .str t => .str t
  | .list items => .list (ofJsonItems items)
  | .dict entries => .dict (ofJsonEntries entries)

def Object.ofJsonItems : List (Json F) → List (Object F)
  | [] => []
  | item :: items => ofJson item :: ofJsonItems items

def Object.ofJsonEntries : List (Text × Json F) → List (Text × Object F)
  | [] => []
  | (key, v) :: entries => (key, ofJson v) :: ofJsonEntries entries

end

/-- `_PUBLIC_SUBMISSION_VERDICTS`. -/
def submissionVerdicts : List Text :=
  ["submitted", "written_to_pty", "agent_not_ready", "agent_target_ambiguous",
    "agent_prompt_not_received", "agent_prompt_unsubmitted", "agent_input_pending",
    "agent_prompt_stalled", "unknown"].map ofString

/-- `_PUBLIC_FREE_TEXT_KEYS`. -/
def freeTextKeys : List Text :=
  ["assistant_final_text", "assistant_stream_text", "description", "detail", "fields", "label",
    "message", "name", "prompt", "question", "raw_status", "reason", "status_line", "request_id",
    "summary", "title", "user_text"].map ofString

/-- `str(_field).strip().lower().replace("-", "_")`. -/
def normalizedField (field : Text) : Text :=
  (T.lowerText (strip field)).map fun c => if c = codePoint '-' then underscore else c

/-- The string branch of `sanitize_public_value`; `none` is `_PUBLIC_DROP`. -/
def sanitizeString (field value : Text) : Option Text :=
  let text := sanitizeValueText T value
  if allowedMappingKeys.contains field && isStructuralKey field then
    if hasText redactedMark text || looksLikeRawCommand T text then none else some text
  else if freeTextKeys.contains (normalizedField T field) then some text
  else if hasText redactedMark text then none
  else if fullMatch T.test opaqueId text then some text
  else if containsForbiddenText T text || looksLikeRawCommand T text then none
  else some text

def keepsKey (key : Text) (structuredOutbox : Bool) : Bool :=
  sanitizeValueText T key == key &&
    (structuredOutbox || !(isForbiddenFieldName T key || isForbiddenMappingKey T key))

def isTelegramChatId (n : ShortInt) : Bool := fullMatch T.test telegramChatId (intText n)

/-- `key_text == "outbox" and isinstance(item, Mapping)`. -/
def isStructuredOutbox (key : Text) : Object F → Bool
  | .dict _ => key == ofString "outbox"
  | _ => false

def composerState : Text := ofString "composer_state"

def submissionVerdict : Text := ofString "submission_verdict"

/-- The branches for values that are neither strings nor containers. -/
def sanitizeScalar : Object F → Option (Json F)
  | .none => some .null
  | .bool b => some (.bool b)
  | .int n => if isTelegramChatId T n then none else some (.int n)
  | .float x => some (.float x)
  | .time text => some (.str text)
  | _ => none

section

variable [FloatText F]

/-- `sorted(items, key=stable_json_dumps)`, where the key drops forbidden names first. -/
def sortSet (key : Json F → Text) (items : List (Json F)) : List (Json F) :=
  items.insertionSort fun a b => key a ≤ key b

mutual

/-- `sanitize_forbidden_fields` of a JSON value. -/
def sanitizeForbiddenFields : Json F → Json F
  | .list items => .list (sanitizeForbiddenItems items)
  | .dict entries => .dict (sanitizeForbiddenEntries entries)
  | v => v

def sanitizeForbiddenItems : List (Json F) → List (Json F)
  | [] => []
  | item :: items => sanitizeForbiddenFields item :: sanitizeForbiddenItems items

def sanitizeForbiddenEntries : List (Text × Json F) → List (Text × Json F)
  | [] => []
  | (key, v) :: entries =>
    if isForbiddenFieldName T key then sanitizeForbiddenEntries entries
    else (key, sanitizeForbiddenFields v) :: sanitizeForbiddenEntries entries

end

/-- `stable_json_dumps`. -/
def stableJsonDumps (v : Json F) : Text := dumps (sanitizeForbiddenFields T v)

mutual

/-- `sanitize_public_value` of a nested value; `none` is `_PUBLIC_DROP`. -/
def sanitizeValue (field : Text) (value : Object F) : Option (Json F) :=
  if normalizedField T field = composerState then none
  else if normalizedField T field = submissionVerdict then
    match value with
    | .str t =>
      if submissionVerdicts.contains (sanitizeValueText T t) then some (.str (sanitizeValueText T t))
      else none
    | _ => none
  else
    match value with
    | .dict entries => some (.dict (sanitizeEntries [] entries))
    | .list items => some (.list (sanitizeItems field items))
    | .tuple items => some (.list (sanitizeItems field items))
    | .set items => some (.list (sortSet (stableJsonDumps T) (sanitizeItems field items)))
    | .str t => (sanitizeString T field t).map .str
    | v => sanitizeScalar T v

def sanitizeItems (field : Text) : List (Object F) → List (Json F)
  | [] => []
  | item :: items =>
    match sanitizeValue field item with
    | some v => v :: sanitizeItems field items
    | none => sanitizeItems field items

/-- The loop over the entries, with the result so far. -/
def sanitizeEntries (result : Entries F) : List (Text × Object F) → Entries F
  | [] => result
  | (key, item) :: entries =>
    if keepsKey T key (isStructuredOutbox key item) then
      match sanitizeValue key item with
      | some v => sanitizeEntries (result.set key v) entries
      | none => sanitizeEntries result entries
    else sanitizeEntries result entries

end

/-- `sanitize_public_mapping` of a mapping. -/
def sanitizePublicMapping (entries : List (Text × Object F)) : Entries F := sanitizeEntries T [] entries

end

end Tendwire.Public

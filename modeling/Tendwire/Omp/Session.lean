import Tendwire.Codex.Rollout

/-!
# The session reader

A session is a file of JSON lines that only grows. A poll reads the lines behind its checkpoint,
or again from where the open turn was found, and publishes the turn of the last prompt among them.
-/

namespace Tendwire

open Json

/-- Decoding, the tests of texts and the progress lines of tool calls. -/
structure OmpRules where
  texts : CodexRules
  /-- `json.loads(line.decode("utf-8", "replace"))`, without a result where it raises. -/
  decode : List UInt8 → Option Value
  /-- `_omp_tool_snippet`, with the project of the session. -/
  toolSnippet : Fields → Nat → String

structure OmpTurnState where
  promptId : String
  userText : String
  streamParts : List String
  finalText : String
  toolCount : Nat
deriving DecidableEq, Repr

structure OmpSessionState where
  offset : Nat
  observedSize : Nat
  replayOffset : Nat
  turnOpen : Bool
deriving DecidableEq, Repr

def ompTailBytes : Nat := 786432

/-! ### Lines -/

def isLineEnd (b : UInt8) : Bool := b == 10 || b == 13

/-- `blob.splitlines(keepends=True)`, with the bytes of the unfinished line. -/
def splitLinesKeepEnds (buffer : List UInt8) : List UInt8 → List (List UInt8)
  | [] => if buffer = [] then [] else [buffer]
  | 13 :: 10 :: rest => (buffer ++ [13, 10]) :: splitLinesKeepEnds [] rest
  | b :: rest =>
    if isLineEnd b then (buffer ++ [b]) :: splitLinesKeepEnds [] rest
    else splitLinesKeepEnds (buffer ++ [b]) rest

/-- `segment.rstrip(b"\r\n")`. -/
def stripLineEnd (segment : List UInt8) : List UInt8 :=
  (segment.reverse.dropWhile isLineEnd).reverse

section Reader

variable (R : OmpRules)

/-- The lines of some segments and the offset behind them. An unfinished last line that is no JSON
is left for the next poll. -/
def ompTakeSegments : List (List UInt8) → Nat → List (List UInt8) × Nat
  | [], offset => ([], offset)
  | segment :: rest, offset =>
    let line := stripLineEnd segment
    if line = [] then ompTakeSegments rest (offset + segment.length)
    else if (!segment.getLast?.any isLineEnd) && rest.isEmpty && (R.decode line).isNone then
      ([], offset)
    else
      let taken := ompTakeSegments rest (offset + segment.length)
      (line :: taken.1, taken.2)

/-- `_read_omp_jsonl_lines`, over the bytes that the file has now. -/
def readOmpJsonlLines (file : List UInt8) (startOffset : Nat) (dropFirstPartial : Bool) :
    List (List UInt8) × Nat :=
  let segments := splitLinesKeepEnds [] (file.drop startOffset)
  if dropFirstPartial then
    ompTakeSegments R segments.tail (startOffset + (segments.head?.getD []).length)
  else ompTakeSegments R segments startOffset

/-! ### Messages -/

def ompMessageEntryFromLine (line : List UInt8) : Option (Fields × Fields) :=
  ((R.decode line).bind Value.object?).bind fun entry =>
    if (entry.get? "type").bind Value.text? = some "message" then
      ((entry.get? "message").bind Value.object?).map fun message => (entry, message)
    else none

def isOmpUserMessage (message : Fields) : Bool :=
  textOrEmpty R.texts (message.get? "role") == "user" &&
    textOrEmpty R.texts (message.get? "attribution") == "user"

def ompMessageText (message : Fields) : String :=
  match message.get? "content" with
  | some (.text s) => s
  | some (.array items) =>
    "\n".intercalate (items.filterMap fun item => item.object?.bind fun m =>
      if (m.get? "type").bind Value.text? = some "text" ∧
          strip (textOrEmpty R.texts (m.get? "text")) ≠ "" then
        some (textOrEmpty R.texts (m.get? "text"))
      else none)
  | _ => ""

/-- The characters that end a line of `str.splitlines`. -/
def isTextLineEnd (c : Char) : Bool :=
  (0x0A ≤ c.toNat && c.toNat ≤ 0x0D) || (0x1C ≤ c.toNat && c.toNat ≤ 0x1E) || c.toNat == 0x85 ||
    c.toNat == 0x2028 || c.toNat == 0x2029

/-- `text.strip("*")`. -/
def stripStars (text : String) : String :=
  String.ofList ((text.toList.dropWhile (· == '*')).reverse.dropWhile (· == '*')).reverse

/-- `_omp_thinking_snippet` of one block. -/
def ompThinkingSnippet (item : Fields) : String :=
  let text := strip (textOrEmpty R.texts (item.get? "thinking"))
  if text = "" then ""
  else
    let first := strip (String.ofList (text.toList.takeWhile fun c => !isTextLineEnd c))
    if ['*', '*'].isPrefixOf first.toList ∧ ['*', '*'].isSuffixOf first.toList ∧
        4 < first.toList.length then
      strip (stripStars first)
    else prefixChars 120 first

/-- `_append_unique_recent`. -/
def appendUniqueRecent (items : List String) (text : String) : List String :=
  let clean := strip text
  if clean = "" then items
  else
    let items := items.erase clean ++ [clean]
    items.drop (items.length - maxCodexStreamMessages)

def applyOmpProgressItem (state : OmpTurnState) (item : Value) : OmpTurnState :=
  match item.object? with
  | none => state
  | some fields =>
    let kind := textOrEmpty R.texts (fields.get? "type")
    if kind = "thinking" then
      { state with
        streamParts := appendUniqueRecent state.streamParts (ompThinkingSnippet R fields) }
    else if kind = "toolCall" then
      { state with
        toolCount := state.toolCount + 1
        streamParts :=
          appendUniqueRecent state.streamParts (R.toolSnippet fields (state.toolCount + 1)) }
    else state

/-- `_apply_omp_progress_message`. -/
def applyOmpProgressMessage (state : OmpTurnState) (message : Fields) : OmpTurnState :=
  let state :=
    { state with streamParts := appendUniqueRecent state.streamParts (ompMessageText R message) }
  match message.get? "content" with
  | some (.array items) => items.foldl (applyOmpProgressItem R) state
  | _ => state

/-- A line of `_apply_omp_lines_to_state`. -/
def applyOmpLine (state : OmpTurnState) (line : List UInt8) : OmpTurnState :=
  match ompMessageEntryFromLine R line with
  | none => state
  | some (entry, message) =>
    let role := textOrEmpty R.texts (message.get? "role")
    let text := ompMessageText R message
    if role = "user" then
      if !isOmpUserMessage R message || text == "" || isInternalUserText R.texts text then state
      else
        { promptId := textOrEmpty R.texts (entry.get? "id")
          userText := text
          streamParts := []
          finalText := ""
          toolCount := 0 }
    else if role ≠ "assistant" ∨ state.promptId = "" then state
    else if state.finalText ≠ "" then state
    else if textOrEmpty R.texts (message.get? "stopReason") = "stop" ∧ text ≠ "" then
      { state with
        finalText := text
        streamParts := [] }
    else applyOmpProgressMessage R state message

def emptyTurnState : OmpTurnState := ⟨"", "", [], "", 0⟩

def applyOmpLinesToState (state : OmpTurnState) (lines : List (List UInt8)) : OmpTurnState :=
  lines.foldl (applyOmpLine R) state

def ompNonempty (text : String) : Option String := if text = "" then none else some text

/-- The content of a turn, whether or not it is internal. -/
def OmpTurnState.shown (state : OmpTurnState) : CodexContent where
  userText := ompNonempty state.userText
  assistantStreamText :=
    if state.finalText ≠ "" then none else ompNonempty ("\n\n".intercalate state.streamParts)
  assistantFinalText := ompNonempty state.finalText
  complete := state.finalText != ""
  hasOpenTurn := state.finalText == ""
  sourceTurnId := prefixChars 160 state.promptId

/-- `_omp_state_to_content`. -/
def ompStateToContent (state : OmpTurnState) : Option CodexContent :=
  if state.promptId = "" then none
  else if isInternalTurnContent R.texts state.shown then none
  else if state.shown.userText.isNone && state.shown.assistantStreamText.isNone &&
      state.shown.assistantFinalText.isNone then
    none
  else some state.shown

/-! ### Polls -/

/-- Whether a line is a prompt of the user. -/
def isOmpPrompt (line : List UInt8) : Bool :=
  (ompMessageEntryFromLine R line).any fun parsed =>
    isOmpUserMessage R parsed.2 && ompMessageText R parsed.2 != "" &&
      !isInternalUserText R.texts (ompMessageText R parsed.2)

/-- The lines from the last prompt on, `lines[_last_omp_user_line_index(lines):]`. -/
def fromLastOmpUserLine : List (List UInt8) → Option (List (List UInt8))
  | [] => none
  | line :: rest =>
    match fromLastOmpUserLine rest with
    | some selected => some selected
    | none => if isOmpPrompt R line then some (line :: rest) else none

/-- The loop of `_read_omp_state_from_recent`, which doubles its window. A window is not empty. -/
def readOmpRecent (file : List UInt8) (window : Nat) :
    OmpTurnState × Nat × Nat :=
  let start := file.length - window
  let read := readOmpJsonlLines R file start (decide (0 < start))
  match fromLastOmpUserLine R read.1 with
  | some selected => (applyOmpLinesToState R emptyTurnState selected, read.2, start)
  | none =>
    if start = 0 ∨ window = 0 then (applyOmpLinesToState R emptyTurnState read.1, read.2, 0)
    else readOmpRecent file (min file.length (window * 2))
termination_by file.length - window

def readOmpStateFromRecent (file : List UInt8) : OmpTurnState × Nat × Nat :=
  if file = [] then (emptyTurnState, 0, 0)
  else readOmpRecent R file (min file.length ompTailBytes)

/-- `_read_omp_session_turn_with_state`, over the bytes that the file has now. -/
def readOmpSessionTurn (file : List UInt8) (prior : Option OmpSessionState) :
    Option CodexContent × OmpSessionState :=
  let read := match prior with
    | some prior =>
      let startOffset := if prior.turnOpen then prior.replayOffset else prior.offset
      let lines := readOmpJsonlLines R file startOffset false
      (applyOmpLinesToState R emptyTurnState lines.1, lines.2, startOffset)
    | none => readOmpStateFromRecent R file
  let content := ompStateToContent R read.1
  let turnOpen := content.any fun content => content.hasOpenTurn
  (content,
    { offset := read.2.1
      observedSize := max file.length read.2.1
      replayOffset := if turnOpen then read.2.2 else read.2.1
      turnOpen := turnOpen })

end Reader

end Tendwire

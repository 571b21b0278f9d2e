import Mathlib.Algebra.Group.Nat.Defs
import Mathlib.Data.List.Infix
import Mathlib.Logic.Function.Basic
import Tendwire.Transition.Fallible
import Tendwire.Transition.Schedule

/-!
# Turn completions

A watermark says up to which turn the completions of a pane are accounted for. The event thread
replays all panes in one pass, with the watermarks read at its beginning, and processes live
completions between two passes; what arrives during a pass waits in the socket client. A pass and
a batch may be cut short anywhere.
-/

namespace Tendwire

open Transition Fallible

/-- The columns that say what a watermark accounts for, and the evidence of the last break. -/
structure HerdrTurnWatermark where
  turnEpoch : ℕ
  lastTurn : ℕ
  completenessBreakCount : ℕ
  lastCompletenessBreakReason : Option String
  lastCompletenessBreakAt : Option String
  updatedAt : String
deriving DecidableEq, Repr

inductive HerdrTurnOutcome where
  | completed
  | aborted
deriving DecidableEq, Repr

structure HerdrTurnCompletionRecord where
  paneId : String
  turn : ℕ
  turnEpoch : ℕ
  outcome : HerdrTurnOutcome
  completedUnixMs : ℕ
  message : Option String
  messageTruncated : Bool
  agentSessionPath : Option String
deriving DecidableEq, Repr

/-- A row of `herdr_turn_completions`, keyed by pane, epoch and turn. -/
structure HerdrTurnCompletion where
  outcome : HerdrTurnOutcome
  completedUnixMs : ℕ
  message : Option String
  messageTruncated : Bool
  agentSessionPath : Option String
  workerId : Option String
  refreshedTurnId : Option String
  observedAt : String
deriving DecidableEq, Repr

/-- The two tables for one host. -/
structure CompletionStore where
  watermarks : String → Option HerdrTurnWatermark
  completions : String × ℕ × ℕ → Option HerdrTurnCompletion

inductive CompletionError where
  | valueError (message : String)
  | epochChanged
  /-- Anything that a client or the completion processor raises. -/
  | raised
deriving DecidableEq, Repr

abbrev CompletionProgram (α : Type) := Fallible CompletionStore CompletionError α

/-- `_SQLITE_MAX_INTEGER`. -/
def herdrTurnCounterMax : ℕ := 2 ^ 63 - 1

def herdrTurnCounter (value : ℕ) (field : String) : CompletionProgram Unit :=
  if value ≤ herdrTurnCounterMax then pure ()
  else raise (.valueError (field ++ " must be a nonnegative SQLite integer"))

def getHerdrTurnWatermark (paneId : String) : CompletionProgram (Option HerdrTurnWatermark) :=
  Fallible.read fun s => s.watermarks paneId

/-- `INSERT ... ON CONFLICT DO UPDATE`, by what becomes of the row that is there. -/
def upsertWatermark (paneId : String)
    (row : Option HerdrTurnWatermark → HerdrTurnWatermark) : CompletionProgram Unit :=
  update fun s =>
    { s with watermarks := Function.update s.watermarks paneId (some (row (s.watermarks paneId))) }

def setHerdrTurnWatermark (paneId : String) (turnEpoch lastTurn : ℕ) (now : String) :
    CompletionProgram Unit := do
  herdrTurnCounter turnEpoch "turn_epoch"
  herdrTurnCounter lastTurn "last_turn"
  upsertWatermark paneId fun
    | none => ⟨turnEpoch, lastTurn, 0, none, none, now⟩
    | some old => { old with turnEpoch := turnEpoch, lastTurn := lastTurn, updatedAt := now }

def recordHerdrTurnCompletenessBreak (paneId : String) (turnEpoch newestTurn : ℕ)
    (reason now : String) : CompletionProgram Unit := do
  herdrTurnCounter turnEpoch "turn_epoch"
  herdrTurnCounter newestTurn "newest_turn"
  upsertWatermark paneId fun old =>
    ⟨turnEpoch, newestTurn, (old.elim 0 HerdrTurnWatermark.completenessBreakCount) + 1,
      some reason, some now, now⟩

/-- The row of a completion. What an earlier row says of the worker and of the refreshed turn is
kept where the new one says nothing. -/
def completionRow (record : HerdrTurnCompletionRecord) (workerId refreshedTurnId : Option String)
    (now : String) (old : Option HerdrTurnCompletion) : HerdrTurnCompletion :=
  { outcome := record.outcome
    completedUnixMs := record.completedUnixMs
    message := record.message
    messageTruncated := record.messageTruncated
    agentSessionPath := record.agentSessionPath
    workerId := workerId.or (old.bind HerdrTurnCompletion.workerId)
    refreshedTurnId := refreshedTurnId.or (old.bind HerdrTurnCompletion.refreshedTurnId)
    observedAt := now }

/-- The transaction of `record_herdr_turn_completion`. -/
def storeCompletion (record : HerdrTurnCompletionRecord) (workerId refreshedTurnId : Option String)
    (now : String) : CompletionProgram Unit :=
  update fun s =>
    let key := (record.paneId, record.turnEpoch, record.turn)
    let row := completionRow record workerId refreshedTurnId now (s.completions key)
    let watermark : HerdrTurnWatermark := match s.watermarks record.paneId with
      | none => ⟨record.turnEpoch, record.turn, 0, none, none, now⟩
      | some old => { old with lastTurn := max old.lastTurn record.turn, updatedAt := now }
    { watermarks := Function.update s.watermarks record.paneId (some watermark)
      completions := Function.update s.completions key (some row) }

def recordHerdrTurnCompletion (record : HerdrTurnCompletionRecord)
    (workerId refreshedTurnId : Option String) (now : String) : CompletionProgram Unit := do
  herdrTurnCounter record.turnEpoch "turn_epoch"
  herdrTurnCounter record.turn "turn"
  herdrTurnCounter record.completedUnixMs "completed_unix_ms"
  if record.message.any fun message => 8 * 1024 < message.utf8ByteSize then
    raise (.valueError "message must not exceed 8 KiB")
  else
    let existing ← getHerdrTurnWatermark record.paneId
    if existing.any fun old => old.turnEpoch != record.turnEpoch then raise .epochChanged
    else storeCompletion record workerId refreshedTurnId now

/-! ### The event backend -/

/-- What `_pane_turns_replay` accepts. -/
structure HerdrPaneTurnsReplay where
  paneId : String
  turnEpoch : ℕ
  records : List HerdrTurnCompletionRecord
  truncated : Bool
  samePane : ∀ record ∈ records, record.paneId = paneId
  sameEpoch : ∀ record ∈ records, record.turnEpoch = turnEpoch
  ordered : records.Pairwise fun a b => a.turn < b.turn

def HerdrPaneTurnsReplay.newestTurn (replay : HerdrPaneTurnsReplay) : ℕ :=
  (replay.records.map HerdrTurnCompletionRecord.turn).foldr max 0

/-- The replay of one live record. -/
def HerdrTurnCompletionRecord.replay (record : HerdrTurnCompletionRecord) : HerdrPaneTurnsReplay :=
  ⟨record.paneId, record.turnEpoch, [record], false, by simp, by simp, by simp⟩

def recordCompletenessBreak (replay : HerdrPaneTurnsReplay) (reason now : String) :
    CompletionProgram Unit :=
  recordHerdrTurnCompletenessBreak replay.paneId replay.turnEpoch replay.newestTurn reason now

/-- What the completion processor answers: a status, the worker and the refreshed turn. -/
structure ProcessorResult where
  status : String
  workerId : Option String
  refreshedTurnId : Option String
deriving DecidableEq, Repr

/-- `_COMPLETED_TURN_REFRESH_STATUSES`. -/
def completedTurnRefreshStatuses : List String := ["updated", "unchanged", "missing"]

/-- A clock, and the completion processor, which may raise. -/
structure CompletionConditions where
  now : String
  processor : HerdrTurnCompletionRecord → Option ProcessorResult

variable (env : CompletionConditions)

/-- The refresh of the turn and the completion. A refresh that fails is noted and does not hold the
completion back. -/
def completeTurnRecord (record : HerdrTurnCompletionRecord) : CompletionProgram Unit :=
  match env.processor record with
  | none => raise .raised
  | some result =>
    recordHerdrTurnCompletion record result.workerId
      (if result.status ∈ completedTurnRefreshStatuses then result.refreshedTurnId else none)
      env.now

def processTurnRecord (record : HerdrTurnCompletionRecord) : CompletionProgram Unit := do
  let watermark ← getHerdrTurnWatermark record.paneId
  match watermark with
  | none => recordCompletenessBreak record.replay "live_without_baseline" env.now
  | some watermark =>
    if watermark.turnEpoch ≠ record.turnEpoch then
      recordCompletenessBreak record.replay "turn_epoch_mismatch" env.now
    else if record.turn ≤ watermark.lastTurn then pure ()
    else if record.turn ≠ watermark.lastTurn + 1 then
      recordCompletenessBreak record.replay "live_gap" env.now
    else completeTurnRecord env record

def processTurnRecords : List HerdrTurnCompletionRecord → CompletionProgram Unit
  | [] => pure ()
  | record :: records => do
    processTurnRecord env record
    processTurnRecords records

/-- `_consume_replay`, with the watermark that the pass has read. -/
def consumeReplay (replay : HerdrPaneTurnsReplay) (watermark : Option HerdrTurnWatermark) :
    CompletionProgram Unit :=
  match watermark with
  | none => setHerdrTurnWatermark replay.paneId replay.turnEpoch replay.newestTurn env.now
  | some watermark =>
    if replay.turnEpoch ≠ watermark.turnEpoch then
      recordCompletenessBreak replay "turn_epoch_mismatch" env.now
    else if replay.truncated then recordCompletenessBreak replay "replay_truncated" env.now
    else if replay.records.map HerdrTurnCompletionRecord.turn ≠
        List.range' (watermark.lastTurn + 1) replay.records.length then
      recordCompletenessBreak replay "replay_gap" env.now
    else processTurnRecords env replay.records

/-- What a `pane.turns` call comes to: a replay of this pane, an error response, a method that is
not there, or anything else that is raised. -/
inductive PaneTurnsReply (paneId : String) where
  | replay (replay : HerdrPaneTurnsReplay) (asked : replay.paneId = paneId)
  | errorResponse (code message : String)
  | methodUnavailable
  | raised

/-- The second call after an error: its replay starts the pane over. -/
def breakAndRebaseline {paneId : String} (reason : String) :
    PaneTurnsReply paneId → CompletionProgram Unit
  | .replay replay _ => recordCompletenessBreak replay reason env.now
  | .errorResponse _ _ | .methodUnavailable => pure ()
  | .raised => raise .raised

def consumePaneReplay {paneId : String} (watermark : Option HerdrTurnWatermark)
    (first again : PaneTurnsReply paneId) : CompletionProgram Unit :=
  match first with
  | .replay replay _ => consumeReplay env replay watermark
  | .errorResponse code message =>
    if code = "turn_epoch_mismatch" then breakAndRebaseline env "turn_epoch_mismatch" again
    else if code = "invalid_params" ∧ "newer than current turn".toList <:+: message.toList then
      breakAndRebaseline env "watermark_ahead" again
    else pure ()
  | .methodUnavailable => pure ()
  | .raised => raise .raised

/-! ### The event thread -/

/-- The store, and the panes that the pass under way has not come to. -/
structure CompletionState where
  store : CompletionStore
  replaying : List (String × Option HerdrTurnWatermark)

inductive CompletionEvent where
  /-- `_replay_turns_after_reconcile` reads the watermarks of the subscribed panes. -/
  | beginReplay (subscriptionPaneIds : List String)
  /-- The pass comes to the next pane. -/
  | replayPane (first again : (paneId : String) → PaneTurnsReply paneId)
  /-- A live completion, between two passes. -/
  | live (record : HerdrTurnCompletionRecord)
  /-- The pass is given up: the turn API is not supported, something raised, or a crash. -/
  | interrupt

def completionStep (w : CompletionState) (call : CompletionEvent × CompletionConditions) :
    CompletionState × Option CompletionError :=
  match call.1, w.replaying with
  | .beginReplay subscriptionPaneIds, [] =>
    ({ w with replaying := subscriptionPaneIds.eraseDups.map fun paneId =>
        (paneId, w.store.watermarks paneId) }, none)
  | .replayPane first again, (paneId, watermark) :: rest =>
    match consumePaneReplay call.2 watermark (first paneId) (again paneId) w.store with
    | (.ok _, store) => (⟨store, rest⟩, none)
    | (.error e, store) => (⟨store, []⟩, some e)
  | .live record, [] =>
    match processTurnRecord call.2 record w.store with
    | (.ok _, store) => (⟨store, []⟩, none)
    | (.error e, store) => (⟨store, []⟩, some e)
  | .interrupt, _ => ({ w with replaying := [] }, none)
  | _, _ => (w, none)

def completionMachine : Machine CompletionState (CompletionEvent × CompletionConditions)
    (Option CompletionError) := ⟨completionStep⟩

end Tendwire

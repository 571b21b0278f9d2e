import Mathlib.Logic.Function.Basic
import Tendwire.Relational.Table
import Tendwire.Transition.Schedule

/-!
# The turn change journal

One journal of turn changes for all hosts, a floor for each host that compaction has cut, and
the position at which a turn.delta request starts. Instants are in milliseconds.
-/

namespace Tendwire

open Relational

inductive ChangeOp where
  | upsert
  | remove
deriving DecidableEq, Repr

/-- A row of `turn_change_journal`; its `seq` is the row id. An instant that does not parse
is `none`. -/
structure TurnChange where
  hostId : String
  turnId : String
  op : ChangeOp
  changedAt : Option Int
deriving DecidableEq, Repr

/-- `turn_change_floor` has one row for each host that was compacted. -/
structure JournalStore where
  journal : Table TurnChange
  floorSeq : String → Option Nat
  storeEpoch : String

namespace JournalStore

def fresh (storeEpoch : String) : JournalStore := ⟨Table.empty, fun _ => none, storeEpoch⟩

/-- The journal rows of one host in sequence order. -/
def hostRows (s : JournalStore) (hostId : String) : List (Nat × TurnChange) :=
  s.journal.select (fun _ r => r.hostId == hostId)

/-- `COALESCE(MAX(seq), 0)` over the stored rows of the host. -/
def journalHigh (s : JournalStore) (hostId : String) : Nat :=
  ((s.journal.newest? (fun _ r => r.hostId == hostId)).map Prod.fst).getD 0

def floor (s : JournalStore) (hostId : String) : Nat := (s.floorSeq hostId).getD 0

/-- The triggers of one committed transaction, in the order they fired. -/
def record (s : JournalStore) (changes : List TurnChange) : JournalStore :=
  { s with journal := changes.foldl Table.insert s.journal }

end JournalStore

/-! ### Compaction -/

structure CompactCall where
  hostId : String
  retentionDays : Int
  retentionCount : Int
  batchSize : Int
  now : Int
  dryRun : Bool
deriving DecidableEq, Repr

structure CompactResult where
  hostId : String
  dryRun : Bool
  retentionDays : Int
  retentionCount : Int
  batchSize : Int
  examined : Nat
  deleted : Nat
  remainingCandidates : Bool
deriving DecidableEq, Repr

namespace CompactCall

def days (c : CompactCall) : Int := max 1 c.retentionDays
def count (c : CompactCall) : Int := max 1 c.retentionCount
def boundedBatch (c : CompactCall) : Int := min 10000 (max 1 c.batchSize)
def cutoffAt (c : CompactCall) : Int := c.now - c.days * 86400000

/-- The clock arithmetic and the bound statement refuse numbers out of their range. -/
def overflows (c : CompactCall) : Bool :=
  decide (999999999 < c.days) || decide (c.cutoffAt < -62135596800000) ||
    decide (0x8000000000000000 ≤ c.count - 1)

end CompactCall

/-- The sequence of the last row that the count keeps: `ORDER BY seq DESC LIMIT 1 OFFSET`. -/
def retentionBoundary (s : JournalStore) (c : CompactCall) : Option Nat :=
  ((s.hostRows c.hostId).reverse[(c.count - 1).toNat]?).map Prod.fst

/-- Rows of the host below the boundary and older than the cutoff. -/
def compactionCandidates (s : JournalStore) (c : CompactCall) (boundary : Nat) :
    List (Nat × TurnChange) :=
  s.journal.select (fun seq r => r.hostId == c.hostId && decide (seq < boundary) &&
    r.changedAt.any (fun changedAt => decide (changedAt < c.cutoffAt)))

/-- The sequences of one batch, smallest first. -/
def compactionBatch (s : JournalStore) (c : CompactCall) : List Nat :=
  match retentionBoundary s c with
  | none => []
  | some boundary =>
    ((compactionCandidates s c boundary).take c.boundedBatch.toNat).map Prod.fst

/-- The upsert of a floor row. -/
def raisedFloor (floor : Option Nat) (largest : Nat) : Nat :=
  match floor with
  | none => largest
  | some floor => max floor largest

/-- Delete the batch and raise the floor to its largest sequence. -/
def deleteBatch (s : JournalStore) (hostId : String) (sequences : List Nat) : JournalStore :=
  match sequences.getLast? with
  | none => s
  | some largest =>
    { s with
      journal := s.journal.deleteWhere (fun seq r => r.hostId == hostId && sequences.contains seq)
      floorSeq := Function.update s.floorSeq hostId
        (some (raisedFloor (s.floorSeq hostId) largest)) }

/-- The new store and the summary, or nothing where the call raises. -/
def compactTurnChangeJournal (s : JournalStore) (c : CompactCall) :
    Option (JournalStore × CompactResult) :=
  if c.overflows then
    none
  else
    let sequences := compactionBatch s c
    let compacted := deleteBatch s c.hostId sequences
    let remaining := (retentionBoundary s c).any
      (fun boundary => !(compactionCandidates compacted c boundary).isEmpty)
    some (if c.dryRun then s else compacted,
      { hostId := c.hostId, dryRun := c.dryRun, retentionDays := c.days, retentionCount := c.count,
        batchSize := c.boundedBatch, examined := sequences.length, deleted := sequences.length,
        remainingCandidates := remaining })

/-! ### Where a turn.delta request starts -/

inductive DeltaMode where
  | bootstrap
  | changes
deriving DecidableEq, Repr

/-- A decoded watermark. -/
structure DeltaWatermark where
  hostId : String
  sequence : Nat
  storeEpoch : String
deriving DecidableEq, Repr

/-- A decoded cursor: the frozen batch that it continues. -/
structure DeltaCursor where
  hostId : String
  mode : DeltaMode
  limit : Int
  acceptedSequence : Nat
  batchHigh : Nat
  insertionHigh : Nat
  pageNumber : Nat
  positionWorkerId : String
  positionSequence : Nat
  positionTurnId : String
  storeEpoch : String
  expiresAt : Int
deriving DecidableEq, Repr

inductive DeltaToken where
  | none
  | watermark (watermark : DeltaWatermark)
  | cursor (cursor : DeltaCursor)
deriving DecidableEq, Repr

/-- `bootstrapCount` is the number of current turns that a bootstrap would list. -/
structure DeltaCall where
  hostId : String
  token : DeltaToken
  limit : Int
  now : Int
  batchSequenceCeiling : Int
  bootstrapMaxRows : Int
  bootstrapMaxPages : Int
  bootstrapCount : Nat
deriving DecidableEq, Repr

inductive DeltaRefusal where
  | invalidWatermark
  | expiredWatermark
  | crossHostWatermark
  | invalidCursor
  | expiredCursor
  | bootstrapTooLarge
deriving DecidableEq, Repr

/-- The batch that a page is cut from. -/
structure DeltaBatch where
  mode : DeltaMode
  accepted : Nat
  batchHigh : Nat
  pageNumber : Nat
  expiresAt : Int
deriving DecidableEq, Repr

def turnDeltaMaxLimit : Int := 500
def turnDeltaCursorTtlSeconds : Int := 300

/-- `int(clock) + TURN_DELTA_CURSOR_TTL_SECONDS`. -/
def deltaExpiry (now : Int) : Int := (now / 1000 + turnDeltaCursorTtlSeconds) * 1000

/-- The host names that tokens can be bound to. -/
def deltaHostValid (hostId : String) : Bool := hostId != "" && decide (hostId.length ≤ 512)

/-- `decode_turn_delta_cursor` on a token with intact contents of this schema. -/
def DeltaCursor.decode (cursor : DeltaCursor) (call : DeltaCall) : Except DeltaRefusal Unit :=
  if deltaHostValid call.hostId = false then
    .error .invalidWatermark
  else if cursor.hostId ≠ call.hostId ∨ cursor.limit ≠ call.limit ∨
      cursor.batchHigh < cursor.acceptedSequence ∨ cursor.pageNumber < 1 ∨
      cursor.storeEpoch = "" ∨ cursor.positionTurnId = "" ∨
      (cursor.mode = .bootstrap ∧ cursor.positionWorkerId = "") ∨
      (cursor.mode = .changes ∧ cursor.positionSequence ≤ cursor.acceptedSequence) ∨
      512 < max cursor.positionWorkerId.length
        (max cursor.positionTurnId.length cursor.storeEpoch.length) then
    .error .invalidCursor
  else if cursor.expiresAt ≤ call.now then
    .error .expiredCursor
  else
    .ok ()

/-- The acceptance test of `_turn_delta_payload_from_store`. -/
def turnDeltaBatch (s : JournalStore) (call : DeltaCall) : Except DeltaRefusal DeltaBatch :=
  if call.limit < 1 ∨ turnDeltaMaxLimit < call.limit then
    .error (match call.token with
      | .cursor _ => .invalidCursor
      | _ => .invalidWatermark)
  else
    match call.token with
    | .cursor cursor =>
      match cursor.decode call with
      | .error refusal => .error refusal
      | .ok () =>
        if cursor.storeEpoch ≠ s.storeEpoch then
          .error .invalidCursor
        else if cursor.mode = .changes ∧ cursor.acceptedSequence < s.floor call.hostId then
          .error .expiredCursor
        else
          .ok { mode := cursor.mode, accepted := cursor.acceptedSequence,
                batchHigh := cursor.batchHigh, pageNumber := cursor.pageNumber + 1,
                expiresAt := cursor.expiresAt }
    | .watermark watermark =>
      if deltaHostValid call.hostId = false then
        .error .invalidWatermark
      else if watermark.hostId ≠ call.hostId then
        .error .crossHostWatermark
      else if watermark.storeEpoch ≠ s.storeEpoch ∨
          s.journalHigh call.hostId < watermark.sequence then
        .error .invalidWatermark
      else if watermark.sequence < s.floor call.hostId then
        .error .expiredWatermark
      else
        .ok { mode := .changes, accepted := watermark.sequence,
              batchHigh := min (s.journalHigh call.hostId)
                (watermark.sequence + (max 1 call.batchSequenceCeiling).toNat),
              pageNumber := 1, expiresAt := deltaExpiry call.now }
    | .none =>
      if max 1 call.bootstrapMaxRows < call.bootstrapCount ∨
          max 1 call.bootstrapMaxPages * turnDeltaMaxLimit < call.bootstrapCount then
        .error .bootstrapTooLarge
      else
        .ok { mode := .bootstrap, accepted := 0, batchHigh := s.journalHigh call.hostId,
              pageNumber := 1, expiresAt := deltaExpiry call.now }

/-! ### The machine -/

inductive JournalCall where
  | record (changes : List TurnChange)
  | compact (call : CompactCall)
  | delta (call : DeltaCall)

inductive JournalAnswer where
  | recorded
  | compacted (result : Option CompactResult)
  | delta (batch : Except DeltaRefusal DeltaBatch)

def journalStep (s : JournalStore) : JournalCall → JournalStore × JournalAnswer
  | .record changes => (s.record changes, .recorded)
  | .compact call =>
    match compactTurnChangeJournal s call with
    | none => (s, .compacted none)
    | some (s', result) => (s', .compacted (some result))
  | .delta call => (s, .delta (turnDeltaBatch s call))

def journalMachine : Transition.Machine JournalStore JournalCall JournalAnswer := ⟨journalStep⟩

end Tendwire

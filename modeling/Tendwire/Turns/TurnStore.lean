import Mathlib.Logic.Function.Basic
import Tendwire.Connector.Roots
import Tendwire.Turns.PublicTurn

/-!
# The turn store

The turn rows with all the columns that listing and merging read, next to the connector
tables. The connector's own operations see a turn through the few columns of `Connector.TurnRow`
and are run on that view.
-/

namespace Tendwire

open Json Connector Relational

/-- A row of `turns`. The payload is the JSON value that is stored. -/
structure StoredTurn where
  hostId : String
  turnId : String
  workerId : String
  workerFingerprint : Value
  spaceId : Value
  status : String
  kind : String
  updatedAt : Value
  fingerprint : String
  snapshotContentFingerprint : String
  observedAt : String
  payload : Value
  listSequence : Nat

def storedTurnSchema : Schema StoredTurn (String × String) where
  check := fun t => decide (0 < t.listSequence)
  keys := [fun t => some (t.hostId, t.turnId)]

/-- A row of `workers`, as far as turns read it. -/
structure WorkerRow where
  payload : Fields
  snapshotContentFingerprint : String

/-- A row of `turn_list_hosts`. -/
structure TurnListHost where
  nextSequence : Nat
  traversalGeneration : Nat
  deriving DecidableEq, Repr

structure TurnStore where
  turns : Constrained storedTurnSchema
  connector : Connector.Store
  workers : String → String → Option WorkerRow
  hosts : String → Option TurnListHost
  storeEpoch : String

/-- A store with no turns; the alias table is what the migration left. -/
def TurnStore.fresh (supersessions : Constrained supersessionSchema) (storeEpoch : String) :
    TurnStore where
  turns := .empty
  connector := .initial supersessions
  workers := fun _ _ => none
  hosts := fun _ => none
  storeEpoch

/-- `json.loads`, where anything but a mapping counts as empty. -/
def loadedPayload (payload : Value) : Fields := payload.object?.getD []

namespace StoredTurn

def is (hostId turnId : String) (t : StoredTurn) : Bool :=
  t.hostId == hostId && t.turnId == turnId

def loaded (t : StoredTurn) : Fields := loadedPayload t.payload

def metaFields (t : StoredTurn) : Fields := ((t.loaded.get? "meta").bind Value.object?).getD []

/-- `COALESCE(json_extract(payload_json, '$.superseded_at'), '') = ''`. -/
def untombstoned (t : StoredTurn) : Bool :=
  match t.loaded.get? "superseded_at" with
  | none | some .null | some (.text "") => true
  | some _ => false

/-- The columns the connector reads. The automation test is put to the payload with the texts
of a revision. -/
def view (R : TextRules) (t : StoredTurn) : TurnRow where
  hostId := t.hostId
  turnId := t.turnId
  workerId := t.workerId
  spaceId := t.spaceId.text?
  stableKey := (t.metaFields.get? "stable_key").bind Value.text?
  stableKeyVersion := (t.metaFields.get? "stable_key_version").bind Value.int?
  automation := fun revision => R.isInternalAutomationTurnPayload
    ((t.loaded.set "user_text" (.ofText? revision.userText)).set "assistant_final_text"
      (.ofText? revision.finalText))

end StoredTurn

namespace TurnStore

variable (s : TurnStore)

def turn? (hostId turnId : String) : Option (Nat × StoredTurn) :=
  s.turns.table.first? fun _ t => t.is hostId turnId

/-- The left join with the current revision. -/
def currentRevision? (hostId turnId : String) : Option RevisionRow :=
  (s.connector.revisions.table.first? fun _ r =>
    r.hostId == hostId && r.turnId == turnId && r.isCurrent).map Prod.snd

/-- The host's row with the first sequence number above those stored and generation 1. -/
def newHost (hostId : String) : TurnListHost where
  nextSequence :=
    (((s.turns.table.select fun _ t => t.hostId == hostId).map fun e =>
      e.2.listSequence).foldl max 0) + 1
  traversalGeneration := 1

def host (hostId : String) : TurnListHost := (s.hosts hostId).getD (s.newHost hostId)

/-- The host's row is there after any write to it. -/
def setHost (hostId : String) (f : TurnListHost → TurnListHost) : TurnStore :=
  { s with hosts := Function.update s.hosts hostId (some (f (s.host hostId))) }

/-- `_turn_list_sequence_conn` of a turn that is not stored. -/
def nextSequence (hostId : String) : TurnStore × Nat :=
  (s.setHost hostId fun h => { h with nextSequence := h.nextSequence + 1 },
    (s.host hostId).nextSequence)

def incrementTurnListGeneration (hostId : String) : TurnStore :=
  s.setHost hostId fun h => { h with traversalGeneration := h.traversalGeneration + 1 }

/-- The highest sequence number handed out, and the generation of the traversals. -/
def turnListHostState (hostId : String) : Nat × Nat :=
  ((s.host hostId).nextSequence - 1, (s.host hostId).traversalGeneration)

/-! ### The connector's view -/

def view (R : TextRules) : Connector.Store :=
  { s.connector with
    turns := s.turns.map (StoredTurn.view R) (fun _ => rfl) (fun _ _ h => h) }

lemma view_turns_get? {s : TurnStore} (R : TextRules) (i : Nat) :
    (s.view R).turns.get? i = (s.turns.get? i).map (StoredTurn.view R) :=
  Table.get?_map s.turns.table (StoredTurn.view R) i

/-- What a connector operation on the view leaves: it may have deleted turns, never changed
one. -/
def afterConnector (c : Connector.Store) : TurnStore :=
  { s with
    connector := c
    turns := s.turns.deleteWhere fun i _ => (c.turns.get? i).isNone }

end TurnStore

end Tendwire

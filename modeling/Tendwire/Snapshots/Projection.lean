import Mathlib.Data.List.Sort
import Mathlib.Data.Prod.Lex
import Mathlib.Data.String.Basic
import Tendwire.Turns.Refresh

/-!
# Saving a snapshot

The history of snapshots, the rows of spaces and workers that the newest of them projects, and
the private bindings that come with it. A save is one transaction.
-/

namespace Tendwire

open Json Connector Relational

/-- A row of `snapshots`. -/
structure SnapshotRow where
  hostId : String
  createdAt : String
  contentFingerprint : String
  payload : Fields

/-- A row of `spaces`. -/
structure SpaceRow where
  name : String
  status : String
  updatedAt : Value
  fingerprint : String
  snapshotContentFingerprint : String
  observedAt : String
  payload : Fields

/-- A row of `workers` with all its columns. -/
structure WorkerProjection where
  workerFingerprint : String
  spaceId : Value
  name : String
  status : String
  lastSeenAt : Value
  snapshotContentFingerprint : String
  observedAt : String
  payload : Fields

/-- A row of `worker_bindings`. -/
structure WorkerBinding where
  hostId : String
  workerId : String
  workerFingerprint : String
  backend : String
  targetKind : String
  targetValue : String
  turnTargetKind : Option String
  turnTargetValue : Option String
  sendable : Bool
  reason : Option String
  observedAt : String
  expiresAt : String
  privateFingerprint : String
  deriving DecidableEq, Repr

def WorkerBinding.key (b : WorkerBinding) : String × String × String :=
  (b.hostId, b.backend, b.privateFingerprint)

structure SnapshotStore where
  snapshots : Table SnapshotRow
  spaces : String → String → Option SpaceRow
  workers : String → String → Option WorkerProjection
  bindings : String × String × String → Option WorkerBinding
  turns : TurnStore

def SnapshotStore.fresh (turns : TurnStore) : SnapshotStore where
  snapshots := .empty
  spaces := fun _ _ => none
  workers := fun _ _ => none
  bindings := fun _ => none
  turns

/-- The `updated_at` of a payload as a canonical timestamp. -/
def payloadUpdatedAt (R : TextRules) (payload : Fields) : Option String :=
  ((payload.get? "updated_at").bind Value.text?).bind R.strictUtcTimestamp

/-- A public snapshot: its payload says its fingerprint, and the time that it is canonical in is
the one the payload says. -/
structure Snapshot (R : TextRules) where
  hostId : String
  updatedAt : String
  contentFingerprint : String
  data : Fields
  dated : payloadUpdatedAt R data = R.strictUtcTimestamp updatedAt
  canonical : ∀ t, R.strictUtcTimestamp updatedAt = some t → R.strictUtcTimestamp t = some t

section Freshness

variable (R : TextRules)

def collectionItems (data : Fields) (collection : String) : List Fields :=
  match data.get? collection with
  | some (.array items) => items.filterMap Value.object?
  | _ => []

/-- The timestamps that projections keep outside of snapshots. -/
def snapshotProjectionFreshness (payload : Fields) : List (String ×ₗ String ×ₗ String) :=
  ([("spaces", "updated_at"), ("workers", "last_seen_at"), ("attention", "updated_at")].flatMap
    fun c => (collectionItems payload c.1).map fun item =>
      toLex (c.1, toLex (R.strOrEmpty (item.get? "id"), R.strOrEmpty (item.get? c.2)))).insertionSort
        (· ≤ ·)

/-- The order of snapshots: by time, then by fingerprint. -/
def freshnessKey (createdAt contentFingerprint : String) : Int ×ₗ String :=
  toLex (R.instant createdAt, contentFingerprint)

end Freshness

/-! ### Projected rows -/

section Rows

variable (R : TextRules)

def itemId (item : Fields) : String := R.str (orText (item.get? "id") "unknown")

def spaceRow (contentFingerprint observedAt : String) (item : Fields) : SpaceRow where
  name := R.str (orText (item.get? "name") (itemId R item))
  status := R.str (orText (item.get? "status") "unknown")
  updatedAt := (item.get? "updated_at").getD .null
  fingerprint := R.strOrEmpty (item.get? "fingerprint")
  snapshotContentFingerprint := contentFingerprint
  observedAt
  payload := item

def workerProjection (contentFingerprint observedAt : String) (item : Fields) :
    WorkerProjection where
  workerFingerprint := R.strOrEmpty (item.get? "fingerprint")
  spaceId := (item.get? "space_id").getD .null
  name := R.str (orText (item.get? "name") (itemId R item))
  status := R.str (orText (item.get? "status") "unknown")
  lastSeenAt := (item.get? "last_seen_at").getD .null
  snapshotContentFingerprint := contentFingerprint
  observedAt
  payload := item

/-- The rows that a snapshot upserts; the last item of an id stays. -/
def Snapshot.projected (x : Snapshot R) {ρ : Type} (collection : String)
    (row : String → String → Fields → ρ) : List (String × ρ) :=
  (collectionItems x.data collection).reverse.map fun item =>
    (itemId R item, row x.contentFingerprint x.updatedAt item)

def Snapshot.spaceRows (x : Snapshot R) : String → Option SpaceRow :=
  ((x.projected R "spaces" (spaceRow R)).lookup ·)

def Snapshot.workerRows (x : Snapshot R) : String → Option WorkerProjection :=
  ((x.projected R "workers" (workerProjection R)).lookup ·)

end Rows

/-! ### Bindings -/

namespace SnapshotStore

variable {R : TextRules} (s : SnapshotStore)

def latest? (hostId : String) : Option (Nat × SnapshotRow) :=
  s.snapshots.newest? fun _ r => r.hostId == hostId

/-- The history after a snapshot that wins: a repeated content keeps its row. -/
def retain (latest : Option (Nat × SnapshotRow)) (r : SnapshotRow) : SnapshotStore :=
  match latest with
  | some (id, stored) =>
    if stored.contentFingerprint = r.contentFingerprint then
      { s with snapshots := s.snapshots.modify id fun _ => r }
    else
      { s with snapshots := s.snapshots.insert r }
  | none => { s with snapshots := s.snapshots.insert r }

end SnapshotStore

end Tendwire

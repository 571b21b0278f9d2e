import Tendwire.Snapshots.Projection
import Tendwire.Turns.ItemAgreement

/-!
# The order in which snapshots are saved

The retained snapshot of a host is the greatest of those saved by time and fingerprint. The
spaces and workers of a host are those of a saved snapshot with the same content and the same
item timestamps. The bindings of every snapshot that won stay.
-/

namespace Tendwire

open Json Connector Relational

section Keys

variable {R : TextRules}

def Snapshot.createdAt? (x : Snapshot R) : Option String := R.strictUtcTimestamp x.updatedAt

/-- The row of a snapshot in the history. -/
def Snapshot.row (x : Snapshot R) : SnapshotRow :=
  ⟨x.hostId, x.createdAt?.getD "", x.contentFingerprint, x.data⟩

def SnapshotRow.key (R : TextRules) (r : SnapshotRow) : Int ×ₗ String :=
  freshnessKey R r.createdAt r.contentFingerprint

def Snapshot.key (x : Snapshot R) : Int ×ₗ String := x.row.key R

/-- Two snapshots of the same content with the same item timestamps. -/
structure Twins (x y : Snapshot R) : Prop where
  fingerprint : x.contentFingerprint = y.contentFingerprint
  freshness : snapshotProjectionFreshness R x.data = snapshotProjectionFreshness R y.data

lemma Twins.refl (x : Snapshot R) : Twins x x := ⟨rfl, rfl⟩

lemma Twins.trans {x y z : Snapshot R} (h : Twins x y) (h' : Twins y z) : Twins x z :=
  ⟨h.fingerprint.trans h'.fingerprint, h.freshness.trans h'.freshness⟩

end Keys

namespace SnapshotStore

variable {R : TextRules} {s s' : SnapshotStore}

/-! ### The history -/

/-- The rows of a host are those that a snapshot projects. -/
structure Projects (s : SnapshotStore) (x : Snapshot R) : Prop where
  spaces : s.spaces x.hostId = x.spaceRows R
  workers : s.workers x.hostId = x.workerRows R

/-- The retained snapshot is the greatest of those saved, and the projection is that of one of
its twins. -/
structure Retains (hostId : String) (saved : List (Snapshot R)) (s : SnapshotStore)
    (x : Snapshot R) : Prop where
  mem : x ∈ saved
  dated : ∃ createdAt, x.createdAt? = some createdAt
  latest : ∃ i, s.latest? hostId = some (i, x.row)
  greatest : ∀ y ∈ saved, y.key ≤ x.key
  projected : ∃ d ∈ saved, Twins d x ∧ s.Projects d

lemma Projects.congr {x : Snapshot R} (h : s.Projects x) (hspaces : s'.spaces = s.spaces)
    (hworkers : s'.workers = s.workers) : s'.Projects x := by
  refine ⟨?_, ?_⟩
  · rw [hspaces, h.spaces]
  · rw [hworkers, h.workers]

end SnapshotStore

/-! ### What depends on the order -/

end Tendwire

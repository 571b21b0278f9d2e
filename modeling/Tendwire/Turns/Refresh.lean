import Tendwire.Turns.Merge

/-!
# The turn store as a machine

Merges of observed content and commits of snapshots, each of them one transaction. A snapshot
replaces the workers of its host and prunes the turns that no source observed.
-/

namespace Tendwire

open Json Connector Relational

namespace TurnStore

variable (s : TurnStore)

def typedFinalReferenceExists (hostId turnId : String) : Bool :=
  s.connector.outbox.table.any fun _ r => r.hostId == hostId && r.turnId == some turnId &&
    r.deliveryKind.isFinal && r.contentRevision.isSome

/-- A revision of the turn that a plan or a final's payload names. -/
def revisionProtected (hostId turnId : String) : Bool :=
  s.connector.revisions.table.any fun _ r => r.hostId == hostId && r.turnId == turnId &&
    ((s.connector.plans.table.any fun _ p => p.hostId == hostId && p.turnId == turnId &&
        p.contentRevision == r.contentRevision) ||
      s.connector.outbox.table.any fun _ o => o.hostId == hostId && o.connector == turnFinalName &&
        o.payload.contentRevision? == some r.contentRevision)

def deleteTurn (hostId turnId : String) : TurnStore :=
  { s with
    turns := s.turns.deleteWhere fun _ t => t.is hostId turnId
    connector :=
      { s.connector with
        revisions := s.connector.revisions.deleteWhere fun _ r =>
          r.hostId == hostId && r.turnId == turnId } }

/-- Deleting a turn ends the traversals of its host. -/
def deleteTurnIfUnreferenced (hostId turnId : String) : TurnStore :=
  if s.typedFinalReferenceExists hostId turnId || s.revisionProtected hostId turnId then
    s
  else
    let s₁ := (s.setHost hostId id).deleteTurn hostId turnId
    if (s.turn? hostId turnId).isSome then s₁.incrementTurnListGeneration hostId else s₁

def turnPayloadIsPruneProtected (R : TextRules) (t : StoredTurn) : Bool :=
  strip (R.strOrEmpty (t.loaded.get? "source_turn_id")) != ""

def pruneTurnProjection (R : TextRules) (hostId : String) (keepIds : List String) : TurnStore :=
  (s.turns.table.select fun _ t => t.hostId == hostId && !keepIds.contains t.turnId).foldl
    (fun s e => if turnPayloadIsPruneProtected R e.2 then s
      else s.deleteTurnIfUnreferenced hostId e.2.turnId) s

/-- The workers of a snapshot replace those of its host; no turn items are projected. -/
def refreshSnapshotProjections (R : TextRules) (hostId : String)
    (workers : List (String × WorkerRow)) : TurnStore :=
  let ofSnapshot (workerId : String) := workers.reverse.lookup workerId
  { s with workers := Function.update s.workers hostId ofSnapshot }.pruneTurnProjection R hostId []

/-- The current complete finals without a root that is ready. -/
def missingFinalReadyAnchors (hostId : String) : List (Nat × RevisionRow) :=
  s.connector.revisions.table.select fun _ r => r.hostId == hostId && r.isCurrent &&
    r.contentRevision.finalState == .complete &&
    !s.connector.outbox.table.any fun _ o => o.hostId == hostId && o.turnId == some r.turnId &&
      o.contentRevision == some r.contentRevision && o.deliveryKind == .finalReady

def repairMissingFinalReadyAnchors (R : TextRules) (hostId : String) (now : Int) :
    TurnTxn TurnStore :=
  (s.missingFinalReadyAnchors hostId).foldlM
    (fun s e => s.ensureFinalReadyAnchor R hostId e.2.turnId e.2.contentRevision now) s

end TurnStore

inductive TurnCall where
  | merge (hostId workerId : String) (content : Fields) (observedAt : String)
  | refresh (hostId : String) (workers : List (String × WorkerRow))
  | repair (hostId : String) (now : Int)

namespace TurnStore

variable (R : TextRules)

def call (s : TurnStore) : TurnCall → TurnTxn TurnStore
  | .merge hostId workerId content observedAt =>
    (s.applyTurnRefresh R hostId workerId content observedAt).map Prod.fst
  | .refresh hostId workers => .ok (s.refreshSnapshotProjections R hostId workers)
  | .repair hostId now => s.repairMissingFinalReadyAnchors R hostId now

/-- A transaction that fails is rolled back. -/
def step (s : TurnStore) (c : TurnCall) : TurnStore :=
  match s.call R c with
  | .ok s' => s'
  | .error _ => s

def run (s : TurnStore) (calls : List TurnCall) : TurnStore := calls.foldl (step R) s

end TurnStore

end Tendwire

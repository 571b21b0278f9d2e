import Tendwire.Connector.Store
import Tendwire.Text

/-!
# What the connector reads of a turn

Alias resolution, the ordering lane of a turn, and the payload of its final root.
-/

namespace Tendwire.Connector

def turnFinalName : String := "turn-final"

def validFinalStableKey (value : String) : Bool :=
  value.startsWith "wsk1_" && value.length == 69 && (value.toList.drop 5).all isLowerHexDigit

def TurnRow.routableKey (t : TurnRow) : Option String :=
  t.stableKey.filter fun key => validFinalStableKey key && t.stableKeyVersion == some 1

def finalContentFieldDescriptor (revision : ContentRevision) (field : TurnField)
    (availability : ContentState) (charLength byteLength pageCount : Nat) : FieldDescriptor :=
  let complete := availability == .complete
  let pageable := complete && decide (0 < charLength) && decide (0 < pageCount)
  { availability
    charLength
    byteLength
    pageCount := if complete then pageCount else 0
    firstCursor := if pageable then some ⟨revision, field, 0, 0, 0⟩ else none }

namespace Store

variable (s : Store)

def turn? (hostId turnId : String) : Option TurnRow :=
  (s.turns.table.first? fun _ t => t.hostId == hostId && t.turnId == turnId).map Prod.snd

def revision? (hostId turnId : String) (revision : ContentRevision) : Option RevisionRow :=
  (s.revisions.table.first? fun _ r =>
    r.hostId == hostId && r.turnId == turnId && r.contentRevision == revision).map Prod.snd

def supersession? (hostId turnId : String) : Option TurnSupersession :=
  (s.supersessions.table.first? fun _ r =>
    r.hostId == hostId && r.supersededTurnId == turnId).map Prod.snd

/-- A chain of aliases without a repetition visits each alias row at most once, so running
out of fuel is the source's `current in seen`. -/
def followSupersessions (hostId : String) : Nat → String → Option String
  | 0, _ => none
  | fuel + 1, current =>
    if current = "" then
      none
    else
      match s.supersession? hostId current with
      | none => some current
      | some row => followSupersessions hostId fuel (strip row.canonicalTurnId)

def resolveCanonicalTurnId (hostId turnId : String) : Option String :=
  s.followSupersessions hostId (s.supersessions.table.rows.length + 1) (strip turnId)

def turnOrderingKey (hostId turnId : String) : String :=
  match s.turn? hostId turnId with
  | none => "orphan:" ++ turnId
  | some turn =>
    match turn.routableKey with
    | some key => key
    | none => if turn.workerId = "" then "orphan:" ++ turnId else turn.workerId

/-- The payload of the final root of a current revision with a complete final, from the
columns of the turn and the revision. -/
def finalReadyPayload (hostId turnId : String) (revision : ContentRevision)
    (allowUnroutable : Bool) : Option FinalPayload := do
  let turnId ← s.resolveCanonicalTurnId hostId turnId
  let turn ← s.turn? hostId turnId
  let row ← s.revision? hostId turnId revision
  guard (row.isCurrent && revision.finalState == .complete)
  guard (turn.routableKey.isSome || allowUnroutable)
  return {
    finalIdentity := ⟨hostId, turnId, revision⟩
    turnId
    workerId := turn.workerId
    spaceId := turn.spaceId
    contentRevision := revision
    knownIncomplete := revision.userState == .knownIncomplete
    userText := finalContentFieldDescriptor revision .userText revision.userState
      row.userCharLength row.userByteLength row.userPageCount
    assistantFinalText := finalContentFieldDescriptor revision .assistantFinalText
      revision.finalState row.finalCharLength row.finalByteLength row.finalPageCount
    stableKey := turn.routableKey }

def finalRevisionIsInternalAutomation (hostId turnId : String) (revision : ContentRevision) :
    Bool :=
  match s.turn? hostId turnId, s.revision? hostId turnId revision with
  | some turn, some _ => turn.automation revision
  | _, _ => true

def currentPresentationRevision (hostId turnId : String) (revision : ContentRevision) :
    Txn RevisionRow :=
  match s.revision? hostId turnId revision with
  | none => .error .contentRevisionNotFound
  | some row =>
    if !row.isCurrent then
      .error .revisionConflict
    else if revision.finalState == .complete && revision.userState != .knownIncomplete then
      .ok row
    else
      .error .contentKnownIncomplete

end Store

end Tendwire.Connector

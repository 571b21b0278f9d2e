import Tendwire.Turns.Item

/-!
# Merging observed turn content

One transaction merges what a backend observed of a turn: it inserts or updates the turn row,
replaces the current content revision, and ensures the final root. An observation that is not
newer than the stored one changes no more than the row's metadata.
-/

namespace Tendwire

open Json Connector Relational

/-- Why a turn transaction is rolled back. -/
inductive TurnRefusal where
  | value (message : String)
  | storeSchema (code : String)
  | integrity
  | connector (reason : Refusal)
  deriving DecidableEq, Repr

abbrev TurnTxn (α : Type) := Except TurnRefusal α

def TurnTxn.demand {α : Type} (o : Option α) : TurnTxn α :=
  match o with
  | some a => .ok a
  | none => .error .integrity

def turnContentFields : List String := [
  "user_text", "assistant_final_text", "assistant_stream_text", "model", "complete",
  "has_open_turn", "awaiting_input", "pending_decision", "source_turn_id"]

/-- The columns of an existing turn that every observation overwrites. -/
def observedMetadataKeys : List String := [
  "worker_id", "worker_fingerprint", "space_id", "status", "kind", "title", "summary",
  "updated_at", "meta"]

def isTrue (value : Option Value) : Bool :=
  match value with
  | some (.bool true) => true
  | _ => false

/-! ### Completion and content -/

section Content

variable (R : TextRules)

def turnObservationIsNewer (incoming stored : String) : Bool :=
  if stored = "" then
    true
  else
    match R.strictUtcTimestamp incoming, R.strictUtcTimestamp stored with
    | some a, some b => decide (R.instant b < R.instant a)
    | _, _ => decide (stored < incoming)

/-- `value or default`. -/
def orText (value : Option Value) (default : String) : Value :=
  match value with
  | some v => if v.truthy then v else .text default
  | none => .text default

/-- A turn that is complete stays so: the payload or the current revision says it. -/
def retainAuthoritativeCompletion (metadata : Fields) (current : Option ContentRevision)
    (existing : Fields) (incomingFinal : Option String) (observedAt : String) : Fields :=
  let terminal :=
    isTrue (existing.get? "complete") || current.any (·.finalState == .complete)
  let completesNow := isTrue (metadata.get? "complete") || incomingFinal.any (· != "")
  if terminal || completesNow then
    (((metadata.set "complete" (.bool true)).set "has_open_turn" (.bool false)).set
      "assistant_stream_text" .null).set "completed_at"
        (orText (existing.get? "completed_at") observedAt)
  else
    metadata

def mergeCanonicalField (incoming currentText : Option String) (currentState : ContentState) :
    Option String × ContentState :=
  match incoming with
  | none | some "" => (if currentState = .absent then none else currentText, currentState)
  | some text => (some text, .complete)

/-- `content_revision`, whose checks come before the digest. -/
def contentRevision (turnId : String) (userText finalText : Option String)
    (userState finalState : ContentState) : TurnTxn ContentRevision := do
  (validateTurnId turnId).mapError .value
  (validateContentState userState userText).mapError .value
  (validateContentState finalState finalText).mapError .value
  return ⟨turnId, userText, finalText, userState, finalState⟩

def revisionRow (hostId : String) (revision : ContentRevision) (isCurrent : Bool) : RevisionRow :=
  let pages (text : Option String) (state : ContentState) :=
    if state = .complete then
      (segmentBytes turnContentPageMaxUtf8Bytes 0 (text.getD "").toList).length
    else
      0
  { hostId
    turnId := revision.turnId
    contentRevision := revision
    userCharLength := (revision.userText.getD "").length
    userByteLength := (revision.userText.getD "").utf8ByteSize
    finalCharLength := (revision.finalText.getD "").length
    finalByteLength := (revision.finalText.getD "").utf8ByteSize
    userPageCount := pages revision.userText revision.userState
    finalPageCount := pages revision.finalText revision.finalState
    isCurrent }

def currentWorkerTurnProjection (hostId workerId : String) (worker : Fields) : Fields :=
  let metaFields := ((worker.get? "meta").bind Value.object?).getD []
  let command := strip (R.strOrEmpty (metaFields.get? "origin_command_id"))
  R.publicMapping (some (.object (Turn.toDict R (Turn.ofFields R [
    ("host_id", .text hostId), ("worker_id", .text workerId),
    ("worker_fingerprint", .text (R.strOrEmpty (worker.get? "fingerprint"))),
    ("space_id", (worker.get? "space_id").getD .null),
    ("status", .text (R.str (orText (worker.get? "status") "unknown"))), ("kind", .text "task"),
    ("source", .text ("worker:" ++ workerId)), ("title", (worker.get? "name").getD .null),
    ("summary", (worker.get? "summary").getD .null),
    ("updated_at", (worker.get? "last_seen_at").getD .null),
    ("origin_command_id",
      if command = "" then .null else .text (R.strOrEmpty (metaFields.get? "origin_command_id"))),
    ("meta", .object metaFields)]))))

def observedTurnPayload (turnId : String) (payload : Fields) : Fields :=
  stripCanonicalTurnPayload
    (((((Turn.fromDict R payload).toDict R).set "id" (.text turnId)).erase "origin_command_id").update
      (publicPendingTurnExtension R payload))

end Content

/-! ### Statements -/

namespace TurnStore

variable (s : TurnStore)

def setRevisions (revisions : Constrained revisionSchema) : TurnStore :=
  { s with connector := { s.connector with revisions } }

/-- `ON CONFLICT(host_id, turn_id, content_revision) DO NOTHING`. -/
def insertTurnContentRevision (hostId : String) (revision : ContentRevision) (isCurrent : Bool) :
    TurnTxn TurnStore :=
  (TurnTxn.demand (s.connector.revisions.insertOrIgnore (revisionRow hostId revision isCurrent))).map
    s.setRevisions

/-- `UPDATE turn_content_revisions SET is_current = ...`. -/
def updateCurrent (p : RevisionRow → Bool) (isCurrent : Bool) : TurnStore :=
  s.setRevisions (s.connector.revisions.updateKeep (fun _ r => p r)
    (fun r => { r with isCurrent }) fun _ => ⟨rfl, by simp [revisionSchema]⟩)

def replaceCurrentTurnContent (hostId turnId : String) (current : Option ContentRevision)
    (incomingUser incomingFinal : Option String) : TurnTxn (TurnStore × Bool) :=
  let (userText, userState) := mergeCanonicalField incomingUser (current.bind (·.userText))
    ((current.map (·.userState)).getD .absent)
  let (finalText, finalState) := mergeCanonicalField incomingFinal (current.bind (·.finalText))
    ((current.map (·.finalState)).getD .absent)
  if userState = .absent ∧ finalState = .absent then
    .ok (s, false)
  else do
    let revision ← contentRevision turnId userText finalText userState finalState
    if current = some revision then
      return (s, false)
    else
      let s₁ := s.updateCurrent
        (fun r => r.hostId == hostId && r.turnId == turnId && r.isCurrent) false
      let s₂ ← s₁.insertTurnContentRevision hostId revision false
      return (s₂.updateCurrent
        (fun r => r.hostId == hostId && r.turnId == turnId && r.contentRevision == revision) true,
        true)

/-- A turn without a current revision gets the absent one. -/
def ensureAbsentTurnContentRevision (hostId turnId : String) : TurnTxn (TurnStore × Bool) :=
  if (s.currentRevision? hostId turnId).isSome then
    .ok (s, false)
  else do
    let revision ← contentRevision turnId none none .absent .absent
    let s₁ ← s.insertTurnContentRevision hostId revision true
    if (s₁.currentRevision? hostId turnId).isSome then
      return (s₁, false)
    else
      return (s₁.updateCurrent
        (fun r => r.hostId == hostId && r.turnId == turnId && r.contentRevision == revision) true,
        true)

/-- The row that `_insert_owned_turn_conn` inserts. -/
def ownedRow (R : TextRules) (hostId turnId : String) (item : Fields)
    (snapshotContentFingerprint observedAt : String) (listSequence : Nat) : StoredTurn where
  hostId
  turnId
  workerId := R.strOrEmpty (item.get? "worker_id")
  workerFingerprint := (item.get? "worker_fingerprint").getD .null
  spaceId := (item.get? "space_id").getD .null
  status := R.str (orText (item.get? "status") "unknown")
  kind := R.str (orText (item.get? "kind") "unknown")
  updatedAt := orText (item.get? "updated_at") observedAt
  fingerprint := R.strOrEmpty (item.get? "fingerprint")
  snapshotContentFingerprint
  observedAt
  payload := .object (stripCanonicalTurnPayload item)
  listSequence

def insertOwnedTurn (R : TextRules) (hostId : String) (item : Fields)
    (snapshotContentFingerprint observedAt : String) : TurnTxn TurnStore :=
  let turnId := R.strOrEmpty (item.get? "id")
  if turnId = "" then
    .error (.storeSchema "turn_owned_identity_missing")
  else if (s.turn? hostId turnId).isSome then
    .error (.storeSchema "turn_owner_source_identity_conflict")
  else
    let item := observedTurnPayload R turnId item
    let (s₁, listSequence) := s.nextSequence hostId
    (TurnTxn.demand (s₁.turns.insert
      (ownedRow R hostId turnId item snapshotContentFingerprint observedAt listSequence))).map
        fun turns => { s₁ with turns }

/-- What `_update_observed_turn_row` writes over a stored row. -/
def observedRow (R : TextRules) (t : StoredTurn) (payload : Fields)
    (currentTime snapshotContentFingerprint : String) : StoredTurn :=
  let item := observedTurnPayload R t.turnId payload
  { t with
    workerId := R.strOrEmpty (item.get? "worker_id")
    workerFingerprint := (item.get? "worker_fingerprint").getD .null
    spaceId := (item.get? "space_id").getD .null
    status := R.str (orText (item.get? "status") "unknown")
    kind := R.str (orText (item.get? "kind") "unknown")
    updatedAt :=
      match item.get? "updated_at" with
      | some v => if v.truthy then v else orText (some t.updatedAt) currentTime
      | none => orText (some t.updatedAt) currentTime
    fingerprint := R.strOrEmpty (item.get? "fingerprint")
    snapshotContentFingerprint
    observedAt :=
      if turnObservationIsNewer R currentTime t.observedAt then currentTime else t.observedAt
    payload := .object item }

def materialChanged (R : TextRules) (t t' : StoredTurn) : Bool :=
  !(t.workerId == t'.workerId && t.workerFingerprint.same t'.workerFingerprint &&
    t.spaceId.same t'.spaceId && t.status == t'.status && t.kind == t'.kind &&
    t.updatedAt.same t'.updatedAt && t.fingerprint == t'.fingerprint &&
    t.snapshotContentFingerprint == t'.snapshotContentFingerprint &&
    R.canonicalJson t.payload == R.canonicalJson t'.payload)

/-- `UPDATE turns SET ... WHERE host_id = ? AND turn_id = ?` of a row with a new content. -/
def setTurn (f : StoredTurn → StoredTurn) (hostId turnId : String)
    (keep : ∀ t, (f t).hostId = t.hostId ∧ (f t).turnId = t.turnId ∧
      (f t).listSequence = t.listSequence) : TurnStore :=
  { s with
    turns := s.turns.updateKeep (fun _ t => t.is hostId turnId) f fun t => by
      obtain ⟨hhost, hturn, hseq⟩ := keep t
      simp [storedTurnSchema, hhost, hturn, hseq] }

def updateObservedTurnRow (R : TextRules) (hostId turnId : String) (payload : Fields)
    (currentTime snapshotContentFingerprint : String) : TurnTxn (TurnStore × Bool) :=
  match s.turn? hostId turnId with
  | none => .error (.storeSchema "turn_persisted_identity_missing")
  | some (_, t) =>
    let t' := observedRow R t payload currentTime snapshotContentFingerprint
    if !materialChanged R t t' && t.observedAt == t'.observedAt then
      .ok (s, false)
    else
      .ok (s.setTurn (fun t => observedRow R t payload currentTime snapshotContentFingerprint)
        hostId turnId fun _ => ⟨rfl, rfl, rfl⟩, materialChanged R t t')

/-- The connector's operation on its view of the turns. A turn that it discards ends the
traversals of its host. -/
def ensureFinalReadyAnchor (R : TextRules) (hostId turnId : String) (revision : ContentRevision)
    (now : Int) : TurnTxn TurnStore :=
  match (s.view R).ensureFinalReadyAnchor hostId turnId revision now with
  | .error reason => .error (.connector reason)
  | .ok (c, _) =>
    let s₁ := s.afterConnector c
    if (s.turn? hostId turnId).isSome && (s₁.turn? hostId turnId).isNone then
      .ok (s₁.incrementTurnListGeneration hostId)
    else
      .ok s₁

/-! ### The merge -/

def turnIsTombstoned (R : TextRules) (payload : Fields) : Bool :=
  strip (R.strOrEmpty (payload.get? "superseded_at")) != ""

def ownedSourceTurnMatches (R : TextRules) (payload : Fields) (incoming : String) : Bool :=
  let stored := strip (R.strOrEmpty (payload.get? "source_turn_id"))
  match payload.get? "meta" with
  | some (.object metaFields) => stored != "" && incoming != "" &&
      (R.turnSourceIdCandidates (some (.text incoming)) metaFields (payload.get? "source")
        (payload.get? "kind")).contains stored
  | _ => false

def sourceTurnMatches (R : TextRules) (payload : Fields) (incoming : String) : Bool :=
  let stored := strip (R.strOrEmpty (payload.get? "source_turn_id"))
  stored != "" && incoming != "" &&
    (Turn.fromDict R (payload.set "source_turn_id" (.text incoming))).sourceTurnId == some stored

/-- The turn that an observation of a worker names, before any of its own state is seen. -/
def observedSeed (R : TextRules) (projection cleanContent : Fields) (incomingFinal : Option String)
    (observedAt incomingSource : String) : Fields :=
  let seed := projection.erase "origin_command_id"
  let seed :=
    if R.strOrEmpty (seed.get? "source") = "command" then seed.set "source" (.text "snapshot")
    else seed
  (seed.update (retainAuthoritativeCompletion cleanContent none [] incomingFinal observedAt)).set
    "source_turn_id" (.text incomingSource)

def observedItem (R : TextRules) (seed : Fields) : Fields :=
  ((stripCanonicalTurnPayload ((Turn.fromDict R seed).toDict R)).update
    (publicPendingTurnExtension R seed)).erase "origin_command_id"

/-- The stored payload with the metadata of an observation, and its content if it is newer. -/
def mergedPayload (R : TextRules) (stored item cleanContent : Fields)
    (current : Option ContentRevision) (incomingFinal : Option String)
    (observedAt storedObservedAt : String) : Fields :=
  let payload := observedMetadataKeys.foldl (fun payload key =>
    match item.get? key with
    | some v => payload.set key v
    | none => payload) stored
  let payload := payload.erase "origin_command_id"
  if turnObservationIsNewer R observedAt storedObservedAt then
    payload.update
      (retainAuthoritativeCompletion cleanContent current payload incomingFinal observedAt)
  else
    payload

/-- An observation of a turn: its worker's projection, the public part of its content and
its canonical texts. -/
structure TurnObservation where
  hostId : String
  projection : Fields
  cleanContent : Fields
  incomingUser : Option String
  incomingFinal : Option String
  observedAt : String
  snapshotContentFingerprint : String

namespace TurnObservation

variable (o : TurnObservation) (R : TextRules)

def incomingSource : String := strip (R.strOrEmpty (o.cleanContent.get? "source_turn_id"))

def item : Fields :=
  observedItem R
    (observedSeed R o.projection o.cleanContent o.incomingFinal o.observedAt (o.incomingSource R))

def turnId : String := R.strOrEmpty ((o.item R).get? "id")

end TurnObservation

/-- The branch of a turn that is not stored yet. -/
def insertObservedTurn (R : TextRules) (o : TurnObservation) : TurnTxn TurnStore := do
  let s₁ ← s.insertOwnedTurn R o.hostId (o.item R) o.snapshotContentFingerprint o.observedAt
  let (s₂, _) ← s₁.replaceCurrentTurnContent o.hostId (o.turnId R) none o.incomingUser
    o.incomingFinal
  let (s₃, _) ← s₂.ensureAbsentTurnContentRevision o.hostId (o.turnId R)
  return s₃

/-- The branch of a stored turn. -/
def updateObservedTurn (R : TextRules) (o : TurnObservation) (t : StoredTurn) :
    TurnTxn (TurnStore × Bool) := do
  let stored : Fields := R.sanitizePublicMapping t.loaded
  let current := (s.currentRevision? o.hostId (o.turnId R)).map (·.contentRevision)
  if turnIsTombstoned R stored ||
      (!ownedSourceTurnMatches R stored (o.incomingSource R) &&
        !sourceTurnMatches R stored (o.incomingSource R)) then
    .error (.storeSchema "turn_observed_identity_conflict")
  else
    let payload := mergedPayload R stored (o.item R) o.cleanContent current o.incomingFinal
      o.observedAt t.observedAt
    let (s₁, metadataChanged) ← s.updateObservedTurnRow R o.hostId (o.turnId R) payload
      o.observedAt o.snapshotContentFingerprint
    if turnObservationIsNewer R o.observedAt t.observedAt then
      let (s₂, revisionChanged) ← s₁.replaceCurrentTurnContent o.hostId (o.turnId R) current
        o.incomingUser o.incomingFinal
      let (s₃, repaired) ← s₂.ensureAbsentTurnContentRevision o.hostId (o.turnId R)
      return (s₃, metadataChanged || revisionChanged || repaired)
    else
      return (s₁, metadataChanged)

def applyObservedTurn (R : TextRules) (o : TurnObservation) : TurnTxn (TurnStore × Bool) :=
  match s.turn? o.hostId (o.turnId R) with
  | none => (s.insertObservedTurn R o).map (·, true)
  | some (_, t) => s.updateObservedTurn R o t

/-- The root of the current revision, if there is one. -/
def ensureCurrentAnchor (R : TextRules) (hostId turnId : String) (now : Int) :
    TurnTxn TurnStore :=
  match s.currentRevision? hostId turnId with
  | some r => s.ensureFinalReadyAnchor R hostId turnId r.contentRevision now
  | none => .ok s

/-- `_merge_observed_turn_content_conn`; the number is 1 for a change. -/
def mergeObservedTurnContent (R : TextRules) (o : TurnObservation) : TurnTxn (TurnStore × Nat) :=
  if o.incomingSource R = "" then
    .ok (s, 0)
  else if o.turnId R = "" then
    .error (.storeSchema "turn_observed_identity_missing")
  else do
    let (s₁, changed) ← s.applyObservedTurn R o
    let s₂ ← s₁.ensureCurrentAnchor R o.hostId (o.turnId R) (R.instant o.observedAt)
    return (s₂, if changed then 1 else 0)

/-! ### A re-observation that changes nothing -/

def rawOwnedSourceTurnCandidates (R : TextRules) (rawValue ownerKey source kind : String) :
    List String :=
  let raw := strip rawValue
  if raw = "" then
    []
  else if TextRules.isTurnSourceToken raw then
    [raw]
  else
    let token (publicMaterial : Fields) : String := "turnsrc-" ++ R.stableFingerprint
      (.object [("seed", .text raw), ("public", .object publicMaterial)])
    let ownerToken := token [("identity_domain", .text "stable-owner-source-v1"),
      ("stable_key", .text ownerKey), ("stable_key_version", .int 1), ("kind", .text kind)]
    let legacyToken := token [("source", .text source), ("kind", .text kind)]
    if ownerToken = legacyToken then [ownerToken] else [ownerToken, legacyToken]

def canonicalReobservationTextMatches (content : Fields) (key : String)
    (storedText : Option String) (storedState : ContentState) : Bool :=
  match content.get? key with
  | none | some .null | some (.text "") => true
  | some (.text raw) => storedText == some raw && storedState == .complete
  | some _ => false

/-- The values that a canonical re-observation must find in the stored payload. -/
def reobservedProjection (R : TextRules) (hostId workerId : String) (worker : Fields) : Fields := [
  ("host_id", .text hostId), ("worker_id", .text workerId),
  ("worker_fingerprint", match worker.get? "fingerprint" with
    | some v => if v.truthy then v else .null
    | none => .null),
  ("space_id", (worker.get? "space_id").getD .null),
  ("status", .text (R.str (orText (worker.get? "status") "unknown"))), ("kind", .text "task"),
  ("title", (worker.get? "name").getD .null), ("summary", (worker.get? "summary").getD .null),
  ("updated_at", (worker.get? "last_seen_at").getD .null),
  ("meta", .object (((worker.get? "meta").bind Value.object?).getD []))]

/-- The updates that the content asks for; none if a value has another type. -/
def expectedUpdates (content : Fields) : Option Fields := do
  let texts ← ["model", "assistant_stream_text"].mapM fun key =>
    match content.get? key with
    | none => some []
    | some .null => some [(key, Value.null)]
    | some (.text t) => some [(key, Value.text t)]
    | some _ => none
  let flags ← ["complete", "has_open_turn"].mapM fun key =>
    match content.get? key with
    | none => some []
    | some .null => some [(key, Value.null)]
    | some (.bool b) => some [(key, Value.bool b)]
    | some _ => none
  return (texts ++ flags).flatten

/-- The stored turn that an observation repeats, by its raw source id. -/
def reobservedTurn? (R : TextRules) (hostId ownerKey sourceTurnId : String) :
    Option StoredTurn :=
  match s.turns.table.select fun _ t =>
    t.hostId == hostId && t.untombstoned &&
      ((t.metaFields.get? "stable_key").bind Value.text?) == some ownerKey &&
      ((t.metaFields.get? "stable_key_version").bind Value.int?) == some 1 &&
      (rawOwnedSourceTurnCandidates R sourceTurnId ownerKey
        (R.str (orText (t.loaded.get? "source") "snapshot"))
        (R.str (orText (t.loaded.get? "kind") "unknown"))).contains
          (R.strOrEmpty (t.loaded.get? "source_turn_id")) with
  | [(_, t)] => some t
  | _ => none

def workerOwner (worker : Fields) : Option String :=
  turnOwnerIdentity (((worker.get? "meta").bind Value.object?).getD [])

/-- The turn of an exact re-observation, whose stored row already says all of it. -/
def unchangedTurn? (R : TextRules) (hostId workerId : String) (worker content : Fields) :
    Option StoredTurn := do
  let ownerKey ← workerOwner worker
  let sourceTurnId ← (content.get? "source_turn_id").bind Value.text?
  let t ← s.reobservedTurn? R hostId ownerKey sourceTurnId
  let current ← (s.currentRevision? hostId t.turnId).map (·.contentRevision)
  let payload := t.loaded
  guard (turnOwnerIdentity t.metaFields == some ownerKey)
  guard (canonicalReobservationTextMatches content "user_text" current.userText current.userState)
  guard (canonicalReobservationTextMatches content "assistant_final_text" current.finalText
    current.finalState)
  guard ((reobservedProjection R hostId workerId worker).all fun e =>
    Value.sameEntry (payload.get? e.1) e.2)
  let updates ← expectedUpdates content
  let incomingFinal := (content.get? "assistant_final_text").bind Value.text?
  let terminal := isTrue (payload.get? "complete") || current.finalState == .complete
  let completesNow := isTrue (content.get? "complete") || incomingFinal.any (· != "")
  if terminal || completesNow then
    guard ((payload.get? "completed_at").any Value.truthy)
    guard ((((updates.set "complete" (.bool true)).set "has_open_turn" (.bool false)).set
      "assistant_stream_text" .null).all fun e => Value.sameEntry (payload.get? e.1) e.2)
    return t
  else
    guard (updates.all fun e => Value.sameEntry (payload.get? e.1) e.2)
    return t

/-- Only the time of the observation is kept. -/
def touchTurn (R : TextRules) (t : StoredTurn) (observedAt : String) : TurnStore :=
  if turnObservationIsNewer R observedAt t.observedAt then
    s.setTurn (fun t => { t with observedAt }) t.hostId t.turnId fun _ => ⟨rfl, rfl, rfl⟩
  else
    s

/-- The observation that a worker's content makes. -/
def observation (R : TextRules) (hostId workerId : String) (worker : WorkerRow) (content : Fields)
    (observedAt : String) : TurnObservation where
  hostId
  projection := currentWorkerTurnProjection R hostId workerId worker.payload
  cleanContent := R.sanitizePublicMapping
    (content.filter fun e => turnContentFields.contains e.1 && e.1 != "user_text" &&
      e.1 != "assistant_final_text")
  incomingUser := R.sanitizeCanonicalTurnText (content.get? "user_text")
  incomingFinal := R.sanitizeCanonicalTurnText (content.get? "assistant_final_text")
  observedAt
  snapshotContentFingerprint := worker.snapshotContentFingerprint

def mergeTurnContent (R : TextRules) (hostId workerId : String) (content : Fields)
    (observedAt : String) : TurnTxn (TurnStore × Nat) :=
  if !content.any (fun e => turnContentFields.contains e.1) then
    .ok (s, 0)
  else
    match s.workers hostId workerId with
    | none => .ok (s, 0)
    | some worker =>
      match s.unchangedTurn? R hostId workerId worker.payload content with
      | some t => .ok (s.touchTurn R t observedAt, 0)
      | none =>
        let o := observation R hostId workerId worker content observedAt
        if R.isInternalAutomationTurnPayload ((Fields.set o.cleanContent "user_text"
            (.ofText? o.incomingUser)).set "assistant_final_text" (.ofText? o.incomingFinal)) then
          .ok (s, 0)
        else
          s.mergeObservedTurnContent R o

/-- `apply_turn_refresh`, as far as the turn tables go. -/
def applyTurnRefresh (R : TextRules) (hostId workerId : String) (content : Fields)
    (observedAt : String) : TurnTxn (TurnStore × Nat) :=
  match R.strictUtcTimestamp observedAt with
  | none => .error (.value "observed_at must be a UTC timestamp")
  | some currentTime => s.mergeTurnContent R hostId workerId content currentTime

end TurnStore

end Tendwire

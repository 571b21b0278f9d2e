import Tendwire.Herdr.Observations

/-!
# Worker records

What an item of an agent or a pane list says about a worker: the neutral public worker, the
private identity behind it, and the targets that it is sent to and its turns are read from.
-/

namespace Tendwire

open Json

/-- Where the backend sends to. -/
structure BackendTarget where
  kind : String
  value : String
  sendable : Bool
  reason : Option String
  deriving DecidableEq, Repr

def privateBackendTarget (kind value : String) : BackendTarget := ⟨kind, value, true, none⟩

structure Worker where
  id : String
  name : String
  status : String
  spaceId : Option String
  metaFields : Fields
  lastSeenAt : Option String
  summary : Option String
  fingerprint : String
  backendTarget : Option BackendTarget

/-- The comparison leaves the backend target out. -/
def Worker.same (a b : Worker) : Bool :=
  a.id == b.id && a.name == b.name && a.status == b.status && a.spaceId == b.spaceId &&
    Value.same (.object a.metaFields) (.object b.metaFields) && a.lastSeenAt == b.lastSeenAt &&
    a.summary == b.summary && a.fingerprint == b.fingerprint

structure WorkerRecord where
  worker : Worker
  privateFingerprint : String
  turnTargetKind : Option String
  turnTargetValue : Option String
  workspaceId : Option String
  paneId : Option String
  observedWorkspaceId : Option String
  observedPaneId : Option String
  identitySource : String
  terminalId : Option String
  agentSessionId : Option String
  paneInfoObserved : Bool
  unmatchedAgentObservation : Bool

def recordWithWorker (record : WorkerRecord) (worker : Worker) : WorkerRecord :=
  { record with worker }

/-! ### Pane identities -/

def herdrPublicIdAlphabet : List Char := "123456789ABCDEFGHJKMNPQRSTVWXYZ0".toList

def herdrHexWorkspaceIdLength : Nat := 14

def canonicalHerdrPaneIdentity (workspaceId paneId : Option String) : Option (String × String) := do
  let workspace ← workspaceId
  guard (workspace.startsWith "w")
  let number := workspace.toList.drop 1
  let legacyWorkspace := !number.isEmpty && number.all herdrPublicIdAlphabet.contains
  let currentHexWorkspace := number.length == herdrHexWorkspaceIdLength && number.all isLowerHexDigit
  guard (legacyWorkspace || currentHexWorkspace)
  let pane ← paneId
  let idPrefix := workspace ++ ":p"
  guard (pane.startsWith idPrefix)
  let publicNumber := pane.toList.drop idPrefix.toList.length
  guard (!publicNumber.isEmpty && publicNumber.all herdrPublicIdAlphabet.contains)
  pure (workspace, pane)

namespace ObservationRules

variable (R : ObservationRules)

/-! ### The public worker -/

def publicSafeText (value default : String) : String :=
  let raw := strip value
  if raw = "" || R.containsForbiddenPublicText raw then
    default
  else
    let text := R.sanitizePublicText raw
    if text = "" || R.containsForbiddenPublicText text then default else text

def optionalPublicSafeText (value : Option String) : Option String :=
  value.bind fun v => if R.publicSafeText v "" = "" then none else some (R.publicSafeText v "")

def publicSafeIdentity (label value : String) : String :=
  R.publicIdentity label (some (.text value)) "unknown"

def publicSafeFingerprint (value : String) : String :=
  let raw := strip value
  let text := R.sanitizePublicText raw
  if text = "" || text != raw || R.containsForbiddenPublicText text then "" else collapseSpaces text

def statusAndMeta (status : String) (metaFields : Fields) : String × Fields :=
  let rawStatus := strip (R.stringValue (some (.text status)) "unknown")
  let normalized := R.toTextRules.normalizeStatus (some (.text rawStatus))
  let cleanMeta := R.stripTurnApiVolatile (R.sanitizePublicMapping metaFields)
  let publicRawStatus := R.publicSafeText rawStatus ""
  if rawStatus ≠ "" ∧ replaceChar '_' '-' (R.lower rawStatus) ≠ normalized ∧
      publicRawStatus ≠ "" then
    (normalized, cleanMeta.set "raw_status" (.text publicRawStatus))
  else
    (normalized, cleanMeta)

/-- The worker that is made of raw fields; a fingerprint that is given is kept. -/
def makeWorker (raw : Worker) : Worker :=
  let id := R.publicSafeIdentity "worker" raw.id
  let name := R.publicSafeText raw.name id
  let status := (R.statusAndMeta raw.status raw.metaFields).1
  let metaFields := (R.statusAndMeta raw.status raw.metaFields).2
  let spaceId := raw.spaceId.map (R.publicSafeIdentity "space")
  let summary := R.optionalPublicSafeText raw.summary
  let given := R.publicSafeFingerprint raw.fingerprint
  let fingerprint :=
    if given = "" then
      R.stableFingerprint (.object [
        ("type", .text "worker"), ("id", .text id), ("name", .text name), ("status", .text status),
        ("space_id", .ofText? spaceId), ("summary", .ofText? summary),
        ("meta", .object metaFields)])
    else
      given
  { id, name, status, spaceId, metaFields, lastSeenAt := raw.lastSeenAt, summary, fingerprint
    backendTarget := raw.backendTarget }

/-- The worker made anew, with a fingerprint of what it is now. -/
def remakeWorker (raw : Worker) : Worker := R.makeWorker { raw with fingerprint := "" }

def workerWithId (w : Worker) (workerId : String) : Worker := R.remakeWorker { w with id := workerId }

def workerWithSummary (w : Worker) (summary : Option String) : Worker :=
  if summary = w.summary then w else R.remakeWorker { w with summary }

def workerWithBackendTarget (w : Worker) (backendTarget : Option BackendTarget) : Worker :=
  R.makeWorker { w with backendTarget }

@[simp] lemma backendTarget_makeWorker (w : Worker) :
    (R.makeWorker w).backendTarget = w.backendTarget := by
  simp only [makeWorker]

attribute [irreducible] makeWorker

@[simp] lemma backendTarget_remakeWorker (w : Worker) :
    (R.remakeWorker w).backendTarget = w.backendTarget := by
  simp only [remakeWorker, backendTarget_makeWorker]

@[simp] lemma worker_recordWithWorker (record : WorkerRecord) (w : Worker) :
    (recordWithWorker record w).worker = w := rfl

@[simp] lemma privateFingerprint_recordWithWorker (record : WorkerRecord) (w : Worker) :
    (recordWithWorker record w).privateFingerprint = record.privateFingerprint := rfl

@[simp] lemma backendTarget_workerWithBackendTarget (w : Worker) (target : Option BackendTarget) :
    (R.workerWithBackendTarget w target).backendTarget = target := by
  simp only [workerWithBackendTarget, backendTarget_makeWorker]

@[simp] lemma backendTarget_workerWithId (w : Worker) (workerId : String) :
    (R.workerWithId w workerId).backendTarget = w.backendTarget := by
  simp only [workerWithId, backendTarget_remakeWorker]

/-! ### What an item says -/

def observedStatus (value : Value) : String × Option String :=
  let rawText := R.str value
  let canonical := R.toTextRules.normalizeStatus (some (.text rawText))
  let rawKey := replaceChar '_' '-' (R.lower (strip rawText))
  (canonical, if rawText ≠ "" ∧ rawKey ≠ canonical then some rawText else none)

def statusFromItem (item : Fields) : String × Option String :=
  let value := statusKeys.findSome? fun key =>
    match R.valueForKey item key with
    | none | some .null => none
    | some v => some v
  (value.map R.observedStatus).getD ("unknown", none)

def metaFromItem (item : Fields) (excludedKeys : List String) (rawStatus : Option String) :
    Fields :=
  let item := R.stripStableKeyFields item
  let own : Fields := (item.filter fun e => !(R.fieldMatches e.1 "meta" ||
    excludedKeys.any (R.fieldMatches e.1) || R.isStatusField e.1)).map
      fun e => (e.1, R.stripStatusFields e.2)
  let explicit := (((R.valueForKey item "meta").bind Value.object?).getD []).filter
    fun e => !(R.isForbiddenConnectorField e.1 || R.isStatusField e.1)
  let merged : Fields :=
    explicit.foldl (fun m e => Fields.set m e.1 (R.stripStatusFields e.2)) own
  match rawStatus with
  | some raw => merged.set "raw_status" (.text raw)
  | none => merged

def publicWorkerIdBaseFromItem (item : Fields) : String :=
  (eitherText (eitherText (R.firstText item ["worker_id", "id", "slug", "agent_id"])
    (R.firstText item ["agent", "name", "label", "title"])) (some "unknown")).getD "unknown"

def workerNameFromItem (item : Fields) (workerId : String) : String :=
  (eitherText (R.firstText item ["agent", "label", "name", "title"]) (some workerId)).getD workerId

def workerSpaceIdFromItem (item : Fields) : Option String :=
  eitherText (eitherText (R.firstText item ["workspace_id", "space_id", "spaceId", "workspaceId"])
    (R.relatedId (R.valueForKey item "space"))) (R.relatedId (R.valueForKey item "workspace"))

def agentSession (item : Fields) : Option String := R.nestedText item ["agent_session", "value"]

def privateIdentityMaterialFromItem (item : Fields) : Fields :=
  let agentId := R.firstText item ["agent_id"]
  let session := R.agentSession item
  let sessionId := R.firstText item ["session_id"]
  let spaceId := R.workerSpaceIdFromItem item
  if presentText agentId || presentText session || presentText sessionId then
    [("agent_id", .ofText? agentId), ("agent_session", .ofText? session),
      ("session_id", .ofText? sessionId), ("space_id", .ofText? spaceId)]
  else
    [("public_id", .text (R.publicWorkerIdBaseFromItem item)),
      ("name", .ofText? (R.firstText item ["agent", "name", "label", "title"])),
      ("space_id", .ofText? spaceId), ("terminal_id", .ofText? (R.firstText item ["terminal_id"])),
      ("pane_id", .ofText? (R.firstText item ["pane_id"]))]

def workerBindingPrivateFingerprint (hostId backend : String) (identityMaterial : Fields) :
    String :=
  R.privateStableDigest (.object [("host_id", .text hostId), ("backend", .text backend),
    ("identity", .object identityMaterial)])

def privateIdentityFromItem (item : Fields) (config : Option ObservationConfig) : String :=
  match config with
  | none => R.adapterDigest (.object (R.privateIdentityMaterialFromItem item))
  | some c =>
    R.workerBindingPrivateFingerprint c.hostId backendName (R.privateIdentityMaterialFromItem item)

def backendTargetFromItem (item : Fields) : Option BackendTarget :=
  ["agent_id", "terminal_id", "pane_id", "agent", "name", "label"].findSome? fun kind =>
    match R.firstText item [kind] with
    | some value => if value = "" then none else some (privateBackendTarget kind value)
    | none => none

def turnTargetFromItem (item : Fields) : Option (String × String) :=
  let agentName := R.lower (strip ((R.firstText item ["agent", "name"]).getD ""))
  let present (text : Option String) := text.filter (· != "")
  match present (R.agentSession item) with
  | some session =>
    if agentName = "codex" then
      some ("codex_session_id", session)
    else if agentName = "omp" then
      some ("omp_session_path", session)
    else
      (present (R.firstText item ["pane_id"])).map fun pane => ("pane_id", pane)
  | none => (present (R.firstText item ["pane_id"])).map fun pane => ("pane_id", pane)

/-- The fields of an item that the metadata of its worker leaves out. -/
def workerMetaExcludedKeys : List String := [
  "id", "agent_id", "worker_id", "slug", "name", "title", "agent", "meta", "space_id",
  "workspace_id", "spaceId", "workspaceId", "space", "workspace", "last_seen_at", "updated_at",
  "observed_at", "timestamp", "summary", "status_line", "description", "fingerprint",
  "agent_status", "backend_target", "terminal_id", "pane_id", "agent_session", "session_id"]

def workerFromItem (item : Fields) : Worker :=
  let workerId := R.publicWorkerIdBaseFromItem item
  let observed := R.statusFromItem item
  R.remakeWorker {
    id := workerId
    name := R.workerNameFromItem item workerId
    status := observed.1
    spaceId := R.workerSpaceIdFromItem item
    metaFields := R.metaFromItem item workerMetaExcludedKeys observed.2
    lastSeenAt := R.firstText item ["last_seen_at", "updated_at", "observed_at", "timestamp"]
    summary := R.firstText item ["summary", "status_line", "description"]
    fingerprint := ""
    backendTarget := R.backendTargetFromItem item }

def outputExcerptLimit (config : Option ObservationConfig) : Option Nat :=
  config.map fun c => (max 1 c.outputExcerptChars).toNat

def boundedExcerpt (value : Option String) (limit : Option Nat) : Option String :=
  match value, limit with
  | some text, some limit =>
    if text.toList.length ≤ limit then
      some text
    else if limit ≤ 3 then
      some (prefixChars limit text)
    else
      some (prefixChars (limit - 3) text ++ "...")
  | _, _ => value

def workerRecordFromItem (item : Fields) (config : Option ObservationConfig)
    (paneInfoObserved : Bool) (identitySource : String) : WorkerRecord :=
  let item := R.stripTurnObservationFields item
  let worker := R.workerFromItem item
  let turnTarget := R.turnTargetFromItem item
  let observedWorkspaceId := R.firstText item ["workspace_id", "workspaceId"]
  let observedPaneId := R.firstText item ["pane_id", "paneId"]
  let canonicalIdentity := canonicalHerdrPaneIdentity observedWorkspaceId observedPaneId
  { worker := R.workerWithSummary worker
      (boundedExcerpt worker.summary (outputExcerptLimit config))
    privateFingerprint := R.privateIdentityFromItem item config
    turnTargetKind := turnTarget.map Prod.fst
    turnTargetValue := turnTarget.map Prod.snd
    workspaceId := canonicalIdentity.map Prod.fst
    paneId := canonicalIdentity.map Prod.snd
    observedWorkspaceId
    observedPaneId
    identitySource
    terminalId := R.firstText item ["terminal_id", "terminalId"]
    agentSessionId := eitherText (R.agentSession item) (R.firstText item ["session_id", "sessionId"])
    paneInfoObserved
    unmatchedAgentObservation := false }

variable {R} in
@[simp] lemma workerRecordFromItem_turnTargetKind {item : Fields}
    {config : Option ObservationConfig} {paneInfoObserved : Bool} {identitySource : String} :
    (R.workerRecordFromItem item config paneInfoObserved identitySource).turnTargetKind =
      (R.turnTargetFromItem (R.stripTurnObservationFields item)).map Prod.fst := rfl

variable {R} in
@[simp] lemma workerRecordFromItem_turnTargetValue {item : Fields}
    {config : Option ObservationConfig} {paneInfoObserved : Bool} {identitySource : String} :
    (R.workerRecordFromItem item config paneInfoObserved identitySource).turnTargetValue =
      (R.turnTargetFromItem (R.stripTurnObservationFields item)).map Prod.snd := rfl

def agentObservationRecord (item : Fields) (config : Option ObservationConfig) : WorkerRecord :=
  { R.workerRecordFromItem item config false "agent.list" with unmatchedAgentObservation := true }

end ObservationRules

end Tendwire

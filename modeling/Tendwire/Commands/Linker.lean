import Tendwire.Commands.Cleanup
import Tendwire.Graph.Component

/-!
# The submission linker

Open submissions and unlinked observed turns of one owner and one instruction form a
bipartite graph; each of its components is linked, terminalized or left to a later sweep.
Observation times and the linker's clock are microseconds; the ledger's own columns are whole
seconds.
-/

namespace Tendwire

open Relational Graph

def submissionSendAckTimeoutSeconds : Int := 5
def submissionLinkEmptyComponentRecheckSeconds : Int := 30

def micros (seconds : Int) : Int := seconds * 1000000

/-- What a JSON payload holds under `meta.stable_key_version`. -/
inductive MetaVersion where
  | missing
  | integer (n : Int)
  | other
deriving DecidableEq, Repr

/-- The columns of a turn, of its current revision and of its oldest revision that matching
reads. -/
structure ObservedTurn where
  hostId : String
  turnId : String
  workerId : String
  payloadId : Option String
  stableKey : Option String
  stableKeyVersion : MetaVersion
  sourceTurnId : String
  supersededAt : String
  currentUserText : Option (Option String)
  firstObservedAt : Option Int
deriving DecidableEq, Repr

def observedTurnSchema : Schema ObservedTurn (String × String) where
  check := fun _ => true
  keys := [fun t => some (t.hostId, t.turnId)]

/-- One match component family: a host's submissions and turns of one owner and instruction. -/
structure LinkKey where
  hostId : String
  ownerKey : String
  instructionFingerprint : String
deriving DecidableEq, Repr

def TurnSubmission.linkKey (t : TurnSubmission) : LinkKey :=
  ⟨t.hostId, t.ownerKey, t.instructionFingerprint⟩

/-- `linked_turn_id IS NULL AND state IN ('send_started', 'submitted', 'uncertain')`. -/
def TurnSubmission.isOpen (t : TurnSubmission) : Bool :=
  t.linkedTurnId.isNone && (t.state == .sendStarted || t.state == .submitted ||
    t.state == .uncertain)

structure CandidateTurn where
  turnId : String
  ownerVersion : Int
  observedAt : Int
deriving DecidableEq, Repr

/-- `_valid_final_stable_key`. -/
def validFinalStableKey (value : String) : Bool :=
  value.toList.take 5 == ['w', 's', 'k', '1', '_'] && value.length == 69 &&
    (value.toList.drop 5).all isLowerHexDigit

/-- `_turn_submission_owner_identity` of a stored turn. -/
def turnSubmissionOwnerIdentity (stableKey : Option String) (version : MetaVersion)
    (workerId : String) : Option (String × Int) :=
  match stableKey, version with
  | some key, .integer 1 =>
    if validFinalStableKey key then some (key, 1)
    else if strip workerId = "" then none else some ("legacy-worker:" ++ strip workerId, 0)
  | _, _ => if strip workerId = "" then none else some ("legacy-worker:" ++ strip workerId, 0)

/-- `_turn_link_candidate_owner_identity`: a missing version marker counts as the first. -/
def turnLinkCandidateOwnerIdentity (t : ObservedTurn) : Option (String × Int) :=
  match t.stableKey, t.stableKeyVersion with
  | some key, .missing =>
    if validFinalStableKey key then some (key, 1)
    else turnSubmissionOwnerIdentity t.stableKey t.stableKeyVersion t.workerId
  | _, _ => turnSubmissionOwnerIdentity t.stableKey t.stableKeyVersion t.workerId

/-- The digest of an instruction, which the linker takes from a library. -/
structure LinkLibrary where
  instructionFingerprint : String → String

/-- What the loop over the candidate rows makes of one of them. -/
def candidateOf (lib : LinkLibrary) (key : LinkKey) (t : ObservedTurn) : Option CandidateTurn :=
  match turnLinkCandidateOwnerIdentity t, t.currentUserText, t.firstObservedAt with
  | some (owner, version), some (some text), some observedAt =>
    if strip t.sourceTurnId ≠ "" ∧ version = 1 ∧ owner = key.ownerKey ∧
        lib.instructionFingerprint text = key.instructionFingerprint then
      some ⟨t.turnId, version, observedAt⟩
    else none
  | _, _, _ => none

structure LinkState where
  commands : CommandStore
  turns : Constrained observedTurnSchema
  /-- `_SUBMISSION_LINK_BACKOFF`: when a deferred key is eligible again. -/
  backoff : List (LinkKey × Int)

def LinkState.initial : LinkState := ⟨CommandStore.empty, Constrained.empty, []⟩

section Settling

variable (lib : LinkLibrary) (turns : Constrained observedTurnSchema) (key : LinkKey)

/-- The `WHERE` clause of the candidate query: a current, untombstoned turn that no submission
is linked to. -/
def linkCandidate (s : CommandStore) (t : ObservedTurn) : Option CandidateTurn :=
  if t.hostId == key.hostId && t.payloadId == some t.turnId && t.sourceTurnId != "" &&
      t.supersededAt == "" && t.currentUserText.isSome &&
      !s.submissions.table.any (fun _ linked => linked.hostId == t.hostId &&
        linked.linkedTurnId == some t.turnId) then
    candidateOf lib key t
  else
    none

/-- `_submission_link_candidate_turns_conn`. -/
def submissionLinkCandidateTurns (s : CommandStore) : List CandidateTurn :=
  (turns.table.rows.filterMap (fun e => linkCandidate lib key s e.2)).insertionSort
    (fun a b => a.turnId ≤ b.turnId)

def openSubmissions (s : CommandStore) : List TurnSubmission :=
  ((s.submissions.table.select (fun _ t => t.linkKey == key && t.isOpen)).map
    Prod.snd).insertionSort (fun a b => a.submissionId ≤ b.submissionId)

/-- An observation inside the submission's window. A queued prompt, a `send_started` row that
has its `submitted_at`, cannot use observations as evidence. -/
def linkEligible (t : TurnSubmission) (turn : CandidateTurn) : Bool :=
  !(t.state == .sendStarted && t.submittedAt.isSome) &&
    t.ownerKeyVersion == turn.ownerVersion &&
    decide (micros t.linkNotBefore ≤ turn.observedAt ∧ turn.observedAt ≤ micros t.linkExpiresAt)

def linkGraph (s : CommandStore) : Bipartite TurnSubmission CandidateTurn where
  left := openSubmissions key s
  right := submissionLinkCandidateTurns lib turns key s
  edge := linkEligible

/-- A sole fresh submission may link at once to its first observation after the send. -/
def instantLink (now : Int) (t : TurnSubmission) (turn : CandidateTurn) : Bool :=
  let staleSendStarted := t.state == .sendStarted && t.sendStartedAt.all (fun startedAt =>
    decide (micros startedAt + micros submissionSendAckTimeoutSeconds < now))
  let instantAnchor := if t.state = .sendStarted then t.sendStartedAt else t.submittedAt
  t.state != .uncertain && !staleSendStarted &&
    instantAnchor.any (fun anchor => decide (turn.observedAt ≤ now ∧
      micros anchor < turn.observedAt))

/-- What becomes of the component of a submission. A link that is made before the window
closes falls back to waiting for its boundary when the row was not updated. -/
inductive LinkDecision where
  | wait (boundary : Int)
  | expire (t : TurnSubmission)
  | link (t : TurnSubmission) (turn : CandidateTurn) (boundary : Option Int)
  | ambiguous (component : List TurnSubmission)
deriving DecidableEq, Repr

/-- `max(submission_expires[...])` over a component. -/
def componentBoundary (t : TurnSubmission) (component : List TurnSubmission) : Int :=
  component.foldl (fun boundary t' => max boundary t'.linkExpiresAt) t.linkExpiresAt

def linkDecision (g : Bipartite TurnSubmission CandidateTurn) (now : Int) (t : TurnSubmission) :
    LinkDecision :=
  if g.ofLeft t = [] then
    if now < micros t.linkExpiresAt then .wait t.linkExpiresAt else .expire t
  else
    let component := g.component t
    let boundary := componentBoundary t component.1
    match component with
    | ([only], [turn]) =>
      if now < micros boundary then
        if instantLink now only turn then .link only turn (some boundary) else .wait boundary
      else
        .link only turn none
    | (members, _) => if now < micros boundary then .wait boundary else .ambiguous members

/-- The guarded `UPDATE` of open rows by submission id. -/
def updateOpen (s : CommandStore) (members : List TurnSubmission)
    (f : TurnSubmission → TurnSubmission) : Except StoreError (CommandStore × Nat) :=
  s.updateSubmissions (fun _ t => t.hostId == key.hostId &&
    (members.map TurnSubmission.submissionId).contains t.submissionId && t.isOpen) f

def TurnSubmission.linkedTo (turnId : String) (now : Int) (t : TurnSubmission) :
    TurnSubmission :=
  { t with
    linkedTurnId := some turnId
    state := .linked
    linkedAt := some (now / 1000000)
    updatedAt := now / 1000000 }

def TurnSubmission.terminalized (state : SubmissionState) (now : Int) (t : TurnSubmission) :
    TurnSubmission :=
  { t with state := state, terminalAt := some (now / 1000000), updatedAt := now / 1000000 }

/-- The accumulators of the loop over the open submissions. -/
structure Settlement where
  store : CommandStore
  changed : Nat
  waiting : List Int
  visited : List TurnSubmission

/-- The statement of a decision. -/
def settleDecision (now : Int) (acc : Settlement) :
    LinkDecision → Except StoreError Settlement
  | .wait boundary => .ok { acc with waiting := acc.waiting ++ [boundary] }
  | .expire t =>
    match updateOpen key acc.store [t] (TurnSubmission.terminalized .expired now) with
    | .error e => .error e
    | .ok (s', count) => .ok { acc with store := s', changed := acc.changed + count }
  | .link t turn boundary =>
    match updateOpen key acc.store [t] (TurnSubmission.linkedTo turn.turnId now) with
    | .error e => .error e
    | .ok (s', count) => .ok { acc with
        store := s'
        changed := acc.changed + count
        waiting := if count = 1 then acc.waiting else acc.waiting ++ boundary.toList }
  | .ambiguous members =>
    match updateOpen key acc.store members (TurnSubmission.terminalized .ambiguous now) with
    | .error e => .error e
    | .ok (s', count) => .ok { acc with store := s', changed := acc.changed + count }

/-- One pass of the loop: the members of a component that is settled are not met again. -/
def settleSubmission (g : Bipartite TurnSubmission CandidateTurn) (now : Int) (acc : Settlement)
    (t : TurnSubmission) : Except StoreError Settlement :=
  if t ∈ acc.visited then
    .ok acc
  else
    settleDecision key now
      (if g.ofLeft t = [] then acc else { acc with visited := acc.visited ++ (g.component t).1 })
      (linkDecision g now t)

/-- `settle_submission_links_conn`, with `_next_eligible_out`. -/
def settleSubmissionLinks (s : CommandStore) (now : Int) :
    Except StoreError (CommandStore × Nat × Option Int) :=
  let g := linkGraph lib turns key s
  match g.left.foldlM (settleSubmission key g now) ⟨s, 0, [], []⟩ with
  | .error e => .error e
  | .ok acc => .ok (acc.store, acc.changed, acc.waiting.min?)

end Settling

/-! ### The backoff cache -/

/-- `_rearm_submission_link_component`. -/
def rearm (backoff : List (LinkKey × Int)) (key : LinkKey) : List (LinkKey × Int) :=
  backoff.filter (fun e => e.1 != key)

/-- `_submission_link_component_is_due`: a deferral that has passed is dropped. -/
def componentIsDue (backoff : List (LinkKey × Int)) (key : LinkKey) (now : Int) :
    Bool × List (LinkKey × Int) :=
  match backoff.lookup key with
  | none => (true, backoff)
  | some nextEligible =>
    if now < nextEligible then (false, backoff) else (true, rearm backoff key)

/-- `_backoff_submission_link_component`. -/
def backOff (backoff : List (LinkKey × Int)) (key : LinkKey) (nextEligible : Option Int)
    (now : Int) : List (LinkKey × Int) :=
  (key, nextEligible.elim (now + micros submissionLinkEmptyComponentRecheckSeconds) micros) ::
    rearm backoff key

/-- `_prune_submission_link_backoff`. -/
def pruneBackoff (backoff : List (LinkKey × Int)) (hostId : Option String)
    (active : List LinkKey) : List (LinkKey × Int) :=
  backoff.filter (fun e => !(hostId.all (fun host => e.1.hostId == host)) || active.contains e.1)

/-! ### Sweeps -/

/-- `ORDER BY host_id, owner_key, instruction_fingerprint`. -/
def LinkKey.before (a b : LinkKey) : Bool :=
  decide (a.hostId < b.hostId) || (a.hostId == b.hostId &&
    (decide (a.ownerKey < b.ownerKey) || (a.ownerKey == b.ownerKey &&
      decide (a.instructionFingerprint ≤ b.instructionFingerprint))))

/-- The keys with an open submission whose window has begun. -/
def dueLinkKeys (s : CommandStore) (hostId : Option String) (now : Int) : List LinkKey :=
  (((s.submissions.table.select (fun _ t => t.isOpen && decide (t.linkNotBefore ≤ now) &&
    hostId.all (fun host => t.hostId == host))).map (fun e => e.2.linkKey)).dedup).insertionSort
      (fun a b => a.before b = true)

/-- One pass of the sweep over a due key. With the cache disabled every key is due. -/
def settleDueKey (lib : LinkLibrary) (cached : Bool) (turns : Constrained observedTurnSchema)
    (now : Int) (acc : CommandStore × List (LinkKey × Int)) (key : LinkKey) :
    Except StoreError (CommandStore × List (LinkKey × Int)) :=
  let due := componentIsDue acc.2 key (micros now)
  if cached && !due.1 then
    .ok acc
  else
    match settleSubmissionLinks lib turns key acc.1 (micros now) with
    | .error e => .error e
    | .ok (s', changed, nextEligible) =>
      if changed ≠ 0 then .ok (s', rearm due.2 key)
      else .ok (s', backOff due.2 key nextEligible (micros now))

/-- `_settle_due_submission_links_conn`. -/
def settleDueSubmissionLinks (lib : LinkLibrary) (cached : Bool) (s : LinkState)
    (hostId : Option String) (now : Int) : Except StoreError LinkState :=
  let keys := dueLinkKeys s.commands hostId now
  match keys.foldlM (settleDueKey lib cached s.turns now)
      (s.commands, pruneBackoff s.backoff hostId keys) with
  | .error e => .error e
  | .ok (commands, backoff) => .ok { s with commands := commands, backoff := backoff }

/-- `sweep_submission_links`: the due keys, then the rows that outlived their hard TTL. -/
def sweepSubmissionLinks (lib : LinkLibrary) (cached : Bool) (s : LinkState)
    (hostId : Option String) (now : Int) : Except StoreError LinkState :=
  match settleDueSubmissionLinks lib cached s hostId now with
  | .error e => .error e
  | .ok s' =>
    match expireTurnSubmissions s'.commands hostId now with
    | .error e => .error e
    | .ok commands => .ok { s' with commands := commands }

/-! ### The machine -/

/-- `cancel_turn_submission`. -/
def cancelTurnSubmission (s : CommandStore) (hostId requestId : String) (now : Int) :
    Except StoreError (CommandStore × Bool) :=
  match s.updateSubmissions (fun _ t => t.hostId == hostId && t.requestId == requestId &&
      t.linkedTurnId.isNone && t.state.next.contains .cancelled)
    (fun t => { t with state := .cancelled, terminalAt := some now, updatedAt := now }) with
  | .error e => .error e
  | .ok (s', count) => .ok (s', count == 1)

/-- The row of a request. -/
def CommandStore.submissionOf (s : CommandStore) (hostId requestId : String) :
    Option (Nat × TurnSubmission) :=
  s.submissions.table.first? (fun _ t => t.hostId == hostId && t.requestId == requestId)

/-- `settle_submission_link_for_request`. -/
def settleSubmissionLinkForRequest (lib : LinkLibrary) (s : LinkState)
    (hostId requestId : String) (now : Int) : Except StoreError CommandStore :=
  match s.commands.submissionOf hostId requestId with
  | none => .ok s.commands
  | some (_, t) =>
    match settleSubmissionLinks lib s.turns ⟨hostId, t.ownerKey, t.instructionFingerprint⟩
        s.commands (micros now) with
    | .error e => .error e
    | .ok (s', _) => .ok s'

inductive LinkCall where
  | command (call : CommandCall)
  /-- Turns are written: by a refresh, which re-arms the key of its observation and settles it
  when the worker's identity is current, or by any path that does neither. -/
  | observe (turns : Constrained observedTurnSchema) (rearmed settled : Option LinkKey)
      (now : Int)
  | settleRequest (hostId requestId : String) (now : Int)
  | sweep (hostId : Option String) (now : Int)
  | sweepExpired (hostId : Option String) (now : Int)
  | cancel (hostId requestId : String) (now : Int)

/-- The key that `_insert_turn_submission_conn` re-arms. -/
def MarkCall.linkKey? (call : MarkCall) : Option LinkKey :=
  call.submission.bind fun seed => seed.ownerIdentity.map fun owner =>
    ⟨call.ref.hostId, owner.1, seed.instructionFingerprint⟩

/-- A transaction on the ledger: a raised error keeps the store. -/
def LinkState.commit (s : LinkState) (body : Except StoreError CommandStore) : LinkState :=
  match body with
  | .ok commands => { s with commands := commands }
  | .error _ => s

def linkStep (commandLib : CommandLibrary) (lib : LinkLibrary) (cached : Bool) (s : LinkState) :
    LinkCall → LinkState
  /- The linker's effects are calls of their own here. -/
  | .command (.rewriteSubmissions _) => s
  | .command (.markSendStarted call) =>
    { s with
      commands := (commandStep commandLib s.commands (.markSendStarted call)).1
      backoff := match markCommandSendStarted commandLib s.commands call, call.linkKey? with
        | .ok (_, ⟨.sendStarted, _, _⟩), some key => rearm s.backoff key
        | _, _ => s.backoff }
  | .command call => { s with commands := (commandStep commandLib s.commands call).1 }
  | .observe turns rearmed settled now =>
    let s' : LinkState :=
      { s with turns := turns, backoff := rearmed.elim s.backoff (rearm s.backoff) }
    match settled with
    | none => s'
    | some key =>
      s'.commit ((settleSubmissionLinks lib turns key s.commands now).map Prod.fst)
  | .settleRequest hostId requestId now =>
    s.commit (settleSubmissionLinkForRequest lib s hostId requestId now)
  | .sweep hostId now =>
    match sweepSubmissionLinks lib cached s hostId now with
    | .ok s' => s'
    | .error _ => s
  | .sweepExpired hostId now => s.commit (expireTurnSubmissions s.commands hostId now)
  | .cancel hostId requestId now =>
    s.commit ((cancelTurnSubmission s.commands hostId requestId now).map Prod.fst)

/-- The states of a run from an empty store. -/
def linkRun (commandLib : CommandLibrary) (lib : LinkLibrary) (cached : Bool) :
    List LinkCall → LinkState
  | [] => .initial
  | call :: earlier => linkStep commandLib lib cached (linkRun commandLib lib cached earlier) call

end Tendwire

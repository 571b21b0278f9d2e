import Tendwire.Commands.Authority

/-!
# Receipt retention and the machine of all calls

Cleanup closes sends that outlived the retry horizon and deletes inactive receipts beyond
both the age and the count bound, a bounded batch at a time.
-/

namespace Tendwire

open Relational

/-- `_expire_turn_submissions_conn`. -/
def expireTurnSubmissions (s : CommandStore) (hostId : Option String) (now : Int) :
    Except StoreError CommandStore :=
  match s.updateSubmissions (fun _ t => t.linkedTurnId.isNone &&
      t.state.next.contains .expired && decide (t.hardExpiresAt ≤ now) &&
      hostId.all (fun host => t.hostId == host))
    (fun t => { t with state := .expired, terminalAt := some now, updatedAt := now }) with
  | .error e => .error e
  | .ok (s', _) => .ok s'

namespace CommandReceipt

/-- Rows that retention may delete: terminal ones and expired reservations. -/
def inactive (r : CommandReceipt) (now : Int) : Bool :=
  r.state.isTerminal ||
    (r.state == .reserved && r.ownerExpiresAt.any (fun expiresAt => decide (expiresAt ≤ now)))

/-- `ORDER BY at, host_id, id`. -/
def orderedBy (key : CommandReceipt → Int) (a b : Nat × CommandReceipt) : Bool :=
  decide (key a.2 < key b.2) ||
    (key a.2 == key b.2 &&
      (decide (a.2.hostId < b.2.hostId) || (a.2.hostId == b.2.hostId && decide (a.1 ≤ b.1))))

/-- `ORDER BY retention_at DESC, id DESC`, strictly. -/
def retainedBefore (a b : Nat × CommandReceipt) : Bool :=
  decide (b.2.retentionAt < a.2.retentionAt) ||
    (a.2.retentionAt == b.2.retentionAt && decide (b.1 < a.1))

end CommandReceipt

def CleanupCall.valid (c : CleanupCall) : Bool :=
  decide (0 < c.retryHorizonSeconds ∧ 0 < c.retentionSeconds ∧ 0 < c.retentionCount ∧
    0 < c.batchSize ∧ c.retryHorizonSeconds ≤ commandRetryHorizonSeconds ∧
    commandReceiptRetentionMinSeconds ≤ c.retentionSeconds ∧
    c.retentionSeconds ≤ maxTimedeltaSeconds ∧ c.retryHorizonSeconds < c.retentionSeconds ∧
    c.retentionCount ≤ sqliteMaxInteger ∧ c.batchSize ≤ commandReceiptRetentionBatchMax)

/-- The policy of the call, with the defaults in place of an invalid one. -/
def CleanupCall.baseResult (c : CleanupCall) : CleanupResult where
  ok := false
  status := "invalid_policy"
  hostId := c.hostId
  dryRun := c.dryRun
  retryHorizonSeconds := if c.valid then c.retryHorizonSeconds else commandRetryHorizonSeconds
  retentionSeconds := if c.valid then c.retentionSeconds else commandReceiptRetentionSeconds
  retentionCount := if c.valid then c.retentionCount else commandReceiptRetentionCount
  batchSize := if c.valid then c.batchSize else commandReceiptRetentionBatchSize
  cutoffAt := c.now - (if c.valid then c.retentionSeconds else commandReceiptRetentionSeconds)
  retryCutoffAt := c.now -
    (if c.valid then c.retryHorizonSeconds else commandRetryHorizonSeconds)
  examined := 0
  staleActive := 0
  deleted := 0
  remainingCandidates := false

/-- Sends older than the retry horizon, one more than a batch. -/
def staleRows (s : CommandStore) (c : CleanupCall) : List (Nat × CommandReceipt) :=
  ((s.receipts.table.select (fun _ r => r.state == .sendStarted &&
      decide (r.sendStartedAt.getD r.updatedAt < c.baseResult.retryCutoffAt) &&
      c.hostId.all (fun host => r.hostId == host))).insertionSort
    (fun a b => CommandReceipt.orderedBy CommandReceipt.updatedAt a b = true)).take
      (c.batchSize.toNat + 1)

/-- `retention_rank`: the place of a row among the inactive rows of its host. -/
def retentionRank (rows : List (Nat × CommandReceipt)) (e : Nat × CommandReceipt) : Nat :=
  (rows.filter (fun e' => e'.2.hostId == e.2.hostId && CommandReceipt.retainedBefore e' e)).length
    + 1

/-- Inactive rows beyond both bounds, in deletion order. -/
def deletionCandidates (s : CommandStore) (c : CleanupCall) : List (Nat × CommandReceipt) :=
  let inactive := s.receipts.table.select (fun _ r => r.inactive c.now &&
    c.hostId.all (fun host => r.hostId == host))
  (inactive.filter (fun e => decide (e.2.retentionAt < c.baseResult.cutoffAt) &&
      decide (c.retentionCount < (retentionRank inactive e : Int)))).insertionSort
    (fun a b => CommandReceipt.orderedBy CommandReceipt.retentionAt a b = true)

/-- The body of the loop over stale sends. -/
def closeStaleSend (now : Int) (s : CommandStore) (n : Nat) : Except StoreError CommandStore :=
  match s.updateReceipts (fun m r => m == n && r.state == .sendStarted)
      (fun r => r.terminated .uncertain "request_state_uncertain"
        commandRequestUncertainResultJson now) with
  | .error e => .error e
  | .ok (s', _) =>
    match s'.receipts.get? n with
    | none => .ok s'
    | some row => terminalizeTurnSubmission s' row.hostId row.requestId .uncertain now

/-- The body of the loop over rows to delete. -/
def deleteReceipt (now : Int) (s : CommandStore) (e : Nat × CommandReceipt) : CommandStore where
  receipts := s.receipts.deleteWhere (fun m r => m == e.1 && r.inactive now)
  submissions := s.submissions.deleteWhere (fun _ t =>
    t.hostId == e.2.hostId && t.requestId == e.2.requestId)

/-- Close the stale sends of a batch, then select the rows its remaining capacity deletes. -/
def cleanupBatch (s : CommandStore) (c : CleanupCall) :
    Except StoreError (CommandStore × CleanupResult) :=
  let batch := c.batchSize.toNat
  let base := { c.baseResult with ok := true, status := "ok" }
  match (if c.dryRun then .ok s else expireTurnSubmissions s c.hostId c.now) with
  | .error e => .error e
  | .ok s₁ =>
    let stale := staleRows s₁ c
    let staleIds := (stale.take batch).map Prod.fst
    let staleOverflow := decide (staleIds.length < stale.length)
    match (if c.dryRun then .ok s₁ else staleIds.foldlM (closeStaleSend c.now) s₁) with
    | .error e => .error e
    | .ok s₂ =>
      let capacity := batch - staleIds.length
      let candidates := deletionCandidates s₂ c
      let selected :=
        if 0 < capacity && !staleOverflow then candidates.take capacity else []
      let deletionOverflow :=
        !staleOverflow && decide (capacity < candidates.length)
      let result := { base with
        examined := staleIds.length + selected.length
        staleActive := staleIds.length
        deleted := selected.length
        remainingCandidates := staleOverflow || deletionOverflow }
      .ok (if c.dryRun then s else selected.foldl (deleteReceipt c.now) s₂, result)

def cleanupCommandRequestRetention (s : CommandStore) (c : CleanupCall) :
    Except StoreError (CommandStore × CleanupResult) :=
  if c.valid then cleanupBatch s c else .ok (s, c.baseResult)

/-! ### The machine -/

inductive CommandCall where
  | reserve (call : ReserveCall)
  | abandon (ref : ReceiptRef) (ownerToken : String) (now : Int)
  | replay (call : ReplayCall)
  | markSendStarted (call : MarkCall)
  | recordSendQueued (ref : ReceiptRef) (ownerToken resultJson : String) (now : Int)
  | finishQueued (ref : ReceiptRef) (queuedResultJson acceptedResultJson : String) (now : Int)
  | finishUnverifiedQueued (ref : ReceiptRef) (queuedResultJson uncertainResultJson : String)
      (now : Int)
  | recoverUnresolved (ref : ReceiptRef) (unresolvedResultJson uncertainResultJson : String)
      (now : Int)
  | finish (call : FinishCall)
  | cleanup (call : CleanupCall)
  /-- The submission linker and its sweeps, which write no receipt. -/
  | rewriteSubmissions (submissions : Constrained submissionSchema)

inductive CommandAnswer where
  | response (response : CommandResponse)
  | abandoned (released : Bool)
  | cleaned (result : CleanupResult)
  | raised (error : StoreError)
  | none

/-- Commit the transaction or roll it back. -/
def transact {α : Type} (s : CommandStore) (answer : α → CommandAnswer)
    (body : Except StoreError (CommandStore × α)) : CommandStore × CommandAnswer :=
  match body with
  | .ok (s', a) => (s', answer a)
  | .error e => (s, .raised e)

def commandStep (lib : CommandLibrary) (s : CommandStore) : CommandCall → CommandStore × CommandAnswer
  | .reserve call => transact s .response (reserveCommandRequest lib s call)
  | .abandon ref ownerToken now =>
    transact s .abandoned (abandonCommandRequestReservation lib s ref ownerToken now)
  | .replay call => transact s .response (reserveTerminalCommandReplay lib s call)
  | .markSendStarted call => transact s .response (markCommandSendStarted lib s call)
  | .recordSendQueued ref ownerToken resultJson now =>
    transact s .response (recordCommandSendQueued lib s ref ownerToken resultJson now)
  | .finishQueued ref queued accepted now =>
    transact s .response (finishQueuedCommandRequest s ref queued accepted now)
  | .finishUnverifiedQueued ref queued uncertain now =>
    transact s .response (finishUnverifiedQueuedCommandRequest s ref queued uncertain now)
  | .recoverUnresolved ref unresolved uncertain now =>
    transact s .response (recoverUnresolvedCommandSend s ref unresolved uncertain now)
  | .finish call => transact s .response (finishCommandRequest lib s call)
  | .cleanup call => transact s .cleaned (cleanupCommandRequestRetention s call)
  | .rewriteSubmissions submissions => ({ s with submissions := submissions }, .none)

def commandMachine (lib : CommandLibrary) :
    Transition.Machine CommandStore CommandCall CommandAnswer := ⟨commandStep lib⟩

end Tendwire

import Tendwire.Relational.Schema
import Tendwire.Text

/-!
# Command receipts

The receipt row of one host/request mutation, the shadow row of its turn submission, and
the store that holds both tables under their constraints.
-/

namespace Tendwire

open Relational

inductive ReceiptState where
  | reserved
  | sendStarted
  | accepted
  | rejected
  | uncertain
deriving DecidableEq, Repr

/-- `_COMMAND_REQUEST_TERMINAL_STATES`. -/
def ReceiptState.isTerminal : ReceiptState → Bool
  | reserved | sendStarted => false
  | accepted | rejected | uncertain => true

/-- Timestamps are whole seconds of one clock, as `_command_request_now` stores them. -/
structure CommandReceipt where
  hostId : String
  requestId : String
  action : String
  canonicalVersion : Int
  canonicalFingerprint : String
  canonicalRequestJson : String
  publicWorkerId : String
  state : ReceiptState
  status : String
  resultJson : String
  ownerTokenHash : String
  ownerExpiresAt : Option Int
  bindingFingerprint : Option String
  createdAt : Int
  reservedAt : Int
  sendStartedAt : Option Int
  terminalAt : Option Int
  updatedAt : Int
  legacyCollision : Bool
  legacyCollisionCount : Nat
  selectorProof : String
deriving DecidableEq, Repr

namespace CommandReceipt

/-- The `CHECK` clauses of `command_receipts`. -/
def check (r : CommandReceipt) : Bool :=
  decide (0 ≤ r.canonicalVersion) &&
  (if r.state.isTerminal then
    r.terminalAt.isSome && r.ownerTokenHash == "" && r.ownerExpiresAt.isNone
  else
    r.terminalAt.isNone && r.ownerTokenHash != "" && r.status == "pending") &&
  (r.state != .accepted || (r.status == "accepted" && r.sendStartedAt.isSome)) &&
  (r.state != .uncertain || r.status == "request_state_uncertain") &&
  (r.state != .rejected ||
    !(["pending", "accepted", "request_state_uncertain"].contains r.status)) &&
  (!r.legacyCollision || (r.state == .uncertain && decide (2 ≤ r.legacyCollisionCount)))

/-- `COALESCE(terminal_at, updated_at)`. -/
def retentionAt (r : CommandReceipt) : Int := r.terminalAt.getD r.updatedAt

end CommandReceipt

def receiptSchema : Schema CommandReceipt (String × String) where
  check := CommandReceipt.check
  keys := [fun r => some (r.hostId, r.requestId)]

inductive SubmissionState where
  | sendStarted
  | submitted
  | uncertain
  | linked
  | ambiguous
  | expired
  | cancelled
deriving DecidableEq, Repr

/-- `TURN_SUBMISSION_STATE_TRANSITIONS`. -/
def SubmissionState.next : SubmissionState → List SubmissionState
  | sendStarted => [submitted, uncertain, linked, ambiguous, expired, cancelled]
  | submitted => [linked, ambiguous, expired, cancelled]
  | uncertain => [linked, ambiguous, expired, cancelled]
  | linked | ambiguous | expired | cancelled => []

structure TurnSubmission where
  hostId : String
  submissionId : String
  requestId : String
  ownerKey : String
  ownerKeyVersion : Int
  instructionFingerprint : String
  state : SubmissionState
  linkedTurnId : Option String
  linkNotBefore : Int
  linkExpiresAt : Int
  hardExpiresAt : Int
  linkedAt : Option Int
  terminalAt : Option Int
  submittedAt : Option Int
  sendStartedAt : Option Int
  updatedAt : Int
deriving DecidableEq, Repr

/-- Two unique keys, and a third that only linked rows have. -/
def submissionSchema : Schema TurnSubmission (String × String) where
  check := fun _ => true
  keys := [fun r => some (r.hostId, r.submissionId), fun r => some (r.hostId, r.requestId),
    fun r => r.linkedTurnId.map (fun turnId => (r.hostId, turnId))]

structure CommandStore where
  receipts : Constrained receiptSchema
  submissions : Constrained submissionSchema
deriving DecidableEq

inductive StoreError where
  | valueError (message : String)
  | runtimeError (message : String)
  | schemaError (message : String)
  | integrityError
  | effectError
deriving DecidableEq, Repr

namespace CommandStore

def empty : CommandStore := ⟨Constrained.empty, Constrained.empty⟩

/-- `_command_request_row`. -/
def commandRequestRow (s : CommandStore) (hostId requestId : String) :
    Option (Nat × CommandReceipt) :=
  s.receipts.table.first? (fun _ r => r.hostId == hostId && r.requestId == requestId)

/-- `UPDATE command_receipts SET f WHERE p`, with its row count. -/
def updateReceipts (s : CommandStore) (p : Nat → CommandReceipt → Bool)
    (f : CommandReceipt → CommandReceipt) : Except StoreError (CommandStore × Nat) :=
  match s.receipts.updateWhere p f with
  | some receipts => .ok ({ s with receipts := receipts }, (s.receipts.table.select p).length)
  | none => .error .integrityError

def insertReceipt (s : CommandStore) (r : CommandReceipt) : Except StoreError CommandStore :=
  match s.receipts.insert r with
  | some receipts => .ok { s with receipts := receipts }
  | none => .error .integrityError

def updateSubmissions (s : CommandStore) (p : Nat → TurnSubmission → Bool)
    (f : TurnSubmission → TurnSubmission) : Except StoreError (CommandStore × Nat) :=
  match s.submissions.updateWhere p f with
  | some submissions =>
    .ok ({ s with submissions := submissions }, (s.submissions.table.select p).length)
  | none => .error .integrityError

/-- The key of a request determines its receipt row. -/
theorem commandRequestRow_unique {s : CommandStore} {n : Nat} {r : CommandReceipt}
    (h : s.receipts.get? n = some r) :
    s.commandRequestRow r.hostId r.requestId = some (n, r) := by
  unfold commandRequestRow
  cases hrow : s.receipts.table.first? (fun _ r' => r'.hostId == r.hostId &&
      r'.requestId == r.requestId) with
  | none => simpa using Table.first?_eq_none hrow h
  | some e =>
    obtain ⟨m, r'⟩ := e
    obtain ⟨hm, hkey⟩ := Table.first?_eq_some hrow
    simp only [Bool.and_eq_true, beq_iff_eq] at hkey
    have hnm : n = m := s.receipts.eq_of_key (List.mem_singleton_self _) h hm rfl
      (by simp [hkey])
    subst hnm
    rw [Constrained.get?] at h
    rw [h] at hm
    simpa using hm.symm

theorem commandRequestRow_spec {s : CommandStore} {hostId requestId : String} {n : Nat}
    {r : CommandReceipt} (h : s.commandRequestRow hostId requestId = some (n, r)) :
    s.receipts.get? n = some r ∧ r.hostId = hostId ∧ r.requestId = requestId := by
  obtain ⟨hr, hkey⟩ := Table.first?_eq_some h
  simp only [Bool.and_eq_true, beq_iff_eq] at hkey
  exact ⟨hr, hkey.1, hkey.2⟩

end CommandStore

end Tendwire

import Tendwire.Connector.Poll
import Tendwire.Transition.Loop

/-!
# The connector as a machine

Every operation is one transaction: it answers and commits, or it is refused and changes
nothing. A turn transaction writes the turn tables and ensures final roots in any order.
-/

namespace Tendwire.Connector

/-- The root is ensured for a revision stored under its turn. -/
inductive TurnStep where
  | write (turns : Relational.Constrained turnSchema)
      (revisions : Relational.Constrained revisionSchema)
  | ensure (hostId : String) (revision : ContentRevision) (now : Int)

inductive Call where
  | refreshTurns (steps : List TurnStep)
  | enqueue (hostId connector key json : String) (migrationGroup : Option String) (now : Int)
  | poll (req : PollRequest) (now : Int)
  | renew (hostId name : String) (ref : Nat) (leaseSeconds now : Int)
  | release (hostId name : String) (ref : Nat) (now : Int)
  | ack (hostId name : String) (ref : Nat) (ackTtlSeconds now : Int)
  | setback (setback : Setback) (hostId name : String) (ref : Nat) (availableAt : Option Int)
      (delaySeconds : Option Int) (now : Int)
  | reclaim (hostId : String) (name : Option String) (now : Int)
  | exhaust (hostId : String) (maxAttempts now : Int)
  | planBegin (req : PlanBegin) (now : Int)
  | planPart (hostId name : String) (token : PlanToken) (ordinal : Nat) (spans : List Span)
      (now : Int)
  | planCommit (req : PlanCommit) (now : Int)
  | planRecover (req : PlanRecover) (now : Int)
  | finalRetry (hostId : String) (identity : FinalIdentity) (now : Int)

inductive Answer where
  | refused (reason : Refusal)
  | done
  | count (rows : Nat)
  | items (items : List PollItem)
  | renewed (receipt : RenewReceipt)
  | settled (receipt : SettleReceipt)
  | plan (receipt : PlanReceipt)
  | recovered (receipt : RecoveryReceipt)
  | retried (receipt : FinalRetryReceipt)
  deriving DecidableEq

namespace Store

variable (s : Store)

def applyTurnStep (s : Store) : TurnStep → Txn Store
  | .write turns revisions => .ok { s with turns, revisions }
  | .ensure hostId revision now =>
    (s.ensureFinalReadyAnchor hostId revision.turnId revision now).map Prod.fst

/-- A row of another connector. -/
def genericRow (hostId connector key json : String) (migrationGroup : Option String) (now : Int) :
    OutboxRow :=
  { hostId
    connector
    deliveryKey := .other key
    turnId := none
    contentRevision := none
    orderingKey := ""
    createdAt := now
    deliveryKind := .generic
    status := .queued
    payload := .generic json
    priv := { OutboxPrivate.empty with migrationGroup }
    updatedAt := now
    nextAttemptAt := none }

def exhaustConnectorRetries (hostId : String) (maxAttempts now : Int) : Store × Nat :=
  (s.connectorReclaimExpiredLeases hostId none now).1.connectorExhaustRetryable hostId none
    maxAttempts now

def call (s : Store) : Call → Txn (Store × Answer)
  | .refreshTurns steps => (steps.foldlM applyTurnStep s).map (·, .done)
  | .enqueue hostId connector key json group now =>
    (s.insertOutboxOrIgnore (genericRow hostId connector key json group now)).map (·, .done)
  | .poll req now =>
    let (s₁, items) := s.pollConnectorOutbox req now
    .ok (s₁, .items items)
  | .renew hostId name ref leaseSeconds now =>
    (s.renewConnectorDelivery hostId name ref leaseSeconds now).map (Prod.map id .renewed)
  | .release hostId name ref now =>
    (s.releaseConnectorDelivery hostId name ref now).map (Prod.map id .settled)
  | .ack hostId name ref ackTtlSeconds now =>
    (s.ackConnectorDelivery hostId name ref ackTtlSeconds now).map (Prod.map id .settled)
  | .setback setback hostId name ref availableAt delaySeconds now =>
    (s.setbackConnectorDelivery setback hostId name ref availableAt delaySeconds now).map
      (Prod.map id .settled)
  | .reclaim hostId name now =>
    let (s₁, rows) := s.connectorReclaimExpiredLeases hostId name now
    .ok (s₁, .count rows)
  | .exhaust hostId maxAttempts now =>
    let (s₁, rows) := s.exhaustConnectorRetries hostId maxAttempts now
    .ok (s₁, .count rows)
  | .planBegin req now => (s.prepareConnectorPlanBegin req now).map (Prod.map id .plan)
  | .planPart hostId name token ordinal spans now =>
    (s.prepareConnectorPlanPart hostId name token ordinal spans now).map (Prod.map id .count)
  | .planCommit req now => (s.prepareConnectorPlanCommit req now).map (Prod.map id .plan)
  | .planRecover req now => (s.prepareConnectorPlanRecover req now).map (Prod.map id .recovered)
  | .finalRetry hostId identity now =>
    (s.retryFinalReadyDelivery hostId identity now).map (Prod.map id .retried)

def step (s : Store) (c : Call) : Store × Answer :=
  match s.call c with
  | .ok result => result
  | .error reason => (s, .refused reason)

/-- The store after some calls. -/
def run (s : Store) (calls : List Call) : Store := calls.foldl (fun s c => (s.step c).1) s

end Store

/-! ### A sample turn

One turn of one host with two complete finals, for runs on fixed inputs. -/

def sampleRevision (text : String) : ContentRevision :=
  { turnId := "turn", userText := none, finalText := some text, userState := .absent,
    finalState := .complete }

def sampleTurns (workerId : String) : Relational.Constrained turnSchema where
  table := Relational.Table.empty.insert
    { hostId := "host"
      turnId := "turn"
      workerId
      spaceId := none
      stableKey := some "wsk1_0123456789abcdef0123456789abcdef0123456789abcdef0123456789abcdef"
      stableKeyVersion := some 1
      automation := fun _ => false }
  holds := by simp [Relational.Schema.Holds, Relational.Table.insert, Relational.Table.empty,
    turnSchema]

def sampleRow (text current : String) : RevisionRow :=
  { hostId := "host"
    turnId := "turn"
    contentRevision := sampleRevision text
    userCharLength := 0
    userByteLength := 0
    finalCharLength := 1
    finalByteLength := 1
    userPageCount := 0
    finalPageCount := 1
    isCurrent := text == current }

/-- The revisions `a` and `b`, of which one is current. -/
def sampleRevisions (current : String) : Relational.Constrained revisionSchema where
  table := (Relational.Table.empty.insert (sampleRow "a" current)).insert (sampleRow "b" current)
  holds := by
    refine ⟨?_, ?_⟩
    · simp [Relational.Table.insert, Relational.Table.empty, revisionSchema, sampleRow,
        sampleRevision]
    · simp [Relational.Table.insert, Relational.Table.empty, revisionSchema, sampleRow,
        sampleRevision, Relational.Schema.clash]

/-- The sample turn shows a final, and its root is ensured. -/
def sampleRefresh (workerId text : String) (now : Int) : List TurnStep :=
  [.write (sampleTurns workerId) (sampleRevisions text), .ensure "host" (sampleRevision text) now]

open Store Transition

/-- A relation between stores that every operation respects. -/
structure Respects (R : Store → Store → Prop) : Prop where
  refl : ∀ s, R s s
  trans : ∀ {s s' s''}, R s s' → R s' s'' → R s s''
  write : ∀ (s : Store) turns revisions, R s { s with turns, revisions }
  ensure : ∀ {s s' : Store} {hostId : String} {revision now id},
    s.ensureFinalReadyAnchor hostId revision.turnId revision now = .ok (s', id) → R s s'
  enqueue : ∀ {s s' : Store} {hostId connector key json group now},
    s.insertOutboxOrIgnore (genericRow hostId connector key json group now) = .ok s' → R s s'
  poll : ∀ (s : Store) req now, R s (s.pollConnectorOutbox req now).1
  renew : ∀ {s s' : Store} {hostId name ref leaseSeconds now receipt},
    s.renewConnectorDelivery hostId name ref leaseSeconds now = .ok (s', receipt) → R s s'
  release : ∀ {s s' : Store} {hostId name ref now receipt},
    s.releaseConnectorDelivery hostId name ref now = .ok (s', receipt) → R s s'
  ack : ∀ {s s' : Store} {hostId name ref ttl now receipt},
    s.ackConnectorDelivery hostId name ref ttl now = .ok (s', receipt) → R s s'
  setback : ∀ {s s' : Store} {setback hostId name ref availableAt delaySeconds now receipt},
    s.setbackConnectorDelivery setback hostId name ref availableAt delaySeconds now =
      .ok (s', receipt) → R s s'
  reclaim : ∀ (s : Store) hostId name now, R s (s.connectorReclaimExpiredLeases hostId name now).1
  exhaust : ∀ (s : Store) hostId name maxAttempts now,
    R s (s.connectorExhaustRetryable hostId name maxAttempts now).1
  planBegin : ∀ {s s' : Store} {req now receipt},
    s.prepareConnectorPlanBegin req now = .ok (s', receipt) → R s s'
  planPart : ∀ {s s' : Store} {hostId name token ordinal spans now accepted},
    s.prepareConnectorPlanPart hostId name token ordinal spans now = .ok (s', accepted) → R s s'
  planCommit : ∀ {s s' : Store} {req now receipt},
    s.prepareConnectorPlanCommit req now = .ok (s', receipt) → R s s'
  planRecover : ∀ {s s' : Store} {req now receipt},
    s.prepareConnectorPlanRecover req now = .ok (s', receipt) → R s s'
  finalRetry : ∀ {s s' : Store} {hostId identity now receipt},
    s.retryFinalReadyDelivery hostId identity now = .ok (s', receipt) → R s s'

namespace Respects

variable {R : Store → Store → Prop} {s s' : Store}

lemma turnStep (h : Respects R) {step : TurnStep} (hs : s.applyTurnStep step = .ok s') :
    R s s' := by
  cases step with
  | write turns revisions =>
    obtain rfl := Except.ok.inj hs
    exact h.write s turns revisions
  | ensure hostId revision now =>
    obtain ⟨x, hx, rfl⟩ := map_eq_ok.mp hs
    exact h.ensure hx

lemma turnSteps (h : Respects R) {steps : List TurnStep}
    (hs : steps.foldlM applyTurnStep s = .ok s') : R s s' :=
  foldlM_invariant (P := R s) (fun _ _ _ _ ht hstep => h.trans ht (h.turnStep hstep)) (h.refl s) hs

theorem call (h : Respects R) {c : Call} {answer : Answer} (hc : s.call c = .ok (s', answer)) :
    R s s' := by
  cases c with
  | refreshTurns steps =>
    obtain ⟨x, hx, heq⟩ := map_eq_ok.mp hc
    obtain ⟨rfl, -⟩ := Prod.mk.inj heq
    exact h.turnSteps hx
  | enqueue hostId connector key json group now =>
    obtain ⟨x, hx, heq⟩ := map_eq_ok.mp hc
    obtain ⟨rfl, -⟩ := Prod.mk.inj heq
    exact h.enqueue hx
  | poll req now =>
    obtain ⟨rfl, -⟩ := Prod.mk.inj (Except.ok.inj hc)
    exact h.poll s req now
  | renew hostId name ref leaseSeconds now =>
    obtain ⟨x, hx, heq⟩ := map_eq_ok.mp hc
    obtain ⟨rfl, -⟩ := Prod.mk.inj heq
    exact h.renew hx
  | release hostId name ref now =>
    obtain ⟨x, hx, heq⟩ := map_eq_ok.mp hc
    obtain ⟨rfl, -⟩ := Prod.mk.inj heq
    exact h.release hx
  | ack hostId name ref ttl now =>
    obtain ⟨x, hx, heq⟩ := map_eq_ok.mp hc
    obtain ⟨rfl, -⟩ := Prod.mk.inj heq
    exact h.ack hx
  | setback setback hostId name ref availableAt delaySeconds now =>
    obtain ⟨x, hx, heq⟩ := map_eq_ok.mp hc
    obtain ⟨rfl, -⟩ := Prod.mk.inj heq
    exact h.setback hx
  | reclaim hostId name now =>
    obtain ⟨rfl, -⟩ := Prod.mk.inj (Except.ok.inj hc)
    exact h.reclaim s hostId name now
  | exhaust hostId maxAttempts now =>
    obtain ⟨rfl, -⟩ := Prod.mk.inj (Except.ok.inj hc)
    exact h.trans (h.reclaim s hostId none now) (h.exhaust _ hostId none maxAttempts now)
  | planBegin req now =>
    obtain ⟨x, hx, heq⟩ := map_eq_ok.mp hc
    obtain ⟨rfl, -⟩ := Prod.mk.inj heq
    exact h.planBegin hx
  | planPart hostId name token ordinal spans now =>
    obtain ⟨x, hx, heq⟩ := map_eq_ok.mp hc
    obtain ⟨rfl, -⟩ := Prod.mk.inj heq
    exact h.planPart hx
  | planCommit req now =>
    obtain ⟨x, hx, heq⟩ := map_eq_ok.mp hc
    obtain ⟨rfl, -⟩ := Prod.mk.inj heq
    exact h.planCommit hx
  | planRecover req now =>
    obtain ⟨x, hx, heq⟩ := map_eq_ok.mp hc
    obtain ⟨rfl, -⟩ := Prod.mk.inj heq
    exact h.planRecover hx
  | finalRetry hostId identity now =>
    obtain ⟨x, hx, heq⟩ := map_eq_ok.mp hc
    obtain ⟨rfl, -⟩ := Prod.mk.inj heq
    exact h.finalRetry hx

theorem step (h : Respects R) (s : Store) (c : Call) : R s (s.step c).1 := by
  unfold Store.step
  split
  · next result hresult => exact h.call hresult
  · exact h.refl s

end Respects

end Tendwire.Connector

import Mathlib.Data.Finset.Basic
import Tendwire.Collections.OrderedDict
import Tendwire.Snapshots.Projection
import Tendwire.Transition.Schedule

/-!
# Turn ingestion

One coordinator thread scans the bindings, queues them and starts their refreshes on a fixed pool
of workers. A step here is one section under the scheduler's lock, with the clock in milliseconds.
-/

namespace Tendwire

open Transition

/-- `TurnRefreshKey`, by its private fingerprint. -/
abbrev TurnRefreshKey := String

structure TurnRefreshItem where
  key : TurnRefreshKey
  workerId : String
  workerFingerprint : String
  turnTargetKind : String
  turnTargetValue : String
deriving DecidableEq, Repr

def TurnRefreshItem.fromBinding (binding : WorkerBinding) : TurnRefreshItem where
  key := binding.privateFingerprint
  workerId := binding.workerId
  workerFingerprint := binding.workerFingerprint
  turnTargetKind := binding.turnTargetKind.getD ""
  turnTargetValue := binding.turnTargetValue.getD ""

/-- `_ELIGIBLE_TURN_TARGET_KINDS`. -/
def eligibleTurnTargetKinds : List String := ["codex_session_id", "omp_session_path", "pane_id"]

def eligibleTurnBinding (binding : WorkerBinding) : Bool :=
  binding.turnTargetKind.any (· ∈ eligibleTurnTargetKinds) &&
    binding.turnTargetValue.any (· ≠ "") && binding.privateFingerprint ≠ ""

inductive TurnRefreshStatus where
  | updated
  | unchanged
  | missing
  | timeout
  | failed
  | staleBinding
deriving DecidableEq, Repr

/-- What the scheduler reads of a `TurnRefreshResult`. -/
structure TurnRefreshResult where
  status : TurnRefreshStatus
  retryBindingLookup : Bool
  bindingValidated : Bool
deriving DecidableEq, Repr

def bindingForItem (bindings : List WorkerBinding) (item : TurnRefreshItem) :
    Option WorkerBinding :=
  bindings.find? fun binding =>
    binding.privateFingerprint == item.key && binding.workerId == item.workerId &&
      binding.workerFingerprint == item.workerFingerprint &&
      binding.turnTargetKind.getD "" == item.turnTargetKind &&
      binding.turnTargetValue.getD "" == item.turnTargetValue

/-- `_run_item`. The lookup of the binding may fail, and so may the reader. -/
def runItem (bindings : Option (List WorkerBinding)) (read : WorkerBinding → Option TurnRefreshStatus)
    (item : TurnRefreshItem) : TurnRefreshResult :=
  match bindings with
  | none => ⟨.failed, true, false⟩
  | some bindings =>
    match bindingForItem bindings item with
    | none => ⟨.staleBinding, false, false⟩
    | some binding => ⟨(read binding).getD .failed, false, true⟩

/-- Where an enqueued item found its key. -/
inductive KeyStanding where
  | idle
  | queued
  | running
  | deferredRerun
  | retryDue
deriving DecidableEq, Repr

inductive GiveUpReason where
  | lookupFailedTwice
  | bindingGone
deriving DecidableEq, Repr

inductive SchedulerAct where
  | enqueue (item : TurnRefreshItem) (found : KeyStanding)
  /-- The queue is full and the item is dropped. -/
  | refuse (item : TurnRefreshItem)
  | start (item : TurnRefreshItem)
  | lookupFailed (key : TurnRefreshKey)
  | lookedUp (key : TurnRefreshKey)
  | giveUp (key : TurnRefreshKey) (reason : GiveUpReason)
  | stop
deriving DecidableEq, Repr

/-- What `__init__` accepts. -/
structure TurnIngestionConfig where
  refreshInterval : ℕ
  maxWorkers : ℕ
  queueCapacity : ℕ
  refreshInterval_pos : 0 < refreshInterval
  maxWorkers_pos : 1 ≤ maxWorkers
  maxWorkers_le : maxWorkers ≤ 32
  queueCapacity_pos : 0 < queueCapacity

/-- A run and the result of its future. -/
structure TurnRefreshRun where
  item : TurnRefreshItem
  result : Option TurnRefreshResult

structure TurnIngestionScheduler where
  queue : List TurnRefreshItem
  queued : Finset TurnRefreshKey
  running : OrderedDict TurnRefreshKey TurnRefreshRun
  dirty : Finset TurnRefreshKey
  latest : TurnRefreshKey → Option TurnRefreshItem
  deferredReruns : OrderedDict TurnRefreshKey TurnRefreshItem
  accepting : Bool
  rescanRequested : Bool
  nextScan : ℕ
  scanCursor : ℕ
  scanRetryRemaining : ℕ
  bindingRetryRemaining : OrderedDict TurnRefreshKey ℕ
  bindingRetryDue : OrderedDict TurnRefreshKey (TurnRefreshItem × ℕ)
  /-- What came to pass, newest first. The statements read it, the code keeps no such list. -/
  history : List SchedulerAct

namespace TurnIngestionScheduler

variable (cfg : TurnIngestionConfig)

/-- Behind `start`. -/
def started (now : ℕ) : TurnIngestionScheduler where
  queue := []
  queued := ∅
  running := .empty
  dirty := ∅
  latest := fun _ => none
  deferredReruns := .empty
  accepting := true
  rescanRequested := true
  nextScan := now
  scanCursor := 0
  scanRetryRemaining := 1
  bindingRetryRemaining := .empty
  bindingRetryDue := .empty
  history := []

def record (act : SchedulerAct) (s : TurnIngestionScheduler) : TurnIngestionScheduler :=
  { s with history := act :: s.history }

def requestRefresh (s : TurnIngestionScheduler) : TurnIngestionScheduler :=
  if s.accepting then { s with rescanRequested := true } else s

def enqueueLocked (s : TurnIngestionScheduler) (item : TurnRefreshItem) : TurnIngestionScheduler :=
  let latest := Function.update s.latest item.key (some item)
  if item.key ∈ s.running then
    record (.enqueue item .running) { s with latest, dirty := insert item.key s.dirty }
  else match s.bindingRetryDue.get? item.key with
  | some (_, due) =>
    record (.enqueue item .retryDue)
      { s with latest, bindingRetryDue := s.bindingRetryDue.set item.key (item, due) }
  | none =>
    if item.key ∈ s.deferredReruns then
      record (.enqueue item .deferredRerun)
        { s with latest, deferredReruns := s.deferredReruns.set item.key item }
    else if item.key ∈ s.queued then
      record (.enqueue item .queued) { s with latest }
    else if cfg.queueCapacity ≤ s.queue.length then
      record (.refuse item) { s with latest := Function.update s.latest item.key none }
    else
      record (.enqueue item .idle)
        { s with latest, queue := s.queue ++ [item], queued := insert item.key s.queued }

/-! ### Finished runs -/

/-- A binding that was looked up has its retry back. -/
def settleBinding (key : TurnRefreshKey) (result : TurnRefreshResult) (s : TurnIngestionScheduler) :
    TurnIngestionScheduler :=
  if result.bindingValidated || result.status = .staleBinding then
    record (.lookedUp key)
      { s with
        bindingRetryRemaining := s.bindingRetryRemaining.pop key
        bindingRetryDue := s.bindingRetryDue.pop key }
  else s

def retryBindingLookup (now : ℕ) (key : TurnRefreshKey) (item : TurnRefreshItem)
    (s : TurnIngestionScheduler) : TurnIngestionScheduler :=
  let retryItem := (s.latest key).getD item
  let s := record (.lookupFailed key)
    { s with dirty := s.dirty.erase key, latest := Function.update s.latest key none }
  let remaining := (s.bindingRetryRemaining.get? key).getD 1
  if s.accepting ∧ 0 < remaining then
    { s with
      bindingRetryRemaining := s.bindingRetryRemaining.set key (remaining - 1)
      bindingRetryDue := s.bindingRetryDue.set key (retryItem, now + 50) }
  else if s.accepting then record (.giveUp key .lookupFailedTwice) s
  else s

/-- What was enqueued during the run is queued, or deferred at a full queue. -/
def rerunOrForget (key : TurnRefreshKey) (item : TurnRefreshItem) (s : TurnIngestionScheduler) :
    TurnIngestionScheduler :=
  if key ∈ s.dirty then
    let rerun := (s.latest key).getD item
    let s := { s with dirty := s.dirty.erase key }
    if s.accepting ∧ s.queue.length < cfg.queueCapacity then
      { s with queue := s.queue ++ [rerun], queued := insert key s.queued }
    else if s.accepting then { s with deferredReruns := s.deferredReruns.set key rerun }
    else { s with latest := Function.update s.latest key none }
  else { s with latest := Function.update s.latest key none }

def collectFinished (now : ℕ) (s : TurnIngestionScheduler) (key : TurnRefreshKey) :
    TurnIngestionScheduler :=
  match s.running.get? key with
  | some ⟨item, some result⟩ =>
    let s := settleBinding key result { s with running := s.running.pop key }
    if result.retryBindingLookup then retryBindingLookup now key item s
    else rerunOrForget cfg key item s
  | _ => s

def collectFinishedLocked (now : ℕ) (s : TurnIngestionScheduler) : TurnIngestionScheduler :=
  s.running.keys.foldl (collectFinished cfg now) s

/-! ### Promotion and dispatch -/

def promoteDeferred (s : TurnIngestionScheduler) (key : TurnRefreshKey) : TurnIngestionScheduler :=
  match s.deferredReruns.get? key with
  | some item =>
    if s.accepting ∧ s.queue.length < cfg.queueCapacity then
      { s with
        deferredReruns := s.deferredReruns.pop key
        queue := s.queue ++ [item]
        queued := insert key s.queued }
    else s
  | none => s

def promoteDeferredLocked (s : TurnIngestionScheduler) : TurnIngestionScheduler :=
  s.deferredReruns.keys.foldl (promoteDeferred cfg) s

def promoteBindingRetry (now : ℕ) (s : TurnIngestionScheduler) (key : TurnRefreshKey) :
    TurnIngestionScheduler :=
  match s.bindingRetryDue.get? key with
  | some (item, due) =>
    if now < due then s
    else enqueueLocked cfg { s with bindingRetryDue := s.bindingRetryDue.pop key } item
  | none => s

def promoteBindingRetriesLocked (now : ℕ) (s : TurnIngestionScheduler) : TurnIngestionScheduler :=
  s.bindingRetryDue.keys.foldl (promoteBindingRetry cfg now) s

/-- One round of the dispatch loop, with the head of the queue. -/
def dispatchHead (item : TurnRefreshItem) (rest : List TurnRefreshItem)
    (s : TurnIngestionScheduler) : TurnIngestionScheduler :=
  let s := promoteDeferredLocked cfg { s with
    queue := rest
    queued := s.queued.erase item.key
    bindingRetryDue := s.bindingRetryDue.pop item.key }
  record (.start item) { s with running := s.running.set item.key ⟨item, none⟩ }

/-- Every round takes an item from the queue, so there are no more of them than items. -/
def dispatchLoop : ℕ → TurnIngestionScheduler → TurnIngestionScheduler
  | 0, s => s
  | rounds + 1, s =>
    match s.queue with
    | [] => s
    | item :: rest =>
      if s.accepting ∧ s.running.keys.length < cfg.maxWorkers then
        dispatchLoop rounds (dispatchHead cfg item rest s)
      else s

def dispatchLocked (now : ℕ) (s : TurnIngestionScheduler) : TurnIngestionScheduler :=
  let s := promoteBindingRetriesLocked cfg now (promoteDeferredLocked cfg s)
  dispatchLoop cfg (s.queue.length + s.deferredReruns.keys.length) s

/-! ### The sections under the lock -/

/-- Three readings of the clock. -/
structure Clock where
  collected : ℕ
  now : ℕ
  dispatched : ℕ

/-- The section of the coordinator, and whether a scan comes next. -/
def coordinate (clock : Clock) (s : TurnIngestionScheduler) : TurnIngestionScheduler × Bool :=
  let s := collectFinishedLocked cfg clock.collected s
  if s.accepting = false ∧ s.running.keys = [] then (s, false)
  else
    let s := promoteBindingRetriesLocked cfg clock.now s
    let runScan := s.accepting && (s.rescanRequested || s.nextScan ≤ clock.now)
    let s := if runScan then
      { s with rescanRequested := false, nextScan := clock.now + cfg.refreshInterval } else s
    (dispatchLocked cfg clock.dispatched s, runScan)

/-- A retry of a binding that is no longer there is dropped. -/
def forgetBinding (live : List TurnRefreshKey) (s : TurnIngestionScheduler) (key : TurnRefreshKey) :
    TurnIngestionScheduler :=
  if key ∈ live then s
  else
    let forgotten := { s with
      bindingRetryRemaining := s.bindingRetryRemaining.pop key
      bindingRetryDue := s.bindingRetryDue.pop key }
    if key ∈ s.bindingRetryDue then record (.giveUp key .bindingGone) forgotten else forgotten

def scanItems (bindings : List WorkerBinding) : List TurnRefreshItem :=
  (bindings.filter eligibleTurnBinding).map TurnRefreshItem.fromBinding

/-- The section of a scan that read the bindings. -/
def scanBindings (now : ℕ) (bindings : List WorkerBinding) (s : TurnIngestionScheduler) :
    TurnIngestionScheduler :=
  let items := scanItems bindings
  let s := { s with scanRetryRemaining := 1 }
  let s := s.bindingRetryRemaining.keys.foldl
    (forgetBinding (items.map TurnRefreshItem.key)) s
  if s.accepting then
    let offset := s.scanCursor % items.length
    let s := if items = [] then s else
      { s with scanCursor := (offset + cfg.queueCapacity) % items.length }
    dispatchLocked cfg now ((items.rotate offset).foldl (enqueueLocked cfg) s)
  else s

def scanFailed (now : ℕ) (s : TurnIngestionScheduler) : TurnIngestionScheduler :=
  if s.accepting ∧ 0 < s.scanRetryRemaining then
    { s with
      scanRetryRemaining := s.scanRetryRemaining - 1
      nextScan := min s.nextScan (now + 50) }
  else s

/-- A worker is through with its run. -/
def finish (key : TurnRefreshKey) (bindings : Option (List WorkerBinding))
    (read : WorkerBinding → Option TurnRefreshStatus) (s : TurnIngestionScheduler) :
    TurnIngestionScheduler :=
  match s.running.get? key with
  | some ⟨item, none⟩ =>
    { s with running := s.running.set key ⟨item, some (runItem bindings read item)⟩ }
  | _ => s

def stop (s : TurnIngestionScheduler) : TurnIngestionScheduler :=
  if s.accepting then
    record .stop { s with
      accepting := false
      rescanRequested := false
      queue := []
      queued := ∅
      dirty := ∅
      deferredReruns := .empty
      latest := fun _ => none
      bindingRetryDue := .empty
      bindingRetryRemaining := .empty }
  else s

end TurnIngestionScheduler

open TurnIngestionScheduler

inductive SchedulerEvent where
  | requestRefresh
  | coordinate (clock : Clock)
  | scan (now : ℕ) (bindings : List WorkerBinding)
  | scanFailed (now : ℕ)
  | finish (key : TurnRefreshKey) (bindings : Option (List WorkerBinding))
      (read : WorkerBinding → Option TurnRefreshStatus)
  | stop

def schedulerStep (cfg : TurnIngestionConfig) (s : TurnIngestionScheduler) :
    SchedulerEvent → TurnIngestionScheduler × Bool
  | .requestRefresh => (requestRefresh s, false)
  | .coordinate clock => coordinate cfg clock s
  | .scan now bindings => (scanBindings cfg now bindings s, false)
  | .scanFailed now => (TurnIngestionScheduler.scanFailed now s, false)
  | .finish key bindings read => (TurnIngestionScheduler.finish key bindings read s, false)
  | .stop => (TurnIngestionScheduler.stop s, false)

def schedulerMachine (cfg : TurnIngestionConfig) :
    Machine TurnIngestionScheduler SchedulerEvent Bool := ⟨schedulerStep cfg⟩

end Tendwire

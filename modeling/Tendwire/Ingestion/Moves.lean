import Tendwire.Ingestion.Scheduler

/-!
# The moves of turn ingestion

The sections under the lock come to a few moves of one key each. The queue and the deferred reruns
are one line: a rerun is deferred at a full queue only, and what leaves the queue lets the first of
the deferred reruns in.
-/

namespace Tendwire

namespace TurnIngestionScheduler

def queueKeys (s : TurnIngestionScheduler) : List TurnRefreshKey :=
  s.queue.map TurnRefreshItem.key

/-- How often a key is queued, running, deferred or due for a retry. -/
def flights (s : TurnIngestionScheduler) (key : TurnRefreshKey) : ℕ :=
  s.queueKeys.count key + (if key ∈ s.running then 1 else 0) +
    (if key ∈ s.deferredReruns then 1 else 0) + (if key ∈ s.bindingRetryDue then 1 else 0)

end TurnIngestionScheduler

open TurnIngestionScheduler

inductive SchedulerMove (cfg : TurnIngestionConfig) :
    TurnIngestionScheduler → TurnIngestionScheduler → Prop where
  | mark (s item) : item.key ∈ s.running →
      SchedulerMove cfg s (record (.enqueue item .running) { s with
        latest := Function.update s.latest item.key (some item)
        dirty := insert item.key s.dirty })
  | mergeRetry (s item old due) : s.bindingRetryDue.get? item.key = some (old, due) →
      SchedulerMove cfg s (record (.enqueue item .retryDue) { s with
        latest := Function.update s.latest item.key (some item)
        bindingRetryDue := s.bindingRetryDue.set item.key (item, due) })
  | mergeDeferred (s item) : item.key ∈ s.deferredReruns →
      SchedulerMove cfg s (record (.enqueue item .deferredRerun) { s with
        latest := Function.update s.latest item.key (some item)
        deferredReruns := s.deferredReruns.set item.key item })
  | keep (s item) : item.key ∈ s.queueKeys →
      SchedulerMove cfg s (record (.enqueue item .queued) { s with
        latest := Function.update s.latest item.key (some item) })
  | refuse (s item) : s.flights item.key = 0 → cfg.queueCapacity ≤ s.queue.length →
      SchedulerMove cfg s (record (.refuse item) { s with
        latest := Function.update s.latest item.key none })
  | append (s item) : s.flights item.key = 0 → s.queue.length < cfg.queueCapacity →
      SchedulerMove cfg s (record (.enqueue item .idle) { s with
        latest := Function.update s.latest item.key (some item)
        queue := s.queue ++ [item]
        queued := insert item.key s.queued })
  | settle (s key) : key ∈ s.running →
      SchedulerMove cfg s (record (.lookedUp key) { s with
        bindingRetryRemaining := s.bindingRetryRemaining.pop key
        bindingRetryDue := s.bindingRetryDue.pop key })
  | retryLookup (s key run now) : s.running.get? key = some run → s.accepting = true →
      0 < (s.bindingRetryRemaining.get? key).getD 1 →
      SchedulerMove cfg s (record (.lookupFailed key) { s with
        running := s.running.pop key
        dirty := s.dirty.erase key
        latest := Function.update s.latest key none
        bindingRetryRemaining := s.bindingRetryRemaining.set key
          ((s.bindingRetryRemaining.get? key).getD 1 - 1)
        bindingRetryDue := s.bindingRetryDue.set key
          ((s.latest key).getD run.item, now + 50) })
  | giveUpLookup (s key) : key ∈ s.running → (s.bindingRetryRemaining.get? key).getD 1 = 0 →
      SchedulerMove cfg s (record (.giveUp key .lookupFailedTwice) (record (.lookupFailed key)
        { s with
          running := s.running.pop key
          dirty := s.dirty.erase key
          latest := Function.update s.latest key none }))
  | dropLookup (s key) : key ∈ s.running → s.accepting = false →
      SchedulerMove cfg s (record (.lookupFailed key) { s with
        running := s.running.pop key
        dirty := s.dirty.erase key
        latest := Function.update s.latest key none })
  | rerun (s key run) : s.running.get? key = some run → key ∈ s.dirty → s.accepting = true →
      s.queue.length < cfg.queueCapacity →
      SchedulerMove cfg s { s with
        running := s.running.pop key
        dirty := s.dirty.erase key
        queue := s.queue ++ [(s.latest key).getD run.item]
        queued := insert key s.queued }
  | defer (s key run) : s.running.get? key = some run → key ∈ s.dirty → s.accepting = true →
      cfg.queueCapacity ≤ s.queue.length →
      SchedulerMove cfg s { s with
        running := s.running.pop key
        dirty := s.dirty.erase key
        deferredReruns := s.deferredReruns.set key ((s.latest key).getD run.item) }
  | forget (s key) : key ∈ s.running → key ∉ s.dirty ∨ s.accepting = false →
      SchedulerMove cfg s { s with
        running := s.running.pop key
        dirty := s.dirty.erase key
        latest := Function.update s.latest key none }
  | retryQueued (s key item due) : s.bindingRetryDue.get? key = some (item, due) →
      s.queue.length < cfg.queueCapacity →
      SchedulerMove cfg s (record (.enqueue item .idle) { s with
        bindingRetryDue := s.bindingRetryDue.pop key
        latest := Function.update s.latest item.key (some item)
        queue := s.queue ++ [item]
        queued := insert item.key s.queued })
  | retryRefused (s key item due) : s.bindingRetryDue.get? key = some (item, due) →
      cfg.queueCapacity ≤ s.queue.length →
      SchedulerMove cfg s (record (.refuse item) { s with
        bindingRetryDue := s.bindingRetryDue.pop key
        latest := Function.update s.latest item.key none })
  | start (s item rest) : s.queue = item :: rest → s.deferredReruns.keys = [] →
      s.running.keys.length < cfg.maxWorkers →
      SchedulerMove cfg s (record (.start item) { s with
        queue := rest
        queued := s.queued.erase item.key
        bindingRetryDue := s.bindingRetryDue.pop item.key
        running := s.running.set item.key ⟨item, none⟩ })
  | startPromoting (s item rest key keys next) : s.queue = item :: rest →
      s.deferredReruns.keys = key :: keys → s.deferredReruns.get? key = some next →
      s.running.keys.length < cfg.maxWorkers →
      SchedulerMove cfg s (record (.start item) { s with
        queue := rest ++ [next]
        queued := insert key (s.queued.erase item.key)
        deferredReruns := s.deferredReruns.pop key
        bindingRetryDue := s.bindingRetryDue.pop item.key
        running := s.running.set item.key ⟨item, none⟩ })
  | forgetRetry (s key) : key ∈ s.bindingRetryDue →
      SchedulerMove cfg s (record (.giveUp key .bindingGone) { s with
        bindingRetryRemaining := s.bindingRetryRemaining.pop key
        bindingRetryDue := s.bindingRetryDue.pop key })
  | forgetRemaining (s key) : key ∉ s.bindingRetryDue →
      SchedulerMove cfg s { s with
        bindingRetryRemaining := s.bindingRetryRemaining.pop key
        bindingRetryDue := s.bindingRetryDue.pop key }
  | finish (s key item result) : s.running.get? key = some ⟨item, none⟩ →
      SchedulerMove cfg s { s with running := s.running.set key ⟨item, some result⟩ }
  | scanned (s rescanRequested nextScan scanCursor scanRetryRemaining) :
      SchedulerMove cfg s { s with rescanRequested, nextScan, scanCursor, scanRetryRemaining }
  | stop (s) : SchedulerMove cfg s (record .stop { s with
      accepting := false
      rescanRequested := false
      queue := []
      queued := ∅
      dirty := ∅
      deferredReruns := .empty
      latest := fun _ => none
      bindingRetryDue := .empty
      bindingRetryRemaining := .empty })

/-- What holds of the collections between two moves. -/
structure SchedulerInvariant (cfg : TurnIngestionConfig) (s : TurnIngestionScheduler) : Prop where
  once : ∀ key, s.flights key ≤ 1
  queued : ∀ key, key ∈ s.queued ↔ key ∈ s.queueKeys
  capacity : s.queue.length ≤ cfg.queueCapacity
  workers : s.running.keys.length ≤ cfg.maxWorkers
  dirty : ∀ key ∈ s.dirty, key ∈ s.running
  full : s.deferredReruns.keys ≠ [] → cfg.queueCapacity ≤ s.queue.length
  running : ∀ key run, s.running.get? key = some run → run.item.key = key
  deferred : ∀ key item, s.deferredReruns.get? key = some item → item.key = key
  retryDue : ∀ key item due, s.bindingRetryDue.get? key = some (item, due) → item.key = key
  latest : ∀ key item, s.latest key = some item → item.key = key

variable {cfg : TurnIngestionConfig} {s t : TurnIngestionScheduler}

theorem schedulerInvariant_started (now : ℕ) : SchedulerInvariant cfg (started now) := by
  constructor <;> simp [started, flights, queueKeys]

end Tendwire

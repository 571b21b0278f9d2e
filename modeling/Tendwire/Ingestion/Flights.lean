import Tendwire.Ingestion.Moves

/-!
# Single flight

No move takes a key into a second collection, overfills the queue or the pool, or files an item
under a foreign key.
-/

namespace Tendwire

open TurnIngestionScheduler

variable {cfg : TurnIngestionConfig} {s t : TurnIngestionScheduler}

/-- What a finished run is queued again with. -/
lemma SchedulerInvariant.rerun (hs : SchedulerInvariant cfg s) (key) (run : TurnRefreshRun)
    (hrun : s.running.get? key = some run) : ((s.latest key).getD run.item).key = key := by
  cases hlatest : s.latest key with
  | none => exact hs.running key run hrun
  | some item => exact hs.latest key item hlatest

lemma SchedulerInvariant.nodup_queueKeys (hs : SchedulerInvariant cfg s) : s.queueKeys.Nodup := by
  rw [List.nodup_iff_count_le_one]
  intro key
  have honce := hs.once key
  unfold flights at honce
  omega

lemma SchedulerInvariant.head_notMem_rest (hs : SchedulerInvariant cfg s) (item) (rest)
    (hqueue : s.queue = item :: rest) : item.key ∉ rest.map TurnRefreshItem.key := by
  have hnodup := hs.nodup_queueKeys
  unfold queueKeys at hnodup
  rw [hqueue, List.map_cons, List.nodup_cons] at hnodup
  exact hnodup.1

/-- A queued key is nowhere else. -/
lemma SchedulerInvariant.queued_alone (hs : SchedulerInvariant cfg s) (item)
    (hitem : item ∈ s.queue) : 0 < s.flights item.key ∧ item.key ∉ s.running ∧
      item.key ∉ s.deferredReruns ∧ item.key ∉ s.bindingRetryDue := by
  have hcount : 0 < s.queueKeys.count item.key :=
    List.count_pos_iff.mpr (List.mem_map_of_mem hitem)
  have honce := hs.once item.key
  unfold flights at *
  grind -ring -linarith

namespace SchedulerMove

theorem once (h : SchedulerMove cfg s t) (hs : SchedulerInvariant cfg s) (key) :
    t.flights key ≤ 1 := by
  have honce := hs.once key
  have hrerun := hs.rerun
  have hdeferred := hs.deferred
  have hretry := hs.retryDue
  cases h <;> grind -ring -linarith [record, flights, queueKeys]

theorem queued (h : SchedulerMove cfg s t) (hs : SchedulerInvariant cfg s) (key) :
    key ∈ t.queued ↔ key ∈ t.queueKeys := by
  have hqueued := hs.queued key
  have hhead := hs.head_notMem_rest
  have hrerun := hs.rerun
  have hdeferred := hs.deferred
  cases h <;> grind -ring -linarith [record, queueKeys]

theorem workers (h : SchedulerMove cfg s t) (hs : SchedulerInvariant cfg s) :
    t.running.keys.length ≤ cfg.maxWorkers := by
  have hworkers := hs.workers
  -- A run that is set again takes no further worker, and one is started where a worker is free.
  cases h <;> grind -ring -linarith [record, OrderedDict.length_pop_le, OrderedDict.length_set_of_mem,
    OrderedDict.length_set_le]

/-- Only runs are marked. -/
theorem dirty (h : SchedulerMove cfg s t) (hs : SchedulerInvariant cfg s) :
    ∀ key ∈ t.dirty, key ∈ t.running := by
  have hdirty := hs.dirty
  cases h <;> grind -ring -linarith [record]

/-- The line is broken at a full queue only. -/
theorem full (h : SchedulerMove cfg s t) (hs : SchedulerInvariant cfg s) :
    t.deferredReruns.keys ≠ [] → cfg.queueCapacity ≤ t.queue.length := by
  have hfull := hs.full
  cases h <;> grind -ring -linarith [record, OrderedDict.keys_pop_cons, OrderedDict.keys_set_of_mem]

theorem latest (h : SchedulerMove cfg s t) (hs : SchedulerInvariant cfg s) :
    ∀ key item, t.latest key = some item → item.key = key := by
  intro key item
  have hlatest := hs.latest key item
  cases h <;> dsimp only [record] <;> grind -ring -linarith [Function.update_apply]

theorem invariant (h : SchedulerMove cfg s t) (hs : SchedulerInvariant cfg s) :
    SchedulerInvariant cfg t where
  once := h.once hs
  queued := h.queued hs
  capacity := by
    have hcapacity := hs.capacity
    cases h <;> grind -ring -linarith [record]
  workers := h.workers hs
  dirty := h.dirty hs
  full := h.full hs
  running := by
    have hrunning := hs.running
    cases h <;> grind -ring -linarith [record]
  deferred := by
    have hdeferred := hs.deferred
    have hrerun := hs.rerun
    cases h <;> grind -ring -linarith [record]
  retryDue := by
    have hretry := hs.retryDue
    have hrerun := hs.rerun
    cases h <;> grind -ring -linarith [record]
  latest := h.latest hs

end SchedulerMove

end Tendwire

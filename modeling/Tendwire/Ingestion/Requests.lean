import Tendwire.Ingestion.Refinement

/-!
# Requests

What a run is started with, and what becomes of an item that is enqueued while its key runs, read
off the history of the moves.
-/

namespace Tendwire

open TurnIngestionScheduler Transition

variable {cfg : TurnIngestionConfig} {s t : TurnIngestionScheduler} {key : TurnRefreshKey}

/-! ### Histories, newest act first -/

def lastEnqueued (key : TurnRefreshKey) : List SchedulerAct → Option TurnRefreshItem
  | [] => none
  | .enqueue item _ :: history => if item.key = key then some item else lastEnqueued key history
  | _ :: history => lastEnqueued key history

/-- Since the key of the item was last started, another item of it met the key in the queue. -/
def KeptOther (item : TurnRefreshItem) : List SchedulerAct → Prop
  | [] => False
  | .enqueue other .queued :: history =>
    (other.key = item.key ∧ other ≠ item) ∨ KeptOther item history
  | .start other :: history => other.key ≠ item.key ∧ KeptOther item history
  | _ :: history => KeptOther item history

/-- The lookups of a binding that failed since the last one that did not. -/
def lookupFailures (key : TurnRefreshKey) : List SchedulerAct → ℕ
  | [] => 0
  | .lookupFailed other :: history =>
    if other = key then lookupFailures key history + 1 else lookupFailures key history
  | .lookedUp other :: history => if other = key then 0 else lookupFailures key history
  | _ :: history => lookupFailures key history

/-- A run begins, or the request is dropped at a full queue or given up. -/
def SchedulerAct.Settles (key : TurnRefreshKey) : SchedulerAct → Prop
  | .start item => item.key = key
  | .refuse item => item.key = key
  | .giveUp other _ => other = key
  | _ => False

/-- An item was enqueued during a run of its key and nothing has come of it. -/
def Owed (key : TurnRefreshKey) : List SchedulerAct → Prop
  | [] => False
  | .enqueue item .running :: history => item.key = key ∨ Owed key history
  | .stop :: _ => False
  | act :: history => ¬act.Settles key ∧ Owed key history

/-- The same, and no lookup of the binding failed meanwhile. -/
def Unfailed (key : TurnRefreshKey) : List SchedulerAct → Prop
  | [] => False
  | .enqueue item .running :: history => item.key = key ∨ Unfailed key history
  | .lookupFailed other :: history => other ≠ key ∧ Unfailed key history
  | .stop :: _ => False
  | act :: history => ¬act.Settles key ∧ Unfailed key history

/-- An act agrees with what was before it. Until the scheduler is stopped, what was asked for
during a run is dropped behind a failed lookup only. -/
def SchedulerAct.Sound : SchedulerAct → List SchedulerAct → Prop
  | .start item, before => lastEnqueued item.key before = some item ∨ KeptOther item before
  | .refuse item, before => .stop ∈ before ∨ ¬Unfailed item.key before
  | .giveUp key .lookupFailedTwice, before =>
    2 ≤ lookupFailures key before ∧ (.stop ∈ before ∨ ¬Unfailed key before)
  | .giveUp key .bindingGone, before => .stop ∈ before ∨ ¬Unfailed key before
  | _, _ => True

def SoundHistory : List SchedulerAct → Prop
  | [] => True
  | act :: history => act.Sound history ∧ SoundHistory history

lemma SoundHistory.sound {after before : List SchedulerAct} {act : SchedulerAct}
    (h : SoundHistory (after ++ act :: before)) : act.Sound before := by
  induction after with
  | nil => exact h.1
  | cons _ _ ih => exact ih h.2

lemma owed_append {after before : List SchedulerAct} {item : TurnRefreshItem}
    (h : ∀ act ∈ after, ¬act.Settles item.key ∧ act ≠ .stop) :
    Owed item.key (after ++ .enqueue item .running :: before) := by
  induction after with
  | nil => exact .inl rfl
  | cons act after ih =>
    obtain ⟨⟨hact, hstop⟩, hafter⟩ := List.forall_mem_cons.mp h
    have howed := ih hafter
    cases act with
    | enqueue item found =>
      cases found with
      | running => exact .inr howed
      | _ => exact ⟨hact, howed⟩
    | stop => exact absurd rfl hstop
    | _ => exact ⟨hact, howed⟩

lemma unfailed_append {after before : List SchedulerAct} {item : TurnRefreshItem}
    (h : ∀ act ∈ after, ¬act.Settles item.key ∧ act ≠ .stop ∧ act ≠ .lookupFailed item.key) :
    Unfailed item.key (after ++ .enqueue item .running :: before) := by
  induction after with
  | nil => exact .inl rfl
  | cons act after ih =>
    obtain ⟨⟨hact, hstop, hfailed⟩, hafter⟩ := List.forall_mem_cons.mp h
    have hunfailed := ih hafter
    cases act with
    | enqueue item found =>
      cases found with
      | running => exact .inr hunfailed
      | _ => exact ⟨hact, hunfailed⟩
    | lookupFailed other =>
      exact ⟨fun heq => hfailed (congrArg SchedulerAct.lookupFailed heq), hunfailed⟩
    | stop => exact absurd rfl hstop
    | _ => exact ⟨hact, hunfailed⟩

/-- What becomes of a request: a run, or nothing behind a lookup that failed. -/
def Outcome (key : TurnRefreshKey) (later : List SchedulerAct) : Prop :=
  (∃ item, item.key = key ∧ .start item ∈ later) ∨
    (.lookupFailed key ∈ later ∧
      ((∃ reason, .giveUp key reason ∈ later) ∨ ∃ item, item.key = key ∧ .refuse item ∈ later))

lemma Outcome.cons {later : List SchedulerAct} (h : Outcome key later) (act : SchedulerAct) :
    Outcome key (act :: later) := by
  unfold Outcome at *
  simp only [List.mem_cons]
  grind -ring -linarith

/-- The first thing that comes of a request is a run, unless a lookup failed before. -/
theorem outcome_of_settles {later before : List SchedulerAct} {item : TurnRefreshItem}
    (hsound : SoundHistory (later ++ .enqueue item .running :: before))
    (hstop : .stop ∉ later ++ .enqueue item .running :: before)
    (hsettled : ∃ act ∈ later, act.Settles item.key) : Outcome item.key later := by
  induction later with
  | nil =>
    obtain ⟨act, hmem, -⟩ := hsettled
    exact absurd hmem List.not_mem_nil
  | cons act later ih =>
    rw [List.cons_append] at hsound hstop
    have hstop' := fun hmem => hstop (List.mem_cons_of_mem _ hmem)
    by_cases hearlier : ∃ act ∈ later, act.Settles item.key
    · exact (ih hsound.2 hstop' hearlier).cons act
    · have hact : act.Settles item.key := by
        obtain ⟨other, hmem, hother⟩ := hsettled
        rcases List.mem_cons.mp hmem with rfl | hmem
        · exact hother
        · exact absurd ⟨other, hmem, hother⟩ hearlier
      have hfailed : ¬Unfailed item.key (later ++ .enqueue item .running :: before) →
          .lookupFailed item.key ∈ later := by
        intro hunfailed
        by_contra hnone
        apply hunfailed
        apply unfailed_append
        intro other hmem
        refine ⟨fun hother => hearlier ⟨other, hmem, hother⟩, ?_, ?_⟩
        · rintro rfl
          exact hstop' (List.mem_append_left _ hmem)
        · rintro rfl
          exact hnone hmem
      have hhead := hsound.1
      cases act with
      | start other => exact .inl ⟨other, hact, List.mem_cons_self⟩
      | refuse other =>
        have hkey : other.key = item.key := hact
        have hunfailed := hhead.resolve_left hstop'
        rw [hkey] at hunfailed
        exact .inr ⟨List.mem_cons_of_mem _ (hfailed hunfailed),
          .inr ⟨other, hkey, List.mem_cons_self⟩⟩
      | giveUp other reason =>
        have hkey : other = item.key := hact
        subst hkey
        have hunfailed : ¬Unfailed item.key (later ++ .enqueue item .running :: before) := by
          cases reason with
          | lookupFailedTwice => exact hhead.2.resolve_left hstop'
          | bindingGone => exact hhead.resolve_left hstop'
        exact .inr ⟨List.mem_cons_of_mem _ (hfailed hunfailed), .inl ⟨reason, List.mem_cons_self⟩⟩
      | enqueue | lookupFailed | lookedUp | stop => exact hact.elim

/-! ### What is held for a key -/

/-- The items at hand and the history agree. -/
structure RequestInvariant (s : TurnIngestionScheduler) : Prop where
  latest : s.accepting = true →
    ∀ key, key ∈ s.queueKeys ∨ key ∈ s.running ∨ key ∈ s.deferredReruns → (s.latest key).isSome = true ∧
      lastEnqueued key s.history = s.latest key
  queue : ∀ item ∈ s.queue,
    lastEnqueued item.key s.history = some item ∨ KeptOther item s.history
  deferred : ∀ key item, s.deferredReruns.get? key = some item →
    lastEnqueued key s.history = some item
  retryDue : ∀ key item due, s.bindingRetryDue.get? key = some (item, due) →
    lastEnqueued key s.history = some item
  failures : ∀ key, s.bindingRetryRemaining.get? key = some 0 →
    1 ≤ lookupFailures key s.history
  stopped : s.accepting = false → .stop ∈ s.history
  unfailed : s.accepting = true → ∀ key, Unfailed key s.history →
    key ∈ s.dirty ∨ key ∈ s.queueKeys ∨ key ∈ s.deferredReruns
  sound : SoundHistory s.history

/-- A run of the key is to come: it was asked for during a run, queued, deferred, or is due. -/
def Pending (key : TurnRefreshKey) (s : TurnIngestionScheduler) : Prop :=
  key ∈ s.dirty ∨ key ∈ s.queueKeys ∨ key ∈ s.deferredReruns ∨ key ∈ s.bindingRetryDue

/-- A finished run is queued again with what was enqueued last. -/
lemma RequestInvariant.rerun (hr : RequestInvariant s) (haccepting : s.accepting = true) (key)
    (run : TurnRefreshRun) (hrun : s.running.get? key = some run) :
    lastEnqueued key s.history = some ((s.latest key).getD run.item) := by
  obtain ⟨hsome, hlast⟩ := hr.latest haccepting key (.inr (.inl (OrderedDict.mem_of_get? hrun)))
  obtain ⟨item, hitem⟩ := Option.isSome_iff_exists.mp hsome
  rw [hlast, hitem]
  rfl

namespace SchedulerMove

theorem requestLatest (h : SchedulerMove cfg s t) (hs : SchedulerInvariant cfg s)
    (hr : RequestInvariant s) (haccepting : t.accepting = true) (key : TurnRefreshKey)
    (hkey : key ∈ t.queueKeys ∨ key ∈ t.running ∨ key ∈ t.deferredReruns) :
    (t.latest key).isSome = true ∧ lastEnqueued key t.history = t.latest key := by
  have hlatest := fun h => hr.latest h key
  have honce := hs.once key
  have hrerun := hs.rerun
  have hdeferred := hs.deferred
  have hretry := hs.retryDue
  cases h <;> dsimp only [record, queueKeys, lastEnqueued] at haccepting hkey ⊢ <;>
    grind -ring -linarith [flights, queueKeys, Function.update_apply]

theorem requestQueue (h : SchedulerMove cfg s t) (hs : SchedulerInvariant cfg s)
    (hr : RequestInvariant s) (item : TurnRefreshItem) (hitem : item ∈ t.queue) :
    lastEnqueued item.key t.history = some item ∨ KeptOther item t.history := by
  have hqueue := hr.queue item
  have hlatest := hr.rerun
  have hdeferred := hr.deferred
  have halone := hs.queued_alone
  have hhead := hs.head_notMem_rest
  have hrerun := hs.rerun
  have hretry := hs.retryDue
  have hkeyed := hs.deferred
  cases h <;> dsimp only [record, lastEnqueued, KeptOther] at hitem ⊢ <;>
    grind -ring -linarith [flights, queueKeys]

theorem requestDeferred (h : SchedulerMove cfg s t) (hs : SchedulerInvariant cfg s)
    (hr : RequestInvariant s) (key : TurnRefreshKey) (item : TurnRefreshItem)
    (hitem : t.deferredReruns.get? key = some item) :
    lastEnqueued key t.history = some item := by
  have hlatest := hr.rerun
  have hdeferred := hr.deferred
  have honce := hs.once key
  have hretry := hs.retryDue
  cases h <;> dsimp only [record, lastEnqueued] at hitem ⊢ <;> grind -ring -linarith [flights]

theorem requestRetryDue (h : SchedulerMove cfg s t) (hs : SchedulerInvariant cfg s)
    (hr : RequestInvariant s) (key : TurnRefreshKey) (item : TurnRefreshItem) (due : ℕ)
    (hitem : t.bindingRetryDue.get? key = some (item, due)) :
    lastEnqueued key t.history = some item := by
  have hlatest := hr.rerun
  have hdue := hr.retryDue
  have honce := hs.once key
  have hretry := hs.retryDue
  cases h <;> dsimp only [record, lastEnqueued] at hitem ⊢ <;> grind -ring -linarith [flights]

theorem requestFailures (h : SchedulerMove cfg s t) (hr : RequestInvariant s)
    (key : TurnRefreshKey) (hzero : t.bindingRetryRemaining.get? key = some 0) :
    1 ≤ lookupFailures key t.history := by
  have hfailures := hr.failures key
  cases h <;> dsimp only [record, lookupFailures] at hzero ⊢ <;> grind -ring -linarith

theorem requestUnfailed (h : SchedulerMove cfg s t) (hs : SchedulerInvariant cfg s)
    (hr : RequestInvariant s) (haccepting : t.accepting = true) (key : TurnRefreshKey)
    (hunfailed : Unfailed key t.history) :
    key ∈ t.dirty ∨ key ∈ t.queueKeys ∨ key ∈ t.deferredReruns := by
  have hkey := fun h => hr.unfailed h key
  have hrerun := hs.rerun
  have hdeferred := hs.deferred
  have hdirty := hs.dirty
  cases h <;> dsimp only [record, Unfailed, SchedulerAct.Settles] at haccepting hunfailed ⊢ <;>
    grind -ring -linarith [queueKeys]

/-- What is due for a retry, or nowhere at all, was not left without a failed lookup. -/
lemma unfailed_of_idle (hs : SchedulerInvariant cfg s) (hr : RequestInvariant s)
    (hidle : key ∈ s.bindingRetryDue ∨ s.flights key = 0) :
    .stop ∈ s.history ∨ ¬Unfailed key s.history := by
  cases haccepting : s.accepting with
  | false => exact .inl (hr.stopped haccepting)
  | true =>
    refine .inr fun hunfailed => ?_
    have hplace := hr.unfailed haccepting key hunfailed
    have hdirty := hs.dirty key
    have honce := hs.once key
    grind -ring -linarith [flights]

theorem requestSound (h : SchedulerMove cfg s t) (hs : SchedulerInvariant cfg s)
    (hr : RequestInvariant s) : SoundHistory t.history := by
  have hsound := hr.sound
  have hqueue := hr.queue
  have hretry := hs.retryDue
  have hidle := fun key => @unfailed_of_idle cfg s key hs hr
  have hfailures : ∀ key, (s.bindingRetryRemaining.get? key).getD 1 = 0 →
      1 ≤ lookupFailures key s.history := by
    intro key hzero
    apply hr.failures
    cases hget : s.bindingRetryRemaining.get? key with
    | none => simp [hget] at hzero
    | some remaining => simpa [hget] using hzero
  cases h <;> dsimp only [record, SoundHistory, SchedulerAct.Sound, lookupFailures, Unfailed] <;>
    grind -ring -linarith

theorem request (h : SchedulerMove cfg s t) (hs : SchedulerInvariant cfg s)
    (hr : RequestInvariant s) : RequestInvariant t where
  latest := h.requestLatest hs hr
  queue := h.requestQueue hs hr
  deferred := h.requestDeferred hs hr
  retryDue := h.requestRetryDue hs hr
  failures := h.requestFailures hr
  stopped := by
    have hstopped := hr.stopped
    cases h <;> dsimp only [record] <;> grind -ring -linarith
  unfailed := h.requestUnfailed hs hr
  sound := h.requestSound hs hr

/-- As long as something is owed to a key, a run of it is to come. -/
theorem owed (h : SchedulerMove cfg s t) (hs : SchedulerInvariant cfg s)
    (hpending : s.accepting = true → ∀ key, Owed key s.history → Pending key s)
    (haccepting : t.accepting = true) (key : TurnRefreshKey) (howed : Owed key t.history) :
    Pending key t := by
  have hkey := fun h => hpending h key
  have honce := hs.once key
  have hrerun := hs.rerun
  have hretry := hs.retryDue
  have hdeferred := hs.deferred
  have hdirty := hs.dirty
  unfold Pending at *
  cases h <;> dsimp only [record, Owed, SchedulerAct.Settles] at haccepting howed ⊢ <;>
    grind -ring -linarith [flights, queueKeys]

end SchedulerMove

/-! ### Runs -/

variable {now : ℕ} {calls : ℕ → SchedulerEvent}

theorem schedulerAt_request (n : ℕ) : RequestInvariant (schedulerAt cfg now calls n) := by
  apply schedulerAt_preserves _ fun s t hs hmove hr => hmove.request hs hr
  constructor <;> simp [started, queueKeys, SoundHistory, Unfailed]

/-- Each run is started with the item that was enqueued last for its key, or another one met the
key in the queue. -/
theorem start_sound {n : ℕ} {after before : List SchedulerAct} {item : TurnRefreshItem}
    (h : (schedulerAt cfg now calls n).history = after ++ .start item :: before) :
    lastEnqueued item.key before = some item ∨ KeptOther item before := by
  have hsound := (@schedulerAt_request cfg now calls n).sound
  rw [h] at hsound
  exact hsound.sound

/-- A lookup is given up behind its second failure in a row. -/
theorem giveUp_sound {n : ℕ} {after before : List SchedulerAct}
    (h : (schedulerAt cfg now calls n).history =
      after ++ .giveUp key .lookupFailedTwice :: before) : 2 ≤ lookupFailures key before := by
  have hsound := (@schedulerAt_request cfg now calls n).sound
  rw [h] at hsound
  exact hsound.sound.1

theorem schedulerAt_owed (n : ℕ) (haccepting : (schedulerAt cfg now calls n).accepting = true)
    (howed : Owed key (schedulerAt cfg now calls n).history) :
    Pending key (schedulerAt cfg now calls n) := by
  have hall := @schedulerAt_preserves cfg
    (fun s => s.accepting = true → ∀ key, Owed key s.history → Pending key s) now calls
    (fun _ _ howed => howed.elim) (fun s t hs hmove hpending => hmove.owed hs hpending) n
  exact hall haccepting key howed

/-- As long as the scheduler accepts, it was not stopped. -/
lemma stop_notMem {n : ℕ} (haccepting : (schedulerAt cfg now calls n).accepting = true) :
    .stop ∉ (schedulerAt cfg now calls n).history := by
  have hall := @schedulerAt_preserves cfg (fun s => s.accepting = true → .stop ∉ s.history) now
    calls (fun _ => List.not_mem_nil) (fun s t _ hmove hnone => by
      cases hmove <;> dsimp only [record] <;> grind -ring -linarith) n
  exact hall haccepting

/-- What is enqueued during a run is still to come, unless something came of it since. -/
theorem pending_or_settled {n : ℕ} {after before : List SchedulerAct} {item : TurnRefreshItem}
    (haccepting : (schedulerAt cfg now calls n).accepting = true)
    (h : (schedulerAt cfg now calls n).history = after ++ .enqueue item .running :: before) :
    Pending item.key (schedulerAt cfg now calls n) ∨ ∃ act ∈ after, act.Settles item.key := by
  by_cases hsettled : ∃ act ∈ after, act.Settles item.key
  · exact .inr hsettled
  · have hstop := stop_notMem haccepting
    refine .inl (schedulerAt_owed n haccepting ?_)
    rw [h] at hstop ⊢
    apply owed_append
    intro act hact
    refine ⟨fun hsettles => hsettled ⟨act, hact, hsettles⟩, ?_⟩
    rintro rfl
    exact hstop (List.mem_append_left _ hact)

end Tendwire

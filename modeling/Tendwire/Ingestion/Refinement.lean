import Mathlib.Logic.Relation
import Tendwire.Ingestion.Flights

/-!
# Sections under the lock are runs of moves

Where the collections are in order, each section of the scheduler is a sequence of moves. So what
every move preserves holds behind every section.
-/

namespace Tendwire

open TurnIngestionScheduler Transition

abbrev SchedulerMoves (cfg : TurnIngestionConfig) := Relation.ReflTransGen (SchedulerMove cfg)

variable {cfg : TurnIngestionConfig} {s t : TurnIngestionScheduler} {α : Type}

lemma SchedulerMoves.invariant (h : SchedulerMoves cfg s t) (hs : SchedulerInvariant cfg s) :
    SchedulerInvariant cfg t := by
  induction h with
  | refl => exact hs
  | tail _ hmove ih => exact hmove.invariant ih

/-- What every move between states in order preserves. -/
lemma SchedulerMoves.preserves {P : TurnIngestionScheduler → Prop}
    (hP : ∀ s t, SchedulerInvariant cfg s → SchedulerMove cfg s t → P s → P t)
    (h : SchedulerMoves cfg s t) (hs : SchedulerInvariant cfg s) (hp : P s) : P t := by
  induction h with
  | refl => exact hp
  | tail hmoves hmove ih => exact hP _ _ (SchedulerMoves.invariant hmoves hs) hmove ih

/-- From a state in order, the function makes moves. -/
def Refines (cfg : TurnIngestionConfig) (f : TurnIngestionScheduler → TurnIngestionScheduler) :
    Prop :=
  ∀ s, SchedulerInvariant cfg s → SchedulerMoves cfg s (f s)

lemma Refines.comp {f g : TurnIngestionScheduler → TurnIngestionScheduler} (hg : Refines cfg g)
    (hf : Refines cfg f) : Refines cfg fun s => g (f s) :=
  fun s hs => (hf s hs).trans (hg _ ((hf s hs).invariant hs))

lemma Refines.foldl {f : TurnIngestionScheduler → α → TurnIngestionScheduler}
    (hf : ∀ a, Refines cfg fun s => f s a) (l : List α) : Refines cfg fun s => l.foldl f s := by
  induction l with
  | nil => exact fun _ _ => .refl
  | cons a l ih => exact ih.comp (hf a)

lemma flights_eq_zero {key : TurnRefreshKey} (hqueue : key ∉ s.queueKeys) (hrunning : key ∉ s.running)
    (hdeferred : key ∉ s.deferredReruns) (hretry : key ∉ s.bindingRetryDue) :
    s.flights key = 0 := by
  unfold flights
  rw [if_neg hrunning, if_neg hdeferred, if_neg hretry, List.count_eq_zero_of_not_mem hqueue]

theorem refines_enqueueLocked (item : TurnRefreshItem) :
    Refines cfg fun s => enqueueLocked cfg s item := by
  intro s hs
  dsimp only [enqueueLocked]
  split
  · next hrunning => exact .single (.mark s item hrunning)
  · next hrunning =>
    split
    · next old due hretry => exact .single (.mergeRetry s item old due hretry)
    · next hretry =>
      split
      · next hdeferred => exact .single (.mergeDeferred s item hdeferred)
      · next hdeferred =>
        split
        · next hqueued => exact .single (.keep s item ((hs.queued _).mp hqueued))
        · next hqueued =>
          have hidle : s.flights item.key = 0 := by
            apply flights_eq_zero _ hrunning hdeferred
            · rw [OrderedDict.mem_iff, hretry]
              exact Bool.false_ne_true
            · rwa [← hs.queued]
          split
          · next hfull => exact .single (.refuse s item hidle hfull)
          · next hroom => exact .single (.append s item hidle (Nat.lt_of_not_le hroom))

/-! ### Finished runs -/

/-- The lookup of a binding is settled before its run is taken out just as well. -/
lemma settleBinding_running (key : TurnRefreshKey) (result : TurnRefreshResult)
    (running : OrderedDict TurnRefreshKey TurnRefreshRun) :
    settleBinding key result { s with running } = { settleBinding key result s with running } := by
  unfold settleBinding
  split <;> rfl

lemma running_settleBinding (key : TurnRefreshKey) (result : TurnRefreshResult) :
    (settleBinding key result s).running = s.running := by
  unfold settleBinding
  split <;> rfl

lemma moves_settleBinding {key : TurnRefreshKey} (hrunning : key ∈ s.running)
    (result : TurnRefreshResult) : SchedulerMoves cfg s (settleBinding key result s) := by
  unfold settleBinding
  split
  · exact .single (.settle s key hrunning)
  · exact .refl

lemma moves_retryBindingLookup {key : TurnRefreshKey} {run : TurnRefreshRun} (now : ℕ)
    (hrun : s.running.get? key = some run) :
    SchedulerMoves cfg s
      (retryBindingLookup now key run.item { s with running := s.running.pop key }) := by
  have hrunning := OrderedDict.mem_of_get? hrun
  dsimp only [retryBindingLookup, record]
  by_cases haccepting : s.accepting = true
  · by_cases hretry : 0 < (s.bindingRetryRemaining.get? key).getD 1
    · simp only [haccepting, hretry, and_self, if_true]
      exact .single (haccepting ▸ .retryLookup s key run now hrun haccepting hretry)
    · simp only [haccepting, hretry, and_false, if_false, if_true]
      exact .single (haccepting ▸ .giveUpLookup s key hrunning (Nat.eq_zero_of_not_pos hretry))
  · have hstopped := Bool.eq_false_iff.mpr haccepting
    simp only [hstopped, Bool.false_eq_true, false_and, if_false]
    exact .single (hstopped ▸ .dropLookup s key hrunning hstopped)

lemma moves_rerunOrForget {key : TurnRefreshKey} {run : TurnRefreshRun}
    (hrun : s.running.get? key = some run) :
    SchedulerMoves cfg s
      (rerunOrForget cfg key run.item { s with running := s.running.pop key }) := by
  have hrunning := OrderedDict.mem_of_get? hrun
  dsimp only [rerunOrForget]
  split
  · next hdirty =>
    split
    · next hroom => exact .single (.rerun s key run hrun hdirty hroom.1 hroom.2)
    · next hroom =>
      split
      · next haccepting =>
        exact .single (.defer s key run hrun hdirty haccepting
          (Nat.le_of_not_lt fun hlt => hroom ⟨haccepting, hlt⟩))
      · next haccepting =>
        exact .single (.forget s key hrunning (.inr (Bool.eq_false_iff.mpr haccepting)))
  · next hdirty =>
    have hforget := @SchedulerMove.forget cfg s key hrunning (.inl hdirty)
    rw [Finset.erase_eq_of_notMem hdirty] at hforget
    exact .single hforget

theorem refines_collectFinished (now : ℕ) (key : TurnRefreshKey) :
    Refines cfg fun s => collectFinished cfg now s key := by
  intro s hs
  dsimp only [collectFinished]
  split
  · next item result hrun =>
    have hsettled := @moves_settleBinding cfg _ _ (OrderedDict.mem_of_get? hrun) result
    have hrun' := hrun
    rw [← running_settleBinding key result] at hrun'
    rw [settleBinding_running, ← running_settleBinding key result]
    split
    · exact hsettled.trans (moves_retryBindingLookup now hrun')
    · exact hsettled.trans (moves_rerunOrForget hrun')
  · exact .refl

theorem refines_collectFinishedLocked (now : ℕ) :
    Refines cfg fun s => collectFinishedLocked cfg now s :=
  fun s hs => Refines.foldl (refines_collectFinished now) s.running.keys s hs

/-! ### Promotion and dispatch -/

lemma promoteDeferred_of_full (hfull : cfg.queueCapacity ≤ s.queue.length) (key : TurnRefreshKey) :
    promoteDeferred cfg s key = s := by
  unfold promoteDeferred
  split
  · rw [if_neg]
    omega
  · rfl

lemma foldl_promoteDeferred_of_full (hfull : cfg.queueCapacity ≤ s.queue.length)
    (keys : List TurnRefreshKey) : keys.foldl (promoteDeferred cfg) s = s := by
  induction keys with
  | nil => rfl
  | cons key keys ih =>
    rw [List.foldl_cons, promoteDeferred_of_full hfull]
    exact ih

/-- There is nothing to promote where the collections are in order. -/
lemma promoteDeferredLocked_eq (hs : SchedulerInvariant cfg s) :
    promoteDeferredLocked cfg s = s := by
  unfold promoteDeferredLocked
  by_cases hdeferred : s.deferredReruns.keys = []
  · rw [hdeferred]
    rfl
  · exact foldl_promoteDeferred_of_full (hs.full hdeferred) _

/-- Where one place is free, the first of the deferred reruns takes it. -/
lemma promoteDeferredLocked_cons {key : TurnRefreshKey} {keys : List TurnRefreshKey}
    {next : TurnRefreshItem} (hkeys : s.deferredReruns.keys = key :: keys)
    (hnext : s.deferredReruns.get? key = some next) (haccepting : s.accepting = true)
    (hroom : s.queue.length + 1 = cfg.queueCapacity) :
    promoteDeferredLocked cfg s = { s with
      deferredReruns := s.deferredReruns.pop key
      queue := s.queue ++ [next]
      queued := insert key s.queued } := by
  unfold promoteDeferredLocked
  rw [hkeys, List.foldl_cons]
  have hfirst : promoteDeferred cfg s key = { s with
      deferredReruns := s.deferredReruns.pop key
      queue := s.queue ++ [next]
      queued := insert key s.queued } := by
    unfold promoteDeferred
    rw [hnext]
    exact if_pos ⟨haccepting, by omega⟩
  rw [hfirst]
  apply foldl_promoteDeferred_of_full
  rw [List.length_append, List.length_singleton]
  omega

lemma moves_dispatchHead {item : TurnRefreshItem} {rest : List TurnRefreshItem}
    (hs : SchedulerInvariant cfg s) (hqueue : s.queue = item :: rest)
    (haccepting : s.accepting = true) (hworkers : s.running.keys.length < cfg.maxWorkers) :
    SchedulerMoves cfg s (dispatchHead cfg item rest s) := by
  unfold dispatchHead
  cases hkeys : s.deferredReruns.keys with
  | nil =>
    unfold promoteDeferredLocked
    dsimp only
    rw [hkeys]
    exact .single (.start s item rest hqueue hkeys hworkers)
  | cons key keys =>
    -- The queue was full, so there is room for one deferred rerun.
    have hfull := hs.full (by simp [hkeys])
    have hlength : rest.length + 1 = s.queue.length := by rw [hqueue, List.length_cons]
    have hcapacity := hs.capacity
    have hmem : key ∈ s.deferredReruns := by
      change key ∈ s.deferredReruns.keys
      rw [hkeys]
      exact List.mem_cons_self
    obtain ⟨next, hnext⟩ := Option.isSome_iff_exists.mp (OrderedDict.mem_iff.mp hmem)
    have hpromoted := @promoteDeferredLocked_cons cfg { s with
      queue := rest
      queued := s.queued.erase item.key
      bindingRetryDue := s.bindingRetryDue.pop item.key } key keys next hkeys hnext haccepting
      (by dsimp only; omega)
    rw [hpromoted]
    exact .single (.startPromoting s item rest key keys next hqueue hkeys hnext hworkers)

lemma refines_dispatchLoop (rounds : ℕ) : Refines cfg (dispatchLoop cfg rounds) := by
  induction rounds with
  | zero => exact fun _ _ => .refl
  | succ rounds ih =>
    intro s hs
    unfold dispatchLoop
    split
    · exact .refl
    · next item rest hqueue =>
      split
      · next hfree =>
        have hhead := moves_dispatchHead hs hqueue hfree.1 hfree.2
        exact hhead.trans (ih _ (hhead.invariant hs))
      · exact .refl

theorem refines_promoteBindingRetry (now : ℕ) (key : TurnRefreshKey) :
    Refines cfg fun s => promoteBindingRetry cfg now s key := by
  intro s hs
  dsimp only [promoteBindingRetry]
  split
  · next item due hretry =>
    split
    · exact .refl
    · have hkey : item.key = key := hs.retryDue key item due hretry
      have honce := hs.once key
      have hdue : key ∈ s.bindingRetryDue := OrderedDict.mem_of_get? hretry
      unfold flights at honce
      rw [if_pos hdue] at honce
      have hrunning : key ∉ s.running := by
        intro hmem
        rw [if_pos hmem] at honce
        omega
      have hdeferred : key ∉ s.deferredReruns := by
        intro hmem
        rw [if_pos hmem] at honce
        omega
      have hqueued : key ∉ s.queued := by
        rw [hs.queued, ← List.count_pos_iff]
        omega
      unfold enqueueLocked
      dsimp only
      rw [hkey, if_neg hrunning, OrderedDict.get?_pop_self]
      dsimp only
      rw [if_neg hdeferred, if_neg hqueued, ← hkey]
      split
      · next hfull => exact .single (.retryRefused s item.key item due (hkey ▸ hretry) hfull)
      · next hroom =>
        exact .single (.retryQueued s item.key item due (hkey ▸ hretry) (Nat.lt_of_not_le hroom))
  · exact .refl

theorem refines_promoteBindingRetriesLocked (now : ℕ) :
    Refines cfg fun s => promoteBindingRetriesLocked cfg now s :=
  fun s hs => Refines.foldl (refines_promoteBindingRetry now) s.bindingRetryDue.keys s hs

theorem refines_dispatchLocked (now : ℕ) : Refines cfg fun s => dispatchLocked cfg now s := by
  intro s hs
  dsimp only [dispatchLocked]
  rw [promoteDeferredLocked_eq hs]
  have hretries := refines_promoteBindingRetriesLocked now s hs
  exact hretries.trans (refines_dispatchLoop _ _ (hretries.invariant hs))

/-! ### Sections -/

lemma refines_forgetBinding (live : List TurnRefreshKey) (key : TurnRefreshKey) :
    Refines cfg fun s => forgetBinding live s key := by
  intro s _
  dsimp only [forgetBinding]
  split
  · exact .refl
  · split
    · next hretry => exact .single (.forgetRetry s key hretry)
    · next hretry => exact .single (.forgetRemaining s key hretry)

theorem refines_coordinate (clock : Clock) : Refines cfg fun s => (coordinate cfg clock s).1 := by
  intro s hs
  dsimp only [coordinate]
  have hcollected := refines_collectFinishedLocked clock.collected s hs
  split
  · exact hcollected
  · have hpromoted := (refines_promoteBindingRetriesLocked clock.now).comp
      (refines_collectFinishedLocked clock.collected) s hs
    apply hpromoted.trans
    have hinv := hpromoted.invariant hs
    split
    · have hscan := fun u =>
        @SchedulerMove.scanned cfg u false (clock.now + cfg.refreshInterval) u.scanCursor
          u.scanRetryRemaining
      exact .head (hscan _) (refines_dispatchLocked _ _ ((hscan _).invariant hinv))
    · exact refines_dispatchLocked _ _ hinv

theorem refines_scanBindings (now : ℕ) (bindings : List WorkerBinding) :
    Refines cfg fun s => scanBindings cfg now bindings s := by
  intro s hs
  dsimp only [scanBindings]
  have hscanned := @SchedulerMove.scanned cfg s s.rescanRequested s.nextScan s.scanCursor 1
  have hforgotten : SchedulerMoves cfg s _ := Relation.ReflTransGen.head hscanned
    (Refines.foldl (refines_forgetBinding ((scanItems bindings).map TurnRefreshItem.key))
      s.bindingRetryRemaining.keys _ (hscanned.invariant hs))
  have hinv := SchedulerMoves.invariant hforgotten hs
  split
  · apply hforgotten.trans
    have henqueue := fun offset => (@refines_dispatchLocked cfg now).comp
      (Refines.foldl refines_enqueueLocked ((scanItems bindings).rotate offset))
    split
    · exact henqueue _ _ hinv
    · have hcursor := fun u n =>
        @SchedulerMove.scanned cfg u u.rescanRequested u.nextScan n u.scanRetryRemaining
      exact .head (hcursor _ _) (henqueue _ _ ((hcursor _ _).invariant hinv))
  · exact hforgotten

theorem refines_schedulerStep (event : SchedulerEvent) :
    Refines cfg fun s => (schedulerStep cfg s event).1 := by
  intro s hs
  cases event with
  | requestRefresh =>
    dsimp only [schedulerStep, requestRefresh]
    split
    · exact .single (.scanned s _ _ _ _)
    · exact .refl
  | coordinate clock => exact refines_coordinate clock s hs
  | scan now bindings => exact refines_scanBindings now bindings s hs
  | scanFailed now =>
    dsimp only [schedulerStep, TurnIngestionScheduler.scanFailed]
    split
    · exact .single (.scanned s _ _ _ _)
    · exact .refl
  | finish key bindings read =>
    dsimp only [schedulerStep, TurnIngestionScheduler.finish]
    split
    · next item hrun => exact .single (.finish s key item _ hrun)
    · exact .refl
  | stop =>
    dsimp only [schedulerStep, TurnIngestionScheduler.stop]
    split
    · exact .single (.stop s)
    · exact .refl

/-! ### Runs -/

/-- The state before event `n` of a scheduler that is started at `now`. -/
abbrev schedulerAt (cfg : TurnIngestionConfig) (now : ℕ) (calls : ℕ → SchedulerEvent) (n : ℕ) :
    TurnIngestionScheduler :=
  (schedulerMachine cfg).stateAt (started now) calls n

/-- In every state of every run the collections are in order. -/
theorem schedulerAt_invariant (now : ℕ) (calls : ℕ → SchedulerEvent) (n : ℕ) :
    SchedulerInvariant cfg (schedulerAt cfg now calls n) :=
  Machine.stateAt_invariant (schedulerInvariant_started now)
    (fun s event hs => (refines_schedulerStep event s hs).invariant hs) n

theorem schedulerAt_moves (now : ℕ) (calls : ℕ → SchedulerEvent) (n : ℕ) :
    SchedulerMoves cfg (schedulerAt cfg now calls n) (schedulerAt cfg now calls (n + 1)) :=
  refines_schedulerStep (calls n) _ (schedulerAt_invariant now calls n)

lemma schedulerAt_preserves {P : TurnIngestionScheduler → Prop} {now : ℕ}
    {calls : ℕ → SchedulerEvent} (hinit : P (started now))
    (hP : ∀ s t, SchedulerInvariant cfg s → SchedulerMove cfg s t → P s → P t) (n : ℕ) :
    P (schedulerAt cfg now calls n) := by
  induction n with
  | zero => exact hinit
  | succ n ih =>
    exact SchedulerMoves.preserves hP (schedulerAt_moves now calls n)
      (schedulerAt_invariant now calls n) ih

end Tendwire

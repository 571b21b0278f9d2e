import Tendwire.Ingestion.Progress
import Tendwire.Transition.Progress

/-!
# Service

The coordinator takes out what is through, queues the retries that are due, and starts a run where
a worker is free. As long as workers end their runs and the coordinator comes back, every request
is served or given up.
-/

namespace Tendwire

open TurnIngestionScheduler Transition

variable {cfg : TurnIngestionConfig} {s t u : TurnIngestionScheduler} {key : TurnRefreshKey}

/-! ### Sequences of moves -/

namespace SchedulerMoves

lemma accepting (h : SchedulerMoves cfg s t) (haccepting : t.accepting = true) :
    s.accepting = true := by
  induction h with
  | refl => exact haccepting
  | tail _ hmove ih => exact ih (hmove.accepting haccepting)

theorem line (h : SchedulerMoves cfg s t) (hs : SchedulerInvariant cfg s)
    (haccepting : t.accepting = true) : LineMoves s t := by
  induction h with
  | refl => exact .refl s
  | tail hmoves hmove ih =>
    exact (ih (hmove.accepting haccepting)).trans
      (hmove.line (SchedulerMoves.invariant hmoves hs) haccepting)

theorem due {due : ℕ} (h : SchedulerMoves cfg s t) (hs : SchedulerInvariant cfg s)
    (haccepting : t.accepting = true) (hdue : Due key due s) :
    Due key due t ∨ key ∈ t.line ∨ SettledBetween key s t := by
  induction h with
  | refl => exact .inl hdue
  | tail hmoves hmove ih =>
    have hmid := SchedulerMoves.invariant hmoves hs
    have haccepting' := hmove.accepting haccepting
    have hgrows := (line hmoves hs haccepting').grows
    rcases ih haccepting' with hdue | hline | hsettled
    · exact (hmove.due hmid haccepting hdue).imp_right (.imp_right (.left hgrows))
    · exact .inr (((hmove.line hmid haccepting).mem hline).imp_right (.left hgrows))
    · exact .inr (.inr (hsettled.right hmove.history))

theorem marked {done : Bool} (h : SchedulerMoves cfg s t) (hs : SchedulerInvariant cfg s)
    (haccepting : t.accepting = true) (hmarked : Marked key done s) :
    Marked key done t ∨ (∃ due, Due key due t) ∨ key ∈ t.line ∨ SettledBetween key s t := by
  induction h with
  | refl => exact .inl hmarked
  | tail hmoves hmove ih =>
    have hmid := SchedulerMoves.invariant hmoves hs
    have haccepting' := hmove.accepting haccepting
    have hgrows := (line hmoves hs haccepting').grows
    rcases ih haccepting' with hmarked | ⟨due, hdue⟩ | hline | hsettled
    · exact (hmove.marked hmid haccepting hmarked).imp_right
        (.imp_right (.imp_right (.left hgrows)))
    · exact .inr ((hmove.due hmid haccepting hdue).imp (fun h => ⟨due, h⟩)
        (.imp_right (.left hgrows)))
    · exact .inr (.inr (((hmove.line hmid haccepting).mem hline).imp_right (.left hgrows)))
    · exact .inr (.inr (.inr (hsettled.right hmove.history)))

/-- Where no run starts, runs only end. -/
theorem runsEnd (h : SchedulerMoves cfg s t) (hs : SchedulerInvariant cfg s)
    (haccepting : t.accepting = true) (hstarts : starts t.history = starts s.history) :
    RunsEnd s t := by
  induction h with
  | refl => exact .refl s
  | tail hmoves hmove ih =>
    have hmid := SchedulerMoves.invariant hmoves hs
    have haccepting' := hmove.accepting haccepting
    have hbefore := (line hmoves hs haccepting').starts_le
    have hbehind := (hmove.line hmid haccepting).starts_le
    exact (ih haccepting' (by omega)).trans (hmove.runsEnd (by omega))

end SchedulerMoves

/-! ### The sections of the coordinator -/

lemma running_retryBindingLookup (now : ℕ) (item : TurnRefreshItem) :
    (retryBindingLookup now key item s).running = s.running := by
  unfold retryBindingLookup
  grind -ring -linarith [record]

lemma running_rerunOrForget (item : TurnRefreshItem) :
    (rerunOrForget cfg key item s).running = s.running := by
  unfold rerunOrForget
  grind -ring -linarith

/-- A run that is through is taken out, any other one is left alone. -/
lemma running_collectFinished (now : ℕ) (other : TurnRefreshKey) :
    (RunDone other s ∧ (collectFinished cfg now s other).running = s.running.pop other) ∨
      (¬RunDone other s ∧ collectFinished cfg now s other = s) := by
  unfold collectFinished
  split
  · next item result hrun =>
    refine .inl ⟨⟨_, hrun, rfl⟩, ?_⟩
    dsimp only
    split
    · rw [running_retryBindingLookup, running_settleBinding]
    · rw [running_rerunOrForget, running_settleBinding]
  · next hrun =>
    refine .inr ⟨?_, rfl⟩
    rintro ⟨⟨item, result⟩, hget, hdone⟩
    obtain ⟨result, rfl⟩ := Option.isSome_iff_exists.mp hdone
    exact hrun item result hget

lemma sublist_foldl_collectFinished (now : ℕ) (keys : List TurnRefreshKey) :
    (keys.foldl (collectFinished cfg now) s).running.keys.Sublist s.running.keys := by
  induction keys generalizing s with
  | nil => exact List.Sublist.refl _
  | cons other keys ih =>
    apply ih.trans
    rcases @running_collectFinished cfg s now other with ⟨-, hrunning⟩ | ⟨-, hsame⟩
    · rw [hrunning]
      exact List.filter_sublist
    · rw [hsame]

lemma running_foldl_collectFinished (now : ℕ) (keys : List TurnRefreshKey)
    (hdone : RunDone key s) (hmem : key ∈ (keys.foldl (collectFinished cfg now) s).running) :
    key ∉ keys := by
  induction keys generalizing s with
  | nil => exact List.not_mem_nil
  | cons other keys ih =>
    rw [List.foldl_cons] at hmem
    rw [List.mem_cons, not_or]
    rcases @running_collectFinished cfg s now other with ⟨-, hrunning⟩ | ⟨hnot, hsame⟩
    · have hkept := (sublist_foldl_collectFinished now keys).subset hmem
      rw [hrunning, OrderedDict.mem_keys_iff, OrderedDict.mem_pop] at hkept
      have hdone' : RunDone key (collectFinished cfg now s other) := by
        unfold RunDone
        rwa [hrunning, OrderedDict.get?_pop_of_ne hkept.1]
      exact ⟨hkept.1, ih hdone' hmem⟩
    · rw [hsame] at hmem
      exact ⟨fun heq => hnot (heq ▸ hdone), ih hdone hmem⟩

lemma sublist_collectFinishedLocked (cfg : TurnIngestionConfig) (now : ℕ)
    (s : TurnIngestionScheduler) :
    (collectFinishedLocked cfg now s).running.keys.Sublist s.running.keys :=
  sublist_foldl_collectFinished now _

/-- Behind the collection no run that was through is left. -/
theorem notMem_collectFinishedLocked (now : ℕ) (hdone : RunDone key s) :
    key ∉ (collectFinishedLocked cfg now s).running := by
  intro hmem
  have hrunning : key ∉ s.running.keys := running_foldl_collectFinished now _ hdone hmem
  obtain ⟨run, hrun, -⟩ := hdone
  exact hrunning (OrderedDict.mem_of_get? hrun)

lemma retryDue_enqueueLocked {item : TurnRefreshItem}
    (hnone : s.bindingRetryDue.get? item.key = none) :
    (enqueueLocked cfg s item).bindingRetryDue = s.bindingRetryDue := by
  unfold enqueueLocked
  rw [hnone]
  grind -ring -linarith [record]

lemma due_promoteBindingRetry {due now : ℕ} (hs : SchedulerInvariant cfg s)
    (other : TurnRefreshKey) (hdue : Due key due (promoteBindingRetry cfg now s other)) :
    Due key due s ∧ (key = other → now < due) := by
  unfold promoteBindingRetry at hdue
  split at hdue
  · next item time hretry =>
    split at hdue
    · next hlater =>
      refine ⟨hdue, ?_⟩
      rintro rfl
      obtain ⟨item', hitem'⟩ := hdue
      grind -ring -linarith
    · have hkey := hs.retryDue other item time hretry
      unfold Due at hdue
      rw [retryDue_enqueueLocked] at hdue
      · dsimp only at hdue
        rw [OrderedDict.get?_pop] at hdue
        obtain ⟨item', hitem'⟩ := hdue
        split at hitem'
        · cases hitem'
        · next hne => exact ⟨⟨item', hitem'⟩, fun heq => absurd heq hne⟩
      · rw [hkey]
        exact OrderedDict.get?_pop_self
  · next hnone =>
    refine ⟨hdue, ?_⟩
    rintro rfl
    obtain ⟨item, hitem⟩ := hdue
    rw [hnone] at hitem
    cases hitem

lemma due_foldl_promoteBindingRetry {due now : ℕ} (keys : List TurnRefreshKey)
    (hs : SchedulerInvariant cfg s)
    (hdue : Due key due (keys.foldl (promoteBindingRetry cfg now) s)) :
    Due key due s ∧ (key ∈ keys → now < due) := by
  induction keys generalizing s with
  | nil => exact ⟨hdue, fun hmem => absurd hmem List.not_mem_nil⟩
  | cons other keys ih =>
    have hother := SchedulerMoves.invariant (refines_promoteBindingRetry now other s hs) hs
    obtain ⟨hdue, hkeys⟩ := ih hother hdue
    obtain ⟨hdue, hhead⟩ := due_promoteBindingRetry hs other hdue
    exact ⟨hdue, fun hmem => (List.mem_cons.mp hmem).elim hhead hkeys⟩

/-- Behind the promotion no retry is left whose time had come. -/
theorem not_due_promoteBindingRetriesLocked {due now : ℕ} (hs : SchedulerInvariant cfg s)
    (htime : due ≤ now) : ¬Due key due (promoteBindingRetriesLocked cfg now s) := by
  intro hdue
  obtain ⟨⟨item, hitem⟩, hkeys⟩ := due_foldl_promoteBindingRetry _ hs hdue
  have hlt := hkeys (OrderedDict.mem_of_get? hitem)
  omega

lemma history_promoteDeferredLocked :
    (promoteDeferredLocked cfg s).history = s.history := by
  unfold promoteDeferredLocked
  induction s.deferredReruns.keys generalizing s with
  | nil => rfl
  | cons key keys ih =>
    rw [List.foldl_cons, ih]
    unfold promoteDeferred
    grind -ring -linarith

lemma starts_dispatchHead {item : TurnRefreshItem} {rest : List TurnRefreshItem} :
    starts (dispatchHead cfg item rest s).history = starts s.history + 1 := by
  change starts (promoteDeferredLocked cfg _).history + 1 = _
  rw [history_promoteDeferredLocked]

lemma starts_dispatchLoop (hs : SchedulerInvariant cfg s)
    (haccepting : (dispatchLoop cfg (s.queue.length + s.deferredReruns.keys.length) s).accepting = true)
    (hline : s.line ≠ []) (hfree : s.running.keys.length < cfg.maxWorkers) :
    starts s.history <
      starts (dispatchLoop cfg (s.queue.length + s.deferredReruns.keys.length) s).history := by
  have haccepting' := SchedulerMoves.accepting (refines_dispatchLoop _ s hs) haccepting
  cases hqueue : s.queue with
  | nil =>
    -- The line does not begin with deferred reruns: they wait behind a full queue.
    have hdeferred : s.deferredReruns.keys ≠ [] := by
      intro hempty
      apply hline
      unfold line queueKeys
      rw [hqueue, hempty]
      rfl
    have hfull := hs.full hdeferred
    have hpos := cfg.queueCapacity_pos
    rw [hqueue, List.length_nil] at hfull
    omega
  | cons item rest =>
    have hround : ∀ rounds, dispatchLoop cfg (rounds + 1) s =
        dispatchLoop cfg rounds (dispatchHead cfg item rest s) := by
      intro rounds
      rw [dispatchLoop, hqueue]
      exact if_pos ⟨haccepting', hfree⟩
    rw [hqueue, List.length_cons, Nat.add_right_comm, hround] at haccepting
    rw [List.length_cons, Nat.add_right_comm, hround]
    have hhead := SchedulerMoves.invariant (moves_dispatchHead hs hqueue haccepting' hfree) hs
    have hrest := SchedulerMoves.line (refines_dispatchLoop _ _ hhead) hhead haccepting
    have hle := hrest.starts_le
    rw [starts_dispatchHead] at hle
    omega

/-- A worker that is free takes the head of the line. -/
theorem starts_dispatchLocked {now : ℕ} (hs : SchedulerInvariant cfg s)
    (haccepting : (dispatchLocked cfg now s).accepting = true) (hline : s.line ≠ [])
    (hfree : s.running.keys.length < cfg.maxWorkers) :
    starts s.history < starts (dispatchLocked cfg now s).history := by
  dsimp only [dispatchLocked] at *
  rw [promoteDeferredLocked_eq hs] at *
  have hpromoted : SchedulerMoves cfg s (promoteBindingRetriesLocked cfg now s) :=
    refines_promoteBindingRetriesLocked now s hs
  generalize promoteBindingRetriesLocked cfg now s = p at *
  have hp := SchedulerMoves.invariant hpromoted hs
  have hlooped := refines_dispatchLoop (p.queue.length + p.deferredReruns.keys.length) p hp
  have haccepting' := SchedulerMoves.accepting hlooped haccepting
  have hmoved := SchedulerMoves.line hpromoted hs haccepting'
  by_cases hstarts : starts p.history = starts s.history
  · have hlength := (SchedulerMoves.runsEnd hpromoted hs haccepting' hstarts).sublist.length_le
    have hstart := starts_dispatchLoop hp haccepting (hmoved.ne_nil hstarts hline) (by omega)
    omega
  · have hle := hmoved.starts_le
    have hle' := (SchedulerMoves.line hlooped hp haccepting).starts_le
    omega

/-- A section of the coordinator: collection, promotion, dispatch. -/
lemma coordinate_eq {clock : Clock} (haccepting : (coordinate cfg clock s).1.accepting = true) :
    ∃ rescanRequested nextScan, (coordinate cfg clock s).1 = dispatchLocked cfg clock.dispatched
      { promoteBindingRetriesLocked cfg clock.now (collectFinishedLocked cfg clock.collected s) with
        rescanRequested, nextScan } := by
  dsimp only [coordinate] at *
  split at haccepting
  · next hstopped =>
    rw [hstopped.1] at haccepting
    exact absurd haccepting Bool.false_ne_true
  · next hgoing =>
    rw [if_neg hgoing]
    dsimp only
    split
    · exact ⟨_, _, rfl⟩
    · exact ⟨_, _, rfl⟩

/-- The collection, the promotion and the dispatch as sequences of moves. -/
lemma coordinate_stages {clock : Clock} (hs : SchedulerInvariant cfg s)
    (haccepting : (coordinate cfg clock s).1.accepting = true) :
    ∃ p, SchedulerMoves cfg s (collectFinishedLocked cfg clock.collected s) ∧
      SchedulerMoves cfg (collectFinishedLocked cfg clock.collected s) p ∧
      (∀ key due, due ≤ clock.now → ¬Due key due p) ∧
      (coordinate cfg clock s).1 = dispatchLocked cfg clock.dispatched p := by
  obtain ⟨rescanRequested, nextScan, heq⟩ := coordinate_eq haccepting
  have hcollected : SchedulerMoves cfg s (collectFinishedLocked cfg clock.collected s) :=
    refines_collectFinishedLocked clock.collected s hs
  have hc := SchedulerMoves.invariant hcollected hs
  refine ⟨_, hcollected, ?_, ?_, heq⟩
  · exact (refines_promoteBindingRetriesLocked clock.now _ hc).tail
      (.scanned _ rescanRequested nextScan _ _)
  · intro key due htime
    exact not_due_promoteBindingRetriesLocked hc htime

/-- A marked run that is through is taken on. -/
theorem coordinate_marked {clock : Clock} (hs : SchedulerInvariant cfg s)
    (haccepting : (coordinate cfg clock s).1.accepting = true) (hmarked : Marked key true s) :
    (∃ due, Due key due (coordinate cfg clock s).1) ∨ key ∈ (coordinate cfg clock s).1.line ∨
      SettledBetween key s (coordinate cfg clock s).1 := by
  obtain ⟨p, hcollected, hpromoted, -, heq⟩ := coordinate_stages hs haccepting
  rw [heq] at haccepting ⊢
  have hc := SchedulerMoves.invariant hcollected hs
  have hrest := hpromoted.trans (refines_dispatchLocked clock.dispatched p
    (SchedulerMoves.invariant hpromoted hc))
  have haccepting' := SchedulerMoves.accepting hrest haccepting
  have hgrows := (SchedulerMoves.line hcollected hs haccepting').grows
  have hnot : ¬Marked key true (collectFinishedLocked cfg clock.collected s) := by
    rintro ⟨-, run, hrun, -⟩
    obtain ⟨-, run', hrun', hdone⟩ := hmarked
    exact notMem_collectFinishedLocked clock.collected ⟨run', hrun', hdone rfl⟩
      (OrderedDict.mem_of_get? hrun)
  rcases (SchedulerMoves.marked hcollected hs haccepting' hmarked).resolve_left hnot with
    ⟨due, hdue⟩ | hline | hsettled
  · exact (SchedulerMoves.due hrest hc haccepting hdue).imp (fun h => ⟨due, h⟩)
      (.imp_right (.left hgrows))
  · exact .inr (((SchedulerMoves.line hrest hc haccepting).mem hline).imp_right (.left hgrows))
  · exact .inr (.inr (hsettled.right (SchedulerMoves.line hrest hc haccepting).grows))

/-- A retry whose time has come is taken on. -/
theorem coordinate_due {clock : Clock} {due : ℕ} (hs : SchedulerInvariant cfg s)
    (haccepting : (coordinate cfg clock s).1.accepting = true) (htime : due ≤ clock.now)
    (hdue : Due key due s) :
    key ∈ (coordinate cfg clock s).1.line ∨ SettledBetween key s (coordinate cfg clock s).1 := by
  obtain ⟨p, hcollected, hpromoted, hnone, heq⟩ := coordinate_stages hs haccepting
  rw [heq] at haccepting ⊢
  have hmoves := hcollected.trans hpromoted
  have hp := SchedulerMoves.invariant hmoves hs
  have hrest : SchedulerMoves cfg p (dispatchLocked cfg clock.dispatched p) :=
    refines_dispatchLocked clock.dispatched p hp
  have haccepting' := SchedulerMoves.accepting hrest haccepting
  have hgrows := (SchedulerMoves.line hmoves hs haccepting').grows
  rcases (SchedulerMoves.due hmoves hs haccepting' hdue).resolve_left (hnone key due htime) with
    hline | hsettled
  · exact ((SchedulerMoves.line hrest hp haccepting).mem hline).imp_right (.left hgrows)
  · exact .inr (hsettled.right (SchedulerMoves.line hrest hp haccepting).grows)

/-- The head of the line is started, unless the collection leaves every worker with a run. -/
theorem coordinate_starts {clock : Clock} (hs : SchedulerInvariant cfg s)
    (haccepting : (coordinate cfg clock s).1.accepting = true) (hline : s.line ≠ [])
    (hfree : (collectFinishedLocked cfg clock.collected s).running.keys.length < cfg.maxWorkers) :
    starts s.history < starts (coordinate cfg clock s).1.history := by
  obtain ⟨p, hcollected, hpromoted, -, heq⟩ := coordinate_stages hs haccepting
  rw [heq] at haccepting ⊢
  have hc := SchedulerMoves.invariant hcollected hs
  have hp := SchedulerMoves.invariant hpromoted hc
  have hrest : SchedulerMoves cfg p (dispatchLocked cfg clock.dispatched p) :=
    refines_dispatchLocked clock.dispatched p hp
  have haccepting' := SchedulerMoves.accepting hrest haccepting
  have hfirst := SchedulerMoves.line hcollected hs
    (SchedulerMoves.accepting hpromoted haccepting')
  have hsecond := SchedulerMoves.line hpromoted hc haccepting'
  have hthird := (SchedulerMoves.line hrest hp haccepting).starts_le
  have hle := hfirst.starts_le
  have hle' := hsecond.starts_le
  by_cases hstarts : starts p.history = starts s.history
  · have hruns := (SchedulerMoves.runsEnd hpromoted hc haccepting' (by omega)).sublist.length_le
    have hne := hsecond.ne_nil (by omega) (hfirst.ne_nil (by omega) hline)
    have hstart := starts_dispatchLocked hp haccepting hne (by omega)
    omega
  · omega

/-! ### Fair runs -/

/-- Nobody stops the scheduler, a worker ends each of its runs, and the coordinator comes back at
ever later times. -/
structure FairSchedule (cfg : TurnIngestionConfig) (now : ℕ) (calls : ℕ → SchedulerEvent) :
    Prop where
  accepting : ∀ n, (schedulerAt cfg now calls n).accepting = true
  finishes : ∀ n, ∀ key ∈ (schedulerAt cfg now calls n).running,
    RunDone key (schedulerAt cfg now calls n) ∨
      ∃ m, n ≤ m ∧ ∃ bindings read, calls m = .finish key bindings read
  coordinates : ∀ n time, ∃ m, n ≤ m ∧ ∃ clock, calls m = .coordinate clock ∧ time ≤ clock.now

variable {now n m : ℕ} {calls : ℕ → SchedulerEvent}

lemma schedulerAt_moves_le (hnm : n ≤ m) :
    SchedulerMoves cfg (schedulerAt cfg now calls n) (schedulerAt cfg now calls m) := by
  induction m, hnm using Nat.le_induction with
  | base => exact .refl
  | succ m _ ih => exact ih.trans (schedulerAt_moves now calls m)

lemma schedulerAt_coordinate {clock : Clock} (hcall : calls n = .coordinate clock) :
    schedulerAt cfg now calls (n + 1) = (coordinate cfg clock (schedulerAt cfg now calls n)).1 := by
  change (schedulerStep cfg (schedulerAt cfg now calls n) (calls n)).1 = _
  rw [hcall]
  rfl

lemma schedulerAt_finish {bindings : Option (List WorkerBinding)}
    {read : WorkerBinding → Option TurnRefreshStatus} (hcall : calls n = .finish key bindings read)
    (hrunning : key ∈ (schedulerAt cfg now calls n).running) :
    RunDone key (schedulerAt cfg now calls (n + 1)) ∧
      (schedulerAt cfg now calls (n + 1)).dirty = (schedulerAt cfg now calls n).dirty := by
  obtain ⟨⟨item, result⟩, hrun⟩ := Option.isSome_iff_exists.mp (OrderedDict.mem_iff.mp hrunning)
  change RunDone key (schedulerStep cfg (schedulerAt cfg now calls n) (calls n)).1 ∧
    (schedulerStep cfg (schedulerAt cfg now calls n) (calls n)).1.dirty = _
  rw [hcall]
  dsimp only [schedulerStep, TurnIngestionScheduler.finish]
  unfold RunDone
  rw [hrun]
  cases result with
  | none => exact ⟨⟨_, OrderedDict.get?_set_self, rfl⟩, rfl⟩
  | some result => exact ⟨⟨_, hrun, rfl⟩, rfl⟩

namespace FairSchedule

variable (h : FairSchedule cfg now calls)
include h

lemma line_le (hnm : n ≤ m) :
    LineMoves (schedulerAt cfg now calls n) (schedulerAt cfg now calls m) :=
  SchedulerMoves.line (schedulerAt_moves_le hnm) (schedulerAt_invariant now calls n) (h.accepting m)

/-- Where there is a line, a run starts at some time. -/
theorem exists_start (hline : (schedulerAt cfg now calls n).line ≠ []) :
    ∃ m, n ≤ m ∧ starts (schedulerAt cfg now calls n).history <
      starts (schedulerAt cfg now calls m).history := by
  by_contra hnever
  have hstarts : ∀ m, n ≤ m → starts (schedulerAt cfg now calls m).history =
      starts (schedulerAt cfg now calls n).history := by
    intro m hnm
    have hle := (h.line_le hnm).starts_le
    have hnot : ¬_ < _ := fun hlt => hnever ⟨m, hnm, hlt⟩
    omega
  have hruns : ∀ k m, n ≤ k → k ≤ m →
      RunsEnd (schedulerAt cfg now calls k) (schedulerAt cfg now calls m) := by
    intro k m hnk hkm
    exact SchedulerMoves.runsEnd (schedulerAt_moves_le hkm) (schedulerAt_invariant now calls k)
      (h.accepting m) ((hstarts m (Nat.le_trans hnk hkm)).trans (hstarts k hnk).symm)
  -- At no collection a worker comes free.
  have hbusy : ∀ m clock, n ≤ m → calls m = .coordinate clock → cfg.maxWorkers ≤
      (collectFinishedLocked cfg clock.collected (schedulerAt cfg now calls m)).running.keys.length := by
    intro m clock hnm hcall
    by_contra hfree
    have haccepting := h.accepting (m + 1)
    rw [schedulerAt_coordinate hcall] at haccepting
    have hstart := coordinate_starts (schedulerAt_invariant now calls m) haccepting
      ((h.line_le hnm).ne_nil (hstarts m hnm) hline) (Nat.lt_of_not_le hfree)
    rw [← schedulerAt_coordinate hcall, hstarts m hnm, hstarts (m + 1) (Nat.le_succ_of_le hnm)]
      at hstart
    exact Nat.lt_irrefl _ hstart
  obtain ⟨m, hnm, clock, hcall, -⟩ := h.coordinates n 0
  have hcollected := (sublist_collectFinishedLocked cfg clock.collected
    (schedulerAt cfg now calls m)).length_le
  have hmax := hbusy m clock hnm hcall
  have hpos := cfg.maxWorkers_pos
  -- One of the runs is through before the next collection, which takes it out.
  obtain ⟨key, hkey⟩ := List.exists_mem_of_length_pos
    (l := (schedulerAt cfg now calls m).running.keys) (by omega)
  obtain ⟨m', hmm', hdone⟩ : ∃ m', m ≤ m' ∧ (key ∈ (schedulerAt cfg now calls m').running →
      RunDone key (schedulerAt cfg now calls m')) := by
    rcases h.finishes m key hkey with hdone | ⟨m', hmm', bindings, read, hfinish⟩
    · exact ⟨m, Nat.le_refl m, fun _ => hdone⟩
    · refine ⟨m' + 1, Nat.le_succ_of_le hmm', fun hrunning => ?_⟩
      have hbefore := (hruns m' (m' + 1) (by omega) (Nat.le_succ m')).sublist.subset hrunning
      exact (schedulerAt_finish hfinish hbefore).1
  obtain ⟨m'', hmm'', clock', hcall', -⟩ := h.coordinates m' 0
  have hworkers := (@schedulerAt_invariant cfg now calls m).workers
  have hbusy' := hbusy m'' clock' (by omega) hcall'
  have hsub := sublist_collectFinishedLocked cfg clock'.collected (schedulerAt cfg now calls m'')
  have hsame := (hsub.trans (hruns m m'' hnm (by omega)).sublist).eq_of_length_le
    (Nat.le_trans hworkers hbusy')
  have hkept : key ∈ (collectFinishedLocked cfg clock'.collected
      (schedulerAt cfg now calls m'')).running.keys := hsame ▸ hkey
  have hlast := hsub.subset hkept
  have hruns' := hruns m' m'' (by omega) hmm''
  exact notMem_collectFinishedLocked clock'.collected
    (hruns'.done key (hdone (hruns'.sublist.subset hlast)) hlast) hkept

/-- Whoever is in the line is served. -/
theorem line_settled (hkey : key ∈ (schedulerAt cfg now calls n).line) :
    ∃ m, n ≤ m ∧ SettledBetween key (schedulerAt cfg now calls n) (schedulerAt cfg now calls m) := by
  obtain ⟨front, back, hsplit⟩ := List.append_of_mem hkey
  induction hlength : front.length using Nat.strong_induction_on generalizing n front back with
  | _ place ih =>
    obtain ⟨m, hnm, hstart⟩ := h.exists_start (List.ne_nil_of_mem hkey)
    obtain ⟨hgrows, started, added, hline, hstarts, hsettled⟩ := h.line_le hnm
    rw [hsplit, List.append_assoc, List.cons_append] at hline
    rcases List.append_eq_append_iff.mp hline with ⟨more, hstarted, hrest⟩ | ⟨rest, hfront, hmore⟩
    · cases more with
      | nil =>
        -- Everybody ahead was started, and the key is the head now.
        rw [List.append_nil] at hstarted
        rw [List.nil_append] at hrest
        have hm : key ∈ (schedulerAt cfg now calls m).line := by
          rw [← hrest]
          exact List.mem_cons_self
        have hless : ([] : List TurnRefreshKey).length < place := by
          rw [← hlength, ← hstarted, List.length_nil]
          omega
        obtain ⟨k, hmk, hk⟩ := ih _ hless hm [] (back ++ added) hrest.symm rfl
        exact ⟨k, Nat.le_trans hnm hmk, hk.left hgrows⟩
      | cons other more =>
        have hother : key = other := by
          rw [List.cons_append] at hrest
          exact (List.cons.inj hrest).1
        refine ⟨m, hnm, hsettled key ?_⟩
        rw [hstarted, hother]
        exact List.mem_append_right _ List.mem_cons_self
    · have hm : key ∈ (schedulerAt cfg now calls m).line := by
        rw [hmore]
        exact List.mem_append_right _ List.mem_cons_self
      have hless : rest.length < place := by
        rw [← hlength, hfront, List.length_append]
        omega
      obtain ⟨k, hmk, hk⟩ := ih _ hless hm rest (back ++ added) hmore rfl
      exact ⟨k, Nat.le_trans hnm hmk, hk.left hgrows⟩

theorem due_settled {due : ℕ} (hdue : Due key due (schedulerAt cfg now calls n)) :
    ∃ m, n ≤ m ∧ SettledBetween key (schedulerAt cfg now calls n) (schedulerAt cfg now calls m) := by
  have hgoes := eventually_of_unless (n := n)
    (P := fun m => Due key due (schedulerAt cfg now calls m))
    (Q := fun m => key ∈ (schedulerAt cfg now calls m).line ∨
      SettledBetween key (schedulerAt cfg now calls n) (schedulerAt cfg now calls m)) hdue ?_ ?_
  · obtain ⟨m, hnm, hline | hsettled⟩ := hgoes
    · obtain ⟨k, hmk, hk⟩ := h.line_settled hline
      exact ⟨k, Nat.le_trans hnm hmk, hk.left (h.line_le hnm).grows⟩
    · exact ⟨m, hnm, hsettled⟩
  · intro m hnm hdue
    exact (SchedulerMoves.due (schedulerAt_moves now calls m) (schedulerAt_invariant now calls m)
      (h.accepting (m + 1)) hdue).imp_right (.imp_right (.left (h.line_le hnm).grows))
  · obtain ⟨m, hnm, clock, hcall, htime⟩ := h.coordinates n due
    refine ⟨m, hnm, fun hdue => ?_⟩
    have haccepting := h.accepting (m + 1)
    rw [schedulerAt_coordinate hcall] at haccepting ⊢
    exact (coordinate_due (schedulerAt_invariant now calls m) haccepting htime hdue).imp_right
      (.left (h.line_le hnm).grows)

lemma settled_of_taken (hnm : n ≤ m)
    (htaken : (∃ due, Due key due (schedulerAt cfg now calls m)) ∨
      key ∈ (schedulerAt cfg now calls m).line ∨
      SettledBetween key (schedulerAt cfg now calls n) (schedulerAt cfg now calls m)) :
    ∃ k, n ≤ k ∧ SettledBetween key (schedulerAt cfg now calls n) (schedulerAt cfg now calls k) := by
  have hgrows := (h.line_le hnm).grows
  rcases htaken with ⟨due, hdue⟩ | hline | hsettled
  · obtain ⟨k, hmk, hk⟩ := h.due_settled hdue
    exact ⟨k, Nat.le_trans hnm hmk, hk.left hgrows⟩
  · obtain ⟨k, hmk, hk⟩ := h.line_settled hline
    exact ⟨k, Nat.le_trans hnm hmk, hk.left hgrows⟩
  · exact ⟨m, hnm, hsettled⟩

theorem done_settled (hmarked : Marked key true (schedulerAt cfg now calls n)) :
    ∃ m, n ≤ m ∧ SettledBetween key (schedulerAt cfg now calls n) (schedulerAt cfg now calls m) := by
  have hgoes := eventually_of_unless (n := n)
    (P := fun m => Marked key true (schedulerAt cfg now calls m))
    (Q := fun m => (∃ due, Due key due (schedulerAt cfg now calls m)) ∨
      key ∈ (schedulerAt cfg now calls m).line ∨
      SettledBetween key (schedulerAt cfg now calls n) (schedulerAt cfg now calls m)) hmarked ?_ ?_
  · obtain ⟨m, hnm, htaken⟩ := hgoes
    exact h.settled_of_taken hnm htaken
  · intro m hnm hmarked
    exact (SchedulerMoves.marked (schedulerAt_moves now calls m)
      (schedulerAt_invariant now calls m) (h.accepting (m + 1)) hmarked).imp_right
      (.imp_right (.imp_right (.left (h.line_le hnm).grows)))
  · obtain ⟨m, hnm, clock, hcall, -⟩ := h.coordinates n 0
    refine ⟨m, hnm, fun hmarked => ?_⟩
    have haccepting := h.accepting (m + 1)
    rw [schedulerAt_coordinate hcall] at haccepting ⊢
    exact (coordinate_marked (schedulerAt_invariant now calls m) haccepting hmarked).imp_right
      (.imp_right (.left (h.line_le hnm).grows))

theorem marked_settled (hmarked : Marked key false (schedulerAt cfg now calls n)) :
    ∃ m, n ≤ m ∧ SettledBetween key (schedulerAt cfg now calls n) (schedulerAt cfg now calls m) := by
  obtain ⟨run, hrun, -⟩ := hmarked.2
  rcases h.finishes n key (OrderedDict.mem_of_get? hrun) with
    ⟨run', hrun', hdone⟩ | ⟨m, hnm, bindings, read, hcall⟩
  · exact h.done_settled ⟨hmarked.1, run', hrun', fun _ => hdone⟩
  have hgoes := eventually_of_unless (n := n)
    (P := fun m => Marked key false (schedulerAt cfg now calls m))
    (Q := fun m => Marked key true (schedulerAt cfg now calls m) ∨
      (∃ due, Due key due (schedulerAt cfg now calls m)) ∨
      key ∈ (schedulerAt cfg now calls m).line ∨
      SettledBetween key (schedulerAt cfg now calls n) (schedulerAt cfg now calls m)) hmarked ?_ ?_
  · obtain ⟨m, hnm, hdone | htaken⟩ := hgoes
    · obtain ⟨k, hmk, hk⟩ := h.done_settled hdone
      exact ⟨k, Nat.le_trans hnm hmk, hk.left (h.line_le hnm).grows⟩
    · exact h.settled_of_taken hnm htaken
  · intro m hnm hmarked
    have hmoved := SchedulerMoves.marked (schedulerAt_moves now calls m)
      (schedulerAt_invariant now calls m) (h.accepting (m + 1)) hmarked
    exact hmoved.imp_right fun htaken =>
      .inr (htaken.imp_right (.imp_right (.left (h.line_le hnm).grows)))
  · refine ⟨m, hnm, ?_⟩
    rintro ⟨hdirty, run, hrun, -⟩
    obtain ⟨⟨run', hrun', hdone⟩, hsame⟩ := schedulerAt_finish hcall (OrderedDict.mem_of_get? hrun)
    exact .inl ⟨hsame ▸ hdirty, run', hrun', fun _ => hdone⟩

/-- What is pending comes to a run, or is given up. -/
theorem pending_settled (hpending : Pending key (schedulerAt cfg now calls n)) :
    ∃ m, n ≤ m ∧ SettledBetween key (schedulerAt cfg now calls n) (schedulerAt cfg now calls m) := by
  have hinv := @schedulerAt_invariant cfg now calls n
  rcases hpending with hdirty | hqueue | hdeferred | hretry
  · obtain ⟨run, hrun⟩ :=
      Option.isSome_iff_exists.mp (OrderedDict.mem_iff.mp (hinv.dirty key hdirty))
    exact h.marked_settled ⟨hdirty, run, hrun, fun hfalse => absurd hfalse Bool.false_ne_true⟩
  · exact h.line_settled (List.mem_append_left _ hqueue)
  · exact h.line_settled (List.mem_append_right _ hdeferred)
  · obtain ⟨⟨item, due⟩, hitem⟩ := Option.isSome_iff_exists.mp (OrderedDict.mem_iff.mp hretry)
    exact h.due_settled ⟨item, hitem⟩

/-- What is enqueued during a run of its key comes to a later run, or is dropped behind a lookup
that failed. -/
theorem request_outcome {item : TurnRefreshItem} {after before : List SchedulerAct}
    (hhistory : (schedulerAt cfg now calls n).history =
      after ++ .enqueue item .running :: before) :
    ∃ m, n ≤ m ∧ ∃ later, (schedulerAt cfg now calls m).history =
      later ++ .enqueue item .running :: before ∧ Outcome item.key later := by
  have hsettled : ∃ m, n ≤ m ∧ ∃ later, (schedulerAt cfg now calls m).history =
      later ++ .enqueue item .running :: before ∧ ∃ act ∈ later, act.Settles item.key := by
    rcases pending_or_settled (h.accepting n) hhistory with hpending | hsettled
    · obtain ⟨m, hnm, hsettled⟩ := h.pending_settled hpending
      obtain ⟨acts, hacts⟩ := (h.line_le hnm).grows
      unfold SettledBetween at hsettled
      rw [← hacts, settled_append] at hsettled
      obtain ⟨act, hmem, hact⟩ := @exists_settles item.key acts (by omega)
      refine ⟨m, hnm, acts ++ after, ?_, act, List.mem_append_left _ hmem, hact⟩
      rw [← hacts, hhistory, List.append_assoc]
    · exact ⟨n, Nat.le_refl n, after, hhistory, hsettled⟩
  obtain ⟨m, hnm, later, hlater, hact⟩ := hsettled
  have hsound := (@schedulerAt_request cfg now calls m).sound
  have hstop := stop_notMem (h.accepting m)
  rw [hlater] at hsound hstop
  exact ⟨m, hnm, later, hlater, outcome_of_settles hsound hstop hact⟩

end FairSchedule

/-! ### The scheduler -/

/-- One flight for each key, a bounded queue, no request lost, and the newest item for each run that
did not find another one in the queue. -/
structure IngestionService (cfg : TurnIngestionConfig) (now : ℕ) (calls : ℕ → SchedulerEvent) :
    Prop where
  singleFlight : ∀ n key, (schedulerAt cfg now calls n).flights key ≤ 1
  capacity : ∀ n, (schedulerAt cfg now calls n).queue.length ≤ cfg.queueCapacity
  kept : ∀ n item after before, (schedulerAt cfg now calls n).accepting = true →
    (schedulerAt cfg now calls n).history = after ++ .enqueue item .running :: before →
    Pending item.key (schedulerAt cfg now calls n) ∨ Outcome item.key after
  served : FairSchedule cfg now calls → ∀ n item after before,
    (schedulerAt cfg now calls n).history = after ++ .enqueue item .running :: before →
    ∃ m, n ≤ m ∧ ∃ later, (schedulerAt cfg now calls m).history =
      later ++ .enqueue item .running :: before ∧ Outcome item.key later
  failedTwice : ∀ n key after before,
    (schedulerAt cfg now calls n).history = after ++ .giveUp key .lookupFailedTwice :: before →
    2 ≤ lookupFailures key before
  newest : ∀ n item after before,
    (schedulerAt cfg now calls n).history = after ++ .start item :: before →
    ¬KeptOther item before → lastEnqueued item.key before = some item

theorem ingestionService (cfg : TurnIngestionConfig) (now : ℕ) (calls : ℕ → SchedulerEvent) :
    IngestionService cfg now calls where
  singleFlight n := (schedulerAt_invariant now calls n).once
  capacity n := (schedulerAt_invariant now calls n).capacity
  kept n item after before haccepting hhistory := by
    refine (pending_or_settled haccepting hhistory).imp_right fun hsettled => ?_
    have hsound := (@schedulerAt_request cfg now calls n).sound
    have hstop := stop_notMem haccepting
    rw [hhistory] at hsound hstop
    exact outcome_of_settles hsound hstop hsettled
  served hfair _ _ _ _ hhistory := hfair.request_outcome hhistory
  failedTwice _ _ _ _ hhistory := giveUp_sound hhistory
  newest _ _ _ _ hhistory hkept := (start_sound hhistory).resolve_right hkept

/-! Two runs of one worker. In the first the binding is gone when the retry of its lookup is due.
In the second the binding of a queued item changes. -/

def oneWorker : TurnIngestionConfig := ⟨2000, 1, 64, by decide, by decide, by decide, by decide⟩

def paneBinding (fingerprint pane : String) : WorkerBinding :=
  ⟨"host", "worker", "worker", "herdr", "pane_id", pane, some "pane_id", some pane, true, none, "", "",
    fingerprint⟩

def bindingGoneCalls : ℕ → SchedulerEvent
  | 0 => .scan 0 [paneBinding "a" "p"]
  | 1 => .scan 0 [paneBinding "a" "p"]
  | 2 => .finish "a" none fun _ => none
  | 3 => .coordinate ⟨0, 0, 0⟩
  | 4 => .scan 0 []
  | n + 5 => .coordinate ⟨n, n, n⟩

def targetChangeCalls : ℕ → SchedulerEvent
  | 0 => .scan 0 [paneBinding "a" "p", paneBinding "b" "q"]
  | 1 => .scan 0 [paneBinding "a" "p", paneBinding "b" "r"]
  | 2 => .finish "a" (some [paneBinding "a" "p"]) fun _ => some .unchanged
  | n + 3 => .coordinate ⟨n, n, n⟩

/-- With nothing to do, the coordinator does nothing. -/
lemma coordinate_idle {clock : Clock} (hqueue : s.queue = []) (hrunning : s.running.keys = [])
    (hdeferred : s.deferredReruns.keys = []) (hretry : s.bindingRetryDue.keys = []) :
    (coordinate cfg clock s).1.queue = [] ∧ (coordinate cfg clock s).1.running.keys = [] ∧
      (coordinate cfg clock s).1.deferredReruns.keys = [] ∧
      (coordinate cfg clock s).1.bindingRetryDue.keys = [] ∧
      (coordinate cfg clock s).1.accepting = s.accepting ∧
      (coordinate cfg clock s).1.history = s.history := by
  unfold coordinate collectFinishedLocked promoteBindingRetriesLocked dispatchLocked
    promoteBindingRetriesLocked promoteDeferredLocked
  simp only [hrunning, hretry, List.foldl_nil]
  split
  · exact ⟨hqueue, hrunning, hdeferred, hretry, rfl, rfl⟩
  · split
    all_goals
      simp only [hdeferred, hretry, hqueue, List.foldl_nil, List.length_nil, dispatchLoop]
      exact ⟨trivial, hrunning, trivial, trivial, trivial, trivial⟩

/-- From its fifth event on the first run stands still. -/
lemma bindingGone_idle (n : ℕ) :
    (schedulerAt oneWorker 0 bindingGoneCalls (n + 5)).queue = [] ∧
      (schedulerAt oneWorker 0 bindingGoneCalls (n + 5)).running.keys = [] ∧
      (schedulerAt oneWorker 0 bindingGoneCalls (n + 5)).deferredReruns.keys = [] ∧
      (schedulerAt oneWorker 0 bindingGoneCalls (n + 5)).bindingRetryDue.keys = [] ∧
      (schedulerAt oneWorker 0 bindingGoneCalls (n + 5)).accepting = true ∧
      (schedulerAt oneWorker 0 bindingGoneCalls (n + 5)).history =
        [.giveUp "a" .bindingGone, .lookupFailed "a",
          .enqueue (.fromBinding (paneBinding "a" "p")) .running,
          .start (.fromBinding (paneBinding "a" "p")),
          .enqueue (.fromBinding (paneBinding "a" "p")) .idle] := by
  induction n with
  | zero => decide +kernel
  | succ n ih =>
    obtain ⟨hqueue, hrunning, hdeferred, hretry, haccepting, hhistory⟩ := ih
    rw [Nat.add_right_comm, schedulerAt_coordinate rfl, ← haccepting, ← hhistory]
    exact coordinate_idle hqueue hrunning hdeferred hretry

lemma bindingGone_fair : FairSchedule oneWorker 0 bindingGoneCalls where
  accepting
    | 0 | 1 | 2 | 3 | 4 => by decide +kernel
    | n + 5 => (bindingGone_idle n).2.2.2.2.1
  finishes
    | 0, key, hkey => absurd hkey OrderedDict.not_mem_empty
    | 1, key, hkey | 2, key, hkey => by
      have ha : key = "a" := List.mem_singleton.mp hkey
      exact .inr ⟨2, by decide, none, fun _ => none, by rw [ha]; rfl⟩
    | 3, key, hkey => by
      have ha : key = "a" := List.mem_singleton.mp hkey
      exact .inl (by rw [ha]; exact ⟨_, rfl, rfl⟩)
    | 4, key, hkey => absurd hkey List.not_mem_nil
    | n + 5, key, hkey => by
      change key ∈ (schedulerAt oneWorker 0 bindingGoneCalls (n + 5)).running.keys at hkey
      rw [(bindingGone_idle n).2.1] at hkey
      exact absurd hkey List.not_mem_nil
  coordinates n time := ⟨n + time + 5, by omega, ⟨_, _, _⟩, rfl, by dsimp only; omega⟩

/-- Of a fair run, a request that was taken during a run and never comes to a run of its own, after
a single lookup that failed; and a run that is started with an item which another one has
replaced. -/
theorem ingestion_requests_dropped :
    (FairSchedule oneWorker 0 bindingGoneCalls ∧
      ∀ n, ∃ after before, (schedulerAt oneWorker 0 bindingGoneCalls (n + 5)).history =
          after ++ .enqueue (.fromBinding (paneBinding "a" "p")) .running :: before ∧
        (∀ item, .start item ∉ after) ∧ after.count (.lookupFailed "a") = 1) ∧
    ∃ before, (schedulerAt oneWorker 0 targetChangeCalls 4).history =
        .start (.fromBinding (paneBinding "b" "q")) :: before ∧
      lastEnqueued "b" before = some (.fromBinding (paneBinding "b" "r")) := by
  refine ⟨⟨bindingGone_fair, fun n => ⟨[.giveUp "a" .bindingGone, .lookupFailed "a"], _,
    (bindingGone_idle n).2.2.2.2.2, ?_, ?_⟩⟩,
    (schedulerAt oneWorker 0 targetChangeCalls 4).history.tail, ?_, ?_⟩
  · simp
  · decide
  · decide +kernel
  · decide +kernel

end Tendwire

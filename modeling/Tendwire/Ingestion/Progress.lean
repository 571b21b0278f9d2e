import Tendwire.Ingestion.Requests

/-!
# Progress

A request goes from its mark to the line or to a retry, and through the line to a worker. The
queue and the deferred reruns behind it are one line, first in, first out.
-/

namespace Tendwire

open TurnIngestionScheduler Transition

variable {cfg : TurnIngestionConfig} {s t u : TurnIngestionScheduler} {key : TurnRefreshKey}

namespace TurnIngestionScheduler

def line (s : TurnIngestionScheduler) : List TurnRefreshKey :=
  s.queueKeys ++ s.deferredReruns.keys

end TurnIngestionScheduler

instance (key : TurnRefreshKey) : DecidablePred (SchedulerAct.Settles key)
  | .start item => inferInstanceAs (Decidable (item.key = key))
  | .refuse item => inferInstanceAs (Decidable (item.key = key))
  | .giveUp other _ => inferInstanceAs (Decidable (other = key))
  | .enqueue _ _ | .lookupFailed _ | .lookedUp _ | .stop => inferInstanceAs (Decidable False)

/-- How often something came of the requests of a key. -/
def settled (key : TurnRefreshKey) : List SchedulerAct → ℕ
  | [] => 0
  | act :: history => settled key history + if act.Settles key then 1 else 0

/-- How many runs were started. -/
def starts : List SchedulerAct → ℕ
  | [] => 0
  | .start _ :: history => starts history + 1
  | _ :: history => starts history

lemma settled_append (after before : List SchedulerAct) :
    settled key (after ++ before) = settled key after + settled key before := by
  induction after with
  | nil => exact (Nat.zero_add _).symm
  | cons act after ih =>
    rw [List.cons_append, settled, settled, ih]
    omega

lemma exists_settles {history : List SchedulerAct} (h : 0 < settled key history) :
    ∃ act ∈ history, act.Settles key := by
  induction history with
  | nil => exact absurd h (Nat.lt_irrefl 0)
  | cons act history ih =>
    by_cases hact : act.Settles key
    · exact ⟨act, List.mem_cons_self, hact⟩
    · rw [settled, if_neg hact] at h
      obtain ⟨other, hmem, hother⟩ := ih h
      exact ⟨other, List.mem_cons_of_mem _ hmem, hother⟩

/-! ### One move -/

/-- The run of the key is marked, and through if `done` says so. -/
def Marked (key : TurnRefreshKey) (done : Bool) (s : TurnIngestionScheduler) : Prop :=
  key ∈ s.dirty ∧ ∃ run, s.running.get? key = some run ∧ (done = true → run.result.isSome = true)

def Due (key : TurnRefreshKey) (due : ℕ) (s : TurnIngestionScheduler) : Prop :=
  ∃ item, s.bindingRetryDue.get? key = some (item, due)

/-- The run of the key is through. -/
def RunDone (key : TurnRefreshKey) (s : TurnIngestionScheduler) : Prop :=
  ∃ run, s.running.get? key = some run ∧ run.result.isSome = true

/-- Something came of a request of the key between the states. -/
def SettledBetween (key : TurnRefreshKey) (s t : TurnIngestionScheduler) : Prop :=
  settled key s.history < settled key t.history

/-- The line as a queue: what leaves it at its head is started. -/
structure LineMoves (s t : TurnIngestionScheduler) : Prop where
  grows : s.history <:+ t.history
  line : ∃ started added, s.line ++ added = started ++ t.line ∧
    starts s.history + started.length = starts t.history ∧
    ∀ key ∈ started, SettledBetween key s t

lemma LineMoves.of_eq (hgrows : s.history <:+ t.history) (hline : t.line = s.line)
    (hstarts : starts t.history = starts s.history) : LineMoves s t :=
  ⟨hgrows, [], [], by rw [hline, List.append_nil, List.nil_append], hstarts.symm, by simp⟩

lemma LineMoves.of_append (hgrows : s.history <:+ t.history) (key : TurnRefreshKey)
    (hline : t.line = s.line ++ [key]) (hstarts : starts t.history = starts s.history) :
    LineMoves s t :=
  ⟨hgrows, [], [key], by rw [hline, List.nil_append], hstarts.symm, by simp⟩

lemma SettledBetween.right (h : SettledBetween key s t) (hgrows : t.history <:+ u.history) :
    SettledBetween key s u := by
  obtain ⟨acts, hacts⟩ := hgrows
  unfold SettledBetween at *
  rw [← hacts, settled_append]
  omega

lemma SettledBetween.left (hgrows : s.history <:+ t.history) (h : SettledBetween key t u) :
    SettledBetween key s u := by
  obtain ⟨acts, hacts⟩ := hgrows
  unfold SettledBetween at *
  rw [← hacts, settled_append] at h
  omega

lemma LineMoves.refl (s : TurnIngestionScheduler) : LineMoves s s :=
  .of_eq (List.suffix_refl _) rfl rfl

lemma LineMoves.trans (h : LineMoves s t) (h' : LineMoves t u) : LineMoves s u := by
  obtain ⟨started, added, hline, hstarts, hsettled⟩ := h.line
  obtain ⟨started', added', hline', hstarts', hsettled'⟩ := h'.line
  refine ⟨h.grows.trans h'.grows, started ++ started', added ++ added', ?_, ?_, ?_⟩
  · rw [← List.append_assoc, hline, List.append_assoc, hline', List.append_assoc]
  · rw [List.length_append]
    omega
  · intro key hkey
    rcases List.mem_append.mp hkey with hkey | hkey
    · exact (hsettled key hkey).right h'.grows
    · exact (hsettled' key hkey).left h.grows

lemma LineMoves.starts_le (h : LineMoves s t) : starts s.history ≤ starts t.history := by
  obtain ⟨_, _, _, hstarts, _⟩ := h.line
  omega

lemma LineMoves.mem (h : LineMoves s t) (hkey : key ∈ s.line) :
    key ∈ t.line ∨ SettledBetween key s t := by
  obtain ⟨started, added, hline, -, hsettled⟩ := h.line
  have hmem : key ∈ started ++ t.line := by
    rw [← hline]
    exact List.mem_append_left _ hkey
  rcases List.mem_append.mp hmem with hkey | hkey
  · exact .inr (hsettled key hkey)
  · exact .inl hkey

/-- Where no run starts, the line is there behind. -/
lemma LineMoves.ne_nil (h : LineMoves s t) (hstarts : starts t.history = starts s.history)
    (hne : s.line ≠ []) : t.line ≠ [] := by
  obtain ⟨started, added, hline, hlength, -⟩ := h.line
  have hnil : started = [] := List.eq_nil_of_length_eq_zero (by omega)
  intro hempty
  rw [hnil, hempty] at hline
  exact hne (List.append_eq_nil_iff.mp hline).1

/-- Runs end one by one, and what is through stays so until it is taken out. -/
structure RunsEnd (s t : TurnIngestionScheduler) : Prop where
  sublist : t.running.keys.Sublist s.running.keys
  done : ∀ key, RunDone key s → key ∈ t.running → RunDone key t

lemma RunsEnd.refl (s : TurnIngestionScheduler) : RunsEnd s s :=
  ⟨List.Sublist.refl _, fun _ hdone _ => hdone⟩

lemma RunsEnd.trans (h : RunsEnd s t) (h' : RunsEnd t u) : RunsEnd s u :=
  ⟨h'.sublist.trans h.sublist, fun key hdone hmem =>
    h'.done key (h.done key hdone (h'.sublist.subset hmem)) hmem⟩

namespace SchedulerMove

lemma history (h : SchedulerMove cfg s t) : s.history <:+ t.history := by
  cases h <;> dsimp only [record]
  case giveUpLookup => exact (List.suffix_cons _ _).trans (List.suffix_cons _ _)
  all_goals first
    | exact List.suffix_cons _ _
    | exact List.suffix_refl _

theorem marked {done : Bool} (h : SchedulerMove cfg s t) (hs : SchedulerInvariant cfg s)
    (haccepting : t.accepting = true) (hmarked : Marked key done s) :
    Marked key done t ∨ (∃ due, Due key due t) ∨ key ∈ t.line ∨ SettledBetween key s t := by
  obtain ⟨hdirty, run, hrun, hdone⟩ := hmarked
  have honce := hs.once key
  have hrerun := hs.rerun
  have hrunning := OrderedDict.mem_of_get? hrun
  unfold Marked Due SettledBetween line
  cases h <;> dsimp only [record, settled, SchedulerAct.Settles] at haccepting ⊢ <;>
    grind -ring -linarith [flights, queueKeys]

theorem due {due : ℕ} (h : SchedulerMove cfg s t) (hs : SchedulerInvariant cfg s)
    (haccepting : t.accepting = true) (hdue : Due key due s) :
    Due key due t ∨ key ∈ t.line ∨ SettledBetween key s t := by
  obtain ⟨item, hitem⟩ := hdue
  have honce := hs.once key
  have hretry := hs.retryDue
  have hmem := OrderedDict.mem_of_get? hitem
  unfold Due SettledBetween line
  cases h <;> dsimp only [record, settled, SchedulerAct.Settles] at haccepting ⊢ <;>
    grind -ring -linarith [flights, queueKeys]

/-- The line moves up by the runs that start, and what comes new is behind it. -/
theorem line (h : SchedulerMove cfg s t) (hs : SchedulerInvariant cfg s)
    (haccepting : t.accepting = true) : LineMoves s t := by
  have hroom : s.queue.length < cfg.queueCapacity → s.deferredReruns.keys = [] := by
    intro hlt
    by_contra hne
    exact absurd (hs.full hne) (Nat.not_le.mpr hlt)
  have hgrows := h.history
  cases h with
  | append item _ hlt =>
    refine LineMoves.of_append hgrows item.key ?_ rfl
    simp [TurnIngestionScheduler.line, queueKeys, record, hroom hlt]
  | retryQueued _ item _ _ hlt =>
    refine LineMoves.of_append hgrows item.key ?_ rfl
    simp [TurnIngestionScheduler.line, queueKeys, record, hroom hlt]
  | rerun key run hrun _ _ hlt =>
    refine LineMoves.of_append hgrows key ?_ rfl
    simp [TurnIngestionScheduler.line, queueKeys, hroom hlt, hs.rerun key run hrun]
  | defer key run hrun =>
    refine LineMoves.of_append hgrows key ?_ rfl
    have hfresh : key ∉ s.deferredReruns := by
      have honce := hs.once key
      have hrunning := OrderedDict.mem_of_get? hrun
      grind -ring -linarith [flights]
    simp [TurnIngestionScheduler.line, queueKeys, OrderedDict.keys_set_of_not_mem hfresh]
  | mergeDeferred item hdeferred =>
    refine LineMoves.of_eq hgrows ?_ rfl
    simp [TurnIngestionScheduler.line, queueKeys, record, OrderedDict.keys_set_of_mem hdeferred]
  | start item rest hqueue hdeferred =>
    refine ⟨hgrows, [item.key], [], ?_, rfl, ?_⟩
    · simp [TurnIngestionScheduler.line, queueKeys, record, hqueue]
    · simp [SettledBetween, record, settled, SchedulerAct.Settles]
  | startPromoting item rest key keys next hqueue hkeys hnext =>
    refine ⟨hgrows, [item.key], [], ?_, rfl, ?_⟩
    · simp [TurnIngestionScheduler.line, queueKeys, record, hqueue, hkeys,
        OrderedDict.keys_pop_cons hkeys, hs.deferred key next hnext]
    · simp [SettledBetween, record, settled, SchedulerAct.Settles]
  | stop => exact absurd haccepting Bool.false_ne_true
  | _ => exact LineMoves.of_eq hgrows rfl rfl

lemma runsEnd (h : SchedulerMove cfg s t) (hstarts : starts t.history = starts s.history) :
    RunsEnd s t := by
  have hpop : ∀ key, (s.running.pop key).keys.Sublist s.running.keys :=
    fun _ => List.filter_sublist
  constructor
  · cases h <;> dsimp only [record, starts] at hstarts ⊢ <;>
      grind -ring -linarith [OrderedDict.keys_set_of_mem]
  · intro key hdone hmem
    unfold RunDone at *
    cases h <;> dsimp only [record, starts] at hstarts hmem ⊢ <;> grind -ring -linarith

lemma accepting (h : SchedulerMove cfg s t) (haccepting : t.accepting = true) :
    s.accepting = true := by
  cases h
  case stop => exact absurd haccepting Bool.false_ne_true
  all_goals exact haccepting

end SchedulerMove

end Tendwire

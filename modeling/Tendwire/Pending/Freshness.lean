import Tendwire.Pending.AtMostOnce

/-!
# Freshness of a pending prompt

A prompt is open and fresh by the read that brought it. A failed read makes it stale with a
deadline that no further failed read moves. The overlay is read without a clock, so an expired
prompt is in it until one of a few calls takes it away.
-/

namespace Tendwire

open PendingStore

variable {R : PendingRules} {s s' : PendingStore} {c : PendingCall} {w : String}
  {a : PendingAnswer} {x : ObservationSource} {calls : ℕ → PendingCall} {n : ℕ}

/-! ### The overlay -/

/-- Snapshot prompts of the worker are not shown. -/
def PendingRow.suppresses (row : PendingRow) : Bool :=
  row.observationState == .none ||
    row.observationState == .invalid && row.payload == .unsupportedDecision

/-- The prompts that the rows of the store give. -/
def PendingStore.builtInteractions (R : PendingRules) (s : PendingStore)
    (workers : List PendingWorker) : List PendingInteraction :=
  (s.pending.entries.insertionSort fun a b => a.1 ≤ b.1).filterMap fun e =>
    if e.2.observationState = .opened then
      backendPendingInteraction R (workers.reverse.find? fun worker => worker.id == e.1) e.1 e.2
    else none

/-- `pending_payload_from_store`, over the workers and the prompts of the latest snapshot. -/
def PendingStore.overlay (R : PendingRules) (s : PendingStore) (workers : List PendingWorker)
    (fallback : List PendingInteraction) : List PendingInteraction :=
  let built := s.builtInteractions R workers
  let suppressed := (s.pending.entries.filter fun e => e.2.suppresses).map Sigma.fst
  let rows := fallback.filter fun p =>
    !(built.map (·.workerId)).contains p.workerId && !suppressed.contains p.workerId
  (rows ++ built).insertionSort fun a b => a.id < b.id ∨
    a.id = b.id ∧ R.interactionFingerprint a ≤ R.interactionFingerprint b

/-- The prompt of a worker is open, whether or not its reads failed since. -/
def PromptOpen (s : PendingStore) (w : String) : Prop :=
  ∃ row, s.pending.lookup w = some row ∧ row.observationState = .opened

lemma backendPendingInteraction_workerId {worker : Option PendingWorker} {v : String}
    {row : PendingRow} {p : PendingInteraction}
    (h : backendPendingInteraction R worker v row = some p) : p.workerId = v := by
  unfold backendPendingInteraction at h
  split at h
  · dsimp only at h
    split at h
    · cases h
    · obtain ⟨normalized, -, rfl⟩ := Option.map_eq_some_iff.mp h
      rfl
  · cases h

/-- What the overlay shows of a worker without an open prompt is from the snapshot. -/
lemma mem_fallback_of_not_promptOpen (h : ¬PromptOpen s w) {workers : List PendingWorker}
    {fallback : List PendingInteraction} {p : PendingInteraction}
    (hp : p ∈ s.overlay R workers fallback) (hw : p.workerId = w) : p ∈ fallback := by
  unfold overlay at hp
  rw [List.mem_insertionSort, List.mem_append] at hp
  rcases hp with hp | hp
  · exact (List.mem_filter.mp hp).1
  · obtain ⟨e, he, hbuilt⟩ := List.mem_filterMap.mp hp
    rw [List.mem_insertionSort] at he
    split at hbuilt
    · next hopened =>
      obtain rfl := hw ▸ backendPendingInteraction_workerId hbuilt
      exact absurd ⟨e.2, AList.mem_lookup_iff.mpr he, hopened⟩ h
    · cases hbuilt

/-! ### What keeps, brings and takes away an open prompt -/

/-- An observation of an open prompt is applied, and this is its row. -/
structure ReadsPrompt (R : PendingRules) (s : PendingStore) (w : String) (c : PendingCall)
    (prompt : ObservedPrompt) (x : ObservationSource) (row : PendingRow) : Prop where
  call : c = .observe w (.openPrompt prompt) x
  admits : s.Admits w (.openPrompt prompt) x
  row_eq : ∃ payload, normalizeBackendPendingPayload R (prompt.publicPayload R x)
    (prompt.routes R x) = some payload ∧ row = openRow R prompt x payload

/-- The calls that take away a prompt with a deadline. -/
inductive Retires (s : PendingStore) (w : String) (deadline : Int) : PendingCall → Prop where
  | expired (x : ObservationSource) (hadmits : s.Admits w .readFailed x)
      (hdeadline : deadline ≤ x.observedAt) : Retires s w deadline (.observe w .readFailed x)
  | read (o : PendingObservation) (x : ObservationSource) (hfailed : o ≠ .readFailed)
      (hprompt : ∀ prompt, o ≠ .openPrompt prompt) (hadmits : s.Admits w o x) :
      Retires s w deadline (.observe w o x)
  | pruned (live : List String) (now : Int) (row : PendingRow)
      (hrow : s.pending.lookup w = some row)
      (hlive : row.bindingPrivateFingerprint ∉ live.filter (· != "")) (hle : row.observedAt ≤ now) :
      Retires s w deadline (.prune live false now)
  | finished (token : String) (now : Int) (c : PendingCall) (claim : PendingClaim)
      (row : PendingRow) (hc : c = .finish token true now ∨ c = .finishCommand token true now)
      (hof : s.claimOf token = some (w, claim)) (hstate : claim.state = .sendStarted)
      (hrow : s.pending.lookup w = some row) (hanswers : answers claim row = true) :
      Retires s w deadline c

/-- Where the open row of a worker comes from. -/
inductive OpenAfter (R : PendingRules) (s : PendingStore) (c : PendingCall) (w : String)
    (row' : PendingRow) : Prop where
  | kept (h : s.pending.lookup w = some row')
  | read (prompt : ObservedPrompt) (x : ObservationSource)
      (h : ReadsPrompt R s w c prompt x row')
  | failed (row : PendingRow) (x : ObservationSource) (hc : c = .observe w .readFailed x)
      (hrow : s.pending.lookup w = some row) (hopened : row.observationState = .opened)
      (hbefore : ∀ deadline, row.graceDeadline = some deadline → x.observedAt < deadline)
      (hstale : row'.freshness = .stale)
      (hdeadline : row'.graceDeadline =
        if row.freshness = .stale then row.graceDeadline else some (x.observedAt + x.staleGrace))

/-- A prompt that is open after a failed read was open before, and has not expired. -/
lemma open_of_readFailed {row' : PendingRow}
    (hrow : (s.readFailed w x).1.pending.lookup w = some row')
    (hopened : row'.observationState = .opened) :
    ∃ row, s.pending.lookup w = some row ∧ row.observationState = .opened ∧
      (∀ deadline, row.graceDeadline = some deadline → x.observedAt < deadline) ∧
      row'.freshness = .stale ∧ row'.graceDeadline =
        if row.freshness = .stale then row.graceDeadline else some (x.observedAt + x.staleGrace) := by
  unfold readFailed at hrow
  dsimp only at hrow
  split at hrow
  · rw [pending_put_self] at hrow
    cases hrow
    cases hopened
  · next row hlookup =>
    split at hrow
    · next hwas =>
      split at hrow
      · rw [pending_dropClaim, pending_put_self] at hrow
        cases hrow
        cases hopened
      · next hbefore =>
        have hbefore : ∀ deadline, row.graceDeadline = some deadline → x.observedAt < deadline := by
          intro deadline hdeadline
          rw [hdeadline] at hbefore
          simpa using hbefore
        split at hrow
        · next hstale =>
          rw [pending_put_self] at hrow
          cases hrow
          exact ⟨row, hlookup, hwas, hbefore, hstale, by rw [if_pos hstale]⟩
        · next hfresh =>
          rw [pending_dropClaim, pending_put_self] at hrow
          cases hrow
          exact ⟨row, hlookup, hwas, hbefore, rfl, by rw [if_neg hfresh]⟩
    · next hwas =>
      split at hrow
      · rw [pending_put_self] at hrow
        cases hrow
        exact absurd hopened hwas
      · rw [pending_put_self] at hrow
        cases hrow
        exact absurd hopened hwas

/-- The row that a read without an answerable prompt leaves. -/
lemma pending_readSettled {payload : StoredPayload} {state : ObservationState}
    {freshness : Freshness} {same : PendingRow → Bool} :
    (s.readSettled w x payload state freshness same).1.pending.lookup w =
      some (settledRow (s.pending.lookup w) x payload state freshness) := by
  unfold readSettled
  dsimp only
  rw [pending_dropClaim, pending_put_self]

/-- A successful read without a prompt, and an absence, leave none. -/
lemma not_promptOpen_of_read {o : PendingObservation} {result : PendingStore × Bool}
    (hfailed : o ≠ .readFailed) (hprompt : ∀ prompt, o ≠ .openPrompt prompt)
    (hadmits : s.Admits w o x) (h : Applied R s w x o result) : ¬PromptOpen result.1 w := by
  rintro ⟨row, hrow, hopened⟩
  cases o with
  | workerAuthoritativelyAbsent =>
    obtain rfl : result = s.workerAbsent w x := h
    have hsource := hadmits.source
    rw [if_pos rfl] at hsource
    obtain ⟨row', hrow', hbinding⟩ := hsource
    unfold workerAbsent at hrow
    rw [if_pos (by simpa [hrow'] using hbinding)] at hrow
    simp at hrow
  | readFailed => exact hfailed rfl
  | readSucceededUnsupportedDecision | readSucceededInvalidPrompt | readSucceededNoPrompt =>
    obtain rfl : result = s.readSettled w x _ _ _ _ := h
    rw [pending_readSettled] at hrow
    cases hrow
    cases hopened
  | openPrompt prompt => exact hprompt prompt rfl

lemma openAfter_applied {o : PendingObservation} {changed : Bool} {row' : PendingRow}
    (hc : c = .observe w o x) (hadmits : s.Admits w o x) (h : Applied R s w x o (s', changed))
    (hrow : s'.pending.lookup w = some row') (hopened : row'.observationState = .opened) :
    OpenAfter R s c w row' := by
  by_cases hfailed : o = .readFailed
  · subst hfailed
    obtain rfl := congrArg Prod.fst (h : (s', changed) = s.readFailed w x)
    obtain ⟨row, hlookup, hwas, hbefore, hstale, hdeadline⟩ := open_of_readFailed hrow hopened
    exact .failed row x hc hlookup hwas hbefore hstale hdeadline
  · by_cases hprompt : ∀ prompt, o ≠ .openPrompt prompt
    · exact absurd ⟨row', hrow, hopened⟩ (not_promptOpen_of_read hfailed hprompt hadmits h)
    · simp only [not_forall, not_not] at hprompt
      obtain ⟨prompt, rfl⟩ := hprompt
      obtain ⟨payload, hpayload, heq⟩ := Option.map_eq_some_iff.mp (h : s.readPrompt R w prompt x = _)
      obtain ⟨rfl, -⟩ := Prod.mk.inj heq
      rw [pending_put_self] at hrow
      cases hrow
      exact .read prompt x ⟨hc, hadmits, payload, hpayload, rfl⟩

/-- An open row after a step was there before, or a read of its worker gave it. -/
theorem openAfter_step (h : WorkerStep R s c w s' a) {row' : PendingRow}
    (hrow : s'.pending.lookup w = some row') (hopened : row'.observationState = .opened) :
    OpenAfter R s c w row' := by
  cases h with
  | other hsame => exact .kept (hsame.row ▸ hrow)
  | observed o x changed hc _ hadmits happlied => exact openAfter_applied hc hadmits happlied hrow hopened
  | pruned _ _ _ _ _ _ _ hgone =>
    rw [hgone] at hrow
    cases hrow
  | claimed _ _ _ _ _ _ _ _ hsame => exact .kept (hsame ▸ hrow)
  | started _ _ _ _ _ _ _ _ hsame => exact .kept (hsame ▸ hrow)
  | dropped _ _ _ hsame => exact .kept (hsame ▸ hrow)
  | finished _ now claim _ _ _ _ hafter =>
    rw [hafter] at hrow
    obtain ⟨row, hlookup, rfl⟩ := Option.map_eq_some_iff.mp hrow
    split at hopened
    · cases hopened
    · next hanswers =>
      rw [if_neg hanswers]
      exact .kept hlookup

/-- A read other than of a prompt that passes its guards is applied. -/
lemma applied_of_admits {o : PendingObservation} (hprompt : ∀ prompt, o ≠ .openPrompt prompt)
    (hadmits : s.Admits w o x) :
    ∃ result, s.applyObservation R w o x = some result ∧ Applied R s w x o result := by
  have hsome : ∃ result, s.applyObservation R w o x = some result := by
    unfold applyObservation
    dsimp only
    rw [if_neg (not_le.mpr hadmits.grace)]
    split
    · exact ⟨_, rfl⟩
    · split
      · exact ⟨_, rfl⟩
      · split
        · exact ⟨_, rfl⟩
        · cases o with
          | openPrompt prompt => exact absurd rfl (hprompt prompt)
          | readSucceededNoPrompt | readSucceededInvalidPrompt | readSucceededUnsupportedDecision
          | readFailed | workerAuthoritativelyAbsent => exact ⟨_, rfl⟩
  obtain ⟨result, hresult⟩ := hsome
  rcases applyObservation_cases hresult with ⟨hnot, -⟩ | ⟨-, happlied⟩
  · exact absurd hadmits hnot
  · exact ⟨result, hresult, happlied⟩

lemma pending_workerAbsent_none {v : String} (h : s.pending.lookup w = none) :
    (s.workerAbsent v x).1.pending.lookup w = none := by
  unfold workerAbsent
  split
  · rw [pending_dropClaim]
    by_cases hvw : w = v
    · subst hvw
      exact AList.lookup_erase _ _
    · exact (AList.lookup_erase_ne hvw).trans h
  · exact h

/-- One absence of a prune. -/
def absence (R : PendingRules) (now : Int) (s : PendingStore)
    (e : Sigma fun _ : String => PendingRow) : PendingStore :=
  ((s.applyObservation R e.1 .workerAuthoritativelyAbsent
    ⟨now, defaultStaleGrace, e.2.bindingPrivateFingerprint, e.2.observedTurnTargetValue,
      false⟩).map Prod.fst).getD s

lemma absence_cases (now : Int) (s : PendingStore) (e : Sigma fun _ : String => PendingRow) :
    absence R now s e = s ∨ absence R now s e = (s.workerAbsent e.1 ⟨now, defaultStaleGrace,
      e.2.bindingPrivateFingerprint, e.2.observedTurnTargetValue, false⟩).1 := by
  unfold absence
  generalize (⟨now, defaultStaleGrace, e.2.bindingPrivateFingerprint,
    e.2.observedTurnTargetValue, false⟩ : ObservationSource) = x
  cases happly : s.applyObservation R e.1 .workerAuthoritativelyAbsent x with
  | none => exact .inl rfl
  | some result =>
    rcases applyObservation_cases happly with ⟨-, rfl⟩ | ⟨-, happlied⟩
    · exact .inl rfl
    · exact .inr (congrArg Prod.fst (happlied : result = s.workerAbsent e.1 x))

lemma absence_gone {now : Int} {row : PendingRow} (hrow : s.pending.lookup w = some row)
    (hle : row.observedAt ≤ now) :
    (absence R now s ⟨w, row⟩).pending.lookup w = none := by
  have hadmits : s.Admits w .workerAuthoritativelyAbsent ⟨now, defaultStaleGrace,
      row.bindingPrivateFingerprint, row.observedTurnTargetValue, false⟩ := by
    refine ⟨(by decide : (0 : Int) < defaultStaleGrace), fun row' hrow' => ?_, ?_⟩
    · obtain rfl := Option.some.inj (hrow.symm.trans hrow')
      exact hle
    · rw [if_pos rfl]
      exact ⟨row, hrow, .inr rfl⟩
  obtain ⟨result, hresult, happlied⟩ :=
    applied_of_admits (R := R) (fun prompt h => by cases h) hadmits
  unfold absence
  dsimp only
  rw [hresult]
  obtain rfl : result = s.workerAbsent w _ := happlied
  unfold workerAbsent
  rw [if_pos (by simp [hrow])]
  simp

lemma foldl_absence_none {now : Int} {stale : List (Sigma fun _ : String => PendingRow)}
    (h : s.pending.lookup w = none) : (stale.foldl (absence R now) s).pending.lookup w = none := by
  refine Transition.foldl_invariant (P := fun t : PendingStore => t.pending.lookup w = none)
    (fun t e _ ht => ?_) h
  rcases absence_cases (R := R) now t e with heq | heq
  · rw [heq]
    exact ht
  · rw [heq]
    exact pending_workerAbsent_none ht

/-- A prune takes away the rows of the bindings that are gone. -/
lemma foldl_absence_gone {now : Int} {stale : List (Sigma fun _ : String => PendingRow)}
    {row : PendingRow} (hmem : (⟨w, row⟩ : Sigma fun _ : String => PendingRow) ∈ stale)
    (hunique : ∀ e ∈ stale, e.1 = w → e.2 = row) (hrow : s.pending.lookup w = some row)
    (hle : row.observedAt ≤ now) :
    (stale.foldl (absence R now) s).pending.lookup w = none := by
  induction stale generalizing s with
  | nil => cases hmem
  | cons e stale ih =>
    rw [List.foldl_cons]
    by_cases hew : e.1 = w
    · obtain ⟨v, row'⟩ := e
      obtain rfl : v = w := hew
      obtain rfl : row' = row := hunique _ List.mem_cons_self rfl
      exact foldl_absence_none (absence_gone hrow hle)
    · have hmem' : (⟨w, row⟩ : Sigma fun _ : String => PendingRow) ∈ stale := by
        rcases List.mem_cons.mp hmem with heq | hmem
        · exact absurd (congrArg Sigma.fst heq).symm hew
        · exact hmem
      refine ih hmem' (fun e he => hunique e (List.mem_cons_of_mem _ he)) ?_
      rcases absence_cases (R := R) now s e with heq | heq
      · rw [heq]
        exact hrow
      · rw [heq]
        exact (sameWorker_workerAbsent hew).row.trans hrow

/-- After a call that retires the prompt of a worker it is not open. -/
theorem not_promptOpen_of_retires {deadline : Int} (h : Retires s w deadline c)
    {row : PendingRow} (hrow : s.pending.lookup w = some row)
    (hdeadline : row.graceDeadline = some deadline) : ¬PromptOpen (pendingStep R s c).1 w := by
  cases h with
  | expired x hadmits hle =>
    rintro ⟨row', hrow', hopened⟩
    obtain ⟨result, hresult, happlied⟩ :=
      applied_of_admits (R := R) (fun prompt h => by cases h) hadmits
    unfold pendingStep at hrow'
    dsimp only at hrow'
    rw [hresult] at hrow'
    obtain rfl : result = s.readFailed w x := happlied
    obtain ⟨row₀, hrow₀, -, hbefore, -⟩ := open_of_readFailed hrow' hopened
    obtain rfl := Option.some.inj (hrow.symm.trans hrow₀)
    exact absurd (hbefore deadline hdeadline) (not_lt.mpr hle)
  | read o x hfailed hprompt hadmits =>
    obtain ⟨result, hresult, happlied⟩ := applied_of_admits (R := R) hprompt hadmits
    unfold pendingStep
    dsimp only
    rw [hresult]
    exact not_promptOpen_of_read hfailed hprompt hadmits happlied
  | pruned live now row₀ hrow₀ hlive hle =>
    have hunique : ∀ e ∈ s.pending.entries.filter (fun e =>
        !(live.filter (· != "")).contains e.2.bindingPrivateFingerprint),
        e.1 = w → e.2 = row₀ := by
      intro e he hew
      subst hew
      have hlookup := AList.mem_lookup_iff.mpr (List.mem_filter.mp he).1
      exact Option.some.inj ((Option.mem_def.mp hlookup).symm.trans hrow₀)
    have hgone := foldl_absence_gone (R := R) (List.mem_filter.mpr
      ⟨AList.mem_lookup_iff.mp hrow₀, by simpa [imp_iff_not_or] using hlive⟩) hunique hrow₀ hle
    rintro ⟨row', hrow', -⟩
    exact absurd (hrow'.symm.trans hgone) nofun
  | finished token now c claim row₀ hc hof hstate hrow₀ hanswers =>
    have hfinish : (s.finishSend token true now).1.pending.lookup w = some (row₀.tombstone now) ∧
        (s.finishSend token true now).2 = true := by
      unfold finishSend
      rw [hof]
      simp [hstate, hrow₀, hanswers, Option.filter_some, PendingRow.tombstone]
    rintro ⟨row', hrow', hopened⟩
    have hpending : (pendingStep R s c).1.pending.lookup w = some (row₀.tombstone now) := by
      rcases hc with rfl | rfl
      · exact hfinish.1
      · unfold pendingStep
        simpa [hfinish.2] using hfinish.1
    obtain rfl := Option.some.inj (hrow'.symm.trans hpending)
    cases hopened

/-- A step that closes a prompt without a deadline or with it retires the prompt. -/
theorem retires_of_step {deadline : Int} (h : WorkerStep R s c w s' a) {row : PendingRow}
    (hrow : s.pending.lookup w = some row) (hopened : row.observationState = .opened)
    (hdeadline : row.graceDeadline = some deadline) (hclosed : ¬PromptOpen s' w) :
    Retires s w deadline c := by
  have hkept : s'.pending.lookup w ≠ s.pending.lookup w := fun hsame =>
    hclosed ⟨row, hsame.trans hrow, hopened⟩
  cases h with
  | other hsame => exact absurd hsame.row hkept
  | observed o x changed hc _ hadmits happlied =>
    subst hc
    by_cases hfailed : o = .readFailed
    · subst hfailed
      refine .expired x hadmits (not_lt.mp fun hbefore => hclosed ?_)
      obtain rfl := congrArg Prod.fst (happlied : (s', changed) = s.readFailed w x)
      unfold readFailed PromptOpen
      rw [hrow]
      simp only [hopened, if_true, hdeadline, Option.any_some, not_le.mpr hbefore, decide_false,
        Bool.false_eq_true, if_false]
      split
      · exact ⟨_, pending_put_self, rfl⟩
      · exact ⟨_, by rw [pending_dropClaim, pending_put_self], rfl⟩
    · refine .read o x hfailed (fun prompt hprompt => hclosed ?_) hadmits
      subst hprompt
      obtain ⟨payload, -, heq⟩ :=
        Option.map_eq_some_iff.mp (happlied : s.readPrompt R w prompt x = some (s', changed))
      obtain ⟨rfl, -⟩ := Prod.mk.inj heq
      exact ⟨_, pending_put_self, rfl⟩
  | pruned live now row' hc hlookup hlive hle =>
    subst hc
    exact .pruned live now row' hlookup hlive hle
  | claimed _ _ _ _ _ _ _ _ hsame => exact absurd hsame hkept
  | started _ _ _ _ _ _ _ _ hsame => exact absurd hsame hkept
  | dropped _ _ _ hsame => exact absurd hsame hkept
  | finished token now claim hc _ hof hstate hafter =>
    refine .finished token now c claim row hc hof hstate hrow ?_
    by_contra hanswers
    refine hkept (hafter.trans ?_)
    rw [hrow, Option.map_some, if_neg hanswers]

/-! ### Runs -/

/-- Call `k` of a run reads an open prompt of the worker. -/
def BringsPrompt (R : PendingRules) (calls : ℕ → PendingCall) (w : String) (k : ℕ) : Prop :=
  ∃ prompt x row, ReadsPrompt R (pendingAt R calls k) w (calls k) prompt x row

/-- Call `i` of a run is the failed read that makes an open prompt of the worker stale. -/
structure FirstFailure (R : PendingRules) (calls : ℕ → PendingCall) (w : String) (i : ℕ)
    (x : ObservationSource) : Prop where
  call : calls i = .observe w .readFailed x
  admits : (pendingAt R calls i).Admits w .readFailed x
  prompt : ∃ row, (pendingAt R calls i).pending.lookup w = some row ∧
    row.observationState = .opened ∧ row.freshness = .fresh

/-- An open and fresh row is the row of one read. -/
theorem fresh_of_read {row : PendingRow} (hrow : (pendingAt R calls n).pending.lookup w = some row)
    (hopened : row.observationState = .opened) (hfresh : row.freshness = .fresh) :
    ∃ m < n, ∃ prompt x, ReadsPrompt R (pendingAt R calls m) w (calls m) prompt x row := by
  induction n with
  | zero => cases hrow
  | succ n ih =>
    cases openAfter_step (pendingStepAt R calls n w) hrow hopened with
    | kept hkept =>
      obtain ⟨m, hm, hread⟩ := ih hkept
      exact ⟨m, Nat.lt_succ_of_lt hm, hread⟩
    | read prompt x hread => exact ⟨n, Nat.lt_succ_self n, prompt, x, hread⟩
    | failed _ _ _ _ _ _ hstale =>
      rw [hfresh] at hstale
      cases hstale

/-- Only a read of a prompt opens one. -/
theorem bringsPrompt_of_opens (hbefore : ¬PromptOpen (pendingAt R calls n) w)
    (hafter : PromptOpen (pendingAt R calls (n + 1)) w) : BringsPrompt R calls w n := by
  obtain ⟨row', hrow', hopened⟩ := hafter
  cases openAfter_step (pendingStepAt R calls n w) hrow' hopened with
  | kept hkept => exact absurd ⟨row', hkept, hopened⟩ hbefore
  | read prompt x hread => exact ⟨prompt, x, row', hread⟩
  | failed row _ _ hrow hwas => exact absurd ⟨row, hrow, hwas⟩ hbefore

/-- The prompt of a worker is open and stale until a deadline. -/
def Expiring (s : PendingStore) (w : String) (deadline : Int) : Prop :=
  ∃ row, s.pending.lookup w = some row ∧ row.observationState = .opened ∧
    row.freshness = .stale ∧ row.graceDeadline = some deadline

lemma FirstFailure.expiring {i : ℕ} (h : FirstFailure R calls w i x) :
    Expiring (pendingAt R calls (i + 1)) w (x.observedAt + x.staleGrace) := by
  obtain ⟨row, hrow, hopened, hfresh⟩ := h.prompt
  obtain ⟨m, -, prompt, x', hread⟩ := fresh_of_read hrow hopened hfresh
  have hnone : row.graceDeadline = none := by
    obtain ⟨payload, -, rfl⟩ := hread.row_eq
    rfl
  obtain ⟨result, hresult, happlied⟩ :=
    applied_of_admits (R := R) (fun prompt h => by cases h) h.admits
  have hnext : pendingAt R calls (i + 1) = (pendingStep R (pendingAt R calls i) (calls i)).1 := rfl
  rw [hnext, h.call]
  unfold pendingStep
  dsimp only
  rw [hresult]
  obtain rfl : result = (pendingAt R calls i).readFailed w x := happlied
  unfold readFailed
  rw [hrow]
  simp only [hopened, if_true, hnone, Option.any_none, Bool.false_eq_true, if_false, hfresh,
    reduceCtorEq]
  exact ⟨_, by rw [pending_dropClaim, pending_put_self], rfl, rfl, rfl⟩

/-- No step moves the deadline of a prompt that it leaves open without reading it again. -/
lemma Expiring.step {deadline : Int} (h : Expiring (pendingAt R calls n) w deadline)
    (hread : ¬BringsPrompt R calls w n) (hopen : PromptOpen (pendingAt R calls (n + 1)) w) :
    Expiring (pendingAt R calls (n + 1)) w deadline := by
  obtain ⟨row, hrow, hopened, hstale, hdeadline⟩ := h
  obtain ⟨row', hrow', hopened'⟩ := hopen
  cases openAfter_step (pendingStepAt R calls n w) hrow' hopened' with
  | kept hkept =>
    obtain rfl := Option.some.inj (hrow.symm.trans hkept)
    exact ⟨row, hrow', hopened, hstale, hdeadline⟩
  | read prompt x hread' => exact absurd ⟨prompt, x, row', hread'⟩ hread
  | failed row₀ x _ hrow₀ _ _ hstale' hdeadline' =>
    obtain rfl := Option.some.inj (hrow.symm.trans hrow₀)
    rw [if_pos hstale, hdeadline] at hdeadline'
    exact ⟨row', hrow', hopened', hstale', hdeadline'⟩

/-- After its first failure a prompt is open with its deadline until a call retires it. -/
theorem expiring_or_retired {i : ℕ} (h : FirstFailure R calls w i x) (hin : i < n)
    (hread : ∀ k, i < k → k < n → ¬BringsPrompt R calls w k) :
    (Expiring (pendingAt R calls n) w (x.observedAt + x.staleGrace) ∧
      ∀ k, i < k → k < n →
        ¬Retires (pendingAt R calls k) w (x.observedAt + x.staleGrace) (calls k)) ∨
    (¬PromptOpen (pendingAt R calls n) w ∧ ∃ k, i < k ∧ k < n ∧
      Retires (pendingAt R calls k) w (x.observedAt + x.staleGrace) (calls k)) := by
  induction n, hin using Nat.le_induction with
  | base => exact .inl ⟨h.expiring, fun k hik hki => absurd hki (not_lt.mpr hik)⟩
  | succ n hin ih =>
    have hbring : ¬BringsPrompt R calls w n := hread n hin (Nat.lt_succ_self n)
    rcases ih fun k hik hkn => hread k hik (Nat.lt_succ_of_lt hkn) with
      ⟨hexpiring, hkept⟩ | ⟨hclosed, k, hik, hkn, hretires⟩
    · obtain ⟨row, hrow, hopened, hstale, hdeadline⟩ := hexpiring
      by_cases hretires : Retires (pendingAt R calls n) w (x.observedAt + x.staleGrace) (calls n)
      · exact .inr ⟨not_promptOpen_of_retires hretires hrow hdeadline, n, hin,
          Nat.lt_succ_self n, hretires⟩
      · have hopen : PromptOpen (pendingAt R calls (n + 1)) w := by
          by_contra hclosed
          exact hretires (retires_of_step (pendingStepAt R calls n w) hrow hopened hdeadline hclosed)
        refine .inl ⟨Expiring.step ⟨row, hrow, hopened, hstale, hdeadline⟩ hbring hopen, ?_⟩
        intro k hik hkn
        rcases Nat.lt_succ_iff_lt_or_eq.mp hkn with hkn | rfl
        · exact hkept k hik hkn
        · exact hretires
    · exact .inr ⟨fun hopen => hbring (bringsPrompt_of_opens hclosed hopen), k, hik,
        Nat.lt_succ_of_lt hkn, hretires⟩

/-- A claim is granted on an open and fresh prompt of its worker. -/
lemma granted_onPrompt {fields : SendFields} (h : WorkerStep R s c fields.workerId s' a)
    (ha : a.grants = some fields) : ∃ claim row, OnPrompt R s fields.workerId claim fields row := by
  cases h with
  | other _ hgrants => exact absurd rfl (hgrants fields ha)
  | observed _ _ _ _ hdone =>
    rw [hdone] at ha
    cases ha
  | pruned _ _ _ _ _ _ _ _ _ hpruned =>
    obtain ⟨n, rfl⟩ := hpruned
    cases ha
  | claimed fields' claim row hclaimed hon =>
    rw [hclaimed] at ha
    obtain rfl := Option.some.inj ha
    exact ⟨claim, row, hon⟩
  | started fields' claim row _ hstarted _ _ hon =>
    rw [hstarted] at ha
    obtain rfl := Option.some.inj ha
    exact ⟨claim, row, hon⟩
  | dropped _ _ _ _ _ hnone =>
    rw [hnone] at ha
    cases ha
  | finished _ _ _ _ _ _ _ _ _ hdone =>
    rw [hdone] at ha
    cases ha

/-- An open prompt that renders is in the overlay. -/
lemma mem_overlay_of_opened {row : PendingRow} (hrow : s.pending.lookup w = some row)
    (hopened : row.observationState = .opened) {workers : List PendingWorker}
    {fallback : List PendingInteraction} {p : PendingInteraction}
    (hp : backendPendingInteraction R (workers.reverse.find? fun worker => worker.id == w) w row =
      some p) : p ∈ s.overlay R workers fallback := by
  unfold overlay
  rw [List.mem_insertionSort, List.mem_append]
  refine .inr (List.mem_filterMap.mpr ⟨⟨w, row⟩, ?_, ?_⟩)
  · rw [List.mem_insertionSort]
    exact AList.mem_lookup_iff.mp hrow
  · rw [if_pos hopened]
    exact hp

/-- An observation that is late, or from another binding without authority, is passed over. -/
lemma pendingAt_succ_of_passedOver {o : PendingObservation} {row : PendingRow}
    (hcall : calls n = .observe w o x) (hrow : (pendingAt R calls n).pending.lookup w = some row)
    (hpassed : x.observedAt < row.observedAt ∨
      bindingChanged (some row) x = true ∧ x.bindingAuthoritative = false) :
    pendingAt R calls (n + 1) = pendingAt R calls n := by
  have hnot : ¬(pendingAt R calls n).Admits w o x := by
    intro hadmits
    rcases hpassed with hlate | ⟨hchanged, hweak⟩
    · exact absurd (hadmits.order row hrow) (not_le.mpr hlate)
    · have hsource := hadmits.source
      unfold bindingChanged at hsource hchanged
      rw [hrow] at hsource
      split at hsource
      · obtain ⟨row', hrow', hbinding⟩ := hsource
        obtain rfl := Option.some.inj hrow'
        rcases hbinding with hbinding | hbinding <;> simp [hbinding] at hchanged
      · rw [hchanged, hweak] at hsource
        simp at hsource
  have hnext : pendingAt R calls (n + 1) = (pendingStep R (pendingAt R calls n) (calls n)).1 := rfl
  rw [hnext, hcall]
  unfold pendingStep
  dsimp only
  split
  · next s' changed happly =>
    rcases applyObservation_cases happly with ⟨-, heq⟩ | ⟨hadmits, -⟩
    · exact congrArg Prod.fst heq
    · exact absurd hadmits hnot
  · rfl

/-- A call between two points of a run retires the prompt of a worker. -/
def Retired (R : PendingRules) (calls : ℕ → PendingCall) (w : String) (i n : ℕ) (deadline : Int) :
    Prop :=
  ∃ k, i < k ∧ k < n ∧ Retires (pendingAt R calls k) w deadline (calls k)

/-- The freshness of the prompt of a worker along every run. After a first failure with its
deadline, and until a prompt is read again, the overlay is free of the prompt exactly when a call
has retired it. -/
theorem pendingFreshness (R : PendingRules) (calls : ℕ → PendingCall) (w : String) :
    (∀ n o x row, calls n = .observe w o x → (pendingAt R calls n).pending.lookup w = some row →
      (x.observedAt < row.observedAt ∨
        bindingChanged (some row) x = true ∧ x.bindingAuthoritative = false) →
      pendingAt R calls (n + 1) = pendingAt R calls n) ∧
    (∀ i x n, FirstFailure R calls w i x → i < n →
      (∀ k, i < k → k < n → ¬BringsPrompt R calls w k) →
      (Retired R calls w i n (x.observedAt + x.staleGrace) →
        ¬PromptOpen (pendingAt R calls n) w ∧
        ∀ workers fallback, ∀ p ∈ (pendingAt R calls n).overlay R workers fallback,
          p.workerId = w → p ∈ fallback) ∧
      (¬Retired R calls w i n (x.observedAt + x.staleGrace) →
        ∃ row, (pendingAt R calls n).pending.lookup w = some row ∧
          row.observationState = .opened ∧ row.freshness = .stale ∧
          row.graceDeadline = some (x.observedAt + x.staleGrace) ∧
          ∀ workers fallback p, backendPendingInteraction R
            (workers.reverse.find? fun worker => worker.id == w) w row = some p →
              p ∈ (pendingAt R calls n).overlay R workers fallback)) ∧
    (∀ n, ¬PromptOpen (pendingAt R calls n) w → PromptOpen (pendingAt R calls (n + 1)) w →
      BringsPrompt R calls w n) ∧
    (∀ n row, (pendingAt R calls n).pending.lookup w = some row →
      row.observationState = .opened → row.freshness = .fresh →
      ∃ m < n, ∃ prompt x, ReadsPrompt R (pendingAt R calls m) w (calls m) prompt x row) ∧
    (∀ n fields, (pendingAnswerAt R calls n).grants = some fields → fields.workerId = w →
      ∃ m < n, ∃ prompt x row, ReadsPrompt R (pendingAt R calls m) w (calls m) prompt x row ∧
        (pendingAt R calls n).pending.lookup w = some row ∧
        fields.bindingPrivateFingerprint = x.bindingPrivateFingerprint ∧
        fields.turnTargetValue = x.observedTurnTargetValue) := by
  refine ⟨fun n o x row hcall hrow => pendingAt_succ_of_passedOver hcall hrow,
    fun i x n hfirst hin hread => ?_, fun n => bringsPrompt_of_opens,
    fun n row hrow hopened hfresh => fresh_of_read hrow hopened hfresh, fun n fields ha hw => ?_⟩
  · rcases expiring_or_retired hfirst hin hread with ⟨⟨row, hrow, hopened, hstale, hdeadline⟩, hkept⟩ |
      ⟨hclosed, hretired⟩
    · refine ⟨fun hretired => ?_, fun _ => ⟨row, hrow, hopened, hstale, hdeadline, ?_⟩⟩
      · obtain ⟨k, hik, hkn, hretires⟩ := hretired
        exact absurd hretires (hkept k hik hkn)
      · exact fun workers fallback p hp => mem_overlay_of_opened hrow hopened hp
    · exact ⟨fun _ => ⟨hclosed, fun workers fallback p hp hw =>
        mem_fallback_of_not_promptOpen hclosed hp hw⟩, fun hnot => absurd hretired hnot⟩
  · subst hw
    obtain ⟨claim, row, hon⟩ := granted_onPrompt (pendingStepAt R calls n fields.workerId) ha
    obtain ⟨m, hm, prompt, x, hread⟩ := fresh_of_read hon.lookup hon.opened hon.fresh
    refine ⟨m, hm, prompt, x, row, hread, hon.lookup, ?_⟩
    obtain ⟨payload, -, rfl⟩ := hread.row_eq
    rw [hon.fields_eq]
    exact ⟨hon.binding.symm, hon.target.symm⟩

/-- A prompt is read, a read fails two seconds later, and then the calls that follow. -/
def sampleFailure (rest : List PendingCall) : ℕ → PendingCall := fun n =>
  (([.observe "worker" (.openPrompt (samplePrompt "first")) (sampleSource 0),
    .observe "worker" .readFailed (sampleSource 2000000)] : List PendingCall) ++ rest).getD n
      (.abandon "")

def sampleRow : PendingRow :=
  openRow samplePendingRules (samplePrompt "first") (sampleSource 0)
    ((samplePrompt "first").publicPayload samplePendingRules (sampleSource 0))

lemma sampleRow_read (rest : List PendingCall) :
    (pendingAt samplePendingRules (sampleFailure rest) 1).pending.lookup "worker" =
      some sampleRow := by
  change ((pendingStep samplePendingRules .empty (.observe "worker"
    (.openPrompt (samplePrompt "first")) (sampleSource 0))).1).pending.lookup "worker" = _
  decide +kernel

lemma sampleFailure_first (rest : List PendingCall) :
    FirstFailure samplePendingRules (sampleFailure rest) "worker" 1 (sampleSource 2000000) where
  call := rfl
  admits := by
    refine ⟨by decide, fun row hrow => ?_, ?_⟩
    · obtain rfl := Option.some.inj ((sampleRow_read rest).symm.trans hrow)
      decide
    · rw [if_neg nofun, sampleRow_read rest]
      exact .inl (by decide +kernel)
  prompt := ⟨sampleRow, sampleRow_read rest, rfl, rfl⟩

/-- An expired prompt is in the overlay as long as no further call is made. -/
theorem expiredPrompt_shown : ¬∀ (R : PendingRules) (calls : ℕ → PendingCall) (w : String) (i n : ℕ)
    (x : ObservationSource) (t : Int), FirstFailure R calls w i x → i < n →
      (∀ k, i < k → k < n → ¬BringsPrompt R calls w k) → x.observedAt + x.staleGrace ≤ t →
      ∀ workers fallback, ∀ p ∈ (pendingAt R calls n).overlay R workers fallback,
        p.workerId = w → p ∈ fallback := by
  intro h
  have hclear := h samplePendingRules (sampleFailure []) "worker" 1 2 (sampleSource 2000000)
    40000000 (sampleFailure_first []) (by decide) (fun k hk hk' => absurd hk' (not_lt.mpr hk))
    (by decide) [] []
  have hshown : ((pendingAt samplePendingRules (sampleFailure []) 2).overlay samplePendingRules [] []).map
      (·.workerId) = ["worker"] := by
    decide +kernel
  obtain ⟨p, hp, hw⟩ := List.mem_map.mp (hshown ▸ List.mem_singleton.mpr rfl)
  exact absurd (hclear p hp hw) List.not_mem_nil

/-- A further failed read past the deadline clears the overlay. -/
theorem pendingFreshness_ofSample : ∀ workers fallback,
    ∀ p ∈ (pendingAt samplePendingRules
      (sampleFailure [.observe "worker" .readFailed (sampleSource 40000000)]) 3).overlay
      samplePendingRules workers fallback, p.workerId = "worker" → p ∈ fallback := by
  have hfirst := sampleFailure_first [.observe "worker" .readFailed (sampleSource 40000000)]
  have hrow : ((pendingAt samplePendingRules
      (sampleFailure [.observe "worker" .readFailed (sampleSource 40000000)]) 2).pending.lookup
      "worker").all (fun r => decide (r.observedAt ≤ 40000000)) = true := by
    decide +kernel
  refine ((pendingFreshness _ _ "worker").2.1 1 _ 3 hfirst (by decide) (fun k hk hk' => ?_)).1
    ⟨2, by decide, by decide, .expired (sampleSource 40000000) ⟨by decide, fun row hlookup => ?_, ?_⟩
      (by decide)⟩ |>.2
  · obtain rfl : k = 2 := by omega
    rintro ⟨prompt, x, row, hread⟩
    cases hread.call
  · rw [hlookup, Option.all_some] at hrow
    exact of_decide_eq_true hrow
  · rw [if_neg nofun]
    exact .inl (by decide +kernel)

end Tendwire

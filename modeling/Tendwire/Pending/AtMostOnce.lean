import Tendwire.Pending.WorkerStep

/-!
# At most one send for a prompt

While a started claim stands on the open and fresh prompt of its worker no other can start, and
only a read of the worker takes that away.
-/

namespace Tendwire

open Transition PendingStore

variable {R : PendingRules} {s s' : PendingStore} {c : PendingCall} {w : String}
  {a : PendingAnswer} {x : ObservationSource} {changed : Bool} {calls : ℕ → PendingCall} {n : ℕ}

/-! ### What observations do to claims and prompts -/

/-- A failed read leaves no prompt open and fresh. -/
lemma not_fresh_of_readFailed {row : PendingRow}
    (hrow : (s.readFailed w x).1.pending.lookup w = some row) :
    ¬(row.observationState = .opened ∧ row.freshness = .fresh) := by
  rintro ⟨hopened, hfresh⟩
  unfold readFailed at hrow
  dsimp only at hrow
  split at hrow
  · rw [pending_put_self] at hrow
    cases hrow
    cases hfresh
  · split at hrow
    · split at hrow
      · rw [pending_dropClaim, pending_put_self] at hrow
        cases hrow
        cases hfresh
      · split at hrow
        · next hstale =>
          rw [pending_put_self] at hrow
          cases hrow
          rw [hstale] at hfresh
          cases hfresh
        · rw [pending_dropClaim, pending_put_self] at hrow
          cases hrow
          cases hfresh
    · split at hrow
      · next hstale =>
        rw [pending_put_self] at hrow
        cases hrow
        rw [hstale] at hfresh
        cases hfresh
      · rw [pending_put_self] at hrow
        cases hrow
        cases hfresh

/-- No observation makes a claim. -/
lemma claims_of_applied {o : PendingObservation} (h : Applied R s w x o (s', changed))
    {claim : PendingClaim} (hclaim : s'.claims.lookup w = some claim) :
    s.claims.lookup w = some claim := by
  have hdrop : ∀ (t : PendingStore) (p : PendingClaim → Bool), t.claims = s.claims →
      (t.dropClaim w p).claims.lookup w = some claim → s.claims.lookup w = some claim := by
    intro t p ht hlookup
    rw [claims_dropClaim_self, ht] at hlookup
    exact (Option.filter_eq_some_iff.mp hlookup).1
  cases o with
  | workerAuthoritativelyAbsent =>
    obtain rfl := congrArg Prod.fst (h : (s', changed) = s.workerAbsent w x)
    unfold workerAbsent at hclaim
    split at hclaim
    · refine hdrop _ _ ?_ hclaim
      rfl
    · exact hclaim
  | readFailed =>
    obtain rfl := congrArg Prod.fst (h : (s', changed) = s.readFailed w x)
    unfold readFailed at hclaim
    dsimp only at hclaim
    split at hclaim
    · exact hclaim
    · split at hclaim
      · split at hclaim
        · exact hdrop (s.put w _) _ rfl hclaim
        · split at hclaim
          · exact hclaim
          · exact hdrop (s.put w _) _ rfl hclaim
      · split at hclaim <;> exact hclaim
  | readSucceededUnsupportedDecision | readSucceededInvalidPrompt | readSucceededNoPrompt =>
    obtain rfl := congrArg Prod.fst (h : (s', changed) = s.readSettled w x _ _ _ _)
    exact hdrop (s.put w _) _ rfl hclaim
  | openPrompt prompt =>
    obtain ⟨payload, -, heq⟩ := Option.map_eq_some_iff.mp (h : s.readPrompt R w prompt x = _)
    obtain ⟨rfl, -⟩ := Prod.mk.inj heq
    exact hdrop s _ rfl hclaim

/-! ### The guard -/

/-- If the prompt of a worker is open and fresh then a started claim stands on it. -/
def Guarded (w : String) (s : PendingStore) : Prop :=
  ∀ row, s.pending.lookup w = some row → row.observationState = .opened → row.freshness = .fresh →
    ∃ claim, s.claims.lookup w = some claim ∧ claim.state = .sendStarted ∧ answers claim row = true

/-- An observation of the worker other than a failed read was applied. -/
inductive ReadApplied (R : PendingRules) (s : PendingStore) (w : String) : PendingCall → Prop where
  | observed (o : PendingObservation) (x : ObservationSource) (result : PendingStore × Bool)
      (hread : o ≠ .readFailed) (hadmits : s.Admits w o x) (happlied : Applied R s w x o result) :
      ReadApplied R s w (.observe w o x)
  | absent (live : List String) (now : Int) (row : PendingRow)
      (hrow : s.pending.lookup w = some row)
      (hlive : row.bindingPrivateFingerprint ∉ live.filter (· != "")) (hle : row.observedAt ≤ now) :
      ReadApplied R s w (.prune live false now)

lemma guarded_of_same (h : SameWorker w s s') (hs : Guarded w s) : Guarded w s' := by
  intro row hrow hopened hfresh
  obtain ⟨claim, hclaim, hclaimed⟩ := hs row (h.row ▸ hrow) hopened hfresh
  exact ⟨claim, h.claim.trans hclaim, hclaimed⟩

lemma OnPrompt.answers {claim : PendingClaim} {fields : SendFields} {row : PendingRow}
    (h : OnPrompt R s w claim fields row) : PendingStore.answers claim row = true := by
  simp [PendingStore.answers, h.revision, h.binding, h.target, h.opened]

/-- A guarded worker starts nothing. -/
lemma not_started_of_guarded (hs : Guarded w s) (h : WorkerStep R s c w s' a) {fields : SendFields}
    (hw : fields.workerId = w) : a ≠ .started fields := by
  rintro rfl
  cases h with
  | other _ hgrants => exact hgrants fields rfl hw
  | observed _ _ _ _ ha => cases ha
  | pruned _ _ _ _ _ _ _ _ _ ha =>
    obtain ⟨n, hn⟩ := ha
    cases hn
  | claimed _ _ _ ha => cases ha
  | started _ claim row _ _ hlookup hstate hon =>
    obtain ⟨claim', hclaim', hstarted, -⟩ := hs row hon.lookup hon.opened hon.fresh
    obtain rfl := Option.some.inj (hlookup.symm.trans hclaim')
    rw [hstate] at hstarted
    cases hstarted
  | dropped _ _ _ _ _ ha => cases ha
  | finished _ _ _ _ _ _ _ _ _ ha => cases ha

/-- A guarded worker stays guarded until a read of it is applied. -/
lemma guarded_step (hs : Guarded w s) (h : WorkerStep R s c w s' a)
    (hread : ¬ReadApplied R s w c) : Guarded w s' := by
  cases h with
  | other hsame => exact guarded_of_same hsame hs
  | observed o x changed hc ha hadmits happlied =>
    subst hc
    by_cases hfailed : o = .readFailed
    · subst hfailed
      intro row hrow hopened hfresh
      obtain rfl := congrArg Prod.fst (happlied : (s', changed) = s.readFailed w x)
      exact absurd ⟨hopened, hfresh⟩ (not_fresh_of_readFailed hrow)
    · exact absurd (.observed o x _ hfailed hadmits happlied) hread
  | pruned live now row hc hlookup hlive hle =>
    subst hc
    exact absurd (.absent live now row hlookup hlive hle) hread
  | claimed fields claim row _ hon hstate hold =>
    obtain ⟨claim', hclaim', hstarted, -⟩ := hs row hon.lookup hon.opened hon.fresh
    rw [hold claim' hclaim'] at hstarted
    cases hstarted
  | started fields claim row now _ hlookup hstate hon =>
    obtain ⟨claim', hclaim', hstarted, -⟩ := hs row hon.lookup hon.opened hon.fresh
    obtain rfl := Option.some.inj (hlookup.symm.trans hclaim')
    rw [hstate] at hstarted
    cases hstarted
  | dropped claim hlookup hstate hrow hclaim =>
    intro row hrow' hopened hfresh
    obtain ⟨claim', hclaim', hstarted, -⟩ := hs row (hrow ▸ hrow') hopened hfresh
    obtain rfl := Option.some.inj (hlookup.symm.trans hclaim')
    rw [hstate] at hstarted
    cases hstarted
  | finished token now claim hc hlookup hof hstate hrow hclaim =>
    intro row hrow' hopened hfresh
    rw [hrow] at hrow'
    obtain ⟨row₀, hrow₀, rfl⟩ := Option.map_eq_some_iff.mp hrow'
    split at hopened
    · cases hopened
    · next hanswers =>
      rw [if_neg hanswers] at hfresh
      obtain ⟨claim', hclaim', -, hanswers'⟩ := hs row₀ hrow₀ hopened hfresh
      obtain rfl := Option.some.inj (hlookup.symm.trans hclaim')
      exact absurd hanswers' hanswers

/-- A start guards its worker. -/
lemma guarded_of_started {fields : SendFields} (hw : fields.workerId = w)
    (h : WorkerStep R s c w s' (.started fields)) : Guarded w s' := by
  cases h with
  | other _ hgrants => exact absurd hw (hgrants fields rfl)
  | observed _ _ _ _ ha => cases ha
  | pruned _ _ _ _ _ _ _ _ _ ha =>
    obtain ⟨n, hn⟩ := ha
    cases hn
  | claimed _ _ _ ha => cases ha
  | started _ claim row now _ hlookup hstate hon hrow hclaim =>
    intro row' hrow' hopened hfresh
    obtain rfl := Option.some.inj (hon.lookup.symm.trans (hrow ▸ hrow'))
    exact ⟨_, hclaim, rfl, hon.answers⟩
  | dropped _ _ _ _ _ ha => cases ha
  | finished _ _ _ _ _ _ _ _ _ ha => cases ha

/-! ### Runs -/

def pendingMachine (R : PendingRules) : Machine PendingStore PendingCall PendingAnswer where
  step := pendingStep R

/-- The store before call `n` of a run from the empty store. -/
def pendingAt (R : PendingRules) (calls : ℕ → PendingCall) (n : ℕ) : PendingStore :=
  (pendingMachine R).stateAt .empty calls n

def pendingAnswerAt (R : PendingRules) (calls : ℕ → PendingCall) (n : ℕ) : PendingAnswer :=
  (pendingMachine R).answerAt .empty calls n

lemma pendingStepAt (R : PendingRules) (calls : ℕ → PendingCall) (n : ℕ) (w : String) :
    WorkerStep R (pendingAt R calls n) (calls n) w (pendingAt R calls (n + 1))
      (pendingAnswerAt R calls n) := workerStep R _ _ w

/-- Between two starts for a worker a read of the worker is applied. -/
theorem read_between_starts {i j : ℕ} (hij : i < j) {fields fields' : SendFields}
    (hi : pendingAnswerAt R calls i = .started fields) (hw : fields.workerId = w)
    (hj : pendingAnswerAt R calls j = .started fields') (hw' : fields'.workerId = w) :
    ∃ k, i < k ∧ k < j ∧ ReadApplied R (pendingAt R calls k) w (calls k) := by
  have hstart : Guarded w (pendingAt R calls (i + 1)) :=
    guarded_of_started hw (hi ▸ pendingStepAt R calls i w)
  have hend : ¬Guarded w (pendingAt R calls j) := fun h =>
    not_started_of_guarded h (pendingStepAt R calls j w) hw' hj
  obtain ⟨k, hik, hkj, hbefore, hafter⟩ := (pendingMachine R).exists_losing_step hij hstart hend
  refine ⟨k, hik, hkj, ?_⟩
  by_contra hread
  exact hafter (guarded_step hbefore (pendingStepAt R calls k w) hread)

/-- A claim with only its state changed. -/
def PendingClaim.SameSend (claim claim' : PendingClaim) : Prop :=
  claim' = { claim with state := claim'.state, sendStartedAt := claim'.sendStartedAt }

lemma OnPrompt.of_sameSend {claim claim' : PendingClaim} {fields : SendFields} {row : PendingRow}
    (h : claim.SameSend claim') (hon : OnPrompt R s w claim' fields row) :
    OnPrompt R s w claim fields row := by
  unfold PendingClaim.SameSend at h
  generalize claim'.state = state at h
  generalize claim'.sendStartedAt = sendStartedAt at h
  subst h
  exact ⟨hon.lookup, hon.opened, hon.fresh, hon.revision, hon.binding, hon.target, hon.route,
    hon.fields_eq⟩

/-- Every claim was taken by a call of the run, on the prompt that its worker had then. -/
theorem claim_taken {claim' : PendingClaim}
    (hclaim : (pendingAt R calls n).claims.lookup w = some claim') :
    ∃ m < n, ∃ claim fields row, pendingAnswerAt R calls m = .claimed claim.claimToken fields ∧
      OnPrompt R (pendingAt R calls m) w claim fields row ∧ claim.SameSend claim' := by
  induction n generalizing claim' with
  | zero => cases hclaim
  | succ n ih =>
    have hkept : ∀ claim'', (pendingAt R calls n).claims.lookup w = some claim'' →
        claim' = { claim'' with state := claim'.state, sendStartedAt := claim'.sendStartedAt } →
        ∃ m < n + 1, ∃ claim fields row, pendingAnswerAt R calls m = .claimed claim.claimToken fields ∧
          OnPrompt R (pendingAt R calls m) w claim fields row ∧ claim.SameSend claim' := by
      intro claim'' hclaim'' hsame
      obtain ⟨m, hm, claim, fields, row, ha, hon, hclaim⟩ := ih hclaim''
      refine ⟨m, Nat.lt_succ_of_lt hm, claim, fields, row, ha, hon, ?_⟩
      unfold PendingClaim.SameSend at hclaim ⊢
      rw [hsame, hclaim]
    cases pendingStepAt R calls n w with
    | other hsame => exact hkept claim' (hsame.claim ▸ hclaim) rfl
    | observed o x changed _ _ _ happlied => exact hkept claim' (claims_of_applied happlied hclaim) rfl
    | pruned _ _ _ _ _ _ _ _ hgone =>
      rw [hgone] at hclaim
      cases hclaim
    | claimed fields claim row ha hon _ _ _ _ hnew =>
      obtain rfl := Option.some.inj (hnew.symm.trans hclaim)
      exact ⟨n, Nat.lt_succ_self n, claim, fields, row, ha, hon, rfl⟩
    | started fields claim row now _ hlookup _ _ _ hnew =>
      refine hkept claim hlookup ?_
      obtain rfl := Option.some.inj (hnew.symm.trans hclaim)
      rfl
    | dropped _ _ _ _ hgone =>
      rw [hgone] at hclaim
      cases hclaim
    | finished _ _ _ _ _ _ _ _ hgone =>
      rw [hgone] at hclaim
      cases hclaim

/-- A started send is the first since the last read of its worker, and what it sends to where is
stored with the prompt revision that its claim was taken on. -/
theorem startedSend_atMostOnce (R : PendingRules) (calls : ℕ → PendingCall) (j : ℕ)
    (sent : SendFields) (hj : pendingAnswerAt R calls j = .started sent) :
    (∀ i < j, ∀ fields, pendingAnswerAt R calls i = .started fields →
      fields.workerId = sent.workerId →
        ∃ k, i < k ∧ k < j ∧ ReadApplied R (pendingAt R calls k) sent.workerId (calls k)) ∧
    ∃ m < j, ∃ claim fields before current,
      pendingAnswerAt R calls m = .claimed claim.claimToken fields ∧
      OnPrompt R (pendingAt R calls m) sent.workerId claim fields before ∧
      OnPrompt R (pendingAt R calls j) sent.workerId claim sent current := by
  refine ⟨fun i hij fields hi hw => read_between_starts hij hi hw hj rfl, ?_⟩
  have hstep := pendingStepAt R calls j sent.workerId
  rw [hj] at hstep
  cases hstep with
  | other _ hgrants => exact absurd rfl (hgrants sent rfl)
  | observed _ _ _ _ ha => cases ha
  | pruned _ _ _ _ _ _ _ _ _ ha =>
    obtain ⟨n, hn⟩ := ha
    cases hn
  | claimed _ _ _ ha => cases ha
  | started _ claim' row now ha hlookup _ hon =>
    cases ha
    obtain ⟨m, hm, claim, fields, before, hclaimed, hbefore, hsame⟩ := claim_taken hlookup
    exact ⟨m, hm, claim, fields, before, row, hclaimed, hbefore, hon.of_sameSend hsame⟩
  | dropped _ _ _ _ _ ha => cases ha
  | finished _ _ _ _ _ _ _ _ _ ha => cases ha

def samplePendingRules : PendingRules where
  revisionDigest revision binding target := revision ++ "/" ++ binding ++ "/" ++ target
  choiceDigest _ label _ := label
  pendingDigest _ workerId := workerId
  interactionFingerprint interaction := interaction.question
  sanitizePayload := some
  validInstructionText _ := true

def samplePrompt (revision : String) : ObservedPrompt where
  question := "Continue?"
  pendingKind := none
  choices := [⟨"yes", 1⟩, ⟨"no", 2⟩]
  revisionDigest := revision
  decision := none

def sampleSource (observedAt : Int) : ObservationSource where
  observedAt := observedAt
  staleGrace := defaultStaleGrace
  bindingPrivateFingerprint := "binding"
  observedTurnTargetValue := "pane"
  bindingAuthoritative := true

def sampleEnvironment : PendingEnvironment where
  workers := some [⟨"worker", "fingerprint", "active"⟩]
  bindings := [⟨"worker", "fingerprint", "herdr", "pane_id", "binding", "pane", true, 1000000000⟩]

/-- A prompt is observed, answered and started, and then the calls that follow. -/
def sampleAnswer (rest : List PendingCall) : ℕ → PendingCall := fun n =>
  (([.observe "worker" (.openPrompt (samplePrompt "first")) (sampleSource 0),
    .claimChoice "pending-worker" "Continue?" "choice-yes"
      ⟨sampleEnvironment, true, 1, 30000000, "token"⟩,
    .startChoice sampleEnvironment "token" 2 30000000] : List PendingCall) ++ rest).getD n
      (.abandon "")

def sampleSend : SendFields where
  workerId := "worker"
  workerFingerprint := "fingerprint"
  bindingPrivateFingerprint := "binding"
  turnTargetValue := "pane"
  route := .picker 1

lemma sampleAnswer_started :
    pendingAnswerAt samplePendingRules (sampleAnswer []) 2 = .started sampleSend := by
  decide +kernel

/-- The send of a sample answer was claimed by an earlier call. -/
theorem startedSend_ofSample : ∃ m < 2, ∃ token fields,
    pendingAnswerAt samplePendingRules (sampleAnswer []) m = .claimed token fields := by
  obtain ⟨-, m, hm, claim, fields, before, current, hclaimed, -⟩ :=
    startedSend_atMostOnce samplePendingRules (sampleAnswer []) 2 sampleSend sampleAnswer_started
  exact ⟨m, hm, claim.claimToken, fields, hclaimed⟩

end Tendwire

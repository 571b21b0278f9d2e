import Tendwire.Commands.SendAuthority
import Tendwire.Pending.AtMostOnce

/-!
# Finishing an answer

The receipt of an answer is accepted in one transaction with the tombstone of the prompt that it
answers. Observations between the start of the send and its finish decide whether there is one.
-/

namespace Tendwire

open PendingStore

variable {R : PendingRules} {s s' : PendingStore} {c : PendingCall} {w : String}
  {a : PendingAnswer} {x : ObservationSource} {calls : ℕ → PendingCall} {i n : ℕ}
  {lib : CommandLibrary}

/-- The tables that an answer writes. -/
structure AnswerStore where
  commands : CommandStore
  pending : PendingStore

/-- The finish of an answer whose input was submitted. -/
def acceptedFinish (mark : MarkCall) (resultJson : String) (now : Int) (effectRaises : Bool) :
    FinishCall where
  ref := mark.ref
  ownerToken := mark.ownerToken
  expectedState := .sendStarted
  terminalState := .accepted
  status := "accepted"
  resultJson := resultJson
  effectRaises := effectRaises
  now := now

/-- `finish_command_request` with `backend_pending_choice_terminal_effect`, which raises when the
claim does not finish. Nothing of it stays then, and the caller reads the receipt again. -/
def AnswerStore.finish (lib : CommandLibrary) (s : AnswerStore) (mark : MarkCall)
    (resultJson claimToken : String) (now observedAt : Int) : AnswerStore × Option CommandResponse :=
  let effect := s.pending.finishSend claimToken true observedAt
  match finishCommandRequest lib s.commands (acceptedFinish mark resultJson now !effect.2) with
  | .error _ => (s, none)
  | .ok (commands, response) =>
    (⟨commands, if response.status = .accepted then effect.1 else s.pending⟩, some response)

def AnswerStore.receiptState (s : AnswerStore) (ref : ReceiptRef) : Option ReceiptState :=
  (s.commands.commandRequestRow ref.hostId ref.requestId).map (·.2.state)

/-! ### The receipt -/

lemma receiptState_of_row {t : AnswerStore} {r : CommandReceipt} {ref : ReceiptRef}
    (hr : t.commands.receipts.get? n = some r) (hhost : r.hostId = ref.hostId)
    (hrequest : r.requestId = ref.requestId) : t.receiptState ref = some r.state := by
  unfold AnswerStore.receiptState
  rw [← hhost, ← hrequest, CommandStore.commandRequestRow_unique hr]
  rfl

/-- The submission of a request can always follow its receipt. -/
lemma exists_terminalizeTurnSubmission (commands : CommandStore) (host request : String)
    (state : ReceiptState) (now : Int) :
    ∃ commands', terminalizeTurnSubmission commands host request state now = .ok commands' := by
  unfold terminalizeTurnSubmission
  split
  · exact ⟨_, rfl⟩
  · next next hnext =>
    split
    · exact ⟨_, rfl⟩
    · next n ledger hledger =>
      split
      · exact ⟨_, rfl⟩
      · obtain ⟨hrow, hkey⟩ := Relational.Table.first?_eq_some hledger
        simp only [Bool.and_eq_true, beq_iff_eq] at hkey
        obtain ⟨submissions, hupdate⟩ := Relational.Constrained.exists_updateWhere
          (t := commands.submissions)
          (p := fun _ t => t.hostId == host && t.requestId == request && t.state == ledger.state)
          (f := fun t => t.advanced next now) (fun _ _ _ _ => rfl) (by
            intro t k hk
            simp only [submissionSchema, List.mem_cons, List.not_mem_nil, or_false] at hk
            rcases hk with rfl | rfl | rfl <;> rfl)
        have hselect := Relational.Table.select_eq_singleton hrow
          (p := fun _ t => t.hostId == host && t.requestId == request && t.state == ledger.state)
          (by simp [hkey]) (fun m t ht hp => by
            simp only [Bool.and_eq_true, beq_iff_eq] at hp
            exact commands.submissions.eq_of_key (List.mem_cons_of_mem _ List.mem_cons_self) ht hrow
              rfl (by rw [hkey.1, hkey.2, hp.1.1, hp.1.2]))
        unfold CommandStore.updateSubmissions
        rw [hupdate]
        simp [hselect]

/-- A receipt whose send has started may be accepted. -/
lemma check_terminated_accepted {row : CommandReceipt} (hcheck : row.check = true)
    (hstate : row.state = .sendStarted) (hsent : row.sendStartedAt.isSome = true)
    (resultJson : String) (now : Int) :
    (row.terminated .accepted "accepted" resultJson now).check = true := by
  unfold CommandReceipt.check at hcheck ⊢
  rw [hstate] at hcheck
  simp only [CommandReceipt.terminated, ReceiptState.isTerminal, hsent] at hcheck ⊢
  simp_all

/-- The owner of a started send finishes it as accepted, unless its effect raises. -/
lemma finishCommandRequest_owned {commands : CommandStore} {row : CommandReceipt} {mark : MarkCall}
    {resultJson : String} {now : Int} (hrow : commands.receipts.get? n = some row)
    (hhost : row.hostId = mark.ref.hostId) (hrequest : row.requestId = mark.ref.requestId)
    (hfingerprint : row.canonicalFingerprint = mark.ref.canonicalFingerprint)
    (hstate : row.state = .sendStarted) (hsent : row.sendStartedAt.isSome = true)
    (howner : row.ownerTokenHash = ownerTokenHash lib mark.ownerToken)
    (hhash : ownerTokenHash lib mark.ownerToken ≠ "") (raises : Bool) :
    if raises then
      finishCommandRequest lib commands (acceptedFinish mark resultJson now true) =
        .error .effectError
    else ∃ commands', finishCommandRequest lib commands (acceptedFinish mark resultJson now false) =
      .ok (commands', ⟨.accepted, some (n, row.terminated .accepted "accepted" resultJson now), none⟩) ∧
        commands'.receipts.get? n = some (row.terminated .accepted "accepted" resultJson now) := by
  have hkey : commands.commandRequestRow mark.ref.hostId mark.ref.requestId = some (n, row) := by
    rw [← hhost, ← hrequest]
    exact CommandStore.commandRequestRow_unique hrow
  obtain ⟨commands₁, hupdate, hw⟩ := exists_updateReceipts (p := fun m r => m == n &&
      r.state == .sendStarted && r.canonicalFingerprint == mark.ref.canonicalFingerprint &&
      r.ownerTokenHash == ownerTokenHash lib mark.ownerToken)
    (f := fun r => r.terminated .accepted "accepted" resultJson now) hrow
    (by simp [hstate, hfingerprint, howner]) (by simp_all)
    (check_terminated_accepted (commands.receipts.check_of_get? hrow) hstate hsent _ _)
    fun _ => ⟨rfl, rfl⟩
  obtain ⟨commands₂, hterm⟩ := exists_terminalizeTurnSubmission commands₁ mark.ref.hostId
    mark.ref.requestId .accepted now
  have hnew : commands₂.receipts.get? n =
      some (row.terminated .accepted "accepted" resultJson now) := by
    rw [terminalizeTurnSubmission_receipts hterm]
    exact (hw.row n).trans (if_pos rfl)
  have hanswer : commands₂.commandRequestRow mark.ref.hostId mark.ref.requestId =
      some (n, row.terminated .accepted "accepted" resultJson now) := by
    rw [← hhost, ← hrequest]
    exact CommandStore.commandRequestRow_unique hnew
  have hactive : ReceiptState.sendStarted.isTerminal = false := rfl
  unfold finishCommandRequest acceptedFinish withActiveReceipt
  simp only [finishAllowed, hkey, hactive, hupdate, hfingerprint, hstate, howner, hhash]
  cases raises with
  | true => simp
  | false =>
    simp only [Bool.false_eq_true, if_false]
    refine ⟨commands₂, ?_, hnew⟩
    simp [hterm, answerWithRow, hanswer, finishStatus]

/-! ### The claim -/

/-- The claim with a token stands as started on the prompt that it was taken on. -/
def Answerable (s : PendingStore) (token : String) : Prop :=
  ∃ w claim row, s.claimOf token = some (w, claim) ∧ claim.state = .sendStarted ∧
    s.pending.lookup w = some row ∧ answers claim row = true

/-- The finish of a claim succeeds exactly if it is answerable. -/
lemma finishSend_iff {token : String} {now : Int} :
    (s.finishSend token true now).2 = true ↔ Answerable s token := by
  unfold finishSend Answerable
  cases hof : s.claimOf token with
  | none => simp
  | some e =>
    obtain ⟨w, claim⟩ := e
    by_cases hstate : claim.state = .sendStarted
    · cases hrow : s.pending.lookup w <;> simp [Option.filter_some, hstate, hrow]
    · simp [Option.filter_some, hstate]

/-- The token that a call starts the send of. -/
def PendingCall.startToken : PendingCall → Option String
  | .startChoice _ token _ _ => some token
  | .startDecision _ token _ _ => some token
  | _ => none

lemma claimOf_of_started {token : String} {fields : SendFields} (htoken : c.startToken = some token)
    (h : (pendingStep R s c).2 = .started fields) :
    ∃ claim, s.claimOf token = some (fields.workerId, claim) := by
  have hbegin : ∀ env v claim route now,
      (s.beginSend env v claim route now).2 = .started fields → v = fields.workerId := by
    intro env v claim route now hbegin
    unfold beginSend at hbegin
    split at hbegin
    · cases hbegin
      rfl
    · cases hbegin
  cases c with
  | startChoice env token' now lease =>
    obtain rfl := Option.some.inj htoken
    unfold pendingStep startChoice at h
    dsimp only at h
    split at h
    · cases h
    · next v claim hclaim =>
      refine ⟨claim, ?_⟩
      split at h
      · cases h
      · split at h
        · cases h
        · split at h
          · cases h
          · split at h
            · cases h
            · rw [hclaim, hbegin _ _ _ _ _ h]
  | startDecision env token' now lease =>
    obtain rfl := Option.some.inj htoken
    unfold pendingStep startDecision at h
    dsimp only at h
    split at h
    · cases h
    · next v claim hclaim =>
      refine ⟨claim, ?_⟩
      split at h
      · cases h
      · split at h
        · cases h
        · split at h
          · cases h
          · split at h
            · cases h
            · rw [hclaim, hbegin _ _ _ _ _ h]
  | observe | claimChoice | claimDecision | abandon | finish | finishCommand | prune => cases htoken

/-- A claim after a step was there with its token, or the step took it under a token that no
other claim has. -/
lemma claim_before_step {claim' : PendingClaim} (h : WorkerStep R s c w s' a)
    (hclaim : s'.claims.lookup w = some claim') :
    (∃ claim, s.claims.lookup w = some claim ∧ claim.claimToken = claim'.claimToken) ∨
      ∃ fields, a = .claimed claim'.claimToken fields ∧ fields.workerId = w ∧
        ∀ v e, v ≠ w → s.claims.lookup v = some e → e.claimToken ≠ claim'.claimToken := by
  cases h with
  | other hsame => exact .inl ⟨claim', hsame.claim ▸ hclaim, rfl⟩
  | observed _ _ _ _ _ _ happlied => exact .inl ⟨claim', claims_of_applied happlied hclaim, rfl⟩
  | pruned _ _ _ _ _ _ _ _ hgone =>
    rw [hgone] at hclaim
    cases hclaim
  | claimed fields claim row ha hon _ _ hunique _ hnew =>
    obtain rfl := Option.some.inj (hnew.symm.trans hclaim)
    refine .inr ⟨fields, ha, ?_, hunique⟩
    rw [hon.fields_eq]
    rfl
  | started _ claim _ _ _ hlookup _ _ _ hnew =>
    obtain rfl := Option.some.inj (hnew.symm.trans hclaim)
    exact .inl ⟨claim, hlookup, rfl⟩
  | dropped _ _ _ _ hgone =>
    rw [hgone] at hclaim
    cases hclaim
  | finished _ _ _ _ _ _ _ _ hgone =>
    rw [hgone] at hclaim
    cases hclaim

/-- No two workers have claims with one token. -/
theorem claimToken_unique {v : String} {e e' : PendingClaim}
    (he : (pendingAt R calls n).claims.lookup v = some e)
    (he' : (pendingAt R calls n).claims.lookup w = some e') (htoken : e.claimToken = e'.claimToken) :
    v = w := by
  induction n generalizing e e' with
  | zero => cases he
  | succ n ih =>
    by_contra hne
    rcases claim_before_step (pendingStepAt R calls n v) he with
      ⟨f, hf, hftoken⟩ | ⟨fields, ha, hv, hunique⟩
    · rcases claim_before_step (pendingStepAt R calls n w) he' with
        ⟨f', hf', hftoken'⟩ | ⟨fields, ha, hw, hunique⟩
      · exact hne (ih hf hf' (hftoken.trans (htoken.trans hftoken'.symm)))
      · exact hunique v f hne hf (hftoken.trans htoken)
    · rcases claim_before_step (pendingStepAt R calls n w) he' with
        ⟨f', hf', hftoken'⟩ | ⟨fields', ha', hw, hunique'⟩
      · exact hunique w f' (Ne.symm hne) hf' (hftoken'.trans htoken.symm)
      · obtain ⟨-, rfl⟩ := PendingAnswer.claimed.inj (ha.symm.trans ha')
        exact hne (hv.symm.trans hw)

lemma claimOf_pendingAt {claim : PendingClaim}
    (h : (pendingAt R calls n).claims.lookup w = some claim) :
    (pendingAt R calls n).claimOf claim.claimToken = some (w, claim) := by
  cases hof : (pendingAt R calls n).claimOf claim.claimToken with
  | none =>
    unfold claimOf at hof
    rw [Option.map_eq_none_iff, List.find?_eq_none] at hof
    exact absurd (beq_self_eq_true _) (hof ⟨w, claim⟩ (AList.mem_lookup_iff.mp h))
  | some e =>
    obtain ⟨v, e⟩ := e
    obtain ⟨he, htoken⟩ := claimOf_spec hof
    obtain rfl := claimToken_unique he h htoken
    obtain rfl := Option.some.inj (he.symm.trans h)
    rfl

/-- A call that leaves a started claim of a worker and the prompt under it: a failed read under
their binding, the same prompt again, and whatever is not about them. -/
def Harmless (R : PendingRules) (w : String) (claim : PendingClaim) : PendingCall → Prop
  | .observe v .readFailed x => v = w →
    (x.bindingPrivateFingerprint = "" ∨
      x.bindingPrivateFingerprint = claim.bindingPrivateFingerprint) ∧
    (x.observedTurnTargetValue = "" ∨ x.observedTurnTargetValue = claim.turnTargetValue)
  | .observe v (.openPrompt prompt) x => v = w → prompt.revision R x = claim.revisionDigest ∧
    x.bindingPrivateFingerprint = claim.bindingPrivateFingerprint ∧
    x.observedTurnTargetValue = claim.turnTargetValue
  | .observe v _ _ => v ≠ w
  | .finish token _ _ => token ≠ claim.claimToken
  | .finishCommand token _ _ => token ≠ claim.claimToken
  | .prune live cancelled _ => cancelled = true ∨
    claim.bindingPrivateFingerprint ∈ live.filter (· != "")
  | _ => True

/-- A started claim stands on the prompt that it was taken on. -/
structure Standing (s : PendingStore) (w : String) (claim : PendingClaim) : Prop where
  lookup : s.claims.lookup w = some claim
  started : claim.state = .sendStarted
  answered : ∃ row, s.pending.lookup w = some row ∧ answers claim row = true

lemma Standing.of_same {claim : PendingClaim} (h : Standing s w claim) (hsame : SameWorker w s s') :
    Standing s' w claim := by
  obtain ⟨row, hrow, hanswers⟩ := h.answered
  exact ⟨hsame.claim.trans h.lookup, h.started, row, hsame.row.trans hrow, hanswers⟩

lemma answers_iff {claim : PendingClaim} {row : PendingRow} : answers claim row = true ↔
    row.revisionDigest = claim.revisionDigest ∧
    row.bindingPrivateFingerprint = claim.bindingPrivateFingerprint ∧
    row.observedTurnTargetValue = claim.turnTargetValue ∧
    (row.observationState = .opened ∨ row.observationState = .failed) := by
  unfold answers
  simp [and_assoc]

/-- A failed read under the binding of a started claim leaves it standing. -/
lemma Standing.readFailed {claim : PendingClaim} (h : Standing s w claim)
    (hbinding : x.bindingPrivateFingerprint = "" ∨
      x.bindingPrivateFingerprint = claim.bindingPrivateFingerprint)
    (htarget : x.observedTurnTargetValue = "" ∨ x.observedTurnTargetValue = claim.turnTargetValue) :
    Standing (s.readFailed w x).1 w claim := by
  obtain ⟨row, hrow, hanswers⟩ := h.answered
  obtain ⟨hrevision, hrowBinding, hrowTarget, hstate⟩ := answers_iff.mp hanswers
  have heffective : effectiveBinding (some row) x = claim.bindingPrivateFingerprint := by
    unfold effectiveBinding
    rcases hbinding with heq | heq
    · simp [heq, hrowBinding]
    · rw [heq]
      simp [hrowBinding]
  have heffectiveTarget : effectiveTarget (some row) x = claim.turnTargetValue := by
    unfold effectiveTarget
    rcases htarget with heq | heq
    · simp [heq, hrowTarget]
    · rw [heq]
      simp [hrowTarget]
  -- Each branch writes a row that the claim still answers and drops claims that have not started.
  have hput : ∀ row' : PendingRow, answers claim row' = true → Standing (s.put w row') w claim :=
    fun row' hanswers' => ⟨h.lookup, h.started, row', pending_put_self, hanswers'⟩
  have hdrop : ∀ row' : PendingRow, answers claim row' = true →
      Standing ((s.put w row').dropClaim w fun e => e.state == .claimed) w claim := by
    intro row' hanswers'
    refine ⟨?_, h.started, row', by rw [pending_dropClaim, pending_put_self], hanswers'⟩
    rw [claims_dropClaim_self, claims_put, h.lookup]
    simp [Option.filter_some, h.started]
  unfold PendingStore.readFailed
  rw [hrow]
  dsimp only
  split
  · split
    · exact hdrop _ (answers_iff.mpr ⟨hrevision, heffective, heffectiveTarget, .inr rfl⟩)
    · split
      · exact hput _ (answers_iff.mpr ⟨hrevision, hrowBinding, hrowTarget, hstate⟩)
      · exact hdrop _ (answers_iff.mpr ⟨hrevision, heffective, heffectiveTarget, hstate⟩)
  · split
    · exact hput _ (answers_iff.mpr ⟨hrevision, hrowBinding, hrowTarget, hstate⟩)
    · exact hput _ (answers_iff.mpr ⟨hrevision, heffective, heffectiveTarget, hstate⟩)

/-- The same prompt read again leaves a started claim standing. -/
lemma Standing.readPrompt {claim : PendingClaim} {prompt : ObservedPrompt} {changed : Bool}
    (h : Standing s w claim) (hread : s.readPrompt R w prompt x = some (s', changed))
    (hrevision : prompt.revision R x = claim.revisionDigest)
    (hbinding : x.bindingPrivateFingerprint = claim.bindingPrivateFingerprint)
    (htarget : x.observedTurnTargetValue = claim.turnTargetValue) : Standing s' w claim := by
  obtain ⟨payload, -, heq⟩ := Option.map_eq_some_iff.mp hread
  obtain ⟨rfl, -⟩ := Prod.mk.inj heq
  refine ⟨?_, h.started, _, pending_put_self,
    answers_iff.mpr ⟨hrevision, hbinding, htarget, .inl rfl⟩⟩
  rw [claims_put, claims_dropClaim_self, h.lookup]
  simp [Option.filter_some, openRow, hrevision, hbinding, htarget]

/-- A harmless call leaves a started claim standing. -/
lemma Standing.step {claim : PendingClaim} (h : Standing s w claim) (hstep : WorkerStep R s c w s' a)
    (hharmless : Harmless R w claim c) : Standing s' w claim := by
  obtain ⟨row, hrow, hanswers⟩ := h.answered
  cases hstep with
  | other hsame => exact h.of_same hsame
  | observed o x changed hc _ _ happlied =>
    subst hc
    cases o with
    | readFailed =>
      obtain rfl := congrArg Prod.fst (happlied : (s', changed) = s.readFailed w x)
      exact h.readFailed (hharmless rfl).1 (hharmless rfl).2
    | openPrompt prompt =>
      obtain ⟨hrevision, hbinding, htarget⟩ := hharmless rfl
      exact h.readPrompt happlied hrevision hbinding htarget
    | readSucceededNoPrompt | readSucceededInvalidPrompt | readSucceededUnsupportedDecision
    | workerAuthoritativelyAbsent => exact absurd rfl hharmless
  | pruned live now row' hc hrow' hlive =>
    subst hc
    obtain rfl := Option.some.inj (hrow.symm.trans hrow')
    rw [(answers_iff.mp hanswers).2.1] at hlive
    rcases hharmless with hcancelled | hmem
    · cases hcancelled
    · exact absurd hmem hlive
  | claimed _ _ _ _ _ _ hold =>
    have hclaimed := hold claim h.lookup
    rw [h.started] at hclaimed
    cases hclaimed
  | started _ claim' _ _ _ hlookup hstate =>
    obtain rfl := Option.some.inj (h.lookup.symm.trans hlookup)
    rw [h.started] at hstate
    cases hstate
  | dropped claim' hlookup hstate =>
    obtain rfl := Option.some.inj (h.lookup.symm.trans hlookup)
    rw [h.started] at hstate
    cases hstate
  | finished token now claim' hc hlookup hof =>
    obtain rfl := Option.some.inj (h.lookup.symm.trans hlookup)
    have htoken := (claimOf_spec hof).2
    rcases hc with rfl | rfl <;> exact absurd htoken.symm hharmless

lemma Standing.answerable {claim : PendingClaim} (h : Standing (pendingAt R calls n) w claim) :
    Answerable (pendingAt R calls n) claim.claimToken := by
  obtain ⟨row, hrow, hanswers⟩ := h.answered
  exact ⟨w, claim, row, claimOf_pendingAt h.lookup, h.started, hrow, hanswers⟩

/-- A send stands from its start on as long as the calls are harmless. -/
theorem standing_of_harmless {token : String} {fields : SendFields} {claim : PendingClaim}
    (htoken : (calls i).startToken = some token) (hstarted : pendingAnswerAt R calls i = .started fields)
    (hclaim : (pendingAt R calls (i + 1)).claims.lookup fields.workerId = some claim) (hin : i < n)
    (hharmless : ∀ k, i < k → k < n → Harmless R fields.workerId claim (calls k)) :
    Standing (pendingAt R calls n) fields.workerId claim ∧ claim.claimToken = token := by
  induction n, hin using Nat.le_induction with
  | base =>
    obtain ⟨claim₀, hof⟩ := claimOf_of_started htoken hstarted
    have hstep := pendingStepAt R calls i fields.workerId
    rw [hstarted] at hstep
    cases hstep with
    | other _ hgrants => exact absurd rfl (hgrants fields rfl)
    | observed _ _ _ _ ha => cases ha
    | pruned _ _ _ _ _ _ _ _ _ ha =>
      obtain ⟨k, hk⟩ := ha
      cases hk
    | claimed _ _ _ ha => cases ha
    | started fields' claim₁ row now ha hlookup _ hon hrow hnew =>
      obtain rfl := Option.some.inj (hnew.symm.trans hclaim)
      obtain rfl := Option.some.inj ((claimOf_spec hof).1.symm.trans hlookup)
      exact ⟨⟨hnew, rfl, row, hrow.trans hon.lookup, hon.answers⟩, (claimOf_spec hof).2⟩
    | dropped _ _ _ _ _ ha => cases ha
    | finished _ _ _ _ _ _ _ _ _ ha => cases ha
  | succ n hin ih =>
    obtain ⟨hstanding, htoken⟩ := ih fun k hik hkn => hharmless k hik (Nat.lt_succ_of_lt hkn)
    exact ⟨hstanding.step (pendingStepAt R calls n fields.workerId)
      (hharmless n hin (Nat.lt_succ_self n)), htoken⟩

/-- Whatever the calls between the start of a send and its finish, the receipt ends as accepted,
with the claim, if the claim still stands on its prompt, and the finish leaves both stores as they
are if it does not. Harmless calls keep it standing. -/
theorem answerFinish (lib : CommandLibrary) (R : PendingRules) {commands : CommandStore}
    {s : AnswerStore} {mark : MarkCall} {response : CommandResponse}
    (hmark : markCommandSendStarted lib commands mark = .ok (s.commands, response))
    (hsent : response.status = .sendStarted) (calls : ℕ → PendingCall) {i n : ℕ} (hin : i < n)
    (hpending : s.pending = pendingAt R calls n) {token : String}
    (htoken : (calls i).startToken = some token) {fields : SendFields}
    (hstarted : pendingAnswerAt R calls i = .started fields) (resultJson : String)
    (now observedAt : Int) :
    (Answerable s.pending token →
      (s.finish lib mark resultJson token now observedAt).1.receiptState mark.ref = some .accepted ∧
      (s.finish lib mark resultJson token now observedAt).1.pending =
        (s.pending.finishSend token true observedAt).1) ∧
    (¬Answerable s.pending token →
      s.finish lib mark resultJson token now observedAt = (s, none) ∧
      s.receiptState mark.ref = some .sendStarted) ∧
    ∀ claim, (pendingAt R calls (i + 1)).claims.lookup fields.workerId = some claim →
      (∀ k, i < k → k < n → Harmless R fields.workerId claim (calls k)) →
        Answerable s.pending token := by
  rcases mark_cases hmark with ⟨-, hstatus⟩ |
    ⟨m, row, -, hhost, hrequest, hfingerprint, -, howner, hhash, hw, -⟩
  · exact absurd hsent hstatus
  have hrow := (hw.row m).trans (if_pos rfl)
  have hfinish := @finishCommandRequest_owned _ _ _ _ mark resultJson now
    hrow hhost hrequest hfingerprint rfl rfl howner hhash
  refine ⟨fun hanswerable => ?_, fun hnot => ⟨?_, ?_⟩, fun claim hclaim hharmless => ?_⟩
  · have heffect : (s.pending.finishSend token true observedAt).2 = true :=
      finishSend_iff.mpr hanswerable
    obtain ⟨commands', heq, hnew⟩ := hfinish false
    unfold AnswerStore.finish
    simp only [heffect, Bool.not_true, heq]
    refine ⟨?_, rfl⟩
    exact receiptState_of_row (r := (row.sendStartedBy mark.bindingFingerprint mark.now).terminated
      .accepted "accepted" resultJson now) hnew hhost hrequest
  · have heffect : (s.pending.finishSend token true observedAt).2 = false := by
      rw [← Bool.not_eq_true, finishSend_iff]
      exact hnot
    have heq := hfinish true
    rw [if_pos rfl] at heq
    unfold AnswerStore.finish
    simp only [heffect, Bool.not_false, heq]
  · exact receiptState_of_row (r := row.sendStartedBy mark.bindingFingerprint mark.now) hrow hhost
      hrequest
  · obtain ⟨hstanding, rfl⟩ := standing_of_harmless htoken hstarted hclaim hin hharmless
    rw [hpending]
    exact hstanding.answerable

def sampleSendMark : MarkCall where
  ref := ⟨"host", "request", "fingerprint"⟩
  ownerToken := "token"
  bindingFingerprint := "binding"
  submission := none
  effectRaises := false
  now := 200

/-- The commands after the reservation of an answer. -/
def sampleReserved : CommandStore :=
  (commandMachine ⟨id, fun _ => true⟩).stateAt .empty reserveThenStart 1

/-- The commands after the start of its send. -/
def sampleStarted : CommandStore :=
  (commandMachine ⟨id, fun _ => true⟩).stateAt .empty reserveThenStart 2

lemma sampleSendMark_started : ∃ response,
    markCommandSendStarted ⟨id, fun _ => true⟩ sampleReserved sampleSendMark =
      .ok (sampleStarted, response) ∧ response.status = .sendStarted :=
  ⟨_, rfl, rfl⟩

/-- A read without a prompt between the input of an answer and its finish. -/
def sampleRace : ℕ → PendingCall :=
  sampleAnswer [.observe "worker" .readSucceededNoPrompt (sampleSource 3)]

/-- The receipt of a submitted answer stays a started send when the prompt is gone. -/
theorem submittedAnswer_notAccepted : ¬∀ (lib : CommandLibrary) (R : PendingRules)
    (commands : CommandStore) (s : AnswerStore) (mark : MarkCall) (response : CommandResponse),
    markCommandSendStarted lib commands mark = .ok (s.commands, response) →
    response.status = .sendStarted → ∀ (calls : ℕ → PendingCall) (i n : ℕ), i < n →
    (∀ k, i < k → k < n → ∃ w o x, calls k = .observe w o x) →
    s.pending = pendingAt R calls n → ∀ (token : String) (fields : SendFields),
    (calls i).startToken = some token → pendingAnswerAt R calls i = .started fields →
    ∀ (resultJson : String) (now observedAt : Int),
      (s.finish lib mark resultJson token now observedAt).1.receiptState mark.ref =
        some .accepted := by
  intro h
  obtain ⟨response, hmark, hsent⟩ := sampleSendMark_started
  have haccepted := h ⟨id, fun _ => true⟩ samplePendingRules sampleReserved
    ⟨sampleStarted, pendingAt samplePendingRules sampleRace 4⟩ sampleSendMark response hmark hsent
    sampleRace 2 4 (by decide) (fun k hk hk' => by
      obtain rfl : k = 3 := by omega
      exact ⟨_, _, _, rfl⟩) rfl "token" sampleSend rfl (by decide +kernel) "" 201 4
  have hstays : (AnswerStore.finish ⟨id, fun _ => true⟩
      ⟨sampleStarted, pendingAt samplePendingRules sampleRace 4⟩ sampleSendMark "" "token" 201
      4).1.receiptState sampleSendMark.ref = some .sendStarted := by
    decide +kernel
  rw [hstays] at haccepted
  cases haccepted

/-- Failed reads between the input of an answer and its finish, the last past the deadline. -/
def sampleFailedReads : ℕ → PendingCall :=
  sampleAnswer [.observe "worker" .readFailed (sampleSource 3),
    .observe "worker" .readFailed (sampleSource 40000000)]

def sampleClaim : PendingClaim where
  claimToken := "token"
  revisionDigest := "first/binding/pane"
  choiceId := .choice "choice-yes"
  pickerOrdinal := 1
  workerFingerprint := "fingerprint"
  bindingPrivateFingerprint := "binding"
  turnTargetValue := "pane"
  state := .sendStarted
  claimedAt := 1
  sendStartedAt := some 2

/-- An answer outlives the expiry of its prompt. -/
theorem answerFinish_ofSample :
    Answerable (pendingAt samplePendingRules sampleFailedReads 5) "token" := by
  obtain ⟨response, hmark, hsent⟩ := sampleSendMark_started
  have hstarted : pendingAnswerAt samplePendingRules sampleFailedReads 2 = .started sampleSend := by
    decide +kernel
  have hclaim : (pendingAt samplePendingRules sampleFailedReads 3).claims.lookup "worker" =
      some sampleClaim := by
    decide +kernel
  refine (answerFinish (s := ⟨sampleStarted, _⟩) ⟨id, fun _ => true⟩ samplePendingRules hmark hsent
    sampleFailedReads (by decide : 2 < 5) rfl rfl hstarted "" 201 4).2.2 sampleClaim hclaim ?_
  intro k hk hk'
  obtain rfl | rfl : k = 3 ∨ k = 4 := by omega
  · exact fun _ => ⟨.inr rfl, .inr rfl⟩
  · exact fun _ => ⟨.inr rfl, .inr rfl⟩

end Tendwire

import Tendwire.Commands.LedgerReceipts

/-!
# Runs of the submission ledger

Along any run of the command calls and the linker, each row of the ledger follows the declared
transition relation, and a receipt disagrees with its row only where the row was settled first.
-/

namespace Tendwire

open Relational Transition TurnSubmission

/-- The rows that a command call other than the queued verdict may write. -/
def CommandCall.ledgerTargets : CommandCall → TurnSubmission → Prop
  | .finish call, t => submissionAfter call.terminalState = some t.state ∧
      t.hostId = call.ref.hostId ∧ t.requestId = call.ref.requestId
  | .recoverUnresolved _ _ _ _, t => t.state = .uncertain
  | .cleanup _, t => t.state = .expired ∨ t.state = .uncertain
  | _, _ => False

/-- The calls that are the commands' own; the linker's writes have calls of their own. -/
def CommandCall.IsReceiptCall (call : CommandCall) : Prop :=
  ∀ submissions, call ≠ .rewriteSubmissions submissions

/-- A transaction either commits its body or changes nothing. -/
lemma transact_cases {α : Type} {s : CommandStore} {answer : α → CommandAnswer}
    {body : Except StoreError (CommandStore × α)} (I : CommandStore → Prop) (hs : I s)
    (h : ∀ s' a, body = .ok (s', a) → I s') : I (transact s answer body).1 := by
  unfold transact
  cases body with
  | error e => exact hs
  | ok p => exact h p.1 p.2 rfl

section Commands

variable {commandLib : CommandLibrary} {s : CommandStore} {call : CommandCall}

theorem commandStep_sound (hs : LedgerSound s) (hcall : call.IsReceiptCall) :
    LedgerSound (commandStep commandLib s call).1 := by
  cases call with
  | reserve call =>
    rw [commandStep]
    exact transact_cases LedgerSound hs fun s' _ h => (reserve_keeps h).sound hs
  | abandon ref token now =>
    rw [commandStep]
    exact transact_cases LedgerSound hs fun s' _ h => (abandon_keeps h).sound hs
  | replay call =>
    rw [commandStep]
    exact transact_cases LedgerSound hs fun s' _ h => (replay_keeps h).sound hs
  | markSendStarted call =>
    rw [commandStep]
    exact transact_cases LedgerSound hs fun s' _ h => (mark_sound h hs).1
  | recordSendQueued ref token result now =>
    rw [commandStep]
    exact transact_cases LedgerSound hs fun s' _ h => queued_sound h hs
  | finishQueued ref queued accepted now =>
    rw [commandStep]
    exact transact_cases LedgerSound hs fun s' _ h => (finishQueued_keeps h).sound hs
  | finishUnverifiedQueued ref queued uncertain now =>
    rw [commandStep]
    exact transact_cases LedgerSound hs fun s' _ h => (finishUnverified_keeps h).sound hs
  | recoverUnresolved ref unresolved uncertain now =>
    rw [commandStep]
    refine transact_cases LedgerSound hs fun s' _ h => ?_
    rcases recover_spec h with hkeep | ⟨s₁, hkeep, hterm⟩
    · exact hkeep.sound hs
    · have hs₁ := hkeep.sound hs
      exact (terminalizeTurnSubmission_moves hs₁.agrees hterm).sound
        (terminalizeTurnSubmission_receipts hterm) hs₁
  | finish call =>
    rw [commandStep]
    exact transact_cases LedgerSound hs fun s' _ h => finish_sound h hs
  | cleanup call =>
    rw [commandStep]
    exact transact_cases LedgerSound hs fun s' _ h => (cleanup_sound h hs).1
  | rewriteSubmissions submissions => exact absurd rfl (hcall submissions)

/-- A ledger row that a call neither inserts nor deletes advances, unless the call is the
queued verdict. -/
theorem commandStep_advances (hs : LedgerSound s) (hcall : call.IsReceiptCall)
    (hqueued : ∀ ref token result now, call ≠ .recordSendQueued ref token result now) {n : Nat}
    {t t' : TurnSubmission} (ht : s.submissions.get? n = some t)
    (ht' : (commandStep commandLib s call).1.submissions.get? n = some t') :
    t.Advances call.ledgerTargets t' := by
  let I : CommandStore → Prop := fun s' =>
    ∀ t', s'.submissions.get? n = some t' → t.Advances call.ledgerTargets t'
  have hmoves : ∀ {s' : CommandStore}, LedgerMoves call.ledgerTargets s s' → I s' :=
    fun h t' h' => h.row ht h'
  have hkeep : I s := hmoves (.refl s)
  refine (?_ : I (commandStep commandLib s call).1) t' ht'
  cases call with
  | reserve call =>
    rw [commandStep]
    exact transact_cases I hkeep fun s' _ h => hmoves (reserve_keeps h).moves
  | abandon ref token now =>
    rw [commandStep]
    exact transact_cases I hkeep fun s' _ h => hmoves (abandon_keeps h).moves
  | replay call =>
    rw [commandStep]
    exact transact_cases I hkeep fun s' _ h => hmoves (replay_keeps h).moves
  | markSendStarted call =>
    rw [commandStep]
    exact transact_cases I hkeep fun s' _ h t' h' => .keep ((mark_sound h hs).2 n t t' ht h')
  | recordSendQueued ref token result now => exact absurd rfl (hqueued ref token result now)
  | finishQueued ref queued accepted now =>
    rw [commandStep]
    exact transact_cases I hkeep fun s' _ h => hmoves (finishQueued_keeps h).moves
  | finishUnverifiedQueued ref queued uncertain now =>
    rw [commandStep]
    exact transact_cases I hkeep fun s' _ h => hmoves (finishUnverified_keeps h).moves
  | recoverUnresolved ref unresolved uncertain now =>
    rw [commandStep]
    refine transact_cases I hkeep fun s' _ h => ?_
    rcases recover_spec h with hkeep' | ⟨s₁, hkeep', hterm⟩
    · exact hmoves hkeep'.moves
    · have hadv := terminalizeTurnSubmission_moves (hkeep'.sound hs).agrees hterm
      refine hmoves (hkeep'.moves.trans (hadv.mono fun t ht => ?_))
      simpa [CommandCall.ledgerTargets, submissionAfter, eq_comm] using ht.1
  | finish call =>
    rw [commandStep]
    refine transact_cases I hkeep fun s' _ h => ?_
    rcases finish_spec h with rfl | ⟨m, r, s₁, -, -, -, -, -, hsub, hterm⟩
    · exact hkeep
    · have hagree : LinksAgree s₁ := fun m t ht => hs.agrees m t (hsub ▸ ht)
      have hadv := terminalizeTurnSubmission_moves hagree hterm
      exact hmoves ((LedgerMoves.of_submissions_eq hsub).trans hadv)
  | cleanup call =>
    rw [commandStep]
    exact transact_cases I hkeep fun s' _ h => hmoves (cleanup_sound h hs).2
  | rewriteSubmissions submissions => exact absurd rfl (hcall submissions)

/-- The queued verdict takes a started or linked row to `send_started`, under a receipt that is
and stays started by the caller. -/
structure Requeues (commandLib : CommandLibrary) (token : String) (s s' : CommandStore)
    (t t' : TurnSubmission) : Prop where
  source : t.state = .sendStarted ∨ t.state = .linked
  target : t'.state = .sendStarted ∧ t'.linkedTurnId = none
  receipt : ∃ m r r', s.receipts.get? m = some r ∧ s'.receipts.get? m = some r' ∧
    r.hostId = t.hostId ∧ r.requestId = t.requestId ∧ r.state = .sendStarted ∧
    r'.state = .sendStarted ∧ ownerTokenHash commandLib token ≠ "" ∧
    r.ownerTokenHash = ownerTokenHash commandLib token ∧ r'.ownerTokenHash = r.ownerTokenHash

theorem commandStep_requeues {ref : ReceiptRef} {token result : String} {now : Int} {n : Nat}
    {t t' : TurnSubmission} (ht : s.submissions.get? n = some t)
    (ht' : (commandStep commandLib s (.recordSendQueued ref token result now)).1.submissions.get? n
      = some t') :
    t' = t ∨ Requeues commandLib token s
      (commandStep commandLib s (.recordSendQueued ref token result now)).1 t t' := by
  simp only [commandStep, transact] at ht' ⊢
  cases hbody : recordCommandSendQueued commandLib s ref token result now with
  | error e =>
    rw [hbody] at ht'
    exact Or.inl (Option.some.inj (ht'.symm.trans ht))
  | ok p =>
    rw [hbody] at ht'
    rcases queued_spec hbody with heq | ⟨m, r, s₁, r₁, hr, hhost, hrequest, hstate, hne, howner, -,
      hreceipts, hr₁, hstate₁, howner₁, -, -, hrows⟩
    · rw [show p.1 = s from heq] at ht'
      exact Or.inl (Option.some.inj (ht'.symm.trans ht))
    · obtain ⟨t₀, ht₀, hrow⟩ := hrows n t' ht'
      rw [ht] at ht₀
      cases ht₀
      rcases hrow with rfl | ⟨rfl, hth, htr, hsource⟩
      · exact Or.inl rfl
      · refine Or.inr ⟨hsource, ⟨rfl, rfl⟩, m, r, r₁, hr, hreceipts ▸ hr₁, hhost.trans hth.symm,
          hrequest.trans htr.symm, hstate, hstate₁, hne, howner, howner₁⟩

end Commands

/-! ### The linker's calls -/

/-- The rows that a call of the linker may write. -/
def LinkCall.ledgerTargets : LinkCall → TurnSubmission → Prop
  | .command call, t => call.ledgerTargets t
  | .observe _ _ _ _, t | .settleRequest _ _ _, t | .sweep _ _, t => LinkSettled t
  | .sweepExpired _ _, t => t.state = .expired
  | .cancel hostId requestId _, t =>
    t.state = .cancelled ∧ t.hostId = hostId ∧ t.requestId = requestId

section Step

variable {commandLib : CommandLibrary} {lib : LinkLibrary} {cached : Bool} {s : LinkState}

lemma commit_cases {body : Except StoreError CommandStore} (I : CommandStore → Prop)
    (hs : I s.commands) (h : ∀ s', body = .ok s' → I s') : I (s.commit body).commands := by
  cases body with
  | error e => exact hs
  | ok s' => exact h s' rfl

/-- A call is a command call, or it moves ledger rows and writes no receipt. -/
theorem linkStep_cases (commandLib : CommandLibrary) (lib : LinkLibrary) (cached : Bool)
    (s : LinkState) (call : LinkCall) :
    (∃ c, call = .command c ∧ c.IsReceiptCall ∧
      (linkStep commandLib lib cached s call).commands =
        (commandStep commandLib s.commands c).1) ∨
    (LedgerMoves call.ledgerTargets s.commands
        (linkStep commandLib lib cached s call).commands ∧
      (linkStep commandLib lib cached s call).commands.receipts = s.commands.receipts) := by
  let I : CommandStore → Prop := fun s' =>
    LedgerMoves call.ledgerTargets s.commands s' ∧ s'.receipts = s.commands.receipts
  have hrefl : I s.commands := ⟨.refl _, rfl⟩
  cases call with
  | command c =>
    cases c with
    | rewriteSubmissions submissions => exact Or.inr hrefl
    | _ => exact Or.inl ⟨_, rfl, fun _ => by simp, rfl⟩
  | observe turns rearmed settled now =>
    refine Or.inr (?_ : I _)
    cases settled with
    | none => exact hrefl
    | some key =>
      refine commit_cases I hrefl fun s' h => ?_
      cases hsettle : settleSubmissionLinks lib turns key s.commands now with
      | error e => simp [hsettle, Except.map] at h
      | ok p =>
        rw [hsettle] at h
        cases h
        have hmove := settleSubmissionLinks_moves hsettle
        exact ⟨hmove.moves, hmove.receipts⟩
  | settleRequest hostId requestId now =>
    refine Or.inr (?_ : I _)
    refine commit_cases I hrefl fun s' h => ?_
    unfold settleSubmissionLinkForRequest at h
    split at h
    · cases h
      exact hrefl
    · split at h
      · cases h
      · rename_i hsettle
        cases h
        have hmove := settleSubmissionLinks_moves hsettle
        exact ⟨hmove.moves, hmove.receipts⟩
  | sweep hostId now =>
    refine Or.inr (?_ : I _)
    unfold linkStep
    dsimp only
    split
    · rename_i h
      have hmove := sweepSubmissionLinks_moves h
      exact ⟨hmove.moves, hmove.receipts⟩
    · exact hrefl
  | sweepExpired hostId now =>
    refine Or.inr (?_ : I _)
    exact commit_cases I hrefl fun s' h =>
      ⟨expireTurnSubmissions_moves h, expireTurnSubmissions_receipts h⟩
  | cancel hostId requestId now =>
    refine Or.inr (?_ : I _)
    refine commit_cases I hrefl fun s' h => ?_
    cases hcancel : cancelTurnSubmission s.commands hostId requestId now with
    | error e => simp [hcancel, Except.map] at h
    | ok p =>
      rw [hcancel] at h
      cases h
      refine ⟨cancelTurnSubmission_moves hcancel, ?_⟩
      unfold cancelTurnSubmission at hcancel
      split at hcancel
      · cases hcancel
      · rename_i hupd
        cases hcancel
        exact (updateSubmissions_spec hupd).2.1

lemma linkStep_sound (hs : LedgerSound s.commands) (call : LinkCall) :
    LedgerSound (linkStep commandLib lib cached s call).commands := by
  rcases linkStep_cases commandLib lib cached s call
    with ⟨c, rfl, hc, heq⟩ | ⟨hmoves, hreceipts⟩
  · rw [heq]
    exact commandStep_sound hs hc
  · exact hmoves.sound hreceipts hs

lemma linkRun_sound (calls : List LinkCall) :
    LedgerSound (linkRun commandLib lib cached calls).commands := by
  induction calls with
  | nil => exact ledgerSound_empty
  | cons call calls ih => exact linkStep_sound ih call

end Step

/-! ### The transition law -/

/-- What a call may do to the rows of the ledger, and how far a receipt may disagree with its
row afterwards. -/
structure TransitionLaw (commandLib : CommandLibrary) (s : CommandStore) (call : LinkCall)
    (s' : CommandStore) : Prop where
  declared : ∀ n t t', s.submissions.get? n = some t → s'.submissions.get? n = some t' →
    t'.state = t.state ∨ t'.state ∈ t.state.next ∨
      ∃ ref token result now, call = .command (.recordSendQueued ref token result now) ∧
        Requeues commandLib token s s' t t'
  settled : ∀ n t t', s.submissions.get? n = some t → s'.submissions.get? n = some t' →
    t.state = .ambiguous ∨ t.state = .expired ∨ t.state = .cancelled → t' = t
  linked : ∀ n t', s'.submissions.get? n = some t' → (t'.linkedTurnId.isSome ↔ t'.state = .linked)
  /-- A rejected receipt stands over a linked row only where the row was linked before. -/
  rejected : ∀ m r' n t', s'.receipts.get? m = some r' → r'.state = .rejected →
    s'.submissions.get? n = some t' → r'.hostId = t'.hostId → r'.requestId = t'.requestId →
    t'.state = .linked → s.submissions.get? n = some t'
  /-- An accepted receipt stands over a cancelled row only where the row was cancelled before or
  is cancelled now. -/
  accepted : ∀ m r' n t', s'.receipts.get? m = some r' → r'.state = .accepted →
    s'.submissions.get? n = some t' → r'.hostId = t'.hostId → r'.requestId = t'.requestId →
    t'.state = .cancelled →
    s.submissions.get? n = some t' ∨ ∃ now, call = .cancel t'.hostId t'.requestId now

section Law

variable {commandLib : CommandLibrary} {lib : LinkLibrary} {cached : Bool} {s : LinkState}

/-- A call inserts started rows only. -/
lemma commandStep_inserts {s : CommandStore} {call : CommandCall} (hs : LedgerSound s)
    (hcall : call.IsReceiptCall) {n : Nat} {t' : TurnSubmission}
    (ht' : (commandStep commandLib s call).1.submissions.get? n = some t')
    (hstate : t'.state ≠ .sendStarted) : ∃ t, s.submissions.get? n = some t := by
  let I : CommandStore → Prop := fun s' =>
    s'.submissions.get? n = some t' → ∃ t, s.submissions.get? n = some t
  have hmoves : ∀ {P} {s' : CommandStore}, LedgerMoves P s s' → I s' :=
    fun h h' => (h n t' h').imp fun t ht => ht.1
  have hkeeps : ∀ {s' : CommandStore}, Keeps s s' → I s' :=
    fun h => hmoves (P := fun _ => False) h.moves
  have hrefl : I s := hkeeps (.refl s)
  refine (?_ : I (commandStep commandLib s call).1) ht'
  cases call with
  | reserve call =>
    rw [commandStep]
    exact transact_cases I hrefl fun s' _ h => hkeeps (reserve_keeps h)
  | abandon ref token now =>
    rw [commandStep]
    exact transact_cases I hrefl fun s' _ h => hkeeps (abandon_keeps h)
  | replay call =>
    rw [commandStep]
    exact transact_cases I hrefl fun s' _ h => hkeeps (replay_keeps h)
  | markSendStarted call =>
    rw [commandStep]
    refine transact_cases I hrefl fun s' _ h h' => ?_
    rcases mark_spec h with rfl | ⟨s₁, m, r, hkeep, -, -, -, -, -, hsub⟩
    · exact ⟨t', h'⟩
    rcases hsub with hsub | ⟨t₀, hins, -, -, hstate₀, -⟩
    · exact hkeeps hkeep (hsub ▸ h')
    · rw [Constrained.get?_insert hins] at h'
      split at h'
      · cases h'
        exact absurd hstate₀ hstate
      · exact hkeeps hkeep h'
  | recordSendQueued ref token result now =>
    rw [commandStep]
    refine transact_cases I hrefl fun s' _ h h' => ?_
    rcases queued_spec h with rfl | ⟨_, _, _, _, -, -, -, -, -, -, -, -, -, -, -, -, -, hrows⟩
    · exact ⟨t', h'⟩
    · exact (hrows n t' h').imp fun t ht => ht.1
  | finishQueued ref queued accepted now =>
    rw [commandStep]
    exact transact_cases I hrefl fun s' _ h => hkeeps (finishQueued_keeps h)
  | finishUnverifiedQueued ref queued uncertain now =>
    rw [commandStep]
    exact transact_cases I hrefl fun s' _ h => hkeeps (finishUnverified_keeps h)
  | recoverUnresolved ref unresolved uncertain now =>
    rw [commandStep]
    refine transact_cases I hrefl fun s' _ h => ?_
    rcases recover_spec h with hkeep | ⟨s₁, hkeep, hterm⟩
    · exact hkeeps hkeep
    · have hadv := terminalizeTurnSubmission_moves (hkeep.sound hs).agrees hterm
      exact hmoves (hkeep.moves.trans hadv)
  | finish call =>
    rw [commandStep]
    refine transact_cases I hrefl fun s' _ h => ?_
    rcases finish_spec h with rfl | ⟨m, r, s₁, -, -, -, -, -, hsub, hterm⟩
    · exact hrefl
    · have hagree : LinksAgree s₁ := fun m t ht => hs.agrees m t (hsub ▸ ht)
      have hadv := terminalizeTurnSubmission_moves hagree hterm
      exact hmoves ((LedgerMoves.of_submissions_eq hsub).trans hadv)
  | cleanup call =>
    rw [commandStep]
    exact transact_cases I hrefl fun s' _ h => hmoves (cleanup_sound h hs).2
  | rewriteSubmissions submissions => exact absurd rfl (hcall submissions)

/-- What a call does to one row. -/
lemma linkStep_row (hs : LedgerSound s.commands) (call : LinkCall) {n : Nat}
    {t t' : TurnSubmission} (ht : s.commands.submissions.get? n = some t)
    (ht' : (linkStep commandLib lib cached s call).commands.submissions.get? n = some t') :
    t.Advances call.ledgerTargets t' ∨
      ∃ ref token result now, call = .command (.recordSendQueued ref token result now) ∧
        Requeues commandLib token s.commands (linkStep commandLib lib cached s call).commands
          t t' := by
  rcases linkStep_cases commandLib lib cached s call
    with ⟨c, rfl, hc, heq⟩ | ⟨hmoves, -⟩
  · rw [heq] at ht' ⊢
    by_cases hq : ∃ ref token result now, c = .recordSendQueued ref token result now
    · obtain ⟨ref, token, result, now, rfl⟩ := hq
      rcases commandStep_requeues ht ht' with rfl | hreq
      · exact Or.inl (.keep rfl)
      · exact Or.inr ⟨ref, token, result, now, rfl, hreq⟩
    · exact Or.inl (commandStep_advances hs hc
        (fun ref token result now he => hq ⟨ref, token, result, now, he⟩) ht ht')
  · exact Or.inl (hmoves.row ht ht')

/-- A row that no longer is started was in the ledger before the call. -/
lemma linkStep_source (hs : LedgerSound s.commands) (call : LinkCall) {n : Nat}
    {t' : TurnSubmission}
    (ht' : (linkStep commandLib lib cached s call).commands.submissions.get? n = some t')
    (hstate : t'.state ≠ .sendStarted) :
    ∃ t, s.commands.submissions.get? n = some t ∧ t.Advances call.ledgerTargets t' := by
  have hsource : ∃ t, s.commands.submissions.get? n = some t := by
    rcases linkStep_cases commandLib lib cached s call
      with ⟨c, rfl, hc, heq⟩ | ⟨hmoves, -⟩
    · rw [heq] at ht'
      exact commandStep_inserts hs hc ht' hstate
    · exact (hmoves n t' ht').imp fun t ht => ht.1
  obtain ⟨t, ht⟩ := hsource
  refine ⟨t, ht, (linkStep_row hs call ht ht').resolve_right ?_⟩
  rintro ⟨ref, token, result, now, -, hreq⟩
  exact hstate hreq.target.1

/-- No command call links a row. -/
lemma not_ledgerTargets_linked {call : CommandCall} {t : TurnSubmission}
    (h : call.ledgerTargets t) : t.state ≠ .linked := by
  intro hlinked
  cases call with
  | finish call =>
    have hafter := h.1
    rw [hlinked] at hafter
    cases hs : call.terminalState <;> simp [hs, submissionAfter] at hafter
  | _ => simp_all [CommandCall.ledgerTargets]

theorem linkStep_law (hs : LedgerSound s.commands) (call : LinkCall) :
    TransitionLaw commandLib s.commands call (linkStep commandLib lib cached s call).commands := by
  constructor
  case declared =>
    intro n t t' ht ht'
    rcases linkStep_row hs call ht ht' with hadv | ⟨ref, token, result, now, hcall, hreq⟩
    · cases hadv with
      | keep same => exact Or.inl (congrArg TurnSubmission.state same)
      | move _ _ _ declared _ => exact Or.inr (Or.inl declared)
    · exact Or.inr (Or.inr ⟨ref, token, result, now, hcall, hreq⟩)
  case settled =>
    intro n t t' ht ht' hsettled
    rcases linkStep_row hs call ht ht' with hadv | ⟨ref, token, result, now, hcall, hreq⟩
    · cases hadv with
      | keep same => exact same
      | move _ isOpen _ _ _ =>
        have hnext := (isOpen_iff.mp isOpen).2
        rcases hsettled with h | h | h <;> simp [h, SubmissionState.next] at hnext
    · rcases hreq.source with h | h <;> simp [h] at hsettled
  case linked => exact fun n t' ht' => (linkStep_sound hs call).agrees n t' ht'
  case rejected =>
    intro m r' n t' hr' hrejected ht' hhost hrequest hlinked
    obtain ⟨t, ht, hadv⟩ := linkStep_source hs call ht' (by simp [hlinked])
    cases hadv with
    | keep same => exact same ▸ ht
    | move request isOpen target _ _ =>
      exfalso
      rcases linkStep_cases commandLib lib cached s call with ⟨c, rfl, -, -⟩ | ⟨-, hreceipts⟩
      · exact not_ledgerTargets_linked target hlinked
      · obtain ⟨k, r, hr, hh, hq, -, hclosed⟩ := hs.owned n t ht
        have hsame := (receipt_unique hr (hreceipts ▸ hr')
          (hhost.trans (request.hostId.trans hh.symm))
          (hrequest.trans (request.requestId.trans hq.symm))).2
        simp [hclosed (hsame ▸ hrejected)] at isOpen
  case accepted =>
    intro m r' n t' hr' haccepted ht' hhost hrequest hcancelled
    obtain ⟨t, ht, hadv⟩ := linkStep_source hs call ht' (by simp [hcancelled])
    cases hadv with
    | keep same => exact Or.inl (same ▸ ht)
    | move request isOpen target _ _ =>
      cases call with
      | cancel hostId requestId now =>
        obtain ⟨-, rfl, rfl⟩ := target
        exact Or.inr ⟨now, rfl⟩
      | command c =>
        exfalso
        cases c with
        | finish call =>
          obtain ⟨hafter, hth, htr⟩ := target
          rw [hcancelled] at hafter
          have hterminal : call.terminalState = .rejected := by
            cases hs : call.terminalState <;> simp [hs, submissionAfter] at hafter ⊢
          revert hr'
          simp only [linkStep, commandStep, transact]
          cases hbody : finishCommandRequest commandLib s.commands call with
          | error e =>
            intro hr'
            simp only [linkStep, commandStep, transact, hbody] at ht'
            rw [ht] at ht'
            cases ht'
            simp [isOpen_iff, hcancelled, SubmissionState.next] at isOpen
          | ok p =>
            intro hr'
            simp only [linkStep, commandStep, transact, hbody] at ht'
            rcases finish_spec hbody with heq | ⟨k, r, s₁, hr, hh, hq, -, hw, -, hterm⟩
            · rw [show p.1 = s.commands from heq, ht] at ht'
              cases ht'
              simp [isOpen_iff, hcancelled, SubmissionState.next] at isOpen
            · have hwritten := hw.row k
              rw [if_pos rfl, ← terminalizeTurnSubmission_receipts hterm] at hwritten
              have hsame := (receipt_unique hwritten hr' ((hhost.trans hth).trans hh.symm)
                ((hrequest.trans htr).trans hq.symm)).2
              rw [← hsame] at haccepted
              simp [CommandReceipt.terminated, hterminal] at haccepted
        | _ => simp_all [LinkCall.ledgerTargets, CommandCall.ledgerTargets]
      | _ => simp_all [LinkCall.ledgerTargets, LinkSettled]

/-- The submission ledger follows its declared transition relation along every run. -/
theorem linkRun_transitions (commandLib : CommandLibrary) (lib : LinkLibrary) (cached : Bool)
    (calls : List LinkCall) (call : LinkCall) :
    TransitionLaw commandLib (linkRun commandLib lib cached calls).commands call
      (linkRun commandLib lib cached (call :: calls)).commands :=
  linkStep_law (linkRun_sound calls) call

end Law

/-! ### A receipt that disagrees with its row -/

/-- No accepted receipt over a cancelled row and no rejected receipt over a linked one. -/
def ReceiptsMatchLedger (s : CommandStore) : Prop :=
  ∀ e ∈ s.receipts.table.rows, ∀ e' ∈ s.submissions.table.rows, e.2.hostId = e'.2.hostId →
    e.2.requestId = e'.2.requestId → ¬(e.2.state = .accepted ∧ e'.2.state = .cancelled) ∧
      ¬(e.2.state = .rejected ∧ e'.2.state = .linked)

instance (s : CommandStore) : Decidable (ReceiptsMatchLedger s) :=
  inferInstanceAs (Decidable (∀ e ∈ s.receipts.table.rows, ∀ e' ∈ s.submissions.table.rows,
    e.2.hostId = e'.2.hostId → e.2.requestId = e'.2.requestId → _))

def sampleStableKey : String :=
  "wsk1_0123456789abcdef0123456789abcdef0123456789abcdef0123456789abcdef"

def sampleReserve (requestId : String) (now : Int) : CommandCall :=
  .reserve
    { request :=
        { hostId := "host", requestId := requestId, action := "send_instruction",
          canonicalVersion := 1, canonicalFingerprint := requestId,
          canonicalRequestJson := "\x7b\x7d", publicWorkerId := "worker", selectorProof := "",
          legacyRawPayloadFingerprint := none }
      pendingResultJson := "\x7b\x7d", ownerLeaseMicroseconds := 30000000,
      ownerToken := "token", now := now }

def sampleMark (requestId : String) (now : Int) : CommandCall :=
  .markSendStarted
    { ref := ⟨"host", requestId, requestId⟩, ownerToken := "token",
      bindingFingerprint := "binding"
      submission := some
        { submissionId := requestId, ownerIdentity := some (sampleStableKey, 1),
          instructionFingerprint := "continue", linkWindowSeconds := 60, hardTtlSeconds := 86400 }
      effectRaises := false, now := now }

def sampleObserved (turnId : String) (now : Int) : ObservedTurn where
  hostId := "host"
  turnId := turnId
  workerId := "worker"
  payloadId := some turnId
  stableKey := some sampleStableKey
  stableKeyVersion := .integer 1
  sourceTurnId := "source"
  supersededAt := ""
  currentUserText := some (some "continue")
  firstObservedAt := some (micros now)

def sampleObservedTurns (turns : List ObservedTurn) : Constrained observedTurnSchema :=
  turns.foldl (fun table t => (table.insert t).getD table) Constrained.empty

def sampleLinkKey : LinkKey := ⟨"host", sampleStableKey, "continue"⟩

/-- A send, an observation that links it provisionally, then the sender's rejection. The latest
call comes first. -/
def lateRejection : List LinkCall :=
  [.command (.finish
    { ref := ⟨"host", "request", "request"⟩, ownerToken := "token",
      expectedState := .sendStarted, terminalState := .rejected, status := "backend_unavailable",
      resultJson := "\x7b\x7d", effectRaises := false, now := 103 }),
   .observe (sampleObservedTurns [sampleObserved "turn" 102]) (some sampleLinkKey)
    (some sampleLinkKey) (micros 102),
   .command (sampleMark "request" 100),
   .command (sampleReserve "request" 99)]

/-- The late rejection finds the row linked and leaves it. -/
theorem not_receiptsMatchLedger_of_lateRejection :
    ¬ReceiptsMatchLedger (linkRun ⟨id, fun _ => true⟩ ⟨id⟩ true lateRejection).commands := by
  decide +kernel

end Tendwire

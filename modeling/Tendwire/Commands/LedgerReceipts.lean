import Tendwire.Commands.LedgerTransitions

/-!
# The receipts behind the ledger

A ledger row is started under its receipt and goes with it; a rejection settles it. Each call
is described once by what it does to the receipts and to the rows.
-/

namespace Tendwire

open Relational Transition TurnSubmission

/-- Each ledger row has the receipt it was started under, and a rejection settled it. -/
structure LedgerSound (s : CommandStore) : Prop where
  agrees : LinksAgree s
  owned : ∀ n t, s.submissions.get? n = some t → ∃ m r, s.receipts.get? m = some r ∧
    r.hostId = t.hostId ∧ r.requestId = t.requestId ∧ r.state ≠ .reserved ∧
    (r.state = .rejected → t.isOpen = false)

lemma ledgerSound_empty : LedgerSound CommandStore.empty :=
  ⟨fun n t h => by simp [CommandStore.empty] at h, fun n t h => by simp [CommandStore.empty] at h⟩

/-- The receipt of a request is one row. -/
lemma receipt_unique {s : CommandStore} {n m : Nat} {r r' : CommandReceipt}
    (h : s.receipts.get? n = some r) (h' : s.receipts.get? m = some r')
    (hhost : r'.hostId = r.hostId) (hrequest : r'.requestId = r.requestId) : n = m ∧ r = r' := by
  have hnm : n = m := s.receipts.eq_of_key (List.mem_singleton_self _) h h' rfl
    (by simp [hhost, hrequest])
  subst hnm
  rw [h] at h'
  exact ⟨rfl, Option.some.inj h'⟩

/-- A started receipt stays started or becomes terminal, and none becomes rejected. -/
structure Keeps (s s' : CommandStore) : Prop where
  submissions : s'.submissions = s.submissions
  receipts : ∀ m r, s.receipts.get? m = some r → r.state ≠ .reserved →
    ∃ r', s'.receipts.get? m = some r' ∧ r'.hostId = r.hostId ∧ r'.requestId = r.requestId ∧
      r'.state ≠ .reserved ∧ (r'.state = .rejected → r.state = .rejected)

section Calls

variable {lib : CommandLibrary} {s s' : CommandStore}

lemma Keeps.refl (s : CommandStore) : Keeps s s :=
  ⟨rfl, fun _ r hr hstate => ⟨r, hr, rfl, rfl, hstate, id⟩⟩

/-- One receipt is written, and a started one is not reopened or rejected. -/
lemma Keeps.of_writes {n : Nat} {r' : CommandReceipt} (hw : Writes s s' n r')
    (hsub : s'.submissions = s.submissions)
    (h : ∀ r, s.receipts.get? n = some r → r.state ≠ .reserved → r'.hostId = r.hostId ∧
      r'.requestId = r.requestId ∧ r'.state ≠ .reserved ∧
      (r'.state = .rejected → r.state = .rejected)) : Keeps s s' := by
  refine ⟨hsub, fun m r hr hstate => ?_⟩
  by_cases hm : m = n
  · subst hm
    exact ⟨r', by rw [hw.row, if_pos rfl], h r hr hstate⟩
  · exact ⟨r, by rw [hw.row, if_neg hm, hr], rfl, rfl, hstate, id⟩

lemma Keeps.sound (h : Keeps s s') (hs : LedgerSound s) : LedgerSound s' := by
  constructor
  · intro n t ht
    exact hs.agrees n t (h.submissions ▸ ht)
  · intro n t ht
    obtain ⟨m, r, hr, hhost, hrequest, hstate, hrejected⟩ := hs.owned n t (h.submissions ▸ ht)
    obtain ⟨r', hr', hhost', hrequest', hstate', hrejected'⟩ := h.receipts m r hr hstate
    exact ⟨m, r', hr', hhost'.trans hhost, hrequest'.trans hrequest, hstate',
      fun he => hrejected (hrejected' he)⟩

lemma Keeps.moves {P : TurnSubmission → Prop} (h : Keeps s s') : LedgerMoves P s s' :=
  .of_submissions_eq h.submissions

/-- Rows that advance keep their receipts. -/
lemma LedgerMoves.sound {P : TurnSubmission → Prop} (h : LedgerMoves P s s')
    (hr : s'.receipts = s.receipts) (hs : LedgerSound s) : LedgerSound s' := by
  refine ⟨h.linksAgree hs.agrees, fun n t' ht' => ?_⟩
  obtain ⟨t, ht, hadv⟩ := h n t' ht'
  obtain ⟨m, r, hget, hhost, hrequest, hstate, hrejected⟩ := hs.owned n t ht
  refine ⟨m, r, hr ▸ hget, hhost.trans hadv.sameRequest.hostId.symm,
    hrequest.trans hadv.sameRequest.requestId.symm, hstate, fun he => ?_⟩
  cases hadv with
  | keep same => exact same ▸ hrejected he
  | move _ isOpen => simp [hrejected he] at isOpen

lemma updateReceipts_submissions {p : Nat → CommandReceipt → Bool}
    {f : CommandReceipt → CommandReceipt} {count : Nat}
    (h : s.updateReceipts p f = .ok (s', count)) : s'.submissions = s.submissions := by
  unfold CommandStore.updateReceipts at h
  split at h
  · cases h
    rfl
  · cases h

lemma insertReceipt_submissions {r : CommandReceipt} (h : s.insertReceipt r = .ok s') :
    s'.submissions = s.submissions := by
  unfold CommandStore.insertReceipt at h
  split at h
  · cases h
    rfl
  · cases h

/-- A new receipt replaces no started one. -/
lemma keeps_of_insert {r : CommandReceipt} (h : s.insertReceipt r = .ok s') : Keeps s s' := by
  refine .of_writes (insertReceipt_spec h) (insertReceipt_submissions h) fun r' hr' => ?_
  exact absurd (Table.get?_lt_next hr') (Nat.lt_irrefl _)

/-- An update of reserved rows touches no started one. -/
lemma keeps_of_update {p : Nat → CommandReceipt → Bool} {f : CommandReceipt → CommandReceipt}
    {count : Nat} (h : s.updateReceipts p f = .ok (s', count))
    (hp : ∀ n r, p n r = true → r.state = .reserved) : Keeps s s' := by
  refine ⟨updateReceipts_submissions h, fun m r hr hstate => ⟨r, ?_, rfl, rfl, hstate, id⟩⟩
  rw [Constrained.get?, (updateReceipts_spec h).1, Table.get?_updateWhere]
  rw [Constrained.get?] at hr
  have hnot : p m r ≠ true := fun he => hstate (hp m r he)
  simp [hr, hnot]

theorem reserve_keeps {call : ReserveCall} {resp : CommandResponse}
    (h : reserveCommandRequest lib s call = .ok (s', resp)) : Keeps s s' := by
  unfold reserveCommandRequest at h
  split at h
  · cases h
  split at h
  · cases h
  dsimp only at h
  split at h
  · split at h
    · cases h
      exact .refl _
    split at h
    · cases h
      exact .refl _
    split at h
    · cases h
      exact .refl _
    split at h
    · cases h
      exact .refl _
    split at h
    · cases h
      exact .refl _
    split at h
    · cases h
    rename_i s₁ count hupd
    have hkeep := keeps_of_update hupd (by simp_all)
    split at h
    · cases h
      exact hkeep
    · obtain ⟨rfl, -⟩ := answerWithRow_spec h
      exact hkeep
  · split at h
    · cases h
    rename_i s₁ hins
    obtain ⟨rfl, -⟩ := answerWithRow_spec h
    exact keeps_of_insert hins

theorem abandon_keeps {ref : ReceiptRef} {token : String} {now : Int} {released : Bool}
    (h : abandonCommandRequestReservation lib s ref token now = .ok (s', released)) :
    Keeps s s' := by
  unfold abandonCommandRequestReservation at h
  dsimp only at h
  split at h
  · cases h
    exact .refl _
  split at h
  · cases h
  rename_i s₁ count hupd
  cases h
  exact keeps_of_update hupd (by simp_all)

theorem replay_keeps {call : ReplayCall} {resp : CommandResponse}
    (h : reserveTerminalCommandReplay lib s call = .ok (s', resp)) : Keeps s s' := by
  unfold reserveTerminalCommandReplay at h
  split at h
  · cases h
  split at h
  · cases h
  split at h
  · cases h
  split at h
  · cases h
  split at h
  · split at h
    · cases h
      exact .refl _
    split at h
    · cases h
      exact .refl _
    split at h
    · cases h
      exact .refl _
    · cases h
      exact .refl _
  · split at h
    · cases h
    rename_i s₁ hins
    obtain ⟨rfl, -⟩ := answerWithRow_spec h
    exact keeps_of_insert hins

/-- A send that ends accepted or uncertain keeps the ledger. -/
lemma keeps_of_terminateSend {ref : ReceiptRef} {n : Nat} {r : CommandReceipt}
    {pending status result : String} {state : ReceiptState} {now : Int} {count : Nat}
    (h : terminateSend s ref n pending state status result now = .ok (s', count))
    (hr : s.receipts.get? n = some r) (hfp : r.canonicalFingerprint = ref.canonicalFingerprint)
    (hguard : ¬(r.state ≠ .sendStarted ∨ r.status ≠ "pending" ∨ r.resultJson ≠ pending))
    (hstate : state ≠ .reserved ∧ state ≠ .rejected) : Keeps s s' := by
  have hw := (terminateSend_writes h hr hfp hguard).2
  refine .of_writes hw (updateReceipts_submissions h) fun r₀ hr₀ _ => ?_
  rw [hr] at hr₀
  cases hr₀
  exact ⟨rfl, rfl, hstate.1, fun he => absurd he hstate.2⟩

theorem finishQueued_keeps {ref : ReceiptRef} {queued accepted : String} {now : Int}
    {resp : CommandResponse}
    (h : finishQueuedCommandRequest s ref queued accepted now = .ok (s', resp)) : Keeps s s' := by
  unfold finishQueuedCommandRequest at h
  rcases withActiveReceipt_cases h with ⟨rfl, -⟩ | ⟨n, row, hr, -, -, hfp, hbody⟩
  · exact .refl _
  split at hbody
  · cases hbody
    exact .refl _
  rename_i hguard
  split at hbody
  · cases hbody
    exact .refl _
  split at hbody
  · cases hbody
  rename_i s₁ count hupd
  have hkeep := keeps_of_terminateSend hupd hr hfp hguard (by simp)
  split at hbody
  · cases hbody
    exact hkeep
  · obtain ⟨rfl, -⟩ := answerWithRow_spec hbody
    exact hkeep

theorem finishUnverified_keeps {ref : ReceiptRef} {queued uncertain : String} {now : Int}
    {resp : CommandResponse}
    (h : finishUnverifiedQueuedCommandRequest s ref queued uncertain now = .ok (s', resp)) :
    Keeps s s' := by
  unfold finishUnverifiedQueuedCommandRequest at h
  rcases withActiveReceipt_cases h with ⟨rfl, -⟩ | ⟨n, row, hr, -, -, hfp, hbody⟩
  · exact .refl _
  split at hbody
  · cases hbody
    exact .refl _
  rename_i hguard
  split at hbody
  · cases hbody
    exact .refl _
  split at hbody
  · cases hbody
  rename_i s₁ count hupd
  have hkeep := keeps_of_terminateSend hupd hr hfp hguard (by simp)
  split at hbody
  · cases hbody
    exact hkeep
  · obtain ⟨rfl, -⟩ := answerWithRow_spec hbody
    exact hkeep

/-- The send is closed as uncertain, and the ledger row advances with it. -/
theorem recover_spec {ref : ReceiptRef} {unresolved uncertain : String} {now : Int}
    {resp : CommandResponse}
    (h : recoverUnresolvedCommandSend s ref unresolved uncertain now = .ok (s', resp)) :
    Keeps s s' ∨ ∃ s₁, Keeps s s₁ ∧
      terminalizeTurnSubmission s₁ ref.hostId ref.requestId .uncertain now = .ok s' := by
  unfold recoverUnresolvedCommandSend at h
  rcases withActiveReceipt_cases h with ⟨rfl, -⟩ | ⟨n, row, hr, -, -, hfp, hbody⟩
  · exact Or.inl (.refl _)
  split at hbody
  · cases hbody
    exact Or.inl (.refl _)
  rename_i hguard
  split at hbody
  · cases hbody
    exact Or.inl (.refl _)
  split at hbody
  · cases hbody
  rename_i s₁ count hupd
  have hkeep := keeps_of_terminateSend hupd hr hfp hguard (by simp)
  split at hbody
  · cases hbody
    exact Or.inl hkeep
  split at hbody
  · cases hbody
  rename_i s₂ hsub
  obtain ⟨rfl, -⟩ := answerWithRow_spec hbody
  exact Or.inr ⟨s₁, hkeep, hsub⟩

/-- The owner's receipt becomes terminal, and the ledger row advances with it. -/
theorem finish_spec {call : FinishCall} {resp : CommandResponse}
    (h : finishCommandRequest lib s call = .ok (s', resp)) :
    s' = s ∨ ∃ n r s₁, s.receipts.get? n = some r ∧ r.hostId = call.ref.hostId ∧
      r.requestId = call.ref.requestId ∧ call.terminalState ≠ .reserved ∧
      Writes s s₁ n (r.terminated call.terminalState call.status call.resultJson call.now) ∧
      s₁.submissions = s.submissions ∧
      terminalizeTurnSubmission s₁ call.ref.hostId call.ref.requestId call.terminalState
        call.now = .ok s' := by
  unfold finishCommandRequest at h
  split at h
  · cases h
  rename_i hallowed
  split at h
  · cases h
  split at h
  · cases h
  split at h
  · cases h
  have hterminal : call.terminalState ≠ .reserved := by
    cases he : call.expectedState <;> cases ht : call.terminalState <;>
      simp_all [finishAllowed]
  rcases withActiveReceipt_cases h with ⟨rfl, -⟩ | ⟨n, row, hr, hhost, hrequest, hfp, hbody⟩
  · exact Or.inl rfl
  split at hbody
  · cases hbody
    exact Or.inl rfl
  split at hbody
  · cases hbody
    exact Or.inl rfl
  rename_i hstate howner
  simp only [not_or, not_not] at hstate howner
  split at hbody
  · cases hbody
  rename_i s₁ count hupd
  obtain ⟨hcount, hw⟩ := updateReceipts_row hupd hr (by simp [hstate, hfp, howner]) (by simp_all)
  rw [if_neg (by simp [hcount])] at hbody
  split at hbody
  · cases hbody
  split at hbody
  · cases hbody
  rename_i s₂ hsub
  obtain ⟨rfl, -⟩ := answerWithRow_spec hbody
  exact Or.inr ⟨n, row, s₁, hr, hhost, hrequest, hterminal, hw, updateReceipts_submissions hupd,
    hsub⟩

theorem finish_sound {call : FinishCall} {resp : CommandResponse}
    (h : finishCommandRequest lib s call = .ok (s', resp)) (hs : LedgerSound s) :
    LedgerSound s' := by
  rcases finish_spec h with rfl | ⟨n, r, s₁, hr, hhost, hrequest, hstate, hw, hsub, hterm⟩
  · exact hs
  have hagree : LinksAgree s₁ := fun m t ht => hs.agrees m t (hsub ▸ ht)
  have hmoves := terminalizeTurnSubmission_moves hagree hterm
  have hreceipts := terminalizeTurnSubmission_receipts hterm
  refine ⟨hmoves.linksAgree hagree, fun m t' ht' => ?_⟩
  obtain ⟨t, ht, hadv⟩ := hmoves m t' ht'
  obtain ⟨k, r₀, hr₀, hhost₀, hrequest₀, hstate₀, hrejected₀⟩ := hs.owned m t (hsub ▸ ht)
  have hhost' := hhost₀.trans hadv.sameRequest.hostId.symm
  have hrequest' := hrequest₀.trans hadv.sameRequest.requestId.symm
  by_cases hk : k = n
  · subst hk
    rw [hr] at hr₀
    cases hr₀
    have hwritten := hw.row k
    rw [if_pos rfl] at hwritten
    refine ⟨k, r.terminated call.terminalState call.status call.resultJson call.now,
      hreceipts ▸ hwritten, hhost', hrequest', hstate, fun he => ?_⟩
    have hrejected : call.terminalState = .rejected := he
    rw [hrejected] at hterm
    exact terminalizeTurnSubmission_rejected hterm ht' (hhost'.symm.trans hhost)
      (hrequest'.symm.trans hrequest)
  · refine ⟨k, r₀, by rw [hreceipts, hw.row, if_neg hk, hr₀], hhost', hrequest', hstate₀,
      fun he => ?_⟩
    cases hadv with
    | keep same => exact same ▸ hrejected₀ he
    | move _ isOpen => simp [hrejected₀ he] at isOpen

/-- The receipt is started, and a ledger row of the request is new or was there. -/
theorem mark_spec {call : MarkCall} {resp : CommandResponse}
    (h : markCommandSendStarted lib s call = .ok (s', resp)) :
    s' = s ∨ ∃ s₁ n r, Keeps s s₁ ∧ s₁.receipts.get? n = some r ∧ r.hostId = call.ref.hostId ∧
      r.requestId = call.ref.requestId ∧ r.state = .sendStarted ∧ s'.receipts = s₁.receipts ∧
      (s'.submissions = s₁.submissions ∨ ∃ t, s₁.submissions.insert t = some s'.submissions ∧
        t.hostId = call.ref.hostId ∧ t.requestId = call.ref.requestId ∧ t.state = .sendStarted ∧
        t.linkedTurnId = none) := by
  unfold markCommandSendStarted at h
  split at h
  · cases h
  dsimp only at h
  rcases withActiveReceipt_cases h with ⟨rfl, -⟩ | ⟨n, row, hr, hhost, hrequest, hfp, hbody⟩
  · exact Or.inl rfl
  split at hbody
  · cases hbody
    exact Or.inl rfl
  split at hbody
  · cases hbody
    exact Or.inl rfl
  rename_i hstate howner
  simp only [not_or, not_not] at hstate howner
  split at hbody
  · cases hbody
  rename_i s₁ count hupd
  obtain ⟨hcount, hw⟩ := updateReceipts_row hupd hr (by simp [hstate, hfp, howner]) (by simp_all)
  have hkeep := keeps_of_update hupd (by simp_all)
  rw [if_neg (by simp [hcount])] at hbody
  split at hbody
  · cases hbody
  rename_i s₂ hins
  split at hbody
  · cases hbody
  obtain ⟨rfl, -⟩ := answerWithRow_spec hbody
  have hwritten := hw.row n
  rw [if_pos rfl] at hwritten
  refine Or.inr ⟨s₁, n, _, hkeep, hwritten, hhost, hrequest, rfl, ?_⟩
  cases hseed : call.submission with
  | none =>
    rw [hseed] at hins
    cases hins
    exact ⟨rfl, Or.inl rfl⟩
  | some seed =>
    rw [hseed] at hins
    have hins' : insertTurnSubmission s₁ call.ref seed call.now = .ok s' := hins
    refine ⟨insertTurnSubmission_receipts hins', ?_⟩
    unfold insertTurnSubmission at hins'
    split_ifs at hins'
    split at hins'
    · cases hins'
    split at hins'
    · cases hins'
    rename_i submissions hrow
    cases hins'
    unfold Constrained.insertOrIgnore at hrow
    split at hrow
    · cases hrow
      exact Or.inl rfl
    · exact Or.inr ⟨_, hrow, rfl, rfl, rfl, rfl⟩

theorem mark_sound {call : MarkCall} {resp : CommandResponse}
    (h : markCommandSendStarted lib s call = .ok (s', resp)) (hs : LedgerSound s) :
    LedgerSound s' ∧ ∀ n t t', s.submissions.get? n = some t →
      s'.submissions.get? n = some t' → t' = t := by
  have hsame : ∀ s' : CommandStore, s'.submissions = s.submissions → ∀ n t t',
      s.submissions.get? n = some t → s'.submissions.get? n = some t' → t' = t := by
    intro s' he n t t' ht ht'
    rw [he, ht] at ht'
    exact (Option.some.inj ht').symm
  rcases mark_spec h with rfl | ⟨s₁, m, r, hkeep, hr, hhost, hrequest, hstate, hreceipts, hsub⟩
  · exact ⟨hs, hsame s' rfl⟩
  have hs₁ := hkeep.sound hs
  rcases hsub with hsub | ⟨t₀, hins, hhost₀, hrequest₀, hstate₀, hlink₀⟩
  · refine ⟨LedgerMoves.sound (P := fun _ => False) (.of_submissions_eq hsub) hreceipts hs₁,
      hsame s' (hsub.trans hkeep.submissions)⟩
  have hget := Constrained.get?_insert hins
  refine ⟨⟨fun n t ht => ?_, fun n t ht => ?_⟩, fun n t t' ht ht' => ?_⟩
  · rw [hget] at ht
    split at ht
    · cases ht
      simp [TurnSubmission.LinkAgrees, hstate₀, hlink₀]
    · exact hs₁.agrees n t ht
  · rw [hget] at ht
    split at ht
    · cases ht
      exact ⟨m, r, hreceipts ▸ hr, hhost.trans hhost₀.symm, hrequest.trans hrequest₀.symm,
        by simp [hstate], by simp [hstate]⟩
    · rw [hreceipts]
      exact hs₁.owned n t ht
  · rw [hget, hkeep.submissions] at ht'
    split at ht'
    · rename_i hn
      exact absurd (Table.get?_lt_next ht) (by omega)
    · rw [ht] at ht'
      exact (Option.some.inj ht').symm

/-- The ledger row of a queued verdict, which drops a provisional link. -/
def TurnSubmission.requeued (now : Int) (t : TurnSubmission) : TurnSubmission :=
  { t with
    state := .sendStarted
    linkedTurnId := none
    linkedAt := none
    submittedAt := some now
    linkExpiresAt := t.hardExpiresAt
    updatedAt := now }

/-- The owner's started receipt stays started, and its ledger row is started again. -/
theorem queued_spec {ref : ReceiptRef} {token result : String} {now : Int}
    {resp : CommandResponse}
    (h : recordCommandSendQueued lib s ref token result now = .ok (s', resp)) :
    s' = s ∨ ∃ n r s₁ r₁, s.receipts.get? n = some r ∧ r.hostId = ref.hostId ∧
      r.requestId = ref.requestId ∧ r.state = .sendStarted ∧ ownerTokenHash lib token ≠ "" ∧
      r.ownerTokenHash = ownerTokenHash lib token ∧ Keeps s s₁ ∧ s'.receipts = s₁.receipts ∧
      s₁.receipts.get? n = some r₁ ∧ r₁.state = .sendStarted ∧
      r₁.ownerTokenHash = r.ownerTokenHash ∧ r₁.hostId = r.hostId ∧ r₁.requestId = r.requestId ∧
      ∀ m t', s'.submissions.get? m = some t' → ∃ t, s.submissions.get? m = some t ∧
        (t' = t ∨ t' = t.requeued now ∧ t.hostId = ref.hostId ∧ t.requestId = ref.requestId ∧
          (t.state = .sendStarted ∨ t.state = .linked)) := by
  unfold recordCommandSendQueued at h
  rcases withActiveReceipt_cases h with ⟨rfl, -⟩ | ⟨n, row, hr, hhost, hrequest, hfp, hbody⟩
  · exact Or.inl rfl
  split at hbody
  · cases hbody
    exact Or.inl rfl
  split at hbody
  · cases hbody
    exact Or.inl rfl
  rename_i hstate howner
  simp only [not_or, not_not] at hstate howner
  split at hbody
  · cases hbody
  rename_i s₁ count hupd
  obtain ⟨hcount, hw⟩ := updateReceipts_row hupd hr (by simp [hstate, hfp, howner]) (by simp_all)
  have hkeep : Keeps s s₁ := by
    refine .of_writes hw (updateReceipts_submissions hupd) fun r₀ hr₀ _ => ?_
    rw [hr] at hr₀
    cases hr₀
    exact ⟨rfl, rfl, by simp [hstate], id⟩
  rw [if_neg (by simp [hcount])] at hbody
  split at hbody
  · cases hbody
  rename_i s₂ submissionCount hsub
  split at hbody
  · cases hbody
  obtain ⟨rfl, -⟩ := answerWithRow_spec hbody
  have hwritten := hw.row n
  rw [if_pos rfl] at hwritten
  refine Or.inr ⟨n, row, s₁, _, hr, hhost, hrequest, hstate, howner.1, howner.2, hkeep,
    (updateSubmissions_spec hsub).2.1, hwritten, hstate, rfl, rfl, rfl, ?_⟩
  intro m t' ht'
  rw [updateSubmissions_get? hsub, hkeep.submissions] at ht'
  obtain ⟨t, ht, rfl⟩ := Option.map_eq_some_iff.mp ht'
  refine ⟨t, ht, ?_⟩
  split
  · rename_i hp
    simp only [Bool.and_eq_true, Bool.or_eq_true, beq_iff_eq] at hp
    exact Or.inr ⟨rfl, hp.1.1, hp.1.2, hp.2⟩
  · exact Or.inl rfl

theorem queued_sound {ref : ReceiptRef} {token result : String} {now : Int}
    {resp : CommandResponse}
    (h : recordCommandSendQueued lib s ref token result now = .ok (s', resp))
    (hs : LedgerSound s) : LedgerSound s' := by
  rcases queued_spec h with rfl | ⟨n, r, s₁, r₁, -, hhost, hrequest, -, -, -, hkeep, hreceipts, hr₁,
    hstate₁, -, hhost₁, hrequest₁, hrows⟩
  · exact hs
  have hs₁ := hkeep.sound hs
  refine ⟨fun m t' ht' => ?_, fun m t' ht' => ?_⟩
  · obtain ⟨t, ht, rfl | ⟨rfl, -⟩⟩ := hrows m t' ht'
    · exact hs.agrees m t' ht
    · simp [TurnSubmission.LinkAgrees, TurnSubmission.requeued]
  · obtain ⟨t, ht, rfl | ⟨rfl, hth, htr, -⟩⟩ := hrows m t' ht'
    · rw [hreceipts]
      exact hs₁.owned m t' (hkeep.submissions ▸ ht)
    · exact ⟨n, r₁, hreceipts ▸ hr₁, (hhost₁.trans hhost).trans hth.symm,
        (hrequest₁.trans hrequest).trans htr.symm, by simp [hstate₁], by simp [hstate₁]⟩

/-! ### Cleanup -/

theorem closeStaleSend_spec {now : Int} {n : Nat} (h : closeStaleSend now s n = .ok s')
    (hs : LedgerSound s) :
    LedgerSound s' ∧ LedgerMoves (fun t => t.state = .uncertain) s s' := by
  unfold closeStaleSend at h
  split at h
  · cases h
  rename_i s₁ count hupd
  have hkeep : Keeps s s₁ := by
    refine ⟨updateReceipts_submissions hupd, fun m r hr hstate => ?_⟩
    rw [Constrained.get?] at hr
    refine ⟨if m == n && r.state == .sendStarted then _ else r,
      by rw [Constrained.get?, (updateReceipts_spec hupd).1, Table.get?_updateWhere, hr]; rfl, ?_⟩
    split
    · exact ⟨rfl, rfl, by simp [CommandReceipt.terminated], by simp [CommandReceipt.terminated]⟩
    · exact ⟨rfl, rfl, hstate, id⟩
  have hs₁ := hkeep.sound hs
  split at h
  · cases h
    exact ⟨hs₁, hkeep.moves⟩
  · have hmoves := terminalizeTurnSubmission_moves hs₁.agrees h
    refine ⟨hmoves.sound (terminalizeTurnSubmission_receipts h) hs₁, hkeep.moves.trans ?_⟩
    exact hmoves.mono fun t ht => by simpa [submissionAfter, eq_comm] using ht.1

lemma deleteReceipt_moves {P : TurnSubmission → Prop} (now : Int)
    (e : Nat × CommandReceipt) : LedgerMoves P s (deleteReceipt now s e) := by
  intro n t ht
  simp only [deleteReceipt, Constrained.get?_deleteWhere, Option.filter_eq_some_iff] at ht
  exact ⟨t, ht.1, .keep rfl⟩

/-- A receipt goes together with its ledger row. -/
lemma deleteReceipt_sound (now : Int) {e : Nat × CommandReceipt}
    (he : ∀ r, s.receipts.get? e.1 = some r → r = e.2) (hs : LedgerSound s) :
    LedgerSound (deleteReceipt now s e) := by
  refine ⟨(deleteReceipt_moves (P := fun _ => False) now e).linksAgree hs.agrees,
    fun n t ht => ?_⟩
  simp only [deleteReceipt, Constrained.get?_deleteWhere, Option.filter_eq_some_iff] at ht
  obtain ⟨m, r, hr, hhost, hrequest, hstate, hrejected⟩ := hs.owned n t ht.1
  have hne : m ≠ e.1 := by
    rintro rfl
    have hre := he r hr
    subst hre
    simp [hhost, hrequest] at ht
  refine ⟨m, r, ?_, hhost, hrequest, hstate, hrejected⟩
  simp [deleteReceipt, hr, hne]

theorem cleanup_sound {c : CleanupCall} {result : CleanupResult}
    (h : cleanupCommandRequestRetention s c = .ok (s', result)) (hs : LedgerSound s) :
    LedgerSound s' ∧
      LedgerMoves (fun t => t.state = .expired ∨ t.state = .uncertain) s s' := by
  unfold cleanupCommandRequestRetention at h
  split at h
  swap
  · cases h
    exact ⟨hs, .refl _⟩
  unfold cleanupBatch at h
  dsimp only at h
  split at h
  · cases h
  rename_i s₁ hexpire
  have h₁ : LedgerSound s₁ ∧
      LedgerMoves (fun t => t.state = .expired ∨ t.state = .uncertain) s s₁ := by
    split at hexpire
    · cases hexpire
      exact ⟨hs, .refl _⟩
    · have hmoves := expireTurnSubmissions_moves hexpire
      exact ⟨hmoves.sound (expireTurnSubmissions_receipts hexpire) hs,
        hmoves.mono fun t ht => Or.inl ht⟩
  split at h
  · cases h
  rename_i s₂ hstale
  have h₂ : LedgerSound s₂ ∧
      LedgerMoves (fun t => t.state = .expired ∨ t.state = .uncertain) s s₂ := by
    split at hstale
    · cases hstale
      exact h₁
    · refine foldlM_invariant (P := fun s₂ => LedgerSound s₂ ∧
        LedgerMoves (fun t => t.state = .expired ∨ t.state = .uncertain) s s₂) ?_ h₁ hstale
      intro a n b _ ha hb
      obtain ⟨hsound, hmoves⟩ := closeStaleSend_spec hb ha.1
      exact ⟨hsound, ha.2.trans (hmoves.mono fun t ht => Or.inr ht)⟩
  cases h
  split
  · exact ⟨hs, .refl _⟩
  have hdelete : ∀ l : List (Nat × CommandReceipt),
      (∀ e ∈ l, s₂.receipts.get? e.1 = some e.2) →
      LedgerSound (l.foldl (deleteReceipt c.now) s₂) ∧
      LedgerMoves (fun t => t.state = .expired ∨ t.state = .uncertain) s
        (l.foldl (deleteReceipt c.now) s₂) := by
    intro l hl
    have hinv := foldl_invariant (P := fun a : CommandStore => (LedgerSound a ∧
      LedgerMoves (fun t => t.state = .expired ∨ t.state = .uncertain) s a) ∧
      ∀ m r, a.receipts.get? m = some r → s₂.receipts.get? m = some r)
      (f := deleteReceipt c.now) (l := l) ?_ (s := s₂) ⟨h₂, fun _ _ => id⟩
    · exact hinv.1
    · intro a e he ha
      refine ⟨⟨deleteReceipt_sound c.now (fun r hr => ?_) ha.1.1,
        ha.1.2.trans (deleteReceipt_moves c.now e)⟩, fun m r hr => ha.2 m r ?_⟩
      · have := ha.2 e.1 r hr
        rw [hl e he] at this
        exact (Option.some.inj this).symm
      · simp only [deleteReceipt, Constrained.get?_deleteWhere, Option.filter_eq_some_iff] at hr
        exact hr.1
  refine hdelete _ fun e he => ?_
  split at he
  · have hmem := List.mem_of_mem_take he
    unfold deletionCandidates at hmem
    rw [List.mem_insertionSort, List.mem_filter] at hmem
    exact (Table.mem_select.mp hmem.1).1
  · simp at he

end Calls

end Tendwire

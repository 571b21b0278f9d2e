import Tendwire.Commands.Cleanup
import Tendwire.Protocol.GrantLedger
import Tendwire.Transition.Loop

/-!
# At-most-once send authority

The receipt table refines the grant ledger: a reservation is held by an owner hash, the
started call spends the row, and only cleanup forgets it.
-/

namespace Tendwire

open Relational Protocol

def CommandReceipt.phase (r : CommandReceipt) : Phase String :=
  match r.state with
  | .reserved => .reserved r.ownerTokenHash
  | .sendStarted => .started
  | .accepted | .rejected | .uncertain => .closed

lemma CommandReceipt.phase_eq_reserved {r : CommandReceipt} {hash : String}
    (h : r.phase = .reserved hash) : r.state = .reserved ∧ r.ownerTokenHash = hash := by
  unfold CommandReceipt.phase at h
  split at h
  · next hstate => exact ⟨hstate, Phase.reserved.inj h⟩
  all_goals cases h

def CommandReceipt.entry (r : CommandReceipt) : (String × String) × Phase String :=
  ((r.hostId, r.requestId), r.phase)

/-- The ledger a store stands for. -/
def CommandStore.ledger (s : CommandStore) : GrantLedger (String × String) String where
  rows n := (s.receipts.get? n).map CommandReceipt.entry
  next := s.receipts.table.next
  below n e h := by
    obtain ⟨r, hr, -⟩ := Option.map_eq_some_iff.mp h
    exact Table.get?_lt_next hr
  unique m n k p q hm hn := by
    obtain ⟨r, hr, hrk⟩ := Option.map_eq_some_iff.mp hm
    obtain ⟨r', hr', hrk'⟩ := Option.map_eq_some_iff.mp hn
    refine s.receipts.eq_of_key (List.mem_singleton_self _) hr hr' (v := k) ?_ ?_
    · exact congrArg some (congrArg Prod.fst hrk)
    · exact congrArg some (congrArg Prod.fst hrk')

/-- The authority an answer grants. -/
def grantOf (lib : CommandLibrary) : CommandCall → CommandAnswer → Grant String
  | .reserve call, .response ⟨.reserved, some (n, _), _⟩ =>
    .reserved n (ownerTokenHash lib call.ownerToken)
  | .markSendStarted call, .response ⟨.sendStarted, some (n, _), _⟩ =>
    .started n (ownerTokenHash lib call.ownerToken)
  | .cleanup _, _ => .forgot
  | _, _ => .silent

/-! ### What the statements do -/

section Statements

variable {s s' : CommandStore} {n : Nat} {r : CommandReceipt}

/-- `s'` differs from `s` in the receipt of row `n` only. -/
structure Writes (s s' : CommandStore) (n : Nat) (r : CommandReceipt) : Prop where
  next_le : s.receipts.table.next ≤ s'.receipts.table.next
  row : ∀ m, s'.receipts.get? m = if m = n then some r else s.receipts.get? m

theorem updateReceipts_spec {p : Nat → CommandReceipt → Bool} {f : CommandReceipt → CommandReceipt}
    {count : Nat} (h : s.updateReceipts p f = .ok (s', count)) :
    s'.receipts.table = s.receipts.table.updateWhere p f ∧
      count = (s.receipts.table.select p).length := by
  unfold CommandStore.updateReceipts at h
  split at h
  · rename_i receipts hw
    cases h
    exact ⟨Constrained.write_eq_some hw, rfl⟩
  · cases h

/-- An update whose condition names a row that is there and meets it. -/
theorem updateReceipts_row {p : Nat → CommandReceipt → Bool} {f : CommandReceipt → CommandReceipt}
    {count : Nat} (h : s.updateReceipts p f = .ok (s', count)) (hr : s.receipts.get? n = some r)
    (hp : p n r = true) (honly : ∀ m r', p m r' = true → m = n) :
    count = 1 ∧ Writes s s' n (f r) := by
  obtain ⟨ht, hcount⟩ := updateReceipts_spec h
  refine ⟨?_, ?_, ?_⟩
  · rw [hcount, Table.select_eq_singleton hr hp fun m r' _ => honly m r']
    rfl
  · rw [ht]
    exact Nat.le_refl _
  · intro m
    rw [Constrained.get?, ht, Table.get?_updateWhere]
    by_cases hm : m = n
    · subst hm
      rw [Constrained.get?] at hr
      simp [hr, hp]
    · have hf : ∀ r', p m r' = false := fun r' => by
        by_contra hne
        exact hm (honly m r' (by simpa using hne))
      simp [hm, hf, Constrained.get?]

/-- Such an update is made if the row that it leaves is a receipt of the same request. -/
theorem exists_updateReceipts {p : Nat → CommandReceipt → Bool} {f : CommandReceipt → CommandReceipt}
    (hr : s.receipts.get? n = some r) (hp : p n r = true) (honly : ∀ m r', p m r' = true → m = n)
    (hcheck : (f r).check = true)
    (hkey : ∀ r', (f r').hostId = r'.hostId ∧ (f r').requestId = r'.requestId) :
    ∃ s', s.updateReceipts p f = .ok (s', 1) ∧ Writes s s' n (f r) := by
  obtain ⟨receipts, hupdate⟩ := Constrained.exists_updateWhere (t := s.receipts) (p := p) (f := f)
    (fun m r' hr' hp' => by
      obtain rfl := honly m r' hp'
      obtain rfl := Option.some.inj (hr.symm.trans hr')
      exact hcheck)
    (fun r' k hk => by
      obtain rfl := List.mem_singleton.mp hk
      exact congrArg some (Prod.ext (hkey r').1 (hkey r').2))
  have hupd : s.updateReceipts p f = .ok ({ s with receipts := receipts },
      (s.receipts.table.select p).length) := by
    unfold CommandStore.updateReceipts
    rw [hupdate]
  obtain ⟨hcount, hw⟩ := updateReceipts_row hupd hr hp honly
  exact ⟨_, hcount ▸ hupd, hw⟩

theorem insertReceipt_spec (h : s.insertReceipt r = .ok s') :
    Writes s s' s.receipts.table.next r := by
  unfold CommandStore.insertReceipt at h
  split at h
  · rename_i receipts hw
    cases h
    have ht := Constrained.write_eq_some hw
    refine ⟨?_, fun m => ?_⟩
    · simp [ht]
    · simp [Constrained.get?, ht]
  · cases h

lemma updateSubmissions_receipts {p : Nat → TurnSubmission → Bool}
    {f : TurnSubmission → TurnSubmission} {count : Nat}
    (h : s.updateSubmissions p f = .ok (s', count)) : s'.receipts = s.receipts := by
  unfold CommandStore.updateSubmissions at h
  split at h
  · cases h
    rfl
  · cases h

lemma insertTurnSubmission_receipts {ref : ReceiptRef} {seed : SubmissionSeed} {now : Int}
    (h : insertTurnSubmission s ref seed now = .ok s') : s'.receipts = s.receipts := by
  unfold insertTurnSubmission at h
  split_ifs at h
  split at h
  · cases h
  · split at h
    · cases h
    · cases h
      rfl

lemma terminalizeTurnSubmission_receipts {host request : String} {state : ReceiptState}
    {now : Int} (h : terminalizeTurnSubmission s host request state now = .ok s') :
    s'.receipts = s.receipts := by
  unfold terminalizeTurnSubmission at h
  split at h
  · cases h
    rfl
  · split at h
    · cases h
      rfl
    · split at h
      · cases h
        rfl
      · split at h
        · cases h
        · rename_i hupd
          split_ifs at h
          cases h
          exact updateSubmissions_receipts hupd

lemma expireTurnSubmissions_receipts {host : Option String} {now : Int}
    (h : expireTurnSubmissions s host now = .ok s') : s'.receipts = s.receipts := by
  unfold expireTurnSubmissions at h
  split at h
  · cases h
  · rename_i hupd
    cases h
    exact updateSubmissions_receipts hupd

theorem answerWithRow_spec {host request : String} {status : CommandStatus}
    {token : Option String} {missing : String} {resp : CommandResponse}
    (h : answerWithRow s host request status token missing = .ok (s', resp)) :
    s' = s ∧ ∃ row, s.commandRequestRow host request = some row ∧
      resp = ⟨status, some row, token⟩ := by
  unfold answerWithRow at h
  split at h
  · rename_i row hrow
    cases h
    exact ⟨rfl, row, hrow, rfl⟩
  · cases h

/-- A call on an active receipt either answers without a write or runs its body on the row. -/
theorem withActiveReceipt_cases {ref : ReceiptRef}
    {body : Nat → CommandReceipt → Except StoreError (CommandStore × CommandResponse)}
    {resp : CommandResponse} (h : withActiveReceipt s ref body = .ok (s', resp)) :
    (s' = s ∧ resp.status ≠ .reserved ∧ resp.status ≠ .sendStarted) ∨
      ∃ n r, s.receipts.get? n = some r ∧ r.hostId = ref.hostId ∧ r.requestId = ref.requestId ∧
        r.canonicalFingerprint = ref.canonicalFingerprint ∧ body n r = .ok (s', resp) := by
  unfold withActiveReceipt at h
  split at h
  · cases h
    exact Or.inl ⟨rfl, by simp, by simp⟩
  · rename_i n r hrow
    obtain ⟨hr, hhost, hrequest⟩ := CommandStore.commandRequestRow_spec hrow
    split_ifs at h with hfp hterm
    · cases h
      exact Or.inl ⟨rfl, by simp, by simp⟩
    · cases h
      exact Or.inl ⟨rfl, by simp, by simp⟩
    · exact Or.inr ⟨n, r, hr, hhost, hrequest, not_ne_iff.mp hfp, h⟩

end Statements

/-! ### The calls are ledger steps -/

section Refinement

variable {lib : CommandLibrary} {s s' : CommandStore} {n : Nat} {r : CommandReceipt}
  {l : Grant String}

lemma ledger_rows (h : s.receipts.get? n = some r) : s.ledger.rows n = some r.entry := by
  simp [CommandStore.ledger, h]

lemma ledger_rows_reserved (h : s.receipts.get? n = some r) (hs : r.state = .reserved) :
    s.ledger.rows n = some ((r.hostId, r.requestId), .reserved r.ownerTokenHash) := by
  rw [ledger_rows h]
  simp [CommandReceipt.entry, CommandReceipt.phase, hs]

lemma Writes.ledger_rows_ne (h : Writes s s' n r) {m : Nat} (hm : m ≠ n) :
    s'.ledger.rows m = s.ledger.rows m := by
  simp [CommandStore.ledger, h.row, hm]

lemma Writes.ledger_row (h : Writes s s' n r) : s'.ledger.rows n = some r.entry := by
  simp [CommandStore.ledger, h.row]

theorem step_of_receipts_eq (h : s'.receipts = s.receipts) (hres : ∀ m w, l ≠ .reserved m w)
    (hstart : ∀ m w, l ≠ .started m w) : GrantLedger.Step s.ledger l s'.ledger := by
  have hledger : s'.ledger = s.ledger := by simp [CommandStore.ledger, h]
  rw [hledger]
  exact ⟨Nat.le_refl _, fun m => .keep _, fun m w hm => absurd hm (hres m w),
    fun m w hm => absurd hm (hstart m w)⟩

theorem Writes.step (h : Writes s s' n r)
    (hrow : GrantLedger.RowStep s.receipts.table.next l n (s.ledger.rows n) (some r.entry))
    (hres : ∀ m w, l = .reserved m w → m = n ∧ r.phase = .reserved w ∧
      (s.ledger.rows n = none ∧ s.receipts.table.next ≤ n ∨
        ∃ k w₀, s.ledger.rows n = some (k, .reserved w₀)))
    (hstart : ∀ m w, l = .started m w → m = n ∧ ∃ k, s.ledger.rows n = some (k, .reserved w) ∧
      r.entry = (k, .started)) : GrantLedger.Step s.ledger l s'.ledger := by
  refine ⟨h.next_le, fun m => ?_, fun m w hm => ?_, fun m w hm => ?_⟩
  · by_cases hm : m = n
    · subst hm
      rw [h.ledger_row]
      exact hrow
    · rw [h.ledger_rows_ne hm]
      exact .keep _
  · obtain ⟨rfl, hphase, hprev⟩ := hres m w hm
    refine ⟨hprev, (r.hostId, r.requestId), ?_⟩
    rw [h.ledger_row, CommandReceipt.entry, hphase]
  · obtain ⟨rfl, k, hprev, hentry⟩ := hstart m w hm
    exact ⟨k, hprev, by rw [h.ledger_row, hentry]⟩

/-- A write that changes neither key nor phase, or closes the row. -/
theorem Writes.step_silent {r₀ : CommandReceipt} (h : Writes s s' n r)
    (hr : s.receipts.get? n = some r₀)
    (hentry : r.entry = r₀.entry ∨ r.entry = ((r₀.hostId, r₀.requestId), .closed))
    (hl : l = .silent) : GrantLedger.Step s.ledger l s'.ledger := by
  subst hl
  refine h.step ?_ (by simp) (by simp)
  rw [ledger_rows hr]
  rcases hentry with he | he
  · rw [he]
    exact .keep _
  · rw [he]
    exact .close _ _

/-- A reservation is answered with the drawn token and the row that now holds its hash. -/
theorem reserve_step {call : ReserveCall} {resp : CommandResponse}
    (h : reserveCommandRequest lib s call = .ok (s', resp)) :
    GrantLedger.Step s.ledger (grantOf lib (.reserve call) (.response resp)) s'.ledger ∧
      (resp.status = .reserved → ∃ n row, resp = ⟨.reserved, some (n, row), call.ownerToken⟩ ∧
        s'.receipts.get? n = some row) := by
  unfold reserveCommandRequest at h
  split at h
  · cases h
  rename_i values hvalues
  split at h
  · cases h
  dsimp only at h
  split at h
  · rename_i m row hrow
    obtain ⟨hr, hhost, hrequest⟩ := CommandStore.commandRequestRow_spec hrow
    have hquiet : ∀ {status : CommandStatus}, status ≠ .reserved →
        GrantLedger.Step s.ledger
          (grantOf lib (.reserve call) (.response ⟨status, some (m, row), none⟩)) s.ledger ∧
        (status = .reserved → ∃ n' row', (⟨status, some (m, row), none⟩ : CommandResponse) =
          ⟨.reserved, some (n', row'), call.ownerToken⟩ ∧ s.receipts.get? n' = some row') := by
      intro status hstatus
      refine ⟨step_of_receipts_eq rfl ?_ ?_, fun he => absurd he hstatus⟩ <;> cases status <;>
        simp [grantOf] at hstatus ⊢
    split at h
    · cases h
      exact hquiet (by simp)
    split at h
    · cases h
      exact hquiet (by simp)
    split at h
    · cases h
      exact hquiet (by simp)
    split at h
    · cases h
      exact hquiet (by simp)
    split at h
    · cases h
      exact hquiet (by simp)
    rename_i hterm hstarted _
    have hreserved : row.state = .reserved := by
      cases hs : row.state <;> simp_all [ReceiptState.isTerminal]
    split at h
    · cases h
    rename_i s₁ count hupd
    obtain ⟨hcount, hw⟩ := updateReceipts_row hupd hr (by simp [hreserved]) (by simp +contextual)
    rw [if_neg (by simp [hcount])] at h
    obtain ⟨rfl, e, he, rfl⟩ := answerWithRow_spec h
    have hkey := CommandStore.commandRequestRow_unique ((hw.row m).trans (if_pos rfl))
    simp only [CommandReceipt.retaken, hhost, hrequest] at hkey
    rw [hkey] at he
    cases he
    refine ⟨hw.step ?_ ?_ (by simp [grantOf]), fun _ => ⟨_, _, rfl,
      (CommandStore.commandRequestRow_spec hkey).1⟩⟩
    · rw [ledger_rows_reserved hr hreserved]
      simp only [CommandReceipt.entry, CommandReceipt.phase, CommandReceipt.retaken, hreserved]
      exact .retake _ _ _ rfl
    · intro m' w hm'
      simp only [grantOf, Grant.reserved.injEq] at hm'
      obtain ⟨rfl, rfl⟩ := hm'
      exact ⟨rfl, by simp [CommandReceipt.phase, CommandReceipt.retaken, hreserved],
        Or.inr ⟨_, _, ledger_rows_reserved hr hreserved⟩⟩
  · rename_i hrow
    split at h
    · cases h
    rename_i s₁ hins
    have hw := insertReceipt_spec hins
    obtain ⟨rfl, e, he, rfl⟩ := answerWithRow_spec h
    have hkey := CommandStore.commandRequestRow_unique ((hw.row _).trans (if_pos rfl))
    simp only at hkey
    rw [hkey] at he
    cases he
    have hnone : s.ledger.rows s.receipts.table.next = none := by
      simp [CommandStore.ledger, Constrained.get?, Table.get?_eq_none_of_next_le (Nat.le_refl _)]
    refine ⟨hw.step ?_ ?_ (by simp [grantOf]), fun _ => ⟨_, _, rfl,
      (CommandStore.commandRequestRow_spec hkey).1⟩⟩
    · rw [hnone]
      exact .reserve _ _ rfl (Nat.le_refl _)
    · intro m' w hm'
      simp only [grantOf, Grant.reserved.injEq] at hm'
      obtain ⟨rfl, rfl⟩ := hm'
      exact ⟨rfl, rfl, Or.inl ⟨hnone, Nat.le_refl _⟩⟩

/-- A start is refused, or it writes and answers the reserved row of its owner. -/
theorem mark_cases {call : MarkCall} {resp : CommandResponse}
    (h : markCommandSendStarted lib s call = .ok (s', resp)) :
    (s' = s ∧ resp.status ≠ .sendStarted) ∨
      ∃ n row, s.receipts.get? n = some row ∧ row.hostId = call.ref.hostId ∧
        row.requestId = call.ref.requestId ∧
        row.canonicalFingerprint = call.ref.canonicalFingerprint ∧ row.state = .reserved ∧
        row.ownerTokenHash = ownerTokenHash lib call.ownerToken ∧
        ownerTokenHash lib call.ownerToken ≠ "" ∧
        Writes s s' n (row.sendStartedBy call.bindingFingerprint call.now) ∧
        resp = ⟨.sendStarted, some (n, row.sendStartedBy call.bindingFingerprint call.now),
          call.ownerToken⟩ := by
  unfold markCommandSendStarted at h
  split at h
  · cases h
  rcases withActiveReceipt_cases h with ⟨rfl, -, hne⟩ | ⟨n, row, hr, hhost, hrequest, hfp, hbody⟩
  · exact .inl ⟨rfl, hne⟩
  split at hbody
  · cases hbody
    exact .inl ⟨rfl, by simp⟩
  rename_i hstate
  split at hbody
  · cases hbody
    exact .inl ⟨rfl, by simp⟩
  rename_i howner
  simp only [not_or, not_not] at hstate howner
  split at hbody
  · cases hbody
  rename_i s₁ count hupd
  obtain ⟨hcount, hw⟩ := updateReceipts_row hupd hr (by simp [hstate, hfp, howner]) (by simp +contextual)
  rw [if_neg (by simp [hcount])] at hbody
  split at hbody
  · cases hbody
  rename_i s₂ hsub
  have hreceipts : s₂.receipts = s₁.receipts := by
    cases hc : call.submission with
    | none =>
      rw [hc] at hsub
      cases hsub
      rfl
    | some seed =>
      rw [hc] at hsub
      exact insertTurnSubmission_receipts hsub
  split at hbody
  · cases hbody
  obtain ⟨rfl, e, he, rfl⟩ := answerWithRow_spec hbody
  have hw₂ : Writes s s' n (row.sendStartedBy call.bindingFingerprint call.now) :=
    ⟨hreceipts ▸ hw.next_le, fun m => hreceipts ▸ hw.row m⟩
  have hkey := CommandStore.commandRequestRow_unique ((hw₂.row n).trans (if_pos rfl))
  rw [show (row.sendStartedBy call.bindingFingerprint call.now).hostId = call.ref.hostId from hhost,
    show (row.sendStartedBy call.bindingFingerprint call.now).requestId = call.ref.requestId
      from hrequest] at hkey
  rw [hkey] at he
  cases he
  exact .inr ⟨n, row, hr, hhost, hrequest, hfp, hstate, howner.2, howner.1, hw₂, rfl⟩

/-- A granted start is answered with the row that it started. -/
theorem mark_step {call : MarkCall} {resp : CommandResponse}
    (h : markCommandSendStarted lib s call = .ok (s', resp)) :
    GrantLedger.Step s.ledger (grantOf lib (.markSendStarted call) (.response resp)) s'.ledger ∧
      (resp.status = .sendStarted →
        ∃ n row, resp = ⟨.sendStarted, some (n, row), call.ownerToken⟩ ∧
          s'.receipts.get? n = some row) := by
  rcases mark_cases h with ⟨rfl, hstatus⟩ | ⟨n, row, hr, -, -, -, hstate, howner, -, hw, rfl⟩
  · refine ⟨step_of_receipts_eq rfl ?_ ?_, fun he => absurd he hstatus⟩ <;>
      obtain ⟨_ | _, _ | _, _⟩ := resp <;> simp [grantOf] at hstatus ⊢
  · refine ⟨hw.step ?_ (by simp [grantOf]) ?_, fun _ => ⟨_, _, rfl, (hw.row n).trans (if_pos rfl)⟩⟩
    · rw [ledger_rows_reserved hr hstate, howner]
      exact .start _ _ rfl
    · intro m w hm
      simp only [grantOf, Grant.started.injEq] at hm
      obtain ⟨rfl, rfl⟩ := hm
      refine ⟨rfl, (row.hostId, row.requestId), ?_, rfl⟩
      rw [ledger_rows_reserved hr hstate, howner]

theorem silent_of_receipts_eq (h : s'.receipts = s.receipts) :
    GrantLedger.Step s.ledger .silent s'.ledger := step_of_receipts_eq h (by simp) (by simp)

lemma terminated_entry {state : ReceiptState} (hstate : state.isTerminal) (r : CommandReceipt)
    (status resultJson : String) (now : Int) :
    (r.terminated state status resultJson now).entry = ((r.hostId, r.requestId), .closed) := by
  cases state <;> simp_all [ReceiptState.isTerminal, CommandReceipt.terminated,
    CommandReceipt.entry, CommandReceipt.phase]

lemma Writes.of_receipts_eq {s₁ : CommandStore} (hw : Writes s s₁ n r)
    (h : s'.receipts = s₁.receipts) : Writes s s' n r :=
  ⟨h ▸ hw.next_le, fun m => h ▸ hw.row m⟩

theorem abandon_step {ref : ReceiptRef} {token : String} {now : Int} {released : Bool}
    (h : abandonCommandRequestReservation lib s ref token now = .ok (s', released)) :
    GrantLedger.Step s.ledger .silent s'.ledger := by
  unfold abandonCommandRequestReservation at h
  dsimp only at h
  split at h
  · cases h
    exact silent_of_receipts_eq rfl
  split at h
  · cases h
  rename_i s₁ count hupd
  cases h
  obtain ⟨ht, -⟩ := updateReceipts_spec hupd
  refine ⟨by simp [CommandStore.ledger, ht], fun m => ?_, by simp, by simp⟩
  have hrows : s'.ledger.rows m = s.ledger.rows m := by
    simp only [CommandStore.ledger, Constrained.get?, ht, Table.get?_updateWhere, Option.map_map]
    congr 1
    funext r
    simp only [Function.comp_apply]
    split <;> rfl
  rw [hrows]
  exact .keep _

theorem replay_step {call : ReplayCall} {resp : CommandResponse}
    (h : reserveTerminalCommandReplay lib s call = .ok (s', resp)) :
    GrantLedger.Step s.ledger .silent s'.ledger := by
  unfold reserveTerminalCommandReplay at h
  split at h
  · cases h
  rename_i values hvalues
  split at h
  · cases h
  rename_i hterminal
  split at h
  · cases h
  split at h
  · cases h
  split at h
  · split at h
    · cases h
      exact silent_of_receipts_eq rfl
    split at h
    · cases h
      exact silent_of_receipts_eq rfl
    split at h
    · cases h
      exact silent_of_receipts_eq rfl
    · cases h
      exact silent_of_receipts_eq rfl
  · split at h
    · cases h
    rename_i s₁ hins
    have hw := insertReceipt_spec hins
    obtain ⟨rfl, -⟩ := answerWithRow_spec h
    have hnone : s.ledger.rows s.receipts.table.next = none := by
      simp [CommandStore.ledger, Constrained.get?, Table.get?_eq_none_of_next_le (Nat.le_refl _)]
    refine hw.step ?_ (by simp) (by simp)
    rw [hnone]
    have hclosed : CommandReceipt.phase
        { hostId := values.hostId, requestId := values.requestId, action := values.action,
          canonicalVersion := values.canonicalVersion,
          canonicalFingerprint := values.canonicalFingerprint,
          canonicalRequestJson := values.canonicalRequestJson,
          publicWorkerId := values.publicWorkerId, state := call.terminalState,
          status := call.status, resultJson := call.resultJson, ownerTokenHash := "",
          ownerExpiresAt := none, bindingFingerprint := none, createdAt := call.now,
          reservedAt := call.now, sendStartedAt := none, terminalAt := some call.now,
          updatedAt := call.now, legacyCollision := false, legacyCollisionCount := 0,
          selectorProof := values.selectorProof } = .closed := by
      cases hs : call.terminalState <;> simp_all [CommandReceipt.phase]
    rw [CommandReceipt.entry, hclosed]
    exact .record _ (Nat.le_refl _)

theorem queued_step {ref : ReceiptRef} {token result : String} {now : Int}
    {resp : CommandResponse}
    (h : recordCommandSendQueued lib s ref token result now = .ok (s', resp)) :
    GrantLedger.Step s.ledger .silent s'.ledger := by
  unfold recordCommandSendQueued at h
  rcases withActiveReceipt_cases h with ⟨rfl, -⟩ | ⟨n, row, hr, -, -, hfp, hbody⟩
  · exact silent_of_receipts_eq rfl
  split at hbody
  · cases hbody
    exact silent_of_receipts_eq rfl
  split at hbody
  · cases hbody
    exact silent_of_receipts_eq rfl
  rename_i hstate howner
  simp only [not_or, not_not] at hstate howner
  split at hbody
  · cases hbody
  rename_i s₁ count hupd
  obtain ⟨hcount, hw⟩ := updateReceipts_row hupd hr (by simp [hstate, hfp, howner]) (by simp +contextual)
  rw [if_neg (by simp [hcount])] at hbody
  split at hbody
  · cases hbody
  rename_i s₂ submissionCount hsub
  split at hbody
  · cases hbody
  obtain ⟨rfl, -⟩ := answerWithRow_spec hbody
  exact (hw.of_receipts_eq (updateSubmissions_receipts hsub)).step_silent hr (Or.inl rfl) rfl

/-- A guarded termination of the row that was read closes it. -/
theorem terminateSend_writes {ref : ReceiptRef} {pending status result : String}
    {state : ReceiptState} {now : Int} {count : Nat}
    (h : terminateSend s ref n pending state status result now = .ok (s', count))
    (hr : s.receipts.get? n = some r) (hfp : r.canonicalFingerprint = ref.canonicalFingerprint)
    (hguard : ¬(r.state ≠ .sendStarted ∨ r.status ≠ "pending" ∨ r.resultJson ≠ pending)) :
    count = 1 ∧ Writes s s' n (r.terminated state status result now) := by
  simp only [not_or, not_not] at hguard
  exact updateReceipts_row h hr (by simp [hfp, hguard]) (by simp +contextual)

theorem finishQueued_step {ref : ReceiptRef} {queued accepted : String} {now : Int}
    {resp : CommandResponse}
    (h : finishQueuedCommandRequest s ref queued accepted now = .ok (s', resp)) :
    GrantLedger.Step s.ledger .silent s'.ledger := by
  unfold finishQueuedCommandRequest at h
  rcases withActiveReceipt_cases h with ⟨rfl, -⟩ | ⟨n, row, hr, -, -, hfp, hbody⟩
  · exact silent_of_receipts_eq rfl
  split at hbody
  · cases hbody
    exact silent_of_receipts_eq rfl
  rename_i hguard
  split at hbody
  · cases hbody
    exact silent_of_receipts_eq rfl
  split at hbody
  · cases hbody
  rename_i s₁ count hupd
  obtain ⟨hcount, hw⟩ := terminateSend_writes hupd hr hfp hguard
  rw [if_neg (by simp [hcount])] at hbody
  obtain ⟨rfl, -⟩ := answerWithRow_spec hbody
  exact hw.step_silent hr (Or.inr (terminated_entry rfl _ _ _ _)) rfl

theorem finishUnverified_step {ref : ReceiptRef} {queued uncertain : String} {now : Int}
    {resp : CommandResponse}
    (h : finishUnverifiedQueuedCommandRequest s ref queued uncertain now = .ok (s', resp)) :
    GrantLedger.Step s.ledger .silent s'.ledger := by
  unfold finishUnverifiedQueuedCommandRequest at h
  rcases withActiveReceipt_cases h with ⟨rfl, -⟩ | ⟨n, row, hr, -, -, hfp, hbody⟩
  · exact silent_of_receipts_eq rfl
  split at hbody
  · cases hbody
    exact silent_of_receipts_eq rfl
  rename_i hguard
  split at hbody
  · cases hbody
    exact silent_of_receipts_eq rfl
  split at hbody
  · cases hbody
  rename_i s₁ count hupd
  obtain ⟨hcount, hw⟩ := terminateSend_writes hupd hr hfp hguard
  rw [if_neg (by simp [hcount])] at hbody
  obtain ⟨rfl, -⟩ := answerWithRow_spec hbody
  exact hw.step_silent hr (Or.inr (terminated_entry rfl _ _ _ _)) rfl

theorem recover_step {ref : ReceiptRef} {unresolved uncertain : String} {now : Int}
    {resp : CommandResponse}
    (h : recoverUnresolvedCommandSend s ref unresolved uncertain now = .ok (s', resp)) :
    GrantLedger.Step s.ledger .silent s'.ledger := by
  unfold recoverUnresolvedCommandSend at h
  rcases withActiveReceipt_cases h with ⟨rfl, -⟩ | ⟨n, row, hr, -, -, hfp, hbody⟩
  · exact silent_of_receipts_eq rfl
  split at hbody
  · cases hbody
    exact silent_of_receipts_eq rfl
  rename_i hguard
  split at hbody
  · cases hbody
    exact silent_of_receipts_eq rfl
  split at hbody
  · cases hbody
  rename_i s₁ count hupd
  obtain ⟨hcount, hw⟩ := terminateSend_writes hupd hr hfp hguard
  rw [if_neg (by simp [hcount])] at hbody
  split at hbody
  · cases hbody
  rename_i s₂ hsub
  obtain ⟨rfl, -⟩ := answerWithRow_spec hbody
  exact (hw.of_receipts_eq (terminalizeTurnSubmission_receipts hsub)).step_silent hr
    (Or.inr (terminated_entry rfl _ _ _ _)) rfl

theorem finish_step {call : FinishCall} {resp : CommandResponse}
    (h : finishCommandRequest lib s call = .ok (s', resp)) :
    GrantLedger.Step s.ledger .silent s'.ledger := by
  unfold finishCommandRequest at h
  split at h
  · cases h
  rename_i hallowed
  split at h
  · cases h
  split at h
  · cases h
  split at h
  · cases h
  have hterminal : call.terminalState.isTerminal := by
    cases he : call.expectedState <;> cases ht : call.terminalState <;>
      simp_all [finishAllowed, ReceiptState.isTerminal]
  rcases withActiveReceipt_cases h with ⟨rfl, -⟩ | ⟨n, row, hr, -, -, hfp, hbody⟩
  · exact silent_of_receipts_eq rfl
  split at hbody
  · cases hbody
    exact silent_of_receipts_eq rfl
  split at hbody
  · cases hbody
    exact silent_of_receipts_eq rfl
  rename_i hstate howner
  simp only [not_or, not_not] at hstate howner
  split at hbody
  · cases hbody
  rename_i s₁ count hupd
  obtain ⟨hcount, hw⟩ := updateReceipts_row hupd hr (by simp [hstate, hfp, howner]) (by simp +contextual)
  rw [if_neg (by simp [hcount])] at hbody
  split at hbody
  · cases hbody
  split at hbody
  · cases hbody
  rename_i s₂ hsub
  obtain ⟨rfl, -⟩ := answerWithRow_spec hbody
  exact (hw.of_receipts_eq (terminalizeTurnSubmission_receipts hsub)).step_silent hr
    (Or.inr (terminated_entry hterminal _ _ _ _)) rfl

/-- Rows may close or go, as in a batch of cleanup. -/
structure Shrinks (s s' : CommandStore) : Prop where
  next_eq : s'.receipts.table.next = s.receipts.table.next
  row : ∀ n, s'.ledger.rows n = s.ledger.rows n ∨
    ∃ k p, s.ledger.rows n = some (k, p) ∧
      (s'.ledger.rows n = none ∨ s'.ledger.rows n = some (k, .closed))

lemma Shrinks.refl (s : CommandStore) : Shrinks s s := ⟨rfl, fun _ => Or.inl rfl⟩

lemma Shrinks.of_receipts_eq (h : s'.receipts = s.receipts) : Shrinks s s' :=
  ⟨by rw [h], fun n => Or.inl (by simp [CommandStore.ledger, h])⟩

lemma Shrinks.trans (a b c : CommandStore) (hab : Shrinks a b) (hbc : Shrinks b c) :
    Shrinks a c := by
  refine ⟨hbc.next_eq.trans hab.next_eq, fun n => ?_⟩
  rcases hbc.row n with h | ⟨k, p, hb, h⟩
  · rw [h]
    exact hab.row n
  · right
    rcases hab.row n with ha | ⟨k', p', ha, hb' | hb'⟩
    · exact ⟨k, p, ha ▸ hb, h⟩
    · rw [hb] at hb'
      cases hb'
    · rw [hb] at hb'
      cases hb'
      exact ⟨k, p', ha, h⟩

lemma Shrinks.step (h : Shrinks s s') : GrantLedger.Step s.ledger .forgot s'.ledger := by
  refine ⟨Nat.le_of_eq h.next_eq.symm, fun n => ?_, by simp, by simp⟩
  rcases h.row n with he | ⟨k, p, ha, hb | hb⟩
  · rw [he]
    exact .keep _
  · rw [ha, hb]
    exact .forget _ _ rfl
  · rw [ha, hb]
    exact .close _ _

lemma closeStaleSend_shrinks {now : Int} (h : closeStaleSend now s n = .ok s') :
    Shrinks s s' := by
  unfold closeStaleSend at h
  split at h
  · cases h
  rename_i s₁ count hupd
  obtain ⟨ht, -⟩ := updateReceipts_spec hupd
  have hs₁ : Shrinks s s₁ := by
    refine ⟨by rw [ht]; rfl, fun m => ?_⟩
    simp only [CommandStore.ledger, Constrained.get?, ht, Table.get?_updateWhere]
    cases s.receipts.table.get? m with
    | none => exact Or.inl rfl
    | some r =>
      simp only [Option.map_some]
      split
      · exact Or.inr ⟨_, _, rfl, Or.inr (congrArg some (terminated_entry rfl _ _ _ _))⟩
      · exact Or.inl rfl
  split at h
  · cases h
    exact hs₁
  · exact hs₁.trans _ _ _ (Shrinks.of_receipts_eq (terminalizeTurnSubmission_receipts h))

lemma deleteReceipt_shrinks (now : Int) (s : CommandStore) (e : Nat × CommandReceipt) :
    Shrinks s (deleteReceipt now s e) := by
  refine ⟨rfl, fun m => ?_⟩
  simp only [CommandStore.ledger, deleteReceipt, Constrained.deleteWhere, Constrained.get?,
    Table.get?_deleteWhere]
  cases s.receipts.table.get? m with
  | none => exact Or.inl rfl
  | some r =>
    simp only [Option.filter_some]
    split
    · exact Or.inl rfl
    · exact Or.inr ⟨_, _, rfl, Or.inl rfl⟩

theorem cleanup_shrinks {c : CleanupCall} {result : CleanupResult}
    (h : cleanupCommandRequestRetention s c = .ok (s', result)) : Shrinks s s' := by
  unfold cleanupCommandRequestRetention at h
  split at h
  · unfold cleanupBatch at h
    dsimp only at h
    split at h
    · cases h
    rename_i s₁ hexpire
    split at h
    · cases h
    rename_i s₂ hclose
    have h₁ : Shrinks s s₁ := by
      split at hexpire
      · cases hexpire
        exact .refl _
      · exact .of_receipts_eq (expireTurnSubmissions_receipts hexpire)
    have h₂ : Shrinks s₁ s₂ := by
      split at hclose
      · cases hclose
        exact .refl _
      · exact Transition.foldlM_rel Shrinks.refl Shrinks.trans
          (fun _ _ _ => closeStaleSend_shrinks) _ hclose
    cases h
    split
    · exact .refl _
    · exact .trans _ _ _ (.trans _ _ _ h₁ h₂)
        (Transition.foldl_rel Shrinks.refl Shrinks.trans (deleteReceipt_shrinks c.now) _ _)
  · cases h
    exact .refl _

/-- Every call is a step of the ledger. -/
theorem commandStep_ledger (lib : CommandLibrary) (s : CommandStore) (call : CommandCall) :
    GrantLedger.Step s.ledger (grantOf lib call (commandStep lib s call).2)
      (commandStep lib s call).1.ledger := by
  have hraised : ∀ {α : Type} (answer : α → CommandAnswer) (body),
      (∀ s' a, body = .ok (s', a) →
        GrantLedger.Step s.ledger (grantOf lib call (answer a)) s'.ledger) →
      GrantLedger.Step s.ledger (grantOf lib call (transact s answer body).2)
        (transact s answer body).1.ledger := by
    intro α answer body hbody
    cases hb : body with
    | ok e => exact hbody e.1 e.2 hb
    | error e =>
      refine step_of_receipts_eq rfl ?_ ?_ <;> cases call <;> simp [transact, grantOf]
  cases call with
  | reserve call => exact hraised _ _ (fun s' resp h => (reserve_step h).1)
  | abandon ref token now => exact hraised _ _ (fun s' b h => abandon_step h)
  | replay call => exact hraised _ _ (fun s' resp h => replay_step h)
  | markSendStarted call => exact hraised _ _ (fun s' resp h => (mark_step h).1)
  | recordSendQueued ref token result now => exact hraised _ _ (fun s' resp h => queued_step h)
  | finishQueued ref queued accepted now =>
    exact hraised _ _ (fun s' resp h => finishQueued_step h)
  | finishUnverifiedQueued ref queued uncertain now =>
    exact hraised _ _ (fun s' resp h => finishUnverified_step h)
  | recoverUnresolved ref unresolved uncertain now =>
    exact hraised _ _ (fun s' resp h => recover_step h)
  | finish call => exact hraised _ _ (fun s' resp h => finish_step h)
  | cleanup call => exact hraised _ _ (fun s' result h => (cleanup_shrinks h).step)
  | rewriteSubmissions submissions => exact silent_of_receipts_eq rfl

end Refinement

/-! ### Runs -/

section Runs

variable (lib : CommandLibrary) (s : CommandStore) (calls : ℕ → CommandCall)

/-- Call `i` was answered `reserved`, with this token, for row `n` of the request. -/
def ReservedAt (i : ℕ) (key : String × String) (token : String) (n : Nat) : Prop :=
  ∃ call row, calls i = .reserve call ∧
    (commandMachine lib).answerAt s calls i = .response ⟨.reserved, some (n, row), some token⟩ ∧
    (row.hostId, row.requestId) = key

/-- Call `i` presented this token and was answered `send_started` for row `n` of the request. -/
def SendStartedAt (i : ℕ) (key : String × String) (token : String) (n : Nat) : Prop :=
  ∃ call row, calls i = .markSendStarted call ∧ call.ownerToken = token ∧
    (commandMachine lib).answerAt s calls i = .response ⟨.sendStarted, some (n, row), some token⟩ ∧
    (row.hostId, row.requestId) = key

/-- The tokens that a call draws or presents. -/
def CommandCall.ownerToken? : CommandCall → Option String
  | .reserve call => some call.ownerToken
  | .abandon _ token _ => some token
  | .markSendStarted call => some call.ownerToken
  | .recordSendQueued _ token _ _ => some token
  | .finish call => some call.ownerToken
  | _ => none

/-- What at-most-once send authority means for one request in one run. -/
structure SendAuthority (key : String × String) : Prop where
  /-- Between two starts, cleanup deletes the row of the first. -/
  once : ∀ i j n m token token', i < j → SendStartedAt lib s calls i key token n →
    SendStartedAt lib s calls j key token' m →
    ∃ t, i < t ∧ t < j ∧ (∃ call, calls t = .cleanup call) ∧
      ((commandMachine lib).stateAt s calls t).receipts.get? n ≠ none ∧
      ((commandMachine lib).stateAt s calls (t + 1)).receipts.get? n = none
  /-- The starter's token is that of the last reservation, which may precede the run. -/
  holder : ∀ j n token, SendStartedAt lib s calls j key token n →
    (∃ i, i < j ∧ ReservedAt lib s calls i key token n ∧
      ∀ t, i < t → t < j → ∀ token' m, ¬ReservedAt lib s calls t key token' m) ∨
    ((∃ row, s.receipts.get? n = some row ∧ (row.hostId, row.requestId) = key ∧
        row.state = .reserved ∧ row.ownerTokenHash = ownerTokenHash lib token) ∧
      ∀ t, t < j → ∀ token' m, ¬ReservedAt lib s calls t key token' m)
  /-- A row that was seen started is never reserved again. -/
  noReservation : ∀ i j n row token, i ≤ j →
    ((commandMachine lib).stateAt s calls i).receipts.get? n = some row →
    row.state = .sendStarted → ¬ReservedAt lib s calls j key token n

variable {lib s calls}

lemma run_ledger (i : ℕ) : GrantLedger.Step ((commandMachine lib).stateAt s calls i).ledger
    (grantOf lib (calls i) ((commandMachine lib).answerAt s calls i))
    ((commandMachine lib).stateAt s calls (i + 1)).ledger :=
  commandStep_ledger lib _ _

lemma transact_response {body : Except StoreError (CommandStore × CommandResponse)}
    {resp : CommandResponse} (h : (transact s .response body).2 = .response resp) :
    ∃ s', body = .ok (s', resp) ∧ (transact s .response body).1 = s' := by
  unfold transact at h ⊢
  split at h
  · cases h
    exact ⟨_, rfl, rfl⟩
  · cases h

theorem ReservedAt.spec {i : ℕ} {key : String × String} {token : String} {n : Nat}
    (h : ReservedAt lib s calls i key token n) :
    (calls i).ownerToken? = some token ∧
      grantOf lib (calls i) ((commandMachine lib).answerAt s calls i) =
        .reserved n (ownerTokenHash lib token) ∧
      ∃ p, ((commandMachine lib).stateAt s calls (i + 1)).ledger.rows n = some (key, p) := by
  obtain ⟨call, row, hcall, hanswer, hkey⟩ := h
  have hstep := hanswer
  simp only [Transition.Machine.answerAt, commandMachine, commandStep, hcall] at hstep
  obtain ⟨s', hbody, hs'⟩ := transact_response hstep
  obtain ⟨n', row', hresp, hrow'⟩ := (reserve_step hbody).2 rfl
  simp only [CommandResponse.mk.injEq, Option.some.injEq, Prod.mk.injEq, true_and] at hresp
  obtain ⟨⟨rfl, rfl⟩, rfl⟩ := hresp
  refine ⟨by rw [hcall]; rfl, by rw [hcall, hanswer]; rfl, row.phase, ?_⟩
  have hnext : (commandMachine lib).stateAt s calls (i + 1) = s' := by
    simp only [Transition.Machine.stateAt, commandMachine, commandStep, hcall]
    exact hs'
  rw [hnext, ledger_rows hrow', CommandReceipt.entry, hkey]

theorem SendStartedAt.spec {i : ℕ} {key : String × String} {token : String} {n : Nat}
    (h : SendStartedAt lib s calls i key token n) :
    (calls i).ownerToken? = some token ∧
      grantOf lib (calls i) ((commandMachine lib).answerAt s calls i) =
        .started n (ownerTokenHash lib token) ∧
      ∃ w, ((commandMachine lib).stateAt s calls i).ledger.rows n = some (key, .reserved w) ∧
        w = ownerTokenHash lib token := by
  obtain ⟨call, row, hcall, htoken, hanswer, hkey⟩ := h
  have hgrant : grantOf lib (calls i) ((commandMachine lib).answerAt s calls i) =
      .started n (ownerTokenHash lib token) := by
    rw [hcall, hanswer, ← htoken]
    rfl
  refine ⟨by rw [hcall, ← htoken]; rfl, hgrant, _, ?_, rfl⟩
  obtain ⟨k, hk, hk'⟩ := (run_ledger i).started n _ hgrant
  have hstep := hanswer
  simp only [Transition.Machine.answerAt, commandMachine, commandStep, hcall] at hstep
  obtain ⟨s', hbody, hs'⟩ := transact_response hstep
  obtain ⟨n', row', hresp, hrow'⟩ := (mark_step hbody).2 rfl
  simp only [CommandResponse.mk.injEq, Option.some.injEq, Prod.mk.injEq, true_and] at hresp
  obtain ⟨⟨rfl, rfl⟩, -⟩ := hresp
  have hnext : (commandMachine lib).stateAt s calls (i + 1) = s' := by
    simp only [Transition.Machine.stateAt, commandMachine, commandStep, hcall]
    exact hs'
  rw [hnext, ledger_rows hrow'] at hk'
  have hkk : k = key := by
    rw [← hkey]
    exact (congrArg Prod.fst (Option.some.inj hk')).symm
  rw [hk, hkk]

/-- A granted reservation with this owner hash is an answer that gave out its token. -/
theorem reservedAt_of_grant {i : ℕ} {key : String × String} {n : Nat} {w : String}
    {p : Phase String}
    (h : grantOf lib (calls i) ((commandMachine lib).answerAt s calls i) = .reserved n w)
    (hrow : ((commandMachine lib).stateAt s calls (i + 1)).ledger.rows n = some (key, p)) :
    ∃ token, (calls i).ownerToken? = some token ∧ ownerTokenHash lib token = w ∧
      ReservedAt lib s calls i key token n := by
  unfold grantOf at h
  split at h
  · rename_i call m row token hcall hanswer
    cases h
    have hstep := hanswer
    simp only [Transition.Machine.answerAt, commandMachine, commandStep, hcall] at hstep
    obtain ⟨s', hbody, hs'⟩ := transact_response hstep
    obtain ⟨n', row', hresp, hrow'⟩ := (reserve_step hbody).2 rfl
    simp only [CommandResponse.mk.injEq, Option.some.injEq, Prod.mk.injEq, true_and] at hresp
    obtain ⟨⟨rfl, rfl⟩, rfl⟩ := hresp
    have hnext : (commandMachine lib).stateAt s calls (i + 1) = s' := by
      simp only [Transition.Machine.stateAt, commandMachine, commandStep, hcall]
      exact hs'
    rw [hnext, ledger_rows hrow'] at hrow
    refine ⟨call.ownerToken, by rw [hcall]; rfl, rfl, call, row, hcall, hanswer, ?_⟩
    exact congrArg Prod.fst (Option.some.inj hrow)
  all_goals cases h

end Runs

/-- At most one start per receipt row, for the last reservation's holder only, and no
reservation of a started row, in every interleaving of the calls and for every clock. -/
theorem sendAuthority_of_run (lib : CommandLibrary) (s : CommandStore) (calls : ℕ → CommandCall)
    (host request : String)
    (hcollision : ∀ i j a b, (calls i).ownerToken? = some a → (calls j).ownerToken? = some b →
      ownerTokenHash lib a = ownerTokenHash lib b → a = b) :
    SendAuthority lib s calls (host, request) := by
  have hrun : ∀ i, GrantLedger.Step ((commandMachine lib).stateAt s calls i).ledger _
      ((commandMachine lib).stateAt s calls (i + 1)).ledger := run_ledger
  refine ⟨?_, ?_, ?_⟩
  · intro i j n m token token' hij hi hj
    obtain ⟨-, hgi, w, hki, -⟩ := hi.spec
    obtain ⟨-, hgj, w', hkj, -⟩ := hj.spec
    obtain ⟨t, hit, htj, hforgot, ⟨r, hr⟩, hgone⟩ :=
      GrantLedger.forgot_between_starts hrun hij hgi hgj hki hkj
    refine ⟨t, hit, htj, ?_, ?_, ?_⟩
    · unfold grantOf at hforgot
      split at hforgot <;> first | exact ⟨_, ‹_›⟩ | cases hforgot
    · intro hnone
      simp [CommandStore.ledger, hnone] at hr
    · simpa [CommandStore.ledger] using hgone
  · intro j n token hj
    obtain ⟨htoken, -, w, hkj, rfl⟩ := hj.spec
    have hno : ∀ t, (∀ m w' p,
        grantOf lib (calls t) ((commandMachine lib).answerAt s calls t) = .reserved m w' →
          ((commandMachine lib).stateAt s calls (t + 1)).ledger.rows m ≠ some ((host, request), p)) →
        ∀ token' m, ¬ReservedAt lib s calls t (host, request) token' m := by
      intro t ht token' m hres
      obtain ⟨-, hgrant, p, hp⟩ := hres.spec
      exact ht _ _ p hgrant hp
    rcases GrantLedger.reservation_origin hrun j hkj with
      ⟨i, hij, hgrant, hk, hsince⟩ | ⟨h0, hsince⟩
    · obtain ⟨token', htoken', hhash, hres⟩ := reservedAt_of_grant hgrant hk
      rw [hcollision _ _ _ _ htoken' htoken hhash] at hres
      exact Or.inl ⟨i, hij, hres, fun t hit htj => hno t (hsince t hit htj)⟩
    · obtain ⟨row, hrow, hentry⟩ := Option.map_eq_some_iff.mp h0
      refine Or.inr ⟨⟨row, hrow, congrArg Prod.fst hentry, ?_⟩, fun t ht => hno t (hsince t ht)⟩
      exact CommandReceipt.phase_eq_reserved (congrArg Prod.snd hentry)
  · intro i j n row token hij hrow hstate hres
    obtain ⟨-, hgrant, -⟩ := hres.spec
    refine GrantLedger.not_reserved_of_spent hrun hij ⟨Table.get?_lt_next hrow, ?_⟩ _ hgrant
    intro k w hk
    rw [ledger_rows hrow] at hk
    simp [CommandReceipt.entry, CommandReceipt.phase, hstate] at hk

/-- Reserve a request, start its send, then only clean up. -/
def reserveThenStart : ℕ → CommandCall
  | 0 => .reserve
    { request :=
        { hostId := "host", requestId := "request", action := "send_instruction",
          canonicalVersion := 1, canonicalFingerprint := "fingerprint",
          canonicalRequestJson := "\x7b\x7d", publicWorkerId := "worker", selectorProof := "",
          legacyRawPayloadFingerprint := none }
      pendingResultJson := "\x7b\x7d", ownerLeaseMicroseconds := 30000000,
      ownerToken := "token", now := 100 }
  | 1 => .markSendStarted
    { ref := ⟨"host", "request", "fingerprint"⟩, ownerToken := "token",
      bindingFingerprint := "binding", submission := none, effectRaises := false, now := 200 }
  | _ => .cleanup
    { retryHorizonSeconds := 604800, retentionSeconds := 2592000, retentionCount := 4096,
      hostId := none, dryRun := false, batchSize := 100, now := 300 }

/-- The start is granted although the lease of the reservation has expired. -/
theorem sendAuthority_of_reserveThenStart :
    SendStartedAt ⟨id, fun _ => true⟩ .empty reserveThenStart 1 ("host", "request") "token" 1 ∧
      SendAuthority ⟨id, fun _ => true⟩ .empty reserveThenStart ("host", "request") := by
  refine ⟨⟨_, _, rfl, rfl, rfl, rfl⟩, sendAuthority_of_run _ _ _ _ _ ?_⟩
  have htoken : ∀ i a, (reserveThenStart i).ownerToken? = some a → a = "token" := by
    intro i a h
    match i with
    | 0 => exact (Option.some.inj h).symm
    | 1 => exact (Option.some.inj h).symm
    | _ + 2 => cases h
  intro i j a b ha hb _
  rw [htoken i a ha, htoken j b hb]

end Tendwire

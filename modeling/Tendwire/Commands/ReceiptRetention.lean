import Tendwire.Commands.LedgerRuns
import Tendwire.Relational.Weight

/-!
# What receipt retention deletes

A call closes the stale sends of its batch first. The rows it then deletes were inactive before
it, older than the retention age and not among the newest of their host.
-/

namespace Tendwire

open Relational Transition

variable {s s' : CommandStore} {c : CleanupCall}

/-! ### The closing of stale sends -/

/-- A row is as it was, or it is a send that the call closed. -/
def ClosedFrom (c : CleanupCall) (r r' : CommandReceipt) : Prop :=
  r' = r ∨ r.state = .sendStarted ∧
    r.sendStartedAt.getD r.updatedAt < c.now - c.retryHorizonSeconds ∧
    r' = r.terminated .uncertain "request_state_uncertain" commandRequestUncertainResultJson c.now

/-- The table on which a call decides what it deletes. -/
structure ClosesStale (c : CleanupCall) (s s' : CommandStore) : Prop where
  row : ∀ n r, s.receipts.get? n = some r → ∃ r', s'.receipts.get? n = some r' ∧ ClosedFrom c r r'
  old : ∀ n r', s'.receipts.get? n = some r' → ∃ r, s.receipts.get? n = some r ∧ ClosedFrom c r r'

lemma ClosesStale.refl (c : CleanupCall) (s : CommandStore) : ClosesStale c s s :=
  ⟨fun _ r hr => ⟨r, hr, .inl rfl⟩, fun _ r hr => ⟨r, hr, .inl rfl⟩⟩

lemma ClosesStale.of_receipts_eq (h : s'.receipts = s.receipts) : ClosesStale c s s' := by
  refine ⟨fun n r hr => ⟨r, ?_, .inl rfl⟩, fun n r hr => ⟨r, ?_, .inl rfl⟩⟩
  · rw [h]
    exact hr
  · rw [← h]
    exact hr

lemma closedFrom_trans {r r' r'' : CommandReceipt} (h : ClosedFrom c r r')
    (h' : ClosedFrom c r' r'') : ClosedFrom c r r'' := by
  rcases h with rfl | ⟨hstate, hold, rfl⟩
  · exact h'
  · rcases h' with rfl | ⟨hstate', -⟩
    · exact .inr ⟨hstate, hold, rfl⟩
    · cases hstate'

lemma ClosesStale.trans {s'' : CommandStore} (h : ClosesStale c s s')
    (h' : ClosesStale c s' s'') : ClosesStale c s s'' := by
  refine ⟨fun n r hr => ?_, fun n r hr => ?_⟩
  · obtain ⟨r', hr', hclosed⟩ := h.row n r hr
    obtain ⟨r'', hr'', hclosed'⟩ := h'.row n r' hr'
    exact ⟨r'', hr'', closedFrom_trans hclosed hclosed'⟩
  · obtain ⟨r', hr', hclosed'⟩ := h'.old n r hr
    obtain ⟨r₀, hr₀, hclosed⟩ := h.old n r' hr'
    exact ⟨r₀, hr₀, closedFrom_trans hclosed hclosed'⟩

/-- A row of the batch is stale, then and when its turn comes. -/
lemma closesStale_closeStaleSend {n : Nat}
    (hstale : ∀ r, s.receipts.get? n = some r → r.state = .sendStarted →
      r.sendStartedAt.getD r.updatedAt < c.now - c.retryHorizonSeconds)
    (h : closeStaleSend c.now s n = .ok s') : ClosesStale c s s' := by
  unfold closeStaleSend at h
  split at h
  · cases h
  · next s₁ count hupd =>
    obtain ⟨ht, -⟩ := updateReceipts_spec hupd
    have hget : ∀ m, s₁.receipts.get? m = (s.receipts.get? m).map fun r =>
        if m == n && r.state == .sendStarted then
          r.terminated .uncertain "request_state_uncertain" commandRequestUncertainResultJson c.now
        else r := by
      intro m
      rw [Constrained.get?, ht, Table.get?_updateWhere]
      rfl
    have hclosed : ∀ m r, s.receipts.get? m = some r → ClosedFrom c r
        (if m == n && r.state == .sendStarted then
          r.terminated .uncertain "request_state_uncertain" commandRequestUncertainResultJson c.now
        else r) := by
      intro m r hr
      split
      · next hc =>
        simp only [Bool.and_eq_true, beq_iff_eq] at hc
        exact .inr ⟨hc.2, hstale r (hc.1 ▸ hr) hc.2, rfl⟩
      · exact .inl rfl
    have hs₁ : ClosesStale c s s₁ := by
      refine ⟨fun m r hr => ?_, fun m r' hr' => ?_⟩
      · exact ⟨_, by rw [hget, hr]; rfl, hclosed m r hr⟩
      · rw [hget] at hr'
        obtain ⟨r, hr, rfl⟩ := Option.map_eq_some_iff.mp hr'
        exact ⟨r, hr, hclosed m r hr⟩
    split at h
    · cases h
      exact hs₁
    · exact hs₁.trans (.of_receipts_eq (terminalizeTurnSubmission_receipts h))

lemma closesStale_closeStaleSends {ids : List Nat}
    (hstale : ∀ n ∈ ids, ∀ r, s.receipts.get? n = some r →
      r.sendStartedAt.getD r.updatedAt < c.now - c.retryHorizonSeconds)
    (h : ids.foldlM (closeStaleSend c.now) s = .ok s') : ClosesStale c s s' := by
  refine foldlM_invariant (P := ClosesStale c s) (fun t n t' hn ht hstep => ?_) (.refl c s) h
  refine ht.trans (closesStale_closeStaleSend (fun r hr hstate => ?_) hstep)
  obtain ⟨r₀, hr₀, rfl | ⟨-, -, rfl⟩⟩ := ht.old n r hr
  · exact hstale n hn _ hr₀
  · cases hstate

/-- What a valid call does: it expires submissions, closes stale sends, and then deletes
candidates. -/
theorem cleanup_cases {result : CleanupResult}
    (h : cleanupCommandRequestRetention s c = .ok (s', result)) :
    s' = s ∨ c.valid = true ∧ ∃ s₁ s₂, expireTurnSubmissions s c.hostId c.now = .ok s₁ ∧
      (((staleRows s₁ c).take c.batchSize.toNat).map Prod.fst).foldlM (closeStaleSend c.now) s₁ =
        .ok s₂ ∧
      ∃ selected : List (Nat × CommandReceipt), (∀ e ∈ selected, e ∈ deletionCandidates s₂ c) ∧
        s' = selected.foldl (deleteReceipt c.now) s₂ := by
  unfold cleanupCommandRequestRetention at h
  split at h
  · next hvalid =>
    unfold cleanupBatch at h
    dsimp only at h
    split at h
    · cases h
    · next s₁ hexpire =>
      split at h
      · cases h
      · next s₂ hclose =>
        obtain ⟨rfl, -⟩ := Prod.mk.inj (Except.ok.inj h)
        cases hdry : c.dryRun with
        | true => exact .inl rfl
        | false =>
          rw [hdry] at hexpire hclose
          refine .inr ⟨hvalid, s₁, s₂, hexpire, hclose, _, fun e he => ?_, rfl⟩
          split at he
          · exact List.mem_of_mem_take he
          · cases he
  · obtain ⟨rfl, -⟩ := Prod.mk.inj (Except.ok.inj h)
    exact .inl rfl

lemma closesStale_batch {s₁ s₂ : CommandStore} (hvalid : c.valid = true)
    (hexpire : expireTurnSubmissions s c.hostId c.now = .ok s₁)
    (hclose : (((staleRows s₁ c).take c.batchSize.toNat).map Prod.fst).foldlM
      (closeStaleSend c.now) s₁ = .ok s₂) : ClosesStale c s s₂ := by
  have hs₁ : ClosesStale c s s₁ := .of_receipts_eq (expireTurnSubmissions_receipts hexpire)
  refine hs₁.trans (closesStale_closeStaleSends (fun n hn r hr => ?_) hclose)
  obtain ⟨e, he, rfl⟩ := List.mem_map.mp hn
  have hmem := List.mem_of_mem_take (List.mem_of_mem_take he)
  obtain ⟨hget, hc⟩ := Table.mem_select.mp ((List.mem_insertionSort _).mp hmem)
  obtain rfl := Option.some.inj (hr.symm.trans hget)
  simp only [Bool.and_eq_true, decide_eq_true_eq, CleanupCall.baseResult, hvalid, if_true] at hc
  exact hc.1.2

/-! ### The deletions -/

/-- The inactive rows of the host that are newer than a row. -/
def newerInactive (s : CommandStore) (now : Int) (n : Nat) (r : CommandReceipt) : Nat :=
  (s.receipts.table.select fun m r' => r'.inactive now && r'.hostId == r.hostId &&
    CommandReceipt.retainedBefore (m, r') (n, r)).length

lemma deletionCandidates_spec {n : Nat} {r : CommandReceipt} (hvalid : c.valid = true)
    (h : (n, r) ∈ deletionCandidates s c) :
    s.receipts.get? n = some r ∧ r.inactive c.now = true ∧
      r.retentionAt < c.now - c.retentionSeconds ∧
      c.retentionCount ≤ (newerInactive s c.now n r : Int) := by
  obtain ⟨hselect, hc⟩ := List.mem_filter.mp ((List.mem_insertionSort _).mp h)
  obtain ⟨hget, hinactive⟩ := Table.mem_select.mp hselect
  simp only [Bool.and_eq_true, decide_eq_true_eq, CleanupCall.baseResult, hvalid, if_true] at hc
  rw [Bool.and_eq_true] at hinactive
  refine ⟨hget, hinactive.1, hc.1, ?_⟩
  have hcount : retentionRank (s.receipts.table.select fun _ r => r.inactive c.now &&
      c.hostId.all fun host => r.hostId == host) (n, r) = newerInactive s c.now n r + 1 := by
    unfold retentionRank newerInactive Table.select
    rw [List.filter_filter]
    congr 2
    refine List.filter_congr fun e _ => ?_
    rw [Bool.eq_iff_iff]
    simp only [Bool.and_eq_true, beq_iff_eq]
    constructor
    · exact fun ⟨⟨hhost, hbefore⟩, hi, _⟩ => ⟨⟨hi, hhost⟩, hbefore⟩
    · exact fun ⟨⟨hi, hhost⟩, hbefore⟩ => ⟨⟨hhost, hbefore⟩, hi, hhost ▸ hinactive.2⟩
  have hrank := hc.2
  rw [hcount] at hrank
  omega

lemma foldl_deleteReceipt_get? {selected : List (Nat × CommandReceipt)} {n : Nat}
    {r : CommandReceipt} (hr : s.receipts.get? n = some r)
    (hgone : (selected.foldl (deleteReceipt c.now) s).receipts.get? n = none) :
    ∃ e ∈ selected, e.1 = n := by
  by_contra hne
  push Not at hne
  have hkept : (selected.foldl (deleteReceipt c.now) s).receipts.get? n = some r := by
    refine foldl_invariant (P := fun t : CommandStore => t.receipts.get? n = some r)
      (fun t e he ht => ?_) hr
    unfold deleteReceipt
    dsimp only
    rw [Constrained.get?_deleteWhere, ht, Option.filter_some, if_pos]
    have hid := hne e he
    simp [Ne.symm hid]
  rw [hkept] at hgone
  cases hgone

/-- A row that a call deletes was neither started nor reserved under a lease, and it was beyond
both bounds in the table whose stale sends the call had closed. -/
theorem deleted_of_cleanup {result : CleanupResult}
    (h : cleanupCommandRequestRetention s c = .ok (s', result)) {n : Nat} {r : CommandReceipt}
    (hr : s.receipts.get? n = some r) (hgone : s'.receipts.get? n = none) :
    r.inactive c.now = true ∧ r.retentionAt < c.now - c.retentionSeconds ∧
      ∃ closed, ClosesStale c s closed ∧
        c.retentionCount ≤ (newerInactive closed c.now n r : Int) := by
  obtain rfl | ⟨hvalid, s₁, s₂, hexpire, hclose, selected, hselected, rfl⟩ := cleanup_cases h
  · rw [hr] at hgone
    cases hgone
  · have hcloses := closesStale_batch hvalid hexpire hclose
    obtain ⟨r', hr', hclosed⟩ := hcloses.row n r hr
    obtain ⟨⟨m, r''⟩, he, rfl⟩ := foldl_deleteReceipt_get? hr' hgone
    obtain ⟨hget, hinactive, hage, hcount⟩ := deletionCandidates_spec hvalid (hselected _ he)
    obtain rfl := Option.some.inj (hr'.symm.trans hget)
    rcases hclosed with rfl | ⟨-, -, rfl⟩
    · exact ⟨hinactive, hage, s₂, hcloses, hcount⟩
    · -- a send closed now is as young as the call
      have hpos : 0 < c.retentionSeconds := by
        simp only [CleanupCall.valid, decide_eq_true_eq] at hvalid
        exact hvalid.2.1
      simp only [CommandReceipt.retentionAt, CommandReceipt.terminated, Option.getD_some] at hage
      omega

/-! ### Rest -/

def CommandReceipt.weight (r : CommandReceipt) : Nat := if r.state == .sendStarted then 2 else 1

def SubmissionState.weight : SubmissionState → Nat
  | .sendStarted => 3
  | .submitted | .uncertain => 2
  | .linked | .ambiguous | .expired | .cancelled => 1

/-- What closing and deleting can still take from a store. -/
def CommandStore.weight (s : CommandStore) : Nat :=
  s.receipts.table.weight CommandReceipt.weight + s.submissions.table.weight (·.state.weight)

/-- Nothing changed, or the store lost weight. -/
def Lessens (s s' : CommandStore) : Prop := s' = s ∨ s'.weight < s.weight

lemma Lessens.refl (s : CommandStore) : Lessens s s := .inl rfl

lemma Lessens.trans {s'' : CommandStore} (h : Lessens s s') (h' : Lessens s' s'') :
    Lessens s s'' := by
  rcases h with rfl | hlt
  · exact h'
  · rcases h' with rfl | hlt'
    · exact .inr hlt
    · exact .inr (hlt'.trans hlt)

lemma CommandStore.eq_of_eq (hrec : s'.receipts = s.receipts)
    (hsub : s'.submissions = s.submissions) : s' = s := by
  cases s
  cases s'
  cases hrec
  cases hsub
  rfl

lemma lessens_of_receipts (hsub : s'.submissions = s.submissions)
    (h : s'.receipts.table = s.receipts.table ∨
      s'.receipts.table.weight CommandReceipt.weight <
        s.receipts.table.weight CommandReceipt.weight) : Lessens s s' := by
  rcases h with heq | hlt
  · exact .inl (CommandStore.eq_of_eq (Constrained.eq_of_table_eq heq) hsub)
  · right
    unfold CommandStore.weight
    rw [hsub]
    omega

lemma lessens_of_submissions (hrec : s'.receipts = s.receipts)
    (h : s'.submissions.table = s.submissions.table ∨
      s'.submissions.table.weight (·.state.weight) <
        s.submissions.table.weight (·.state.weight)) : Lessens s s' := by
  rcases h with heq | hlt
  · exact .inl (CommandStore.eq_of_eq hrec (Constrained.eq_of_table_eq heq))
  · right
    unfold CommandStore.weight
    rw [hrec]
    omega

lemma lessens_updateSubmissions {p : Nat → TurnSubmission → Bool}
    {f : TurnSubmission → TurnSubmission} {count : Nat}
    (hf : ∀ n t, s.submissions.get? n = some t → p n t = true →
      (f t).state.weight < t.state.weight)
    (h : s.updateSubmissions p f = .ok (s', count)) : Lessens s s' := by
  obtain ⟨ht, hrec, -⟩ := updateSubmissions_spec h
  refine lessens_of_submissions hrec ?_
  rw [ht]
  exact Table.weight_updateWhere hf

/-- Submissions only move to states of less weight. -/
lemma weight_of_next {state state' : SubmissionState} (h : state' ∈ state.next) :
    state'.weight < state.weight := by
  cases state <;> cases state' <;> revert h <;> decide

lemma lessens_expire {hostId : Option String} {now : Int}
    (h : expireTurnSubmissions s hostId now = .ok s') : Lessens s s' := by
  unfold expireTurnSubmissions at h
  split at h
  · cases h
  · next s₁ count hupd =>
    obtain rfl := Except.ok.inj h
    refine lessens_updateSubmissions (fun n t _ hc => ?_) hupd
    simp only [Bool.and_eq_true, List.contains_iff_mem] at hc
    exact weight_of_next hc.1.1.2

lemma lessens_terminalize {hostId requestId : String} {state : ReceiptState} {now : Int}
    (h : terminalizeTurnSubmission s hostId requestId state now = .ok s') : Lessens s s' := by
  unfold terminalizeTurnSubmission at h
  split at h
  · exact .inl (Except.ok.inj h).symm
  · split at h
    · exact .inl (Except.ok.inj h).symm
    · next nextState _ ledger hledger =>
      split at h
      · exact .inl (Except.ok.inj h).symm
      · next hnext =>
        split at h
        · cases h
        · next s₁ count hupd =>
          split at h
          · cases h
          · obtain rfl := Except.ok.inj h
            refine lessens_updateSubmissions (fun n t _ hc => ?_) hupd
            simp only [Bool.and_eq_true, beq_iff_eq] at hc
            rw [hc.2]
            exact weight_of_next (not_not.mp hnext)

lemma lessens_closeStaleSend {now : Int} {n : Nat} (h : closeStaleSend now s n = .ok s') :
    Lessens s s' := by
  unfold closeStaleSend at h
  split at h
  · cases h
  · next s₁ count hupd =>
    have hs₁ : Lessens s s₁ := by
      refine lessens_of_receipts (updateReceipts_submissions hupd) ?_
      rw [(updateReceipts_spec hupd).1]
      refine Table.weight_updateWhere fun m r _ hc => ?_
      simp only [Bool.and_eq_true] at hc
      unfold CommandReceipt.weight
      rw [if_pos hc.2]
      exact Nat.lt_succ_self 1
    split at h
    · obtain rfl := Except.ok.inj h
      exact hs₁
    · exact hs₁.trans (lessens_terminalize h)

lemma lessens_deleteReceipt (now : Int) (s : CommandStore) (e : Nat × CommandReceipt) :
    Lessens s (deleteReceipt now s e) := by
  let s₁ : CommandStore := { s with
    receipts := s.receipts.deleteWhere fun m r => m == e.1 && r.inactive now }
  have hpos : ∀ r : CommandReceipt, 0 < r.weight := by
    intro r
    unfold CommandReceipt.weight
    split <;> decide
  have hpos' : ∀ t : TurnSubmission, 0 < t.state.weight := by
    intro t
    cases t.state <;> decide
  have hreceipts : Lessens s s₁ :=
    lessens_of_receipts rfl (s.receipts.weight_deleteWhere _ hpos)
  have hsubmissions : Lessens s₁ (deleteReceipt now s e) :=
    lessens_of_submissions rfl (s.submissions.weight_deleteWhere _ hpos')
  exact hreceipts.trans hsubmissions

theorem lessens_cleanup {result : CleanupResult}
    (h : cleanupCommandRequestRetention s c = .ok (s', result)) : Lessens s s' := by
  obtain rfl | ⟨-, s₁, s₂, hexpire, hclose, selected, -, rfl⟩ := cleanup_cases h
  · exact .refl _
  · have hclosed : Lessens s₁ s₂ := foldlM_rel Lessens.refl (fun _ _ _ h h' => h.trans h')
      (fun _ _ _ h => lessens_closeStaleSend h) _ hclose
    have hdeleted : Lessens s₂ (selected.foldl (deleteReceipt c.now) s₂) :=
      foldl_rel Lessens.refl (fun _ _ _ h h' => h.trans h')
        (fun s e => lessens_deleteReceipt c.now s e) selected s₂
    exact ((lessens_expire hexpire).trans hclosed).trans hdeleted

/-- Receipt retention in any store: a deleted row was terminal or an expired reservation, beyond
the age bound and the count bound, and calls with the same arguments come to rest. -/
theorem receiptRetention_safe (lib : CommandLibrary) (s : CommandStore) (c : CleanupCall) :
    (∀ n r, s.receipts.get? n = some r →
      (commandStep lib s (.cleanup c)).1.receipts.get? n = none →
        r.state ≠ .sendStarted ∧
        (r.state = .reserved → ∃ expiresAt, r.ownerExpiresAt = some expiresAt ∧
          expiresAt ≤ c.now) ∧
        r.retentionAt < c.now - c.retentionSeconds ∧
        ∃ closed, ClosesStale c s closed ∧
          c.retentionCount ≤ (newerInactive closed c.now n r : Int)) ∧
    ∃ k, (commandStep lib ((fun t => (commandStep lib t (.cleanup c)).1)^[k] s) (.cleanup c)).1 =
      (fun t => (commandStep lib t (.cleanup c)).1)^[k] s := by
  refine ⟨fun n r hr hgone => ?_, exists_iterate_rest (m := CommandStore.weight)
    (f := fun t => (commandStep lib t (.cleanup c)).1) (fun t => ?_) s⟩
  · unfold commandStep transact at hgone
    dsimp only at hgone
    split at hgone
    · next s' result h =>
      obtain ⟨hinactive, hage, hcount⟩ := deleted_of_cleanup h hr hgone
      refine ⟨fun hstate => ?_, fun hstate => ?_, hage, hcount⟩
      · simp [CommandReceipt.inactive, hstate, ReceiptState.isTerminal] at hinactive
      · simp only [CommandReceipt.inactive, hstate, ReceiptState.isTerminal, Bool.false_or,
          beq_self_eq_true, Bool.true_and] at hinactive
        obtain ⟨expiresAt, hexpires, hle⟩ := (Option.any_eq_true _ _).mp hinactive
        exact ⟨expiresAt, hexpires, by simpa using hle⟩
    · rw [hr] at hgone
      cases hgone
  · unfold commandStep transact
    dsimp only
    split
    · next s' result h => exact lessens_cleanup h
    · exact .inl rfl

/-- Two requests of a host that were rejected before their sends started. -/
def rejectedStore : CommandStore :=
  [("first", 10), ("second", 20)].foldl (fun s e =>
    let s₁ := (commandStep ⟨id, fun _ => true⟩ s (sampleReserve e.1 e.2)).1
    (commandStep ⟨id, fun _ => true⟩ s₁ (.finish
      { ref := ⟨"host", e.1, e.1⟩, ownerToken := "token", expectedState := .reserved,
        terminalState := .rejected, status := "backend_unavailable",
        resultJson := "\x7b\x7d", effectRaises := false, now := e.2 })).1) .empty

def sampleCleanup : CleanupCall where
  retryHorizonSeconds := 1
  retentionSeconds := commandReceiptRetentionMinSeconds
  retentionCount := 1
  hostId := none
  now := commandReceiptRetentionMinSeconds + 100
  dryRun := false
  batchSize := 5

/-- The older of two rejected rows is deleted. -/
theorem receiptRetention_ofRejected :
    (rejectedStore.receipts.get? 1).isSome = true ∧
      (commandStep ⟨id, fun _ => true⟩ rejectedStore (.cleanup sampleCleanup)).1.receipts.get? 1 =
        none ∧
      (∃ r, rejectedStore.receipts.get? 1 = some r ∧ r.state ≠ .sendStarted ∧
        r.retentionAt < 100) := by
  have hsome : (rejectedStore.receipts.get? 1).isSome = true := by decide +kernel
  have hgone : (commandStep ⟨id, fun _ => true⟩ rejectedStore
      (.cleanup sampleCleanup)).1.receipts.get? 1 = none := by decide +kernel
  obtain ⟨r, hr⟩ := Option.isSome_iff_exists.mp hsome
  obtain ⟨hstate, -, hage, -⟩ :=
    (receiptRetention_safe ⟨id, fun _ => true⟩ rejectedStore sampleCleanup).1 1 r hr hgone
  refine ⟨hsome, hgone, r, hr, hstate, ?_⟩
  simpa [sampleCleanup] using hage

end Tendwire

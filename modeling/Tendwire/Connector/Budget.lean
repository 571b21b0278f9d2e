import Mathlib.Data.List.Range
import Tendwire.Connector.Attempts
import Tendwire.Connector.Coverage
import Tendwire.Connector.Identity

/-!
# The attempt budget

A poll first gives up the rows that have used up their attempts and then grants one attempt to
each row that it leases. Along every run this bounds the attempts of a retry window and adds up
to all that were ever granted.
-/

namespace Tendwire.Connector

open Relational Transition

/-- The call polls, if at all, with a limit of at most `m` attempts. -/
def Call.limits (m : Nat) : Call → Bool
  | .poll req _ => req.maxAttempts.any fun limit => decide (max 1 limit ≤ (m : Int))
  | _ => true

namespace Store

variable {s s' : Store} {now : Int} {m : Nat} {granted : Nat → Nat} {back : Nat → Bool}

/-! ### Attempts in use -/

lemma foldl_max_range' (n : Nat) : (List.range' 1 n).foldl max 0 = n := by
  induction n with
  | zero => rfl
  | succ n ih =>
    rw [List.range'_1_concat, List.foldl_append, ih]
    simp only [List.foldl_cons, List.foldl_nil]
    omega

lemma Accounted.maxAttempt (ha : Accounted m granted back s) (i : Nat) :
    s.maxAttempt i = (s.attemptsOf i).length := by
  have hnumbers : (s.deliveries.select fun _ d => d.outboxId == some i).map (·.2.attempt) =
      (s.attemptsOf i).map Prod.snd := by
    unfold attemptsOf
    rw [List.map_map]
    rfl
  unfold Store.maxAttempt
  rw [hnumbers, ha.numbered, foldl_max_range']

lemma Accounted.mono {back' : Nat → Bool} (ha : Accounted m granted back s)
    (h : ∀ k, back k = true → back' k = true) : Accounted m granted back' s where
  total := ha.total
  numbered := ha.numbered
  fresh := ha.fresh
  budget i := by
    have hle : (s.attemptsOf i).countP (fun e => back e.1) ≤
        (s.attemptsOf i).countP fun e => back' e.1 := List.countP_mono_left fun e _ => h e.1
    have hbudget := ha.budget i
    omega

/-- A row below its limit has room for one more attempt. -/
lemma Accounted.room (ha : Accounted m granted back s)
    (hback : ∀ k, s.returned k = true → back k = true) {i : Nat} (h : s.attemptsUsed i < m) :
    (s.attemptsOf i).length < m + (s.attemptsOf i).countP fun e => back e.1 := by
  have hexpired : (s.deliveries.select fun _ d => d.outboxId == some i && d.status == .failed &&
      d.response == .ackDeadlineExpired).length ≤
      (s.attemptsOf i).countP fun e => back e.1 := by
    unfold attemptsOf Table.select
    rw [← List.countP_eq_length_filter, List.countP_map, List.countP_filter]
    apply List.countP_mono_left
    intro e he hp
    simp only [Bool.and_eq_true, beq_iff_eq, Function.comp_apply] at hp ⊢
    refine ⟨hback e.1 ?_, hp.1.1⟩
    unfold returned
    rw [Table.get?_eq_some_iff.mpr he]
    simp [hp.1.2, hp.2]
  unfold attemptsUsed at h
  rw [ha.maxAttempt] at h
  omega

/-! ### Exhaustion -/

lemma outbox_markExhausted (hostId : String) (name : Option String) :
    (s.markExhaustedPresentationPlans hostId name).outbox = s.outbox := rfl

lemma attemptsUsed_markExhausted (hostId : String) (name : Option String) (i : Nat) :
    (s.markExhaustedPresentationPlans hostId name).attemptsUsed i = s.attemptsUsed i := rfl

lemma exhaustRow_get? (row : Nat × OutboxRow) (i : Nat) :
    (exhaustRow now s row).outbox.get? i = (s.outbox.get? i).map fun r =>
      if i = row.1 then (r.mapState fun t => { t with
        status := .deadLetter
        nextAttemptAt := none
        updatedAt := now
        priv :=
          if row.2.connector == turnFinalName then
            row.2.priv.withTerminalDiagnostic (s.attemptCount row.1 row.2.priv)
              .attemptsExhausted now
          else
            .empty }) else r := by
  unfold exhaustRow
  rw [outbox_setOutbox]

/-- A row that can still be polled after the exhaustion is below the limit. -/
lemma exhaust_pollable {hostId : String} {name : Option String} {maxAttempts : Int} {i : Nat}
    {r : OutboxRow}
    (hr : (s.connectorExhaustRetryable hostId name maxAttempts now).1.outbox.get? i = some r)
    (hpollable : r.status.pollable = true) (hhost : r.hostId = hostId)
    (hname : name.all (r.connector == ·) = true) :
    (s.connectorExhaustRetryable hostId name maxAttempts now).1.attemptsUsed i <
      max 1 maxAttempts := by
  have hdeliveries : ((s.exhaustedRows hostId name maxAttempts).foldl (exhaustRow now) s).deliveries =
      s.deliveries := by
    refine foldl_invariant (P := fun t : Store => t.deliveries = s.deliveries) ?_ rfl
    exact fun _ _ _ ht => ht
  have hused : (s.connectorExhaustRetryable hostId name maxAttempts now).1.attemptsUsed i =
      s.attemptsUsed i := by
    change ((s.exhaustedRows hostId name maxAttempts).foldl (exhaustRow now) s).attemptsUsed i = _
    unfold attemptsUsed Store.maxAttempt
    rw [hdeliveries]
  rw [hused]
  change ((s.exhaustedRows hostId name maxAttempts).foldl (exhaustRow now) s).outbox.get? i =
    some r at hr
  have hkept : ∀ (l : List (Nat × OutboxRow)) (t : Store),
      (l.foldl (exhaustRow now) t).outbox.get? i = some r →
        i ∉ l.map Prod.fst ∧ t.outbox.get? i = some r := by
    intro l
    induction l with
    | nil => exact fun t ht => ⟨List.not_mem_nil, ht⟩
    | cons row l ih =>
      intro t ht
      obtain ⟨hnot, ht⟩ := ih _ ht
      rw [exhaustRow_get?] at ht
      obtain ⟨r₀, hr₀, hmap⟩ := Option.map_eq_some_iff.mp ht
      split at hmap
      · rw [← hmap] at hpollable
        cases hpollable
      · next hne =>
        rw [hmap] at hr₀
        exact ⟨by simp [hne, hnot], hr₀⟩
  obtain ⟨hnot, hr₀⟩ := hkept _ _ hr
  by_contra hlimit
  apply hnot
  refine List.mem_map.mpr ⟨(i, r), Table.mem_select.mpr ⟨hr₀, ?_⟩, rfl⟩
  simp only [Bool.and_eq_true, beq_iff_eq, decide_eq_true_eq]
  exact ⟨⟨⟨hhost, hname⟩, hpollable⟩, by omega⟩

/-! ### Leases -/

lemma attemptsOf_leaseRow (req : PollRequest) (row : Nat × OutboxRow) (i : Nat) :
    (s.leaseRow req now row).attemptsOf i =
      if i = row.1 then s.attemptsOf i ++ [(s.deliveries.next, s.maxAttempt row.1 + 1)]
      else s.attemptsOf i := by
  change ((s.deliveries.insert _).select _).map _ = _
  unfold attemptsOf Table.insert Table.select
  dsimp only
  rw [List.filter_append, List.map_append]
  by_cases hi : i = row.1
  · subst hi
    simp [newLease]
  · simp [hi, Ne.symm hi]

lemma outbox_leaseRow (req : PollRequest) (row : Nat × OutboxRow) (i : Nat) :
    (s.leaseRow req now row).outbox.get? i = (s.outbox.get? i).map fun r =>
      if i = row.1 ∧ r.status.pollable = true then r.mapState fun t => { t with
        status := .leased
        updatedAt := now
        priv := row.2.priv.withLease (s.newLease req now row.1) } else r := by
  unfold leaseRow
  dsimp only
  rw [outbox_updateOutbox]
  change (s.outbox.get? i).map _ = _
  congr 1
  funext r
  simp

lemma Accounted.leaseRow (ha : Accounted m granted back s) (req : PollRequest) (now : Int)
    {row : Nat × OutboxRow} (hrow : s.outbox.get? row.1 = some row.2)
    (hroom : (s.attemptsOf row.1).length < m + (s.attemptsOf row.1).countP fun e => back e.1) :
    Accounted m (fun i => granted i + if i = row.1 then 1 else 0) back
      (s.leaseRow req now row) where
  total i r hr := by
    rw [outbox_leaseRow] at hr
    obtain ⟨r₀, hr₀, rfl⟩ := Option.map_eq_some_iff.mp hr
    have htotal := ha.total i r₀ hr₀
    rw [attemptsOf_leaseRow]
    by_cases hi : i = row.1
    · subst hi
      obtain rfl := Option.some.inj (hrow.symm.trans hr₀)
      rw [if_pos rfl, List.length_append, List.length_singleton]
      split
      · change row.2.priorAttempts + _ = _
        simp only [if_true]
        omega
      · simp only [if_true]
        omega
    · simp only [hi, false_and, if_false]
      exact htotal
  numbered i := by
    rw [attemptsOf_leaseRow]
    split
    · next hi =>
      rw [List.map_append, ha.numbered, List.length_append, List.length_singleton,
        List.range'_1_concat, ← hi, ha.maxAttempt, Nat.add_comm 1]
      rfl
    · exact ha.numbered i
  fresh i hi := by
    have hlt := Table.get?_lt_next hrow
    change s.outbox.table.next ≤ i at hi
    have hne : i ≠ row.1 := by omega
    obtain ⟨hnil, hzero⟩ := ha.fresh i hi
    rw [attemptsOf_leaseRow, if_neg hne, if_neg hne]
    exact ⟨hnil, hzero⟩
  budget i := by
    rw [attemptsOf_leaseRow]
    split
    · next hi =>
      subst hi
      rw [List.length_append, List.countP_append, List.length_singleton]
      omega
    · exact ha.budget i

lemma leaseRows_attempts (req : PollRequest) (now : Int) {rows : List (Nat × OutboxRow)}
    (hnodup : (rows.map Prod.fst).Nodup) (items : List PollItem) (i : Nat) :
    if i ∈ rows.map Prod.fst then
      ∃ e : Nat × Nat, s.deliveries.next ≤ e.1 ∧
        (leaseRows req now rows s items).1.attemptsOf i = s.attemptsOf i ++ [e]
    else
      (leaseRows req now rows s items).1.attemptsOf i = s.attemptsOf i := by
  induction rows generalizing s items with
  | nil => simp [leaseRows]
  | cons row rows ih =>
    rw [List.map_cons, List.nodup_cons] at hnodup
    have hrest := ih (s := s.leaseRow req now row) hnodup.2 (items ++ [s.pollItem req now row])
    have hnext : (s.leaseRow req now row).deliveries.next = s.deliveries.next + 1 := rfl
    rw [attemptsOf_leaseRow, hnext] at hrest
    change if i ∈ row.1 :: rows.map Prod.fst then _ else _
    by_cases hi : i = row.1
    · subst hi
      rw [if_neg hnodup.1, if_pos rfl] at hrest
      rw [if_pos List.mem_cons_self]
      exact ⟨_, Nat.le_refl _, hrest⟩
    · rw [if_neg hi] at hrest
      simp only [List.mem_cons, hi, false_or]
      split at hrest
      · next hmem =>
        rw [if_pos hmem]
        obtain ⟨e, hle, heq⟩ := hrest
        exact ⟨e, by omega, heq⟩
      · next hmem =>
        rw [if_neg hmem]
        exact hrest

lemma Accounted.leaseRows {req : PollRequest} {rows : List (Nat × OutboxRow)}
    (ha : Accounted m granted back s) (hnodup : (rows.map Prod.fst).Nodup)
    (hrows : ∀ row ∈ rows, s.outbox.get? row.1 = some row.2 ∧
      (s.attemptsOf row.1).length < m + (s.attemptsOf row.1).countP fun e => back e.1)
    (items : List PollItem) :
    Accounted m (fun i => granted i + if i ∈ rows.map Prod.fst then 1 else 0) back
      (leaseRows req now rows s items).1 := by
  induction rows generalizing s granted items with
  | nil => simpa [Store.leaseRows] using ha
  | cons row rows ih =>
    rw [List.map_cons, List.nodup_cons] at hnodup
    obtain ⟨hread, hroom⟩ := hrows row List.mem_cons_self
    have hrest := ih (ha.leaseRow req now hread hroom) hnodup.2 ?_
      (items ++ [s.pollItem req now row])
    · have hsum : (fun i => granted i + (if i = row.1 then 1 else 0) +
          if i ∈ rows.map Prod.fst then 1 else 0) =
          fun i => granted i + if i ∈ (row :: rows).map Prod.fst then 1 else 0 := by
        funext i
        by_cases hi : i = row.1
        · subst hi
          simp [hnodup.1]
        · simp only [List.map_cons, List.mem_cons, hi, false_or, if_false, Nat.add_zero]
      rw [← hsum]
      exact hrest
    · intro row' hmem
      obtain ⟨hread', hroom'⟩ := hrows row' (List.mem_cons_of_mem _ hmem)
      have hne : row'.1 ≠ row.1 := by
        intro heq
        exact hnodup.1 (heq ▸ List.mem_map_of_mem hmem)
      rw [outbox_leaseRow, attemptsOf_leaseRow, if_neg hne, hread']
      exact ⟨by simp [hne], hroom'⟩

/-! ### Runs -/

/-- The attempts of a row that one call grants. -/
def leasesIn (s s' : Store) (i : Nat) : Nat :=
  (s'.attemptsOf i).countP fun e => decide (s.deliveries.next ≤ e.1)

/-- All delivery rows that some calls create for a row. -/
def leasesGranted (s : Store) : List Call → Nat → Nat
  | [], _ => 0
  | c :: calls, i => s.leasesIn (s.step c).1 i + (s.step c).1.leasesGranted calls i

/-- The delivery was given back at some point of the run. -/
def everReturned (s : Store) : List Call → Nat → Bool
  | [], k => s.returned k
  | c :: calls, k => s.returned k || (s.step c).1.everReturned calls k

lemma everReturned_of_returned {calls : List Call} {k : Nat} (h : s.returned k = true) :
    s.everReturned calls k = true := by
  cases calls with
  | nil => exact h
  | cons c calls => simp [everReturned, h]

lemma attemptsOf_lt {i : Nat} {e : Nat × Nat} (he : e ∈ s.attemptsOf i) : e.1 < s.deliveries.next := by
  obtain ⟨x, hx, rfl⟩ := List.mem_map.mp he
  exact Table.get?_lt_next (Table.mem_select.mp hx).1

lemma countP_attemptsOf_eq_zero {n : Nat} (h : s.deliveries.next ≤ n) (i : Nat) :
    ((s.attemptsOf i).countP fun e => decide (n ≤ e.1)) = 0 := by
  rw [List.countP_eq_zero]
  intro e he
  have hlt := attemptsOf_lt he
  simp only [decide_eq_true_eq]
  omega

lemma Tallies.leasesIn_eq_zero (h : Tallies s s') (i : Nat) : s.leasesIn s' i = 0 := by
  unfold leasesIn
  rcases h.attempts i with heq | hnil
  · rw [heq]
    exact countP_attemptsOf_eq_zero (Nat.le_refl _) i
  · rw [hnil]
    rfl

lemma returned_leaseRows {req : PollRequest} {rows : List (Nat × OutboxRow)}
    (items : List PollItem) {k : Nat} (h : s.returned k = true) :
    (leaseRows req now rows s items).1.returned k = true := by
  induction rows generalizing s items with
  | nil => exact h
  | cons row rows ih =>
    apply ih
    unfold returned at h ⊢
    change ((s.deliveries.insert _).get? k).any _ = true
    rw [Table.get?_insert]
    have hne : k ≠ s.deliveries.next := by
      rintro rfl
      rw [Table.get?_eq_none_of_next_le (Nat.le_refl _)] at h
      cases h
    rw [if_neg hne]
    exact h

lemma Accounted.leaseAfter {t : Store} {req : PollRequest} {rows : List (Nat × OutboxRow)}
    (ha : Accounted m granted back t) (hupkeep : Upkeep s t) (hnodup : (rows.map Prod.fst).Nodup)
    (hrows : ∀ row ∈ rows, t.outbox.get? row.1 = some row.2 ∧
      (t.attemptsOf row.1).length < m + (t.attemptsOf row.1).countP fun e => back e.1) :
    Accounted m (fun i => granted i + s.leasesIn (Store.leaseRows req now rows t []).1 i) back
      (Store.leaseRows req now rows t []).1 := by
  have hgranted : (fun i => granted i + s.leasesIn (Store.leaseRows req now rows t []).1 i) =
      fun i => granted i + if i ∈ rows.map Prod.fst then 1 else 0 := by
    funext i
    congr 1
    have hattempts := leaseRows_attempts (s := t) req now hnodup [] i
    unfold leasesIn
    split at hattempts
    · next hmem =>
      obtain ⟨e, hnew, heq⟩ := hattempts
      have hids := hupkeep.ids
      rw [heq, List.countP_append, hupkeep.attempts, countP_attemptsOf_eq_zero (Nat.le_refl _),
        if_pos hmem]
      simp only [List.countP_singleton, decide_eq_true_eq]
      rw [if_pos (by omega)]
    · next hmem =>
      rw [hattempts, hupkeep.attempts, countP_attemptsOf_eq_zero (Nat.le_refl _), if_neg hmem]
  rw [hgranted]
  exact ha.leaseRows hnodup hrows []

lemma pollConnectorOutbox_eq (req : PollRequest) :
    s.pollConnectorOutbox req now = leaseRows req now ((s.beforePoll req now).eligibleRows
      req.hostId req.name now (max 1 (min req.limit 100)).toNat) (s.beforePoll req now) [] := rfl

/-- A poll grants an attempt to every row that it leases, and to no other row. -/
theorem Accounted.poll {req : PollRequest} (ha : Accounted m granted back s)
    (hm : req.maxAttempts.any (fun limit => decide (max 1 limit ≤ (m : Int))) = true)
    (hback : ∀ k, (s.pollConnectorOutbox req now).1.returned k = true → back k = true) :
    Accounted m (fun i => granted i + s.leasesIn (s.pollConnectorOutbox req now).1 i) back
      (s.pollConnectorOutbox req now).1 := by
  obtain ⟨limit, hlimit, hle⟩ := (Option.any_eq_true _ _).mp hm
  rw [decide_eq_true_eq] at hle
  have hupkeep : Upkeep s (s.beforePoll req now) := upkeep_beforePoll req
  have hbefore : Accounted m granted back (s.beforePoll req now) :=
    (Tallies.of_upkeep hupkeep).account ha
  have hback₁ : ∀ k, (s.beforePoll req now).returned k = true → back k = true :=
    fun k hk => hback k (by
      rw [pollConnectorOutbox_eq]
      exact returned_leaseRows [] hk)
  have hspec := (s.beforePoll req now).eligibleRows_spec req.hostId req.name now
    (max 1 (min req.limit 100)).toNat
  rw [pollConnectorOutbox_eq]
  refine hbefore.leaseAfter hupkeep hspec.1 fun row hrow => ?_
  obtain ⟨hread, helig⟩ := hspec.2 row hrow
  refine ⟨hread, hbefore.room hback₁ ?_⟩
  have hpollable := eligible_pollable helig
  simp only [eligible, Bool.and_eq_true, beq_iff_eq] at helig
  have hhost := helig.1.1.1.1.1.1.1
  have hname := helig.1.1.1.1.1.1.2
  have hexhaust : s.beforePoll req now =
      ((s.connectorReclaimExpiredLeases req.hostId (some req.name) now).1.connectorExhaustRetryable
        req.hostId (some req.name) limit now).1.markExhaustedPresentationPlans req.hostId
          (some req.name) := by
    unfold beforePoll
    rw [hlimit]
  rw [hexhaust] at hread ⊢
  rw [outbox_markExhausted] at hread
  rw [attemptsUsed_markExhausted]
  exact Int.lt_of_lt_of_le (exhaust_pollable hread hpollable hhost (by simp [hname])) hle

/-- Every other call grants none. -/
theorem tallies_call {c : Call} {answer : Answer} (hpoll : ∀ req now, c ≠ .poll req now)
    (h : s.call c = .ok (s', answer)) : Tallies s s' := by
  cases c with
  | refreshTurns steps =>
    obtain ⟨x, hx, heq⟩ := map_eq_ok.mp h
    obtain ⟨rfl, -⟩ := Prod.mk.inj heq
    refine foldlM_invariant (P := Tallies s) ?_ (.refl s) hx
    intro t step t' _ ht hstep
    cases step with
    | write turns revisions =>
      obtain rfl := Except.ok.inj hstep
      have hwrite : Tallies t { t with turns, revisions } := .of_same rfl rfl
      exact ht.trans hwrite
    | ensure hostId revision now =>
      obtain ⟨y, hy, rfl⟩ := map_eq_ok.mp hstep
      exact ht.trans (tallies_ensure hy)
  | enqueue hostId connector key json group now =>
    obtain ⟨x, hx, heq⟩ := map_eq_ok.mp h
    obtain ⟨rfl, -⟩ := Prod.mk.inj heq
    exact .insertOutboxOrIgnore rfl hx
  | poll req now => exact absurd rfl (hpoll req now)
  | renew hostId name ref leaseSeconds now =>
    obtain ⟨x, hx, heq⟩ := map_eq_ok.mp h
    obtain ⟨rfl, -⟩ := Prod.mk.inj heq
    exact .of_upkeep (upkeep_renew hx)
  | release hostId name ref now =>
    obtain ⟨x, hx, heq⟩ := map_eq_ok.mp h
    obtain ⟨rfl, -⟩ := Prod.mk.inj heq
    exact .of_upkeep (upkeep_release hx)
  | ack hostId name ref ttl now =>
    obtain ⟨x, hx, heq⟩ := map_eq_ok.mp h
    obtain ⟨rfl, -⟩ := Prod.mk.inj heq
    exact .of_upkeep (upkeep_ack hx)
  | setback setback hostId name ref availableAt delaySeconds now =>
    obtain ⟨x, hx, heq⟩ := map_eq_ok.mp h
    obtain ⟨rfl, -⟩ := Prod.mk.inj heq
    exact .of_upkeep (upkeep_setback hx)
  | reclaim hostId name now =>
    obtain ⟨rfl, -⟩ := Prod.mk.inj (Except.ok.inj h)
    exact .of_upkeep (upkeep_reclaim hostId name)
  | exhaust hostId maxAttempts now =>
    obtain ⟨rfl, -⟩ := Prod.mk.inj (Except.ok.inj h)
    exact .of_upkeep ((upkeep_reclaim hostId none).trans (upkeep_exhaust hostId none maxAttempts))
  | planBegin req now =>
    obtain ⟨x, hx, heq⟩ := map_eq_ok.mp h
    obtain ⟨rfl, -⟩ := Prod.mk.inj heq
    exact tallies_planBegin hx
  | planPart hostId name token ordinal spans now =>
    obtain ⟨x, hx, heq⟩ := map_eq_ok.mp h
    obtain ⟨rfl, -⟩ := Prod.mk.inj heq
    exact tallies_planPart hx
  | planCommit req now =>
    obtain ⟨x, hx, heq⟩ := map_eq_ok.mp h
    obtain ⟨rfl, -⟩ := Prod.mk.inj heq
    exact tallies_planCommit hx
  | planRecover req now =>
    obtain ⟨x, hx, heq⟩ := map_eq_ok.mp h
    obtain ⟨rfl, -⟩ := Prod.mk.inj heq
    exact tallies_planRecover hx
  | finalRetry hostId identity now =>
    obtain ⟨x, hx, heq⟩ := map_eq_ok.mp h
    obtain ⟨rfl, -⟩ := Prod.mk.inj heq
    exact tallies_finalRetry hx

theorem Accounted.step {c : Call} (ha : Accounted m granted back s) (hm : c.limits m = true) :
    Accounted m (fun i => granted i + s.leasesIn (s.step c).1 i)
      (fun k => back k || (s.step c).1.returned k) (s.step c).1 := by
  by_cases hpoll : ∃ req now, c = .poll req now
  · obtain ⟨req, now, rfl⟩ := hpoll
    change Accounted m (fun i => granted i + s.leasesIn (s.pollConnectorOutbox req now).1 i)
      (fun k => back k || (s.pollConnectorOutbox req now).1.returned k)
      (s.pollConnectorOutbox req now).1
    apply Accounted.poll
    · exact ha.mono fun k hk => by simp [hk]
    · exact hm
    · intro k hk
      simp [hk]
  · have htallies : Tallies s (s.step c).1 := by
      unfold Store.step
      split
      · next result hresult =>
        exact tallies_call (fun req now heq => hpoll ⟨req, now, heq⟩) hresult
      · exact .refl s
    have hsame : Accounted m granted (fun k => back k || (s.step c).1.returned k) (s.step c).1 :=
      (htallies.account ha).mono fun k hk => by simp [hk]
    simpa [htallies.leasesIn_eq_zero] using hsame

theorem Accounted.run {calls : List Call} (ha : Accounted m granted back s)
    (hm : ∀ c ∈ calls, c.limits m = true) :
    Accounted m (fun i => granted i + s.leasesGranted calls i)
      (fun k => back k || s.everReturned calls k) (s.run calls) := by
  induction calls generalizing s granted back with
  | nil =>
    simp only [leasesGranted, Nat.add_zero]
    exact ha.mono fun k hk => by simp [hk]
  | cons c calls ih =>
    have hrest := ih (ha.step (hm c List.mem_cons_self)) fun c' hc' =>
      hm c' (List.mem_cons_of_mem _ hc')
    simp only [leasesGranted, ← Nat.add_assoc]
    refine hrest.mono fun k hk => ?_
    simp only [Bool.or_eq_true] at hk
    simp only [everReturned, Bool.or_eq_true]
    rcases hk with (hk | hk) | hk
    · exact .inl hk
    · exact .inr (.inr (everReturned_of_returned hk))
    · exact .inr (.inr hk)

lemma accounted_initial (supersessions : Constrained supersessionSchema) (m : Nat) :
    Accounted m (fun _ => 0) (fun _ => false) (initial supersessions) where
  total i r hr := by simp [initial] at hr
  numbered _ := rfl
  fresh _ _ := ⟨rfl, rfl⟩
  budget _ := Nat.zero_le _

/-! ### The acknowledgement deadline -/

/-- The newest plan of the root is complete, at work or failed. -/
def resumable (s : Store) (i : Nat) : Bool :=
  (s.newestPlanOf? i).any fun e => e.2.state == .completed || e.2.state.committed

/-- What the expiry of a root's deadline does: without a plan to resume the root is dead, and the
only other rows to die are those that its newest plan left unfinished. -/
structure DeadlineEnds (s s' : Store) (i : Nat) : Prop where
  root : ∃ r', s'.outbox.get? i = some r' ∧
    if s.resumable i then r'.status = .delivered ∨ r'.status = .retry else r'.status = .deadLetter
  others : ∀ j r', j ≠ i → s'.outbox.get? j = some r' → s.outbox.get? j = some r' ∨
    r'.status = .deadLetter ∧ ∃ planId plan r, s.newestPlanOf? i = some (planId, plan) ∧
      s.isJobOf (· == planId) j = true ∧ s.outbox.get? j = some r ∧ r.status.terminal = false

lemma deadLetterJobRow_get? (row : Nat × OutboxRow) (j : Nat) :
    (deadLetterJobRow now s row).outbox.get? j = (s.outbox.get? j).map fun r =>
      if j = row.1 then r.mapState fun t => { t with
        status := .deadLetter
        nextAttemptAt := none
        updatedAt := now
        priv := row.2.priv.withTerminalDiagnostic (s.attemptCount row.1 row.2.priv)
          .ackDeadlineExpired now } else r := by
  unfold deadLetterJobRow
  dsimp only
  rw [outbox_setOutbox]
  rfl

lemma deadLetterJobRows_of_not_mem {l : List (Nat × OutboxRow)} {j : Nat}
    (hj : j ∉ l.map Prod.fst) :
    (l.foldl (deadLetterJobRow now) s).outbox.get? j = s.outbox.get? j := by
  induction l generalizing s with
  | nil => rfl
  | cons row l ih =>
    rw [List.map_cons, List.mem_cons, not_or] at hj
    rw [List.foldl_cons, ih hj.2, deadLetterJobRow_get?]
    simp [hj.1]

lemma deadLetterJobRows_of_mem {l : List (Nat × OutboxRow)} {j : Nat} {r' : OutboxRow}
    (hj : j ∈ l.map Prod.fst)
    (hr' : (l.foldl (deadLetterJobRow now) s).outbox.get? j = some r') : r'.status = .deadLetter := by
  induction l generalizing s with
  | nil => cases hj
  | cons row l ih =>
    by_cases hrest : j ∈ l.map Prod.fst
    · exact ih hrest hr'
    · have hid : j = row.1 := by
        rw [List.map_cons, List.mem_cons] at hj
        exact hj.resolve_right hrest
      rw [List.foldl_cons, deadLetterJobRows_of_not_mem hrest, deadLetterJobRow_get?] at hr'
      obtain ⟨r, -, rfl⟩ := Option.map_eq_some_iff.mp hr'
      rw [if_pos hid]
      rfl

lemma endAwaitingAck_get? (i : Nat) (status : OutboxStatus) (next : Option Int)
    (priv : OutboxPrivate) (j : Nat) :
    (s.endAwaitingAck i status next priv now).outbox.get? j = (s.outbox.get? j).map fun r =>
      if j = i ∧ r.status = .awaitingAck then r.mapState fun t => { t with
        status, nextAttemptAt := next, priv, updatedAt := now } else r := by
  unfold endAwaitingAck
  rw [outbox_updateOutbox]
  congr 1
  funext r
  simp

section Deadline

variable {i : Nat} {root : OutboxRow}

lemma endAwaitingAck_root {t : Store} (ht : t.outbox.get? i = some root)
    (hawaiting : root.status = .awaitingAck) (status : OutboxStatus) (next : Option Int)
    (priv : OutboxPrivate) :
    ∃ r', (t.endAwaitingAck i status next priv now).outbox.get? i = some r' ∧
      r'.status = status := by
  rw [endAwaitingAck_get?, ht]
  refine ⟨_, rfl, ?_⟩
  dsimp only
  rw [if_pos ⟨rfl, hawaiting⟩]
  rfl

lemma endAwaitingAck_other {t : Store} {j : Nat} (hj : j ≠ i) (status : OutboxStatus)
    (next : Option Int) (priv : OutboxPrivate) :
    (t.endAwaitingAck i status next priv now).outbox.get? j = t.outbox.get? j := by
  rw [endAwaitingAck_get?]
  cases t.outbox.get? j with
  | none => rfl
  | some r => simp [hj]

/-- A root is not a row of a job. -/
lemma Keyed.not_isJobOf (hk : s.Keyed) (hroot : s.outbox.get? i = some root)
    (hkind : root.deliveryKind.isRoot = true) (p : Nat → Bool) : s.isJobOf p i = false := by
  unfold isJobOf
  rw [Table.any_eq_false_iff]
  intro k j hj
  rw [Bool.and_eq_false_iff]
  right
  rw [beq_eq_false_iff_ne]
  intro howner
  have hjob := (hk.job k j i hj howner).2 root hroot
  have hfits := (hk.row i root hroot).fits
  cases hkey : root.deliveryKey with
  | job => cases hroot' : root.deliveryKind <;> simp_all [DeliveryKind.fits, DeliveryKind.isRoot]
  | _ => simp [hkey, DeliveryKey.isJob] at hjob

lemma deadlineEnds_retry (hk : s.Keyed) (hroot : s.outbox.get? i = some root)
    (hkind : root.deliveryKind.isRoot = true) (hawaiting : root.status = .awaitingAck)
    {planId : Nat} {plan : Plan} (hplan : s.newestPlanOf? i = some (planId, plan))
    (hcommitted : plan.state.committed = true) (deliveryId : Option Nat) :
    DeadlineEnds s ((s.retryOverdueRoot i root deliveryId planId plan
      now).activateWaitingPresentationPlans root.hostId root.connector now) i := by
  let l := (s.failPlan planId).unfinishedJobRows planId
  have hmem : ∀ j, j ∈ l.map Prod.fst → s.isJobOf (· == planId) j = true ∧
      ∃ r, s.outbox.get? j = some r ∧ r.status.terminal = false := by
    intro j hj
    obtain ⟨⟨j, r⟩, hrow, rfl⟩ := List.mem_map.mp hj
    obtain ⟨hr, hp⟩ := Table.mem_select.mp hrow
    rw [Bool.and_eq_true] at hp
    exact ⟨hp.1, r, hr, by simpa using hp.2⟩
  have hnot : i ∉ l.map Prod.fst := by
    intro hi
    have hjob := (hmem i hi).1
    rw [hk.not_isJobOf hroot hkind] at hjob
    cases hjob
  constructor
  · have hread : (l.foldl (deadLetterJobRow now) (s.failPlan planId)).outbox.get? i = some root :=
      (deadLetterJobRows_of_not_mem hnot).trans hroot
    have hresumable : s.resumable i = true := by
      unfold resumable
      rw [hplan]
      simp [hcommitted]
    rw [hresumable]
    refine Exists.imp (fun r' h => ⟨h.1, .inr h.2⟩) (endAwaitingAck_root hread hawaiting .retry
      (some (now + root.priv.ackRetryDelay)) { root.priv.ackRetryState with
        presentationGeneration := max (max 1 root.priv.presentationGeneration)
          (plan.generation + 1) })
  · intro j r' hj hr'
    change ((Store.closeAwaitingDelivery _ _ _ _).endAwaitingAck i .retry _ _ now).outbox.get? j =
      some r' at hr'
    rw [endAwaitingAck_other hj] at hr'
    change (l.foldl (deadLetterJobRow now) (s.failPlan planId)).outbox.get? j = some r' at hr'
    by_cases hjob : j ∈ l.map Prod.fst
    · right
      obtain ⟨hof, r, hr, hopen⟩ := hmem j hjob
      exact ⟨deadLetterJobRows_of_mem hjob hr', planId, plan, r, hplan, hof, hr, hopen⟩
    · left
      rw [deadLetterJobRows_of_not_mem hjob] at hr'
      exact hr'

lemma deadlineEnds_dead (hroot : s.outbox.get? i = some root)
    (hawaiting : root.status = .awaitingAck) (hnone : s.resumable i = false)
    (deliveryId : Option Nat) :
    DeadlineEnds s ((s.deadLetterOverdueRoot i root deliveryId
      now).activateWaitingPresentationPlans root.hostId root.connector now) i := by
  constructor
  · rw [hnone]
    exact endAwaitingAck_root (t := s.closeAwaitingDelivery deliveryId .planUnrecoverable now)
      hroot hawaiting _ _ _
  · intro j r' hj hr'
    left
    change ((s.closeAwaitingDelivery deliveryId .planUnrecoverable now).endAwaitingAck i
      .deadLetter none _ now).outbox.get? j = some r' at hr'
    rw [endAwaitingAck_other hj] at hr'
    exact hr'

theorem deadlineEnds_reclaim (hk : s.Keyed) (hroot : s.outbox.get? i = some root)
    (hkind : root.deliveryKind.isRoot = true) (hawaiting : root.status = .awaitingAck)
    (h : reclaimAwaitingAck now s (i, root) = some s') : DeadlineEnds s s' i := by
  unfold reclaimAwaitingAck at h
  dsimp only at h
  split at h
  · cases h
  · split at h
    · next hnone =>
      rw [← Option.some.inj h]
      apply deadlineEnds_dead hroot hawaiting
      unfold resumable
      rw [hnone]
      rfl
    · next planId plan hplan =>
      split at h
      · next hcompleted =>
        rw [← Option.some.inj h]
        constructor
        · have hresumable : s.resumable i = true := by
            unfold resumable
            rw [hplan]
            simp [hcompleted]
          rw [hresumable]
          obtain ⟨r', hr', hstatus⟩ := endAwaitingAck_root (t := s.updateDeliveries _ _) hroot
            hawaiting .delivered none root.priv.clearCurrent
          exact ⟨r', hr', .inl hstatus⟩
        · intro j r' hj hr'
          left
          change ((s.updateDeliveries _ _).endAwaitingAck i .delivered none _ now).outbox.get? j =
            some r' at hr'
          rw [endAwaitingAck_other hj] at hr'
          exact hr'
      · next hcompleted =>
        split at h
        · next hcommitted =>
          split at h
          · cases h
          · rw [← Option.some.inj h]
            exact deadlineEnds_retry hk hroot hkind hawaiting hplan hcommitted _
        · next hcommitted =>
          rw [← Option.some.inj h]
          apply deadlineEnds_dead hroot hawaiting
          unfold resumable
          rw [hplan]
          simpa [PlanState.committed, hcompleted] using hcommitted

end Deadline

lemma keyed_run (supersessions : Constrained supersessionSchema) (calls : List Call) :
    ((initial supersessions).run calls).Keyed :=
  foldl_invariant (P := Keyed) (fun s c _ hk => hk.evolves (respects_evolves.step s c))
    (keyed_initial supersessions)

/-- Along every run in which the polls limit the attempts to `m`: the attempts on record of a row
are at most `m` besides those given back, with the attempts it carries over they are all that it
was ever granted, and an expired deadline kills a root only if no plan of it can be resumed. -/
theorem attempt_accounting (supersessions : Constrained supersessionSchema) (calls : List Call)
    (m : Nat) (hm : ∀ c ∈ calls, c.limits m = true) :
    let s := (initial supersessions).run calls
    (∀ i, s.deliveryCount i ≤ m + (s.attemptsOf i).countP fun e =>
      (initial supersessions).everReturned calls e.1) ∧
    (∀ i r, s.outbox.get? i = some r →
      r.priorAttempts + s.deliveryCount i = (initial supersessions).leasesGranted calls i) ∧
    ∀ i root now s', s.outbox.get? i = some root → root.deliveryKind.isRoot = true →
      root.status = .awaitingAck → reclaimAwaitingAck now s (i, root) = some s' →
      DeadlineEnds s s' i := by
  have haccount := (accounted_initial supersessions m).run hm
  refine ⟨?_, ?_, ?_⟩
  · intro i
    rw [deliveryCount_eq]
    simpa using haccount.budget i
  · intro i r hr
    rw [deliveryCount_eq]
    simpa using haccount.total i r hr
  · intro i root now s' hroot hkind hawaiting h
    exact deadlineEnds_reclaim (keyed_run supersessions calls) hroot hkind hawaiting h

/-! ### A plan that is not acknowledged in time -/

/-- A root is polled and committed to a plan of two parts. -/
def committedCalls : List Call := [
  .refreshTurns [.write (sampleTurns "worker") coverageRevisions,
    .ensure "host" coverageRevision 0],
  .poll {
    hostId := "host"
    name := turnFinalName
    limit := 1
    leaseSeconds := 60
    maxAttempts := some 10
    secrets := fun n => ⟨n, n⟩ } 0,
  .planBegin {
    hostId := "host"
    name := turnFinalName
    turnId := "turn"
    contentRevision := coverageRevision
    presentationVersion := "v1"
    partCount := 2
    sourceRef := some 1 } 0,
  .planPart "host" turnFinalName coverageToken 0 [⟨.userText, 0, 1⟩] 0,
  .planPart "host" turnFinalName coverageToken 1 [⟨.assistantFinalText, 0, 1⟩] 0,
  .planCommit { coverageCommit with sourceRef := some 1 } 0]

theorem attempt_accounting_committed :
    (((initial .empty).run committedCalls).deliveryCount 1 : Nat) ≤ 10 +
      (((initial .empty).run committedCalls).attemptsOf 1).countP fun e =>
        (initial .empty).everReturned committedCalls e.1 :=
  (attempt_accounting .empty committedCalls 10 (by decide +kernel)).1 1

/-- The deadline passes: the rows of the parts are dead. -/
theorem deadline_kills_parts :
    ¬∀ (calls : List Call) (i : Nat) (root : OutboxRow) (now : Int) (s' : Store),
      ((initial .empty).run calls).outbox.get? i = some root → root.deliveryKind.isRoot = true →
      root.status = .awaitingAck →
      reclaimAwaitingAck now ((initial .empty).run calls) (i, root) = some s' →
      ∀ j r', s'.outbox.get? j = some r' → r'.status = .deadLetter →
        ∃ r, ((initial .empty).run calls).outbox.get? j = some r ∧ r.status = .deadLetter := by
  intro hclaim
  let s := (initial .empty).run committedCalls
  obtain ⟨root, hroot⟩ := Option.isSome_iff_exists.mp
    (show (s.outbox.get? 1).isSome = true by decide +kernel)
  have hstate : (s.outbox.get? 1).any (fun r => r.deliveryKind.isRoot && r.status == .awaitingAck &&
      (reclaimAwaitingAck 1000 s (1, r)).any fun t =>
        (t.outbox.get? 2).any (·.status == .deadLetter)) = true := by decide +kernel
  rw [hroot] at hstate
  simp only [Option.any_some, Bool.and_eq_true, beq_iff_eq] at hstate
  obtain ⟨⟨hkind, hawaiting⟩, hdead⟩ := hstate
  obtain ⟨s', hs', hdead⟩ := (Option.any_eq_true _ _).mp hdead
  obtain ⟨r', hr', hdead⟩ := (Option.any_eq_true _ _).mp hdead
  obtain ⟨r, hr, hbefore⟩ := hclaim committedCalls 1 root 1000 s' hroot hkind hawaiting hs' 2 r' hr'
    (by simpa using hdead)
  have hqueued : (s.outbox.get? 2).any (·.status == .deadLetter) = false := by decide +kernel
  rw [hr] at hqueued
  simp [hbefore] at hqueued

end Store

end Tendwire.Connector

import Tendwire.Turns.ChangeJournal

/-!
# Compaction is sound for watermarks

The floor of a host is the largest sequence that compaction has deleted there, although the
deleted rows need not be a prefix: instants are not monotone in the sequence.
-/

namespace Tendwire

open Relational

section Step

variable {s s' : JournalStore}

/-- Sequences of a host that are gone lie at or below its floor. -/
structure JournalStep (s s' : JournalStore) : Prop where
  next_le : s.journal.next ≤ s'.journal.next
  epoch : s'.storeEpoch = s.storeEpoch
  floor_le : ∀ host, s.floor host ≤ s'.floor host
  kept : ∀ seq r, s.journal.get? seq = some r →
    s'.journal.get? seq = some r ∨ (s'.journal.get? seq = none ∧ seq ≤ s'.floor r.hostId)
  fresh : ∀ seq r, s'.journal.get? seq = some r →
    s.journal.get? seq = some r ∨ s.journal.next ≤ seq
  floor_origin : ∀ host, s'.floor host = s.floor host ∨
    ∃ r, s.journal.get? (s'.floor host) = some r ∧ r.hostId = host ∧
      s'.journal.get? (s'.floor host) = none

lemma JournalStep.refl (s : JournalStore) : JournalStep s s :=
  ⟨Nat.le_refl _, rfl, fun _ => Nat.le_refl _, fun _ _ h => Or.inl h, fun _ _ h => Or.inl h,
    fun _ => Or.inl rfl⟩

lemma next_foldl_insert (changes : List TurnChange) (t : Table TurnChange) :
    t.next ≤ (changes.foldl Table.insert t).next := by
  induction changes generalizing t with
  | nil => exact Nat.le_refl _
  | cons c cs ih => exact Nat.le_trans (Nat.le_succ _) (ih (t.insert c))

lemma get?_foldl_insert (changes : List TurnChange) (t : Table TurnChange) (seq : Nat)
    (r : TurnChange) :
    (t.get? seq = some r → (changes.foldl Table.insert t).get? seq = some r) ∧
      ((changes.foldl Table.insert t).get? seq = some r → t.get? seq = some r ∨ t.next ≤ seq) := by
  induction changes generalizing t with
  | nil => exact ⟨id, Or.inl⟩
  | cons c cs ih =>
    obtain ⟨hkeep, hnew⟩ := ih (t.insert c)
    refine ⟨fun h => hkeep ?_, fun h => ?_⟩
    · have hne : seq ≠ t.next := Nat.ne_of_lt (Table.get?_lt_next h)
      simpa [hne] using h
    · rcases hnew h with h' | h'
      · rw [Table.get?_insert] at h'
        by_cases hseq : seq = t.next
        · exact Or.inr (Nat.le_of_eq hseq.symm)
        · exact Or.inl (by simpa [hseq] using h')
      · exact Or.inr (Nat.le_trans (Nat.le_succ _) h')

theorem record_step (s : JournalStore) (changes : List TurnChange) :
    JournalStep s (s.record changes) := by
  refine ⟨next_foldl_insert changes s.journal, rfl, fun _ => Nat.le_refl _, ?_, ?_,
    fun _ => Or.inl rfl⟩
  · intro seq r h
    exact Or.inl ((get?_foldl_insert changes s.journal seq r).1 h)
  · intro seq r h
    exact (get?_foldl_insert changes s.journal seq r).2 h

/-! ### The batch -/

lemma compactionBatch_sorted (s : JournalStore) (c : CompactCall) :
    (compactionBatch s c).Pairwise (· < ·) := by
  unfold compactionBatch
  split
  · exact List.Pairwise.nil
  · rw [List.pairwise_map]
    exact (s.journal.sorted_select _).take

/-- A sequence of the batch is a stored row of the host below the boundary. -/
lemma mem_compactionBatch {c : CompactCall} {seq : Nat} (h : seq ∈ compactionBatch s c) :
    ∃ boundary r, retentionBoundary s c = some boundary ∧ seq < boundary ∧
      s.journal.get? seq = some r ∧ r.hostId = c.hostId := by
  unfold compactionBatch at h
  split at h
  · cases h
  · rename_i boundary hb
    obtain ⟨⟨seq', r⟩, hm, rfl⟩ := List.mem_map.mp h
    obtain ⟨hr, hp⟩ := Table.mem_select.mp (List.mem_of_mem_take hm)
    simp only [Bool.and_eq_true, beq_iff_eq, decide_eq_true_eq] at hp
    exact ⟨boundary, r, hb, hp.1.2, hr, hp.1.1⟩

/-- Every sequence of the batch is at most its last one. -/
lemma le_getLast_of_sorted {l : List Nat} (hl : l.Pairwise (· < ·)) {m : Nat}
    (hm : l.getLast? = some m) {n : Nat} (hn : n ∈ l) : n ≤ m := by
  obtain ⟨init, rfl⟩ := List.getLast?_eq_some_iff.mp hm
  rcases List.mem_append.mp hn with h | h
  · exact Nat.le_of_lt ((List.pairwise_append.mp hl).2.2 n h m (List.mem_singleton_self m))
  · exact Nat.le_of_eq (List.mem_singleton.mp h)

theorem deleteBatch_step {hostId : String} {sequences : List Nat}
    (hsorted : sequences.Pairwise (· < ·))
    (hrows : ∀ seq ∈ sequences, ∃ r, s.journal.get? seq = some r ∧ r.hostId = hostId) :
    JournalStep s (deleteBatch s hostId sequences) := by
  unfold deleteBatch
  split
  · exact .refl s
  rename_i largest hlargest
  have hfloor : ∀ host, JournalStore.floor { s with
      journal := s.journal.deleteWhere (fun seq r => r.hostId == hostId && sequences.contains seq)
      floorSeq := Function.update s.floorSeq hostId
        (some (raisedFloor (s.floorSeq hostId) largest)) } host =
      if host = hostId then max (s.floor host) largest else s.floor host := by
    intro host
    by_cases hh : host = hostId
    · subst hh
      cases hf : s.floorSeq host <;> simp [JournalStore.floor, raisedFloor, hf]
    · simp [JournalStore.floor, hh]
  refine ⟨Nat.le_refl _, rfl, fun host => ?_, fun seq r hr => ?_, fun seq r hr => ?_,
    fun host => ?_⟩
  · rw [hfloor]
    split
    · exact Nat.le_max_left _ _
    · exact Nat.le_refl _
  · simp only [Table.get?_deleteWhere, hr, Option.filter_some]
    by_cases hdel : r.hostId = hostId ∧ seq ∈ sequences
    · right
      refine ⟨by simp [hdel], ?_⟩
      rw [hfloor, if_pos hdel.1]
      exact Nat.le_trans (le_getLast_of_sorted hsorted hlargest hdel.2) (Nat.le_max_right _ _)
    · left
      simp only [not_and] at hdel
      by_cases hh : r.hostId = hostId
      · simp [hh, hdel hh]
      · simp [hh]
  · left
    rw [Table.get?_deleteWhere, Option.filter_eq_some_iff] at hr
    exact hr.1
  · rw [hfloor]
    split
    · rename_i hh
      rcases Nat.le_total largest (s.floor host) with hle | hle
      · exact Or.inl (Nat.max_eq_left hle)
      · right
        have hmem : largest ∈ sequences := List.mem_of_getLast? hlargest
        obtain ⟨r, hr, hrh⟩ := hrows largest hmem
        rw [Nat.max_eq_right hle]
        exact ⟨r, hr, hrh.trans hh.symm, by simp [hr, hrh, hmem]⟩
    · exact Or.inl rfl

theorem compact_step {c : CompactCall} {result : CompactResult}
    (h : compactTurnChangeJournal s c = some (s', result)) : JournalStep s s' := by
  unfold compactTurnChangeJournal at h
  split at h
  · cases h
  · cases h
    split
    · exact .refl s
    · refine deleteBatch_step (compactionBatch_sorted s c) (fun seq hseq => ?_)
      obtain ⟨_, r, _, _, hr, hh⟩ := mem_compactionBatch hseq
      exact ⟨r, hr, hh⟩

theorem journalStep_spec (s : JournalStore) (call : JournalCall) :
    JournalStep s (journalStep s call).1 := by
  cases call with
  | record changes => exact record_step s changes
  | compact call =>
    simp only [journalStep]
    cases hc : compactTurnChangeJournal s call with
    | none => exact .refl s
    | some e => exact compact_step hc
  | delta call => exact .refl s

/-- Rows with at least as many newer ones of their host as the boundary lie below it. -/
theorem newer_of_lt_boundary {c : CompactCall} {boundary seq : Nat}
    (hb : retentionBoundary s c = some boundary) (hlt : seq < boundary) :
    c.count ≤ (((s.hostRows c.hostId).filter (fun e => decide (seq < e.1))).length : Int) := by
  obtain ⟨⟨b, r⟩, hget, rfl⟩ := Option.map_eq_some_iff.mp hb
  have hcount : 1 ≤ c.count := Int.le_max_left 1 c.retentionCount
  have hsorted : (s.hostRows c.hostId).reverse.Pairwise (fun a b => b.1 < a.1) :=
    List.pairwise_reverse.mpr (s.journal.sorted_select _)
  obtain ⟨hn, hbr⟩ := List.getElem?_eq_some_iff.mp hget
  have hall : ∀ e ∈ (s.hostRows c.hostId).reverse.take ((c.count - 1).toNat + 1), seq < e.1 := by
    intro e he
    obtain ⟨m, hm, rfl⟩ := List.mem_take_iff_getElem.mp he
    have hm' : m ≤ (c.count - 1).toNat := by omega
    rcases Nat.lt_or_eq_of_le hm' with h | h
    · have hgt := List.pairwise_iff_getElem.mp hsorted m _ (by omega) hn h
      rw [hbr] at hgt
      exact Nat.lt_trans hlt hgt
    · subst h
      rw [hbr]
      exact hlt
  have hfilter : ((s.hostRows c.hostId).reverse.take ((c.count - 1).toNat + 1)).filter
      (fun e => decide (seq < e.1)) =
      (s.hostRows c.hostId).reverse.take ((c.count - 1).toNat + 1) :=
    List.filter_eq_self.mpr (fun e he => decide_eq_true (hall e he))
  have hle := ((List.take_sublist ((c.count - 1).toNat + 1)
    (s.hostRows c.hostId).reverse).filter (fun e => decide (seq < e.1))).length_le
  rw [hfilter] at hle
  simp only [List.length_take, List.filter_reverse, List.length_reverse] at hle hn
  omega

/-- Compaction keeps every row with fewer newer rows of its host than the retention count. -/
theorem compact_keeps_newest {c : CompactCall} {result : CompactResult}
    (h : compactTurnChangeJournal s c = some (s', result)) {seq : Nat} {r : TurnChange}
    (hr : s.journal.get? seq = some r)
    (hnewest : (((s.hostRows c.hostId).filter (fun e => decide (seq < e.1))).length : Int) <
      c.count) : s'.journal.get? seq = some r := by
  have hnot : seq ∉ compactionBatch s c := by
    intro hmem
    obtain ⟨boundary, _, hb, hlt, -⟩ := mem_compactionBatch hmem
    exact absurd (newer_of_lt_boundary hb hlt) (by omega)
  unfold compactTurnChangeJournal at h
  split at h
  · cases h
  · cases h
    split
    · exact hr
    · unfold deleteBatch
      split
      · exact hr
      · simp [hr, hnot]

end Step

/-! ### Runs -/

/-- The host and the sequence that a request for changes since a checkpoint carries. -/
def DeltaCall.since? (call : DeltaCall) : Option (String × Nat) :=
  match call.token with
  | .none => none
  | .watermark watermark => some (call.hostId, watermark.sequence)
  | .cursor cursor =>
    if cursor.mode = .changes then some (call.hostId, cursor.acceptedSequence) else none

section Runs

variable (storeEpoch : String) (calls : ℕ → JournalCall)

/-- The store before call `n` of a run that starts with an empty journal. -/
def journalAt (n : ℕ) : JournalStore := journalMachine.stateAt (.fresh storeEpoch) calls n

/-- Call `j` asks for the changes of the host since `since` and gets a page. -/
def AcceptedAt (j : ℕ) (host : String) (since : Nat) : Prop :=
  ∃ call batch, calls j = .delta call ∧ call.since? = some (host, since) ∧
    turnDeltaBatch (journalAt storeEpoch calls j) call = .ok batch

/-- Call `j` asks for the changes of the host since `since` and its watermark is expired. -/
def ExpiredAt (j : ℕ) (host : String) (since : Nat) : Prop :=
  ∃ call, calls j = .delta call ∧ call.since? = some (host, since) ∧
    turnDeltaBatch (journalAt storeEpoch calls j) call = .error .expiredWatermark

/-- Row `seq` of the host was stored at some point up to call `j`. -/
def WrittenBy (j : ℕ) (host : String) (seq : Nat) (r : TurnChange) : Prop :=
  r.hostId = host ∧ ∃ k ≤ j, (journalAt storeEpoch calls k).journal.get? seq = some r

/-- What sound compaction means for one host in one run. -/
structure CompactionSound (host : String) : Prop where
  accepted : ∀ j since, AcceptedAt storeEpoch calls j host since → ∀ seq r,
    WrittenBy storeEpoch calls j host seq r → since < seq →
    (journalAt storeEpoch calls j).journal.get? seq = some r
  expired : ∀ j since, ExpiredAt storeEpoch calls j host since → ∃ seq r,
    WrittenBy storeEpoch calls j host seq r ∧ since < seq ∧
    (journalAt storeEpoch calls j).journal.get? seq = none
  /-- The newest rows are those with fewer newer rows of the host than the count. -/
  newest : ∀ j c, calls j = .compact c → c.hostId = host → ∀ seq r,
    (journalAt storeEpoch calls j).journal.get? seq = some r → r.hostId = host →
    ((((journalAt storeEpoch calls j).hostRows host).filter
      (fun e => decide (seq < e.1))).length : Int) < max 1 c.retentionCount →
    (journalAt storeEpoch calls (j + 1)).journal.get? seq = some r

variable {storeEpoch calls}

lemma journalAt_step (n : ℕ) :
    JournalStep (journalAt storeEpoch calls n) (journalAt storeEpoch calls (n + 1)) :=
  journalStep_spec _ _

/-- A row that was ever written is stored, or gone at or below the floor of its host. -/
theorem written_stored_or_below {k j : ℕ} (hkj : k ≤ j) {seq : Nat} {r : TurnChange}
    (h : (journalAt storeEpoch calls k).journal.get? seq = some r) :
    (journalAt storeEpoch calls j).journal.get? seq = some r ∨
      seq ≤ (journalAt storeEpoch calls j).floor r.hostId := by
  induction j, hkj using Nat.le_induction with
  | base => exact Or.inl h
  | succ j _ ih =>
    have hstep := @journalAt_step storeEpoch calls j
    rcases ih with hs | hle
    · exact (hstep.kept seq r hs).imp id And.right
    · exact Or.inr (Nat.le_trans hle (hstep.floor_le r.hostId))

/-- A positive floor is the sequence of a deleted row of its host. -/
theorem floor_origin (j : ℕ) (host : String)
    (hpos : 0 < (journalAt storeEpoch calls j).floor host) :
    ∃ r, WrittenBy storeEpoch calls j host ((journalAt storeEpoch calls j).floor host) r ∧
      (journalAt storeEpoch calls j).journal.get? ((journalAt storeEpoch calls j).floor host) =
        none ∧
      (journalAt storeEpoch calls j).floor host < (journalAt storeEpoch calls j).journal.next := by
  induction j with
  | zero => exact absurd hpos (Nat.lt_irrefl 0)
  | succ j ih =>
    have hstep := @journalAt_step storeEpoch calls j
    rcases hstep.floor_origin host with heq | ⟨r, hr, hhost, hgone⟩
    · rw [heq] at hpos ⊢
      obtain ⟨r, ⟨hhost, k, hkj, hk⟩, hnone, hlt⟩ := ih hpos
      refine ⟨r, ⟨hhost, k, Nat.le_succ_of_le hkj, hk⟩, ?_, Nat.lt_of_lt_of_le hlt hstep.next_le⟩
      cases hg : (journalAt storeEpoch calls (j + 1)).journal.get?
          ((journalAt storeEpoch calls j).floor host) with
      | none => rfl
      | some r' =>
        rcases hstep.fresh _ _ hg with h | h
        · rw [hnone] at h
          cases h
        · exact absurd hlt (Nat.not_lt.mpr h)
    · exact ⟨r, ⟨hhost, j, Nat.le_succ j, hr⟩, hgone,
        Nat.lt_of_lt_of_le (Table.get?_lt_next hr) hstep.next_le⟩

lemma floor_le_of_accepted {s : JournalStore} {call : DeltaCall} {batch : DeltaBatch}
    {host : String} {since : Nat} (hsince : call.since? = some (host, since))
    (h : turnDeltaBatch s call = .ok batch) : s.floor host ≤ since := by
  unfold turnDeltaBatch at h
  split at h
  · cases h
  unfold DeltaCall.since? at hsince
  split at h
  · rename_i cursor htoken
    rw [htoken] at hsince
    split at h
    · cases h
    split at h
    · cases h
    split at h
    · cases h
    rename_i hfloor
    simp only [Option.ite_none_right_eq_some, Option.some.injEq, Prod.mk.injEq] at hsince
    obtain ⟨hmode, rfl, rfl⟩ := hsince
    exact Nat.not_lt.mp (fun hlt => hfloor ⟨hmode, hlt⟩)
  · rename_i watermark htoken
    rw [htoken] at hsince
    split at h
    · cases h
    split at h
    · cases h
    split at h
    · cases h
    split at h
    · cases h
    rename_i hfloor
    simp only [Option.some.injEq, Prod.mk.injEq] at hsince
    obtain ⟨rfl, rfl⟩ := hsince
    exact Nat.not_lt.mp hfloor
  · rename_i htoken
    rw [htoken] at hsince
    cases hsince

lemma lt_floor_of_expired {s : JournalStore} {call : DeltaCall} {host : String} {since : Nat}
    (hsince : call.since? = some (host, since))
    (h : turnDeltaBatch s call = .error .expiredWatermark) : since < s.floor host := by
  unfold turnDeltaBatch at h
  split at h
  · split at h <;> cases h
  unfold DeltaCall.since? at hsince
  split at h
  · rename_i cursor htoken
    split at h
    · rename_i refusal hdecode
      cases h
      unfold DeltaCursor.decode at hdecode
      split_ifs at hdecode <;> cases hdecode
    split at h
    · cases h
    split at h <;> cases h
  · rename_i watermark htoken
    rw [htoken] at hsince
    split at h
    · cases h
    split at h
    · cases h
    split at h
    · cases h
    split at h
    · rename_i hlt
      simp only [Option.some.injEq, Prod.mk.injEq] at hsince
      obtain ⟨rfl, rfl⟩ := hsince
      exact hlt
    · cases h
  · split at h <;> cases h

end Runs

/-- An accepted request misses no deleted change, an expired one would have, and compaction
never cuts into the newest rows: for every run and every watermark. -/
theorem compactionSound_of_run (storeEpoch : String) (calls : ℕ → JournalCall) (host : String) :
    CompactionSound storeEpoch calls host := by
  refine ⟨?_, ?_, ?_⟩
  · rintro j since ⟨call, batch, -, hsince, hok⟩ seq r ⟨rfl, k, hkj, hk⟩ hlt
    have hfloor := floor_le_of_accepted hsince hok
    rcases written_stored_or_below hkj hk with h | h
    · exact h
    · exact absurd (Nat.lt_of_lt_of_le hlt (Nat.le_trans h hfloor)) (Nat.lt_irrefl since)
  · rintro j since ⟨call, -, hsince, hexpired⟩
    have hlt := lt_floor_of_expired hsince hexpired
    obtain ⟨r, hwritten, hgone, -⟩ := floor_origin j host (Nat.lt_of_le_of_lt (Nat.zero_le _) hlt)
    exact ⟨_, r, hwritten, hlt, hgone⟩
  · rintro j c hcall rfl seq r hr - hnewest
    have hnext : journalAt storeEpoch calls (j + 1) =
        (journalStep (journalAt storeEpoch calls j) (.compact c)).1 := by
      rw [← hcall]
      rfl
    rw [hnext]
    simp only [journalStep]
    cases hc : compactTurnChangeJournal (journalAt storeEpoch calls j) c with
    | none => exact hr
    | some e => exact compact_keeps_newest hc hr hnewest

/-- Two changes, of which compaction deletes the older: since 0 is expired, since 1 is not. -/
example :
    let calls : ℕ → JournalCall
      | 0 => .record [⟨"host", "turn", .upsert, some 5⟩, ⟨"host", "turn", .upsert, some 9⟩]
      | 1 => .compact ⟨"host", 1, 1, 10, 86400006, false⟩
      | n => .delta ⟨"host", .watermark ⟨"host", n - 2, "epoch"⟩, 100, 0, 10, 10, 10, 0⟩
    ExpiredAt "epoch" calls 2 "host" 0 ∧ AcceptedAt "epoch" calls 3 "host" 1 :=
  ⟨⟨_, rfl, rfl, rfl⟩, _, _, rfl, rfl, rfl⟩

end Tendwire

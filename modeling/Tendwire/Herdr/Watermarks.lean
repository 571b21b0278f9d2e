import Mathlib.Logic.Relation
import Tendwire.Herdr.Completions

/-!
# Completion watermarks

Every transaction either begins a watermark, advances it by one with the completion of that turn,
or records a break. As long as no break is recorded, every turn that a watermark passes has its
completion.
-/

namespace Tendwire

open Transition Fallible

/-- The ways of a watermark, in view of the completions that are stored. -/
inductive WatermarkMove (completed : ℕ → ℕ → Prop) :
    Option HerdrTurnWatermark → Option HerdrTurnWatermark → Prop where
  | same (w) : WatermarkMove completed w w
  | baseline (new) : new.completenessBreakCount = 0 → WatermarkMove completed none (some new)
  | advance (old new) : new.turnEpoch = old.turnEpoch → new.lastTurn = old.lastTurn + 1 →
      new.completenessBreakCount = old.completenessBreakCount →
      completed old.turnEpoch (old.lastTurn + 1) → WatermarkMove completed (some old) (some new)
  | broken (old new) : new.completenessBreakCount =
      (old.elim 0 HerdrTurnWatermark.completenessBreakCount) + 1 →
      WatermarkMove completed old (some new)

def CompletionStore.completed (s : CompletionStore) (paneId : String) (turnEpoch turn : ℕ) : Prop :=
  (s.completions (paneId, turnEpoch, turn)).isSome = true

/-- A transaction moves watermarks and forgets no completion. -/
structure CompletionTransaction (s t : CompletionStore) : Prop where
  kept : ∀ paneId e n, s.completed paneId e n → t.completed paneId e n
  moves : ∀ paneId, WatermarkMove (t.completed paneId) (s.watermarks paneId) (t.watermarks paneId)

abbrev CompletionTransactions := Relation.ReflTransGen CompletionTransaction

/-- Transactions that leave the watermarks of other panes alone. -/
def AccountsFor (paneId : String) (s t : CompletionStore) : Prop :=
  CompletionTransactions s t ∧ ∀ other, other ≠ paneId → t.watermarks other = s.watermarks other

variable {env : CompletionConditions} {s t u : CompletionStore} {paneId : String}
  {turnEpoch turn : ℕ} {α : Type}

lemma AccountsFor.refl (s : CompletionStore) : AccountsFor paneId s s :=
  ⟨.refl, fun _ _ => rfl⟩

lemma AccountsFor.trans (s t u : CompletionStore) (h : AccountsFor paneId s t)
    (h' : AccountsFor paneId t u) : AccountsFor paneId s u :=
  ⟨h.1.trans h'.1, fun other hne => (h'.2 other hne).trans (h.2 other hne)⟩

/-- A transaction that writes the watermark of one pane. -/
lemma AccountsFor.of_move (new : HerdrTurnWatermark)
    (hkept : ∀ p e n, s.completed p e n → t.completed p e n)
    (hwatermarks : t.watermarks = Function.update s.watermarks paneId (some new))
    (hmove : WatermarkMove (t.completed paneId) (s.watermarks paneId) (some new)) :
    AccountsFor paneId s t := by
  have hother : ∀ other, other ≠ paneId → t.watermarks other = s.watermarks other := by
    intro other hne
    rw [hwatermarks, Function.update_of_ne hne]
  refine ⟨.single ⟨hkept, fun other => ?_⟩, hother⟩
  by_cases hpane : other = paneId
  · subst hpane
    rw [hwatermarks, Function.update_self]
    exact hmove
  · rw [hother other hpane]
    exact .same _

/-- However the program ends, what it did to the store is accounted for. -/
abbrev Accounts (paneId : String) (m : CompletionProgram α) (s : CompletionStore) : Prop :=
  Meets (fun _ t => AccountsFor paneId s t) (fun _ t => AccountsFor paneId s t) m s

lemma accounts_pure (a : α) : Accounts paneId (pure a) s := meets_pure (.refl s)

lemma accounts_raise (e : CompletionError) : Accounts paneId (raise e : CompletionProgram α) s :=
  meets_raise (.refl s)

/-- A check of a counter reads nothing and writes nothing. -/
lemma accounts_counter {value : ℕ} {field : String} {m : CompletionProgram α}
    (h : Accounts paneId m s) :
    Accounts paneId (herdrTurnCounter value field >>= fun _ => m) s := by
  have hcounter : Meets (fun _ t => s = t) (fun _ t => AccountsFor paneId s t)
      (herdrTurnCounter value field) s := by
    unfold herdrTurnCounter
    split
    · exact meets_pure rfl
    · exact meets_raise (.refl s)
  apply hcounter.bind
  rintro _ _ rfl
  exact h

lemma accounts_upsert {row : Option HerdrTurnWatermark → HerdrTurnWatermark}
    (hmove : WatermarkMove (s.completed paneId) (s.watermarks paneId)
      (some (row (s.watermarks paneId)))) :
    Accounts paneId (upsertWatermark paneId row) s :=
  meets_update (.of_move _ (fun _ _ _ => id) rfl hmove)

/-- The first baseline of a pane. -/
lemma accounts_setHerdrTurnWatermark {lastTurn : ℕ} {now : String}
    (hnone : s.watermarks paneId = none) :
    Accounts paneId (setHerdrTurnWatermark paneId turnEpoch lastTurn now) s := by
  unfold setHerdrTurnWatermark
  apply accounts_counter
  apply accounts_counter
  apply accounts_upsert
  rw [hnone]
  exact .baseline _ rfl

lemma accounts_recordBreak {newestTurn : ℕ} {reason now : String} :
    Accounts paneId (recordHerdrTurnCompletenessBreak paneId turnEpoch newestTurn reason now) s := by
  unfold recordHerdrTurnCompletenessBreak
  apply accounts_counter
  apply accounts_counter
  exact accounts_upsert (.broken _ _ rfl)

variable {record : HerdrTurnCompletionRecord}

/-- The completion of the next turn, stored with the watermark. -/
lemma accounts_storeCompletion {old : HerdrTurnWatermark} {workerId refreshedTurnId : Option String}
    {now : String} (hold : s.watermarks record.paneId = some old)
    (hepoch : old.turnEpoch = record.turnEpoch) (hturn : record.turn = old.lastTurn + 1) :
    Accounts record.paneId (storeCompletion record workerId refreshedTurnId now) s := by
  apply meets_update
  apply AccountsFor.of_move
    { old with lastTurn := max old.lastTurn record.turn, updatedAt := now }
  · intro p e n hcompleted
    unfold CompletionStore.completed at hcompleted ⊢
    dsimp only
    by_cases hkey : (p, e, n) = (record.paneId, record.turnEpoch, record.turn)
    · rw [hkey, Function.update_self]
      rfl
    · rwa [Function.update_of_ne hkey]
  · dsimp only
    rw [hold]
  · rw [hold]
    refine .advance _ _ rfl ?_ rfl ?_
    · dsimp only
      omega
    · unfold CompletionStore.completed
      dsimp only
      rw [hepoch, ← hturn, Function.update_self]
      rfl

lemma accounts_recordHerdrTurnCompletion {old : HerdrTurnWatermark}
    {workerId refreshedTurnId : Option String} {now : String}
    (hold : s.watermarks record.paneId = some old) (hturn : record.turn = old.lastTurn + 1) :
    Accounts record.paneId (recordHerdrTurnCompletion record workerId refreshedTurnId now) s := by
  unfold recordHerdrTurnCompletion
  apply accounts_counter
  apply accounts_counter
  apply accounts_counter
  split
  · exact meets_raise (.refl s)
  · apply Meets.bind (meets_read (Q := fun existing t => s.watermarks record.paneId = existing ∧ s = t)
      ⟨rfl, rfl⟩)
    rintro existing _ ⟨hexisting, rfl⟩
    -- The epoch is compared again with the watermark that the transaction itself reads.
    split
    · exact meets_raise (.refl s)
    · next hsame =>
      apply accounts_storeCompletion hold _ hturn
      rw [← hexisting, hold] at hsame
      simpa using hsame

lemma accounts_recordCompletenessBreak (replay : HerdrPaneTurnsReplay) {reason now : String} :
    Accounts replay.paneId (recordCompletenessBreak replay reason now) s :=
  accounts_recordBreak

lemma accounts_processTurnRecord : Accounts record.paneId (processTurnRecord env record) s := by
  unfold processTurnRecord
  apply Meets.bind (meets_read (Q := fun watermark t =>
    s.watermarks record.paneId = watermark ∧ s = t) ⟨rfl, rfl⟩)
  rintro watermark _ ⟨hwatermark, rfl⟩
  cases watermark with
  | none => exact accounts_recordCompletenessBreak record.replay
  | some old =>
    dsimp only
    split
    · exact accounts_recordCompletenessBreak record.replay
    · split
      · exact accounts_pure ()
      · split
        · exact accounts_recordCompletenessBreak record.replay
        · next hnext =>
          unfold completeTurnRecord
          split
          · exact meets_raise (.refl s)
          · exact accounts_recordHerdrTurnCompletion hwatermark (not_not.mp hnext)

lemma accounts_processTurnRecords {records : List HerdrTurnCompletionRecord}
    (hpane : ∀ record ∈ records, record.paneId = paneId) :
    Accounts paneId (processTurnRecords env records) s := by
  induction records generalizing s with
  | nil => exact accounts_pure ()
  | cons record records ih =>
    have hrecord : Accounts paneId (processTurnRecord env record) s := by
      rw [← hpane record List.mem_cons_self]
      exact accounts_processTurnRecord
    apply hrecord.bind
    intro _ t ht
    have hrest := ih (s := t) fun record hmem => hpane record (List.mem_cons_of_mem _ hmem)
    exact hrest.imp (fun _ _ => ht.trans _ _ _) fun _ _ => ht.trans _ _ _

/-- A replay is consumed with the watermark that the pane still has. -/
lemma accounts_consumeReplay {replay : HerdrPaneTurnsReplay} {watermark : Option HerdrTurnWatermark}
    (hread : s.watermarks replay.paneId = watermark) :
    Accounts replay.paneId (consumeReplay env replay watermark) s := by
  unfold consumeReplay
  cases watermark with
  | none => exact accounts_setHerdrTurnWatermark hread
  | some old =>
    dsimp only
    split
    · exact accounts_recordCompletenessBreak _
    · split
      · exact accounts_recordCompletenessBreak _
      · split
        · exact accounts_recordCompletenessBreak _
        · exact accounts_processTurnRecords replay.samePane

lemma accounts_breakAndRebaseline {reason : String} {again : PaneTurnsReply paneId} :
    Accounts paneId (breakAndRebaseline env reason again) s := by
  unfold breakAndRebaseline
  cases again with
  | replay replay asked =>
    dsimp only
    rw [← asked]
    exact accounts_recordCompletenessBreak _
  | errorResponse _ _ => exact accounts_pure ()
  | methodUnavailable => exact accounts_pure ()
  | raised => exact meets_raise (.refl s)

lemma accounts_consumePaneReplay {watermark : Option HerdrTurnWatermark}
    {first again : PaneTurnsReply paneId} (hread : s.watermarks paneId = watermark) :
    Accounts paneId (consumePaneReplay env watermark first again) s := by
  unfold consumePaneReplay
  cases first with
  | replay replay asked =>
    dsimp only
    rw [← asked]
    exact accounts_consumeReplay (asked ▸ hread)
  | errorResponse code message =>
    dsimp only
    split
    · exact accounts_breakAndRebaseline
    · split
      · exact accounts_breakAndRebaseline
      · exact accounts_pure ()
  | methodUnavailable => exact accounts_pure ()
  | raised => exact meets_raise (.refl s)

/-! ### The runs of the event thread -/

/-- What a pass has still to come to is read from watermarks that nothing has written since. -/
structure ReplayReads (w : CompletionState) : Prop where
  once : (w.replaying.map Prod.fst).Nodup
  current : ∀ entry ∈ w.replaying, w.store.watermarks entry.1 = entry.2

lemma replayReads_nil (s : CompletionStore) : ReplayReads ⟨s, []⟩ :=
  ⟨.nil, fun _ hmem => absurd hmem List.not_mem_nil⟩

/-- One pane of a pass leaves the reads of the others as they are. -/
lemma ReplayReads.next {watermark : Option HerdrTurnWatermark}
    {rest : List (String × Option HerdrTurnWatermark)}
    (h : ReplayReads ⟨s, (paneId, watermark) :: rest⟩) (ht : AccountsFor paneId s t) :
    ReplayReads ⟨t, rest⟩ := by
  obtain ⟨honce, hrest⟩ := List.nodup_cons.mp h.once
  refine ⟨hrest, fun entry hmem => ?_⟩
  have hne : entry.1 ≠ paneId := by
    intro heq
    apply honce
    dsimp only
    rw [← heq]
    exact List.mem_map_of_mem hmem
  exact (ht.2 entry.1 hne).trans (h.current entry (List.mem_cons_of_mem _ hmem))

lemma nodup_eraseDups (paneIds : List String) : paneIds.eraseDups.Nodup := by
  induction hlength : paneIds.length using Nat.strong_induction_on generalizing paneIds with
  | _ n ih =>
    cases paneIds with
    | nil => exact .nil
    | cons paneId paneIds =>
      rw [List.eraseDups_cons, List.nodup_cons]
      constructor
      · simp [List.mem_eraseDups]
      · apply ih _ _ _ rfl
        rw [← hlength, List.length_cons]
        exact Nat.lt_succ_of_le (List.length_filter_le _ _)

lemma replayReads_begin (s : CompletionStore) (paneIds : List String) :
    ReplayReads ⟨s, paneIds.eraseDups.map fun paneId => (paneId, s.watermarks paneId)⟩ := by
  constructor
  · simp only [List.map_map, Function.comp_def, List.map_id']
    exact nodup_eraseDups paneIds
  · intro entry hmem
    obtain ⟨paneId, -, rfl⟩ := List.mem_map.mp hmem
    rfl

theorem completionStep_accounts {w : CompletionState} {call : CompletionEvent × CompletionConditions}
    (h : ReplayReads w) : ReplayReads (completionStep w call).1 ∧
      CompletionTransactions w.store (completionStep w call).1.store := by
  obtain ⟨store, replaying⟩ := w
  obtain ⟨event, env⟩ := call
  cases event with
  | beginReplay paneIds =>
    cases replaying with
    | nil => exact ⟨replayReads_begin store paneIds, .refl⟩
    | cons entry rest => exact ⟨h, .refl⟩
  | replayPane first again =>
    cases replaying with
    | nil => exact ⟨h, .refl⟩
    | cons entry rest =>
      obtain ⟨paneId, watermark⟩ := entry
      have hread : store.watermarks paneId = watermark := h.current _ List.mem_cons_self
      have haccounts := @accounts_consumePaneReplay env _ _ _ (first paneId) (again paneId) hread
      dsimp only [completionStep]
      split
      · next hrun => exact ⟨h.next (haccounts.ok hrun), (haccounts.ok hrun).1⟩
      · next hrun => exact ⟨replayReads_nil _, (haccounts.error hrun).1⟩
  | live record =>
    cases replaying with
    | nil =>
      have haccounts := @accounts_processTurnRecord env store record
      dsimp only [completionStep]
      split
      · next hrun => exact ⟨replayReads_nil _, (haccounts.ok hrun).1⟩
      · next hrun => exact ⟨replayReads_nil _, (haccounts.error hrun).1⟩
    | cons entry rest => exact ⟨h, .refl⟩
  | interrupt => exact ⟨replayReads_nil store, .refl⟩

/-- What the watermark of a pane has passed without a break in between. -/
structure WatermarkPassed (paneId : String) (s t : CompletionStore)
    (old new : HerdrTurnWatermark) : Prop where
  breaks : old.completenessBreakCount ≤ new.completenessBreakCount
  unbroken : new.completenessBreakCount = old.completenessBreakCount →
    new.turnEpoch = old.turnEpoch ∧ old.lastTurn ≤ new.lastTurn ∧
    ∀ n, old.lastTurn < n → n ≤ new.lastTurn → t.completed paneId old.turnEpoch n

lemma WatermarkPassed.refl (old : HerdrTurnWatermark) : WatermarkPassed paneId s s old old :=
  ⟨Nat.le_refl _, fun _ => ⟨rfl, Nat.le_refl _, fun _ hlt hle => absurd hlt (Nat.not_lt.mpr hle)⟩⟩

/-- One more transaction. -/
lemma WatermarkPassed.step {old mid : HerdrTurnWatermark}
    (h : WatermarkPassed paneId s t old mid) (hmid : t.watermarks paneId = some mid)
    (hstep : CompletionTransaction t u) : ∃ new, u.watermarks paneId = some new ∧
      WatermarkPassed paneId s u old new := by
  have hmove := hstep.moves paneId
  rw [hmid] at hmove
  generalize hnew : u.watermarks paneId = w at hmove
  cases hmove with
  | same =>
    refine ⟨mid, rfl, h.breaks, fun hcount => ?_⟩
    obtain ⟨hepoch, hle, hall⟩ := h.unbroken hcount
    exact ⟨hepoch, hle, fun n hlt hn => hstep.kept _ _ _ (hall n hlt hn)⟩
  | advance _ new hepoch' hturn hcount' hcompleted =>
    refine ⟨new, rfl, hcount' ▸ h.breaks, fun hcount => ?_⟩
    obtain ⟨hepoch, hle, hall⟩ := h.unbroken (hcount' ▸ hcount)
    refine ⟨hepoch'.trans hepoch, by omega, fun n hlt hn => ?_⟩
    by_cases hn' : n ≤ mid.lastTurn
    · exact hstep.kept _ _ _ (hall n hlt hn')
    · have hlast : n = mid.lastTurn + 1 := by omega
      rw [hlast, ← hepoch]
      exact hcompleted
  | broken _ new hcount' =>
    -- A break is for good: the counts differ from now on.
    have hmore : old.completenessBreakCount < new.completenessBreakCount := by
      rw [hcount']
      exact Nat.lt_succ_of_le h.breaks
    exact ⟨new, rfl, Nat.le_of_lt hmore, fun hcount => absurd hcount (Nat.ne_of_gt hmore)⟩

theorem watermarkPassed_of_transactions {old : HerdrTurnWatermark}
    (h : CompletionTransactions s t) (hold : s.watermarks paneId = some old) :
    ∃ new, t.watermarks paneId = some new ∧ WatermarkPassed paneId s t old new := by
  induction h with
  | refl => exact ⟨old, hold, .refl old⟩
  | tail _ hstep ih =>
    obtain ⟨mid, hmid, hpassed⟩ := ih
    exact hpassed.step hmid hstep

/-- The store behind the first `n` events. -/
def storeAt (s : CompletionStore) (calls : ℕ → CompletionEvent × CompletionConditions) (n : ℕ) :
    CompletionStore :=
  (completionMachine.stateAt ⟨s, []⟩ calls n).store

/-- Every event comes to transactions that begin, advance by a completion or break, and between two
breaks every turn passed is stored. -/
structure WatermarksAccount (s : CompletionStore)
    (calls : ℕ → CompletionEvent × CompletionConditions) : Prop where
  moves : ∀ n, CompletionTransactions (storeAt s calls n) (storeAt s calls (n + 1))
  passed : ∀ i n paneId old, i ≤ n → (storeAt s calls i).watermarks paneId = some old →
    ∃ new, (storeAt s calls n).watermarks paneId = some new ∧
      WatermarkPassed paneId (storeAt s calls i) (storeAt s calls n) old new

theorem watermarksAccount (s : CompletionStore)
    (calls : ℕ → CompletionEvent × CompletionConditions) : WatermarksAccount s calls := by
  have hreads : ∀ n, ReplayReads (completionMachine.stateAt ⟨s, []⟩ calls n) :=
    completionMachine.stateAt_invariant (replayReads_nil s) fun _ _ h =>
      (completionStep_accounts h).1
  have hmoves : ∀ n, CompletionTransactions (storeAt s calls n) (storeAt s calls (n + 1)) :=
    fun n => (completionStep_accounts (hreads n)).2
  refine ⟨hmoves, fun i n paneId old hi hold => watermarkPassed_of_transactions ?_ hold⟩
  induction n, hi using Nat.le_induction with
  | base => exact .refl
  | succ n _ ih => exact ih.trans (hmoves n)

end Tendwire

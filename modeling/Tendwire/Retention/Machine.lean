import Tendwire.Connector.Statements
import Tendwire.Retention.ContentRetention

/-!
# The store with its maintenance

The connector together with the cleanups: each call is one transaction, and a transaction that
leaves a turn with two current revisions is refused. A store maintenance is three transactions,
an automatic one serves several hosts in a single transaction.
-/

namespace Tendwire.Connector

/-- `ux_turn_content_current`: one current revision of a turn. -/
def currentSchema : Relational.Schema RevisionRow (String × String) where
  check := fun _ => true
  keys := [fun r => if r.isCurrent then some (r.hostId, r.turnId) else none]

/-- The hosts with final roots, those that were never served or not for the longest time first. -/
structure AutomaticMaintenance where
  hostIds : List String
  retentionDays : Int
  retentionCount : Int
  batchSize : Nat

def AutomaticMaintenance.validPolicy (req : AutomaticMaintenance) : Bool :=
  decide (0 < req.retentionDays ∧ 0 < req.retentionCount ∧
    req.retentionDays ≤ maxRetentionDays ∧ req.retentionCount ≤ sqliteMaxInteger)

inductive StoreCall where
  | connector (call : Call)
  | cleanupFinals (req : FinalCleanup) (now : Int)
  | cleanupContent (req : ContentCleanup) (now : Int)
  | automatic (req : AutomaticMaintenance) (now : Int)

/-- The arguments of `run_store_maintenance` that its connector batches read. -/
structure StoreMaintenance where
  exhaustAttempts : Int
  finals : FinalCleanup
  content : ContentCleanup
  dryRun : Bool

/-- `run_store_maintenance`: each batch is a transaction with its own clock. -/
def StoreMaintenance.calls (req : StoreMaintenance) (exhaustAt finalsAt contentAt : Int) :
    List StoreCall :=
  (if req.dryRun then []
    else [.connector (.exhaust req.finals.hostId req.exhaustAttempts exhaustAt)]) ++
  [.cleanupFinals { req.finals with dryRun := req.dryRun } finalsAt,
    .cleanupContent { req.content with hostId := req.finals.hostId, dryRun := req.dryRun } contentAt]

namespace Store

/-- The finals of one host, as many as the budget of the run still allows. -/
def serveHost (req : AutomaticMaintenance) (now : Int) (run : Store × Nat) (hostId : String) :
    Txn (Store × Nat) :=
  let turns := (run.1.acknowledgedFinalRetentionCandidates hostId
    (utcCutoff req.retentionDays now) req.retentionCount run.2).map (·.turnId)
  (turns.foldlM (fun (s : Store) turnId =>
    s.deleteAcknowledgedFinalTurn hostId turnId req.retentionCount) run.1).map
      (·, run.2 - turns.length)

/-- The retention of finals in `maybe_run_automatic_store_maintenance`, when it is due. -/
def maybeRunAutomaticStoreMaintenance (s : Store) (req : AutomaticMaintenance) (now : Int) :
    Txn Store := do
  require req.validPolicy .invalidParams
  let run ← req.hostIds.foldlM (serveHost req now) (s, req.batchSize)
  return run.1

def storeCall (s : Store) : StoreCall → Txn Store
  | .connector call => (s.call call).map Prod.fst
  | .cleanupFinals req now => s.cleanupAcknowledgedFinalRetention req now
  | .cleanupContent req now => s.cleanupTurnContentRetention req now
  | .automatic req now => s.maybeRunAutomaticStoreMaintenance req now

/-- A call commits unless it is refused or breaks the index. -/
def storeStep (s : Store) (c : StoreCall) : Store :=
  match s.storeCall c with
  | .ok s' => if currentSchema.Holds s'.revisions.table then s' else s
  | .error _ => s

def storeRun (s : Store) (calls : List StoreCall) : Store := calls.foldl storeStep s

variable {s s' : Store}

/-- A step is a call that succeeds, or changes nothing. -/
theorem storeStep_cases (s : Store) (c : StoreCall) :
    s.storeStep c = s ∨ s.storeCall c = .ok (s.storeStep c) ∧
      currentSchema.Holds (s.storeStep c).revisions.table := by
  unfold storeStep
  split
  · next s' hs' =>
    split
    · next hcurrent => exact .inr ⟨hs', hcurrent⟩
    · exact .inl rfl
  · exact .inl rfl

/-! ### Cleanups are chains of statements -/

lemma writes_deletesTurn {hostId turnId : String} {tombstoneRetentionCount : Int}
    (h : s.deleteAcknowledgedFinalTurn hostId turnId tombstoneRetentionCount = .ok s') :
    Writes s s' := by
  obtain ⟨s₁, hs₁, h⟩ := bind_eq_ok.mp h
  obtain ⟨s₂, hs₂, h⟩ := bind_eq_ok.mp h
  obtain rfl := Except.ok.inj h
  have hplans : Writes s s₁ := by
    refine Writes.andThen ?_ (.deletePlans hs₁)
    exact ((Writes.of (.recoveries _)).andThen (.deleteDeliveries _)).andThen (.jobs _)
  refine (hplans.andThen (.deleteOutbox hs₂)).trans ?_
  exact ((Writes.of (.deleteDeliveries _)).andThen (.deleteDeliveries _)).andThen (.turns _ _)

lemma writes_deletesTurns {hostId : String} {turns : List String} {tombstoneRetentionCount : Int}
    (h : turns.foldlM (fun s turnId =>
      s.deleteAcknowledgedFinalTurn hostId turnId tombstoneRetentionCount) s = .ok s') :
    Writes s s' :=
  Transition.foldlM_rel Writes.refl (fun _ _ _ h h' => h.trans h')
    (fun _ _ _ h => writes_deletesTurn h) turns h

lemma writes_cleanupFinals {req : FinalCleanup} {now : Int}
    (h : s.cleanupAcknowledgedFinalRetention req now = .ok s') : Writes s s' := by
  unfold cleanupAcknowledgedFinalRetention at h
  split at h
  · rw [Except.ok.inj h]
    exact .refl s'
  · exact writes_deletesTurns h

lemma writes_automatic {req : AutomaticMaintenance} {now : Int}
    (h : s.maybeRunAutomaticStoreMaintenance req now = .ok s') : Writes s s' := by
  obtain ⟨_, -, h⟩ := bind_eq_ok.mp h
  obtain ⟨run, hrun, h⟩ := bind_eq_ok.mp h
  obtain rfl := Except.ok.inj h
  refine Transition.foldlM_invariant (P := fun run : Store × Nat => Writes s run.1)
    (fun run hostId run' _ hw hserve => ?_) (.refl s) hrun
  obtain ⟨s₁, hs₁, rfl⟩ := map_eq_ok.mp hserve
  exact hw.trans (writes_deletesTurns hs₁)

lemma writes_deletePlanWork {planId : Nat} (h : s.deletePlanWork planId = .ok s') :
    Writes s s' :=
  (((Writes.of (.recoveries _)).andThen (.deleteDeliveries _)).andThen (.jobs _)).andThen
    (.deleteOutbox h)

/-- A summary keeps the times and the state of its plan. -/
theorem summarizePlan_spec {planId partCount : Nat} (h : s.summarizePlan planId partCount = .ok s') :
    ∃ p plans, s.plans.get? planId = some p ∧ p.state = .superseded ∧ s' = { s with plans } ∧
      ∀ i, plans.get? i = if i = planId then some { p with sourceOutboxId := none, partCount }
        else s.plans.get? i := by
  unfold summarizePlan at h
  split at h
  · next hany =>
    obtain ⟨p, hp, hstate⟩ := (Option.any_eq_true _ _).mp hany
    obtain ⟨plans, hplans, rfl⟩ := map_demand_eq_ok.mp h
    rw [beq_iff_eq] at hstate
    refine ⟨p, plans, hp, hstate, rfl, fun i => ?_⟩
    rw [Relational.Constrained.get?_updateWhere hplans]
    by_cases hi : i = planId
    · subst hi
      simp [hp, hstate]
    · simp [hi]
  · cases h

lemma writes_summarizePlan {planId partCount : Nat}
    (h : s.summarizePlan planId partCount = .ok s') : Writes s s' := by
  obtain ⟨p, plans, hp, -, rfl, hplans⟩ := summarizePlan_spec h
  refine .of (.plans plans fun hs i x hx => ?_)
  rw [hplans] at hx
  split at hx
  · obtain rfl := Option.some.inj hx
    have hfits := hs.plans planId p hp
    have hsound := hfits.sound
    exact ⟨⟨hsound.preparing, hsound.active, hsound.completed⟩, hfits.name, fun o ho => by cases ho⟩
  · exact hs.plans i x hx

lemma writes_retirePlan {planId : Nat} {p : Plan} {cutoffAt : Int} {retainSummary : Bool}
    {summaryPartCount : Nat}
    (h : s.retirePlan planId p cutoffAt retainSummary summaryPartCount = .ok s') : Writes s s' := by
  unfold retirePlan at h
  split at h
  · obtain ⟨s₁, hs₁, h⟩ := bind_eq_ok.mp h
    exact (writes_summarizePlan hs₁).andThen (.deletePlans h)
  · exact .of (.deletePlans h)

lemma writes_deleteTerminalSourceAnchor {sourceOutboxId : Nat} {hostId turnId : String}
    {revision : ContentRevision} {cutoffAt : Int} {sourceStatus : OutboxStatus} {allowYoung : Bool}
    (h : s.deleteTerminalSourceAnchor sourceOutboxId hostId turnId revision cutoffAt sourceStatus
      allowYoung = .ok s') : Writes s s' := by
  unfold deleteTerminalSourceAnchor at h
  split at h
  · rw [Except.ok.inj h]
    exact .refl s'
  · exact (Writes.of (.deleteDeliveries _)).andThen (.deleteOutbox h)

lemma writes_deleteSourceOf {p : Plan} {cutoffAt : Int} {sourceStatus : OutboxStatus}
    {allowYoung : Bool} (h : s.deleteSourceOf p cutoffAt sourceStatus allowYoung = .ok s') :
    Writes s s' := by
  unfold deleteSourceOf at h
  split at h
  · exact writes_deleteTerminalSourceAnchor h
  · rw [Except.ok.inj h]
    exact .refl s'

lemma writes_deleteSupersededRevision (req : ContentCleanup) (revisionId : Nat) (cutoffAt : Int)
    (allowYoung : Bool) :
    Writes s (s.deleteSupersededRevision req revisionId cutoffAt allowYoung) :=
  .of (.turns s.turns _)

lemma writes_deleteRevisionOf (req : ContentCleanup) (p : Plan) (cutoffAt : Int)
    (allowYoung : Bool) : Writes s (s.deleteRevisionOf req p cutoffAt allowYoung) := by
  unfold deleteRevisionOf
  split
  · exact writes_deleteSupersededRevision _ _ _ _
  · exact .refl s

lemma writes_deleteRetainedPlan {req : ContentCleanup} {planId : Nat} {p : Plan} {cutoffAt : Int}
    {retainSummary : Bool} {summaryPartCount : Nat}
    (h : s.deleteRetainedPlan req planId p cutoffAt retainSummary summaryPartCount = .ok s') :
    Writes s s' := by
  obtain ⟨s₁, hs₁, h⟩ := bind_eq_ok.mp h
  obtain ⟨s₂, hs₂, h⟩ := bind_eq_ok.mp h
  obtain ⟨s₃, hs₃, h⟩ := bind_eq_ok.mp h
  obtain rfl := Except.ok.inj h
  have hplan := (writes_deletePlanWork hs₁).trans (writes_retirePlan hs₂)
  exact (hplan.trans (writes_deleteSourceOf hs₃)).trans (writes_deleteRevisionOf _ _ _ _)

/-- A candidate is skipped, or its plan, source or revision goes. -/
theorem treatCandidate_cases {req : ContentCleanup} {cutoffAt : Int} {c : ContentCandidate}
    (h : treatCandidate req cutoffAt s c = .ok s') :
    s' = s ∨
    (∃ i p, c = .plan i ∧ s.plans.get? i = some p ∧ p.hostId = req.hostId ∧
      s.terminalPlanReferenceReason i p cutoffAt req.boundedRetentionCount = none ∧
      s.deleteRetainedPlan req i p cutoffAt (s.supersededPlanSummary i p).1
        (s.supersededPlanSummary i p).2 = .ok s') ∨
    (∃ i hostId turnId revision,
      s.deleteTerminalSourceAnchor i hostId turnId revision cutoffAt .superseded false = .ok s') ∨
    ∃ i, s' = s.deleteSupersededRevision req i cutoffAt false := by
  unfold treatCandidate at h
  split at h
  · next i =>
    split at h
    · next p hp =>
      unfold treatPlan at h
      split at h
      · exact .inl (Except.ok.inj h).symm
      · next hc =>
        simp only [Bool.or_eq_true, bne_iff_ne, not_or, not_not, Bool.not_eq_true,
          Option.isSome_eq_false_iff, Option.isNone_iff_eq_none] at hc
        exact .inr (.inl ⟨i, p, rfl, hp, hc.1, hc.2, h⟩)
    · exact .inl (Except.ok.inj h).symm
  · next i =>
    split at h
    · next source hsource =>
      unfold treatSource at h
      split at h
      · exact .inr (.inr (.inl ⟨i, _, _, _, h⟩))
      · exact .inl (Except.ok.inj h).symm
    · exact .inl (Except.ok.inj h).symm
  · next i => exact .inr (.inr (.inr ⟨i, (Except.ok.inj h).symm⟩))

lemma writes_treatCandidate {req : ContentCleanup} {cutoffAt : Int} {c : ContentCandidate}
    (h : treatCandidate req cutoffAt s c = .ok s') : Writes s s' := by
  obtain rfl | ⟨i, p, -, -, -, -, h⟩ | ⟨i, hostId, turnId, revision, h⟩ | ⟨i, rfl⟩ :=
    treatCandidate_cases h
  · exact .refl s'
  · exact writes_deleteRetainedPlan h
  · exact writes_deleteTerminalSourceAnchor h
  · exact writes_deleteSupersededRevision _ _ _ _

lemma writes_cleanupContent {req : ContentCleanup} {now : Int}
    (h : s.cleanupTurnContentRetention req now = .ok s') : Writes s s' := by
  unfold cleanupTurnContentRetention at h
  split at h
  · rw [Except.ok.inj h]
    exact .refl s'
  · exact Transition.foldlM_rel Writes.refl (fun _ _ _ h h' => h.trans h')
      (fun _ _ _ h => writes_treatCandidate h) _ h

lemma writes_storeCall {c : StoreCall} (h : s.storeCall c = .ok s') : Writes s s' := by
  cases c with
  | connector call =>
    obtain ⟨⟨s₁, answer⟩, hcall, rfl⟩ := map_eq_ok.mp h
    exact respects_writes.call hcall
  | cleanupFinals req now => exact writes_cleanupFinals h
  | cleanupContent req now => exact writes_cleanupContent h
  | automatic req now => exact writes_automatic h

/-! ### The second check -/

lemma hasNewerCompleted_iff {i : Nat} {p : Plan} : s.hasNewerCompleted i p = true ↔
    ∃ j x, s.plans.get? j = some x ∧ p.sameTurn x = true ∧ i < j ∧ x.state = .completed ∧
      x.completedAt.isSome = true := by
  unfold hasNewerCompleted
  rw [Relational.Table.any_iff]
  simp only [Bool.and_eq_true, decide_eq_true_eq, beq_iff_eq, and_assoc]
  rfl

/-- What holds of a plan that the second check lets go. -/
theorem terminalPlanReferenceReason_eq_none {i : Nat} {p : Plan} {cutoffAt retentionCount : Int}
    (h : s.terminalPlanReferenceReason i p cutoffAt retentionCount = none) :
    (∀ o, p.sourceOutboxId = some o →
      (s.planSourceReason i p o cutoffAt retentionCount).1 = none) ∧
    (p.state = .preparing ∧ (∀ k j, s.jobs.get? k = some j → j.planId = i → j.outboxId = none) ∨
      p.state.finished = true ∧
      (p.sourceOutboxId = none → p.activatedAt.isSome = true → i < s.newestCompletedId p) ∧
      ∃ allowYoung, s.jobAnchorReason i p cutoffAt allowYoung = none) := by
  have hrest : ∀ allowYoung : Bool,
      (if p.state == .preparing then
        if s.jobs.table.any fun _ j => j.planId == i && j.outboxId.isSome then some "reference"
        else none
      else if !p.state.finished then some "reference"
      else if p.sourceOutboxId.isNone && s.hasLiveReplacement p then some "replacement"
      else if p.sourceOutboxId.isNone && p.activatedAt.isSome &&
          (s.newestCompletedId p == 0 || decide (s.newestCompletedId p ≤ i)) then
        some "failed_prefix_or_current_baseline"
      else s.jobAnchorReason i p cutoffAt allowYoung) = none →
      p.state = .preparing ∧ (∀ k j, s.jobs.get? k = some j → j.planId = i → j.outboxId = none) ∨
      p.state.finished = true ∧
      (p.sourceOutboxId = none → p.activatedAt.isSome = true → i < s.newestCompletedId p) ∧
      ∃ allowYoung, s.jobAnchorReason i p cutoffAt allowYoung = none := by
    intro allowYoung h
    split at h
    · next hstate =>
      left
      refine ⟨by simpa using hstate, fun k j hj hid => ?_⟩
      split at h
      · cases h
      · next hany =>
        have hfalse := Relational.Table.any_eq_false_iff.mp (Bool.eq_false_iff.mpr hany) k j hj
        simpa [hid] using hfalse
    · right
      split at h
      · cases h
      · next hfinished =>
        split at h
        · cases h
        · split at h
          · cases h
          · next hbase =>
            refine ⟨by simpa using hfinished, fun hnone hactivated => ?_, _, h⟩
            simp only [hnone, hactivated, Option.isNone_none, Bool.true_and, Bool.or_eq_true,
              beq_iff_eq, decide_eq_true_eq, not_or, not_le] at hbase
            exact hbase.2
  unfold terminalPlanReferenceReason at h
  cases hsource : p.sourceOutboxId with
  | none =>
    rw [hsource] at h hrest
    exact ⟨fun o ho => (by cases ho), hrest false h⟩
  | some o =>
    rw [hsource] at h hrest
    dsimp only at h
    split at h
    · next hsome =>
      rw [h] at hsome
      cases hsome
    · next hnone =>
      refine ⟨fun o' ho => ?_, hrest _ h⟩
      obtain rfl := Option.some.inj ho
      simpa using hnone

/-- A completed plan with a source goes only after a later completed plan. -/
lemma planSourceReason_newer {i : Nat} {p : Plan} {o : Nat} {cutoffAt retentionCount : Int}
    (hsound : p.Sound) (hcompleted : p.completedAt.isSome = true)
    (h : (s.planSourceReason i p o cutoffAt retentionCount).1 = none) :
    ∃ j x, s.plans.get? j = some x ∧ p.sameTurn x = true ∧ i < j ∧
      x.completedAt.isSome = true := by
  have hwas : p.wasCompleted = true := by
    obtain ⟨-, hstate | hstate⟩ := hsound.completed hcompleted
    · simp [Plan.wasCompleted, hstate]
    · simp [Plan.wasCompleted, hstate, hcompleted]
  unfold planSourceReason at h
  simp only [hwas, Bool.not_true, Bool.and_false, Bool.false_eq_true, if_false, if_true] at h
  split at h
  · cases h
  · split at h
    · cases h
    · next hnewer =>
      simp only [Bool.or_eq_true, Bool.not_eq_true', not_or, Bool.not_eq_false] at hnewer
      obtain ⟨j, x, hx, hturn, hlt, -, hc⟩ := hasNewerCompleted_iff.mp hnewer.1
      exact ⟨j, x, hx, hturn, hlt, hc⟩

/-! ### Reachable stores -/

/-- Consistent, with one current revision of each turn. -/
structure Regular (s : Store) : Prop extends Consistent s where
  current : currentSchema.Holds s.revisions.table

lemma regular_initial (supersessions : Relational.Constrained supersessionSchema) :
    Regular (initial supersessions) :=
  ⟨consistent_initial supersessions, Relational.Constrained.empty.holds⟩

theorem Regular.step (h : Regular s) (c : StoreCall) : Regular (s.storeStep c) := by
  rcases storeStep_cases s c with heq | ⟨hcall, hcurrent⟩
  · rwa [heq]
  · exact ⟨(writes_storeCall hcall).consistent h.toConsistent, hcurrent⟩

theorem Regular.run (h : Regular s) (calls : List StoreCall) : Regular (s.storeRun calls) :=
  Transition.foldl_invariant (P := Regular) (fun _ c _ h => h.step c) h

end Store

/-! ### Finals of a sample turn

The calls by which a consumer takes a final of the sample turn, for runs on fixed inputs. Each
final is two characters long. -/

def retainedRow (text current : String) : RevisionRow :=
  { sampleRow text current with finalCharLength := 2, finalByteLength := 2 }

def retainedRevisions (current : String) : Relational.Constrained revisionSchema :=
  (Relational.Constrained.write (["a", "b", "c", "d"].foldl (fun t text =>
    t.insert (retainedRow text current)) .empty)).getD .empty

/-- The turn shows a final, and its root is ensured. -/
def showFinal (text : String) (now : Int) : StoreCall :=
  .connector (.refreshTurns [.write (sampleTurns "worker") (retainedRevisions text),
    .ensure "host" (sampleRevision text) now])

def pollFinal (ref : Nat) (now : Int) : StoreCall :=
  .connector (.poll
    { hostId := "host"
      name := turnFinalName
      limit := 1
      leaseSeconds := 60
      maxAttempts := none
      secrets := fun _ => ⟨ref, ref⟩ } now)

def beginFinal (text : String) (partCount ref : Nat) (now : Int) : StoreCall :=
  .connector (.planBegin
    { hostId := "host"
      name := turnFinalName
      turnId := "turn"
      contentRevision := sampleRevision text
      presentationVersion := "v1"
      partCount
      sourceRef := some ref } now)

def finalToken (text : String) (partCount : Nat) : PlanToken :=
  .plan "host" turnFinalName "turn" (sampleRevision text) "v1" partCount 1

def partOfFinal (text : String) (partCount ordinal startChar endChar : Nat) (now : Int) :
    StoreCall :=
  .connector (.planPart "host" turnFinalName (finalToken text partCount) ordinal
    [⟨.assistantFinalText, startChar, endChar⟩] now)

def commitFinal (text : String) (partCount ref : Nat) (now : Int) : StoreCall :=
  .connector (.planCommit
    { hostId := "host"
      name := turnFinalName
      planToken := finalToken text partCount
      sourceRef := some ref
      ackTtlSeconds := 100 } now)

def ackFinal (ref : Nat) (now : Int) : StoreCall :=
  .connector (.ack "host" turnFinalName ref 100 now)

/-- The final `a` in two parts, both acknowledged. -/
def acknowledgedFinal : List StoreCall :=
  [showFinal "a" 0, pollFinal 1 1, beginFinal "a" 2 1 2, partOfFinal "a" 2 0 0 1 3,
    partOfFinal "a" 2 1 1 2 3, commitFinal "a" 2 1 4, pollFinal 2 5, ackFinal 2 6, pollFinal 3 7,
    ackFinal 3 8]

end Tendwire.Connector

import Tendwire.Retention.Safety

/-!
# The presentation footprint under content retention

The next commit of a turn retires the parts that its activated plans have shown since the last
one that was ever completed. A batch of content retention folds superseded plans into a summary
that counts from the last plan that is completed still.
-/

namespace Tendwire.Connector

open Relational

/-- `COALESCE(MAX(id), 0)`. -/
lemma newestId_le_iff {ρ : Type} {t : Table ρ} {q : Nat → ρ → Bool} {n : Nat} :
    ((t.newest? q).map Prod.fst).getD 0 ≤ n ↔
      ∀ i r, t.get? i = some r → q i r = true → i ≤ n := by
  cases h : t.newest? q with
  | none =>
    simp only [Option.map_none, Option.getD_none, Nat.zero_le, true_iff]
    intro i r hr hq
    have hfalse := Table.newest?_eq_none h hr
    rw [hq] at hfalse
    cases hfalse
  | some e =>
    obtain ⟨i, r⟩ := e
    obtain ⟨hr, hq, hmax⟩ := Table.newest?_eq_some h
    simp only [Option.map_some, Option.getD_some]
    constructor
    · exact fun hle j x hx hqx => (hmax j x hx hqx).trans hle
    · exact fun hall => hall i r hr hq

/-- `COALESCE(MAX(part_count), 0)`. -/
lemma maxParts_le_iff {t : Table Plan} {q : Nat → Plan → Bool} {n : Nat} :
    ((t.select q).map (·.2.partCount)).foldl max 0 ≤ n ↔
      ∀ i p, t.get? i = some p → q i p = true → p.partCount ≤ n := by
  rw [Transition.foldl_max_le_iff]
  simp only [Nat.zero_le, true_and, List.mem_map, forall_exists_index, and_imp, Prod.forall]
  constructor
  · exact fun h i p hp hq => h _ i p (Table.mem_select.mpr ⟨hp, hq⟩) rfl
  · rintro h _ i p hmem rfl
    obtain ⟨hp, hq⟩ := Table.mem_select.mp hmem
    exact h i p hp hq

namespace Store

variable {s s' : Store}

/-- What the commit of a plan computes as `prior_part_count`. -/
def nextPriorPartCount (s : Store) (hostId name turnId : String) (planId : Nat)
    (sourceOutboxId : Option Nat) : Nat :=
  max (s.priorPartCount hostId name turnId planId)
    (((sourceOutboxId.bind s.outbox.get?).map (·.priv.presentationMaxPartCount)).getD 0)

/-- The plan is not there yet or is being prepared, and its source, if any, is leased. -/
structure NextPlan (s : Store) (planId : Nat) (sourceOutboxId : Option Nat) : Prop where
  plan : ∀ p, s.plans.get? planId = some p → p.state = .preparing
  source : ∀ i, sourceOutboxId = some i → ∃ r, s.outbox.get? i = some r ∧ r.status = .leased

/-! ### When a batch keeps the footprint -/

/-- The plan of the turn that was completed last before a plan and still is. -/
def lastCompletedBefore (s : Store) (i : Nat) (p : Plan) : Nat :=
  s.newestPlanId p fun j x => decide (j < i) && x.state == .completed && x.completedAt.isSome

/-- Some activated plan of the turn, since the last one ever completed, has as many parts. -/
def Covered (s : Store) (p : Plan) (partCount : Nat) (q : Nat → Prop) : Prop :=
  ∃ k y, q k ∧ s.plans.get? k = some y ∧ p.sameTurn y = true ∧ y.activatedAt.isSome = true ∧
    s.newestCompletedId p ≤ k ∧ partCount ≤ y.partCount

/-- The summary counts no plan that a completed one has replaced, unless the count is not
more than what was shown since. -/
def SummaryKeepsFootprint (s : Store) (i : Nat) (p : Plan) : Prop :=
  ∀ j x, s.plans.get? j = some x → p.sameTurn x = true → x.activatedAt.isSome = true →
    s.lastCompletedBefore i p ≤ j → j < s.newestCompletedId p →
    s.Covered p x.partCount fun _ => True

/-- The plan was never shown, a later one was completed, or another shown plan has as many
parts. -/
def DeletionKeepsFootprint (s : Store) (i : Nat) (p : Plan) : Prop :=
  p.activatedAt = none ∨ i < s.newestCompletedId p ∨ s.Covered p p.partCount (· ≠ i)

/-- A plan that the batch treats keeps the footprint, as a summary or by its deletion. -/
def KeepsFootprint (s : Store) (req : ContentCleanup) (cutoffAt : Int) (c : ContentCandidate) :
    Prop :=
  ∀ i p, c = .plan i → s.plans.get? i = some p → p.hostId = req.hostId →
    s.terminalPlanReferenceReason i p cutoffAt req.boundedRetentionCount = none →
    if (s.supersededPlanSummary i p).1 then s.SummaryKeepsFootprint i p
    else s.DeletionKeepsFootprint i p

/-- Every candidate keeps the footprint when its turn comes. -/
def TreatmentsKeep (req : ContentCleanup) (cutoffAt : Int) : Store → List ContentCandidate → Prop
  | _, [] => True
  | s, c :: rest => s.KeepsFootprint req cutoffAt c ∧
      ∀ s', treatCandidate req cutoffAt s c = .ok s' → TreatmentsKeep req cutoffAt s' rest

def BatchKeeps (s : Store) (req : ContentCleanup) (now : Int) : Prop :=
  ∀ s', s.cleanupTurnContentRetention req now = .ok s' → req.dryRun = false →
    TreatmentsKeep req (req.cutoffAt now) s
      (s.turnContentRetentionCandidates req (req.cutoffAt now))

def cleanupBatches (s : Store) (batches : List (ContentCleanup × Int)) : Store :=
  s.storeRun (batches.map fun b => .cleanupContent b.1 b.2)

def BatchesKeep : Store → List (ContentCleanup × Int) → Prop
  | _, [] => True
  | s, b :: rest => s.BatchKeeps b.1 b.2 ∧ BatchesKeep (s.storeStep (.cleanupContent b.1 b.2)) rest

/-! ### The footprint as a bound -/

lemma newestPlanId_le_iff {p : Plan} {q : Nat → Plan → Bool} {n : Nat} :
    s.newestPlanId p q ≤ n ↔
      ∀ k z, s.plans.get? k = some z → p.sameTurn z = true → q k z = true → k ≤ n := by
  unfold newestPlanId
  rw [newestId_le_iff]
  simp only [Bool.and_eq_true, and_imp]
  rfl

lemma newestCompletedId_le_iff {p : Plan} {n : Nat} :
    s.newestCompletedId p ≤ n ↔ ∀ k z, s.plans.get? k = some z → p.sameTurn z = true →
      z.completedAt.isSome = true → k ≤ n := newestPlanId_le_iff

/-- The plan belongs to a turn. -/
def OfTurn (hostId name turnId : String) (p : Plan) : Prop :=
  p.hostId = hostId ∧ p.name = name ∧ p.turnId = turnId

lemma sameTurn_iff {p z : Plan} : p.sameTurn z = true ↔ OfTurn p.hostId p.name p.turnId z := by
  simp only [Plan.sameTurn, Bool.and_eq_true, beq_iff_eq, and_assoc, OfTurn]

/-- A plan shown since the last completion of its turn. -/
structure Shown (s : Store) (hostId name turnId : String) (j : Nat) (x : Plan) : Prop where
  get : s.plans.get? j = some x
  turn : OfTurn hostId name turnId x
  activated : x.activatedAt.isSome = true
  since : ∀ k z, s.plans.get? k = some z → OfTurn hostId name turnId z →
    z.completedAt.isSome = true → k ≤ j

/-- The footprint counts the shown plans, whichever plan comes next. -/
lemma priorPartCount_le_iff {hostId name turnId : String} {planId n : Nat}
    (hs : PlansFit s.outbox s.plans) (hnext : ∀ p, s.plans.get? planId = some p → p.state = .preparing) :
    s.priorPartCount hostId name turnId planId ≤ n ↔
      ∀ j x, s.Shown hostId name turnId j x → x.partCount ≤ n := by
  have hfresh : ∀ k z, s.plans.get? k = some z → z.activatedAt.isSome = true → k ≠ planId := by
    rintro k z hz hactivated rfl
    rw [(hs k z hz).sound.preparing (hnext z hz)] at hactivated
    cases hactivated
  have hbase : ∀ j, s.completedBaseline hostId name turnId planId ≤ j ↔
      ∀ k z, s.plans.get? k = some z → OfTurn hostId name turnId z →
        z.completedAt.isSome = true → k ≤ j := by
    intro j
    unfold completedBaseline
    rw [newestId_le_iff]
    simp only [Bool.and_eq_true, beq_iff_eq, bne_iff_ne, and_imp]
    constructor
    · intro h k z hz hturn hcompleted
      exact h k z hz hturn.1 hturn.2.1 hturn.2.2
        (hfresh k z hz ((hs k z hz).sound.completed hcompleted).1) hcompleted
    · exact fun h k z hz hhost hname hturn _ hcompleted => h k z hz ⟨hhost, hname, hturn⟩ hcompleted
  unfold priorPartCount
  rw [maxParts_le_iff]
  simp only [Bool.and_eq_true, beq_iff_eq, bne_iff_ne, decide_eq_true_eq, hbase]
  constructor
  · intro h j x hx
    exact h j x hx.get ⟨⟨⟨⟨⟨hx.turn.1, hx.turn.2.1⟩, hx.turn.2.2⟩, hfresh j x hx.get hx.activated⟩,
      hx.activated⟩, hx.since⟩
  · rintro h j x hx ⟨⟨⟨⟨⟨hhost, hname⟩, hturn⟩, -⟩, hactivated⟩, hsince⟩
    exact h j x ⟨hx, ⟨hhost, hname, hturn⟩, hactivated, hsince⟩

/-- Footprints are equal where the shown plans bound each other. -/
lemma priorPartCount_congr {hostId name turnId : String} {planId : Nat} (hs : PlansFit s.outbox s.plans)
    (hs' : PlansFit s'.outbox s'.plans) (hnext : ∀ p, s.plans.get? planId = some p → p.state = .preparing)
    (hnext' : ∀ p, s'.plans.get? planId = some p → p.state = .preparing)
    (hto : ∀ j x, s.Shown hostId name turnId j x →
      ∃ k y, s'.Shown hostId name turnId k y ∧ x.partCount ≤ y.partCount)
    (hfrom : ∀ j x, s'.Shown hostId name turnId j x → ∀ n,
      (∀ k y, s.Shown hostId name turnId k y → y.partCount ≤ n) → x.partCount ≤ n) :
    s'.priorPartCount hostId name turnId planId = s.priorPartCount hostId name turnId planId := by
  refine eq_of_forall_ge_iff fun n => ?_
  rw [priorPartCount_le_iff hs' hnext', priorPartCount_le_iff hs hnext]
  constructor
  · intro h j x hx
    obtain ⟨k, y, hy, hle⟩ := hto j x hx
    exact hle.trans (h k y hy)
  · exact fun h j x hx => hfrom j x hx n h

/-! ### What a treatment does to the plans -/

lemma deletePlanWork_plans {planId : Nat} (h : s.deletePlanWork planId = .ok s') :
    s'.plans = s.plans := by
  obtain ⟨-, rfl⟩ := deleteOutbox_spec h
  rfl

lemma deleteTerminalSourceAnchor_plans {sourceOutboxId : Nat} {hostId turnId : String}
    {revision : ContentRevision} {cutoffAt : Int} {sourceStatus : OutboxStatus} {allowYoung : Bool}
    (h : s.deleteTerminalSourceAnchor sourceOutboxId hostId turnId revision cutoffAt sourceStatus
      allowYoung = .ok s') : s'.plans = s.plans := by
  unfold deleteTerminalSourceAnchor at h
  split at h
  · rw [Except.ok.inj h]
  · obtain ⟨-, rfl⟩ := deleteOutbox_spec h
    rfl

lemma deleteSourceOf_plans {p : Plan} {cutoffAt : Int} {sourceStatus : OutboxStatus}
    {allowYoung : Bool} (h : s.deleteSourceOf p cutoffAt sourceStatus allowYoung = .ok s') :
    s'.plans = s.plans := by
  unfold deleteSourceOf at h
  split at h
  · exact deleteTerminalSourceAnchor_plans h
  · rw [Except.ok.inj h]

lemma deleteRevisionOf_plans (req : ContentCleanup) (p : Plan) (cutoffAt : Int)
    (allowYoung : Bool) : (s.deleteRevisionOf req p cutoffAt allowYoung).plans = s.plans := by
  unfold deleteRevisionOf
  split <;> rfl

/-- The plan goes, or it stays as a summary and other superseded plans may go. -/
def Retires (i : Nat) (p : Plan) (m : Nat) (retain : Bool) (plans plans' : Constrained planSchema) :
    Prop :=
  retain = false ∧ (∀ j, plans'.get? j = if j = i then none else plans.get? j) ∨
  retain = true ∧ ∃ dropped : Nat → Plan → Bool,
    (∀ j x, dropped j x = true → x.state = .superseded ∧ p.sameTurn x = true) ∧
    ∀ j, plans'.get? j = if j = i then some { p with sourceOutboxId := none, partCount := m }
      else (plans.get? j).filter fun x => !dropped j x

lemma retirePlan_spec {i m : Nat} {p : Plan} {cutoffAt : Int} {retain : Bool}
    (hp : s.plans.get? i = some p) (h : s.retirePlan i p cutoffAt retain m = .ok s') :
    Retires i p m retain s.plans s'.plans := by
  unfold retirePlan at h
  split at h
  · next hretain =>
    obtain ⟨s₁, hs₁, h⟩ := bind_eq_ok.mp h
    obtain ⟨y, plans, hy, -, rfl, hplans⟩ := summarizePlan_spec hs₁
    obtain rfl := Option.some.inj (hp.symm.trans hy)
    obtain ⟨-, rfl⟩ := deletePlans_spec h
    have hstate : ∀ j x, ({ s with plans } : Store).collapsedPlan i p cutoffAt j x = true →
        x.state = .superseded ∧ p.sameTurn x = true := by
      intro j x hx
      simp only [collapsedPlan, Bool.and_eq_true, beq_iff_eq] at hx
      exact ⟨hx.1.1.1.1.2, hx.1.1.1.1.1.1⟩
    refine .inr ⟨hretain, ({ s with plans } : Store).collapsedPlan i p cutoffAt, hstate,
      fun j => ?_⟩
    dsimp only
    rw [Constrained.get?_deleteWhere, hplans]
    split
    · next hj => simp [hj, collapsedPlan]
    · rfl
  · next hretain =>
    obtain ⟨-, rfl⟩ := deletePlans_spec h
    refine .inl ⟨by simpa using hretain, fun j => ?_⟩
    dsimp only
    rw [Constrained.get?_deleteWhere]
    by_cases hj : j = i
    · simp [hj]
    · cases s.plans.get? j <;> simp [hj]

lemma deleteRetainedPlan_retires {req : ContentCleanup} {i m : Nat} {p : Plan} {cutoffAt : Int}
    {retain : Bool} (hp : s.plans.get? i = some p)
    (h : s.deleteRetainedPlan req i p cutoffAt retain m = .ok s') :
    Retires i p m retain s.plans s'.plans := by
  obtain ⟨s₁, hs₁, h⟩ := bind_eq_ok.mp h
  obtain ⟨s₂, hs₂, h⟩ := bind_eq_ok.mp h
  obtain ⟨s₃, hs₃, h⟩ := bind_eq_ok.mp h
  obtain rfl := Except.ok.inj h
  rw [deleteRevisionOf_plans, deleteSourceOf_plans hs₃]
  have heq := deletePlanWork_plans hs₁
  have hretires := retirePlan_spec (heq ▸ hp) hs₂
  rwa [heq] at hretires

/-! ### One treatment -/

/-- A completed plan is only treated when a later one was completed. -/
lemma lt_newestCompletedId_of_treated {i : Nat} {p : Plan} {cutoffAt retentionCount : Int}
    (hsound : p.Sound) (hcompleted : p.completedAt.isSome = true)
    (h : s.terminalPlanReferenceReason i p cutoffAt retentionCount = none) :
    i < s.newestCompletedId p := by
  obtain ⟨hsource, hstate | ⟨-, hunsourced, -⟩⟩ := terminalPlanReferenceReason_eq_none h
  · have hfinished := (hsound.completed hcompleted).2
    simp [hstate.1] at hfinished
  · cases ho : p.sourceOutboxId with
    | none => exact hunsourced ho (hsound.completed hcompleted).1
    | some o =>
      obtain ⟨j, x, hx, hturn, hlt, hc⟩ := planSourceReason_newer hsound hcompleted (hsource o ho)
      exact lt_of_lt_of_le hlt (newestCompletedId_le_iff.mp le_rfl j x hx hturn hc)

lemma priorPartCount_of_deleted {i : Nat} {p : Plan} {hostId name turnId : String} {planId : Nat}
    (hs : PlansFit s.outbox s.plans) (hs' : PlansFit s'.outbox s'.plans)
    (hnext : ∀ p, s.plans.get? planId = some p → p.state = .preparing)
    (hp : s.plans.get? i = some p)
    (hcompleted : p.completedAt.isSome = true → i < s.newestCompletedId p)
    (hk : s.DeletionKeepsFootprint i p)
    (hplans : ∀ j, s'.plans.get? j = if j = i then none else s.plans.get? j) :
    s'.priorPartCount hostId name turnId planId = s.priorPartCount hostId name turnId planId := by
  have hget : ∀ j x, s'.plans.get? j = some x → j ≠ i ∧ s.plans.get? j = some x := by
    intro j x hx
    rw [hplans] at hx
    split at hx
    · cases hx
    · next hj => exact ⟨hj, hx⟩
  refine priorPartCount_congr hs hs' hnext (fun p hp => hnext p (hget planId p hp).2) ?_ ?_
  · intro j x hx
    have hsince : ∀ k z, s'.plans.get? k = some z → OfTurn hostId name turnId z →
        z.completedAt.isSome = true → k ≤ j := fun k z hz => hx.since k z (hget k z hz).2
    by_cases hj : j = i
    · subst hj
      obtain rfl := Option.some.inj (hx.get.symm.trans hp)
      obtain ⟨rfl, rfl, rfl⟩ := hx.turn
      obtain hnone | hlt | ⟨k, y, hne, hy, hturn, hactivated, hle, hcount⟩ := hk
      · have hactivated := hx.activated
        rw [hnone] at hactivated
        cases hactivated
      · have hle : s.newestCompletedId x ≤ j := newestCompletedId_le_iff.mpr
          fun k z hz hturn hc => hx.since k z hz (sameTurn_iff.mp hturn) hc
        exact absurd hlt (not_lt.mpr hle)
      · refine ⟨k, y, ⟨?_, sameTurn_iff.mp hturn, hactivated, fun l z hz hz' hc => ?_⟩, hcount⟩
        · rw [hplans, if_neg hne]
          exact hy
        · exact newestCompletedId_le_iff.mp hle l z (hget l z hz).2 (sameTurn_iff.mpr hz') hc
    · refine ⟨j, x, ⟨?_, hx.turn, hx.activated, hsince⟩, le_rfl⟩
      rw [hplans, if_neg hj]
      exact hx.get
  · intro j x hx n hbound
    obtain ⟨hj, hxs⟩ := hget j x hx.get
    refine hbound j x ⟨hxs, hx.turn, hx.activated, fun k z hz hturn hc => ?_⟩
    by_cases hki : k = i
    · subst hki
      obtain rfl := Option.some.inj (hz.symm.trans hp)
      obtain ⟨rfl, rfl, rfl⟩ := hturn
      by_contra hjk
      refine absurd (hcompleted hc) (not_lt.mpr (newestCompletedId_le_iff.mpr ?_))
      intro l y hy hy' hcy
      by_cases hl : l = k
      · exact hl.le
      · have hys : s'.plans.get? l = some y := by
          rw [hplans, if_neg hl]
          exact hy
        exact (hx.since l y hys (sameTurn_iff.mp hy') hcy).trans (not_le.mp hjk).le
    · refine hx.since k z ?_ hturn hc
      rw [hplans, if_neg hki]
      exact hz

/-- What the code checks of a plan that stays as a summary. -/
lemma supersededPlanSummary_spec {i : Nat} {p : Plan} (h : (s.supersededPlanSummary i p).1 = true) :
    p.state = .superseded ∧ p.activatedAt.isSome = true ∧ s.hasNewerCompleted i p = false ∧
      s.newestSupersededId p = i ∧ (s.supersededPlanSummary i p).2 =
        max p.partCount (s.footprintFrom p (s.lastCompletedBefore i p)) := by
  unfold supersededPlanSummary at h ⊢
  split at h
  · cases h
  · next hstate =>
    split at h
    · cases h
    · next hnewer =>
      split at h
      · cases h
      · next hnewest =>
        rw [if_neg hstate, if_neg hnewer, if_neg hnewest]
        simp only [Bool.or_eq_true, bne_iff_ne, not_or, not_not, Bool.not_eq_true,
          Option.isNone_eq_false_iff] at hstate
        refine ⟨hstate.1.2, hstate.2, by simpa using hnewer, by simpa using hnewest, rfl⟩

lemma footprintFrom_le_iff {p : Plan} {baselineId n : Nat} :
    s.footprintFrom p baselineId ≤ n ↔ ∀ j x, s.plans.get? j = some x → p.sameTurn x = true →
      x.activatedAt.isSome = true → baselineId ≤ j → x.partCount ≤ n := by
  unfold footprintFrom
  rw [maxParts_le_iff]
  simp only [Bool.and_eq_true, decide_eq_true_eq, and_imp]
  rfl

/-- Nothing of the turn was completed after a plan that stays as its summary. -/
lemma completed_le_summary {i : Nat} {p : Plan} (hs : PlansFit s.outbox s.plans)
    (hnewer : s.hasNewerCompleted i p = false) (hnewest : s.newestSupersededId p = i) :
    ∀ k z, s.plans.get? k = some z → p.sameTurn z = true → z.completedAt.isSome = true →
      k ≤ i := by
  intro k z hz hturn hc
  obtain ⟨hactivated, hstate | hstate⟩ := (hs k z hz).sound.completed hc
  · by_contra hlt
    have htrue := hasNewerCompleted_iff.mpr ⟨k, z, hz, hturn, not_le.mp hlt, hstate, hc⟩
    rw [hnewer] at htrue
    cases htrue
  · refine newestPlanId_le_iff.mp hnewest.le k z hz hturn ?_
    simp [hstate, hactivated]

lemma priorPartCount_of_summarized {i m : Nat} {p : Plan} {hostId name turnId : String}
    {planId : Nat} {dropped : Nat → Plan → Bool} (hs : PlansFit s.outbox s.plans)
    (hs' : PlansFit s'.outbox s'.plans)
    (hnext : ∀ p, s.plans.get? planId = some p → p.state = .preparing)
    (hp : s.plans.get? i = some p) (hsummary : (s.supersededPlanSummary i p).1 = true)
    (hm : (s.supersededPlanSummary i p).2 = m) (hk : s.SummaryKeepsFootprint i p)
    (hdropped : ∀ j x, dropped j x = true → x.state = .superseded ∧ p.sameTurn x = true)
    (hplans : ∀ j, s'.plans.get? j =
      if j = i then some { p with sourceOutboxId := none, partCount := m }
      else (s.plans.get? j).filter fun x => !dropped j x) :
    s'.priorPartCount hostId name turnId planId = s.priorPartCount hostId name turnId planId := by
  obtain ⟨hstate, hactivated, hnewer, hnewest, hcount⟩ := supersededPlanSummary_spec hsummary
  have hlast := completed_le_summary hs hnewer hnewest
  have hget : ∀ j x, j ≠ i → s'.plans.get? j = some x → s.plans.get? j = some x := by
    intro j x hj hx
    rw [hplans, if_neg hj] at hx
    exact (Option.filter_eq_some_iff.mp hx).1
  have hkept : ∀ j x, j ≠ i → s.plans.get? j = some x → dropped j x = false →
      s'.plans.get? j = some x := by
    intro j x hj hx hd
    rw [hplans, if_neg hj, hx]
    simp [hd]
  have hnext' : ∀ p, s'.plans.get? planId = some p → p.state = .preparing := by
    intro x hx
    by_cases hj : planId = i
    · rw [hj, hplans, if_pos rfl] at hx
      obtain rfl := Option.some.inj hx
      exact hnext p (hj ▸ hp)
    · exact hnext x (hget planId x hj hx)
  by_cases hturn : OfTurn hostId name turnId p
  · obtain ⟨rfl, rfl, rfl⟩ := hturn
    have hcompleted : ∀ k z, s'.plans.get? k = some z → OfTurn p.hostId p.name p.turnId z →
        z.completedAt.isSome = true → k ≤ i := by
      intro k z hz hturn hc
      by_cases hki : k = i
      · exact hki.le
      · exact hlast k z (hget k z hki hz) (sameTurn_iff.mpr hturn) hc
    have hshown : ∀ n, (∀ k y, s.Shown p.hostId p.name p.turnId k y → y.partCount ≤ n) →
        ∀ j x, s.plans.get? j = some x → p.sameTurn x = true → x.activatedAt.isSome = true →
          s.lastCompletedBefore i p ≤ j → x.partCount ≤ n := by
      intro n hbound j x hx hturn hactivated hle
      by_cases hj : s.newestCompletedId p ≤ j
      · exact hbound j x ⟨hx, sameTurn_iff.mp hturn, hactivated, fun k z hz hz' hc =>
          newestCompletedId_le_iff.mp hj k z hz (sameTurn_iff.mpr hz') hc⟩
      · obtain ⟨k, y, -, hy, hy', hay, hky, hxy⟩ := hk j x hx hturn hactivated hle (not_le.mp hj)
        exact hxy.trans (hbound k y ⟨hy, sameTurn_iff.mp hy', hay, fun l z hz hz' hc =>
          newestCompletedId_le_iff.mp hky l z hz (sameTurn_iff.mpr hz') hc⟩)
    refine priorPartCount_congr hs hs' hnext hnext' ?_ ?_
    · intro j x hx
      refine ⟨i, { p with sourceOutboxId := none, partCount := m },
        ⟨by rw [hplans, if_pos rfl], ⟨rfl, rfl, rfl⟩, hactivated, hcompleted⟩, ?_⟩
      have hfoot : x.partCount ≤ s.footprintFrom p (s.lastCompletedBefore i p) := by
        refine footprintFrom_le_iff.mp le_rfl j x hx.get (sameTurn_iff.mpr hx.turn) hx.activated ?_
        refine newestPlanId_le_iff.mpr fun k z hz hz' hc => ?_
        simp only [Bool.and_eq_true] at hc
        exact hx.since k z hz (sameTurn_iff.mp hz') hc.2
      rw [← hm, hcount]
      exact hfoot.trans (le_max_right _ _)
    · intro j x hx n hbound
      by_cases hj : j = i
      · have hxget := hx.get
        rw [hj, hplans, if_pos rfl] at hxget
        obtain rfl := Option.some.inj hxget
        change m ≤ n
        rw [← hm, hcount]
        refine max_le ?_ (footprintFrom_le_iff.mpr (hshown n hbound))
        exact hbound i p ⟨hp, ⟨rfl, rfl, rfl⟩, hactivated, fun k z hz hz' hc =>
          hlast k z hz (sameTurn_iff.mpr hz') hc⟩
      · refine hshown n hbound j x (hget j x hj hx.get) (sameTurn_iff.mpr hx.turn) hx.activated ?_
        refine newestPlanId_le_iff.mpr fun k z hz hz' hc => ?_
        simp only [Bool.and_eq_true, decide_eq_true_eq, beq_iff_eq] at hc
        refine hx.since k z (hkept k z hc.1.1.ne hz ?_) (sameTurn_iff.mp hz') hc.2
        rw [Bool.eq_false_iff]
        intro hd
        have hsuperseded := (hdropped k z hd).1
        rw [hc.1.2] at hsuperseded
        cases hsuperseded
  · have hother : ∀ j x, OfTurn hostId name turnId x → dropped j x = false := by
      intro j x hx
      rw [Bool.eq_false_iff]
      intro hd
      obtain ⟨rfl, rfl, rfl⟩ := hx
      obtain ⟨h₁, h₂, h₃⟩ := sameTurn_iff.mp (hdropped j x hd).2
      exact hturn ⟨h₁.symm, h₂.symm, h₃.symm⟩
    have hne : ∀ j x, s.plans.get? j = some x → OfTurn hostId name turnId x → j ≠ i := by
      rintro j x hx hxt rfl
      obtain rfl := Option.some.inj (hx.symm.trans hp)
      exact hturn hxt
    have hne' : ∀ j x, s'.plans.get? j = some x → OfTurn hostId name turnId x → j ≠ i := by
      rintro j x hx hxt rfl
      rw [hplans, if_pos rfl] at hx
      obtain rfl := Option.some.inj hx
      exact hturn hxt
    refine priorPartCount_congr hs hs' hnext hnext' ?_ ?_
    · intro j x hx
      refine ⟨j, x, ⟨hkept j x (hne j x hx.get hx.turn) hx.get (hother j x hx.turn), hx.turn,
        hx.activated, fun k z hz hz' hc => ?_⟩, le_rfl⟩
      exact hx.since k z (hget k z (hne' k z hz hz') hz) hz' hc
    · intro j x hx n hbound
      refine hbound j x ⟨hget j x (hne' j x hx.get hx.turn) hx.get, hx.turn, hx.activated,
        fun k z hz hz' hc => ?_⟩
      exact hx.since k z (hkept k z (hne k z hz hz') hz (hother k z hz')) hz' hc

lemma priorPartCount_of_plans_eq (h : s'.plans = s.plans) (hostId name turnId : String)
    (planId : Nat) :
    s'.priorPartCount hostId name turnId planId = s.priorPartCount hostId name turnId planId := by
  unfold priorPartCount completedBaseline
  rw [h]

theorem priorPartCount_treatCandidate {req : ContentCleanup} {cutoffAt : Int}
    {c : ContentCandidate} {hostId name turnId : String} {planId : Nat} (hs : Consistent s)
    (hk : s.KeepsFootprint req cutoffAt c) (h : treatCandidate req cutoffAt s c = .ok s')
    (hnext : ∀ p, s.plans.get? planId = some p → p.state = .preparing) :
    s'.priorPartCount hostId name turnId planId = s.priorPartCount hostId name turnId planId := by
  have hs' : Consistent s' := (writes_treatCandidate h).consistent hs
  obtain rfl | ⟨i, p, rfl, hp, hhost, hreason, h⟩ | ⟨i, hostId, turnId, revision, h⟩ | ⟨i, rfl⟩ :=
    treatCandidate_cases h
  · rfl
  · have hkeeps := hk i p rfl hp hhost hreason
    obtain ⟨hretain, hplans⟩ | ⟨hretain, dropped, hdropped, hplans⟩ := deleteRetainedPlan_retires hp h
    · rw [if_neg (by simp [hretain])] at hkeeps
      exact priorPartCount_of_deleted hs.plans hs'.plans hnext hp (fun hc =>
        lt_newestCompletedId_of_treated (hs.plans i p hp).sound hc hreason) hkeeps hplans
    · rw [if_pos hretain] at hkeeps
      exact priorPartCount_of_summarized hs.plans hs'.plans hnext hp hretain rfl hkeeps hdropped
        hplans
  · exact priorPartCount_of_plans_eq (deleteTerminalSourceAnchor_plans h) _ _ _ _
  · exact priorPartCount_of_plans_eq rfl _ _ _ _

/-- The count of a commit is the one that is kept. -/
theorem commitWork_priorPartCount {req : PlanCommit} {planId : Nat} {plan : Plan} {now : Int}
    {w : CommitWork} (h : s.commitWork req planId plan now = .ok w) :
    w.priorPartCount =
      s.nextPriorPartCount req.hostId req.name plan.turnId planId plan.sourceOutboxId := by
  obtain ⟨-, -, -, -, -, hcount, ref, hsource⟩ := commitWork_spec h
  rw [hcount]
  unfold nextPriorPartCount
  obtain ⟨i, live, hi, hlive, rfl, _, href⟩ | ⟨hnone, hlive⟩ := commitSource_spec hsource
  · obtain ⟨-, -, -, hget, -⟩ := validateLiveRef_spec (validateSourceRef_spec href).1
    rw [hi, hlive, Option.bind_some, hget]
    rfl
  · rw [hnone, hlive]
    rfl

/-! ### Batches -/

lemma NextPlan.of_spares {planId : Nat} {source : Option Nat} (h : s.NextPlan planId source)
    (hs : Spares s s') : s'.NextPlan planId source := by
  refine ⟨fun p hp => ?_, fun i hi => ?_⟩
  · rcases hs.plans planId with ⟨_, _, heq⟩ | ⟨hnone, -⟩
    · rw [hp] at heq
      obtain ⟨x, hx, rfl⟩ := Option.map_eq_some_iff.mp heq.symm
      exact h.plan x hx
    · rw [hp] at hnone
      cases hnone
  · obtain ⟨r, hr, hstatus⟩ := h.source i hi
    rcases hs.outbox i with heq | ⟨-, hresolved⟩
    · exact ⟨r, heq.trans hr, hstatus⟩
    · have hfalse := hresolved r hr
      rw [hstatus] at hfalse
      cases hfalse

/-- The count that the source of the next plan caches is not touched. -/
lemma NextPlan.source_eq {planId : Nat} {source : Option Nat} (h : s.NextPlan planId source)
    (hs : Spares s s') : source.bind s'.outbox.get? = source.bind s.outbox.get? := by
  cases source with
  | none => rfl
  | some i =>
    obtain ⟨r, hr, hstatus⟩ := h.source i rfl
    rcases hs.outbox i with heq | ⟨-, hresolved⟩
    · exact heq
    · have hfalse := hresolved r hr
      rw [hstatus] at hfalse
      cases hfalse

/-- The next plan of a turn finds the same footprint. -/
structure SameFootprint (s s' : Store) (planId : Nat) (source : Option Nat) : Prop where
  next : s'.NextPlan planId source
  count : ∀ hostId name turnId, s'.nextPriorPartCount hostId name turnId planId source =
    s.nextPriorPartCount hostId name turnId planId source

lemma sameFootprint_treatCandidate {req : ContentCleanup} {cutoffAt : Int} {c : ContentCandidate}
    {planId : Nat} {source : Option Nat} (hs : Consistent s) (hk : s.KeepsFootprint req cutoffAt c)
    (hnext : s.NextPlan planId source) (h : treatCandidate req cutoffAt s c = .ok s') :
    SameFootprint s s' planId source := by
  have hspares := (contentSafe_treatCandidate h).spares
  refine ⟨hnext.of_spares hspares, fun hostId name turnId => ?_⟩
  unfold nextPriorPartCount
  rw [priorPartCount_treatCandidate hs hk h hnext.plan, hnext.source_eq hspares]

lemma sameFootprint_treatments {req : ContentCleanup} {cutoffAt : Int} {planId : Nat}
    {source : Option Nat} {candidates : List ContentCandidate} (hs : Consistent s)
    (hk : TreatmentsKeep req cutoffAt s candidates) (hnext : s.NextPlan planId source)
    (h : candidates.foldlM (treatCandidate req cutoffAt) s = .ok s') :
    SameFootprint s s' planId source := by
  induction candidates generalizing s with
  | nil =>
    obtain rfl := Except.ok.inj h
    exact ⟨hnext, fun _ _ _ => rfl⟩
  | cons c rest ih =>
    rw [List.foldlM_cons] at h
    obtain ⟨s₁, hs₁, h⟩ := bind_eq_ok.mp h
    have hfirst := sameFootprint_treatCandidate hs hk.1 hnext hs₁
    have hrest := ih ((writes_treatCandidate hs₁).consistent hs) (hk.2 s₁ hs₁) hfirst.next h
    exact ⟨hrest.next, fun hostId name turnId =>
      (hrest.count hostId name turnId).trans (hfirst.count hostId name turnId)⟩

lemma sameFootprint_batch {req : ContentCleanup} {now : Int} {planId : Nat} {source : Option Nat}
    (hs : Consistent s) (hk : s.BatchKeeps req now) (hnext : s.NextPlan planId source) :
    SameFootprint s (s.storeStep (.cleanupContent req now)) planId source := by
  rcases storeStep_cases s (.cleanupContent req now) with heq | ⟨h, -⟩
  · rw [heq]
    exact ⟨hnext, fun _ _ _ => rfl⟩
  · change s.cleanupTurnContentRetention req now = _ at h
    have hkeeps := hk _ h
    unfold cleanupTurnContentRetention at h
    split at h
    · rw [← Except.ok.inj h]
      exact ⟨hnext, fun _ _ _ => rfl⟩
    · next hdry => exact sameFootprint_treatments hs (hkeeps (by simpa using hdry)) hnext h

/-- From any reachable store, batches that keep the footprint at each treatment leave the next
commit of every turn the prior part count that it had. -/
theorem nextPriorPartCount_cleanupBatches (supersessions : Constrained supersessionSchema)
    (calls : List StoreCall) (batches : List (ContentCleanup × Int))
    (hk : BatchesKeep ((initial supersessions).storeRun calls) batches) (planId : Nat)
    (source : Option Nat)
    (hnext : ((initial supersessions).storeRun calls).NextPlan planId source)
    (hostId name turnId : String) :
    (((initial supersessions).storeRun calls).cleanupBatches batches).nextPriorPartCount hostId
      name turnId planId source =
    ((initial supersessions).storeRun calls).nextPriorPartCount hostId name turnId planId source := by
  have hs : Regular ((initial supersessions).storeRun calls) :=
    (regular_initial supersessions).run calls
  generalize (initial supersessions).storeRun calls = s at hs hk hnext ⊢
  induction batches generalizing s with
  | nil => rfl
  | cons b rest ih =>
    have hfirst := sameFootprint_batch hs.toConsistent hk.1 hnext
    have hrest := ih _ (hs.step _) hk.2 hfirst.next
    exact hrest.trans (hfirst.count hostId name turnId)

def dailyBatch : ContentCleanup :=
  { hostId := "host"
    retentionDays := 1
    retentionCount := 1
    batchSize := 10
    dryRun := false
    supersededAt := fun _ => none
    namedByTurn := fun _ => false }

/-- The final `a` in two parts, replaced before it was delivered. -/
def replacedFinal : List StoreCall :=
  [showFinal "a" 0, pollFinal 1 1, beginFinal "a" 2 1 2, partOfFinal "a" 2 0 0 1 3,
    partOfFinal "a" 2 1 1 2 3, commitFinal "a" 2 1 4, showFinal "b" 5]

/-- The plan of a replaced final becomes the summary of its two parts. -/
theorem nextPriorPartCount_ofReplacedFinal :
    (((initial .empty).storeRun replacedFinal).cleanupBatches
      [(dailyBatch, 200000)]).nextPriorPartCount "host" turnFinalName "turn" 2 none =
    ((initial .empty).storeRun replacedFinal).nextPriorPartCount "host" turnFinalName "turn" 2
      none := by
  obtain ⟨hcandidates, hsummary, hcompleted, hnone⟩ :
      ((initial .empty).storeRun replacedFinal).turnContentRetentionCandidates dailyBatch
          (dailyBatch.cutoffAt 200000) = [.plan 1] ∧
        ((((initial .empty).storeRun replacedFinal).plans.get? 1).any fun p =>
          (((initial .empty).storeRun replacedFinal).supersededPlanSummary 1 p).1) = true ∧
        (((initial .empty).storeRun replacedFinal).plans.table.any fun _ z =>
          z.completedAt.isSome) = false ∧
        ((initial .empty).storeRun replacedFinal).plans.get? 2 = none := by decide +kernel
  have hnext : ((initial .empty).storeRun replacedFinal).NextPlan 2 none := by
    refine ⟨fun p hp => ?_, fun i hi => by cases hi⟩
    rw [hnone] at hp
    cases hp
  refine nextPriorPartCount_cleanupBatches .empty replacedFinal [(dailyBatch, 200000)]
    ⟨fun s' _ _ => ?_, trivial⟩ 2 none hnext "host" turnFinalName "turn"
  rw [hcandidates]
  refine ⟨fun i p hi hp _ _ => ?_, fun _ _ => trivial⟩
  obtain rfl := ContentCandidate.plan.inj hi
  rw [hp, Option.any_some] at hsummary
  rw [if_pos hsummary]
  intro j x hx hturn _ _ hlt
  have hzero : ((initial .empty).storeRun replacedFinal).newestCompletedId p ≤ 0 := by
    refine newestCompletedId_le_iff.mpr fun k z hz _ hc => ?_
    rw [Table.any_eq_false_iff.mp hcompleted k z hz] at hc
    cases hc
  omega

/-- Two parts of `a`, one of `b` in their place, then `c` that `d` replaces undelivered. -/
def shrunkFinal : List StoreCall :=
  acknowledgedFinal ++
  [showFinal "b" 10, pollFinal 4 11, beginFinal "b" 1 4 12, partOfFinal "b" 1 0 0 2 13,
    commitFinal "b" 1 4 14, pollFinal 5 15, ackFinal 5 16, pollFinal 6 17, ackFinal 6 18,
    showFinal "c" 20, pollFinal 7 21, beginFinal "c" 1 7 22, partOfFinal "c" 1 0 0 2 23,
    commitFinal "c" 1 7 24, showFinal "d" 30, pollFinal 8 200000, beginFinal "d" 1 8 200001]

/-- The summary of `c` counts the second part of `a` that `b` has retired. -/
theorem not_sameFootprint_ofShrunkFinal :
    ¬∀ (calls : List StoreCall) (batches : List (ContentCleanup × Int)) (hostId name turnId : String)
      (planId : Nat) (source : Option Nat),
      ((initial .empty).storeRun calls).NextPlan planId source →
      (((initial .empty).storeRun calls).cleanupBatches batches).nextPriorPartCount hostId name
        turnId planId source =
      ((initial .empty).storeRun calls).nextPriorPartCount hostId name turnId planId source := by
  intro h
  obtain ⟨hplan, hsource, hdiffer⟩ :
      (((initial .empty).storeRun shrunkFinal).plans.get? 4).any (·.state == .preparing) = true ∧
        (((initial .empty).storeRun shrunkFinal).outbox.get? 9).any (·.status == .leased) = true ∧
        (((initial .empty).storeRun shrunkFinal).cleanupBatches
            [(dailyBatch, 200002)]).nextPriorPartCount "host" turnFinalName "turn" 4 (some 9) ≠
          ((initial .empty).storeRun shrunkFinal).nextPriorPartCount "host" turnFinalName "turn" 4
            (some 9) := by decide +kernel
  refine hdiffer (h shrunkFinal [(dailyBatch, 200002)] "host" turnFinalName "turn" 4 (some 9) ?_)
  refine ⟨fun p hp => ?_, fun i hi => ?_⟩
  · rw [hp] at hplan
    simpa using hplan
  · obtain rfl := Option.some.inj hi
    obtain ⟨r, hr, hstatus⟩ := (Option.any_eq_true _ _).mp hsource
    exact ⟨r, hr, by simpa using hstatus⟩

end Store

end Tendwire.Connector

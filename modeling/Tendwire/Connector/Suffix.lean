import Mathlib.Data.List.Sort
import Tendwire.Connector.Filing

/-!
# The suffix of a failed plan

A recovery starts a plan whose jobs are those of the failed plan that nobody acknowledged, as they
were and in their order. What it deletes are jobs of the plans that it replaces.
-/

namespace Tendwire.Connector

open Relational Transition

namespace Store

variable {s s' : Store} {now : Int}

/-- The jobs of a plan in sequence order. -/
def planJobs (s : Store) (planId : Nat) : List Job :=
  ((s.jobs.table.select fun _ j => j.planId == planId).insertionSort
    fun a b => a.2.sequenceIndex ≤ b.2.sequenceIndex).map Prod.snd

def acknowledged (s : Store) (j : Job) : Bool := (s.jobOutbox? j).any (·.status == .delivered)

def unacknowledgedJobs (s : Store) (planId : Nat) : List Job :=
  (s.planJobs planId).filter fun j => !s.acknowledged j

/-! ### The suffix -/

lemma mem_sourceJobs {planId : Nat} {sj : SourceJob} (h : sj ∈ s.sourceJobs planId) :
    s.jobOutbox? sj.job = some sj.outbox := by
  obtain ⟨e, -, he⟩ := List.mem_filterMap.mp h
  obtain ⟨outbox, houtbox, rfl⟩ := Option.map_eq_some_iff.mp he
  exact houtbox

/-- All the jobs of a committed plan have rows. -/
lemma Filed.map_sourceJobs (hs : s.Filed) {planId : Nat} {p : Plan}
    (hp : s.plans.get? planId = some p) (hcommitted : p.state.committed = true) :
    (s.sourceJobs planId).map SourceJob.job = s.planJobs planId := by
  unfold sourceJobs planJobs
  rw [List.map_filterMap, ← List.filterMap_eq_map]
  apply List.filterMap_congr
  intro e he
  rw [List.mem_insertionSort, Table.mem_select, beq_iff_eq] at he
  obtain ⟨hj, hid⟩ := he
  obtain ⟨p', hp', hlinked⟩ := hs.planned e.1 e.2 hj
  rw [hid] at hp'
  obtain rfl := Option.some.inj (hp.symm.trans hp')
  obtain ⟨o, ho⟩ := Option.ne_none_iff_exists'.mp (hlinked hcommitted)
  obtain ⟨r, hr⟩ := hs.rows e.1 e.2 o hj ho
  have hrow : s.jobOutbox? e.2 = some r := by
    rw [jobOutbox?, ho]
    exact hr
  rw [hrow]
  rfl

/-- Where all that is left after a prefix fails the test, it is what fails the test. -/
lemma drop_takeWhile_eq_filter {α : Type} {p : α → Bool} {l : List α}
    (h : ∀ a ∈ l.drop (l.takeWhile p).length, p a = false) :
    l.drop (l.takeWhile p).length = l.filter fun a => !p a := by
  have hsplit : l.takeWhile p ++ l.drop (l.takeWhile p).length = l :=
    List.prefix_iff_eq_append.mp (List.takeWhile_prefix p)
  have hfront : (l.takeWhile p).filter (fun a => !p a) = [] := by
    rw [List.filter_eq_nil_iff]
    intro a ha
    simpa using List.all_eq_true.mp List.all_takeWhile a ha
  have hback : (l.drop (l.takeWhile p).length).filter (fun a => !p a) =
      l.drop (l.takeWhile p).length := by
    rw [List.filter_eq_self]
    intro a ha
    simp [h a ha]
  calc l.drop (l.takeWhile p).length
      = (l.takeWhile p).filter (fun a => !p a) ++
          (l.drop (l.takeWhile p).length).filter (fun a => !p a) := by
        rw [hfront, hback, List.nil_append]
    _ = l.filter fun a => !p a := by rw [← List.filter_append, hsplit]

/-- What a recovery takes up is what was not acknowledged. -/
theorem Filed.map_suffix (hs : s.Filed) {req : PlanRecover} {failedId : Nat} {failed : Plan}
    {w : RecoveryWork} (hfailed : s.plans.get? failedId = some failed)
    (hw : s.recoveryWork req failedId failed = .ok w) :
    w.suffix.map SourceJob.job = s.unacknowledgedJobs failedId := by
  obtain ⟨-, -, hstate, -, -, hjobs, -, hsuffix, -, hopen⟩ := recoveryWork_spec hw
  have hfilter : w.suffix = w.jobs.filter fun j => !(j.outbox.status == .delivered) := by
    rw [hsuffix]
    apply drop_takeWhile_eq_filter
    rw [← hsuffix]
    intro j hj
    simpa using (hopen j hj).1
  have hcommitted : failed.state.committed = true := by
    simp [hstate, PlanState.committed]
  rw [hfilter, unacknowledgedJobs, ← hs.map_sourceJobs hfailed hcommitted, List.filter_map,
    hjobs]
  congr 1
  apply List.filter_congr
  intro j hj
  simp [acknowledged, mem_sourceJobs hj]

lemma sorted_sourceJobs (planId : Nat) :
    (s.sourceJobs planId).Pairwise fun a b => a.job.sequenceIndex ≤ b.job.sequenceIndex := by
  unfold sourceJobs
  apply List.Pairwise.filterMap (R := fun a b : Nat × Job =>
    a.2.sequenceIndex ≤ b.2.sequenceIndex)
  · intro a b hab x hx y hy
    obtain ⟨_, -, rfl⟩ := Option.map_eq_some_iff.mp hx
    obtain ⟨_, -, rfl⟩ := Option.map_eq_some_iff.mp hy
    exact hab
  · have htotal : Std.Total fun a b : Nat × Job => a.2.sequenceIndex ≤ b.2.sequenceIndex :=
      ⟨fun a b => Nat.le_total _ _⟩
    have htrans : IsTrans (Nat × Job) fun a b => a.2.sequenceIndex ≤ b.2.sequenceIndex :=
      ⟨fun _ _ _ => Nat.le_trans⟩
    exact List.pairwise_insertionSort _ _

/-! ### The jobs of the new plan -/

/-- A token names one plan of a host and a name. -/
lemma eq_of_planToken {i j : Nat} {p q : Plan} (hp : s.plans.get? i = some p)
    (hq : s.plans.get? j = some q) (hhost : p.hostId = q.hostId) (hname : p.name = q.name)
    (htoken : p.planToken = q.planToken) : i = j := by
  refine s.plans.eq_of_key (k := fun p => some (.token p.hostId p.name p.planToken))
    List.mem_cons_self hp hq rfl ?_
  rw [hhost, hname, htoken]

lemma planByToken?_of_get {i : Nat} {p : Plan} (hp : s.plans.get? i = some p) :
    s.planByToken? p.hostId p.name p.planToken = some (i, p) := by
  cases h : s.planByToken? p.hostId p.name p.planToken with
  | none => simpa using Table.first?_eq_none h hp
  | some e =>
    obtain ⟨j, q⟩ := e
    obtain ⟨hq, hhost, hname, htoken⟩ := planByToken?_spec h
    obtain rfl := eq_of_planToken hp hq hhost.symm hname.symm htoken.symm
    obtain rfl := Option.some.inj (hp.symm.trans hq)
    rfl

/-- Back along the recoveries the tokens get smaller. -/
lemma Filed.sizeOf_lineage (hs : s.Filed) (fuel : Nat) {id i : Nat} {p : Plan}
    (hp : s.plans.get? id = some p) (hi : i ∈ s.lineageIds fuel id) :
    ∃ q, s.plans.get? i = some q ∧ sizeOf q.planToken ≤ sizeOf p.planToken := by
  induction fuel generalizing id p with
  | zero => cases hi
  | succ fuel ih =>
    rw [lineageIds, hp] at hi
    dsimp only at hi
    rw [List.mem_cons] at hi
    rcases hi with rfl | hi
    · exact ⟨p, hp, Nat.le_refl _⟩
    · split at hi
      · next predecessorId predecessor hpredecessor =>
        obtain ⟨t, ht, hfound⟩ := Option.bind_eq_some_iff.mp hpredecessor
        obtain ⟨hget, -, -, htoken⟩ := planByToken?_spec hfound
        obtain ⟨q, hq, hle⟩ := ih hget hi
        obtain ⟨_, _, _, _, hrecovery⟩ := hs.recovers id p t hp ht
        refine ⟨q, hq, hle.trans ?_⟩
        rw [htoken, hrecovery]
        simp
        omega
      · cases hi

lemma Filed.not_mem_lineage (hs : s.Filed) {failedId recoveredId : Nat} {failed recovered : Plan}
    (hfailed : s.plans.get? failedId = some failed)
    (hrecovered : s.plans.get? recoveredId = some recovered)
    (htoken : recovered.recoversPlanToken = some failed.planToken) (fuel : Nat) :
    recoveredId ∉ s.lineageIds fuel failedId := by
  intro hmem
  obtain ⟨q, hq, hle⟩ := hs.sizeOf_lineage fuel hfailed hmem
  obtain rfl := Option.some.inj (hrecovered.symm.trans hq)
  obtain ⟨_, _, _, _, hrecovery⟩ := hs.recovers recoveredId recovered _ hrecovered htoken
  rw [hrecovery] at hle
  simp at hle
  omega

/-- The end of a recovery takes no job of the recovered plan away. -/
lemma Filed.jobs_finalizeRecovered (hs : s.Filed) {failedId recoveredId : Nat}
    {failed recovered : Plan} (hfailed : s.plans.get? failedId = some failed)
    (hrecovered : s.plans.get? recoveredId = some recovered)
    (htoken : recovered.recoversPlanToken = some failed.planToken)
    (hstate : recovered.state = .active)
    (h : s.finalizeRecoveredPlanMaterialization failedId recoveredId = .ok s') :
    (s'.jobs.table.select fun _ j => j.planId == recoveredId) =
      s.jobs.table.select fun _ j => j.planId == recoveredId := by
  have hlineage := hs.not_mem_lineage hfailed hrecovered htoken (s.plans.table.rows.length + 1)
  have hretains := retains_finalizeRecovered h
  apply Table.select_congr
  intro k j
  refine ⟨fun ⟨hj, hid⟩ => ⟨hretains.job k j hj, hid⟩, fun ⟨hj, hid⟩ => ⟨?_, hid⟩⟩
  have hplan : j.planId = recoveredId := by simpa using hid
  rcases finalizeRecovered_cases h with ⟨hnone, -⟩ | ⟨recovered', s₂, -, hs₂, h⟩
  · rw [hrecovered] at hnone
    cases hnone
  · generalize s.lineageIds (s.plans.table.rows.length + 1) failedId = lineage at hlineage hs₂
    obtain ⟨-, rfl⟩ := deleteOutbox_spec hs₂
    -- No other job has the row of this one, so the row is not obsolete.
    have hkept : j.outboxId.any (fun i => s.isJobOf (lineage.contains ·) i &&
        (s.outbox.get? i).any (·.status != .delivered)) = false := by
      cases ho : j.outboxId with
      | none => rfl
      | some o =>
        rw [Option.any_some, Bool.and_eq_false_iff]
        left
        unfold isJobOf
        rw [Table.any_eq_false_iff]
        intro k' j' hj'
        rw [Bool.and_eq_false_iff]
        by_cases ho' : j'.outboxId = some o
        · left
          have hk : k' = k := s.jobs.eq_of_key (k := fun j => j.outboxId.map .outbox)
            (by simp [jobSchema]) hj' hj (congrArg (Option.map _) ho') (congrArg (Option.map _) ho)
          obtain rfl := hk
          obtain rfl := Option.some.inj (hj'.symm.trans hj)
          simpa [hplan] using hlineage
        · right
          simpa using ho'
    have hjob₂ : (s.jobs.deleteWhere fun _ j => j.outboxId.any fun i =>
        s.isJobOf (lineage.contains ·) i && (s.outbox.get? i).any (·.status != .delivered)).get? k =
          some j := by
      rw [Constrained.get?_deleteWhere, show s.jobs.get? k = some j from hj, Option.filter_some,
        hkept]
      rfl
    unfold pruneRecoveries at h
    dsimp only at h
    split at h
    · rw [← Except.ok.inj h]
      exact hjob₂
    · obtain ⟨-, rfl⟩ := deletePlans_spec h
      change Constrained.get? (Constrained.deleteWhere _ _) k = some j
      rw [Constrained.get?_deleteWhere]
      refine Option.filter_eq_some_iff.mpr ⟨hjob₂, ?_⟩
      rw [Bool.not_eq_true', Table.any_eq_false_iff]
      intro i p hp
      by_cases hi : i = j.planId
      · subst hi
        have hactive : p.state = .active := by
          change (s.updatePlans _ _).plans.get? j.planId = some p at hp
          rw [plans_updatePlans, hplan, hrecovered, Option.map_some, if_neg (by simp [hstate])] at hp
          rw [← Option.some.inj hp]
          exact hstate
        simp [hactive]
      · simp [hi]

/-- The jobs of the recovered plan are the unacknowledged ones of the failed plan. -/
theorem Filed.planJobs_recovered (hs : s.Filed) {req : PlanRecover} {failedId : Nat}
    {failed : Plan} {w : RecoveryWork}
    (hplan : s.planByToken? req.hostId req.name req.failedPlanToken = some (failedId, failed))
    (hw : s.recoveryWork req failedId failed = .ok w)
    (h : s.materializeRecovery w req.requestId now = .ok s') :
    (s'.planJobs s.plans.table.freeId).map Job.spec =
      (s.unacknowledgedJobs failedId).map Job.spec := by
  obtain ⟨hget, -⟩ := planByToken?_spec hplan
  obtain ⟨hid, hfailed, -, -, -, hjobs, -, hsuffix, -⟩ := recoveryWork_spec hw
  obtain ⟨s₃, hstaged, h⟩ := hs.staged_of_recover hplan hw h
  have hnew : s₃.plans.get? s.plans.table.freeId = some (w.plan now) := by
    rw [hstaged.plans, if_pos rfl]
  have hold : s₃.plans.get? w.failedId = some w.failed := by
    rw [hstaged.plans, hid, hfailed, if_neg (Table.get?_lt_freeId hget).ne, hget]
  have hselect := hstaged.filed.jobs_finalizeRecovered hold hnew rfl rfl h
  have hspecs : w.specs = (s.unacknowledgedJobs failedId).map Job.spec := by
    rw [← hs.map_suffix hget hw, List.map_map]
    rfl
  have hsorted : w.specs.Pairwise fun a b => a.sequenceIndex ≤ b.sequenceIndex := by
    unfold RecoveryWork.specs
    rw [List.pairwise_map, hsuffix, hjobs]
    exact (sorted_sourceJobs failedId).sublist (List.drop_sublist _ _)
  rw [← hstaged.jobs, List.pairwise_map] at hsorted
  change List.Pairwise (fun a b : Nat × Job => a.2.sequenceIndex ≤ b.2.sequenceIndex) _ at hsorted
  rw [← hspecs, ← hstaged.jobs, planJobs, hselect, hsorted.insertionSort_eq, List.map_map]
  rfl

end Store

end Tendwire.Connector

import Tendwire.Connector.Budget
import Tendwire.Connector.Suffix

/-!
# Repeated recoveries

A failed plan is recovered once. The audit of its recovery answers later requests with the same
label, until as many later recoveries of the presentation are on record as are kept.
-/

namespace Tendwire.Connector

open Relational Transition

namespace Store

variable {s s' : Store} {now : Int}

/-! ### The audits of a presentation -/

/-- A recovered plan of the same presentation. -/
def SamePresentation (p q : Plan) : Prop :=
  p.hostId = q.hostId ∧ p.name = q.name ∧ p.turnId = q.turnId ∧
    p.contentRevision = q.contentRevision ∧ p.presentationVersion = q.presentationVersion

lemma mem_presentationAudits (hs : s.Filed) {plan : Plan} {e : Nat × Recovery} :
    e ∈ s.presentationAudits plan ↔ s.recoveries.get? e.1 = some e.2 ∧
      ∃ p, s.plans.get? e.2.recoveredPlanId = some p ∧ SamePresentation p plan := by
  unfold presentationAudits
  rw [List.mem_insertionSort, Table.mem_select]
  simp only [Bool.and_eq_true, beq_iff_eq, Option.any_eq_true]
  refine and_congr_right fun ha => ?_
  obtain ⟨p, hp, hhost, hname, -, -⟩ := hs.audited e.1 e.2 ha
  constructor
  · rintro ⟨⟨hhost', hname'⟩, q, hq, ⟨hturn, hrevision⟩, hversion⟩
    obtain rfl := Option.some.inj (hp.symm.trans hq)
    exact ⟨p, hp, hhost.symm.trans hhost', hname.symm.trans hname', hturn, hrevision, hversion⟩
  · rintro ⟨q, hq, hhost', hname', hturn, hrevision, hversion⟩
    obtain rfl := Option.some.inj (hp.symm.trans hq)
    exact ⟨⟨hhost.trans hhost', hname.trans hname'⟩, p, hp, ⟨hturn, hrevision⟩, hversion⟩

lemma presentationAudits_congr {p q : Plan} (h : SamePresentation p q) :
    s.presentationAudits p = s.presentationAudits q := by
  obtain ⟨hhost, hname, hturn, hrevision, hversion⟩ := h
  unfold presentationAudits
  rw [hhost, hname, hturn, hrevision, hversion]

lemma sorted_presentationAudits (plan : Plan) :
    (s.presentationAudits plan).Pairwise fun a b =>
      b.2.generation < a.2.generation ∨ a.2.generation = b.2.generation ∧ b.1 ≤ a.1 := by
  have htotal : Std.Total fun a b : Nat × Recovery =>
      b.2.generation < a.2.generation ∨ a.2.generation = b.2.generation ∧ b.1 ≤ a.1 :=
    ⟨fun a b => by omega⟩
  have htrans : IsTrans (Nat × Recovery) fun a b =>
      b.2.generation < a.2.generation ∨ a.2.generation = b.2.generation ∧ b.1 ≤ a.1 :=
    ⟨fun a b c hab hbc => by omega⟩
  exact List.pairwise_insertionSort _ _

lemma nodup_presentationAudits (plan : Plan) : (s.presentationAudits plan).Nodup := by
  unfold presentationAudits
  rw [(List.perm_insertionSort _ _).nodup_iff]
  exact (Table.sorted_select _ _).imp fun hlt heq =>
    absurd (congrArg Prod.fst heq) (Nat.ne_of_lt hlt)

/-- No two recovered plans of a presentation have one generation. -/
lemma Filed.eq_of_generation (hs : s.Filed) {plan : Plan} {e b : Nat × Recovery}
    (he : e ∈ s.presentationAudits plan) (hb : b ∈ s.presentationAudits plan)
    (h : e.2.generation = b.2.generation) : e = b := by
  obtain ⟨he, p, hp, hhost, hname, hturn, hrevision, hversion⟩ := (mem_presentationAudits hs).mp he
  obtain ⟨hb, q, hq, hhost', hname', hturn', hrevision', hversion'⟩ :=
    (mem_presentationAudits hs).mp hb
  obtain ⟨p', hp', -, -, -, hgeneration⟩ := hs.audited e.1 e.2 he
  obtain rfl := Option.some.inj (hp.symm.trans hp')
  obtain ⟨q', hq', -, -, -, hgeneration'⟩ := hs.audited b.1 b.2 hb
  obtain rfl := Option.some.inj (hq.symm.trans hq')
  have hplans : e.2.recoveredPlanId = b.2.recoveredPlanId := by
    refine s.plans.eq_of_key (k := fun p => some (.generation p.hostId p.name p.turnId
      p.contentRevision p.presentationVersion p.generation)) (by simp [planSchema]) hp hq rfl ?_
    rw [hhost, hhost', hname, hname', hturn, hturn', hrevision, hrevision', hversion, hversion',
      ← hgeneration, ← hgeneration', h]
  have hid := hs.once e.1 b.1 e.2 b.2 he hb hplans
  rw [hid] at he
  exact Prod.ext hid (Option.some.inj (he.symm.trans hb))

/-- Of two audits on both sides of a cut, the one before it is of the later generation. -/
lemma Filed.generation_lt (hs : s.Filed) {plan : Plan} {n : Nat} {e b : Nat × Recovery}
    (he : e ∈ (s.presentationAudits plan).drop n) (hb : b ∈ (s.presentationAudits plan).take n) :
    e.2.generation < b.2.generation := by
  have hsorted := sorted_presentationAudits (s := s) plan
  have hnodup := nodup_presentationAudits (s := s) plan
  have hsplit := List.take_append_drop n (s.presentationAudits plan)
  rw [← hsplit, List.pairwise_append] at hsorted
  rw [← hsplit, List.nodup_append] at hnodup
  rcases hsorted.2.2 b hb e he with hlt | ⟨heq, -⟩
  · exact hlt
  · have hsame := hs.eq_of_generation (List.mem_of_mem_take hb) (List.mem_of_mem_drop he) heq
    exact absurd hsame (hnodup.2.2 b hb e he)

/-- As many recoveries of the presentation as are kept are on record, all of later generations. -/
def Outrun (s : Store) (plan : Plan) (generation : Nat) : Prop :=
  ∃ audits : List (Nat × Recovery), audits.Nodup ∧
    audits.length = presentationRecoveryHistoryLimit ∧
    ∀ e ∈ audits, e ∈ s.presentationAudits plan ∧ generation < e.2.generation

/-! ### What the end of a recovery keeps -/

lemma presentationAudits_of_columns {t : Store} (hrecoveries : t.recoveries = s.recoveries)
    (hplans : ∀ i, (t.plans.get? i).map Plan.toPlanColumns =
      (s.plans.get? i).map Plan.toPlanColumns) (plan : Plan) :
    t.presentationAudits plan = s.presentationAudits plan := by
  have hany (u : Store) (i : Nat) : ((u.plans.get? i).any fun p => p.turnId == plan.turnId &&
      p.contentRevision == plan.contentRevision &&
      p.presentationVersion == plan.presentationVersion) =
        ((u.plans.get? i).map Plan.toPlanColumns).any fun p => p.turnId == plan.turnId &&
          p.contentRevision == plan.contentRevision &&
          p.presentationVersion == plan.presentationVersion := by
    cases u.plans.get? i with
    | none => rfl
    | some p => rfl
  unfold presentationAudits
  simp only [hany, hrecoveries, hplans]

lemma recoveries_finalizeRecovered {failedId recoveredId : Nat} {recovered : Plan}
    (hrecovered : s.plans.get? recoveredId = some recovered)
    (h : s.finalizeRecoveredPlanMaterialization failedId recoveredId = .ok s') (i : Nat) :
    s'.recoveries.get? i = (s.recoveries.get? i).filter fun _ =>
      !(((s.presentationAudits recovered).drop presentationRecoveryHistoryLimit).map
        Prod.fst).contains i := by
  rcases finalizeRecovered_cases h with ⟨hnone, -⟩ | ⟨recovered', s₂, hrecovered', hs₂, h⟩
  · rw [hrecovered] at hnone
    cases hnone
  · obtain rfl := Option.some.inj (hrecovered.symm.trans hrecovered')
    have haudits : s₂.presentationAudits recovered = s.presentationAudits recovered := by
      obtain ⟨-, rfl⟩ := deleteOutbox_spec hs₂
      apply presentationAudits_of_columns
      · rfl
      · intro i
        change ((s.updatePlans _ _).plans.get? i).map _ = _
        rw [plans_updatePlans]
        cases s.plans.get? i with
        | none => rfl
        | some p =>
          rw [Option.map_some, Option.map_some, Option.map_some]
          split
          · rfl
          · rfl
    have hrecoveries : s₂.recoveries = s.recoveries := by
      obtain ⟨-, rfl⟩ := deleteOutbox_spec hs₂
      rfl
    unfold pruneRecoveries at h
    rw [haudits] at h
    rw [← hrecoveries]
    dsimp only at h
    split at h
    · rw [← Except.ok.inj h]
      exact Constrained.get?_deleteWhere _ _ _
    · obtain ⟨-, rfl⟩ := deletePlans_spec h
      exact Constrained.get?_deleteWhere _ _ _

/-- An audit stays on record, or recoveries of later generations take its place. -/
lemma Filed.stays_or_outrun (hs : s.Filed) {failedId recoveredId : Nat} {recovered plan : Plan}
    (hrecovered : s.plans.get? recoveredId = some recovered)
    (h : s.finalizeRecoveredPlanMaterialization failedId recoveredId = .ok s')
    {e : Nat × Recovery} (he : e ∈ s.presentationAudits plan) :
    e ∈ s'.presentationAudits plan ∨ s'.Outrun plan e.2.generation := by
  have hretains := retains_finalizeRecovered h
  have hs' := hs.retains hretains
  let dropped := (s.presentationAudits recovered).drop presentationRecoveryHistoryLimit
  have hstays : ∀ b ∈ s.presentationAudits plan, b ∉ dropped → b ∈ s'.presentationAudits plan := by
    intro b hb hnot
    obtain ⟨hget, p, hp, hsame⟩ := (mem_presentationAudits hs).mp hb
    have hkept : s'.recoveries.get? b.1 = some b.2 := by
      rw [recoveries_finalizeRecovered hrecovered h, hget, Option.filter_some]
      refine if_pos ?_
      rw [Bool.not_eq_true', ← Bool.not_eq_true, List.contains_iff_mem, List.mem_map]
      rintro ⟨c, hc, hid⟩
      have hgetc := ((mem_presentationAudits hs).mp (List.mem_of_mem_drop hc)).1
      rw [hid, hget] at hgetc
      exact hnot (Prod.ext hid (Option.some.inj hgetc).symm ▸ hc)
    obtain ⟨p', hp'⟩ := hretains.planOfAudit b.1 b.2 p hkept hp
    obtain ⟨p₀, hp₀, hcolumns, -⟩ := hretains.plan _ p' hp'
    obtain rfl := Option.some.inj (hp.symm.trans hp₀)
    refine (mem_presentationAudits hs').mpr ⟨hkept, p', hp', ?_⟩
    unfold SamePresentation
    rw [hcolumns]
    exact hsame
  by_cases hdropped : e ∈ dropped
  · right
    -- What is dropped is of the recovered plan's presentation, whose newest audits stay.
    have hsame : s.presentationAudits recovered = s.presentationAudits plan := by
      obtain ⟨-, p, hp, h₁⟩ := (mem_presentationAudits hs).mp (List.mem_of_mem_drop hdropped)
      obtain ⟨-, q, hq, h₂⟩ := (mem_presentationAudits hs).mp he
      obtain rfl := Option.some.inj (hp.symm.trans hq)
      exact (presentationAudits_congr h₁).symm.trans (presentationAudits_congr h₂)
    refine ⟨(s.presentationAudits plan).take presentationRecoveryHistoryLimit, ?_, ?_, ?_⟩
    · exact (nodup_presentationAudits plan).sublist (List.take_sublist _ _)
    · have hpos := List.length_pos_of_mem hdropped
      rw [List.length_drop, hsame] at hpos
      rw [List.length_take]
      omega
    · intro b hb
      have hlt : e.2.generation < b.2.generation := by
        have he : e ∈ (s.presentationAudits plan).drop presentationRecoveryHistoryLimit :=
          hsame ▸ hdropped
        exact hs.generation_lt he hb
      refine ⟨hstays b (List.mem_of_mem_take hb) fun hbad => ?_, hlt⟩
      have hlate : b ∈ (s.presentationAudits plan).drop presentationRecoveryHistoryLimit :=
        hsame ▸ hbad
      exact absurd (hs.generation_lt hlate hb) (Nat.lt_irrefl _)
  · exact .inl (hstays e he hdropped)

/-! ### One more recovery -/

/-- A plan that is failed after a recovery was so before. -/
lemma Staged.failed_before {t : Store} {w : RecoveryWork} {requestId : RequestId}
    (hstaged : Staged s t w requestId now)
    (h : t.finalizeRecoveredPlanMaterialization w.failedId s.plans.table.freeId = .ok s')
    {i : Nat} {p : Plan} (hp : s'.plans.get? i = some p) (hstate : p.state = .failed) :
    s.plans.get? i = some p := by
  have hnew : t.plans.get? s.plans.table.freeId = some (w.plan now) := by
    rw [hstaged.plans, if_pos rfl]
  have hthere : t.plans.get? i = some p := by
    rcases finalizeRecovered_cases h with ⟨hnone, -⟩ | ⟨recovered, s₂, -, hs₂, h⟩
    · rw [hnew] at hnone
      cases hnone
    · rcases plans_pruneRecoveries h i with hsame | ⟨hgone, -⟩
      · rw [hp] at hsame
        obtain ⟨-, rfl⟩ := deleteOutbox_spec hs₂
        change _ = (t.updatePlans _ _).plans.get? i at hsame
        rw [plans_updatePlans] at hsame
        obtain ⟨q, hq, heq⟩ := Option.map_eq_some_iff.mp hsame.symm
        split at heq
        · rw [← heq] at hstate
          cases hstate
        · rw [← heq]
          exact hq
      · rw [hp] at hgone
        cases hgone
  rw [hstaged.plans] at hthere
  split at hthere
  · rw [← Option.some.inj hthere] at hstate
    cases hstate
  · exact hthere

/-- The audits on record are there when the new one is. -/
lemma Staged.mem_presentationAudits (hs : s.Filed) {t : Store} {w : RecoveryWork}
    {requestId : RequestId} (hstaged : Staged s t w requestId now) {plan : Plan}
    {e : Nat × Recovery} (he : e ∈ s.presentationAudits plan) : e ∈ t.presentationAudits plan := by
  obtain ⟨hget, p, hp, hsame⟩ := (Store.mem_presentationAudits hs).mp he
  refine (Store.mem_presentationAudits hstaged.filed).mpr ⟨?_, p, ?_, hsame⟩
  · rw [hstaged.recoveries, if_neg (Table.get?_lt_freeId hget).ne]
    exact hget
  · rw [hstaged.plans, if_neg (Table.get?_lt_freeId hp).ne]
    exact hp

/-- What a granted request did: it replayed an audit, or it recovered the plan. -/
theorem prepareConnectorPlanRecover_ok {req : PlanRecover} {receipt : RecoveryReceipt}
    (h : s.prepareConnectorPlanRecover req now = .ok (s', receipt)) : req.name = turnFinalName ∧
      ((∃ audit recovered, s.priorRequest? req = some (audit, recovered) ∧
          audit.failedPlanToken = req.failedPlanToken ∧ s' = s ∧
          receipt = replayedReceipt audit recovered) ∨
        ∃ failedId failed w,
          s.planByToken? req.hostId req.name req.failedPlanToken = some (failedId, failed) ∧
          s.recoveryWork req failedId failed = .ok w ∧
          s.materializeRecovery w req.requestId now = .ok s' ∧
          receipt = { replayedReceipt (w.audit req.requestId s.plans.table.freeId now)
            (w.plan now) with idempotentReplay := false }) := by
  unfold prepareConnectorPlanRecover at h
  obtain ⟨_, hname, h⟩ := bind_eq_ok.mp h
  refine ⟨by simpa using require_eq_ok.mp hname, ?_⟩
  split at h
  · next audit recovered hprior =>
    obtain ⟨_, htoken, h⟩ := bind_eq_ok.mp h
    obtain ⟨rfl, rfl⟩ := Prod.mk.inj (Except.ok.inj h)
    exact .inl ⟨audit, recovered, hprior, by simpa using require_eq_ok.mp htoken, rfl, rfl⟩
  · obtain ⟨⟨failedId, failed⟩, hplan, h⟩ := bind_eq_ok.mp h
    obtain ⟨w, hw, h⟩ := bind_eq_ok.mp h
    obtain ⟨s₁, hs₁, h⟩ := bind_eq_ok.mp h
    obtain ⟨rfl, rfl⟩ := Prod.mk.inj (Except.ok.inj h)
    refine .inr ⟨failedId, failed, w, demand_eq_ok.mp hplan, hw, hs₁, ?_⟩
    obtain ⟨-, hfailed, -⟩ := recoveryWork_spec hw
    obtain ⟨-, -, -, htoken⟩ := planByToken?_spec (demand_eq_ok.mp hplan)
    simp [replayedReceipt, RecoveryWork.audit, RecoveryWork.plan, hfailed, htoken]

/-- No plan with this token is failed. -/
def Unfailed (s : Store) (hostId name : String) (token : PlanToken) : Prop :=
  ∀ i p, s.plans.get? i = some p → p.hostId = hostId → p.name = name → p.planToken = token →
    p.state ≠ .failed

/-- The audit answers requests for its presentation, or as many later ones as are kept do. -/
def Answered (s : Store) (plan : Plan) (e : Nat × Recovery) : Prop :=
  e ∈ s.presentationAudits plan ∨ s.Outrun plan e.2.generation

lemma Outrun.mono {plan : Plan} {m n : Nat} (h : s.Outrun plan n) (hle : m ≤ n) :
    s.Outrun plan m := by
  obtain ⟨audits, hnodup, hlength, hall⟩ := h
  exact ⟨audits, hnodup, hlength, fun e he => ⟨(hall e he).1, Nat.lt_of_le_of_lt hle (hall e he).2⟩⟩

/-- What one more request leaves of what was answered and of what was recovered. -/
lemma Filed.step_recover (hs : s.Filed) (req : PlanRecover) (now : Int) :
    (∀ plan e, s.Answered plan e → (s.step (.planRecover req now)).1.Answered plan e) ∧
      ∀ hostId name token, s.Unfailed hostId name token →
        (s.step (.planRecover req now)).1.Unfailed hostId name token := by
  cases hrecover : s.prepareConnectorPlanRecover req now with
  | error reason =>
    have hsame : s.step (.planRecover req now) = (s, .refused reason) := by
      simp only [step, call, hrecover]
      rfl
    rw [hsame]
    exact ⟨fun _ _ h => h, fun _ _ _ h => h⟩
  | ok result =>
    obtain ⟨s', receipt⟩ := result
    have hstep : (s.step (.planRecover req now)).1 = s' := by
      simp only [step, call, hrecover]
      rfl
    rw [hstep]
    obtain ⟨-, ⟨_, _, -, -, rfl, -⟩ | ⟨failedId, failed, w, hplan, hw, h, -⟩⟩ :=
      prepareConnectorPlanRecover_ok hrecover
    · exact ⟨fun _ _ h => h, fun _ _ _ h => h⟩
    · obtain ⟨t, hstaged, h⟩ := hs.staged_of_recover hplan hw h
      have hnew : t.plans.get? s.plans.table.freeId = some (w.plan now) := by
        rw [hstaged.plans, if_pos rfl]
      have hone (plan : Plan) (e : Nat × Recovery) (he : e ∈ s.presentationAudits plan) :
          s'.Answered plan e :=
        hstaged.filed.stays_or_outrun hnew h (hstaged.mem_presentationAudits hs he)
      constructor
      · rintro plan e (he | ⟨audits, hnodup, hlength, hall⟩)
        · exact hone plan e he
        · right
          by_cases hstay : ∀ b ∈ audits, b ∈ s'.presentationAudits plan
          · exact ⟨audits, hnodup, hlength, fun b hb => ⟨hstay b hb, (hall b hb).2⟩⟩
          · push Not at hstay
            obtain ⟨b, hb, hgone⟩ := hstay
            exact ((hone plan b (hall b hb).1).resolve_left hgone).mono (hall b hb).2.le
      · intro hostId name token hunfailed i p hp hhost hname htoken hstate
        exact hunfailed i p (hstaged.failed_before h hp hstate) hhost hname htoken hstate

/-- The store after some requests to recover plans. -/
def recoverRun (s : Store) (requests : List (PlanRecover × Int)) : Store :=
  s.run (requests.map fun r => .planRecover r.1 r.2)

lemma Filed.recoverRun (hs : s.Filed) (requests : List (PlanRecover × Int)) :
    (s.recoverRun requests).Filed ∧
      (∀ plan e, s.Answered plan e → (s.recoverRun requests).Answered plan e) ∧
      ∀ hostId name token, s.Unfailed hostId name token →
        (s.recoverRun requests).Unfailed hostId name token := by
  induction requests generalizing s with
  | nil => exact ⟨hs, fun _ _ h => h, fun _ _ _ h => h⟩
  | cons r requests ih =>
    obtain ⟨hanswered, hunfailed⟩ := hs.step_recover r.1 r.2
    obtain ⟨hfiled, hanswered', hunfailed'⟩ := ih (respects_filed.step s (.planRecover r.1 r.2) hs)
    exact ⟨hfiled, fun plan e he => hanswered' plan e (hanswered plan e he),
      fun hostId name token h => hunfailed' hostId name token (hunfailed hostId name token h)⟩

/-! ### Replays -/

lemma priorRequest?_of_get {req : PlanRecover} {i : Nat} {a : Recovery} {p : Plan}
    (ha : s.recoveries.get? i = some a) (hhost : a.hostId = req.hostId) (hname : a.name = req.name)
    (hrequest : a.requestId = req.requestId) (hp : s.plans.get? a.recoveredPlanId = some p) :
    s.priorRequest? req = some (a, p) := by
  have hfirst : (s.recoveries.table.first? fun _ a => a.hostId == req.hostId &&
      a.name == req.name && a.requestId == req.requestId) = some (i, a) := by
    cases h : s.recoveries.table.first? fun _ a => a.hostId == req.hostId &&
        a.name == req.name && a.requestId == req.requestId with
    | none => simpa [hhost, hname, hrequest] using Table.first?_eq_none h ha
    | some e =>
      obtain ⟨j, b⟩ := e
      obtain ⟨hb, hcolumns⟩ := Table.first?_eq_some h
      simp only [Bool.and_eq_true, beq_iff_eq] at hcolumns
      have hid : i = j := by
        refine s.recoveries.eq_of_key (k := fun r => some (.request r.hostId r.name r.requestId))
          List.mem_cons_self ha hb rfl ?_
        rw [hhost, hname, hrequest, hcolumns.1.1, hcolumns.1.2, hcolumns.2]
      subst hid
      rw [Option.some.inj (ha.symm.trans hb)]
  unfold priorRequest?
  rw [hfirst]
  change ((s.plans.get? a.recoveredPlanId).bind fun plan => some (a, plan)) = _
  rw [hp]
  rfl

lemma priorRequest?_spec {req : PlanRecover} {a : Recovery} {p : Plan}
    (h : s.priorRequest? req = some (a, p)) : ∃ i, s.recoveries.get? i = some a ∧
      a.hostId = req.hostId ∧ a.name = req.name ∧ a.requestId = req.requestId ∧
      s.plans.get? a.recoveredPlanId = some p := by
  obtain ⟨⟨i, a'⟩, hfirst, h⟩ := Option.bind_eq_some_iff.mp h
  obtain ⟨p', hp, h⟩ := Option.bind_eq_some_iff.mp h
  obtain ⟨rfl, rfl⟩ := Prod.mk.inj (Option.some.inj h)
  obtain ⟨ha, hcolumns⟩ := Table.first?_eq_some hfirst
  simp only [Bool.and_eq_true, beq_iff_eq] at hcolumns
  exact ⟨i, ha, hcolumns.1.1, hcolumns.1.2, hcolumns.2, hp⟩

/-- A request whose audit is on record is answered from it. -/
lemma Filed.replay (hs : s.Filed) {req : PlanRecover} {plan : Plan} {e : Nat × Recovery}
    (he : e ∈ s.presentationAudits plan) (hname : req.name = turnFinalName)
    (hhost : e.2.hostId = req.hostId) (hsame : e.2.name = req.name)
    (hrequest : e.2.requestId = req.requestId)
    (htoken : e.2.failedPlanToken = req.failedPlanToken) (now : Int) :
    s.prepareConnectorPlanRecover req now = .ok (s, replayedReceipt e.2 plan) := by
  obtain ⟨ha, p, hp, -, -, -, hrevision, -⟩ := (mem_presentationAudits hs).mp he
  have hprior := priorRequest?_of_get ha hhost hsame hrequest hp
  have hreceipt : replayedReceipt e.2 plan = replayedReceipt e.2 p := by
    rw [replayedReceipt, replayedReceipt, hrevision]
  unfold prepareConnectorPlanRecover
  rw [hreceipt, hname, hprior]
  simp [require, htoken, bind, Except.bind, pure, Except.pure]

/-- The audit of a recovery is the newest of its presentation. -/
lemma Filed.answered_new (hs : s.Filed) {req : PlanRecover} {failedId : Nat} {failed : Plan}
    {w : RecoveryWork}
    (hplan : s.planByToken? req.hostId req.name req.failedPlanToken = some (failedId, failed))
    (hw : s.recoveryWork req failedId failed = .ok w)
    (h : s.materializeRecovery w req.requestId now = .ok s') :
    (s.recoveries.table.freeId, w.audit req.requestId s.plans.table.freeId now) ∈
      s'.presentationAudits (w.plan now) := by
  obtain ⟨t, hstaged, h⟩ := hs.staged_of_recover hplan hw h
  obtain ⟨-, hfailed, -, -, hlatest, -⟩ := recoveryWork_spec hw
  have hnew : t.plans.get? s.plans.table.freeId = some (w.plan now) := by
    rw [hstaged.plans, if_pos rfl]
  have hmem : (s.recoveries.table.freeId, w.audit req.requestId s.plans.table.freeId now) ∈
      t.presentationAudits (w.plan now) := by
    refine (mem_presentationAudits hstaged.filed).mpr ⟨?_, _, hnew, rfl, rfl, rfl, rfl, rfl⟩
    rw [hstaged.recoveries, if_pos rfl]
  refine (hstaged.filed.stays_or_outrun hnew h hmem).resolve_right ?_
  rintro ⟨audits, -, hlength, hall⟩
  obtain ⟨e, he⟩ := List.exists_mem_of_length_pos (l := audits) (by
    rw [hlength, presentationRecoveryHistoryLimit]
    omega)
  obtain ⟨hmem', hlt⟩ := hall e he
  have hretains := retains_finalizeRecovered h
  have hs' := hstaged.filed.retains hretains
  obtain ⟨ha, p, hp, hhost, hname, hturn, hrevision, hversion⟩ :=
    (mem_presentationAudits hs').mp hmem'
  obtain ⟨p', hp', -, -, -, hgeneration⟩ := hs'.audited e.1 e.2 ha
  obtain rfl := Option.some.inj (hp.symm.trans hp')
  obtain ⟨p₀, hp₀, hcolumns, -⟩ := hretains.plan _ p hp
  have hbound : p₀.generation ≤ failed.generation + 1 := by
    rw [hstaged.plans] at hp₀
    split at hp₀
    · obtain rfl := Option.some.inj hp₀
      simp [RecoveryWork.plan, hfailed]
    · have hle : s.latestGeneration failed ≤ failed.generation := hlatest.le
      unfold latestGeneration at hle
      rw [foldl_max_le_iff] at hle
      refine (hle.2 p₀.generation (List.mem_map.mpr ⟨(_, p₀), Table.mem_select.mpr
        ⟨hp₀, ?_⟩, rfl⟩)).trans (Nat.le_succ _)
      rw [hcolumns] at hhost hname hturn hrevision hversion
      simp only [RecoveryWork.plan, hfailed] at hhost hname hturn hrevision hversion
      simp [hhost, hname, hturn, hrevision, hversion]
  have hgen : p.generation = p₀.generation := congrArg PlanColumns.generation hcolumns
  simp only [RecoveryWork.audit, hfailed] at hlt
  omega

/-! ### Every request -/

/-- A new plan has exactly the jobs of a failed plan that were not acknowledged. -/
def Resumes (s s' : Store) (req : PlanRecover) (receipt : RecoveryReceipt) : Prop :=
  ∃ failedId failed i p,
    s.planByToken? req.hostId req.name req.failedPlanToken = some (failedId, failed) ∧
    failed.state = .failed ∧
    s'.planByToken? req.hostId req.name receipt.planToken = some (i, p) ∧
    s.plans.get? i = none ∧ p.recoversPlanToken = some req.failedPlanToken ∧ p.state = .active ∧
    (s'.planJobs i).map Job.spec = (s.unacknowledgedJobs failedId).map Job.spec

/-- After this answer to a request, no sequence of requests recovers its plan anew, and the request
gets the answer again unless the recovery is outrun. -/
def Lasts (s' : Store) (req : PlanRecover) (receipt : RecoveryReceipt) : Prop :=
  ∀ later : List (PlanRecover × Int),
    (receipt.idempotentReplay = false → ∀ req' now' s'' receipt',
      req'.hostId = req.hostId → req'.name = req.name →
      req'.failedPlanToken = req.failedPlanToken →
      (s'.recoverRun later).prepareConnectorPlanRecover req' now' = .ok (s'', receipt') →
      receipt'.idempotentReplay = true) ∧
    ∃ i p, s'.planByToken? req.hostId req.name receipt.planToken = some (i, p) ∧
      ((∀ now', (s'.recoverRun later).prepareConnectorPlanRecover req now' =
          .ok (s'.recoverRun later, { receipt with idempotentReplay := true })) ∨
        (s'.recoverRun later).Outrun p receipt.generation)

/-- An audit on record answers as long as it is not outrun. -/
lemma Filed.lasts (hs : s.Filed) {req : PlanRecover} {plan : Plan} {e : Nat × Recovery}
    (he : e ∈ s.presentationAudits plan) (hname : req.name = turnFinalName)
    (hhost : e.2.hostId = req.hostId) (hsame : e.2.name = req.name)
    (hrequest : e.2.requestId = req.requestId)
    (htoken : e.2.failedPlanToken = req.failedPlanToken) (later : List (PlanRecover × Int)) :
    (∀ now', (s.recoverRun later).prepareConnectorPlanRecover req now' =
        .ok (s.recoverRun later, replayedReceipt e.2 plan)) ∨
      (s.recoverRun later).Outrun plan e.2.generation := by
  obtain ⟨hfiled, hanswered, -⟩ := hs.recoverRun later
  rcases hanswered plan e (.inl he) with hstill | houtrun
  · exact .inl fun now' => hfiled.replay hstill hname hhost hsame hrequest htoken now'
  · exact .inr houtrun

theorem Filed.recover_answers (hs : s.Filed) {req : PlanRecover} {receipt : RecoveryReceipt}
    (h : s.prepareConnectorPlanRecover req now = .ok (s', receipt)) :
    (receipt.idempotentReplay = true → s' = s) ∧
      (receipt.idempotentReplay = false → Resumes s s' req receipt) ∧ Lasts s' req receipt := by
  have hs' := hs.planRecover h
  obtain ⟨hname, ⟨audit, recovered, hprior, htoken, rfl, rfl⟩ |
    ⟨failedId, failed, w, hplan, hw, hmade, rfl⟩⟩ := prepareConnectorPlanRecover_ok h
  · refine ⟨fun _ => rfl, fun hfalse => (by cases hfalse), fun later => ⟨fun hfalse => ?_, ?_⟩⟩
    · cases hfalse
    · obtain ⟨k, ha, hhost, hsame, hrequest, hp⟩ := priorRequest?_spec hprior
      obtain ⟨p, hp', hof, hofName, hofToken, -⟩ := hs.audited k audit ha
      obtain rfl := Option.some.inj (hp.symm.trans hp')
      have hmem : (k, audit) ∈ s'.presentationAudits recovered :=
        (mem_presentationAudits hs).mpr ⟨ha, recovered, hp, rfl, rfl, rfl, rfl, rfl⟩
      have hfound := planByToken?_of_get hp
      rw [← hof, ← hofName, ← hofToken, hhost, hsame] at hfound
      exact ⟨_, recovered, hfound, hs.lasts hmem hname hhost hsame hrequest htoken later⟩
  · obtain ⟨hget, hhost, hsame, hfound⟩ := planByToken?_spec hplan
    obtain ⟨hid, hfailed, hstate, -⟩ := recoveryWork_spec hw
    have hplans := plans_materializeRecovery (by rw [hid, hfailed]; exact hget) hmade
    have hnew := planByToken?_of_get hplans.1
    have hhost' : (w.plan now).hostId = req.hostId := by
      simp [RecoveryWork.plan, hfailed, hhost]
    have hname' : (w.plan now).name = req.name := by
      simp [RecoveryWork.plan, hfailed, hsame]
    have htoken : w.failed.planToken = req.failedPlanToken := by
      rw [hfailed, hfound]
    rw [hhost', hname'] at hnew
    refine ⟨fun hfalse => (by cases hfalse), fun _ => ?_, fun later => ⟨fun _ => ?_, ?_⟩⟩
    · refine ⟨failedId, failed, _, _, hplan, hstate, hnew,
        Table.get?_eq_none_of_freeId_le (Nat.le_refl _), ?_, rfl, hs.planJobs_recovered hplan hw hmade⟩
      exact congrArg some htoken
    · -- The only plan with the token is failed no longer, so no request passes its check.
      have hunfailed : s'.Unfailed req.hostId req.name req.failedPlanToken := by
        intro i p hp hphost hpname hptoken hpstate
        obtain ⟨t, hstaged, hfinal⟩ := hs.staged_of_recover hplan hw hmade
        have hbefore := hstaged.failed_before hfinal hp hpstate
        have hi : i = failedId := eq_of_planToken hbefore hget (hphost.trans hhost.symm)
          (hpname.trans hsame.symm) (hptoken.trans hfound.symm)
        refine hplans.2 p ?_ hpstate
        rw [hid, ← hi]
        exact hp
      intro req' now' s'' receipt' hreqHost hreqName hreqToken hagain
      have hlater := (hs'.recoverRun later).2.2 _ _ _ hunfailed
      obtain ⟨-, ⟨_, _, -, -, -, rfl⟩ | ⟨failedId', failed', w', hplan', hw', -⟩⟩ :=
        prepareConnectorPlanRecover_ok hagain
      · rfl
      · obtain ⟨hget', hhost', hsame', hfound'⟩ := planByToken?_spec hplan'
        obtain ⟨-, -, hstate', -⟩ := recoveryWork_spec hw'
        exact absurd hstate' (hlater failedId' failed' hget' (hhost'.trans hreqHost)
          (hsame'.trans hreqName) (hfound'.trans hreqToken))
    · refine ⟨_, w.plan now, hnew, ?_⟩
      exact hs'.lasts (hs.answered_new hplan hw hmade) hname hhost' hname' rfl htoken later

/-- Every request to recover a plan: a refusal and a replay change nothing, a recovery starts a plan
with exactly the unacknowledged jobs of the failed one, no later request recovers that plan again,
and the request gets the same answer until as many later recoveries of the presentation are on
record as are kept. -/
theorem recovery_resumes (supersessions : Constrained supersessionSchema) (calls : List Call)
    (req : PlanRecover) (now : Int) :
    let s := (initial supersessions).run calls
    match s.prepareConnectorPlanRecover req now with
    | .error reason => s.step (.planRecover req now) = (s, .refused reason)
    | .ok (s', receipt) => (receipt.idempotentReplay = true → s' = s) ∧
        (receipt.idempotentReplay = false → Resumes s s' req receipt) ∧ Lasts s' req receipt := by
  intro s
  cases hrecover : s.prepareConnectorPlanRecover req now with
  | error reason =>
    simp only [step, call, hrecover]
    rfl
  | ok result => exact (filed_run supersessions calls).recover_answers hrecover

/-! ### An audit that is outrun -/

def retryLabel (k : Nat) : RequestId := .label (String.ofList (List.replicate k 'r'))

/-- The tokens of a chain of recoveries of the sample plan. -/
def recoveredToken : Nat → PlanToken
  | 0 => coverageToken
  | k + 1 => .recovery "host" turnFinalName (recoveredToken k) (retryLabel k) (k + 2)

def recoverRequest (k : Nat) : PlanRecover :=
  { hostId := "host"
    name := turnFinalName
    failedPlanToken := recoveredToken k
    requestId := retryLabel k }

/-- The first part of the plan is polled, and fails for good. -/
def failCalls (k : Nat) : List Call := [
  .poll {
    hostId := "host"
    name := turnFinalName
    limit := 1
    leaseSeconds := 60
    maxAttempts := some 10
    secrets := fun n => ⟨n, n⟩ } 1,
  .setback (.fail (some 1)) "host" turnFinalName (k + 2) none none 1]

/-- Four recoveries in a row, each of the one before it, and the last of them has failed. -/
def recoveredCalls : List Call :=
  committedCalls ++ (List.range 4).flatMap (fun k =>
    failCalls k ++ [.planRecover (recoverRequest k) 1]) ++ failCalls 4

/-- The fifth recovery takes the first one's audit away. -/
theorem replay_outrun :
    ¬∀ (calls : List Call) (req : PlanRecover) (now : Int) (s' : Store) (receipt : RecoveryReceipt)
      (later : List (PlanRecover × Int)) (now' : Int),
      ((initial .empty).run calls).prepareConnectorPlanRecover req now = .ok (s', receipt) →
      (s'.recoverRun later).prepareConnectorPlanRecover req now' =
        .ok (s'.recoverRun later, { receipt with idempotentReplay := true }) := by
  intro hclaim
  let s := (initial .empty).run recoveredCalls
  obtain ⟨⟨s', receipt⟩, hfirst⟩ := exists_of_isOk
    (x := s.prepareConnectorPlanRecover (recoverRequest 0) 2) (by decide +kernel)
  have hagain : ((s.prepareConnectorPlanRecover (recoverRequest 0) 2).toOption.any fun p =>
      ((p.1.recoverRun [(recoverRequest 4, 2)]).prepareConnectorPlanRecover
        (recoverRequest 0) 3).isOk) = false := by decide +kernel
  have hreplay := hclaim recoveredCalls (recoverRequest 0) 2 s' receipt [(recoverRequest 4, 2)] 3
    hfirst
  rw [hfirst] at hagain
  simp only [Except.toOption, Option.any_some, hreplay] at hagain
  cases hagain

/-! ### What is on record -/

/-- In every run, the plan of a job is on record, a committed one's job has a row filed as a job,
the source of a plan presents its turn, an attempt repeats the key of its row, the times of a plan
fit its state, and a recovered plan has the one audit that tells of it. -/
theorem records_fit (supersessions : Constrained supersessionSchema) (calls : List Call) :
    let s := (initial supersessions).run calls
    (∀ i j, s.jobs.get? i = some j → ∃ p, s.plans.get? j.planId = some p ∧
      (p.state.committed = true → ∃ o r, j.outboxId = some o ∧ s.outbox.get? o = some r ∧
        r.deliveryKey.isJob = true)) ∧
    (∀ i p, s.plans.get? i = some p → p.Sound ∧ ∀ o r, p.sourceOutboxId = some o →
      s.outbox.get? o = some r → p.SourcedBy r) ∧
    (∀ k d i r, s.deliveries.get? k = some d → d.outboxId = some i → s.outbox.get? i = some r →
      d.AttemptOf r) ∧
    ∀ i a, s.recoveries.get? i = some a → ∃ p, s.plans.get? a.recoveredPlanId = some p ∧ a.Of p ∧
      ∀ k b, s.recoveries.get? k = some b → b.recoveredPlanId = a.recoveredPlanId → k = i := by
  intro s
  have hfiled : s.Filed := filed_run supersessions calls
  have hkeyed : s.Keyed := keyed_run supersessions calls
  have hconsistent : s.Consistent :=
    foldl_invariant (P := Consistent) (fun t c _ ht => (respects_writes.step t c).consistent ht)
      (consistent_initial supersessions)
  refine ⟨?_, ?_, ?_, ?_⟩
  · intro i j hj
    obtain ⟨p, hp, hlinked⟩ := hfiled.planned i j hj
    refine ⟨p, hp, fun hcommitted => ?_⟩
    obtain ⟨o, ho⟩ := Option.ne_none_iff_exists'.mp (hlinked hcommitted)
    obtain ⟨r, hr⟩ := hfiled.rows i j o hj ho
    exact ⟨o, r, ho, hr, (hkeyed.job i j o hj ho).2 r hr⟩
  · intro i p hp
    have hfits := hconsistent.plans i p hp
    exact ⟨hfits.sound, fun o r ho hr => (hfits.source o ho).2 r hr⟩
  · intro k d i r hd hi hr
    exact (hconsistent.attempts k d i hd hi).2 r hr
  · intro i a ha
    obtain ⟨p, hp, hof⟩ := hfiled.audited i a ha
    exact ⟨p, hp, hof, fun k b hb hsame => hfiled.once k i b a hb ha hsame⟩

end Store

end Tendwire.Connector

import Tendwire.Connector.Spans

/-!
# Coverage of a committed plan

The commit scans the spans of all parts in ordinal order and follows one cursor in each field.
Each field is covered from its start to its end, but nothing compares the fields of two parts.
-/

namespace Tendwire.Connector

/-- Each span begins where the one before it ended. -/
def Contiguous : Nat → List Span → Nat → Prop
  | start, [], stop => start = stop
  | start, span :: spans, stop =>
    span.startChar = start ∧ span.Forward ∧ Contiguous span.endChar spans stop

def spansOf (field : TurnField) (parts : List (List Span)) : List Span :=
  parts.flatten.filter (·.field == field)

/-- Every complete nonempty field is covered from 0 to its length. -/
def CoversFields (row : RevisionRow) (parts : List (List Span)) : Prop :=
  ∀ field, row.state field = .complete → 0 < row.charLength field →
    Contiguous 0 (spansOf field parts) (row.charLength field)

/-- What the user wrote comes before the final text. -/
def FieldsInOrder (parts : List (List Span)) : Prop :=
  parts.flatten.Pairwise fun a b => a.field.rank ≤ b.field.rank

structure CoversExactly (row : RevisionRow) (parts : List (List Span)) : Prop where
  fields : CoversFields row parts
  order : FieldsInOrder parts

/-! ### The scan -/

lemma contiguous_of_scan {row : RevisionRow} (field : TurnField) {spans : List Span}
    (hforward : ∀ span ∈ spans, span.Forward) {cursors cursors' : SpanCursors}
    (h : spans.foldlM (advanceCoverage row) cursors = some cursors') :
    Contiguous ((cursors field).getD 0) (spans.filter (·.field == field))
      ((cursors' field).getD 0) := by
  induction spans generalizing cursors with
  | nil =>
    obtain rfl := Option.some.inj h
    exact rfl
  | cons span spans ih =>
    rw [List.foldlM_cons] at h
    obtain ⟨next, hnext, h⟩ := Option.bind_eq_some_iff.mp h
    have hrest := ih (fun x hx => hforward x (List.mem_cons_of_mem _ hx)) h
    unfold advanceCoverage at hnext
    split at hnext
    · next hc =>
      obtain rfl := Option.some.inj hnext
      simp only [Bool.and_eq_true, beq_iff_eq] at hc
      by_cases hfield : span.field = field
      · rw [List.filter_cons_of_pos (by simpa using hfield)]
        rw [SpanCursors.advance, if_pos hfield.symm] at hrest
        refine ⟨?_, hforward span (by simp), hrest⟩
        rw [hc.2, hfield]
      · rw [List.filter_cons_of_neg (by simpa using hfield)]
        rwa [SpanCursors.advance, if_neg (Ne.symm hfield)] at hrest
    · cases hnext

lemma coversFields_of_exactCoverage {row : RevisionRow} {parts : List (List Span)}
    (hforward : ∀ spans ∈ parts, ∀ span ∈ spans, span.Forward)
    (h : presentationExactCoverage row parts = true) : CoversFields row parts := by
  intro field hstate hlength
  unfold presentationExactCoverage at h
  split at h
  · cases h
  · next cursors hscan =>
    have hflat : ∀ span ∈ parts.flatten, span.Forward := by
      intro span hspan
      obtain ⟨spans, hspans, hmem⟩ := List.mem_flatten.mp hspan
      exact hforward spans hspans span hmem
    have hcontiguous := contiguous_of_scan field hflat hscan
    have hrequired : requiredCursor row field = some (row.charLength field) := by
      simp [requiredCursor, hstate, hlength]
    have hcursor : cursors field = some (row.charLength field) := by
      simp only [Bool.and_eq_true, beq_iff_eq] at h
      cases field with
      | userText => exact h.1.trans hrequired
      | assistantFinalText => exact h.2.trans hrequired
    rw [hcursor] at hcontiguous
    exact hcontiguous

namespace Store

variable {s s' : Store} {req : PlanCommit} {planId : Nat} {plan : Plan} {now : Int}

/-- The spans of the staged parts of a plan, by ordinal. -/
def stagedSpans (s : Store) (planId : Nat) : List (List Span) :=
  (s.stagedJobs planId).map (·.2.spans)

lemma forward_stagedSpans (hs : s.SpansForward) :
    ∀ spans ∈ s.stagedSpans planId, ∀ span ∈ spans, span.Forward := by
  intro spans hspans
  obtain ⟨e, he, rfl⟩ := List.mem_map.mp hspans
  have hmem := (List.mem_insertionSort _).mp he
  exact hs e.1 e.2 (Relational.Table.mem_select.mp hmem).1

/-- What a first commit has checked. -/
lemma commitWork_coverage {w : CommitWork} (h : s.commitWork req planId plan now = .ok w) :
    ∃ row, s.currentPresentationRevision req.hostId plan.turnId plan.contentRevision = .ok row ∧
      (s.stagedJobs planId).map (·.2.partOrdinal) = List.range plan.partCount ∧
      presentationExactCoverage row (s.stagedSpans planId) = true := by
  unfold commitWork at h
  obtain ⟨row, hrow, h⟩ := bind_eq_ok.mp h
  obtain ⟨⟨live, turn⟩, -, h⟩ := bind_eq_ok.mp h
  obtain ⟨_, -, h⟩ := bind_eq_ok.mp h
  obtain ⟨_, hparts, h⟩ := bind_eq_ok.mp h
  have hc := require_eq_ok.mp hparts
  rw [Bool.and_eq_true, beq_iff_eq] at hc
  exact ⟨row, hrow, hc.1, hc.2⟩

/-- A first commit is accepted only after those checks. -/
lemma commitWork_of_commit {receipt : PlanReceipt}
    (hplan : s.planByToken? req.hostId req.name req.planToken = some (planId, plan))
    (hfirst : s.materializedJobCount planId = 0)
    (h : s.prepareConnectorPlanCommit req now = .ok (s', receipt)) :
    ∃ w, s.commitWork req planId plan now = .ok w := by
  unfold prepareConnectorPlanCommit at h
  obtain ⟨_, -, h⟩ := bind_eq_ok.mp h
  obtain ⟨found, hfound, h⟩ := bind_eq_ok.mp h
  obtain rfl := Option.some.inj ((demand_eq_ok.mp hfound).symm.trans hplan)
  dsimp only at h
  rw [if_neg (by omega)] at h
  obtain ⟨w, hw, -⟩ := bind_eq_ok.mp h
  exact ⟨w, hw⟩

lemma commit_replay {receipt : PlanReceipt}
    (hplan : s.planByToken? req.hostId req.name req.planToken = some (planId, plan))
    (hlater : 0 < s.materializedJobCount planId)
    (h : s.prepareConnectorPlanCommit req now = .ok (s', receipt)) : s' = s := by
  unfold prepareConnectorPlanCommit at h
  obtain ⟨_, -, h⟩ := bind_eq_ok.mp h
  obtain ⟨found, hfound, h⟩ := bind_eq_ok.mp h
  obtain rfl := Option.some.inj ((demand_eq_ok.mp hfound).symm.trans hplan)
  dsimp only at h
  rw [if_pos hlater] at h
  exact (Prod.mk.inj (Except.ok.inj h)).1.symm

lemma step_planCommit_refused {reason : Refusal}
    (h : s.prepareConnectorPlanCommit req now = .error reason) :
    s.step (.planCommit req now) = (s, .refused reason) := by
  simp only [step, call, h]
  rfl

/-- After any calls: an accepted first commit covers every field, and covers the content exactly if
and only if the parts keep the fields in order. Parts that do not cover a field are refused and
nothing changes. -/
theorem planCommit_covers_iff (supersessions : Relational.Constrained supersessionSchema)
    (calls : List Call) (req : PlanCommit) (now : Int) :
    let s := (initial supersessions).run calls
    ∀ planId plan, s.planByToken? req.hostId req.name req.planToken = some (planId, plan) →
      s.materializedJobCount planId = 0 →
      (∀ s' receipt, s.prepareConnectorPlanCommit req now = .ok (s', receipt) →
        ∃ row, s.currentPresentationRevision req.hostId plan.turnId plan.contentRevision = .ok row ∧
          (s.stagedJobs planId).map (·.2.partOrdinal) = List.range plan.partCount ∧
          CoversFields row (s.stagedSpans planId) ∧
          (CoversExactly row (s.stagedSpans planId) ↔ FieldsInOrder (s.stagedSpans planId))) ∧
      ∀ row, s.currentPresentationRevision req.hostId plan.turnId plan.contentRevision = .ok row →
        ¬CoversFields row (s.stagedSpans planId) →
        ∃ reason, s.step (.planCommit req now) = (s, .refused reason) := by
  intro s planId plan hplan hfirst
  have hforward : s.SpansForward := spansForward_run supersessions calls
  have haccepted : ∀ s' receipt, s.prepareConnectorPlanCommit req now = .ok (s', receipt) →
      ∃ row, s.currentPresentationRevision req.hostId plan.turnId plan.contentRevision = .ok row ∧
        (s.stagedJobs planId).map (·.2.partOrdinal) = List.range plan.partCount ∧
        CoversFields row (s.stagedSpans planId) := by
    intro s' receipt hcommit
    obtain ⟨w, hw⟩ := commitWork_of_commit hplan hfirst hcommit
    obtain ⟨row, hrow, hordinals, hcoverage⟩ := commitWork_coverage hw
    exact ⟨row, hrow, hordinals,
      coversFields_of_exactCoverage (forward_stagedSpans hforward) hcoverage⟩
  constructor
  · intro s' receipt hcommit
    obtain ⟨row, hrow, hordinals, hfields⟩ := haccepted s' receipt hcommit
    exact ⟨row, hrow, hordinals, hfields, CoversExactly.order, fun horder => ⟨hfields, horder⟩⟩
  · intro row hrow hgap
    cases hcommit : s.prepareConnectorPlanCommit req now with
    | error reason => exact ⟨reason, step_planCommit_refused hcommit⟩
    | ok result =>
      obtain ⟨row', hrow', -, hfields⟩ := haccepted result.1 result.2 hcommit
      rw [hrow] at hrow'
      obtain rfl := Except.ok.inj hrow'
      exact absurd hfields hgap

/-! ### Two parts -/

/-- One question and one answer of one character each. -/
def coverageRevision : ContentRevision :=
  { turnId := "turn", userText := some "q", finalText := some "a", userState := .complete,
    finalState := .complete }

def coverageRevisions : Relational.Constrained revisionSchema where
  table := Relational.Table.empty.insert
    { hostId := "host"
      turnId := "turn"
      contentRevision := coverageRevision
      userCharLength := 1
      userByteLength := 1
      finalCharLength := 1
      finalByteLength := 1
      userPageCount := 1
      finalPageCount := 1
      isCurrent := true }
  holds := by simp [Relational.Schema.Holds, Relational.Table.insert, Relational.Table.empty,
    revisionSchema, coverageRevision]

def coverageToken : PlanToken :=
  .plan "host" turnFinalName "turn" coverageRevision "v1" 2 1

/-- A plan of two parts, one span each. -/
def coverageCalls (first second : TurnField) : List Call := [
  .refreshTurns [.write (sampleTurns "worker") coverageRevisions],
  .planBegin {
    hostId := "host"
    name := turnFinalName
    turnId := "turn"
    contentRevision := coverageRevision
    presentationVersion := "v1"
    partCount := 2
    sourceRef := none } 0,
  .planPart "host" turnFinalName coverageToken 0 [⟨first, 0, 1⟩] 0,
  .planPart "host" turnFinalName coverageToken 1 [⟨second, 0, 1⟩] 0]

def coverageCommit : PlanCommit := ⟨"host", turnFinalName, coverageToken, none, 60⟩

/-- The plan is staged and can be committed, whichever of the two texts comes first. -/
lemma coverageCalls_committed (first second : TurnField) (h : (first, second) ∈
      [(TurnField.userText, TurnField.assistantFinalText), (.assistantFinalText, .userText)]) :
    let s := (initial .empty).run (coverageCalls first second)
    ∃ s' receipt plan, s.prepareConnectorPlanCommit coverageCommit 0 = .ok (s', receipt) ∧
      s.planByToken? "host" turnFinalName coverageToken = some (1, plan) ∧
      s.materializedJobCount 1 = 0 ∧ s.stagedSpans 1 = [[⟨first, 0, 1⟩], [⟨second, 0, 1⟩]] := by
  intro s
  have hall : ∀ e ∈
      [(TurnField.userText, TurnField.assistantFinalText), (.assistantFinalText, .userText)],
      let s := (initial .empty).run (coverageCalls e.1 e.2)
      (s.prepareConnectorPlanCommit coverageCommit 0).isOk = true ∧
        (s.planByToken? "host" turnFinalName coverageToken).map Prod.fst = some 1 ∧
        s.materializedJobCount 1 = 0 ∧
        s.stagedSpans 1 = [[⟨e.1, 0, 1⟩], [⟨e.2, 0, 1⟩]] := by decide +kernel
  obtain ⟨hok, hid, hfirst, hspans⟩ := hall (first, second) h
  obtain ⟨⟨s', receipt⟩, hcommit⟩ := exists_of_isOk hok
  obtain ⟨⟨planId, plan⟩, hplan, rfl⟩ := Option.map_eq_some_iff.mp hid
  exact ⟨s', receipt, plan, hcommit, hplan, hfirst, hspans⟩

/-- The question first, then the answer. -/
theorem planCommit_covers_inOrder : ∃ row,
    CoversExactly row [[⟨.userText, 0, 1⟩], [⟨.assistantFinalText, 0, 1⟩]] := by
  let s := (initial .empty).run (coverageCalls .userText .assistantFinalText)
  obtain ⟨s', receipt, plan, hcommit, hplan, hfirst, hspans⟩ :=
    coverageCalls_committed .userText .assistantFinalText (by simp)
  obtain ⟨row, -, -, -, hiff⟩ := (planCommit_covers_iff .empty
    (coverageCalls .userText .assistantFinalText) coverageCommit 0 1 plan hplan hfirst).1
      s' receipt hcommit
  have horder : FieldsInOrder (s.stagedSpans 1) := by
    rw [hspans]
    simp [FieldsInOrder, TurnField.rank]
  have hcovers := hiff.mpr horder
  rw [← hspans]
  exact ⟨row, hcovers⟩

/-- The answer first, then the question: the commit is accepted. -/
theorem planCommit_accepts_reordered :
    ¬∀ (calls : List Call) (req : PlanCommit) (now : Int) (s' : Store) (receipt : PlanReceipt)
      (planId : Nat) (plan : Plan),
      ((initial .empty).run calls).planByToken? req.hostId req.name req.planToken =
        some (planId, plan) →
      ((initial .empty).run calls).materializedJobCount planId = 0 →
      ((initial .empty).run calls).prepareConnectorPlanCommit req now = .ok (s', receipt) →
      ∃ row, ((initial .empty).run calls).currentPresentationRevision req.hostId plan.turnId
          plan.contentRevision = .ok row ∧
        CoversExactly row (((initial .empty).run calls).stagedSpans planId) := by
  intro hclaim
  let s := (initial .empty).run (coverageCalls .assistantFinalText .userText)
  obtain ⟨s', receipt, plan, hcommit, hplan, hfirst, hspans⟩ :=
    coverageCalls_committed .assistantFinalText .userText (by simp)
  obtain ⟨row, -, hcovers⟩ := hclaim (coverageCalls .assistantFinalText .userText) coverageCommit 0
    s' receipt 1 plan hplan hfirst hcommit
  have horder : FieldsInOrder (s.stagedSpans 1) := hcovers.order
  rw [hspans] at horder
  simp [FieldsInOrder, TurnField.rank] at horder

end Store

end Tendwire.Connector

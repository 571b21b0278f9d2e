import Tendwire.Pending.Frames

/-!
# The steps of one worker

Every call, seen from one worker, is one of a few steps: it leaves the worker alone, applies an
observation of it, removes it, or moves its claim.
-/

namespace Tendwire

open Transition PendingStore

variable {R : PendingRules} {s s' : PendingStore} {v w : String} {a : PendingAnswer}

/-- The route of a claim in a prompt, for both kinds of claims. -/
def claimRoute (R : PendingRules) (claim : PendingClaim) (row : PendingRow) : Option SendRoute :=
  match claim.choiceId with
  | .choice _ => choiceRoute claim row
  | .decision _ => decisionRoute R claim row

/-- The prompt of a worker is open and fresh and the one of a claim, whose route is in it. -/
structure OnPrompt (R : PendingRules) (s : PendingStore) (w : String) (claim : PendingClaim)
    (fields : SendFields) (row : PendingRow) : Prop where
  lookup : s.pending.lookup w = some row
  opened : row.observationState = .opened
  fresh : row.freshness = .fresh
  revision : row.revisionDigest = claim.revisionDigest
  binding : row.bindingPrivateFingerprint = claim.bindingPrivateFingerprint
  target : row.observedTurnTargetValue = claim.turnTargetValue
  route : claimRoute R claim row = some fields.route
  fields_eq : fields = PendingClaim.fields claim w fields.route

/-- The row that answering a prompt leaves. -/
def PendingRow.tombstone (row : PendingRow) (now : Int) : PendingRow :=
  { row with
    payload := .empty
    observedAt := now
    revisionDigest := ""
    choiceRoutes := []
    observationState := .none
    freshness := .fresh
    lastSuccessAt := some now
    lastFailureAt := none
    graceDeadline := none
    updatedAt := now }

/-- The private fields that an answer gives to its caller for the first time. -/
def PendingAnswer.grants : PendingAnswer → Option SendFields
  | .claimed _ fields => some fields
  | .started fields => some fields
  | _ => none

inductive WorkerStep (R : PendingRules) (s : PendingStore) (c : PendingCall) (w : String)
    (s' : PendingStore) (a : PendingAnswer) : Prop where
  | other (h : SameWorker w s s') (hgrants : ∀ fields, a.grants = some fields → fields.workerId ≠ w)
  | observed (o : PendingObservation) (x : ObservationSource) (changed : Bool)
      (hc : c = .observe w o x) (ha : a = .done changed) (hadmits : s.Admits w o x)
      (happlied : Applied R s w x o (s', changed))
  | pruned (live : List String) (now : Int) (row : PendingRow) (hc : c = .prune live false now)
      (hlookup : s.pending.lookup w = some row)
      (hlive : row.bindingPrivateFingerprint ∉ live.filter (· != "")) (hle : row.observedAt ≤ now)
      (hrow : s'.pending.lookup w = none) (hclaim : s'.claims.lookup w = none)
      (ha : ∃ n, a = .pruned n)
  | claimed (fields : SendFields) (claim : PendingClaim) (row : PendingRow)
      (ha : a = .claimed claim.claimToken fields) (hon : OnPrompt R s w claim fields row)
      (hstate : claim.state = .claimed)
      (hold : ∀ e, s.claims.lookup w = some e → e.state = .claimed)
      (hunique : ∀ v e, v ≠ w → s.claims.lookup v = some e → e.claimToken ≠ claim.claimToken)
      (hrow : s'.pending.lookup w = s.pending.lookup w) (hclaim : s'.claims.lookup w = some claim)
  | started (fields : SendFields) (claim : PendingClaim) (row : PendingRow) (now : Int)
      (ha : a = .started fields) (hlookup : s.claims.lookup w = some claim)
      (hstate : claim.state = .claimed) (hon : OnPrompt R s w claim fields row)
      (hrow : s'.pending.lookup w = s.pending.lookup w)
      (hclaim : s'.claims.lookup w =
        some { claim with state := .sendStarted, sendStartedAt := some now })
  | dropped (claim : PendingClaim) (hlookup : s.claims.lookup w = some claim)
      (hstate : claim.state = .claimed) (hrow : s'.pending.lookup w = s.pending.lookup w)
      (hclaim : s'.claims.lookup w = none) (ha : a.grants = none)
  | finished (token : String) (now : Int) (claim : PendingClaim)
      (hc : c = .finish token true now ∨ c = .finishCommand token true now)
      (hlookup : s.claims.lookup w = some claim) (hof : s.claimOf token = some (w, claim))
      (hstate : claim.state = .sendStarted)
      (hrow : s'.pending.lookup w = (s.pending.lookup w).map fun row =>
        if answers claim row then row.tombstone now else row)
      (hclaim : s'.claims.lookup w = none)
      (ha : a = .done ((s.pending.lookup w).any (answers claim)))

lemma WorkerStep.same {c : PendingCall} (ha : a.grants = none) : WorkerStep R s c w s a :=
  .other (.refl s) fun _ h => absurd (ha.symm.trans h) nofun

/-! ### Claims -/

lemma claimContext_spec {env : PendingEnvironment} {binding target : String} {now : Int}
    {context : ClaimContext} (h : env.claimContext w binding target now = some context) :
    context.privateFingerprint = binding ∧ context.turnTargetValue = target := by
  unfold PendingEnvironment.claimContext at h
  split at h
  · cases h
  · obtain ⟨worker, -, h⟩ := Option.bind_eq_some_iff.mp h
    obtain ⟨b, hb, rfl⟩ := Option.map_eq_some_iff.mp h
    have hfound := List.find?_some hb
    simp only [Bool.and_eq_true, beq_iff_eq] at hfound
    exact ⟨hfound.1.1.1.2, hfound.1.1.2⟩

/-- A claim that is taken is the claim of its worker, and every other call of it leaves the store
as it is. -/
lemma workerStep_takeClaim {c : PendingCall} {terms : ClaimTerms} {claim : PendingClaim}
    {fields : SendFields} {row : PendingRow} (htoken : claim.claimToken = terms.token)
    (hstate : claim.state = .claimed) (hon : OnPrompt R s v claim fields row) :
    WorkerStep R s c w (s.takeClaim v terms claim fields).1 (s.takeClaim v terms claim fields).2 := by
  unfold takeClaim
  dsimp only
  split
  · exact .same rfl
  · split
    · exact .same rfl
    · next hblocked =>
      split
      · exact .same rfl
      · split
        · exact .same rfl
        · next hfree =>
          by_cases hvw : v = w
          · subst hvw
            refine .claimed fields claim row (by rw [htoken]) hon hstate (fun e he => ?_)
              (fun u e hu he heq => hfree ?_) ?_ ?_
            · rw [he] at hblocked
              simp only [Option.any_some, Bool.not_eq_true', Bool.and_eq_false_iff, not_or,
                Bool.not_eq_false, beq_iff_eq] at hblocked
              exact hblocked.1
            · rw [← claims_dropClaim_of_ne hu (p := fun _ => true)] at he
              unfold claimOf
              rw [Option.isSome_map, List.find?_isSome]
              exact ⟨⟨u, e⟩, AList.mem_lookup_iff.mp he, by simp [heq, htoken]⟩
            · simp
            · exact AList.lookup_insert _
          · refine .other ⟨by simp, ?_⟩ fun fields' h => ?_
            swap
            · obtain rfl := Option.some.inj h
              rw [hon.fields_eq]
              exact hvw
            exact (AList.lookup_insert_ne (Ne.symm hvw)).trans (claims_dropClaim_of_ne (Ne.symm hvw))

lemma workerStep_claimChoice {c : PendingCall} {pendingId pendingFingerprint choiceId : String}
    {terms : ClaimTerms} :
    WorkerStep R s c w (s.claimChoice R pendingId pendingFingerprint choiceId terms).1
      (s.claimChoice R pendingId pendingFingerprint choiceId terms).2 := by
  unfold claimChoice
  dsimp only
  split
  · exact .same rfl
  · next v row interaction context hmatched =>
    obtain ⟨e, he, hbind⟩ := List.exists_of_findSome?_eq_some hmatched
    obtain ⟨hmem, hopened⟩ := List.mem_filter.mp ((List.mem_insertionSort _).mp he)
    obtain ⟨context', hcontext, hmap⟩ := Option.bind_eq_some_iff.mp hbind
    obtain ⟨interaction', -, heq⟩ := Option.map_eq_some_iff.mp hmap
    obtain ⟨rfl, rfl, rfl, rfl⟩ : e.1 = v ∧ e.2 = row ∧ interaction' = interaction ∧
        context' = context := by
      simpa using heq
    obtain ⟨hbinding, htarget⟩ := claimContext_spec hcontext
    split
    · exact .same rfl
    · next hfresh =>
      split
      · exact .same rfl
      · split
        · exact .same rfl
        · next ordinal hordinal =>
          have hroute := (Option.filter_eq_some_iff.mp hordinal).1
          refine @workerStep_takeClaim _ _ _ _ _ _ _ _ e.2 rfl rfl ⟨AList.mem_lookup_iff.mpr hmem,
            eq_of_beq hopened, not_not.mp hfresh, rfl, hbinding.symm, htarget.symm, ?_, rfl⟩
          simp [claimRoute, choiceRoute, hroute]

lemma workerStep_claimDecision {c : PendingCall} {workerId decisionRef : String}
    {selection : DecisionSelection} {terms : ClaimTerms} :
    WorkerStep R s c w (s.claimDecision R workerId decisionRef selection terms).1
      (s.claimDecision R workerId decisionRef selection terms).2 := by
  unfold claimDecision
  split
  · exact .same rfl
  · split
    · exact .same rfl
    · next row hrow =>
      split
      · exact .same rfl
      · split
        · exact .same rfl
        · next hready =>
          rw [not_or, not_not, not_not] at hready
          split
          · next context decision hcontext hdecision =>
            obtain ⟨hbinding, htarget⟩ := claimContext_spec hcontext
            split
            · exact .same rfl
            · next href =>
              split
              · exact .same rfl
              · split
                · exact .same rfl
                · next refs text hselected =>
                  refine @workerStep_takeClaim _ _ _ _ _ _ _ _ row rfl rfl ⟨hrow, hready.1, hready.2, rfl,
                    hbinding.symm, htarget.symm, ?_, rfl⟩
                  simp [claimRoute, decisionRoute, hdecision, hselected, not_not.mp href]
          · exact .same rfl

/-! ### Starts -/

lemma checkPrompt_spec {claim : PendingClaim} {route : PendingRow → Option SendRoute}
    {r : SendRoute} (h : s.checkPrompt v claim route = .matches r) :
    ∃ row, s.pending.lookup v = some row ∧ row.observationState = .opened ∧
      row.freshness = .fresh ∧ row.revisionDigest = claim.revisionDigest ∧
      row.bindingPrivateFingerprint = claim.bindingPrivateFingerprint ∧
      row.observedTurnTargetValue = claim.turnTargetValue ∧ route row = some r := by
  unfold checkPrompt at h
  split at h
  · cases h
  · next row hrow =>
    obtain ⟨hlookup, hopened⟩ := Option.filter_eq_some_iff.mp hrow
    split at h
    · cases h
    · next hfresh =>
      split at h
      · cases h
      · next hsame =>
        rw [not_or, not_or, not_not, not_not, not_not] at hsame
        refine ⟨row, hlookup, eq_of_beq hopened, not_not.mp hfresh, hsame.1, hsame.2.1, hsame.2.2, ?_⟩
        cases hroute : route row with
        | none =>
          rw [hroute] at h
          cases h
        | some r' =>
          rw [hroute] at h
          cases h
          rfl

lemma workerStep_beginSend {c : PendingCall} {env : PendingEnvironment} {claim : PendingClaim}
    {route : SendRoute} {now : Int} {row : PendingRow} (hlookup : s.claims.lookup v = some claim)
    (hstate : claim.state = .claimed)
    (hon : OnPrompt R s v claim (PendingClaim.fields claim v route) row) :
    WorkerStep R s c w (s.beginSend env v claim route now).1 (s.beginSend env v claim route now).2 := by
  unfold beginSend
  split
  · by_cases hvw : v = w
    · subst hvw
      exact .started _ claim row now rfl hlookup hstate hon rfl (AList.lookup_insert _)
    · refine .other ⟨rfl, AList.lookup_insert_ne (Ne.symm hvw)⟩ fun fields h => ?_
      cases h
      exact hvw
  · exact .same rfl

lemma workerStep_dropClaim {c : PendingCall} {claim : PendingClaim} (hlookup : s.claims.lookup v = some claim)
    (hstate : claim.state = .claimed) (ha : a.grants = none) :
    WorkerStep R s c w (s.dropClaim v fun _ => true) a := by
  by_cases hvw : v = w
  · subst hvw
    refine .dropped claim hlookup hstate (by simp) ?_ ha
    rw [claims_dropClaim_self, hlookup]
    rfl
  · exact .other (sameWorker_dropClaim hvw) fun fields h => absurd (ha.symm.trans h) nofun

lemma not_started_iff {claim : PendingClaim} : ¬claim.state = .sendStarted ↔ claim.state = .claimed := by
  cases claim.state <;> simp

lemma claimRoute_of_choiceRoute {claim : PendingClaim} {row : PendingRow} {route : SendRoute}
    (h : choiceRoute claim row = some route) : claimRoute R claim row = some route := by
  unfold claimRoute
  unfold choiceRoute at h ⊢
  cases hchoice : claim.choiceId with
  | choice choiceId =>
    rw [hchoice] at h
    exact h
  | decision selection =>
    rw [hchoice] at h
    cases h

lemma claimRoute_of_decisionRoute {claim : PendingClaim} {row : PendingRow} {route : SendRoute}
    (h : decisionRoute R claim row = some route) : claimRoute R claim row = some route := by
  unfold claimRoute
  cases hchoice : claim.choiceId with
  | choice choiceId =>
    unfold decisionRoute at h
    rw [hchoice] at h
    cases h
  | decision selection => exact h

lemma workerStep_startChoice {c : PendingCall} {env : PendingEnvironment} {token : String}
    {now lease : Int} : WorkerStep R s c w (s.startChoice env token now lease).1
      (s.startChoice env token now lease).2 := by
  unfold startChoice
  split
  · exact .same rfl
  · next v claim hclaim =>
    obtain ⟨hlookup, -⟩ := claimOf_spec hclaim
    split
    · exact .same rfl
    · split
      · next hexpired => exact workerStep_dropClaim hlookup hexpired.1 rfl
      · split
        · exact .same rfl
        · next hstate =>
          split
          · exact .same rfl
          · next route hcheck =>
            obtain ⟨row, hrow, hopened, hfresh, hrevision, hbinding, htarget, hroute⟩ :=
              checkPrompt_spec hcheck
            exact workerStep_beginSend hlookup (not_started_iff.mp hstate) ⟨hrow, hopened, hfresh,
              hrevision, hbinding, htarget, claimRoute_of_choiceRoute hroute, rfl⟩

lemma workerStep_startDecision {c : PendingCall} {env : PendingEnvironment} {token : String}
    {now lease : Int} : WorkerStep R s c w (s.startDecision R env token now lease).1
      (s.startDecision R env token now lease).2 := by
  unfold startDecision
  split
  · exact .same rfl
  · next v claim hclaim =>
    obtain ⟨hlookup, -⟩ := claimOf_spec hclaim
    split
    · exact .same rfl
    · split
      · next hexpired => exact workerStep_dropClaim hlookup hexpired.1 rfl
      · split
        · exact .same rfl
        · next route hcheck =>
          obtain ⟨row, hrow, hopened, hfresh, hrevision, hbinding, htarget, hroute⟩ :=
            checkPrompt_spec hcheck
          split
          · exact .same rfl
          · next hstate =>
            exact workerStep_beginSend hlookup (not_started_iff.mp hstate) ⟨hrow, hopened, hfresh,
              hrevision, hbinding, htarget, claimRoute_of_decisionRoute hroute, rfl⟩

/-! ### The other calls -/

lemma workerStep_abandon {c : PendingCall} {token : String} :
    WorkerStep R s c w (s.abandon token).1 (s.abandon token).2 := by
  unfold abandon
  split
  · next v claim hclaim =>
    obtain ⟨hlookup, -⟩ := claimOf_spec hclaim
    split
    · next hstate => exact workerStep_dropClaim hlookup hstate rfl
    · exact .same rfl
  · exact .same rfl

lemma workerStep_finishSend {c : PendingCall} {token : String} {accepted : Bool} {now : Int}
    (hc : accepted = true → c = .finish token true now ∨ c = .finishCommand token true now) :
    WorkerStep R s c w (s.finishSend token accepted now).1
      (.done (s.finishSend token accepted now).2) := by
  unfold finishSend
  cases accepted with
  | false => exact .same rfl
  | true =>
    simp only [Bool.not_true, Bool.false_eq_true, if_false]
    split
    · exact .same rfl
    · next v claim hclaim =>
      obtain ⟨hclaimOf, hstate⟩ := Option.filter_eq_some_iff.mp hclaim
      obtain ⟨hlookup, -⟩ := claimOf_spec hclaimOf
      by_cases hvw : v = w
      · subst hvw
        have hdropped : ∀ t : PendingStore, t.claims = s.claims →
            (t.dropClaim v fun _ => true).claims.lookup v = none := by
          intro t ht
          rw [claims_dropClaim_self, ht, hlookup]
          rfl
        refine .finished token now claim (hc rfl) hlookup hclaimOf (eq_of_beq hstate) ?_ ?_ ?_
        · cases hrow : s.pending.lookup v with
          | none => simp [hrow]
          | some row =>
            by_cases hanswers : answers claim row = true
            · simp [Option.filter_some, hanswers, PendingRow.tombstone]
            · simp [Option.filter_some, hanswers, hrow]
        · split
          · exact hdropped _ rfl
          · exact hdropped _ rfl
        · cases hrow : s.pending.lookup v with
          | none => rfl
          | some row =>
            by_cases hanswers : answers claim row = true <;>
              simp [Option.filter_some, hanswers]
      · refine .other ?_ nofun
        split
        · exact (sameWorker_put hvw).trans (sameWorker_dropClaim hvw)
        · exact sameWorker_dropClaim hvw

/-- The absences of a prune leave a worker alone, or they remove it. -/
lemma prune_foldl {now : Int} {stale : List (Sigma fun _ : String => PendingRow)}
    (hstale : ∀ e ∈ stale, e.1 = w → s.pending.lookup w = some e.2) :
    let s' := stale.foldl (fun s e => ((s.applyObservation R e.1 .workerAuthoritativelyAbsent
      ⟨now, defaultStaleGrace, e.2.bindingPrivateFingerprint, e.2.observedTurnTargetValue,
        false⟩).map Prod.fst).getD s) s
    SameWorker w s s' ∨ ∃ row, ⟨w, row⟩ ∈ stale ∧ s.pending.lookup w = some row ∧
      row.observedAt ≤ now ∧ s'.pending.lookup w = none ∧ s'.claims.lookup w = none := by
  refine foldl_invariant (P := fun s' : PendingStore => SameWorker w s s' ∨
    ∃ row, ⟨w, row⟩ ∈ stale ∧ s.pending.lookup w = some row ∧ row.observedAt ≤ now ∧
      s'.pending.lookup w = none ∧ s'.claims.lookup w = none) (fun t e he ht => ?_) (.inl (.refl s))
  generalize hx : (⟨now, defaultStaleGrace, e.2.bindingPrivateFingerprint,
    e.2.observedTurnTargetValue, false⟩ : ObservationSource) = x
  cases happly : t.applyObservation R e.1 .workerAuthoritativelyAbsent x with
  | none => exact ht
  | some result =>
    have hgoal : ((some result).map Prod.fst).getD t = result.1 := rfl
    rw [hgoal]
    by_cases hew : e.1 = w
    · rcases ht with hsame | ⟨row, hmem, hrow, hle, hgone, hclaim⟩
      · rcases applyObservation_cases (happly) with ⟨-, rfl⟩ | ⟨hadmits, happlied⟩
        · exact .inl hsame
        · have hlookup := hstale e he hew
          subst hew
          rw [← hsame.row] at hlookup
          have hmatch : (t.pending.lookup e.1).any (fun r => x.bindingPrivateFingerprint == "" ||
              r.bindingPrivateFingerprint == x.bindingPrivateFingerprint) = true := by
            rw [hlookup, ← hx]
            simp
          have hle := hadmits.order e.2 hlookup
          rw [← hx] at hle
          refine .inr ⟨e.2, he, hsame.row ▸ hlookup, hle, ?_, ?_⟩
          · rw [show result = t.workerAbsent e.1 x from happlied]
            unfold workerAbsent
            rw [if_pos hmatch]
            simp
          · rw [show result = t.workerAbsent e.1 x from happlied]
            unfold workerAbsent
            rw [if_pos hmatch, claims_dropClaim_self]
            cases t.claims.lookup e.1 <;> rfl
      · rcases applyObservation_cases (happly) with ⟨-, rfl⟩ | ⟨hadmits, -⟩
        · exact .inr ⟨row, hmem, hrow, hle, hgone, hclaim⟩
        · have hsource := hadmits.source
          rw [if_pos rfl, hew] at hsource
          obtain ⟨row', hrow', -⟩ := hsource
          rw [hgone] at hrow'
          cases hrow'
    · have hsame := sameWorker_applyObservation hew (happly : _ = some (result.1, result.2))
      rcases ht with ht | ⟨row, hmem, hrow, hle, hgone, hclaim⟩
      · exact .inl (ht.trans hsame)
      · exact .inr ⟨row, hmem, hrow, hle, hsame.row.trans hgone, hsame.claim.trans hclaim⟩

lemma workerStep_prune {live : List String} {cancelled : Bool} {now : Int} :
    WorkerStep R s (.prune live cancelled now) w (s.prune R live cancelled now).1
      (s.prune R live cancelled now).2 := by
  unfold prune
  cases cancelled with
  | true => exact .same rfl
  | false =>
    simp only [Bool.false_eq_true, if_false]
    rcases @prune_foldl R s w now
      (s.pending.entries.filter fun e =>
        !(live.filter (· != "")).contains e.2.bindingPrivateFingerprint)
      (fun e he hew => by
        subst hew
        exact AList.mem_lookup_iff.mpr (List.mem_filter.mp he).1) with
      hsame | ⟨row, hmem, hrow, hle, hgone, hclaim⟩
    · exact .other hsame nofun
    · refine .pruned live now row rfl hrow (fun hlive => ?_) hle hgone hclaim ⟨_, rfl⟩
      have hstale := (List.mem_filter.mp hmem).2
      rw [Bool.not_eq_true', ← Bool.not_eq_true, List.contains_iff_mem] at hstale
      exact hstale hlive

/-- Every call is a step of every worker. -/
theorem workerStep (R : PendingRules) (s : PendingStore) (c : PendingCall) (w : String) :
    WorkerStep R s c w (pendingStep R s c).1 (pendingStep R s c).2 := by
  cases c with
  | observe v o x =>
    unfold pendingStep
    dsimp only
    split
    · next s' changed happly =>
      by_cases hvw : v = w
      · subst hvw
        rcases applyObservation_cases happly with ⟨-, heq⟩ | ⟨hadmits, happlied⟩
        · obtain ⟨rfl, rfl⟩ := Prod.mk.inj heq
          exact .same rfl
        · exact .observed o x changed rfl rfl hadmits happlied
      · exact .other (sameWorker_applyObservation hvw happly) nofun
    · exact .same rfl
  | claimChoice => exact workerStep_claimChoice
  | claimDecision => exact workerStep_claimDecision
  | startChoice => exact workerStep_startChoice
  | startDecision => exact workerStep_startDecision
  | abandon => exact workerStep_abandon
  | finish token accepted now =>
    refine workerStep_finishSend fun h => ?_
    subst h
    exact .inl rfl
  | finishCommand token accepted now =>
    unfold pendingStep
    dsimp only
    split
    · exact .same rfl
    · refine workerStep_finishSend fun h => ?_
      subst h
      exact .inr rfl
  | prune => exact workerStep_prune

end Tendwire

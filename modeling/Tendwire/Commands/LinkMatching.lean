import Tendwire.Commands.LedgerRuns

/-!
# Linking is a fail-closed matching

A row is linked only as the sole submission of a component with a sole turn. The graph is that
of the row's key in the store before the call: settling one key leaves the graph of every other
key as it was.
-/

namespace Tendwire

open Relational Graph Transition TurnSubmission

section Settling

variable {lib : LinkLibrary} {turns : Constrained observedTurnSchema} {key key' : LinkKey}
  {s s' : CommandStore} {now : Int} {t t' : TurnSubmission}

/-! ### The two sides of the graph -/

lemma mem_openSubmissions : t ∈ openSubmissions key s ↔
    ∃ n, s.submissions.get? n = some t ∧ t.linkKey = key ∧ t.isOpen = true := by
  unfold openSubmissions
  rw [List.mem_insertionSort, List.mem_map]
  constructor
  · rintro ⟨⟨n, t⟩, hmem, rfl⟩
    obtain ⟨hget, hp⟩ := Table.mem_select.mp hmem
    simp only [Bool.and_eq_true, beq_iff_eq] at hp
    exact ⟨n, hget, hp⟩
  · rintro ⟨n, hget, hkey, hopen⟩
    exact ⟨(n, t), Table.mem_select.mpr ⟨hget, by simp [hkey, hopen]⟩, rfl⟩

lemma mem_candidates {c : CandidateTurn} : c ∈ submissionLinkCandidateTurns lib turns key s ↔
    ∃ m turn, turns.get? m = some turn ∧ linkCandidate lib key s turn = some c := by
  unfold submissionLinkCandidateTurns
  rw [List.mem_insertionSort, List.mem_filterMap]
  constructor
  · rintro ⟨⟨m, turn⟩, hmem, hc⟩
    exact ⟨m, turn, Table.get?_eq_some_iff.mpr hmem, hc⟩
  · rintro ⟨m, turn, hget, hc⟩
    exact ⟨(m, turn), Table.get?_eq_some_iff.mp hget, hc⟩

/-- What the columns of an observed turn say when it is a candidate of a key. -/
structure CandidateOf (lib : LinkLibrary) (key : LinkKey) (turn : ObservedTurn)
    (c : CandidateTurn) : Prop where
  turnId : c.turnId = turn.turnId
  version : c.ownerVersion = 1
  owner : turnLinkCandidateOwnerIdentity turn = some (key.ownerKey, 1)
  instruction : ∃ text, turn.currentUserText = some (some text) ∧
    lib.instructionFingerprint text = key.instructionFingerprint
  observedAt : turn.firstObservedAt = some c.observedAt

lemma candidateOf_spec {turn : ObservedTurn} {c : CandidateTurn}
    (h : candidateOf lib key turn = some c) : CandidateOf lib key turn c := by
  unfold candidateOf at h
  split at h
  · rename_i owner version text observedAt howner htext hat
    split at h
    · rename_i hcond
      obtain ⟨-, rfl, rfl, hfingerprint⟩ := hcond
      cases h
      exact ⟨rfl, rfl, howner, ⟨text, htext, hfingerprint⟩, hat⟩
    · cases h
  · cases h

lemma linkCandidate_spec {turn : ObservedTurn} {c : CandidateTurn}
    (h : linkCandidate lib key s turn = some c) :
    turn.hostId = key.hostId ∧ CandidateOf lib key turn c ∧
      ∀ n t, s.submissions.get? n = some t → t.hostId = turn.hostId →
        t.linkedTurnId ≠ some turn.turnId := by
  unfold linkCandidate at h
  split at h
  · rename_i hcond
    simp only [Bool.and_eq_true, beq_iff_eq, Bool.not_eq_true', Table.any_eq_false_iff] at hcond
    refine ⟨hcond.1.1.1.1.1, candidateOf_spec h, fun n t ht hhost hlinked => ?_⟩
    have hfree := hcond.2 n t ht
    simp [hhost, hlinked] at hfree
  · cases h

/-! ### What a decision does to the rows -/

lemma not_isOpen_of_linkSettled (h : LinkSettled t) : t.isOpen = false := by
  rcases h with h | h | h <;> simp [TurnSubmission.isOpen, h]

/-- A row that is open after the linker's moves has not been touched by them. -/
lemma LinkMoves.open_row (h : LinkMoves s s') {n : Nat} (ht : s'.submissions.get? n = some t)
    (hopen : t.isOpen = true) : s.submissions.get? n = some t := by
  obtain ⟨t₀, ht₀, hadv⟩ := h.moves n t ht
  cases hadv with
  | keep same => exact same ▸ ht₀
  | move _ _ target => simp [not_isOpen_of_linkSettled target] at hopen

/-- The rows that a guarded update selects are the members it names, as they were at first. -/
lemma updateOpen_selected {s₀ : CommandStore} (h : LinkMoves s₀ s) {members : List TurnSubmission}
    (hmembers : ∀ m ∈ members, m ∈ openSubmissions key s₀) {n : Nat}
    (ht : s.submissions.get? n = some t)
    (hp : (t.hostId == key.hostId && (members.map TurnSubmission.submissionId).contains
      t.submissionId && t.isOpen) = true) : s₀.submissions.get? n = some t ∧ t ∈ members := by
  simp only [Bool.and_eq_true, beq_iff_eq, List.contains_iff_mem, List.mem_map] at hp
  obtain ⟨⟨hhost, m, hm, hid⟩, hopen⟩ := hp
  have hrow := h.open_row ht hopen
  obtain ⟨k, hk, hkey, -⟩ := mem_openSubmissions.mp (hmembers m hm)
  have hnk : n = k := s₀.submissions.eq_of_key (k := fun r => some (r.hostId, r.submissionId))
    (by simp [submissionSchema]) hrow hk rfl (by simp [hhost, hid, ← hkey, TurnSubmission.linkKey])
  subst hnk
  rw [hrow] at hk
  cases hk
  exact ⟨hrow, hm⟩

variable {g : Bipartite TurnSubmission CandidateTurn}

lemma linkDecision_link {only : TurnSubmission} {turn : CandidateTurn} {boundary : Option Int}
    (ht : t ∈ g.left) (h : linkDecision g now t = .link only turn boundary) :
    only = t ∧ g.component t = ([t], [turn]) := by
  have hself := (Bipartite.component_frontier ht).2
  unfold linkDecision at h
  split at h
  · split at h <;> cases h
  · dsimp only at h
    split at h
    · rename_i only' turn' hcomponent
      rw [hcomponent] at hself
      have hsame : t = only' := List.mem_singleton.mp hself
      subst hsame
      split at h
      · split at h <;> cases h
        exact ⟨rfl, hcomponent⟩
      · cases h
        exact ⟨rfl, hcomponent⟩
    · split at h <;> cases h

lemma linkDecision_members (ht : t ∈ g.left) {members : List TurnSubmission}
    (h : linkDecision g now t = .ambiguous members) : ∀ m ∈ members, m ∈ g.left := by
  unfold linkDecision at h
  split at h
  · split at h <;> cases h
  · dsimp only at h
    split at h
    · split at h
      · split at h <;> cases h
      · cases h
    · rename_i members' turns' _ hcomponent
      split at h
      · cases h
      · cases h
        intro m hm
        have hwithin := Bipartite.component_within ht
        rw [hcomponent] at hwithin
        exact (hwithin.lefts m hm).1

lemma linkDecision_expire {only : TurnSubmission}
    (h : linkDecision g now t = .expire only) : only = t := by
  unfold linkDecision at h
  split at h
  · split at h <;> cases h
    rfl
  · dsimp only at h
    split at h
    · split at h
      · split at h <;> cases h
      · cases h
    · split at h <;> cases h

/-- How a row became linked: it was alone with one turn in its component. -/
def LinkedAlone (g : Bipartite TurnSubmission CandidateTurn) (t t' : TurnSubmission) : Prop :=
  t ∈ g.left ∧ SameRequest t t' ∧
    ∃ c, g.component t = ([t], [c]) ∧ t'.linkedTurnId = some c.turnId

/-- What the settlement of a key has done so far. -/
structure SettledSoFar (g : Bipartite TurnSubmission CandidateTurn) (s s' : CommandStore) :
    Prop where
  moves : LinkMoves s s'
  linked : ∀ n t', s'.submissions.get? n = some t' → t'.state = .linked →
    s.submissions.get? n = some t' ∨ ∃ t, s.submissions.get? n = some t ∧ LinkedAlone g t t'

lemma SettledSoFar.refl (s : CommandStore) : SettledSoFar g s s :=
  ⟨.refl s, fun _ _ ht _ => Or.inl ht⟩

/-- An update that does not link adds no linked row. -/
lemma SettledSoFar.terminalize (h : SettledSoFar g s s') {s'' : CommandStore} {count : Nat}
    {members : List TurnSubmission} {state : SubmissionState} (hstate : state ≠ .linked)
    (hupd : updateOpen key s' members (TurnSubmission.terminalized state now) = .ok (s'', count))
    (hmoves : LinkMoves s' s'') : SettledSoFar g s s'' := by
  refine ⟨h.moves.trans hmoves, fun n t' ht' hlinked => ?_⟩
  rw [updateSubmissions_get? hupd] at ht'
  obtain ⟨t, ht, rfl⟩ := Option.map_eq_some_iff.mp ht'
  split at hlinked
  · exact absurd hlinked hstate
  · rename_i hp
    rw [if_neg hp]
    exact h.linked n t ht hlinked

lemma settleDecision_settled (hg : g = linkGraph lib turns key s) {acc acc' : Settlement}
    (ht : t ∈ g.left) (h : SettledSoFar g s acc.store)
    (hstep : settleDecision key now acc (linkDecision g now t) = .ok acc') :
    SettledSoFar g s acc'.store := by
  have hleft : ∀ m ∈ g.left, m ∈ openSubmissions key s := by
    intro m hm
    rw [hg] at hm
    exact hm
  have hmoves := settleDecision_moves hstep
  cases hdecision : linkDecision g now t with
  | wait boundary =>
    rw [hdecision] at hstep
    cases hstep
    exact h
  | expire only =>
    rw [hdecision] at hstep
    simp only [settleDecision] at hstep
    split at hstep
    · cases hstep
    · rename_i hupd
      cases hstep
      exact h.terminalize (by simp) hupd hmoves
  | link only turn boundary =>
    obtain ⟨rfl, hcomponent⟩ := linkDecision_link ht hdecision
    rw [hdecision] at hstep
    simp only [settleDecision] at hstep
    split at hstep
    · cases hstep
    · rename_i hupd
      cases hstep
      refine ⟨h.moves.trans hmoves, fun n t' ht' hlinked => ?_⟩
      rw [updateSubmissions_get? hupd] at ht'
      obtain ⟨t₁, ht₁, rfl⟩ := Option.map_eq_some_iff.mp ht'
      split
      · rename_i hp
        obtain ⟨hrow, hmem⟩ := updateOpen_selected h.moves
          (fun m hm => by rw [List.mem_singleton.mp hm]; exact hleft only ht) ht₁ hp
        rw [List.mem_singleton.mp hmem] at hrow ⊢
        exact Or.inr ⟨only, hrow, ht, ⟨rfl, rfl, rfl, rfl⟩, turn, hcomponent, rfl⟩
      · rename_i hp
        rw [if_neg hp] at hlinked
        exact h.linked n t₁ ht₁ hlinked
  | ambiguous members =>
    rw [hdecision] at hstep
    simp only [settleDecision] at hstep
    split at hstep
    · cases hstep
    · rename_i hupd
      cases hstep
      exact h.terminalize (by simp) hupd hmoves

theorem settleSubmissionLinks_settled {changed : Nat} {next : Option Int}
    (h : settleSubmissionLinks lib turns key s now = .ok (s', changed, next)) :
    SettledSoFar (linkGraph lib turns key s) s s' := by
  unfold settleSubmissionLinks at h
  dsimp only at h
  split at h
  · cases h
  · rename_i acc hfold
    cases h
    refine foldlM_invariant (P := fun acc : Settlement =>
      SettledSoFar (linkGraph lib turns key s) s acc.store) ?_ (.refl s) hfold
    intro acc t acc' ht hacc hstep
    unfold settleSubmission at hstep
    split at hstep
    · cases hstep
      exact hacc
    · refine settleDecision_settled rfl ht ?_ hstep
      split <;> exact hacc

/-! ### The graphs of the other keys -/

/-- An observed turn is a candidate of one key only. -/
lemma candidate_key_unique {turn : ObservedTurn} {c c' : CandidateTurn}
    (h : CandidateOf lib key turn c) (hhost : turn.hostId = key.hostId)
    (h' : CandidateOf lib key' turn c') (hhost' : turn.hostId = key'.hostId) : key = key' := by
  obtain ⟨host, owner, fingerprint⟩ := key
  obtain ⟨host', owner', fingerprint'⟩ := key'
  obtain ⟨text, htext, hf⟩ := h.instruction
  obtain ⟨text', htext', hf'⟩ := h'.instruction
  have howner := h.owner.symm.trans h'.owner
  have hsame := htext.symm.trans htext'
  simp only [Option.some.injEq, Prod.mk.injEq, and_true] at howner hsame
  subst hsame
  exact congr (congr (congrArg LinkKey.mk (hhost.symm.trans hhost')) howner) (hf.symm.trans hf')

/-- A row that is selected keeps its key, and links to a candidate turn if it links at all. -/
structure LinksWithin (turns : List CandidateTurn) (f : TurnSubmission → TurnSubmission) :
    Prop where
  linkKey : ∀ t, (f t).linkKey = t.linkKey
  linked : ∀ t, (f t).linkedTurnId = t.linkedTurnId ∨
    ∃ c ∈ turns, (f t).linkedTurnId = some c.turnId

lemma linkGraph_updateOpen {s₀ : CommandStore} {members : List TurnSubmission}
    {f : TurnSubmission → TurnSubmission} {count : Nat} (hs : LinkMoves s₀ s)
    (hmembers : ∀ m ∈ members, m ∈ openSubmissions key s₀)
    (hf : LinksWithin (submissionLinkCandidateTurns lib turns key s₀) f)
    (hupd : updateOpen key s members f = .ok (s', count)) (hne : key' ≠ key) :
    linkGraph lib turns key' s' = linkGraph lib turns key' s := by
  have hkey : ∀ n t, s.submissions.get? n = some t → (t.hostId == key.hostId &&
      (members.map TurnSubmission.submissionId).contains t.submissionId && t.isOpen) = true →
      t.linkKey = key := by
    intro n t ht hp
    obtain ⟨-, hmem⟩ := updateOpen_selected hs hmembers ht hp
    obtain ⟨-, -, hkey, -⟩ := mem_openSubmissions.mp (hmembers t hmem)
    exact hkey
  have hleft : openSubmissions key' s' = openSubmissions key' s := by
    unfold openSubmissions
    rw [(updateSubmissions_spec hupd).1, Table.select_updateWhere]
    intro n t ht hp
    have hother : t.linkKey ≠ key' := by
      rw [hkey n t ht hp]
      exact hne.symm
    simp [hf.linkKey, hother]
  have hright : submissionLinkCandidateTurns lib turns key' s' =
      submissionLinkCandidateTurns lib turns key' s := by
    unfold submissionLinkCandidateTurns
    congr 1
    refine List.filterMap_congr fun e he => ?_
    have hturn : turns.get? e.1 = some e.2 := Table.get?_eq_some_iff.mpr he
    by_cases hcandidate : e.2.hostId = key'.hostId ∧ ∃ c, candidateOf lib key' e.2 = some c
    · obtain ⟨hhost, c, hc⟩ := hcandidate
      have hany : s'.submissions.table.any (fun _ linked => linked.hostId == e.2.hostId &&
            linked.linkedTurnId == some e.2.turnId) =
          s.submissions.table.any (fun _ linked => linked.hostId == e.2.hostId &&
            linked.linkedTurnId == some e.2.turnId) := by
        rw [Bool.eq_iff_iff, Table.any_iff, Table.any_iff]
        simp only [Bool.and_eq_true, beq_iff_eq]
        constructor
        · rintro ⟨n, t', ht', hth, htl⟩
          have hget := updateSubmissions_get? hupd n
          rw [Constrained.get?, ht'] at hget
          obtain ⟨t, ht, hft⟩ := Option.map_eq_some_iff.mp hget.symm
          split at hft
          · rename_i hp
            subst hft
            have hthost : (f t).hostId = t.hostId := congrArg LinkKey.hostId (hf.linkKey t)
            rcases hf.linked t with hsame | ⟨c', hc', hlink⟩
            · exact ⟨n, t, ht, hthost.symm.trans hth, hsame.symm.trans htl⟩
            · exfalso
              obtain ⟨m, turn, hm, hlc⟩ := mem_candidates.mp hc'
              obtain ⟨hturnHost, hspec, -⟩ := linkCandidate_spec hlc
              have htkey := congrArg LinkKey.hostId (hkey n t ht hp)
              have hkeyHost : e.2.hostId = key.hostId :=
                hth.symm.trans (hthost.trans htkey)
              have hid : turn.turnId = e.2.turnId := by
                rw [← hspec.turnId]
                exact Option.some.inj (hlink.symm.trans htl)
              have hsame : m = e.1 := turns.eq_of_key (List.mem_singleton_self _) hm hturn rfl
                (by simp [hid, hturnHost, hkeyHost])
              subst hsame
              rw [hm] at hturn
              cases hturn
              exact hne (candidate_key_unique (candidateOf_spec hc) hhost hspec hkeyHost)
          · subst hft
            exact ⟨n, t, ht, hth, htl⟩
        · rintro ⟨n, t, ht, hth, htl⟩
          refine ⟨n, t, ?_, hth, htl⟩
          have hget := updateSubmissions_get? hupd n
          have hclosed : t.isOpen = false := by simp [TurnSubmission.isOpen, htl]
          rw [Constrained.get?, Constrained.get?, ht] at hget
          simpa [hclosed] using hget
      unfold linkCandidate
      rw [hany]
    · unfold linkCandidate
      rw [not_and_or, not_exists] at hcandidate
      rcases hcandidate with hhost | hnone
      · simp [hhost]
      · have hc : candidateOf lib key' e.2 = none :=
          Option.eq_none_iff_forall_ne_some.mpr hnone
        simp [hc]
  unfold linkGraph
  rw [hleft, hright]

lemma linksWithin_terminalized (candidates : List CandidateTurn) (state : SubmissionState) :
    LinksWithin candidates (TurnSubmission.terminalized state now) :=
  ⟨fun _ => rfl, fun _ => Or.inl rfl⟩

/-- Settling one key leaves the graph of every other key as it was. -/
theorem linkGraph_settle_other {changed : Nat} {next : Option Int}
    (h : settleSubmissionLinks lib turns key s now = .ok (s', changed, next)) (hne : key' ≠ key) :
    linkGraph lib turns key' s' = linkGraph lib turns key' s := by
  unfold settleSubmissionLinks at h
  dsimp only at h
  split at h
  · cases h
  · rename_i acc hfold
    cases h
    have hinv := foldlM_invariant (P := fun acc : Settlement => LinkMoves s acc.store ∧
      linkGraph lib turns key' acc.store = linkGraph lib turns key' s) ?_ ⟨.refl s, rfl⟩ hfold
    · exact hinv.2
    intro acc t acc' ht hacc hstep
    unfold settleSubmission at hstep
    split at hstep
    · cases hstep
      exact hacc
    have hsingle : ∀ m ∈ [t], m ∈ openSubmissions key s := by
      intro m hm
      rw [List.mem_singleton.mp hm]
      exact ht
    have hsame : ∀ acc₁ : Settlement, acc₁.store = acc.store →
        settleDecision key now acc₁ (linkDecision (linkGraph lib turns key s) now t) = .ok acc' →
        LinkMoves s acc'.store ∧
          linkGraph lib turns key' acc'.store = linkGraph lib turns key' s := by
      intro acc₁ hstore hdecide
      have hmoves : LinkMoves s acc'.store :=
        hacc.1.trans (hstore ▸ settleDecision_moves hdecide)
      refine ⟨hmoves, ?_⟩
      rw [← hacc.2]
      cases hdecision : linkDecision (linkGraph lib turns key s) now t with
      | wait boundary =>
        rw [hdecision] at hdecide
        cases hdecide
        rw [← hstore]
      | expire only =>
        obtain rfl := linkDecision_expire hdecision
        rw [hdecision] at hdecide
        simp only [settleDecision] at hdecide
        split at hdecide
        · cases hdecide
        · rename_i hupd
          cases hdecide
          rw [hstore] at hupd
          exact linkGraph_updateOpen hacc.1 hsingle (linksWithin_terminalized _ _)
            hupd hne
      | link only turn boundary =>
        obtain ⟨rfl, hcomponent⟩ := linkDecision_link ht hdecision
        rw [hdecision] at hdecide
        simp only [settleDecision] at hdecide
        split at hdecide
        · cases hdecide
        · rename_i hupd
          cases hdecide
          rw [hstore] at hupd
          have hturn := (Bipartite.component_within ht).rights turn (by simp [hcomponent])
          have hwithin : LinksWithin (submissionLinkCandidateTurns lib turns key s)
              (TurnSubmission.linkedTo turn.turnId now) :=
            ⟨fun _ => rfl, fun _ => Or.inr ⟨turn, hturn.1, rfl⟩⟩
          exact linkGraph_updateOpen hacc.1 hsingle hwithin hupd hne
      | ambiguous members =>
        have hmembers := linkDecision_members ht hdecision
        rw [hdecision] at hdecide
        simp only [settleDecision] at hdecide
        split at hdecide
        · cases hdecide
        · rename_i hupd
          cases hdecide
          rw [hstore] at hupd
          exact linkGraph_updateOpen hacc.1 hmembers (linksWithin_terminalized _ _) hupd hne
    exact hsame _ (by split <;> rfl) hstep

/-! ### A whole call -/

/-- Every linked row of `s'` was linked in `s` or was linked alone, by the graph of its key. -/
structure MatchedSoFar (lib : LinkLibrary) (turns : Constrained observedTurnSchema)
    (s s' : CommandStore) : Prop where
  moves : LinkMoves s s'
  linked : ∀ n t', s'.submissions.get? n = some t' → t'.state = .linked →
    s.submissions.get? n = some t' ∨ ∃ t, s.submissions.get? n = some t ∧
      LinkedAlone (linkGraph lib turns t.linkKey s) t t'

lemma MatchedSoFar.refl (s : CommandStore) : MatchedSoFar lib turns s s :=
  ⟨.refl s, fun _ _ ht _ => Or.inl ht⟩

/-- Settling a key whose graph is still the first one. -/
lemma MatchedSoFar.settle {s'' : CommandStore} (h : MatchedSoFar lib turns s s')
    (hsettled : SettledSoFar (linkGraph lib turns key s') s' s'')
    (hgraph : linkGraph lib turns key s' = linkGraph lib turns key s) :
    MatchedSoFar lib turns s s'' := by
  refine ⟨h.moves.trans hsettled.moves, fun n t' ht' hlinked => ?_⟩
  rcases hsettled.linked n t' ht' hlinked with hold | ⟨t, ht, halone⟩
  · exact h.linked n t' hold hlinked
  · obtain ⟨hleft, hrequest, hcomponent⟩ := halone
    have hmem : t ∈ openSubmissions key s' := hleft
    obtain ⟨-, -, hkey, hopen⟩ := mem_openSubmissions.mp hmem
    rw [hgraph, ← hkey] at hleft hcomponent
    exact Or.inr ⟨t, h.moves.open_row ht hopen, hleft, hrequest, hcomponent⟩

theorem settleDueKeys_matched {cached : Bool} {keys : List LinkKey} (hnodup : keys.Nodup)
    {acc acc' : CommandStore × List (LinkKey × Int)}
    (h : keys.foldlM (settleDueKey lib cached turns now) acc = .ok acc')
    (hgraph : ∀ k ∈ keys, linkGraph lib turns k acc.1 = linkGraph lib turns k s)
    (hacc : MatchedSoFar lib turns s acc.1) : MatchedSoFar lib turns s acc'.1 := by
  induction keys generalizing acc with
  | nil =>
    cases h
    exact hacc
  | cons k keys ih =>
    rw [List.foldlM_cons] at h
    cases hstep : settleDueKey lib cached turns now acc k with
    | error e =>
      rw [hstep] at h
      cases h
    | ok acc₁ =>
      rw [hstep] at h
      have hk := List.nodup_cons.mp hnodup
      have htail : ∀ k' ∈ keys, linkGraph lib turns k' acc.1 = linkGraph lib turns k' s :=
        fun k' hk' => hgraph k' (List.mem_cons_of_mem k hk')
      have hresult : (∀ k' ∈ keys, linkGraph lib turns k' acc₁.1 = linkGraph lib turns k' s) ∧
          MatchedSoFar lib turns s acc₁.1 := by
        unfold settleDueKey at hstep
        dsimp only at hstep
        split at hstep
        · cases hstep
          exact ⟨htail, hacc⟩
        · split at hstep
          · cases hstep
          · rename_i s₁ changed next hsettle
            have hothers : ∀ k' ∈ keys, linkGraph lib turns k' s₁ = linkGraph lib turns k' s := by
              intro k' hk'
              have hne : k' ≠ k := fun he => hk.1 (he ▸ hk')
              exact (linkGraph_settle_other hsettle hne).trans (htail k' hk')
            have hmatched := hacc.settle (settleSubmissionLinks_settled hsettle)
              (hgraph k (by simp))
            split at hstep <;> cases hstep <;> exact ⟨hothers, hmatched⟩
      exact ih hk.2 h hresult.1 hresult.2

lemma nodup_dueLinkKeys (s : CommandStore) (hostId : Option String) (now : Int) :
    (dueLinkKeys s hostId now).Nodup := by
  unfold dueLinkKeys
  exact (List.perm_insertionSort _ _).nodup_iff.mpr (List.nodup_dedup _)

lemma settleDueSubmissionLinks_matched {cached : Bool} {l l' : LinkState}
    {host : Option String} (h : settleDueSubmissionLinks lib cached l host now = .ok l') :
    MatchedSoFar lib l.turns l.commands l'.commands := by
  unfold settleDueSubmissionLinks at h
  dsimp only at h
  split at h
  · cases h
  · rename_i commands backoff hfold
    cases h
    exact settleDueKeys_matched (nodup_dueLinkKeys l.commands host now) hfold
      (fun _ _ => rfl) (.refl _)

theorem sweepSubmissionLinks_matched {cached : Bool} {l l' : LinkState} {host : Option String}
    (h : sweepSubmissionLinks lib cached l host now = .ok l') :
    MatchedSoFar lib l.turns l.commands l'.commands := by
  have hmoves := sweepSubmissionLinks_moves h
  refine ⟨hmoves, fun n t' ht' hlinked => ?_⟩
  unfold sweepSubmissionLinks at h
  split at h
  · cases h
  rename_i l₁ hsettle
  split at h
  · cases h
  rename_i commands hexpire
  cases h
  have hmatched := settleDueSubmissionLinks_matched hsettle
  obtain ⟨t, ht, hadv⟩ := expireTurnSubmissions_moves hexpire n t' ht'
  cases hadv with
  | keep same => exact hmatched.linked n t' (same ▸ ht) hlinked
  | move _ _ target => simp [target] at hlinked

end Settling

section Runs

variable {commandLib : CommandLibrary} {lib : LinkLibrary} {cached : Bool} {s : LinkState}

@[simp] lemma LinkState.commit_turns (s : LinkState) (body : Except StoreError CommandStore) :
    (s.commit body).turns = s.turns := by
  cases body <;> rfl

lemma LinkState.commit_linked {s₁ : LinkState} {before : CommandStore}
    {body : Except StoreError CommandStore} (hs₁ : s₁.commands = before)
    (hbody : ∀ s', body = .ok s' → MatchedSoFar lib s₁.turns before s') {n : Nat}
    {t' : TurnSubmission} (ht' : (s₁.commit body).commands.submissions.get? n = some t')
    (hlinked : t'.state = .linked) :
    before.submissions.get? n = some t' ∨ ∃ t, before.submissions.get? n = some t ∧
      LinkedAlone (linkGraph lib (s₁.commit body).turns t.linkKey before) t t' := by
  cases body with
  | error e =>
    left
    rw [← hs₁]
    exact ht'
  | ok s' => exact (hbody s' rfl).linked n t' ht' hlinked

lemma settleDueSubmissionLinks_turns {l l' : LinkState} {host : Option String} {now : Int}
    (h : settleDueSubmissionLinks lib cached l host now = .ok l') : l'.turns = l.turns := by
  unfold settleDueSubmissionLinks at h
  dsimp only at h
  split at h
  · cases h
  · cases h
    rfl

lemma sweepSubmissionLinks_turns {l l' : LinkState} {host : Option String} {now : Int}
    (h : sweepSubmissionLinks lib cached l host now = .ok l') : l'.turns = l.turns := by
  unfold sweepSubmissionLinks at h
  split at h
  · cases h
  · rename_i l₁ hsettle
    have hturns : l₁.turns = l.turns := settleDueSubmissionLinks_turns hsettle
    split at h
    · cases h
    · cases h
      exact hturns

/-- A call links a row only alone with one turn in its component. -/
theorem linkStep_linked (hs : LedgerSound s.commands) (call : LinkCall) {n : Nat}
    {t' : TurnSubmission}
    (ht' : (linkStep commandLib lib cached s call).commands.submissions.get? n = some t')
    (hlinked : t'.state = .linked) :
    s.commands.submissions.get? n = some t' ∨ ∃ t, s.commands.submissions.get? n = some t ∧
      LinkedAlone (linkGraph lib (linkStep commandLib lib cached s call).turns t.linkKey
        s.commands) t t' := by
  cases call with
  | command c =>
    obtain ⟨t, ht, hadv⟩ := linkStep_source hs (.command c) ht' (by simp [hlinked])
    cases hadv with
    | keep same => exact Or.inl (same ▸ ht)
    | move _ _ target => exact absurd hlinked (not_ledgerTargets_linked target)
  | observe turns rearmed settled now =>
    cases settled with
    | none => exact Or.inl ht'
    | some key =>
      apply LinkState.commit_linked _ _ ht' hlinked
      · rfl
      intro s' h
      cases hsettle : settleSubmissionLinks lib turns key s.commands now with
      | error e => simp [hsettle, Except.map] at h
      | ok p =>
        rw [hsettle] at h
        cases h
        exact MatchedSoFar.settle (.refl _) (settleSubmissionLinks_settled hsettle) rfl
  | settleRequest hostId requestId now =>
    apply LinkState.commit_linked rfl _ ht' hlinked
    intro s' h
    unfold settleSubmissionLinkForRequest at h
    split at h
    · cases h
      exact .refl _
    · split at h
      · cases h
      · rename_i hsettle
        cases h
        exact MatchedSoFar.settle (.refl _) (settleSubmissionLinks_settled hsettle) rfl
  | sweep hostId now =>
    cases h : sweepSubmissionLinks lib cached s hostId now with
    | error e =>
      simp only [linkStep, h] at ht'
      exact Or.inl ht'
    | ok s' =>
      simp only [linkStep, h] at ht' ⊢
      rw [sweepSubmissionLinks_turns h]
      exact (sweepSubmissionLinks_matched h).linked n t' ht' hlinked
  | sweepExpired hostId now =>
    obtain ⟨t, ht, hadv⟩ := linkStep_source hs (.sweepExpired hostId now) ht' (by simp [hlinked])
    cases hadv with
    | keep same => exact Or.inl (same ▸ ht)
    | move _ _ target => simp [LinkCall.ledgerTargets, hlinked] at target
  | cancel hostId requestId now =>
    obtain ⟨t, ht, hadv⟩ := linkStep_source hs (.cancel hostId requestId now) ht'
      (by simp [hlinked])
    cases hadv with
    | keep same => exact Or.inl (same ▸ ht)
    | move _ _ target => simp [LinkCall.ledgerTargets, hlinked] at target

/-- What stands when a row is linked: the turn it gets carries its owner, its instruction and a
first observation in its window, no row has that turn, and the two are a component. -/
structure LinkEvidence (lib : LinkLibrary) (turns : Constrained observedTurnSchema)
    (s : CommandStore) (t t' : TurnSubmission) (turn : ObservedTurn) (observedAt : Int) :
    Prop where
  isOpen : t.isOpen = true
  request : SameRequest t t'
  linked : t'.linkedTurnId = some turn.turnId
  stored : ∃ m, turns.get? m = some turn
  host : turn.hostId = t.hostId
  unlinked : ∀ n u, s.submissions.get? n = some u → u.hostId = turn.hostId →
    u.linkedTurnId ≠ some turn.turnId
  owner : turnLinkCandidateOwnerIdentity turn = some (t.ownerKey, t.ownerKeyVersion)
  instruction : ∃ text, turn.currentUserText = some (some text) ∧
    lib.instructionFingerprint text = t.instructionFingerprint
  observed : turn.firstObservedAt = some observedAt
  window : micros t.linkNotBefore ≤ observedAt ∧ observedAt ≤ micros t.linkExpiresAt
  alone : ∀ x, (linkGraph lib turns t.linkKey s).Connected (.inl t) x ↔
    x = .inl t ∨ x = .inr ⟨turn.turnId, 1, observedAt⟩

lemma LinkedAlone.evidence {turns : Constrained observedTurnSchema} {s : CommandStore}
    {t t' : TurnSubmission} (h : LinkedAlone (linkGraph lib turns t.linkKey s) t t') :
    ∃ turn observedAt, LinkEvidence lib turns s t t' turn observedAt := by
  obtain ⟨hleft, hrequest, c, hcomponent, hlink⟩ := h
  obtain ⟨hright, hedge⟩ := Bipartite.edge_of_component_eq hleft hcomponent
  have hmem : t ∈ openSubmissions t.linkKey s := hleft
  obtain ⟨-, -, -, hopen⟩ := mem_openSubmissions.mp hmem
  have hcandidates : c ∈ submissionLinkCandidateTurns lib turns t.linkKey s := hright
  obtain ⟨m, turn, hturn, hcandidate⟩ := mem_candidates.mp hcandidates
  obtain ⟨hhost, hspec, hfree⟩ := linkCandidate_spec hcandidate
  have heligible : linkEligible t c = true := hedge
  simp only [linkEligible, Bool.and_eq_true, beq_iff_eq, decide_eq_true_eq] at heligible
  have hc : c = ⟨turn.turnId, 1, c.observedAt⟩ := by
    rw [← hspec.turnId, ← hspec.version]
  have halone := Bipartite.connected_of_component_eq hleft hcomponent
  rw [hc] at halone
  have hversion : t.ownerKeyVersion = 1 := heligible.1.2.trans hspec.version
  exact ⟨turn, c.observedAt, hopen, hrequest, by rw [hlink, hspec.turnId], ⟨m, hturn⟩, hhost,
    hfree, by rw [hspec.owner, hversion]; rfl, hspec.instruction, hspec.observedAt, heligible.2,
    halone⟩

/-- Every linked row was linked by a call of the run, and has been that row since. -/
theorem linkRun_linked (calls : List LinkCall) {n : Nat} {t' : TurnSubmission}
    (ht' : (linkRun commandLib lib cached calls).commands.submissions.get? n = some t')
    (hlinked : t'.state = .linked) :
    ∃ call earlier, call :: earlier <:+ calls ∧
      (linkRun commandLib lib cached (call :: earlier)).commands.submissions.get? n = some t' ∧
      ∃ t turn observedAt,
        (linkRun commandLib lib cached earlier).commands.submissions.get? n = some t ∧
        LinkEvidence lib (linkRun commandLib lib cached (call :: earlier)).turns
          (linkRun commandLib lib cached earlier).commands t t' turn observedAt := by
  induction calls with
  | nil => simp [linkRun, LinkState.initial, CommandStore.empty] at ht'
  | cons call earlier ih =>
    rcases linkStep_linked (linkRun_sound earlier) call ht' hlinked with hold | ⟨t, ht, halone⟩
    · obtain ⟨call', earlier', hsuffix, hrest⟩ := ih hold
      exact ⟨call', earlier', hsuffix.trans (List.suffix_cons call earlier), hrest⟩
    · obtain ⟨turn, observedAt, hevidence⟩ := halone.evidence
      exact ⟨call, earlier, List.suffix_refl _, ht', t, turn, observedAt, ht, hevidence⟩

/-- Linking is a matching, and each of its pairs was a component of its own when it was made. -/
structure MatchingLaw (commandLib : CommandLibrary) (lib : LinkLibrary) (cached : Bool)
    (calls : List LinkCall) : Prop where
  oneSubmission : ∀ n n' t t' turnId,
    (linkRun commandLib lib cached calls).commands.submissions.get? n = some t →
    (linkRun commandLib lib cached calls).commands.submissions.get? n' = some t' →
    t.hostId = t'.hostId → t.linkedTurnId = some turnId → t'.linkedTurnId = some turnId → n = n'
  linked : ∀ n t', (linkRun commandLib lib cached calls).commands.submissions.get? n = some t' →
    t'.linkedTurnId.isSome →
    ∃ call earlier, call :: earlier <:+ calls ∧
      (linkRun commandLib lib cached (call :: earlier)).commands.submissions.get? n = some t' ∧
      ∃ t turn observedAt,
        (linkRun commandLib lib cached earlier).commands.submissions.get? n = some t ∧
        LinkEvidence lib (linkRun commandLib lib cached (call :: earlier)).turns
          (linkRun commandLib lib cached earlier).commands t t' turn observedAt

/-- Along every run, submissions and turns are matched one to one and fail closed. -/
theorem linkRun_matching (commandLib : CommandLibrary) (lib : LinkLibrary) (cached : Bool)
    (calls : List LinkCall) : MatchingLaw commandLib lib cached calls := by
  constructor
  case oneSubmission =>
    intro n n' t t' turnId ht ht' hhost hlink hlink'
    exact Constrained.eq_of_key _
      (k := fun r : TurnSubmission => r.linkedTurnId.map (fun turnId => (r.hostId, turnId)))
      (by simp [submissionSchema]) ht ht' (by rw [hlink]; rfl) (by rw [hlink', ← hhost]; rfl)
  case linked =>
    intro n t' ht' hlinked
    have hstate := ((linkRun_sound calls).agrees n t' ht').mp hlinked
    exact linkRun_linked calls ht' hstate

end Runs

/-! ### An ambiguous turn that is linked later -/

/-- A call terminalizes as ambiguous the component of a turn. -/
def AmbiguousTurn (lib : LinkLibrary) (s s' : LinkState) (hostId turnId : String) : Prop :=
  ∃ n t t', s.commands.submissions.get? n = some t ∧ s'.commands.submissions.get? n = some t' ∧
    t.hostId = hostId ∧ t.isOpen = true ∧ t'.state = .ambiguous ∧
    ∃ c : CandidateTurn, c.turnId = turnId ∧
      (linkGraph lib s'.turns t.linkKey s.commands).Connected (.inl t) (.inr c)

/-- The search decides whether a call terminalizes the component of a turn. -/
lemma ambiguousTurn_of_component {lib : LinkLibrary} {s s' : LinkState} {hostId turnId : String}
    (h : ∃ e ∈ s.commands.submissions.table.rows, ∃ e' ∈ s'.commands.submissions.table.rows,
      e.1 = e'.1 ∧ e.2.hostId = hostId ∧ e.2.isOpen = true ∧ e'.2.state = .ambiguous ∧
      e.2 ∈ openSubmissions e.2.linkKey s.commands ∧
      ∃ c ∈ ((linkGraph lib s'.turns e.2.linkKey s.commands).component e.2).2,
        c.turnId = turnId) : AmbiguousTurn lib s s' hostId turnId := by
  obtain ⟨⟨n, t⟩, ht, ⟨n', t'⟩, ht', hn, hhost, hopen, hstate, hleft, c, hc, hid⟩ := h
  have hn' : n = n' := hn
  subst hn'
  have hconnected := (Bipartite.mem_component (g := linkGraph lib s'.turns t.linkKey s.commands)
    hleft (.inr c)).mp hc
  exact ⟨n, t, t', Table.get?_eq_some_iff.mpr ht, Table.get?_eq_some_iff.mpr ht', hhost, hopen,
    hstate, c, hid, hconnected⟩

/-- No row is linked to a turn of a component that was terminalized as ambiguous before. -/
def NeverAdopted (commandLib : CommandLibrary) (lib : LinkLibrary) (cached : Bool)
    (calls : List LinkCall) : Prop :=
  ∀ call earlier hostId turnId, call :: earlier <:+ calls →
    AmbiguousTurn lib (linkRun commandLib lib cached earlier)
      (linkRun commandLib lib cached (call :: earlier)) hostId turnId →
    ∀ n t, (linkRun commandLib lib cached calls).commands.submissions.get? n = some t →
      t.hostId = hostId → t.linkedTurnId ≠ some turnId

/-- Two sends and one observation in both windows. -/
def twoSends : List LinkCall :=
  [.observe (sampleObservedTurns [sampleObserved "turn" 150]) (some sampleLinkKey)
    (some sampleLinkKey) (micros 150),
   .command (sampleMark "second" 110),
   .command (sampleReserve "second" 109),
   .command (sampleMark "first" 100),
   .command (sampleReserve "first" 99)]

/-- Both are ambiguous when their windows have closed; a third send then has the old observation
in its window alone. -/
def adoptedTurn : List LinkCall :=
  [.sweep none 232,
   .command (sampleMark "third" 172),
   .command (sampleReserve "third" 171),
   .sweep none 171] ++ twoSends

/-- Only submissions are terminalized: the turn of an ambiguous component stays a candidate. -/
theorem not_neverAdopted_of_adoptedTurn :
    ¬∀ calls, NeverAdopted ⟨id, fun _ => true⟩ ⟨id⟩ true calls := by
  intro h
  have hsuffix : LinkCall.sweep none 171 :: twoSends <:+ adoptedTurn := ⟨adoptedTurn.take 3, rfl⟩
  have hambiguous : AmbiguousTurn ⟨id⟩ (linkRun ⟨id, fun _ => true⟩ ⟨id⟩ true twoSends)
      (linkRun ⟨id, fun _ => true⟩ ⟨id⟩ true (.sweep none 171 :: twoSends)) "host" "turn" :=
    ambiguousTurn_of_component (by decide +kernel)
  have hadopted : ∃ e ∈
      (linkRun ⟨id, fun _ => true⟩ ⟨id⟩ true adoptedTurn).commands.submissions.table.rows,
      e.2.hostId = "host" ∧ e.2.linkedTurnId = some "turn" := by
    decide +kernel
  obtain ⟨⟨n, t⟩, ht, hhost, hlink⟩ := hadopted
  exact h adoptedTurn _ _ "host" "turn" hsuffix hambiguous n t (Table.get?_eq_some_iff.mpr ht)
    hhost hlink

end Tendwire

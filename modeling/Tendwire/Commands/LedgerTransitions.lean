import Tendwire.Commands.Linker
import Tendwire.Commands.SendAuthority

/-!
# The transition relation of the submission ledger

Every statement that writes the state column moves open rows along the declared relation; the
queued verdict alone takes a linked row back. A settled row stays what it is.
-/

namespace Tendwire

open Relational Transition

namespace TurnSubmission

/-- The link column agrees with the state column. -/
def LinkAgrees (t : TurnSubmission) : Prop := t.linkedTurnId.isSome ↔ t.state = .linked

/-- The columns that no statement rewrites. -/
structure SameRequest (t t' : TurnSubmission) : Prop where
  hostId : t'.hostId = t.hostId
  submissionId : t'.submissionId = t.submissionId
  requestId : t'.requestId = t.requestId
  linkKey : t'.linkKey = t.linkKey

lemma SameRequest.refl (t : TurnSubmission) : SameRequest t t := ⟨rfl, rfl, rfl, rfl⟩

lemma SameRequest.trans {a b c : TurnSubmission} (hab : SameRequest a b) (hbc : SameRequest b c) :
    SameRequest a c :=
  ⟨hbc.hostId.trans hab.hostId, hbc.submissionId.trans hab.submissionId,
    hbc.requestId.trans hab.requestId, hbc.linkKey.trans hab.linkKey⟩

/-- A row is kept, or it is open and becomes an allowed row along the declared relation. -/
inductive Advances (P : TurnSubmission → Prop) (t t' : TurnSubmission) : Prop
  | keep (same : t' = t)
  | move (request : SameRequest t t') (isOpen : t.isOpen = true) (target : P t')
      (declared : t'.state ∈ t.state.next) (agrees : t'.LinkAgrees)

variable {P Q : TurnSubmission → Prop} {t t' t'' : TurnSubmission}

lemma Advances.mono (h : Advances P t t') (hsub : ∀ x, P x → Q x) :
    Advances Q t t' := by
  cases h with
  | keep same => exact .keep same
  | move request isOpen target declared agrees =>
    exact .move request isOpen (hsub _ target) declared agrees

lemma Advances.sameRequest (h : Advances P t t') : SameRequest t t' := by
  cases h with
  | keep same => exact same ▸ SameRequest.refl t
  | move request => exact request

lemma Advances.agrees (h : Advances P t t') (ht : t.LinkAgrees) : t'.LinkAgrees := by
  cases h with
  | keep same => exact same ▸ ht
  | move _ _ _ _ agrees => exact agrees

lemma next_next {a b c : SubmissionState} (hab : b ∈ a.next) (hbc : c ∈ b.next) : c ∈ a.next := by
  cases a <;> cases b <;> simp_all [SubmissionState.next]

lemma Advances.trans (h : Advances P t t') (h' : Advances P t' t'') :
    Advances P t t'' := by
  cases h with
  | keep same => exact same ▸ h'
  | move request isOpen target declared agrees =>
    cases h' with
    | keep same => exact same ▸ .move request isOpen target declared agrees
    | move request' _ target' declared' agrees' =>
      exact .move (request.trans request') isOpen target' (next_next declared declared') agrees'

lemma isOpen_iff : t.isOpen = true ↔ t.linkedTurnId = none ∧ t.state.next ≠ [] := by
  unfold TurnSubmission.isOpen
  cases t.state <;> simp [SubmissionState.next]

end TurnSubmission

open TurnSubmission

/-! ### What a call does to the ledger rows -/

/-- Every row of `s'` is a row of `s` that advanced. -/
def LedgerMoves (P : TurnSubmission → Prop) (s s' : CommandStore) : Prop :=
  ∀ n t', s'.submissions.get? n = some t' →
    ∃ t, s.submissions.get? n = some t ∧ t.Advances P t'

namespace LedgerMoves

variable {P Q : TurnSubmission → Prop} {s s' s'' : CommandStore}

lemma of_submissions_eq (h : s'.submissions = s.submissions) : LedgerMoves P s s' :=
  fun _ t' ht => ⟨t', h ▸ ht, .keep rfl⟩

lemma refl (s : CommandStore) : LedgerMoves P s s := of_submissions_eq rfl

lemma trans (h : LedgerMoves P s s') (h' : LedgerMoves P s' s'') :
    LedgerMoves P s s'' := by
  intro n t'' ht''
  obtain ⟨t', ht', hadv'⟩ := h' n t'' ht''
  obtain ⟨t, ht, hadv⟩ := h n t' ht'
  exact ⟨t, ht, hadv.trans hadv'⟩

lemma mono (h : LedgerMoves P s s') (hsub : ∀ x, P x → Q x) :
    LedgerMoves Q s s' := by
  intro n t' ht'
  obtain ⟨t, ht, hadv⟩ := h n t' ht'
  exact ⟨t, ht, hadv.mono hsub⟩

/-- A row that was there before a call and is there after it advanced. -/
lemma row (h : LedgerMoves P s s') {n : Nat} {t t' : TurnSubmission}
    (ht : s.submissions.get? n = some t) (ht' : s'.submissions.get? n = some t') :
    t.Advances P t' := by
  obtain ⟨t₀, ht₀, hadv⟩ := h n t' ht'
  rw [ht] at ht₀
  cases ht₀
  exact hadv

end LedgerMoves

/-- The two columns agree in every row. -/
def LinksAgree (s : CommandStore) : Prop :=
  ∀ n t, s.submissions.get? n = some t → t.LinkAgrees

lemma LedgerMoves.linksAgree {P : TurnSubmission → Prop} {s s' : CommandStore}
    (h : LedgerMoves P s s') (hs : LinksAgree s) : LinksAgree s' := by
  intro n t' ht'
  obtain ⟨t, ht, hadv⟩ := h n t' ht'
  exact hadv.agrees (hs n t ht)

section Statements

variable {P : TurnSubmission → Prop} {s s' : CommandStore}

theorem updateSubmissions_spec {p : Nat → TurnSubmission → Bool}
    {f : TurnSubmission → TurnSubmission} {count : Nat}
    (h : s.updateSubmissions p f = .ok (s', count)) :
    s'.submissions.table = s.submissions.table.updateWhere p f ∧ s'.receipts = s.receipts ∧
      count = (s.submissions.table.select p).length := by
  unfold CommandStore.updateSubmissions at h
  split at h
  · rename_i submissions hw
    cases h
    exact ⟨Constrained.write_eq_some hw, rfl, rfl⟩
  · cases h

lemma updateSubmissions_get? {p : Nat → TurnSubmission → Bool}
    {f : TurnSubmission → TurnSubmission} {count : Nat}
    (h : s.updateSubmissions p f = .ok (s', count)) (n : Nat) :
    s'.submissions.get? n =
      (s.submissions.get? n).map (fun t => if p n t then f t else t) := by
  rw [Constrained.get?, (updateSubmissions_spec h).1, Table.get?_updateWhere]
  rfl

/-- An update is a move of the ledger when each row it selects advances. -/
theorem updateSubmissions_moves {p : Nat → TurnSubmission → Bool}
    {f : TurnSubmission → TurnSubmission} {count : Nat}
    (h : s.updateSubmissions p f = .ok (s', count))
    (hrow : ∀ n t, s.submissions.get? n = some t → p n t = true → t.Advances P (f t)) :
    LedgerMoves P s s' := by
  intro n t' ht'
  rw [updateSubmissions_get? h] at ht'
  obtain ⟨t, ht, rfl⟩ := Option.map_eq_some_iff.mp ht'
  refine ⟨t, ht, ?_⟩
  split
  · exact hrow n t ht ‹_›
  · exact .keep rfl

lemma mem_next_terminal {x : SubmissionState} {t : TurnSubmission} (ht : t.isOpen = true)
    (hx : x = .linked ∨ x = .ambiguous ∨ x = .expired ∨ x = .cancelled) : x ∈ t.state.next := by
  have hopen := (isOpen_iff.mp ht).2
  revert hopen
  rcases hx with rfl | rfl | rfl | rfl <;> cases t.state <;> simp [SubmissionState.next]

theorem expireTurnSubmissions_moves {host : Option String} {now : Int}
    (h : expireTurnSubmissions s host now = .ok s') : LedgerMoves (fun t => t.state = .expired) s s' := by
  unfold expireTurnSubmissions at h
  split at h
  · cases h
  · rename_i hupd
    cases h
    refine updateSubmissions_moves hupd fun n t _ hp => ?_
    simp only [Bool.and_eq_true, Option.isNone_iff_eq_none, List.contains_iff_mem] at hp
    obtain ⟨⟨⟨hnone, hnext⟩, -⟩, -⟩ := hp
    have hopen : t.isOpen = true := isOpen_iff.mpr ⟨hnone, fun he => by simp [he] at hnext⟩
    exact .move ⟨rfl, rfl, rfl, rfl⟩ hopen rfl hnext (by simp [LinkAgrees, hnone])

theorem cancelTurnSubmission_moves {host request : String} {now : Int} {cancelled : Bool}
    (h : cancelTurnSubmission s host request now = .ok (s', cancelled)) :
    LedgerMoves (fun t => t.state = .cancelled ∧ t.hostId = host ∧ t.requestId = request) s s' := by
  unfold cancelTurnSubmission at h
  split at h
  · cases h
  · rename_i hupd
    cases h
    refine updateSubmissions_moves hupd fun n t _ hp => ?_
    simp only [Bool.and_eq_true, beq_iff_eq, Option.isNone_iff_eq_none,
      List.contains_iff_mem] at hp
    obtain ⟨⟨hkey, hnone⟩, hnext⟩ := hp
    have hopen : t.isOpen = true := isOpen_iff.mpr ⟨hnone, fun he => by simp [he] at hnext⟩
    exact .move ⟨rfl, rfl, rfl, rfl⟩ hopen ⟨rfl, hkey⟩ hnext (by simp [LinkAgrees, hnone])

/-- A row that may advance with its receipt does; every other row is kept. -/
theorem terminalizeTurnSubmission_moves {host request : String} {state : ReceiptState} {now : Int}
    (hs : LinksAgree s) (h : terminalizeTurnSubmission s host request state now = .ok s') :
    LedgerMoves (fun t => submissionAfter state = some t.state ∧ t.hostId = host ∧
      t.requestId = request) s s' := by
  unfold terminalizeTurnSubmission at h
  split at h
  · cases h
    exact .refl _
  rename_i nextState hafter
  split at h
  · cases h
    exact .refl _
  rename_i n ledger hrow
  split at h
  · cases h
    exact .refl _
  rename_i hnext
  split at h
  · cases h
  rename_i s₁ count hupd
  split at h
  · cases h
  cases h
  refine updateSubmissions_moves hupd fun m t ht hp => ?_
  simp only [Bool.and_eq_true, beq_iff_eq] at hp
  have hnextState : nextState ∈ t.state.next := by
    rw [hp.2]
    exact not_not.mp hnext
  have hunlinked : t.linkedTurnId = none := by
    have hne : t.state ≠ .linked := fun he => by simp [he, SubmissionState.next] at hnextState
    have := (hs m t ht).not.mpr hne
    simpa using this
  have hopen : t.isOpen = true := isOpen_iff.mpr ⟨hunlinked, fun he => by simp [he] at hnextState⟩
  refine .move ⟨rfl, rfl, rfl, rfl⟩ hopen ⟨hafter, hp.1⟩ hnextState ?_
  have hlinked : nextState ≠ .linked := by
    rintro rfl
    cases state <;> simp [submissionAfter] at hafter
  simp [LinkAgrees, TurnSubmission.advanced, hunlinked, hlinked]

/-- The one row of a request. -/
lemma submission_unique {n m : Nat} {t t' : TurnSubmission} (h : s.submissions.get? n = some t)
    (h' : s.submissions.get? m = some t') (hhost : t'.hostId = t.hostId)
    (hrequest : t'.requestId = t.requestId) : n = m :=
  s.submissions.eq_of_key (k := fun r => some (r.hostId, r.requestId)) (by simp [submissionSchema])
    h h' rfl (by simp [hhost, hrequest])

/-- After a rejection the row of the request is settled. -/
theorem terminalizeTurnSubmission_rejected {host request : String} {now : Int}
    (h : terminalizeTurnSubmission s host request .rejected now = .ok s') {n : Nat}
    {t : TurnSubmission} (ht : s'.submissions.get? n = some t) (hhost : t.hostId = host)
    (hrequest : t.requestId = request) : t.isOpen = false := by
  have hclosed : ∀ {t : TurnSubmission}, .cancelled ∉ t.state.next → t.isOpen = false := by
    intro t hc
    rw [Bool.eq_false_iff]
    exact fun hopen => hc (mem_next_terminal hopen (by simp))
  unfold terminalizeTurnSubmission at h
  simp only [submissionAfter] at h
  split at h
  · rename_i hnone
    cases h
    have := Table.first?_eq_none hnone ht
    simp [hhost, hrequest] at this
  rename_i m ledger hrow
  obtain ⟨hledger, hkey⟩ := Table.first?_eq_some hrow
  simp only [Bool.and_eq_true, beq_iff_eq] at hkey
  split at h
  · rename_i hnext
    cases h
    have hnm : n = m := submission_unique ht hledger (by simp [hkey, hhost])
      (by simp [hkey, hrequest])
    subst hnm
    rw [Constrained.get?, hledger] at ht
    cases ht
    exact hclosed hnext
  · split at h
    · cases h
    rename_i s₁ count hupd
    split at h
    · cases h
    cases h
    rw [updateSubmissions_get? hupd] at ht
    obtain ⟨t₀, ht₀, rfl⟩ := Option.map_eq_some_iff.mp ht
    have hkey₀ : t₀.hostId = host ∧ t₀.requestId = request := by
      split at hhost <;> split at hrequest <;> exact ⟨hhost, hrequest⟩
    have hnm : n = m := submission_unique ht₀ hledger (by simp [hkey, hkey₀])
      (by simp [hkey, hkey₀])
    subst hnm
    rw [Constrained.get?, hledger] at ht₀
    cases ht₀
    simp [hkey, TurnSubmission.advanced, TurnSubmission.isOpen]

/-! ### The linker -/

variable {lib : LinkLibrary} {turns : Constrained observedTurnSchema} {key : LinkKey} {now : Int}

/-- The states in which the linker leaves a row it settles. -/
def LinkSettled (t : TurnSubmission) : Prop :=
  t.state = .linked ∨ t.state = .ambiguous ∨ t.state = .expired

/-- The linker moves ledger rows and writes no receipt. -/
structure LinkMoves (s s' : CommandStore) : Prop where
  moves : LedgerMoves LinkSettled s s'
  receipts : s'.receipts = s.receipts

lemma LinkMoves.refl (s : CommandStore) : LinkMoves s s := ⟨.refl s, rfl⟩

lemma LinkMoves.trans {a b c : CommandStore} (h : LinkMoves a b) (h' : LinkMoves b c) :
    LinkMoves a c := ⟨h.moves.trans h'.moves, h'.receipts.trans h.receipts⟩

theorem updateOpen_moves {members : List TurnSubmission} {f : TurnSubmission → TurnSubmission}
    {count : Nat} (h : updateOpen key s members f = .ok (s', count))
    (hf : ∀ t, t.isOpen = true → SameRequest t (f t) ∧ LinkSettled (f t) ∧ (f t).LinkAgrees) :
    LinkMoves s s' := by
  refine ⟨updateSubmissions_moves h fun n t _ hp => ?_, (updateSubmissions_spec h).2.1⟩
  have hopen : t.isOpen = true := by simp_all
  obtain ⟨hrequest, hsettled, hagrees⟩ := hf t hopen
  refine .move hrequest hopen hsettled (mem_next_terminal hopen ?_) hagrees
  rcases hsettled with h | h | h <;> simp [h]

lemma linkAgrees_terminalized {t : TurnSubmission} (ht : t.isOpen = true) {state : SubmissionState}
    (hstate : state ≠ .linked) : (t.terminalized state now).LinkAgrees := by
  simp [LinkAgrees, TurnSubmission.terminalized, (isOpen_iff.mp ht).1, hstate]

theorem settleDecision_moves {acc acc' : Settlement} {decision : LinkDecision}
    (h : settleDecision key now acc decision = .ok acc') : LinkMoves acc.store acc'.store := by
  cases decision with
  | wait boundary =>
    cases h
    exact .refl _
  | expire t =>
    simp only [settleDecision] at h
    split at h
    · cases h
    · cases h
      rename_i hupd
      refine updateOpen_moves hupd fun t ht => ⟨⟨rfl, rfl, rfl, rfl⟩, ?_, ?_⟩
      · simp [LinkSettled, TurnSubmission.terminalized]
      · exact linkAgrees_terminalized ht (by simp)
  | link t turn boundary =>
    simp only [settleDecision] at h
    split at h
    · cases h
    · cases h
      rename_i hupd
      refine updateOpen_moves hupd fun t _ => ⟨⟨rfl, rfl, rfl, rfl⟩, ?_, ?_⟩
      · simp [LinkSettled, TurnSubmission.linkedTo]
      · simp [LinkAgrees, TurnSubmission.linkedTo]
  | ambiguous members =>
    simp only [settleDecision] at h
    split at h
    · cases h
    · cases h
      rename_i hupd
      refine updateOpen_moves hupd fun t ht => ⟨⟨rfl, rfl, rfl, rfl⟩, ?_, ?_⟩
      · simp [LinkSettled, TurnSubmission.terminalized]
      · exact linkAgrees_terminalized ht (by simp)

theorem settleSubmissionLinks_moves {changed : Nat} {next : Option Int}
    (h : settleSubmissionLinks lib turns key s now = .ok (s', changed, next)) :
    LinkMoves s s' := by
  unfold settleSubmissionLinks at h
  dsimp only at h
  split at h
  · cases h
  · rename_i acc hfold
    cases h
    refine foldlM_invariant (P := fun acc : Settlement => LinkMoves s acc.store) ?_ (.refl s) hfold
    intro acc t acc' _ hacc hstep
    unfold settleSubmission at hstep
    split at hstep
    · cases hstep
      exact hacc
    · have hmove := settleDecision_moves hstep
      split at hmove
      · exact hacc.trans hmove
      · exact hacc.trans hmove

lemma settleDueSubmissionLinks_moves {cached : Bool} {l l' : LinkState} {host : Option String}
    (h : settleDueSubmissionLinks lib cached l host now = .ok l') :
    LinkMoves l.commands l'.commands := by
  unfold settleDueSubmissionLinks at h
  dsimp only at h
  split at h
  · cases h
  · rename_i commands backoff hfold
    cases h
    refine foldlM_invariant
      (P := fun acc : CommandStore × List (LinkKey × Int) => LinkMoves l.commands acc.1) ?_
      (.refl _) hfold
    intro acc k acc' _ hacc hstep
    unfold settleDueKey at hstep
    dsimp only at hstep
    split at hstep
    · cases hstep
      exact hacc
    · split at hstep
      · cases hstep
      · rename_i s₁ changed next hsettle
        have hmove := hacc.trans (settleSubmissionLinks_moves hsettle)
        split at hstep <;> cases hstep <;> exact hmove

theorem sweepSubmissionLinks_moves {cached : Bool} {l l' : LinkState} {host : Option String}
    (h : sweepSubmissionLinks lib cached l host now = .ok l') :
    LinkMoves l.commands l'.commands := by
  unfold sweepSubmissionLinks at h
  split at h
  · cases h
  · rename_i l₁ hsettle
    split at h
    · cases h
    · rename_i commands hexpire
      cases h
      have hexpired : LinkMoves l₁.commands commands :=
        ⟨(expireTurnSubmissions_moves hexpire).mono (fun t ht => by simp [LinkSettled, ht]),
          expireTurnSubmissions_receipts hexpire⟩
      exact (settleDueSubmissionLinks_moves hsettle).trans hexpired

end Statements

end Tendwire

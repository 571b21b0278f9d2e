import Tendwire.Attention.Soundness

/-!
# Runs of attention observations

An observation moves the lifecycle of each family of its host as planned. A resolve looks back
to the first of the misses that led to it.
-/

namespace Tendwire

open Transition AttentionStore

variable {R : AttentionRules} {s s' : AttentionStore} {c : AttentionCall} {t : Int}
  {f : AttentionFamily} {l l' : AttentionLifecycle} {calls : ℕ → AttentionCall} {n : ℕ}

/-! ### One observation -/

/-- The observation is about the host of the family, at a time. -/
structure AttentionCall.Reaches (c : AttentionCall) (f : AttentionFamily) (t : Int) : Prop where
  authority : c.authority ≠ .none
  observedAt : c.observedAt = some t
  hostId : f.hostId = c.hostId

lemma sound_foldl {families : List AttentionFamily} (hs : s.Sound R) :
    (families.foldl (applyFamily R c t) s).Sound R :=
  foldl_invariant (P := fun s : AttentionStore => s.Sound R)
    (fun _ _ _ h => sound_applyFamily h) hs

lemma sameFamily_foldl {families : List AttentionFamily} (hs : s.Sound R) (h : f ∉ families) :
    SameFamily R f s (families.foldl (applyFamily R c t) s) := by
  induction families generalizing s with
  | nil => exact .refl s
  | cons g rest ih =>
    have hne : f ≠ g := fun hfg => h (hfg ▸ List.mem_cons_self)
    exact (sameFamily_applyFamily hs hne).trans
      (ih (sound_applyFamily hs) fun hmem => h (List.mem_cons_of_mem _ hmem))

/-- A family has one iteration, before and after which nothing is written of it. -/
lemma foldl_applyFamily {families : List AttentionFamily} (hs : s.Sound R)
    (hnodup : families.Nodup) (h : f ∈ families) : ∃ s₁, s₁.Sound R ∧ SameFamily R f s s₁ ∧
      SameFamily R f (s₁.applyFamily R c t f) (families.foldl (applyFamily R c t) s) := by
  induction families generalizing s with
  | nil => cases h
  | cons g rest ih =>
    obtain ⟨hg, hrest⟩ := List.nodup_cons.mp hnodup
    rcases List.mem_cons.mp h with rfl | hmem
    · exact ⟨s, hs, .refl s, sameFamily_foldl (sound_applyFamily hs) hg⟩
    · have hne : f ≠ g := fun hfg => hg (hfg ▸ hmem)
      obtain ⟨s₁, hs₁, hbefore, hafter⟩ := ih (sound_applyFamily hs) hrest hmem
      exact ⟨s₁, hs₁, (sameFamily_applyFamily hs hne).trans hbefore, hafter⟩

theorem sound_apply (hs : s.Sound R) (c : AttentionCall) :
    (applyAttentionObservation R s c).Sound R := by
  unfold applyAttentionObservation
  split
  · exact hs
  · split
    · exact hs
    · exact sound_foldl hs

lemma apply_of_reaches (h : c.Reaches f t) : applyAttentionObservation R s c =
    (c.familyKeys R s).foldl (applyFamily R c t) s := by
  unfold applyAttentionObservation
  rw [if_neg h.authority, h.observedAt]

/-- An observation that does not reach a family writes nothing of it. -/
lemma sameFamily_of_not_reaches (hs : s.Sound R) (h : ∀ t, ¬c.Reaches f t) :
    SameFamily R f s (applyAttentionObservation R s c) := by
  unfold applyAttentionObservation
  split
  · exact .refl s
  · next hauthority =>
    split
    · exact .refl s
    · next t ht =>
      exact sameFamily_foldl hs fun hmem => h t ⟨hauthority, ht, familyKeys_hostId hmem⟩

/-- The lifecycle of a family after an observation that reaches it is the planned one. -/
theorem lookup_apply (hs : s.Sound R) (h : c.Reaches f t) :
    (applyAttentionObservation R s c).lifecycles.lookup f =
      (planAttentionTransition R (s.lifecycles.lookup f) (c.observation R t f)).nextState := by
  rw [apply_of_reaches h]
  by_cases hmem : f ∈ c.familyKeys R s
  · obtain ⟨s₁, -, hbefore, hafter⟩ := foldl_applyFamily hs (nodup_familyKeys c s) hmem
    rw [hafter.lifecycle, lookup_applyFamily, hbefore.lifecycle]
  · have hsignal : (c.observation R t f).signal = none := selected_eq_none_of_notMem hmem
    rw [(sameFamily_foldl hs hmem).lifecycle]
    have hplanned := planned R (s.lifecycles.lookup f) (c.observation R t f)
    generalize planAttentionTransition R (s.lifecycles.lookup f) (c.observation R t f) = tr
      at hplanned ⊢
    cases hplanned with
    | late | idle => rfl
    | first signal h' | reopens _ signal h' | continues _ signal h' =>
      rw [hsignal] at h'
      cases h'
    | misses l _ hstate _ hopened hcomplete =>
      exact absurd hcomplete (not_complete_of_notMem hmem h.hostId hstate hopened)

/-- A family whose plan is to do nothing is left as it is. -/
lemma sameFamily_of_noOp (hs : s.Sound R) (h : c.Reaches f t)
    (hplan : planAttentionTransition R (s.lifecycles.lookup f) (c.observation R t f) =
      .noOp (s.lifecycles.lookup f)) : SameFamily R f s (applyAttentionObservation R s c) := by
  rw [apply_of_reaches h]
  by_cases hmem : f ∈ c.familyKeys R s
  · obtain ⟨s₁, -, hbefore, hafter⟩ := foldl_applyFamily hs (nodup_familyKeys c s) hmem
    rw [← hbefore.lifecycle] at hplan
    rcases applyFamily_cases R c t s₁ f with ⟨-, heq⟩ | ⟨l, haction, -⟩
    · exact hbefore.trans (heq ▸ hafter)
    · rw [hplan] at haction
      exact absurd rfl haction
  · exact sameFamily_foldl hs hmem

/-- A late or repeated observation of a family is planned to do nothing. -/
lemma plan_of_le {o : AttentionObservation} (h : o.observedAt ≤ l.lastAcceptedAt) :
    planAttentionTransition R (some l) o = .noOp (some l) := by
  unfold planAttentionTransition
  rw [if_pos]
  simpa using h

/-! ### Runs -/

def attentionMachine (R : AttentionRules) : Machine AttentionStore AttentionCall Unit where
  step s c := (applyAttentionObservation R s c, ())

/-- The store before call `n` of a run from the empty store. -/
def attentionAt (R : AttentionRules) (calls : ℕ → AttentionCall) (n : ℕ) : AttentionStore :=
  (attentionMachine R).stateAt .empty calls n

lemma attentionAt_succ : attentionAt R calls (n + 1) =
    applyAttentionObservation R (attentionAt R calls n) (calls n) := rfl

theorem sound_attentionAt (R : AttentionRules) (calls : ℕ → AttentionCall) (n : ℕ) :
    (attentionAt R calls n).Sound R :=
  Machine.stateAt_invariant (M := attentionMachine R) (I := fun s => s.Sound R) (sound_empty R)
    (fun _ c h => sound_apply h c) n

/-- Call `n` is a complete observation that the open family accepts and is missing from. -/
def AcceptedMiss (R : AttentionRules) (calls : ℕ → AttentionCall) (f : AttentionFamily) (n : ℕ)
    (t : Int) : Prop :=
  (calls n).Reaches f t ∧ (calls n).authority = .complete ∧ (calls n).selected R f = none ∧
    ∃ l, (attentionAt R calls n).lifecycles.lookup f = some l ∧ l.lifecycleStatus = .opened ∧
      l.lastAcceptedAt < t

/-- Call `n` is an observation with a signal that the family accepts. -/
def AcceptedPositive (R : AttentionRules) (calls : ℕ → AttentionCall) (f : AttentionFamily)
    (n : ℕ) : Prop :=
  ((calls n).selected R f).isSome ∧ ∃ t, (calls n).Reaches f t ∧
    ∀ l, (attentionAt R calls n).lifecycles.lookup f = some l → l.lastAcceptedAt < t

/-- An open episode that is missing was first missed by a call of the run, and no signal of it
was accepted since. -/
theorem missing_since (hl : (attentionAt R calls n).lifecycles.lookup f = some l)
    (hopened : l.lifecycleStatus = .opened) (ht : l.firstMissingAt = some t) :
    ∃ m < n, AcceptedMiss R calls f m t ∧ ∀ k, m < k → k < n → ¬AcceptedPositive R calls f k := by
  induction n generalizing l with
  | zero => cases hl
  | succ n ih =>
    have hs := sound_attentionAt R calls n
    -- the episode was missing before and this call has no signal of it
    have hkept : ∀ l₀, (attentionAt R calls n).lifecycles.lookup f = some l₀ →
        l₀.lifecycleStatus = .opened → l₀.firstMissingAt = some t →
        ¬AcceptedPositive R calls f n → ∃ m < n + 1, AcceptedMiss R calls f m t ∧
          ∀ k, m < k → k < n + 1 → ¬AcceptedPositive R calls f k := by
      intro l₀ hl₀ hopened₀ ht₀ hnot
      obtain ⟨m, hmn, hmiss, hnone⟩ := ih hl₀ hopened₀ ht₀
      refine ⟨m, Nat.lt_succ_of_lt hmn, hmiss, fun k hmk hkn => ?_⟩
      rcases Nat.lt_succ_iff_lt_or_eq.mp hkn with hkn | rfl
      · exact hnone k hmk hkn
      · exact hnot
    by_cases hreach : ∃ t', (calls n).Reaches f t'
    · obtain ⟨t', hreach⟩ := hreach
      rw [attentionAt_succ, lookup_apply hs hreach] at hl
      have hplanned := planned R ((attentionAt R calls n).lifecycles.lookup f)
        ((calls n).observation R t' f)
      generalize planAttentionTransition R ((attentionAt R calls n).lifecycles.lookup f)
        ((calls n).observation R t' f) = tr at hplanned hl
      have hsame : ∀ t'', (calls n).Reaches f t'' → t'' = t' := fun t'' h =>
        Option.some.inj (h.observedAt.symm.trans hreach.observedAt)
      cases hplanned with
      | late l₀ hstate hle =>
        refine hkept l hl hopened ht ?_
        rintro ⟨-, t'', h, hlt⟩
        obtain rfl := hsame t'' h
        exact absurd (hlt l₀ hstate) hle.not_gt
      | idle hsignal =>
        refine hkept l hl hopened ht fun h => ?_
        have hsome := h.1
        rw [show (calls n).selected R f = none from hsignal] at hsome
        cases hsome
      | first | reopens | continues =>
        cases hl
        cases ht
      | misses l₀ hsignal hstate hlt hopened₀ hcomplete =>
        have hmissing : l₀.firstMissingAt.getD t' = t := by
          cases hl
          exact Option.some.inj ht
        cases hfirst : l₀.firstMissingAt with
        | some t₀ =>
          rw [hfirst] at hmissing
          refine hkept l₀ hstate hopened₀ (hmissing ▸ hfirst) fun h => ?_
          have hsome := h.1
          rw [show (calls n).selected R f = none from hsignal] at hsome
          cases hsome
        | none =>
          rw [hfirst] at hmissing
          cases hmissing
          exact ⟨n, Nat.lt_succ_self n, ⟨hreach, hcomplete, hsignal, l₀, hstate, hopened₀, hlt⟩,
            fun k hnk hkn => absurd hnk (Nat.not_lt.mpr (Nat.lt_succ_iff.mp hkn))⟩
    · push Not at hreach
      rw [attentionAt_succ, (sameFamily_of_not_reaches hs hreach).lifecycle] at hl
      exact hkept l hl hopened ht fun ⟨_, t', h, _⟩ => hreach t' h

/-- What the lifecycle promises at call `n` of a run. -/
structure AttentionLaw (R : AttentionRules) (calls : ℕ → AttentionCall) (n : ℕ) : Prop where
  /-- The last accepted time never goes back. -/
  accepted : ∀ f l, (attentionAt R calls n).lifecycles.lookup f = some l →
    ∃ l', (attentionAt R calls (n + 1)).lifecycles.lookup f = some l' ∧
      l.lastAcceptedAt ≤ l'.lastAcceptedAt
  /-- A late or repeated observation changes nothing that is kept of the family. -/
  late : ∀ f l t, (attentionAt R calls n).lifecycles.lookup f = some l →
    (calls n).observedAt = some t → t ≤ l.lastAcceptedAt →
      SameFamily R f (attentionAt R calls n) (attentionAt R calls (n + 1))
  /-- Each generation so far has emitted one creation. -/
  created : ∀ f l, (attentionAt R calls n).lifecycles.lookup f = some l →
    ∀ g, ((attentionAt R calls n).jobsOf f).countP (·.isCreated g) =
      if 1 ≤ g ∧ g ≤ l.generation then 1 else 0
  /-- A family that was never seen has no jobs. -/
  unseen : ∀ f, (attentionAt R calls n).lifecycles.lookup f = none →
    (attentionAt R calls n).jobsOf f = []
  /-- The escalations of a generation have strictly increasing ranks. -/
  escalations : ∀ f g, ((((attentionAt R calls n).jobsOf f).filter (·.isEscalation g)).map
    (·.rank R)).Pairwise (· < ·)
  /-- A resolve follows two accepted complete misses or more, with the delay between the first and
  the last and no accepted signal between them. -/
  resolves : ∀ f l l', (attentionAt R calls n).lifecycles.lookup f = some l →
    (attentionAt R calls (n + 1)).lifecycles.lookup f = some l' →
    l.lifecycleStatus = .opened → l'.lifecycleStatus = .resolved →
      ∃ m < n, ∃ first last, AcceptedMiss R calls f m first ∧ AcceptedMiss R calls f n last ∧
        first + attentionMissingGrace ≤ last ∧
        ∀ k, m < k → k < n → ¬AcceptedPositive R calls f k
  /-- The generation stays, or a resolved family starts the next one. -/
  generation : ∀ f l l', (attentionAt R calls n).lifecycles.lookup f = some l →
    (attentionAt R calls (n + 1)).lifecycles.lookup f = some l' →
      l'.generation = l.generation ∨
        l'.generation = l.generation + 1 ∧ l.lifecycleStatus = .resolved
  /-- An open lifecycle has one open row, that of its current id. -/
  opened : ∀ f l, (attentionAt R calls n).lifecycles.lookup f = some l →
    (l.lifecycleStatus = .opened ↔ ∃ i : AttentionIdentity, l.currentAttentionId = some i ∧
      i.family R = f) ∧
    ∀ i : AttentionIdentity, i.family R = f →
      ((attentionAt R calls n).OpenRow i ↔ l.currentAttentionId = some i)
  /-- An open row is the current one of a lifecycle. -/
  current : ∀ i, (attentionAt R calls n).OpenRow i →
    ∃ l, (attentionAt R calls n).lifecycles.lookup (i.family R) = some l ∧
      l.lifecycleStatus = .opened ∧ l.currentAttentionId = some i

/-- What one observation does to the lifecycle of a family. -/
lemma lifecycle_step (hs : s.Sound R) (hl : s.lifecycles.lookup f = some l) :
    ∃ l', (applyAttentionObservation R s c).lifecycles.lookup f = some l' ∧
      l.lastAcceptedAt ≤ l'.lastAcceptedAt ∧
      (l'.generation = l.generation ∨
        l'.generation = l.generation + 1 ∧ l.lifecycleStatus = .resolved) ∧
      (l.lifecycleStatus = .opened → l'.lifecycleStatus = .resolved → ∃ t, c.Reaches f t ∧
        l.lastAcceptedAt < t ∧ c.authority = .complete ∧ c.selected R f = none ∧
        ∃ first, l.firstMissingAt = some first ∧ first + attentionMissingGrace ≤ t) := by
  by_cases hreach : ∃ t, c.Reaches f t
  · obtain ⟨t, hreach⟩ := hreach
    rw [lookup_apply hs hreach, hl]
    have hplanned := planned R (some l) (c.observation R t f)
    generalize planAttentionTransition R (some l) (c.observation R t f) = tr at hplanned
    cases hplanned with
    | late | idle =>
      refine ⟨l, rfl, le_rfl, .inl rfl, fun hopened hresolved => ?_⟩
      rw [hopened] at hresolved
      cases hresolved
    | first _ _ hstate => cases hstate
    | reopens l₀ _ _ hstate hlt hresolved =>
      cases hstate
      exact ⟨_, rfl, hlt.le, .inr ⟨rfl, hresolved⟩, fun _ h => nomatch h⟩
    | continues l₀ _ _ hstate hlt =>
      cases hstate
      exact ⟨_, rfl, hlt.le, .inl rfl, fun _ h => nomatch h⟩
    | misses l₀ hsignal hstate hlt hopened hcomplete =>
      cases hstate
      refine ⟨_, rfl, hlt.le, .inl rfl, fun _ hresolved => ?_⟩
      refine ⟨t, hreach, hlt, hcomplete, hsignal, ?_⟩
      dsimp only at hresolved
      split at hresolved
      · next hresolves =>
        have hresolves := of_decide_eq_true hresolves
        unfold attentionMissingRequired at hresolves
        cases hfirst : l.firstMissingAt with
        | none =>
          have hcount := (hs.live f l hl).missing.mpr hfirst
          omega
        | some first =>
          rw [hfirst] at hresolves
          have hgrace := hresolves.2
          rw [Option.getD_some] at hgrace
          change attentionMissingGrace ≤ t - first at hgrace
          exact ⟨first, rfl, by omega⟩
      · cases hresolved
  · push Not at hreach
    rw [(sameFamily_of_not_reaches hs hreach).lifecycle]
    refine ⟨l, hl, le_rfl, .inl rfl, fun hopened hresolved => ?_⟩
    rw [hopened] at hresolved
    cases hresolved

/-- The attention lifecycle keeps its promises at every call of every run. -/
theorem attention_law (R : AttentionRules) (calls : ℕ → AttentionCall) (n : ℕ) :
    AttentionLaw R calls n := by
  have hs := sound_attentionAt R calls n
  exact {
    accepted := fun f l hl => by
      obtain ⟨l', hl', hle, -⟩ := lifecycle_step (c := calls n) hs hl
      exact ⟨l', hl', hle⟩
    late := fun f l t hl ht hle => by
      rw [attentionAt_succ]
      by_cases hreach : ∃ t', (calls n).Reaches f t'
      · obtain ⟨t', hreach⟩ := hreach
        obtain rfl := Option.some.inj (ht.symm.trans hreach.observedAt)
        refine sameFamily_of_noOp hs hreach ?_
        rw [hl]
        exact plan_of_le hle
      · push Not at hreach
        exact sameFamily_of_not_reaches hs hreach
    created := fun f l hl => (hs.live f l hl).created
    unseen := fun f hf => by
      refine List.eq_nil_iff_forall_not_mem.mpr fun job hjob => ?_
      have hbound := (hs.fresh f hf).jobs job hjob
      omega
    escalations := fun f g => by
      cases hl : (attentionAt R calls n).lifecycles.lookup f with
      | none => exact (hs.fresh f hl).escalations g
      | some l => exact (hs.live f l hl).escalations g
    resolves := fun f l l' hl hl' hopened hresolved => by
      obtain ⟨l'', hl'', -, -, hresolves⟩ := lifecycle_step (c := calls n) hs hl
      obtain rfl := Option.some.inj (hl'.symm.trans hl'')
      obtain ⟨last, hreach, hlt, hcomplete, hsignal, first, hfirst, hgrace⟩ :=
        hresolves hopened hresolved
      obtain ⟨m, hmn, hmiss, hnone⟩ := missing_since hl hopened hfirst
      exact ⟨m, hmn, first, last, hmiss, ⟨hreach, hcomplete, hsignal, l, hl, hopened, hlt⟩, hgrace,
        hnone⟩
    generation := fun f l l' hl hl' => by
      obtain ⟨l'', hl'', -, hgeneration, -⟩ := lifecycle_step (c := calls n) hs hl
      obtain rfl := Option.some.inj (hl'.symm.trans hl'')
      exact hgeneration
    opened := fun f l hl => by
      have hlive := hs.live f l hl
      refine ⟨hlive.current.trans ?_, hlive.openRow⟩
      rw [Option.isSome_iff_exists]
      exact exists_congr fun i => ⟨fun hi => ⟨hi, hlive.home i hi⟩, fun hi => hi.1⟩
    current := fun i hi => by
      cases hl : (attentionAt R calls n).lifecycles.lookup (i.family R) with
      | none => exact absurd hi ((hs.fresh _ hl).openRow i rfl)
      | some l =>
        have hlive := hs.live _ l hl
        have hcurrent := (hlive.openRow i rfl).mp hi
        exact ⟨l, rfl, hlive.current.mpr (hcurrent ▸ rfl), hcurrent⟩ }

end Tendwire

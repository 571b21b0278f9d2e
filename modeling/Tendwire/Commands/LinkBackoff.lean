import Tendwire.Commands.LinkMatching

/-!
# The link backoff cache

A sweep skips a key until the first of its components closes. Nothing is lost as long as the
graph of a deferred key stays quiet until then, which inserts and re-arming observations ensure
and the other events that reach the ledger do not.
-/

namespace Tendwire

open Relational Graph Transition TurnSubmission

/-! ### Quiet graphs -/

lemma foldl_boundary_le {members : List TurnSubmission} {b x : Int} :
    members.foldl (fun boundary t' => max boundary t'.linkExpiresAt) b ≤ x ↔
      b ≤ x ∧ ∀ m ∈ members, m.linkExpiresAt ≤ x := by
  induction members generalizing b with
  | nil => simp
  | cons m members ih =>
    rw [List.foldl_cons, ih, max_le_iff, List.forall_mem_cons, and_assoc]

lemma componentBoundary_le {t : TurnSubmission} {members : List TurnSubmission} {x : Int} :
    componentBoundary t members ≤ x ↔
      t.linkExpiresAt ≤ x ∧ ∀ m ∈ members, m.linkExpiresAt ≤ x :=
  foldl_boundary_le

section Decisions

variable {g : Bipartite TurnSubmission CandidateTurn} {t : TurnSubmission} {now : Int}

/-- When the last window of a submission's component closes. -/
def linkBoundary (g : Bipartite TurnSubmission CandidateTurn) (t : TurnSubmission) : Int :=
  componentBoundary t (g.component t).1

/-- Members of one component close together. -/
lemma linkBoundary_eq_of_mem {t' : TurnSubmission} (ht : t ∈ g.left)
    (ht' : t' ∈ (g.component t).1) : linkBoundary g t' = linkBoundary g t := by
  have hself := (Bipartite.component_frontier ht).2
  have hleft := ((Bipartite.component_within ht).lefts t' ht').1
  have hself' := (Bipartite.component_frontier hleft).2
  have hiff : ∀ x, x ∈ (g.component t').1 ↔ x ∈ (g.component t).1 := fun x =>
    Bipartite.mem_component_of_mem ht ht' (.inl x)
  apply eq_of_forall_ge_iff
  intro x
  unfold linkBoundary
  rw [componentBoundary_le, componentBoundary_le]
  simp only [hiff]
  constructor
  · rintro ⟨-, h⟩
    exact ⟨h t hself, h⟩
  · rintro ⟨-, h⟩
    exact ⟨h t' ht', h⟩

/-- A component is left alone exactly when it is open and no sole pair may link at once. -/
theorem linkDecision_wait_iff (ht : t ∈ g.left) {boundary : Int} :
    linkDecision g now t = .wait boundary ↔ boundary = linkBoundary g t ∧
      now < micros (linkBoundary g t) ∧
      ∀ turn, g.component t = ([t], [turn]) → instantLink now t turn = false := by
  have hself := (Bipartite.component_frontier ht).2
  unfold linkDecision
  split
  · rename_i hisolated
    have hcomponent := Bipartite.component_of_isolated hisolated
    have hboundary : linkBoundary g t = t.linkExpiresAt := by
      simp [linkBoundary, componentBoundary, hcomponent]
    rw [hboundary]
    split
    · rename_i hopen
      simp only [LinkDecision.wait.injEq]
      constructor
      · rintro rfl
        exact ⟨rfl, hopen, fun turn h => by simp [hcomponent] at h⟩
      · rintro ⟨h, -⟩
        exact h.symm
    · rename_i hclosed
      simp [hclosed]
  · have hboundary : componentBoundary t (g.component t).1 = linkBoundary g t := rfl
    dsimp only
    rw [hboundary]
    split
    · rename_i only turn hcomponent
      rw [hcomponent] at hself
      have hsame : t = only := List.mem_singleton.mp hself
      subst hsame
      split
      · rename_i hopen
        split
        · rename_i hinstant
          simp only [reduceCtorEq, false_iff, not_and, not_forall]
          intro _ _
          exact ⟨turn, hcomponent, by simp [hinstant]⟩
        · rename_i hinstant
          simp only [LinkDecision.wait.injEq]
          constructor
          · rintro rfl
            refine ⟨rfl, hopen, fun turn' h => ?_⟩
            rw [hcomponent] at h
            cases h
            exact Bool.eq_false_iff.mpr hinstant
          · rintro ⟨h, -⟩
            exact h.symm
      · rename_i hclosed
        simp [hclosed]
    · rename_i members turns hnot hcomponent
      split
      · rename_i hopen
        simp only [LinkDecision.wait.injEq]
        constructor
        · rintro rfl
          refine ⟨rfl, hopen, fun turn h => ?_⟩
          rw [hcomponent] at h
          cases h
          exact (hnot t turn rfl rfl).elim
        · rintro ⟨h, -⟩
          exact h.symm
      · rename_i hclosed
        simp [hclosed]

/-- From `start` until the deferral passes, no component closes and no sole pair may link at
once. -/
structure Quiet (g : Bipartite TurnSubmission CandidateTurn) (start until' : Int) : Prop where
  closes : ∀ t ∈ g.left, until' ≤ micros (linkBoundary g t)
  instant : ∀ t ∈ g.left, ∀ turn, g.component t = ([t], [turn]) →
    ∀ now, start ≤ now → now < until' → instantLink now t turn = false

lemma Quiet.later {start start' until' : Int} (h : Quiet g start until') (hle : start ≤ start') :
    Quiet g start' until' :=
  ⟨h.closes, fun t ht turn hc now hstart => h.instant t ht turn hc now (hle.trans hstart)⟩

lemma Quiet.waits {start until' : Int} (h : Quiet g start until') (hstart : start ≤ now)
    (huntil : now < until') (ht : t ∈ g.left) :
    linkDecision g now t = .wait (linkBoundary g t) := by
  rw [linkDecision_wait_iff ht]
  have hopen : now < micros (linkBoundary g t) := lt_of_lt_of_le huntil (h.closes t ht)
  exact ⟨rfl, hopen, fun turn hc => h.instant t ht turn hc now hstart huntil⟩

/-- A pair that may not link at once when its turn has been observed never will. -/
lemma instantLink_later {turn : CandidateTurn} {now' : Int} (hobserved : turn.observedAt ≤ now)
    (h : instantLink now t turn = false) (hle : now ≤ now') : instantLink now' t turn = false := by
  by_contra hnot
  rw [Bool.not_eq_false] at hnot
  have hfresh : instantLink now t turn = true := by
    unfold instantLink at hnot ⊢
    simp only [Bool.and_eq_true, Bool.not_eq_true', Bool.and_eq_false_iff, bne_iff_ne, ne_eq,
      Option.any_eq_true, decide_eq_true_eq] at hnot ⊢
    obtain ⟨⟨hstate, hstale⟩, anchor, hanchor, -, hafter⟩ := hnot
    refine ⟨⟨hstate, ?_⟩, anchor, hanchor, hobserved, hafter⟩
    rcases hstale with hstale | hstale
    · exact Or.inl hstale
    · right
      cases hstarted : t.sendStartedAt with
      | none => simp [hstarted] at hstale
      | some startedAt =>
        simp only [hstarted, Option.all_some, decide_eq_false_iff_not] at hstale ⊢
        omega
  rw [h] at hfresh
  cases hfresh

/-- The members of a waiting component wait with it. -/
lemma linkDecision_wait_of_mem {t' : TurnSubmission} (ht : t ∈ g.left)
    (ht' : t' ∈ (g.component t).1) (h : linkDecision g now t = .wait (linkBoundary g t)) :
    linkDecision g now t' = .wait (linkBoundary g t') := by
  have hleft := ((Bipartite.component_within ht).lefts t' ht').1
  have hself := (Bipartite.component_frontier ht).2
  obtain ⟨-, hopen, hinstant⟩ := (linkDecision_wait_iff ht).mp h
  rw [linkDecision_wait_iff hleft, linkBoundary_eq_of_mem ht ht']
  refine ⟨rfl, hopen, fun turn hc => ?_⟩
  have hmem : t ∈ (g.component t').1 := (Bipartite.mem_component_of_mem ht ht' (.inl t)).mpr hself
  rw [hc] at hmem
  have hsame : t = t' := List.mem_singleton.mp hmem
  exact hsame ▸ hinstant turn (hsame ▸ hc)

lemma linkDecision_ambiguous {members : List TurnSubmission} (ht : t ∈ g.left)
    (h : linkDecision g now t = .ambiguous members) : t ∈ members := by
  have hself := (Bipartite.component_frontier ht).2
  unfold linkDecision at h
  split at h
  · split at h <;> cases h
  · dsimp only at h
    split at h
    · split at h
      · split at h <;> cases h
      · cases h
    · rename_i members' turns' _ hcomponent
      rw [hcomponent] at hself
      split at h
      · cases h
      · cases h
        exact hself

end Decisions

/-! ### Settling a quiet key -/

section Settling

variable {lib : LinkLibrary} {turns : Constrained observedTurnSchema} {key : LinkKey}
  {s s' : CommandStore} {now : Int} {t : TurnSubmission}
  {g : Bipartite TurnSubmission CandidateTurn} {acc acc' : Settlement}

lemma updateOpen_count {members : List TurnSubmission} {f : TurnSubmission → TurnSubmission}
    {count : Nat} (hupd : updateOpen key s members f = .ok (s', count))
    (ht : t ∈ openSubmissions key s) (hmem : t ∈ members) : 0 < count := by
  obtain ⟨n, hrow, hkey, hopen⟩ := mem_openSubmissions.mp ht
  have hhost : t.hostId = key.hostId := congrArg LinkKey.hostId hkey
  have hid : t.submissionId ∈ members.map TurnSubmission.submissionId := List.mem_map_of_mem hmem
  rw [(updateSubmissions_spec hupd).2.2]
  apply List.length_pos_of_mem (a := (n, t))
  apply Table.mem_select.mpr
  exact ⟨hrow, by simp only [Bool.and_eq_true, beq_iff_eq, List.contains_iff_mem]
                  exact ⟨⟨hhost, hid⟩, hopen⟩⟩

lemma settleDecision_changed_le {decision : LinkDecision}
    (h : settleDecision key now acc decision = .ok acc') : acc.changed ≤ acc'.changed := by
  cases decision with
  | wait boundary =>
    cases h
    exact le_refl _
  | expire only =>
    simp only [settleDecision] at h
    split at h <;> cases h
    exact Nat.le_add_right _ _
  | link only turn boundary =>
    simp only [settleDecision] at h
    split at h <;> cases h
    exact Nat.le_add_right _ _
  | ambiguous members =>
    simp only [settleDecision] at h
    split at h <;> cases h
    exact Nat.le_add_right _ _

/-- A decision about an untouched row counts a change, or it waits. -/
lemma settleDecision_wait (ht : t ∈ (linkGraph lib turns key s).left) (hstore : acc.store = s)
    (h : settleDecision key now acc (linkDecision (linkGraph lib turns key s) now t) = .ok acc')
    (hchanged : acc'.changed = acc.changed) :
    linkDecision (linkGraph lib turns key s) now t =
        .wait (linkBoundary (linkGraph lib turns key s) t) ∧
      acc' = { acc with
        waiting := acc.waiting ++ [linkBoundary (linkGraph lib turns key s) t] } := by
  have hopen : t ∈ openSubmissions key s := ht
  rw [← hstore] at hopen
  cases hdecision : linkDecision (linkGraph lib turns key s) now t with
  | wait boundary =>
    obtain ⟨rfl, -⟩ := (linkDecision_wait_iff ht).mp hdecision
    rw [hdecision] at h
    cases h
    exact ⟨rfl, rfl⟩
  | expire only =>
    obtain rfl := linkDecision_expire hdecision
    rw [hdecision] at h
    simp only [settleDecision] at h
    split at h
    · cases h
    · rename_i hupd
      have hcount := updateOpen_count hupd hopen (List.mem_singleton_self _)
      cases h
      simp only at hchanged
      omega
  | link only turn boundary =>
    obtain ⟨rfl, -⟩ := linkDecision_link ht hdecision
    rw [hdecision] at h
    simp only [settleDecision] at h
    split at h
    · cases h
    · rename_i hupd
      have hcount := updateOpen_count hupd hopen (List.mem_singleton_self _)
      cases h
      simp only at hchanged
      omega
  | ambiguous members =>
    have hmem := linkDecision_ambiguous ht hdecision
    rw [hdecision] at h
    simp only [settleDecision] at h
    split at h
    · cases h
    · rename_i hupd
      have hcount := updateOpen_count hupd hopen hmem
      cases h
      simp only at hchanged
      omega

lemma settleSubmission_changed_le (h : settleSubmission key g now acc t = .ok acc') :
    acc.changed ≤ acc'.changed := by
  unfold settleSubmission at h
  split at h
  · cases h
    exact le_refl _
  · have hle := settleDecision_changed_le h
    split at hle <;> exact hle

/-- What a settlement that changed nothing knows of the submissions it has passed. -/
structure Waiting (g : Bipartite TurnSubmission CandidateTurn) (now : Int) (acc : Settlement)
    (t : TurnSubmission) : Prop where
  decision : linkDecision g now t = .wait (linkBoundary g t)
  boundary : linkBoundary g t ∈ acc.waiting

lemma settleSubmission_waiting (ht : t ∈ (linkGraph lib turns key s).left)
    (hstore : acc.store = s)
    (hvisited : ∀ t' ∈ acc.visited, Waiting (linkGraph lib turns key s) now acc t')
    (h : settleSubmission key (linkGraph lib turns key s) now acc t = .ok acc')
    (hchanged : acc'.changed = acc.changed) :
    acc'.store = s ∧ acc.waiting ⊆ acc'.waiting ∧ Waiting (linkGraph lib turns key s) now acc' t ∧
      ∀ t' ∈ acc'.visited, Waiting (linkGraph lib turns key s) now acc' t' := by
  unfold settleSubmission at h
  split at h
  · rename_i hseen
    cases h
    exact ⟨hstore, List.Subset.refl _, hvisited t hseen, hvisited⟩
  · have hwait := settleDecision_wait ht (by split <;> exact hstore) h
      (by split <;> exact hchanged)
    obtain ⟨hdecision, rfl⟩ := hwait
    have hlater : ∀ t' ∈ acc.visited, linkBoundary (linkGraph lib turns key s) t' ∈
        acc.waiting ++ [linkBoundary (linkGraph lib turns key s) t] := fun t' ht' =>
      List.mem_append_left _ (hvisited t' ht').boundary
    split
    · exact ⟨hstore, List.subset_append_left _ _, ⟨hdecision, List.mem_append_right _ (by simp)⟩,
        fun t' ht' => ⟨(hvisited t' ht').decision, hlater t' ht'⟩⟩
    · refine ⟨hstore, List.subset_append_left _ _, ⟨hdecision, List.mem_append_right _ (by simp)⟩,
        fun t' ht' => ?_⟩
      rcases List.mem_append.mp ht' with hold | hnew
      · exact ⟨(hvisited t' hold).decision, hlater t' hold⟩
      · exact ⟨linkDecision_wait_of_mem ht hnew hdecision,
          List.mem_append_right _ (by simp [linkBoundary_eq_of_mem ht hnew])⟩

lemma settleLoop_waiting {l : List TurnSubmission}
    (hl : ∀ t ∈ l, t ∈ (linkGraph lib turns key s).left) (hstore : acc.store = s)
    (hvisited : ∀ t' ∈ acc.visited, Waiting (linkGraph lib turns key s) now acc t')
    (h : l.foldlM (settleSubmission key (linkGraph lib turns key s) now) acc = .ok acc')
    (hchanged : acc'.changed = acc.changed) :
    acc'.store = s ∧ acc.waiting ⊆ acc'.waiting ∧
      ∀ t ∈ l, Waiting (linkGraph lib turns key s) now acc' t := by
  induction l generalizing acc with
  | nil =>
    cases h
    exact ⟨hstore, List.Subset.refl _, by simp⟩
  | cons t l ih =>
    rw [List.foldlM_cons] at h
    cases hstep : settleSubmission key (linkGraph lib turns key s) now acc t with
    | error e =>
      rw [hstep] at h
      cases h
    | ok acc₁ =>
      rw [hstep] at h
      have hfirst := settleSubmission_changed_le hstep
      have hrest : acc₁.changed ≤ acc'.changed :=
        foldlM_invariant (P := fun acc : Settlement => acc₁.changed ≤ acc.changed)
          (fun _ _ _ _ hle hstep => hle.trans (settleSubmission_changed_le hstep)) (le_refl _) h
      obtain ⟨hstore₁, hsub, hwait, hvisited₁⟩ :=
        settleSubmission_waiting (hl t (by simp)) hstore hvisited hstep (by omega)
      obtain ⟨hstore', hsub', hwaits⟩ := ih (fun t ht => hl t (List.mem_cons_of_mem _ ht)) hstore₁
        hvisited₁ h (by omega)
      refine ⟨hstore', List.Subset.trans hsub hsub', ?_⟩
      rw [List.forall_mem_cons]
      exact ⟨⟨hwait.decision, hsub' hwait.boundary⟩, hwaits⟩

/-- A settlement that changes nothing leaves every component waiting, and the deferral it
reports is their first boundary. -/
theorem settleSubmissionLinks_unchanged {next : Option Int}
    (h : settleSubmissionLinks lib turns key s now = .ok (s', 0, next)) :
    s' = s ∧ ∀ t ∈ (linkGraph lib turns key s).left,
      linkDecision (linkGraph lib turns key s) now t =
          .wait (linkBoundary (linkGraph lib turns key s) t) ∧
        ∃ e, next = some e ∧ e ≤ linkBoundary (linkGraph lib turns key s) t := by
  unfold settleSubmissionLinks at h
  dsimp only at h
  split at h
  · cases h
  · rename_i acc hfold
    simp only [Except.ok.injEq, Prod.mk.injEq] at h
    obtain ⟨rfl, hchanged, rfl⟩ := h
    have hfirst : (⟨s, 0, [], []⟩ : Settlement).store = s := rfl
    have hnone : ∀ t' ∈ (⟨s, 0, [], []⟩ : Settlement).visited,
        Waiting (linkGraph lib turns key s) now ⟨s, 0, [], []⟩ t' := by
      intro t' ht'
      cases ht'
    obtain ⟨hstore, -, hwaits⟩ :=
      settleLoop_waiting (fun _ ht => ht) hfirst hnone hfold hchanged
    refine ⟨hstore, fun t ht => ⟨(hwaits t ht).decision, ?_⟩⟩
    have hmem := (hwaits t ht).boundary
    cases hmin : acc.waiting.min? with
    | none =>
      rw [List.min?_eq_none_iff.mp hmin] at hmem
      simp at hmem
    | some e => exact ⟨e, rfl, (List.min?_eq_some_iff.mp hmin).2 _ hmem⟩

lemma settleLoop_waits (key : LinkKey) (acc : Settlement) {l : List TurnSubmission}
    (hl : ∀ t ∈ l, ∃ boundary, linkDecision g now t = .wait boundary) :
    ∃ acc', l.foldlM (settleSubmission key g now) acc = .ok acc' ∧ acc'.store = acc.store ∧
      acc'.changed = acc.changed := by
  induction l generalizing acc with
  | nil => exact ⟨acc, rfl, rfl, rfl⟩
  | cons t l ih =>
    have hstep : ∃ acc₁, settleSubmission key g now acc t = .ok acc₁ ∧ acc₁.store = acc.store ∧
        acc₁.changed = acc.changed := by
      obtain ⟨boundary, hwait⟩ := hl t (by simp)
      unfold settleSubmission
      split
      · exact ⟨acc, rfl, rfl, rfl⟩
      · rw [hwait]
        refine ⟨_, rfl, ?_, ?_⟩
        · split <;> rfl
        · split <;> rfl
    obtain ⟨acc₁, hok, hstore, hchanged⟩ := hstep
    obtain ⟨acc', hok', hstore', hchanged'⟩ := ih acc₁
      (fun t ht => hl t (List.mem_cons_of_mem _ ht))
    refine ⟨acc', ?_, hstore'.trans hstore, hchanged'.trans hchanged⟩
    rw [List.foldlM_cons, hok]
    exact hok'

/-- A quiet key has nothing to settle. -/
theorem settleSubmissionLinks_quiet {start until' : Int}
    (h : Quiet (linkGraph lib turns key s) start until') (hstart : start ≤ now)
    (huntil : now < until') :
    ∃ next, settleSubmissionLinks lib turns key s now = .ok (s, 0, next) := by
  obtain ⟨acc, hok, hstore, hchanged⟩ := settleLoop_waits key ⟨s, 0, [], []⟩
    (l := (linkGraph lib turns key s).left) (fun t ht => ⟨_, h.waits hstart huntil ht⟩)
  refine ⟨acc.waiting.min?, ?_⟩
  unfold settleSubmissionLinks
  simp only [hok]
  rw [hstore, hchanged]

end Settling

/-! ### A sweep with the cache -/

section Cache

variable {backoff : List (LinkKey × Int)} {k k' : LinkKey} {e now : Int}

lemma lookup_filter_fst (p : LinkKey → Bool) (k : LinkKey) :
    (backoff.filter (fun e => p e.1)).lookup k = if p k then backoff.lookup k else none := by
  induction backoff with
  | nil => simp
  | cons d backoff ih =>
    obtain ⟨k₀, e⟩ := d
    rw [List.filter_cons]
    by_cases hk : k = k₀
    · subst hk
      cases hp : p k with
      | true => simp
      | false => simp [ih, hp]
    · have hne : (k == k₀) = false := by simpa using hk
      cases hp : p k₀ with
      | true => simp [List.lookup_cons, hne, ih]
      | false => simp [List.lookup_cons, hne, ih]

lemma lookup_rearm (k k' : LinkKey) :
    (rearm backoff k).lookup k' = if k' = k then none else backoff.lookup k' := by
  unfold rearm
  rw [lookup_filter_fst (fun x => x != k)]
  by_cases h : k' = k <;> simp [h]

lemma lookup_of_rearm (h : (rearm backoff k).lookup k' = some e) :
    k' ≠ k ∧ backoff.lookup k' = some e := by
  rw [lookup_rearm] at h
  split at h
  · cases h
  · exact ⟨‹_›, h⟩

lemma lookup_of_pruneBackoff {host : Option String} {active : List LinkKey}
    (h : (pruneBackoff backoff host active).lookup k = some e) : backoff.lookup k = some e := by
  unfold pruneBackoff at h
  rw [lookup_filter_fst (fun x => !(host.all (fun h => x.hostId == h)) || active.contains x)] at h
  split at h
  · exact h
  · cases h

lemma lookup_of_componentIsDue (h : (componentIsDue backoff k now).2.lookup k' = some e) :
    backoff.lookup k' = some e := by
  unfold componentIsDue at h
  split at h
  · exact h
  · split at h
    · exact h
    · exact (lookup_of_rearm h).2

lemma lookup_componentIsDue_other (hne : k' ≠ k) :
    (componentIsDue backoff k now).2.lookup k' = backoff.lookup k' := by
  unfold componentIsDue
  split
  · rfl
  · split
    · rfl
    · simp [lookup_rearm, hne]

lemma lookup_backOff (next : Option Int) :
    (backOff backoff k next now).lookup k' = if k' = k then
      some (next.elim (now + micros submissionLinkEmptyComponentRecheckSeconds) micros)
    else backoff.lookup k' := by
  unfold backOff
  by_cases h : k' = k
  · simp [h]
  · have hne : (k' == k) = false := by simpa using h
    simp [List.lookup_cons, hne, lookup_rearm, h]

lemma componentIsDue_eq_false_iff :
    (componentIsDue backoff k now).1 = false ↔ ∃ e, backoff.lookup k = some e ∧ now < e := by
  unfold componentIsDue
  split
  · rename_i hnone
    simp [hnone]
  · rename_i d hsome
    split
    · rename_i hlt
      simp [hsome, hlt]
    · rename_i hge
      simp [hsome, hge]

end Cache

section Sweeps

variable {lib : LinkLibrary} {turns : Constrained observedTurnSchema} {key : LinkKey}
  {s : CommandStore} {now : Int}

/-- Every recorded deferral finds the graph of its key quiet until it passes. -/
def BackoffQuiet (lib : LinkLibrary) (turns : Constrained observedTurnSchema) (clock : Int)
    (acc : CommandStore × List (LinkKey × Int)) : Prop :=
  ∀ key until', acc.2.lookup key = some until' →
    Quiet (linkGraph lib turns key acc.1) clock until'

/-- No candidate of a key has been observed in the future of a sweep. -/
def ObservedBy (lib : LinkLibrary) (turns : Constrained observedTurnSchema) (now : Int)
    (s : CommandStore) (key : LinkKey) : Prop :=
  ∀ c ∈ submissionLinkCandidateTurns lib turns key s, c.observedAt ≤ now

lemma quiet_of_unchanged {next : Option Int} {s' : CommandStore} {until' : Int}
    (h : settleSubmissionLinks lib turns key s now = .ok (s', 0, next))
    (hobserved : ObservedBy lib turns now s key) (hnext : ∀ e, next = some e → until' = micros e) :
    Quiet (linkGraph lib turns key s) now until' := by
  obtain ⟨-, hwaits⟩ := settleSubmissionLinks_unchanged h
  constructor
  · intro t ht
    obtain ⟨-, e, he, hle⟩ := hwaits t ht
    rw [hnext e he]
    unfold micros
    omega
  · intro t ht turn hcomponent now' hstart huntil
    obtain ⟨hdecision, -⟩ := hwaits t ht
    have hright := ((Bipartite.component_within ht).rights turn (by simp [hcomponent])).1
    have hinstant := ((linkDecision_wait_iff ht).mp hdecision).2.2 turn hcomponent
    exact instantLink_later (hobserved turn hright) hinstant hstart

/-- One due key: the cache changes no row, and what it records is quiet. -/
lemma settleDueKey_backoff {acc : CommandStore × List (LinkKey × Int)}
    (hquiet : BackoffQuiet lib turns (micros now) acc)
    (hobserved : (componentIsDue acc.2 key (micros now)).1 = true →
      ObservedBy lib turns (micros now) acc.1 key) (other : List (LinkKey × Int)) :
    (settleDueKey lib true turns now acc key).map Prod.fst =
        (settleDueKey lib false turns now (acc.1, other) key).map Prod.fst ∧
      ∀ acc', settleDueKey lib true turns now acc key = .ok acc' →
        BackoffQuiet lib turns (micros now) acc' := by
  cases hdue : (componentIsDue acc.2 key (micros now)).1 with
  | false =>
    obtain ⟨until', hlookup, hlt⟩ := componentIsDue_eq_false_iff.mp hdue
    obtain ⟨next, hsettle⟩ :=
      settleSubmissionLinks_quiet (hquiet key until' hlookup) (le_refl _) hlt
    have hskip : settleDueKey lib true turns now acc key = .ok acc := by
      simp [settleDueKey, hdue]
    constructor
    · rw [hskip]
      simp [settleDueKey, hsettle, Except.map]
    · intro acc' h
      rw [hskip] at h
      cases h
      exact hquiet
  | true =>
    cases hsettle : settleSubmissionLinks lib turns key acc.1 (micros now) with
    | error e => simp [settleDueKey, hdue, hsettle, Except.map]
    | ok p =>
      obtain ⟨s', changed, next⟩ := p
      have hothers : ∀ k e, k ≠ key →
          (componentIsDue acc.2 key (micros now)).2.lookup k = some e →
          Quiet (linkGraph lib turns k s') (micros now) e := by
        intro k e hne hlookup
        rw [linkGraph_settle_other hsettle hne]
        exact hquiet k e (lookup_of_componentIsDue hlookup)
      constructor
      · by_cases hchanged : changed = 0 <;>
          simp [settleDueKey, hdue, hsettle, Except.map, hchanged]
      · intro acc' h k e hlookup
        by_cases hchanged : changed = 0
        · subst hchanged
          have hrecorded : settleDueKey lib true turns now acc key = .ok (s',
              backOff (componentIsDue acc.2 key (micros now)).2 key next (micros now)) := by
            simp [settleDueKey, hdue, hsettle]
          rw [hrecorded] at h
          cases h
          by_cases hk : k = key
          · subst hk
            rw [lookup_backOff, if_pos rfl, Option.some.injEq] at hlookup
            obtain ⟨rfl, -⟩ := settleSubmissionLinks_unchanged hsettle
            exact quiet_of_unchanged hsettle (hobserved hdue)
              (fun d hd => by rw [← hlookup, hd]; rfl)
          · rw [lookup_backOff, if_neg hk] at hlookup
            exact hothers k e hk hlookup
        · have hrearmed : settleDueKey lib true turns now acc key = .ok (s',
              rearm (componentIsDue acc.2 key (micros now)).2 key) := by
            simp [settleDueKey, hdue, hsettle, hchanged]
          rw [hrearmed] at h
          cases h
          obtain ⟨hk, hlookup⟩ := lookup_of_rearm hlookup
          exact hothers k e hk hlookup

lemma settleDueKey_lookup_other {cached : Bool} {acc acc' : CommandStore × List (LinkKey × Int)}
    {k : LinkKey} (h : settleDueKey lib cached turns now acc key = .ok acc') (hne : k ≠ key) :
    acc'.2.lookup k = acc.2.lookup k := by
  unfold settleDueKey at h
  dsimp only at h
  split at h
  · cases h
    rfl
  · split at h
    · cases h
    · split at h <;> cases h
      · rw [lookup_rearm, if_neg hne, lookup_componentIsDue_other hne]
      · rw [lookup_backOff, if_neg hne, lookup_componentIsDue_other hne]

lemma settleDueKey_graph_other {cached : Bool} {acc acc' : CommandStore × List (LinkKey × Int)}
    {k : LinkKey} (h : settleDueKey lib cached turns now acc key = .ok acc') (hne : k ≠ key) :
    linkGraph lib turns k acc'.1 = linkGraph lib turns k acc.1 := by
  unfold settleDueKey at h
  dsimp only at h
  split at h
  · cases h
    rfl
  · split at h
    · cases h
    · rename_i hsettle
      split at h <;> cases h <;> exact linkGraph_settle_other hsettle hne

lemma componentIsDue_congr {backoff other : List (LinkKey × Int)}
    (h : backoff.lookup key = other.lookup key) :
    (componentIsDue backoff key now).1 = (componentIsDue other key now).1 := by
  rw [Bool.eq_iff_iff, ← not_iff_not]
  simp only [Bool.not_eq_true, componentIsDue_eq_false_iff, h]

/-- The due keys of a sweep, each settled on the graph it had at first. -/
theorem settleDueKeys_backoff {keys : List LinkKey} (hnodup : keys.Nodup)
    {acc : CommandStore × List (LinkKey × Int)} (hquiet : BackoffQuiet lib turns (micros now) acc)
    (hobserved : ∀ k ∈ keys, (componentIsDue acc.2 k (micros now)).1 = true →
      ObservedBy lib turns (micros now) acc.1 k) (other : List (LinkKey × Int)) :
    (keys.foldlM (settleDueKey lib true turns now) acc).map Prod.fst =
        (keys.foldlM (settleDueKey lib false turns now) (acc.1, other)).map Prod.fst ∧
      ∀ acc', keys.foldlM (settleDueKey lib true turns now) acc = .ok acc' →
        BackoffQuiet lib turns (micros now) acc' := by
  induction keys generalizing acc other with
  | nil =>
    refine ⟨rfl, fun acc' h => ?_⟩
    cases h
    exact hquiet
  | cons k keys ih =>
    have hk := List.nodup_cons.mp hnodup
    obtain ⟨hsame, hstep⟩ := settleDueKey_backoff hquiet (hobserved k (by simp)) other
    rw [List.foldlM_cons, List.foldlM_cons]
    cases htrue : settleDueKey lib true turns now acc k with
    | error e =>
      rw [htrue] at hsame
      cases hfalse : settleDueKey lib false turns now (acc.1, other) k with
      | error e' =>
        rw [hfalse] at hsame
        cases hsame
        exact ⟨rfl, fun acc' h => by cases h⟩
      | ok acc₂ =>
        rw [hfalse] at hsame
        cases hsame
    | ok acc₁ =>
      rw [htrue] at hsame
      cases hfalse : settleDueKey lib false turns now (acc.1, other) k with
      | error e' =>
        rw [hfalse] at hsame
        cases hsame
      | ok acc₂ =>
        rw [hfalse] at hsame
        have hstore : acc₁.1 = acc₂.1 := by
          injection hsame
        have hrest : ∀ k' ∈ keys, (componentIsDue acc₁.2 k' (micros now)).1 = true →
            ObservedBy lib turns (micros now) acc₁.1 k' := by
          intro k' hk' hdue
          have hne : k' ≠ k := fun he => hk.1 (he ▸ hk')
          rw [componentIsDue_congr (settleDueKey_lookup_other htrue hne)] at hdue
          have hold := hobserved k' (List.mem_cons_of_mem k hk') hdue
          have hright := congrArg Bipartite.right (settleDueKey_graph_other htrue hne)
          intro c hc
          have hc' : c ∈ (linkGraph lib turns k' acc₁.1).right := hc
          rw [hright] at hc'
          exact hold c hc'
        have hnext := ih hk.2 (hstep acc₁ htrue) hrest acc₂.2
        rw [hstore] at hnext
        exact hnext

/-- What the sweep records for one of its keys, and on which graph. -/
lemma settleDueKeys_visit {keys : List LinkKey} (hnodup : keys.Nodup)
    {acc acc' : CommandStore × List (LinkKey × Int)}
    (h : keys.foldlM (settleDueKey lib true turns now) acc = .ok acc') {k : LinkKey}
    (hk : k ∈ keys) :
    ∃ acc₀ acc₁, settleDueKey lib true turns now acc₀ k = .ok acc₁ ∧
      linkGraph lib turns k acc₀.1 = linkGraph lib turns k acc.1 ∧
      acc₀.2.lookup k = acc.2.lookup k ∧ acc'.2.lookup k = acc₁.2.lookup k := by
  induction keys generalizing acc with
  | nil => cases hk
  | cons k₀ keys ih =>
    have hnot := List.nodup_cons.mp hnodup
    rw [List.foldlM_cons] at h
    cases hstep : settleDueKey lib true turns now acc k₀ with
    | error e =>
      rw [hstep] at h
      cases h
    | ok acc₁ =>
      rw [hstep] at h
      rcases List.mem_cons.mp hk with rfl | hk
      · have hkeep : acc'.2.lookup k = acc₁.2.lookup k := by
          refine foldlM_invariant
            (P := fun a : CommandStore × List (LinkKey × Int) => a.2.lookup k = acc₁.2.lookup k)
            ?_ rfl h
          intro a k' a' hk' ha hstep'
          have hne : k ≠ k' := fun he => hnot.1 (he ▸ hk')
          rw [settleDueKey_lookup_other hstep' hne, ha]
        exact ⟨acc, acc₁, hstep, rfl, rfl, hkeep⟩
      · have hne : k ≠ k₀ := fun he => hnot.1 (he ▸ hk)
        obtain ⟨a, a', hvisit, hgraph, hlookup, hfinal⟩ := ih hnot.2 h hk
        exact ⟨a, a', hvisit, hgraph.trans (settleDueKey_graph_other hstep hne),
          hlookup.trans (settleDueKey_lookup_other hstep hne), hfinal⟩

/-- A key without candidates is deferred at most to the close of any of its windows. -/
lemma settleDueKey_recheck {acc acc' : CommandStore × List (LinkKey × Int)} {t : TurnSubmission}
    (h : settleDueKey lib true turns now acc key = .ok acc')
    (hdue : (componentIsDue acc.2 key (micros now)).1 = true)
    (hnone : (linkGraph lib turns key acc.1).right = [])
    (ht : t ∈ (linkGraph lib turns key acc.1).left) {e : Int}
    (hlookup : acc'.2.lookup key = some e) : e ≤ micros t.linkExpiresAt := by
  unfold settleDueKey at h
  simp only [hdue, Bool.not_true, Bool.and_false, Bool.false_eq_true, if_false] at h
  split at h
  · cases h
  · rename_i s' changed next hsettle
    split at h
    · cases h
      exact absurd rfl (lookup_of_rearm hlookup).1
    · rename_i hchanged
      cases h
      rw [lookup_backOff, if_pos rfl, Option.some.injEq] at hlookup
      have hzero : changed = 0 := not_not.mp hchanged
      subst hzero
      obtain ⟨-, d, rfl, hle⟩ := (settleSubmissionLinks_unchanged hsettle).2 t ht
      have hisolated : (linkGraph lib turns key acc.1).ofLeft t = [] := by
        simp [Bipartite.ofLeft, hnone]
      have hboundary : linkBoundary (linkGraph lib turns key acc.1) t = t.linkExpiresAt := by
        simp [linkBoundary, componentBoundary, Bipartite.component_of_isolated hisolated]
      rw [hboundary] at hle
      simp only [Option.elim_some] at hlookup
      rw [← hlookup]
      unfold micros
      omega

/-- Without a deferral that is still running, the cache skips nothing. -/
lemma settleDueKeys_due (lib : LinkLibrary) (turns : Constrained observedTurnSchema)
    {keys : List LinkKey} (hnodup : keys.Nodup)
    (acc : CommandStore × List (LinkKey × Int))
    (hdue : ∀ k ∈ keys, (componentIsDue acc.2 k (micros now)).1 = true)
    (other : List (LinkKey × Int)) :
    (keys.foldlM (settleDueKey lib true turns now) acc).map Prod.fst =
      (keys.foldlM (settleDueKey lib false turns now) (acc.1, other)).map Prod.fst := by
  induction keys generalizing acc other with
  | nil => rfl
  | cons k keys ih =>
    have hk := List.nodup_cons.mp hnodup
    have hfirst := hdue k (by simp)
    rw [List.foldlM_cons, List.foldlM_cons]
    cases hsettle : settleSubmissionLinks lib turns k acc.1 (micros now) with
    | error e =>
      have htrue : settleDueKey lib true turns now acc k = .error e := by
        simp [settleDueKey, hfirst, hsettle]
      have hfalse : settleDueKey lib false turns now (acc.1, other) k = .error e := by
        simp [settleDueKey, hsettle]
      rw [htrue, hfalse]
      rfl
    | ok p =>
      have htrue : ∃ backoff, settleDueKey lib true turns now acc k = .ok (p.1, backoff) := by
        by_cases hchanged : p.2.1 = 0 <;> simp [settleDueKey, hfirst, hsettle, hchanged]
      have hfalse : ∃ backoff, settleDueKey lib false turns now (acc.1, other) k =
          .ok (p.1, backoff) := by
        by_cases hchanged : p.2.1 = 0 <;> simp [settleDueKey, hsettle, hchanged]
      obtain ⟨backoff, htrue⟩ := htrue
      obtain ⟨backoff', hfalse⟩ := hfalse
      rw [htrue, hfalse]
      refine ih hk.2 (p.1, backoff) (fun k' hk' => ?_) backoff'
      have hne : k' ≠ k := fun he => hk.1 (he ▸ hk')
      rw [componentIsDue_congr (settleDueKey_lookup_other htrue hne)]
      exact hdue k' (List.mem_cons_of_mem k hk')

end Sweeps

/-! ### Runs with and without the cache -/

/-- The clock of a call, in microseconds. -/
def CommandCall.time? : CommandCall → Option Int
  | .reserve call => some (micros call.now)
  | .abandon _ _ now => some (micros now)
  | .replay call => some (micros call.now)
  | .markSendStarted call => some (micros call.now)
  | .recordSendQueued _ _ _ now => some (micros now)
  | .finishQueued _ _ _ now => some (micros now)
  | .finishUnverifiedQueued _ _ _ now => some (micros now)
  | .recoverUnresolved _ _ _ now => some (micros now)
  | .finish call => some (micros call.now)
  | .cleanup call => some (micros call.now)
  | .rewriteSubmissions _ => none

def LinkCall.time? : LinkCall → Option Int
  | .command call => call.time?
  | .observe _ _ _ now => some now
  | .settleRequest _ _ now => some (micros now)
  | .sweep _ now => some (micros now)
  | .sweepExpired _ now => some (micros now)
  | .cancel _ _ now => some (micros now)

def LinkCall.isSweep : LinkCall → Bool
  | .sweep _ _ => true
  | _ => false

/-- No call of a run is later than a clock. -/
def NotAfter (calls : List LinkCall) (clock : Int) : Prop :=
  ∀ call ∈ calls, ∀ time ∈ call.time?, time ≤ clock

instance (calls : List LinkCall) (clock : Int) : Decidable (NotAfter calls clock) :=
  inferInstanceAs (Decidable (∀ call ∈ calls, ∀ time ∈ call.time?, time ≤ clock))

/-- A sweep of a host settles a key: it has begun and is not skipped. -/
def LinkState.Settles (s : LinkState) (hostId : Option String) (now : Int) (key : LinkKey) :
    Prop :=
  key ∈ dueLinkKeys s.commands hostId now ∧ (componentIsDue s.backoff key (micros now)).1 = true

/-- The state whose graphs the recorded deferrals are about: after the due keys of a sweep, or
before any other call. -/
def LinkState.settled (lib : LinkLibrary) (s : LinkState) : LinkCall → LinkState
  | .sweep hostId now => (settleDueSubmissionLinks lib true s hostId now).toOption.getD s
  | _ => s

/-- What a call must not do to a key with a recorded deferral, and what a sweep must find. -/
structure StepUndisturbed (commandLib : CommandLibrary) (lib : LinkLibrary) (s : LinkState)
    (call : LinkCall) : Prop where
  /-- An event that changes the graph of a deferred key leaves it quiet. -/
  quiet : ∀ key until', (linkStep commandLib lib true s call).backoff.lookup key = some until' →
    linkGraph lib (linkStep commandLib lib true s call).turns key
        (linkStep commandLib lib true s call).commands ≠
      linkGraph lib (s.settled lib call).turns key (s.settled lib call).commands →
    ∀ time ∈ call.time?, Quiet (linkGraph lib (linkStep commandLib lib true s call).turns key
      (linkStep commandLib lib true s call).commands) time until'
  /-- A sweep sees no candidate that is observed later than it. -/
  observed : ∀ hostId now key, call = .sweep hostId now → s.Settles hostId now key →
    ObservedBy lib s.turns (micros now) s.commands key
  /-- A window of a key without candidates closes within the bounded deferral. -/
  recheck : ∀ hostId now key, call = .sweep hostId now → s.Settles hostId now key →
    submissionLinkCandidateTurns lib s.turns key s.commands = [] →
    ∃ t ∈ openSubmissions key s.commands,
      t.linkExpiresAt ≤ now + submissionLinkEmptyComponentRecheckSeconds

/-- Runs at nondecreasing times in which nothing disturbs a deferred key. -/
def Undisturbed (commandLib : CommandLibrary) (lib : LinkLibrary) : List LinkCall → Prop
  | [] => True
  | call :: earlier => Undisturbed commandLib lib earlier ∧
    (∀ time ∈ call.time?, NotAfter earlier time) ∧
    StepUndisturbed commandLib lib (linkRun commandLib lib true earlier) call

/-- The cache changes no outcome: with one sweep after the last deferral the ledger is what it
is without the cache, a skipped key has nothing to settle, and a key that was settled without
candidates is settled again by the first sweep after the bounded deferral. -/
structure BackoffLaw (commandLib : CommandLibrary) (lib : LinkLibrary) (calls : List LinkCall) :
    Prop where
  outcome : ∀ now, NotAfter calls (micros now) →
    (∀ e ∈ (linkRun commandLib lib true calls).backoff, e.2 ≤ micros now) →
    (linkRun commandLib lib true (.sweep none now :: calls)).commands.submissions =
      (linkRun commandLib lib false (.sweep none now :: calls)).commands.submissions
  skipped : ∀ now key, NotAfter calls (micros now) →
    (componentIsDue (linkRun commandLib lib true calls).backoff key (micros now)).1 = false →
    ∃ next, settleSubmissionLinks lib (linkRun commandLib lib true calls).turns key
      (linkRun commandLib lib true calls).commands (micros now) =
        .ok ((linkRun commandLib lib true calls).commands, 0, next)
  recheck : ∀ between earlier hostId hostId' now now' key,
    calls = between ++ .sweep hostId now :: earlier → (∀ call ∈ between, call.isSweep = false) →
    (linkRun commandLib lib true earlier).Settles hostId now key →
    submissionLinkCandidateTurns lib (linkRun commandLib lib true earlier).turns key
      (linkRun commandLib lib true earlier).commands = [] →
    now + submissionLinkEmptyComponentRecheckSeconds ≤ now' →
    key ∈ dueLinkKeys (linkRun commandLib lib true calls).commands hostId' now' →
    (linkRun commandLib lib true calls).Settles hostId' now' key

section Runs

variable {commandLib : CommandLibrary} {lib : LinkLibrary} {s u s' : LinkState}
  {host : Option String} {now : Int}

lemma componentIsDue_pruneBackoff {backoff : List (LinkKey × Int)} {active : List LinkKey}
    {key : LinkKey} (hkey : key ∈ active) :
    (componentIsDue (pruneBackoff backoff host active) key (micros now)).1 =
      (componentIsDue backoff key (micros now)).1 := by
  apply componentIsDue_congr
  unfold pruneBackoff
  rw [lookup_filter_fst (fun x => !(host.all (fun h => x.hostId == h)) || active.contains x)]
  simp [hkey]

lemma settleDueSubmissionLinks_commands (cached : Bool) (s : LinkState) :
    (settleDueSubmissionLinks lib cached s host now).map LinkState.commands =
      ((dueLinkKeys s.commands host now).foldlM (settleDueKey lib cached s.turns now)
        (s.commands, pruneBackoff s.backoff host (dueLinkKeys s.commands host now))).map
          Prod.fst := by
  unfold settleDueSubmissionLinks
  dsimp only
  split
  · rename_i hfold
    rw [hfold]
    rfl
  · rename_i hfold
    rw [hfold]
    rfl

/-- A sweep writes what its settling half and the expiry of that write. -/
lemma sweep_commands_congr (hcommands : s.commands = u.commands)
    (h : (settleDueSubmissionLinks lib true s host now).map LinkState.commands =
      (settleDueSubmissionLinks lib false u host now).map LinkState.commands) :
    (linkStep commandLib lib true s (.sweep host now)).commands =
      (linkStep commandLib lib false u (.sweep host now)).commands := by
  simp only [linkStep, sweepSubmissionLinks]
  cases hs : settleDueSubmissionLinks lib true s host now with
  | error e =>
    rw [hs] at h
    cases hu : settleDueSubmissionLinks lib false u host now with
    | error e' => exact hcommands
    | ok l' =>
      rw [hu] at h
      cases h
  | ok l =>
    rw [hs] at h
    cases hu : settleDueSubmissionLinks lib false u host now with
    | error e' =>
      rw [hu] at h
      cases h
    | ok l' =>
      rw [hu] at h
      have hstore : l.commands = l'.commands := by
        injection h
      simp only [hstore]
      cases expireTurnSubmissions l'.commands host now with
      | error e => exact hcommands
      | ok commands => rfl

/-- The settling half of a sweep, with the cache and without. -/
lemma settleDueSubmissionLinks_backoff (hcommands : s.commands = u.commands)
    (hturns : s.turns = u.turns)
    (hquiet : BackoffQuiet lib s.turns (micros now) (s.commands, s.backoff))
    (hobserved : ∀ key, s.Settles host now key →
      ObservedBy lib s.turns (micros now) s.commands key) :
    (settleDueSubmissionLinks lib true s host now).map LinkState.commands =
        (settleDueSubmissionLinks lib false u host now).map LinkState.commands ∧
      ∀ s', settleDueSubmissionLinks lib true s host now = .ok s' →
        BackoffQuiet lib s'.turns (micros now) (s'.commands, s'.backoff) := by
  have hpruned : BackoffQuiet lib s.turns (micros now)
      (s.commands, pruneBackoff s.backoff host (dueLinkKeys s.commands host now)) :=
    fun key until' hlookup => hquiet key until' (lookup_of_pruneBackoff hlookup)
  have hkeys : ∀ k ∈ dueLinkKeys s.commands host now,
      (componentIsDue (pruneBackoff s.backoff host (dueLinkKeys s.commands host now)) k
        (micros now)).1 = true → ObservedBy lib s.turns (micros now) s.commands k := by
    intro k hk hdue
    rw [componentIsDue_pruneBackoff hk] at hdue
    exact hobserved k ⟨hk, hdue⟩
  obtain ⟨hsame, hresult⟩ := settleDueKeys_backoff (nodup_dueLinkKeys s.commands host now) hpruned
    hkeys (pruneBackoff u.backoff host (dueLinkKeys u.commands host now))
  rw [← hcommands] at hsame
  constructor
  · rw [settleDueSubmissionLinks_commands, settleDueSubmissionLinks_commands, ← hcommands,
      ← hturns]
    exact hsame
  · intro s' h
    unfold settleDueSubmissionLinks at h
    dsimp only at h
    split at h
    · cases h
    · rename_i hfold
      cases h
      exact hresult _ hfold

lemma linkStep_lookup (call : LinkCall) (hcall : call.isSweep = false) {key : LinkKey} {e : Int}
    (h : (linkStep commandLib lib true s call).backoff.lookup key = some e) :
    s.backoff.lookup key = some e := by
  have hcommit : ∀ (s₁ : LinkState) body, (s₁.commit body).backoff = s₁.backoff := by
    intro s₁ body
    cases body <;> rfl
  cases call with
  | command c =>
    cases c with
    | markSendStarted call =>
      simp only [linkStep] at h
      split at h
      · exact (lookup_of_rearm h).2
      · exact h
    | _ =>
      simp only [linkStep] at h
      exact h
  | observe turns rearmed settled now =>
    have hrearmed : (rearmed.elim s.backoff (rearm s.backoff)).lookup key = some e := by
      cases settled with
      | none => exact h
      | some key =>
        simp only [linkStep, hcommit] at h
        exact h
    cases rearmed with
    | none => exact hrearmed
    | some key => exact (lookup_of_rearm hrearmed).2
  | settleRequest hostId requestId now =>
    simp only [linkStep, hcommit] at h
    exact h
  | sweep hostId now => cases hcall
  | sweepExpired hostId now =>
    simp only [linkStep, hcommit] at h
    exact h
  | cancel hostId requestId now =>
    simp only [linkStep, hcommit] at h
    exact h

lemma commit_commands_congr {body body' : Except StoreError CommandStore}
    (hcommands : s.commands = u.commands) (hbody : body = body') :
    (s.commit body).commands = (u.commit body').commands := by
  subst hbody
  cases body with
  | error e => exact hcommands
  | ok commands => rfl

/-- Outside the sweeps the ledger does not see the cache. -/
lemma linkStep_commands_congr (call : LinkCall) (hcall : call.isSweep = false)
    (hcommands : s.commands = u.commands) (hturns : s.turns = u.turns) :
    (linkStep commandLib lib true s call).commands =
      (linkStep commandLib lib false u call).commands := by
  cases call with
  | command c =>
    cases c with
    | rewriteSubmissions submissions => simpa only [linkStep] using hcommands
    | _ => simp only [linkStep, hcommands]
  | observe turns rearmed settled now =>
    cases settled with
    | none => exact hcommands
    | some key =>
      simp only [linkStep]
      apply commit_commands_congr
      · exact hcommands
      · rw [hcommands]
  | settleRequest hostId requestId now =>
    apply commit_commands_congr hcommands
    unfold settleSubmissionLinkForRequest
    rw [hcommands, hturns]
  | sweep hostId now => cases hcall
  | sweepExpired hostId now =>
    apply commit_commands_congr hcommands
    rw [hcommands]
  | cancel hostId requestId now =>
    apply commit_commands_congr hcommands
    rw [hcommands]

lemma sweep_turns (cached : Bool) (s : LinkState) (host : Option String) (now : Int) :
    (linkStep commandLib lib cached s (.sweep host now)).turns = s.turns := by
  simp only [linkStep]
  split
  · rename_i h
    exact sweepSubmissionLinks_turns h
  · rfl

lemma linkStep_turns_congr (call : LinkCall) (hturns : s.turns = u.turns) :
    (linkStep commandLib lib true s call).turns = (linkStep commandLib lib false u call).turns := by
  cases call with
  | command c => cases c <;> simpa only [linkStep] using hturns
  | observe turns rearmed settled now =>
    cases settled with
    | none => rfl
    | some key => simp only [linkStep, LinkState.commit_turns]
  | sweep hostId now => rw [sweep_turns, sweep_turns, hturns]
  | _ => simpa only [linkStep, LinkState.commit_turns] using hturns

lemma settled_turns (s : LinkState) (call : LinkCall) : (s.settled lib call).turns = s.turns := by
  cases call with
  | sweep hostId now =>
    simp only [LinkState.settled]
    cases h : settleDueSubmissionLinks lib true s hostId now with
    | error e => rfl
    | ok s' => exact settleDueSubmissionLinks_turns h
  | _ => rfl

/-- One undisturbed call keeps the two ledgers together and every deferral quiet. -/
theorem linkStep_backoff (hcommands : s.commands = u.commands) (hturns : s.turns = u.turns)
    {call : LinkCall}
    (hquiet : ∀ time ∈ call.time?, BackoffQuiet lib s.turns time (s.commands, s.backoff))
    (h : StepUndisturbed commandLib lib s call) :
    (linkStep commandLib lib true s call).commands =
        (linkStep commandLib lib false u call).commands ∧
      ∀ time ∈ call.time?, BackoffQuiet lib (linkStep commandLib lib true s call).turns time
        ((linkStep commandLib lib true s call).commands,
          (linkStep commandLib lib true s call).backoff) := by
  cases hcall : call.isSweep with
  | false =>
    refine ⟨linkStep_commands_congr call hcall hcommands hturns, ?_⟩
    intro time htime key until' hlookup
    by_cases hgraph : linkGraph lib (linkStep commandLib lib true s call).turns key
        (linkStep commandLib lib true s call).commands = linkGraph lib s.turns key s.commands
    · have hold := hquiet time htime key until' (linkStep_lookup call hcall hlookup)
      exact hgraph ▸ hold
    · have hsettled : s.settled lib call = s := by
        cases call with
        | sweep hostId now => cases hcall
        | _ => rfl
      exact h.quiet key until' hlookup (hsettled.symm ▸ hgraph) time htime
  | true =>
    cases call with
    | sweep hostId now =>
      have hnow := hquiet (micros now) rfl
      obtain ⟨hsame, hsettled⟩ := settleDueSubmissionLinks_backoff hcommands hturns hnow
        (fun key hkey => h.observed hostId now key rfl hkey)
      refine ⟨sweep_commands_congr hcommands hsame, ?_⟩
      have hkeep : linkStep commandLib lib true s (.sweep hostId now) = s →
          ∀ time ∈ (LinkCall.sweep hostId now).time?, BackoffQuiet lib
            (linkStep commandLib lib true s (.sweep hostId now)).turns time
            ((linkStep commandLib lib true s (.sweep hostId now)).commands,
              (linkStep commandLib lib true s (.sweep hostId now)).backoff) := by
        intro hstep
        rw [hstep]
        exact hquiet
      cases hfold : settleDueSubmissionLinks lib true s hostId now with
      | error e => exact hkeep (by simp only [linkStep, sweepSubmissionLinks, hfold])
      | ok l =>
        cases hexpire : expireTurnSubmissions l.commands hostId now with
        | error e => exact hkeep (by simp only [linkStep, sweepSubmissionLinks, hfold, hexpire])
        | ok commands =>
          have hstep : linkStep commandLib lib true s (.sweep hostId now) =
              { l with commands := commands } := by
            simp only [linkStep, sweepSubmissionLinks, hfold, hexpire]
          have hmid : s.settled lib (.sweep hostId now) = l := by
            simp [LinkState.settled, hfold, Except.toOption]
          have hdisturbed := h.quiet
          rw [hmid, hstep] at hdisturbed
          rw [hstep]
          intro time htime key until' hlookup
          by_cases hgraph : linkGraph lib l.turns key commands =
              linkGraph lib l.turns key l.commands
          · obtain rfl : micros now = time := Option.mem_some.mp htime
            have hold := hsettled l hfold key until' hlookup
            exact hgraph ▸ hold
          · exact hdisturbed key until' hlookup hgraph time htime
    | _ => cases hcall

lemma BackoffQuiet.later {turns : Constrained observedTurnSchema} {clock clock' : Int}
    {acc : CommandStore × List (LinkKey × Int)} (h : BackoffQuiet lib turns clock acc)
    (hle : clock ≤ clock') : BackoffQuiet lib turns clock' acc :=
  fun key until' hlookup => (h key until' hlookup).later hle

/-- Along an undisturbed run the ledger is at every point what it is without the cache. -/
theorem linkRun_backoff {calls : List LinkCall} (h : Undisturbed commandLib lib calls) :
    (linkRun commandLib lib true calls).commands = (linkRun commandLib lib false calls).commands ∧
      (linkRun commandLib lib true calls).turns = (linkRun commandLib lib false calls).turns ∧
      ∀ clock, NotAfter calls clock → BackoffQuiet lib (linkRun commandLib lib true calls).turns
        clock ((linkRun commandLib lib true calls).commands,
          (linkRun commandLib lib true calls).backoff) := by
  induction calls with
  | nil => exact ⟨rfl, rfl, fun clock _ key until' hlookup => by cases hlookup⟩
  | cons call earlier ih =>
    obtain ⟨hearlier, htimes, hstep⟩ := h
    obtain ⟨hcommands, hturns, hquiet⟩ := ih hearlier
    have hnext := linkStep_backoff hcommands hturns
      (fun time htime => hquiet time (htimes time htime)) hstep
    refine ⟨hnext.1, linkStep_turns_congr call hturns, fun clock hclock => ?_⟩
    cases htime : call.time? with
    | some time =>
      have hle : time ≤ clock := hclock call (by simp) time htime
      exact BackoffQuiet.later (hnext.2 time htime) hle
    | none =>
      have hkeep : linkStep commandLib lib true (linkRun commandLib lib true earlier) call =
          linkRun commandLib lib true earlier := by
        cases call with
        | command c =>
          cases c with
          | rewriteSubmissions submissions => simp only [linkStep]
          | _ => cases htime
        | _ => cases htime
      have hold := hquiet clock (fun c hc => hclock c (List.mem_cons_of_mem call hc))
      have hrun : linkRun commandLib lib true (call :: earlier) =
        linkRun commandLib lib true earlier := hkeep
      rw [hrun]
      exact hold

lemma sweep_due (hcommands : s.commands = u.commands) (hturns : s.turns = u.turns)
    (hdue : ∀ e ∈ s.backoff, e.2 ≤ micros now) :
    (linkStep commandLib lib true s (.sweep host now)).commands =
      (linkStep commandLib lib false u (.sweep host now)).commands := by
  have hkeys : ∀ k ∈ dueLinkKeys s.commands host now,
      (componentIsDue (pruneBackoff s.backoff host (dueLinkKeys s.commands host now)) k
        (micros now)).1 = true := by
    intro k hk
    rw [componentIsDue_pruneBackoff hk]
    by_contra hnot
    obtain ⟨e, hlookup, hlt⟩ := componentIsDue_eq_false_iff.mp (Bool.eq_false_iff.mpr hnot)
    obtain ⟨before, after, heq, -⟩ := List.lookup_eq_some_iff.mp hlookup
    have hle : e ≤ micros now := hdue (k, e) (by simp [heq])
    omega
  have hfold := settleDueKeys_due lib s.turns (nodup_dueLinkKeys s.commands host now)
    (s.commands, pruneBackoff s.backoff host (dueLinkKeys s.commands host now)) hkeys
    (pruneBackoff u.backoff host (dueLinkKeys u.commands host now))
  apply sweep_commands_congr hcommands
  rw [settleDueSubmissionLinks_commands, settleDueSubmissionLinks_commands, hfold, ← hturns,
    ← hcommands]

lemma undisturbed_append {calls earlier : List LinkCall}
    (h : Undisturbed commandLib lib (calls ++ earlier)) : Undisturbed commandLib lib earlier := by
  induction calls with
  | nil => exact h
  | cons call calls ih => exact ih h.1

lemma linkRun_lookup {calls earlier : List LinkCall}
    (hcalls : ∀ call ∈ calls, call.isSweep = false) {key : LinkKey} {e : Int}
    (h : (linkRun commandLib lib true (calls ++ earlier)).backoff.lookup key = some e) :
    (linkRun commandLib lib true earlier).backoff.lookup key = some e := by
  induction calls with
  | nil => exact h
  | cons call calls ih =>
    have hcall := hcalls call (by simp)
    exact ih (fun c hc => hcalls c (List.mem_cons_of_mem call hc)) (linkStep_lookup call hcall h)

/-- The deferral a sweep leaves for a key without candidates is bounded. -/
lemma sweep_recheck (h : StepUndisturbed commandLib lib s (.sweep host now)) {key : LinkKey}
    (hsettles : s.Settles host now key)
    (hnone : submissionLinkCandidateTurns lib s.turns key s.commands = []) {e : Int}
    (hlookup : (linkStep commandLib lib true s (.sweep host now)).backoff.lookup key = some e) :
    e ≤ micros (now + submissionLinkEmptyComponentRecheckSeconds) := by
  obtain ⟨t, ht, hle⟩ := h.recheck host now key rfl hsettles hnone
  have hkeep : s.backoff.lookup key = some e →
      e ≤ micros (now + submissionLinkEmptyComponentRecheckSeconds) := by
    intro hold
    have hpassed : ¬micros now < e := by
      intro hlt
      have hskip := componentIsDue_eq_false_iff.mpr ⟨e, hold, hlt⟩
      rw [hsettles.2] at hskip
      cases hskip
    unfold micros submissionLinkEmptyComponentRecheckSeconds at *
    omega
  simp only [linkStep, sweepSubmissionLinks, settleDueSubmissionLinks] at hlookup
  cases hfold : (dueLinkKeys s.commands host now).foldlM (settleDueKey lib true s.turns now)
      (s.commands, pruneBackoff s.backoff host (dueLinkKeys s.commands host now)) with
  | error e =>
    simp only [hfold] at hlookup
    exact hkeep hlookup
  | ok p =>
    simp only [hfold] at hlookup
    have hrecorded : p.2.lookup key = some e →
        e ≤ micros (now + submissionLinkEmptyComponentRecheckSeconds) := by
      intro hp
      obtain ⟨acc₀, acc₁, hvisit, hgraph, hold, hfinal⟩ :=
        settleDueKeys_visit (nodup_dueLinkKeys s.commands host now) hfold hsettles.1
      have hdue : (componentIsDue acc₀.2 key (micros now)).1 = true := by
        rw [componentIsDue_congr hold, componentIsDue_pruneBackoff hsettles.1]
        exact hsettles.2
      have hright : (linkGraph lib s.turns key acc₀.1).right = [] := by
        rw [hgraph]
        exact hnone
      have hleft : t ∈ (linkGraph lib s.turns key acc₀.1).left := by
        rw [hgraph]
        exact ht
      have hboundary := settleDueKey_recheck hvisit hdue hright hleft (hfinal ▸ hp)
      unfold micros at *
      omega
    split at hlookup
    · rename_i hswept
      split at hswept
      · cases hswept
      · cases hswept
        exact hrecorded hlookup
    · exact hkeep hlookup

/-- In an undisturbed run the cache changes no outcome. -/
theorem linkRun_backoffLaw {calls : List LinkCall} (h : Undisturbed commandLib lib calls) :
    BackoffLaw commandLib lib calls := by
  obtain ⟨hcommands, hturns, hquiet⟩ := linkRun_backoff h
  constructor
  case outcome =>
    intro now _ hpassed
    exact congrArg CommandStore.submissions (sweep_due hcommands hturns hpassed)
  case skipped =>
    intro now key hclock hskip
    obtain ⟨until', hlookup, hlt⟩ := componentIsDue_eq_false_iff.mp hskip
    exact settleSubmissionLinks_quiet (hquiet _ hclock key until' hlookup) (le_refl _) hlt
  case recheck =>
    rintro between earlier hostId hostId' now now' key rfl hbetween hsettles hnone hlate hkey
    have hsweep := undisturbed_append h
    refine ⟨hkey, ?_⟩
    by_contra hnot
    obtain ⟨e, hlookup, hlt⟩ := componentIsDue_eq_false_iff.mp (Bool.eq_false_iff.mpr hnot)
    have hle := sweep_recheck hsweep.2.2 hsettles hnone (linkRun_lookup hbetween hlookup)
    unfold micros at hle hlt
    omega

end Runs

/-! ### A deferred key that a cancellation settles early -/

/-- Two sends and an observation are deferred to the close of their windows. Then one send is
cancelled: the other could link at once, but its key is not re-armed before a second observation
arrives. -/
def cancelledRival : List LinkCall :=
  [.observe (sampleObservedTurns [sampleObserved "turn" 101, sampleObserved "later" 110])
    (some sampleLinkKey) (some sampleLinkKey) (micros 110),
   .sweep none 104,
   .cancel "host" "second" 103,
   .sweep none 102,
   .observe (sampleObservedTurns [sampleObserved "turn" 101]) (some sampleLinkKey)
    (some sampleLinkKey) (micros 101),
   .command (sampleMark "second" 100),
   .command (sampleReserve "second" 99),
   .command (sampleMark "first" 100),
   .command (sampleReserve "first" 99)]

/-- Without the cache the first send is linked, with it the send ends as ambiguous. -/
theorem not_backoffLaw_of_cancelledRival :
    ¬BackoffLaw ⟨id, fun _ => true⟩ ⟨id⟩ cancelledRival := by
  intro h
  have hpassed : ∀ e ∈ (linkRun ⟨id, fun _ => true⟩ ⟨id⟩ true cancelledRival).backoff,
      e.2 ≤ micros 161 := by
    decide +kernel
  have hdiffer :
      (linkRun ⟨id, fun _ => true⟩ ⟨id⟩ true
        (.sweep none 161 :: cancelledRival)).commands.submissions ≠
      (linkRun ⟨id, fun _ => true⟩ ⟨id⟩ false
        (.sweep none 161 :: cancelledRival)).commands.submissions := by
    decide +kernel
  exact hdiffer (h.outcome 161 (by decide) hpassed)

/-- A send that is swept twice, the second time when its window has closed. -/
def sweptTwice : List LinkCall :=
  [.sweep none 161, .sweep none 135, .command (sampleMark "first" 100),
   .command (sampleReserve "first" 99)]

lemma sweptTwice_undisturbed : Undisturbed ⟨id, fun _ => true⟩ ⟨id⟩ sweptTwice := by
  have hinsert : ∀ {s : LinkState} {call : CommandCall},
      (linkStep ⟨id, fun _ => true⟩ ⟨id⟩ true s (.command call)).backoff = [] →
      StepUndisturbed ⟨id, fun _ => true⟩ ⟨id⟩ s (.command call) := by
    intro s call hempty
    refine ⟨fun key until' hlookup => ?_, fun _ _ _ h => (nomatch h), fun _ _ _ h => (nomatch h)⟩
    simp [hempty] at hlookup
  have hsweep : ∀ {s : LinkState} {now : Int}, s.turns = Constrained.empty →
      (linkStep ⟨id, fun _ => true⟩ ⟨id⟩ true s (.sweep none now)).commands =
        (s.settled ⟨id⟩ (.sweep none now)).commands →
      (∀ key ∈ dueLinkKeys s.commands none now, ∃ t ∈ openSubmissions key s.commands,
        t.linkExpiresAt ≤ now + submissionLinkEmptyComponentRecheckSeconds) →
      StepUndisturbed ⟨id, fun _ => true⟩ ⟨id⟩ s (.sweep none now) := by
    intro s now hturns hcommands hclose
    have hnone : ∀ key, submissionLinkCandidateTurns ⟨id⟩ s.turns key s.commands = [] := by
      intro key
      rw [hturns]
      rfl
    refine ⟨fun key until' _ hgraph => ?_, ?_, ?_⟩
    · rw [hcommands, sweep_turns, settled_turns] at hgraph
      exact absurd rfl hgraph
    · intro hostId now' key hcall _ c hc
      rw [hnone] at hc
      cases hc
    · intro hostId now' key hcall hsettles _
      cases hcall
      exact hclose key hsettles.1
  refine ⟨⟨⟨⟨trivial, ?_, hinsert rfl⟩, ?_, hinsert rfl⟩, ?_, hsweep rfl ?_ ?_⟩, ?_, hsweep rfl ?_ ?_⟩
  all_goals decide +kernel

/-- The law holds of a send that is swept before and after its window closes. -/
theorem backoffLaw_of_sweptTwice : BackoffLaw ⟨id, fun _ => true⟩ ⟨id⟩ sweptTwice :=
  linkRun_backoffLaw sweptTwice_undisturbed

end Tendwire

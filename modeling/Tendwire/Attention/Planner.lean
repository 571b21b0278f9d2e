import Tendwire.Attention.Lifecycle
import Tendwire.Transition.Loop

/-!
# What an observation does to one family

The transition of a family writes nothing of another family, because the id of a signal
determines its family.
-/

namespace Tendwire

variable {R : AttentionRules} {s s' : AttentionStore} {c : AttentionCall} {t : Int}
  {f g : AttentionFamily}

/-- The family whose signals have an id. -/
def AttentionIdentity.family (R : AttentionRules) (attentionId : AttentionIdentity) :
    AttentionFamily where
  hostId := attentionId.hostId
  source := R.storePublicText attentionId.source
  kind := R.storePublicLabel attentionId.kind

/-! ### The planner -/

/-- The transitions of the planner and when it takes each. -/
inductive Planned (R : AttentionRules) (state : Option AttentionLifecycle)
    (o : AttentionObservation) : AttentionTransition → Prop where
  | late (l : AttentionLifecycle) (hstate : state = some l) (hle : o.observedAt ≤ l.lastAcceptedAt) :
      Planned R state o (.noOp state)
  | idle (hsignal : o.signal = none)
      (hidle : ∀ l, state = some l → l.lifecycleStatus = .opened → o.authority ≠ .complete) :
      Planned R state o (.noOp state)
  | first (signal : AttentionSignal) (hsignal : o.signal = some signal) (hstate : state = none) :
      Planned R state o (o.opens R signal 1)
  | reopens (l : AttentionLifecycle) (signal : AttentionSignal) (hsignal : o.signal = some signal)
      (hstate : state = some l) (hlt : l.lastAcceptedAt < o.observedAt)
      (hresolved : l.lifecycleStatus = .resolved) :
      Planned R state o (o.opens R signal (l.generation + 1))
  | continues (l : AttentionLifecycle) (signal : AttentionSignal) (hsignal : o.signal = some signal)
      (hstate : state = some l) (hlt : l.lastAcceptedAt < o.observedAt)
      (hopened : l.lifecycleStatus = .opened) : Planned R state o (o.continues R l signal)
  | misses (l : AttentionLifecycle) (hsignal : o.signal = none) (hstate : state = some l)
      (hlt : l.lastAcceptedAt < o.observedAt) (hopened : l.lifecycleStatus = .opened)
      (hcomplete : o.authority = .complete) : Planned R state o (o.misses l)

theorem planned (R : AttentionRules) (state : Option AttentionLifecycle)
    (o : AttentionObservation) : Planned R state o (planAttentionTransition R state o) := by
  unfold planAttentionTransition
  cases state with
  | none =>
    simp only [Option.any_none, Bool.false_eq_true, if_false]
    cases hsignal : o.signal with
    | none => exact .idle hsignal (fun l hl => nomatch hl)
    | some signal => exact .first signal hsignal rfl
  | some l =>
    simp only [Option.any_some, decide_eq_true_eq]
    split
    · next hle => exact .late l rfl hle
    · next hlt =>
      rw [not_le] at hlt
      cases hsignal : o.signal with
      | none =>
        dsimp only
        split
        · next hresolved =>
          refine .idle hsignal fun l' hl hopened => absurd ?_ hresolved
          cases hl
          exact hopened
        · next hopened =>
          split
          · next hpartial => exact .idle hsignal fun _ _ _ => hpartial
          · next hcomplete =>
            exact .misses l hsignal rfl hlt (not_not.mp hopened) (not_not.mp hcomplete)
      | some signal =>
        dsimp only
        split
        · next hresolved => exact .reopens l signal hsignal rfl hlt hresolved
        · next hopened =>
          refine .continues l signal hsignal rfl hlt ?_
          cases hstatus : l.lifecycleStatus with
          | opened => rfl
          | resolved => exact absurd hstatus hopened

/-! ### The signal of a family -/

lemma selectCandidate_mem {hostId : String} {items : List AttentionSignal}
    {signal : AttentionSignal} (h : selectCandidate R hostId items = some signal) :
    signal ∈ items := by
  unfold selectCandidate at h
  have hmem : ∀ {step : Option AttentionSignal → AttentionSignal → Option AttentionSignal} {best},
      (∀ best item, step best item = some item ∨ step best item = best) →
        items.foldl step best = some signal → signal ∈ items ∨ best = some signal := by
    clear h
    induction items with
    | nil => exact fun _ h => .inr h
    | cons item rest ih =>
      intro step best hstep h
      rcases ih hstep h with hrest | hbest
      · exact .inl (List.mem_cons_of_mem _ hrest)
      · rcases hstep best item with hitem | hkept
        · cases hitem.symm.trans hbest
          exact .inl List.mem_cons_self
        · exact .inr (hkept.symm.trans hbest)
  refine (hmem (fun best item => ?_) h).resolve_right (fun h => by cases h)
  cases best with
  | none => exact .inl rfl
  | some b =>
    dsimp only
    split
    · exact .inl rfl
    · exact .inr rfl

lemma selected_family {signal : AttentionSignal} (h : c.selected R f = some signal) :
    signal ∈ c.attention ∧ attentionFamilyKey R c.hostId signal = f := by
  have hmem := List.mem_filter.mp (selectCandidate_mem h)
  exact ⟨hmem.1, eq_of_beq hmem.2⟩

lemma selected_hostId {signal : AttentionSignal} (h : c.selected R f = some signal) :
    f.hostId = c.hostId := by
  rw [← (selected_family h).2]
  rfl

/-- The id that the planner gives the signal of a family belongs to the family. -/
lemma family_attentionId {signal : AttentionSignal} (h : c.selected R f = some signal) :
    (signal.attentionId f.hostId).family R = f := by
  rw [selected_hostId h]
  exact (selected_family h).2

lemma nodup_familyKeys (c : AttentionCall) (s : AttentionStore) : (c.familyKeys R s).Nodup :=
  (List.perm_insertionSort _ _).nodup_iff.mpr (List.nodup_dedup _)

/-- A family that an observation passes over has no signal in it and misses none. -/
lemma selected_eq_none_of_notMem (h : f ∉ c.familyKeys R s) : c.selected R f = none := by
  by_contra hne
  obtain ⟨signal, hsignal⟩ := Option.ne_none_iff_exists'.mp hne
  apply h
  unfold AttentionCall.familyKeys
  rw [List.mem_insertionSort, List.mem_dedup, List.mem_append]
  obtain ⟨hmem, hfamily⟩ := selected_family hsignal
  exact .inl (List.mem_map.mpr ⟨signal, hmem, hfamily⟩)

lemma not_complete_of_notMem (h : f ∉ c.familyKeys R s) (hhost : f.hostId = c.hostId)
    {l : AttentionLifecycle} (hl : s.lifecycles.lookup f = some l)
    (hopened : l.lifecycleStatus = .opened) : c.authority ≠ .complete := by
  intro hcomplete
  apply h
  unfold AttentionCall.familyKeys
  rw [List.mem_insertionSort, List.mem_dedup, List.mem_append, if_pos hcomplete]
  refine .inr (List.mem_map.mpr ⟨⟨f, l⟩, List.mem_filter.mpr ⟨?_, ?_⟩, rfl⟩)
  · exact AList.mem_lookup_iff.mp hl
  · simp [hhost, hopened]

lemma familyKeys_hostId (h : f ∈ c.familyKeys R s) : f.hostId = c.hostId := by
  unfold AttentionCall.familyKeys at h
  rw [List.mem_insertionSort, List.mem_dedup, List.mem_append] at h
  rcases h with h | h
  · obtain ⟨item, -, rfl⟩ := List.mem_map.mp h
    rfl
  · split at h
    · obtain ⟨e, he, rfl⟩ := List.mem_map.mp h
      have hhost := (List.mem_filter.mp he).2
      rw [Bool.and_eq_true] at hhost
      exact eq_of_beq hhost.1
    · cases h

/-! ### The writes -/

namespace AttentionStore

/-- The row of an id is open. -/
def OpenRow (s : AttentionStore) (attentionId : AttentionIdentity) : Prop :=
  ∃ row, s.items.lookup attentionId = some row ∧ row.lifecycleStatus = .opened

/-- The jobs of a family. -/
def jobsOf (s : AttentionStore) (f : AttentionFamily) : List AttentionJob :=
  s.jobs.filter fun job => job.key.familyKey == f

/-- Nothing that the store keeps of a family differs. -/
structure SameFamily (R : AttentionRules) (f : AttentionFamily) (s s' : AttentionStore) : Prop where
  lifecycle : s'.lifecycles.lookup f = s.lifecycles.lookup f
  items : ∀ attentionId : AttentionIdentity, attentionId.family R = f →
    s'.items.lookup attentionId = s.items.lookup attentionId
  jobs : s'.jobsOf f = s.jobsOf f

lemma SameFamily.refl (s : AttentionStore) : SameFamily R f s s := ⟨rfl, fun _ _ => rfl, rfl⟩

lemma SameFamily.trans {s'' : AttentionStore} (h : SameFamily R f s s')
    (h' : SameFamily R f s' s'') : SameFamily R f s s'' where
  lifecycle := h'.lifecycle.trans h.lifecycle
  items i hi := (h'.items i hi).trans (h.items i hi)
  jobs := h'.jobs.trans h.jobs

section Close

variable {i j : AttentionIdentity} {k : Option AttentionIdentity}
  {close : AttentionItemRow → AttentionItemRow}

@[simp] lemma lifecycles_closeItem : (s.closeItem k close).lifecycles = s.lifecycles := by
  unfold closeItem
  split
  · rfl
  · split
    · rfl
    · split <;> rfl

@[simp] lemma jobs_closeItem : (s.closeItem k close).jobs = s.jobs := by
  unfold closeItem
  split
  · rfl
  · split
    · rfl
    · split <;> rfl

lemma items_closeItem_of_ne (h : k ≠ some i) :
    (s.closeItem k close).items.lookup i = s.items.lookup i := by
  unfold closeItem
  split
  · rfl
  · next j =>
    have hij : i ≠ j := fun hij => h (hij ▸ rfl)
    split
    · rfl
    · split
      · exact AList.lookup_insert_ne hij
      · rfl

lemma not_openRow_closeItem (hclose : ∀ row, (close row).lifecycleStatus = .resolved) :
    ¬(s.closeItem (some i) close).OpenRow i := by
  rintro ⟨row, hrow, hopened⟩
  unfold closeItem at hrow
  dsimp only at hrow
  split at hrow
  · next hnone =>
    rw [hnone] at hrow
    cases hrow
  · next row' hrow' =>
    split at hrow
    · rw [AList.lookup_insert] at hrow
      cases hrow
      rw [hclose] at hopened
      cases hopened
    · next hne =>
      rw [hrow'] at hrow
      cases hrow
      exact hne hopened

lemma openRow_congr (h : s'.items.lookup i = s.items.lookup i) : s'.OpenRow i ↔ s.OpenRow i := by
  unfold OpenRow
  rw [h]

lemma openRow_closeItem (hclose : ∀ row, (close row).lifecycleStatus = .resolved) :
    (s.closeItem k close).OpenRow i ↔ k ≠ some i ∧ s.OpenRow i := by
  by_cases h : k = some i
  · subst h
    simp [not_openRow_closeItem hclose]
  · rw [openRow_congr (items_closeItem_of_ne h)]
    simp [h]

end Close

section Upsert

variable {hostId : String} {projection : Option (AttentionSignal × AttentionItemRow)}
  {i : AttentionIdentity}

@[simp] lemma lifecycles_upsert : (s.upsert hostId projection).lifecycles = s.lifecycles := by
  unfold upsert
  split <;> rfl

@[simp] lemma jobs_upsert : (s.upsert hostId projection).jobs = s.jobs := by
  unfold upsert
  split <;> rfl

lemma items_upsert_of_ne (h : ∀ p ∈ projection, p.1.attentionId hostId ≠ i) :
    (s.upsert hostId projection).items.lookup i = s.items.lookup i := by
  unfold upsert
  split
  · rfl
  · next item row => exact AList.lookup_insert_ne (h (item, row) rfl).symm

lemma openRow_upsert (h : ∀ p ∈ projection, p.2.lifecycleStatus = .opened) :
    (s.upsert hostId projection).OpenRow i ↔
      projection.map (fun p => p.1.attentionId hostId) = some i ∨ s.OpenRow i := by
  by_cases hi : projection.map (fun p => p.1.attentionId hostId) = some i
  · obtain ⟨p, rfl, rfl⟩ := Option.map_eq_some_iff.mp hi
    exact iff_of_true ⟨p.2, AList.lookup_insert _, h p rfl⟩ (.inl rfl)
  · rw [openRow_congr (items_upsert_of_ne fun p hp hpi => hi ?_)]
    · simp [hi]
    · rw [Option.mem_def.mp hp, Option.map_some, hpi]

end Upsert

section Enqueue

variable {l : AttentionLifecycle} {d : AttentionDelivery} {row : AttentionItemRow}

@[simp] lemma lifecycles_enqueue : (s.enqueue l d row t).lifecycles = s.lifecycles := by
  unfold enqueue
  dsimp only
  split <;> rfl

@[simp] lemma items_enqueue : (s.enqueue l d row t).items = s.items := by
  unfold enqueue
  dsimp only
  split <;> rfl

/-- An enqueued job is new, or its key was there. -/
lemma jobs_enqueue :
    let key : AttentionJobKey := ⟨l.familyKey, l.generation, d.eventType, d.stage⟩
    (∃ job ∈ s.jobs, job.key = key) ∧ (s.enqueue l d row t).jobs = s.jobs ∨
      (s.enqueue l d row t).jobs = s.jobs ++ [⟨key, row, t⟩] := by
  unfold enqueue
  dsimp only
  split
  · next hany =>
    obtain ⟨job, hjob, hkey⟩ := List.any_eq_true.mp hany
    exact .inl ⟨⟨job, hjob, eq_of_beq hkey⟩, rfl⟩
  · exact .inr rfl

variable {delivery : Option AttentionDelivery}
  {projection : Option (AttentionSignal × AttentionItemRow)}

@[simp] lemma lifecycles_deliver :
    (s.deliver l delivery projection t).lifecycles = s.lifecycles := by
  unfold deliver
  split <;> simp

@[simp] lemma items_deliver : (s.deliver l delivery projection t).items = s.items := by
  unfold deliver
  split <;> simp

/-- The jobs after a delivery: one more at most, for the lifecycle and of the kind delivered. -/
lemma jobs_deliver :
    (s.deliver l delivery projection t).jobs = s.jobs ∧
      (∀ d ∈ delivery, ∀ p ∈ projection, ∃ job ∈ s.jobs,
        job.key = ⟨l.familyKey, l.generation, d.eventType, d.stage⟩) ∨
    ∃ d ∈ delivery, ∃ p ∈ projection, (s.deliver l delivery projection t).jobs =
      s.jobs ++ [⟨⟨l.familyKey, l.generation, d.eventType, d.stage⟩, p.2, t⟩] := by
  unfold deliver
  split
  · next d item row =>
    rcases @jobs_enqueue s t l d row with ⟨hkey, hjobs⟩ | hjobs
    · refine .inl ⟨hjobs, fun d' hd' _ _ => ?_⟩
      cases hd'
      exact hkey
    · exact .inr ⟨d, rfl, (item, row), rfl, hjobs⟩
  · next hnone =>
    refine .inl ⟨rfl, fun d hd p hp => ?_⟩
    exact absurd (Option.mem_def.mp hp) (hnone d p.1 p.2 (Option.mem_def.mp hd))

end Enqueue

section Project

variable {l : AttentionLifecycle} {tr : AttentionTransition} {i : AttentionIdentity}

@[simp] lemma lifecycles_project : (s.project R c t l tr).lifecycles = s.lifecycles := by
  simp [project]

/-- A transition writes no row but those it names. -/
lemma items_project_of_ne (hsuperseded : tr.supersededAttentionId ≠ some i)
    (hsignal : ∀ item ∈ tr.upsertSignal, item.attentionId l.familyKey.hostId ≠ i)
    (hresolve : tr.resolveAttentionId ≠ some i) :
    (s.project R c t l tr).items.lookup i = s.items.lookup i := by
  unfold project
  dsimp only
  rw [items_deliver, items_closeItem_of_ne hresolve, items_upsert_of_ne,
    items_closeItem_of_ne hsuperseded]
  intro p hp
  obtain ⟨item, hitem, rfl⟩ := Option.map_eq_some_iff.mp hp
  exact hsignal item hitem

/-- The open rows after a transition. -/
lemma openRow_project : (s.project R c t l tr).OpenRow i ↔ tr.resolveAttentionId ≠ some i ∧
    (tr.upsertSignal.map (fun item => item.attentionId l.familyKey.hostId) = some i ∨
      tr.supersededAttentionId ≠ some i ∧ s.OpenRow i) := by
  unfold project
  dsimp only
  rw [openRow_congr (congrArg _ items_deliver), openRow_closeItem fun _ => rfl, openRow_upsert,
    openRow_closeItem fun _ => rfl, Option.map_map]
  · rfl
  · intro p hp
    obtain ⟨item, -, rfl⟩ := Option.map_eq_some_iff.mp hp
    rfl

/-- The jobs after a transition. -/
lemma jobs_project :
    (s.project R c t l tr).jobs = s.jobs ∧
      (∀ d ∈ tr.delivery, ∀ item ∈ tr.upsertSignal, ∃ job ∈ s.jobs,
        job.key = ⟨l.familyKey, l.generation, d.eventType, d.stage⟩) ∨
    ∃ d ∈ tr.delivery, ∃ item ∈ tr.upsertSignal, ∃ row : AttentionItemRow, row.payload = item ∧
      (s.project R c t l tr).jobs =
        s.jobs ++ [⟨⟨l.familyKey, l.generation, d.eventType, d.stage⟩, row, t⟩] := by
  unfold project
  dsimp only
  rcases jobs_deliver with ⟨hjobs, hkey⟩ | ⟨d, hd, p, hp, hjobs⟩
  · refine .inl ⟨hjobs.trans (by simp), fun d hd item hitem => ?_⟩
    obtain ⟨job, hjob, heq⟩ := hkey d hd (item, _) (Option.map_eq_some_iff.mpr ⟨item, hitem, rfl⟩)
    rw [jobs_closeItem, jobs_upsert, jobs_closeItem] at hjob
    exact ⟨job, hjob, heq⟩
  · obtain ⟨item, hitem, hprojection⟩ := Option.map_eq_some_iff.mp hp
    refine .inr ⟨d, hd, item, hitem, p.2, ?_, hjobs.trans (by simp)⟩
    rw [← hprojection]
    rfl

end Project

end AttentionStore

end Tendwire

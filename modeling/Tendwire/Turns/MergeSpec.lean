import Tendwire.Connector.TurnFrame
import Tendwire.Transition.Loop
import Tendwire.Turns.Refresh

/-!
# What the turn transactions do

One statement for each statement group of a merge and of a snapshot commit: which rows of the turn
tables it changes and how.
-/

namespace Tendwire

open Json Connector Relational

/-! ### The keys of a payload -/

section Keys

variable {R : TextRules} {key : String}

lemma get?_sanitizeForbiddenMapping (m : Fields) :
    Fields.get? (R.sanitizeForbiddenMapping m) key =
      if R.isForbiddenFieldName key then none
      else (m.get? key).map R.sanitizeForbiddenFields := by
  induction m with
  | nil => simp [TextRules.sanitizeForbiddenMapping]
  | cons e m ih =>
    obtain ⟨k, v⟩ := e
    rw [TextRules.sanitizeForbiddenMapping, Fields.get?_cons]
    by_cases hk : key = k
    · subst hk
      rw [if_pos rfl]
      split
      · next hforbidden => rw [ih, if_pos hforbidden]
      · simp [Fields.get?_cons]
    · rw [if_neg hk]
      split
      · exact ih
      · rw [Fields.get?_cons, if_neg hk, ih]

lemma get?_sanitizePublicMapping_of_none {m : Fields} (h : m.get? key = none) :
    Fields.get? (R.sanitizePublicMapping m) key = none := by
  induction m with
  | nil => rfl
  | cons e m ih =>
    obtain ⟨k, v⟩ := e
    rw [Fields.get?_cons] at h
    rw [TextRules.sanitizePublicMapping]
    by_cases hk : key = k
    · rw [if_pos hk] at h
      cases h
    · rw [if_neg hk] at h
      split
      · split
        · rw [Fields.get?_cons, if_neg hk]
          exact ih h
        · exact ih h
      · exact ih h

/-- The keys that a stored payload does not take from the record of the turn. -/
def rewrittenKeys : List String := [
  "user_text", "assistant_final_text", "user_preview", "assistant_final_preview", "content",
  "awaiting_input", "pending_decision", "id", "origin_command_id", "source_turn_id"]

lemma get?_observedTurnPayload (turnId : String) (payload : Fields) (h : key ∉ rewrittenKeys) :
    (observedTurnPayload R turnId payload).get? key =
      ((Turn.fromDict R payload).toDict R).get? key := by
  simp only [rewrittenKeys, List.mem_cons, List.not_mem_nil, or_false, not_or] at h
  unfold observedTurnPayload
  rw [get?_stripCanonicalTurnPayload _ (by simp [h]),
    Fields.get?_update_of_none _ _ (get?_publicPendingTurnExtension R payload (by simp [h])),
    Fields.get?_erase, if_neg (by simp [h]), Fields.get?_set_of_ne _ _ (by simp [h])]

lemma get?_observedItem (seed : Fields) (h : key ∉ rewrittenKeys) :
    (TurnStore.observedItem R seed).get? key = ((Turn.fromDict R seed).toDict R).get? key := by
  simp only [rewrittenKeys, List.mem_cons, List.not_mem_nil, or_false, not_or] at h
  unfold TurnStore.observedItem
  rw [Fields.get?_erase, if_neg (by simp [h]),
    Fields.get?_update_of_none _ _ (get?_publicPendingTurnExtension R seed (by simp [h])),
    get?_stripCanonicalTurnPayload _ (by simp [h])]

/-- A payload whose values under some keys are those of an item. -/
def overwritten (item : Fields) (keys : List String) (payload : Fields) : Fields :=
  keys.foldl (fun payload key =>
    match item.get? key with
    | some v => payload.set key v
    | none => payload) payload

lemma mergedPayload_eq (stored item clean : Fields) (current : Option ContentRevision)
    (incomingFinal : Option String) (observedAt storedAt : String) :
    TurnStore.mergedPayload R stored item clean current incomingFinal observedAt storedAt =
      let payload := (overwritten item observedMetadataKeys stored).erase "origin_command_id"
      if turnObservationIsNewer R observedAt storedAt then
        payload.update
          (retainAuthoritativeCompletion clean current payload incomingFinal observedAt)
      else
        payload := rfl

lemma get?_overwritten (item : Fields) (keys : List String) (hkey : key ∉ keys)
    (payload : Fields) : (overwritten item keys payload).get? key = payload.get? key := by
  unfold overwritten
  induction keys generalizing payload with
  | nil => rfl
  | cons k keys ih =>
    rw [List.foldl_cons, ih (fun h => hkey (List.mem_cons_of_mem k h))]
    split
    · exact Fields.get?_set_of_ne _ _ fun h => hkey (h ▸ List.mem_cons_self)
    · rfl

end Keys

namespace TurnStore

variable {R : TextRules} {s s' s'' : TurnStore}

/-! ### Rows by key -/

lemma turn?_eq_some_iff {hostId turnId : String} {i : Nat} {t : StoredTurn} :
    s.turn? hostId turnId = some (i, t) ↔
      s.turns.get? i = some t ∧ t.hostId = hostId ∧ t.turnId = turnId := by
  constructor
  · intro h
    obtain ⟨ht, hp⟩ := Table.first?_eq_some h
    simp only [StoredTurn.is, Bool.and_eq_true, beq_iff_eq] at hp
    exact ⟨ht, hp.1, hp.2⟩
  · rintro ⟨ht, rfl, rfl⟩
    cases hf : s.turn? t.hostId t.turnId with
    | none =>
      have hfalse := Table.first?_eq_none hf ht
      simp [StoredTurn.is] at hfalse
    | some e =>
      obtain ⟨j, u⟩ := e
      obtain ⟨hu, hp⟩ := Table.first?_eq_some hf
      simp only [StoredTurn.is, Bool.and_eq_true, beq_iff_eq] at hp
      have hkey : (fun u : StoredTurn => some (u.hostId, u.turnId)) ∈ storedTurnSchema.keys := by
        simp [storedTurnSchema]
      have hij : j = i := s.turns.eq_of_key hkey hu ht (v := (t.hostId, t.turnId))
        (by simp [hp.1, hp.2]) rfl
      subst hij
      obtain rfl := Option.some.inj (hu.symm.trans ht)
      rfl

lemma turn?_eq_none_iff {hostId turnId : String} :
    s.turn? hostId turnId = none ↔
      ∀ i t, s.turns.get? i = some t → ¬ (t.hostId = hostId ∧ t.turnId = turnId) := by
  rw [Option.eq_none_iff_forall_ne_some]
  constructor
  · rintro h i t ht ⟨hhost, hturn⟩
    exact h (i, t) (turn?_eq_some_iff.mpr ⟨ht, hhost, hturn⟩)
  · rintro h ⟨i, t⟩ ht
    obtain ⟨ht, hhost, hturn⟩ := turn?_eq_some_iff.mp ht
    exact h i t ht ⟨hhost, hturn⟩

/-- The content of the current revision. -/
def currentContent? (s : TurnStore) (hostId turnId : String) : Option ContentRevision :=
  (s.currentRevision? hostId turnId).map (·.contentRevision)

/-- The current revision of a turn depends on its own rows only. -/
lemma currentContent?_congr {hostId turnId : String}
    (h : ∀ i r, r.hostId = hostId → r.turnId = turnId →
      (s.connector.revisions.get? i = some r ↔ s'.connector.revisions.get? i = some r)) :
    s'.currentContent? hostId turnId = s.currentContent? hostId turnId := by
  unfold currentContent? currentRevision? Table.first?
  congr 3
  apply Table.select_congr
  intro i r
  simp only [Bool.and_eq_true, beq_iff_eq]
  exact and_congr_left fun hp => (h i r hp.1.1 hp.1.2).symm

lemma currentContent?_eq_some {hostId turnId : String} {revision : ContentRevision}
    (hex : ∃ i r, s.connector.revisions.get? i = some r ∧ r.hostId = hostId ∧
      r.turnId = turnId ∧ r.isCurrent = true)
    (hall : ∀ i r, s.connector.revisions.get? i = some r → r.hostId = hostId →
      r.turnId = turnId → r.isCurrent = true → r.contentRevision = revision) :
    s.currentContent? hostId turnId = some revision := by
  unfold currentContent? currentRevision?
  cases hf : s.connector.revisions.table.first? fun _ r =>
      r.hostId == hostId && r.turnId == turnId && r.isCurrent with
  | none =>
    obtain ⟨i, r, hr, hhost, hturn, hcur⟩ := hex
    have hfalse := Table.first?_eq_none hf hr
    simp [hhost, hturn, hcur] at hfalse
  | some e =>
    obtain ⟨i, r⟩ := e
    obtain ⟨hr, hp⟩ := Table.first?_eq_some hf
    simp only [Bool.and_eq_true, beq_iff_eq] at hp
    simp [hall i r hr hp.1.1 hp.1.2 hp.2]

lemma exists_of_currentContent? {hostId turnId : String} {revision : ContentRevision}
    (h : s.currentContent? hostId turnId = some revision) :
    ∃ i r, s.connector.revisions.get? i = some r ∧ r.hostId = hostId ∧ r.turnId = turnId ∧
      r.isCurrent = true ∧ r.contentRevision = revision := by
  obtain ⟨r, hr, rfl⟩ := Option.map_eq_some_iff.mp h
  obtain ⟨⟨i, r'⟩, hf, rfl⟩ := Option.map_eq_some_iff.mp hr
  obtain ⟨hget, hp⟩ := Table.first?_eq_some hf
  simp only [Bool.and_eq_true, beq_iff_eq] at hp
  exact ⟨i, r', hget, hp.1.1, hp.1.2, hp.2, rfl⟩

/-! ### Content revisions -/

lemma demand_eq_ok {α : Type} {o : Option α} {a : α} (h : TurnTxn.demand o = .ok a) :
    o = some a := by
  cases o with
  | none => cases h
  | some a' => exact congrArg some (Except.ok.inj h)

lemma revisionSchema_clash {r r' : RevisionRow} :
    revisionSchema.clash r r' = true ↔
      r.hostId = r'.hostId ∧ r.turnId = r'.turnId ∧ r.contentRevision = r'.contentRevision := by
  simp [Schema.clash, revisionSchema]

/-- Only the revision table is written, and only rows of one turn. -/
structure WritesRevisions (s : TurnStore) (hostId turnId : String) (s' : TurnStore) : Prop where
  eq : s' = s.setRevisions s'.connector.revisions
  others : ∀ i r, ¬ (r.hostId = hostId ∧ r.turnId = turnId) →
    (s.connector.revisions.get? i = some r ↔ s'.connector.revisions.get? i = some r)

lemma WritesRevisions.refl (s : TurnStore) (hostId turnId : String) :
    WritesRevisions s hostId turnId s := ⟨rfl, fun _ _ _ => Iff.rfl⟩

lemma WritesRevisions.trans {hostId turnId : String} {s'' : TurnStore}
    (h : WritesRevisions s hostId turnId s') (h' : WritesRevisions s' hostId turnId s'') :
    WritesRevisions s hostId turnId s'' := by
  refine ⟨?_, fun i r hr => (h.others i r hr).trans (h'.others i r hr)⟩
  rw [h'.eq, h.eq]
  rfl

lemma WritesRevisions.turns {hostId turnId : String} (h : WritesRevisions s hostId turnId s') :
    s'.turns = s.turns := by
  rw [h.eq]
  rfl

lemma WritesRevisions.currentContent?_of_ne {hostId turnId hostId' turnId' : String}
    (h : WritesRevisions s hostId turnId s') (hne : ¬ (hostId' = hostId ∧ turnId' = turnId)) :
    s'.currentContent? hostId' turnId' = s.currentContent? hostId' turnId' := by
  apply currentContent?_congr
  rintro i r rfl rfl
  exact h.others i r hne

lemma updateCurrent_get? (p : RevisionRow → Bool) (b : Bool) (i : Nat) :
    (s.updateCurrent p b).connector.revisions.get? i =
      (s.connector.revisions.get? i).map fun r => if p r then { r with isCurrent := b } else r := by
  unfold updateCurrent setRevisions
  simp only [Constrained.get?_updateKeep]

lemma writesRevisions_updateCurrent {hostId turnId : String} {p : RevisionRow → Bool} {b : Bool}
    (hp : ∀ r, p r = true → r.hostId = hostId ∧ r.turnId = turnId) :
    WritesRevisions s hostId turnId (s.updateCurrent p b) := by
  refine ⟨rfl, fun i r hr => ?_⟩
  rw [updateCurrent_get?, Option.map_eq_some_iff]
  constructor
  · intro h
    refine ⟨r, h, ?_⟩
    rw [if_neg fun hpr => hr (hp r hpr)]
  · rintro ⟨r', h, rfl⟩
    by_cases hpr : p r' = true
    · simp only [hpr, if_true] at hr
      exact absurd (hp r' hpr) hr
    · rw [if_neg hpr]
      exact h

/-- Inserting a revision leaves a row with its key and adds no other. -/
lemma insertTurnContentRevision_spec {hostId : String} {revision : ContentRevision} {b : Bool}
    (h : s.insertTurnContentRevision hostId revision b = .ok s') :
    WritesRevisions s hostId revision.turnId s' ∧
      (∃ i r, s'.connector.revisions.get? i = some r ∧ r.hostId = hostId ∧
        r.turnId = revision.turnId ∧ r.contentRevision = revision) ∧
      ∀ i r, s'.connector.revisions.get? i = some r →
        s.connector.revisions.get? i = some r ∨ r = revisionRow hostId revision b := by
  obtain ⟨t, ht, rfl⟩ := map_eq_ok.mp h
  obtain ⟨rfl, i, r, hr, hclash⟩ | hget := Constrained.insertOrIgnore_cases (demand_eq_ok ht)
  · obtain ⟨hhost, hturn, hrev⟩ := revisionSchema_clash.mp hclash
    exact ⟨.refl s _ _, ⟨i, r, hr, hhost, hturn, hrev⟩, fun _ _ h => .inl h⟩
  · refine ⟨⟨rfl, fun i r hr => ?_⟩,
      ⟨_, _, by rw [show (s.setRevisions t).connector.revisions = t from rfl, hget, if_pos rfl],
        rfl, rfl, rfl⟩, fun i r hr => ?_⟩
    · change _ ↔ t.get? i = some r
      rw [hget]
      split
      · next hi =>
        subst hi
        have hnone : s.connector.revisions.get? s.connector.revisions.table.next = none :=
          Table.get?_eq_none_of_next_le (Nat.le_refl _)
        rw [hnone]
        constructor
        · intro h
          cases h
        · intro h
          obtain rfl := Option.some.inj h
          exact absurd ⟨rfl, rfl⟩ hr
      · exact Iff.rfl
    · change t.get? i = some r at hr
      rw [hget] at hr
      split at hr
      · exact .inr (Option.some.inj hr).symm
      · exact .inl hr

lemma contentRevision_eq {turnId : String} {userText finalText : Option String}
    {userState finalState : ContentState} {revision : ContentRevision}
    (h : contentRevision turnId userText finalText userState finalState = .ok revision) :
    revision = ⟨turnId, userText, finalText, userState, finalState⟩ := by
  unfold contentRevision at h
  simp only [bind_eq_ok] at h
  obtain ⟨_, -, _, -, _, -, h⟩ := h
  exact (Except.ok.inj h).symm

/-- The current revision is replaced by the one that the texts give, or nothing is done. -/
theorem replaceCurrentTurnContent_spec {hostId turnId : String}
    {current : Option ContentRevision} {user final : Option String} {b : Bool}
    (h : s.replaceCurrentTurnContent hostId turnId current user final = .ok (s', b)) :
    s' = s ∨ WritesRevisions s hostId turnId s' ∧ ∃ revision,
      s'.currentContent? hostId turnId = some revision ∧
      revision.finalState = (mergeCanonicalField final (current.bind (·.finalText))
        ((current.map (·.finalState)).getD .absent)).2 := by
  unfold replaceCurrentTurnContent at h
  dsimp only at h
  split at h
  · exact .inl (Prod.mk.inj (Except.ok.inj h)).1.symm
  · obtain ⟨revision, hrev, h⟩ := bind_eq_ok.mp h
    have hrev := contentRevision_eq hrev
    split at h
    · exact .inl (Prod.mk.inj (Except.ok.inj h)).1.symm
    · obtain ⟨s₂, hs₂, h⟩ := bind_eq_ok.mp h
      obtain ⟨rfl, -⟩ := Prod.mk.inj (Except.ok.inj h)
      obtain ⟨hw₂, ⟨i, r, hr, hhost, hturn, hkey⟩, hrows⟩ := insertTurnContentRevision_spec hs₂
      have hid : revision.turnId = turnId := by rw [hrev]
      rw [hid] at hw₂ hturn
      refine .inr ⟨?_, revision, ?_, by rw [hrev]⟩
      · refine WritesRevisions.trans (writesRevisions_updateCurrent fun r hp => ?_)
          (hw₂.trans (writesRevisions_updateCurrent fun r hp => ?_))
        · simp only [Bool.and_eq_true, beq_iff_eq] at hp
          exact hp.1
        · simp only [Bool.and_eq_true, beq_iff_eq] at hp
          exact hp.1
      · apply currentContent?_eq_some
        · refine ⟨i, { r with isCurrent := true }, ?_, hhost, hturn, rfl⟩
          rw [updateCurrent_get?, hr]
          simp [hhost, hturn, hkey]
        · intro j u hu huhost huturn hucur
          rw [updateCurrent_get?, Option.map_eq_some_iff] at hu
          obtain ⟨v, hv, rfl⟩ := hu
          split at hucur
          · next hp =>
            simp only [Bool.and_eq_true, beq_iff_eq] at hp
            simp [hp]
          · next hp =>
            rw [if_neg hp] at huhost huturn ⊢
            obtain hv | rfl := hrows j v hv
            · -- a row that was cleared is not current
              rw [updateCurrent_get?, Option.map_eq_some_iff] at hv
              obtain ⟨w, hw, rfl⟩ := hv
              split at hucur
              · cases hucur
              · next hq =>
                rw [if_neg hq] at huhost huturn
                simp [huhost, huturn, hucur] at hq
            · cases hucur

/-- A turn without a current revision gets one that says nothing. -/
theorem ensureAbsentTurnContentRevision_spec {hostId turnId : String} {b : Bool}
    (h : s.ensureAbsentTurnContentRevision hostId turnId = .ok (s', b)) :
    s' = s ∨ WritesRevisions s hostId turnId s' ∧ s.currentContent? hostId turnId = none := by
  unfold ensureAbsentTurnContentRevision at h
  split at h
  · exact .inl (Prod.mk.inj (Except.ok.inj h)).1.symm
  · next hnone =>
    have hcur : s.currentContent? hostId turnId = none := by
      unfold currentContent?
      rw [Option.not_isSome_iff_eq_none.mp hnone]
      rfl
    obtain ⟨revision, hrev, h⟩ := bind_eq_ok.mp h
    have hrev := contentRevision_eq hrev
    obtain ⟨s₁, hs₁, h⟩ := bind_eq_ok.mp h
    obtain ⟨hw, -⟩ := insertTurnContentRevision_spec hs₁
    have hid : revision.turnId = turnId := by rw [hrev]
    rw [hid] at hw
    refine .inr ⟨?_, hcur⟩
    split at h
    · obtain ⟨rfl, -⟩ := Prod.mk.inj (Except.ok.inj h)
      exact hw
    · obtain ⟨rfl, -⟩ := Prod.mk.inj (Except.ok.inj h)
      refine hw.trans (writesRevisions_updateCurrent fun r hp => ?_)
      simp only [Bool.and_eq_true, beq_iff_eq] at hp
      exact hp.1

/-! ### Turn rows -/

lemma setTurn_get? {f : StoredTurn → StoredTurn} {hostId turnId : String}
    (keep : ∀ t, (f t).hostId = t.hostId ∧ (f t).turnId = t.turnId ∧
      (f t).listSequence = t.listSequence) (i : Nat) :
    (s.setTurn f hostId turnId keep).turns.get? i =
      (s.turns.get? i).map fun t => if t.is hostId turnId then f t else t := by
  unfold setTurn
  simp only [Constrained.get?_updateKeep]

/-- A new turn takes the next sequence number of its host. -/
theorem insertOwnedTurn_spec {hostId : String} {item : Fields} {fingerprint observedAt : String}
    (h : s.insertOwnedTurn R hostId item fingerprint observedAt = .ok s') :
    s.turn? hostId (R.strOrEmpty (item.get? "id")) = none ∧
      s'.hosts = (s.nextSequence hostId).1.hosts ∧ s'.connector = s.connector ∧
      s'.workers = s.workers ∧ s'.storeEpoch = s.storeEpoch ∧
      ∀ i, s'.turns.get? i =
        if i = s.turns.table.next then
          some (ownedRow R hostId (R.strOrEmpty (item.get? "id"))
            (observedTurnPayload R (R.strOrEmpty (item.get? "id")) item) fingerprint observedAt
            (s.nextSequence hostId).2)
        else s.turns.get? i := by
  unfold insertOwnedTurn at h
  dsimp only at h
  split at h
  · cases h
  · split at h
    · cases h
    · next hnone =>
      obtain ⟨t, ht, rfl⟩ := map_eq_ok.mp h
      exact ⟨Option.not_isSome_iff_eq_none.mp hnone, rfl, rfl, rfl, rfl,
        Constrained.get?_insert (demand_eq_ok ht)⟩

theorem updateObservedTurnRow_spec {hostId turnId : String} {payload : Fields}
    {currentTime fingerprint : String} {b : Bool}
    (h : s.updateObservedTurnRow R hostId turnId payload currentTime fingerprint =
      .ok (s', b)) :
    s' = s ∨ s' = s.setTurn (fun t => observedRow R t payload currentTime fingerprint) hostId turnId
      fun _ => ⟨rfl, rfl, rfl⟩ := by
  unfold updateObservedTurnRow at h
  split at h
  · cases h
  · dsimp only at h
    split at h
    · exact .inl (Prod.mk.inj (Except.ok.inj h)).1.symm
    · exact .inr (Prod.mk.inj (Except.ok.inj h)).1.symm

/-- The branches of a merge, before the root of the current revision is ensured. -/
theorem mergeObservedTurnContent_cases {o : TurnObservation} {n : Nat}
    (h : s.mergeObservedTurnContent R o = .ok (s', n)) :
    s' = s ∨ ∃ s₁, s₁.ensureCurrentAnchor R o.hostId (o.turnId R) (R.instant o.observedAt) = .ok s' ∧
      (s.turn? o.hostId (o.turnId R) = none ∧ s.insertObservedTurn R o = .ok s₁ ∨
        ∃ i t b, s.turn? o.hostId (o.turnId R) = some (i, t) ∧
          s.updateObservedTurn R o t = .ok (s₁, b)) := by
  unfold mergeObservedTurnContent at h
  split at h
  · exact .inl (Prod.mk.inj (Except.ok.inj h)).1.symm
  · split at h
    · cases h
    · obtain ⟨⟨s₁, b⟩, hs₁, h⟩ := bind_eq_ok.mp h
      obtain ⟨s₂, hs₂, h⟩ := bind_eq_ok.mp h
      obtain ⟨rfl, -⟩ := Prod.mk.inj (Except.ok.inj h)
      refine .inr ⟨s₁, hs₂, ?_⟩
      unfold applyObservedTurn at hs₁
      split at hs₁
      · next hnone =>
        obtain ⟨s₁', hs₁', heq⟩ := map_eq_ok.mp hs₁
        obtain ⟨rfl, -⟩ := Prod.mk.inj heq
        exact .inl ⟨hnone, hs₁'⟩
      · next i t hsome => exact .inr ⟨i, t, b, hsome, hs₁⟩

/-- The branches of `apply_turn_refresh`: nothing, the time of an exact re-observation, or the
merge of the observation. -/
theorem applyTurnRefresh_cases {hostId workerId : String} {content : Fields} {observedAt : String}
    {n : Nat} (h : s.applyTurnRefresh R hostId workerId content observedAt = .ok (s', n)) :
    ∃ currentTime, R.strictUtcTimestamp observedAt = some currentTime ∧
      (s' = s ∨ ∃ worker, s.workers hostId workerId = some worker ∧
        ((∃ t, s.unchangedTurn? R hostId workerId worker.payload content = some t ∧
            s' = s.touchTurn R t currentTime) ∨
          s.mergeObservedTurnContent R
            (observation R hostId workerId worker content currentTime) = .ok (s', n))) := by
  unfold applyTurnRefresh at h
  split at h
  · cases h
  · next currentTime htime =>
    refine ⟨currentTime, htime, ?_⟩
    unfold mergeTurnContent at h
    split at h
    · exact .inl (Prod.mk.inj (Except.ok.inj h)).1.symm
    · split at h
      · exact .inl (Prod.mk.inj (Except.ok.inj h)).1.symm
      · next worker hworker =>
        split at h
        · next t ht =>
          exact .inr ⟨worker, hworker, .inl ⟨t, ht, (Prod.mk.inj (Except.ok.inj h)).1.symm⟩⟩
        · dsimp only at h
          split at h
          · exact .inl (Prod.mk.inj (Except.ok.inj h)).1.symm
          · exact .inr ⟨worker, hworker, .inr h⟩

/-! ### The counters of a host -/

/-- The sequence number that the next turn of the host gets. -/
def sequenceBound (s : TurnStore) (hostId : String) : Nat :=
  ((s.hosts hostId).map (·.nextSequence)).getD 1

/-- No host loses its row or takes a sequence number back. -/
def HostsGrow (s s' : TurnStore) : Prop :=
  ∀ hostId, s.sequenceBound hostId ≤ s'.sequenceBound hostId ∧
    ((s.hosts hostId).isSome → (s'.hosts hostId).isSome)

lemma HostsGrow.of_eq (h : s'.hosts = s.hosts) : HostsGrow s s' := by
  intro hostId
  unfold sequenceBound
  rw [h]
  exact ⟨Nat.le_refl _, id⟩

lemma HostsGrow.trans (h : HostsGrow s s') (h' : HostsGrow s' s'') : HostsGrow s s'' :=
  fun hostId => ⟨Nat.le_trans (h hostId).1 (h' hostId).1, fun hsome => (h' hostId).2 ((h hostId).2 hsome)⟩

lemma sequenceBound_le_host (hostId : String) :
    s.sequenceBound hostId ≤ (s.host hostId).nextSequence := by
  unfold sequenceBound host
  cases s.hosts hostId with
  | none => simp [newHost]
  | some x => exact Nat.le_refl _

lemma setHost_grows (hostId : String) {f : TurnListHost → TurnListHost}
    (hf : ∀ h, h.nextSequence ≤ (f h).nextSequence) : HostsGrow s (s.setHost hostId f) := by
  intro hostId'
  by_cases hne : hostId' = hostId
  · subst hne
    refine ⟨Nat.le_trans (sequenceBound_le_host hostId') ?_, fun _ => ?_⟩
    · simpa [sequenceBound, setHost] using hf (s.host hostId')
    · simp [setHost]
  · have hhosts : (s.setHost hostId f).hosts hostId' = s.hosts hostId' :=
      Function.update_of_ne hne ..
    unfold sequenceBound
    rw [hhosts]
    exact ⟨Nat.le_refl _, id⟩

lemma incrementTurnListGeneration_grows (hostId : String) :
    HostsGrow s (s.incrementTurnListGeneration hostId) :=
  setHost_grows hostId fun _ => Nat.le_refl _

/-! ### The snapshot -/

/-- Turns are deleted, and nothing of those that stay changes. -/
structure Prunes (s s' : TurnStore) : Prop where
  next : s'.turns.table.next = s.turns.table.next
  deliveries : s'.connector.deliveries = s.connector.deliveries
  hosts : HostsGrow s s'
  kept : ∀ i t, s'.turns.get? i = some t → s.turns.get? i = some t ∧
    s'.currentContent? t.hostId t.turnId = s.currentContent? t.hostId t.turnId

lemma Prunes.refl (s : TurnStore) : Prunes s s := ⟨rfl, rfl, .of_eq rfl, fun _ _ h => ⟨h, rfl⟩⟩

lemma Prunes.trans (h : Prunes s s') (h' : Prunes s' s'') : Prunes s s'' where
  next := h'.next.trans h.next
  deliveries := h'.deliveries.trans h.deliveries
  hosts := h.hosts.trans h'.hosts
  kept := by
    intro i t ht
    obtain ⟨ht', hsame'⟩ := h'.kept i t ht
    obtain ⟨ht, hsame⟩ := h.kept i t ht'
    exact ⟨ht, hsame'.trans hsame⟩

lemma deleteTurn_prunes (hostId turnId : String) : Prunes s (s.deleteTurn hostId turnId) where
  next := rfl
  deliveries := rfl
  hosts := .of_eq rfl
  kept := by
    intro i t ht
    have hget : (s.turns.deleteWhere fun _ t => t.is hostId turnId).get? i = some t := ht
    rw [Constrained.get?_deleteWhere, Option.filter_eq_some_iff] at hget
    obtain ⟨hstored, hkey⟩ := hget
    refine ⟨hstored, currentContent?_congr fun j r hhost hturn => ?_⟩
    have hget' : (s.deleteTurn hostId turnId).connector.revisions.get? j =
        (s.connector.revisions.get? j).filter fun r =>
          !(r.hostId == hostId && r.turnId == turnId) := Constrained.get?_deleteWhere ..
    rw [hget', Option.filter_eq_some_iff]
    refine (and_iff_left ?_).symm
    rw [hhost, hturn]
    exact hkey

lemma deleteTurnIfUnreferenced_prunes (hostId turnId : String) :
    Prunes s (s.deleteTurnIfUnreferenced hostId turnId) := by
  unfold deleteTurnIfUnreferenced
  split
  · exact .refl s
  · have hhost : Prunes s (s.setHost hostId id) :=
      ⟨rfl, rfl, setHost_grows hostId fun _ => Nat.le_refl _, fun _ _ h => ⟨h, rfl⟩⟩
    have hdelete : Prunes s ((s.setHost hostId id).deleteTurn hostId turnId) :=
      hhost.trans (deleteTurn_prunes hostId turnId)
    dsimp only
    split
    · exact hdelete.trans
        ⟨rfl, rfl, incrementTurnListGeneration_grows hostId, fun _ _ h => ⟨h, rfl⟩⟩
    · exact hdelete

lemma pruneTurnProjection_prunes (hostId : String) (keepIds : List String) :
    Prunes s (s.pruneTurnProjection R hostId keepIds) := by
  unfold pruneTurnProjection
  refine Transition.foldl_rel Prunes.refl (fun _ _ _ => Prunes.trans) (fun s e => ?_) _ _
  split
  · exact .refl s
  · exact deleteTurnIfUnreferenced_prunes hostId e.2.turnId

lemma refreshSnapshotProjections_prunes (hostId : String) (workers : List (String × WorkerRow)) :
    Prunes s (s.refreshSnapshotProjections R hostId workers) := by
  have hworkers : Prunes s
      { s with workers := Function.update s.workers hostId (workers.reverse.lookup ·) } :=
    ⟨rfl, rfl, .of_eq rfl, fun _ _ h => ⟨h, rfl⟩⟩
  exact hworkers.trans (pruneTurnProjection_prunes hostId [])

end TurnStore

end Tendwire

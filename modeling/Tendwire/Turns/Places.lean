import Tendwire.Turns.Listing
import Tendwire.Turns.MergeSpec

/-!
# Rows keep their place in the list

A merge or a snapshot may delete a row or add one with the next sequence number. The place of
a row that stays changes only when an observation names another worker.
-/

namespace Tendwire

open Json Connector Relational

namespace TurnStore

variable {R : TextRules} {s s' s'' : TurnStore} {hostId : String}

/-! ### The worker that a merge writes -/

/-- The public worker id that an observation names. -/
def TurnObservation.workerId (R : TextRules) (o : TurnObservation) : String :=
  (Turn.fromDict R (o.item R)).workerId

lemma fromDict_workerId (m : Fields) : (Turn.fromDict R m).workerId =
    R.publicIdentity "worker" (Fields.get? (R.sanitizeForbiddenMapping m) "worker_id")
      "unknown" := by
  unfold Turn.fromDict Turn.ofFields Turn.identify
  dsimp only

lemma fromDict_workerId_congr {m m' : Fields} (h : m.get? "worker_id" = m'.get? "worker_id") :
    (Turn.fromDict R m).workerId = (Turn.fromDict R m').workerId := by
  rw [fromDict_workerId, fromDict_workerId, get?_sanitizeForbiddenMapping,
    get?_sanitizeForbiddenMapping, h]

lemma get?_toDict_workerId (t : Turn) : (t.toDict R).get? "worker_id" = some (.text t.workerId) :=
  rfl

lemma strOrEmpty_text (text : String) : R.strOrEmpty (some (.text text)) = text := by
  by_cases h : text = "" <;> simp [TextRules.strOrEmpty, Value.truthy, TextRules.str, h]

lemma get?_mergedPayload_workerId {stored item clean : Fields} {current : Option ContentRevision}
    {incomingFinal : Option String} {observedAt storedAt : String} {v : Value}
    (hitem : item.get? "worker_id" = some v) (hclean : clean.get? "worker_id" = none) :
    (mergedPayload R stored item clean current incomingFinal observedAt storedAt).get?
      "worker_id" = some v := by
  have hmetadata : ((overwritten item observedMetadataKeys stored).erase
      "origin_command_id").get? "worker_id" = some v := by
    rw [Fields.get?_erase, if_neg (by decide), overwritten, observedMetadataKeys, List.foldl_cons,
      hitem]
    exact (get?_overwritten item _ (by decide) _).trans (Fields.get?_set_self _ _ _)
  rw [mergedPayload_eq]
  dsimp only
  split
  · rw [Fields.get?_update_of_none]
    · exact hmetadata
    · unfold retainAuthoritativeCompletion
      dsimp only
      split
      · simp [Fields.get?_set, hclean]
      · exact hclean
  · exact hmetadata

lemma observedRow_workerId {o : TurnObservation} {t : StoredTurn}
    {current : Option ContentRevision} (hclean : o.cleanContent.get? "worker_id" = none) :
    (observedRow R t (mergedPayload R (R.sanitizePublicMapping t.loaded) (o.item R) o.cleanContent
      current o.incomingFinal o.observedAt t.observedAt) o.observedAt
        o.snapshotContentFingerprint).workerId = o.workerId R := by
  have hitem : (o.item R).get? "worker_id" = some (.text (Turn.fromDict R (observedSeed R
      o.projection o.cleanContent o.incomingFinal o.observedAt (o.incomingSource R))).workerId) := by
    unfold TurnObservation.item
    rw [get?_observedItem _ (by decide), get?_toDict_workerId]
  unfold observedRow
  dsimp only
  rw [get?_observedTurnPayload _ _ (by decide), get?_toDict_workerId, strOrEmpty_text]
  apply fromDict_workerId_congr
  rw [get?_mergedPayload_workerId hitem hclean, hitem]

lemma cleanContent_workerId (hostId workerId : String) (worker : WorkerRow) (content : Fields)
    (observedAt : String) :
    (observation R hostId workerId worker content observedAt).cleanContent.get? "worker_id" =
      none := by
  apply get?_sanitizePublicMapping_of_none
  have hnone (m : Fields) (p : String × Value → Bool) (hp : ∀ v, p ("worker_id", v) = false) :
      Fields.get? (m.filter p) "worker_id" = none := by
    induction m with
    | nil => rfl
    | cons e m ih =>
      rw [List.filter_cons]
      split
      · next he =>
        rw [Fields.get?_cons, if_neg, ih]
        rintro heq
        obtain ⟨k, v⟩ := e
        obtain rfl : "worker_id" = k := heq
        rw [hp v] at he
        cases he
      · exact ih
  exact hnone content _ fun v => by simp [turnContentFields]

/-! ### Places along a run -/

/-- The rows of a host are numbered below its next sequence number. -/
structure Sequenced (hostId : String) (s : TurnStore) : Prop where
  positive : 1 ≤ s.sequenceBound hostId
  below : ∀ i t, s.turns.get? i = some t → t.hostId = hostId →
    (s.hosts hostId).isSome ∧ t.listSequence < s.sequenceBound hostId

/-- The same turn, and where it was in the list if it is meant to stay there. -/
structure SamePlace (stays : Prop) (t t' : StoredTurn) : Prop where
  turn : t.turnId = t'.turnId
  sequence : t.listSequence = t'.listSequence
  worker : stays → t.workerId = t'.workerId

lemma SamePlace.refl (stays : Prop) (t : StoredTurn) : SamePlace stays t t := ⟨rfl, rfl, fun _ => rfl⟩

lemma SamePlace.trans {stays : Prop} {t t' t'' : StoredTurn} (h : SamePlace stays t t')
    (h' : SamePlace stays t' t'') : SamePlace stays t t'' :=
  ⟨h.turn.trans h'.turn, h.sequence.trans h'.sequence, fun hs => (h.worker hs).trans (h'.worker hs)⟩

lemma SamePlace.position {t t' : StoredTurn} (h : SamePlace True t t') :
    t.position = t'.position := by
  simp [StoredTurn.position, h.turn, h.sequence, h.worker trivial]

/-- A row of the host is one that was there, or is new and has a new sequence number. -/
structure Advances (hostId : String) (stays : Prop) (s s' : TurnStore) : Prop where
  hosts : HostsGrow s s'
  rows : ∀ i t', s'.turns.get? i = some t' → t'.hostId = hostId →
    (∃ t, s.turns.get? i = some t ∧ t.hostId = hostId ∧ SamePlace stays t t') ∨
      (s.sequenceBound hostId ≤ t'.listSequence ∧ (s'.hosts hostId).isSome ∧
        t'.listSequence < s'.sequenceBound hostId)

section Advances

variable {stays : Prop}

lemma Advances.of_subrows (hosts : HostsGrow s s')
    (rows : ∀ i t, s'.turns.get? i = some t → s.turns.get? i = some t) :
    Advances hostId stays s s' :=
  ⟨hosts, fun i t ht hhost => .inl ⟨t, rows i t ht, hhost, .refl stays t⟩⟩

lemma Advances.refl (hostId : String) (stays : Prop) (s : TurnStore) :
    Advances hostId stays s s := .of_subrows (.of_eq rfl) fun _ _ h => h

lemma Advances.trans (h : Advances hostId stays s s') (h' : Advances hostId stays s' s'') :
    Advances hostId stays s s'' := by
  refine ⟨h.hosts.trans h'.hosts, fun i t'' ht'' hhost'' => ?_⟩
  obtain ⟨t', ht', hhost', hplace'⟩ | ⟨hle', hsome'', hlt''⟩ := h'.rows i t'' ht'' hhost''
  · obtain ⟨t, ht, hhost, hplace⟩ | ⟨hle, hsome', hlt'⟩ := h.rows i t' ht' hhost'
    · exact .inl ⟨t, ht, hhost, hplace.trans hplace'⟩
    · rw [hplace'.sequence] at hle hlt'
      exact .inr ⟨hle, (h'.hosts hostId).2 hsome',
        Nat.lt_of_lt_of_le hlt' (h'.hosts hostId).1⟩
  · exact .inr ⟨Nat.le_trans (h.hosts hostId).1 hle', hsome'', hlt''⟩

lemma Sequenced.of_advances (hs : Sequenced hostId s) (h : Advances hostId stays s s') :
    Sequenced hostId s' := by
  refine ⟨Nat.le_trans hs.positive (h.hosts hostId).1, fun i t' ht' hhost' => ?_⟩
  obtain ⟨t, ht, hhost, hplace⟩ | ⟨-, hsome, hlt⟩ := h.rows i t' ht' hhost'
  · obtain ⟨hsome, hlt⟩ := hs.below i t ht hhost
    rw [hplace.sequence] at hlt
    exact ⟨(h.hosts hostId).2 hsome, Nat.lt_of_lt_of_le hlt (h.hosts hostId).1⟩
  · exact ⟨hsome, hlt⟩

/-! ### Each statement of a merge -/

lemma writesRevisions_advances {hostId' turnId : String} (h : WritesRevisions s hostId' turnId s') :
    Advances hostId stays s s' := by
  rw [h.eq]
  exact .of_subrows (.of_eq rfl) fun _ _ ht => ht

lemma setTurn_advances {f : StoredTurn → StoredTurn} {hostId' turnId : String}
    (keep : ∀ t, (f t).hostId = t.hostId ∧ (f t).turnId = t.turnId ∧
      (f t).listSequence = t.listSequence)
    (hf : stays → hostId' = hostId → ∀ i t, s.turn? hostId turnId = some (i, t) →
      (f t).workerId = t.workerId) :
    Advances hostId stays s (s.setTurn f hostId' turnId keep) := by
  refine ⟨.of_eq rfl, fun i t' ht' hhost' => ?_⟩
  rw [setTurn_get?, Option.map_eq_some_iff] at ht'
  obtain ⟨t, ht, rfl⟩ := ht'
  obtain ⟨hkeephost, hturn, hseq⟩ := keep t
  split at hhost'
  · next hkey =>
    simp only [StoredTurn.is, Bool.and_eq_true, beq_iff_eq] at hkey
    have hhost : t.hostId = hostId := hkeephost.symm.trans hhost'
    refine .inl ⟨t, ht, hhost, ?_⟩
    rw [if_pos (by simp [StoredTurn.is, hkey])]
    exact ⟨hturn.symm, hseq.symm, fun hs => (hf hs (hkey.1.symm.trans hhost) i t
      (turn?_eq_some_iff.mpr ⟨ht, hhost, hkey.2⟩)).symm⟩
  · next hkey => exact .inl ⟨t, ht, hhost', by rw [if_neg hkey]; exact .refl stays t⟩

lemma insertOwnedTurn_advances {hostId' : String} {item : Fields} {fingerprint observedAt : String}
    (h : s.insertOwnedTurn R hostId' item fingerprint observedAt = .ok s') :
    Advances hostId stays s s' := by
  obtain ⟨-, hhosts, -, -, -, hget⟩ := insertOwnedTurn_spec h
  have hgrow : HostsGrow s s' :=
    (setHost_grows hostId' fun h => Nat.le_succ h.nextSequence).trans (.of_eq hhosts)
  refine ⟨hgrow, fun i t' ht' hhost' => ?_⟩
  rw [hget] at ht'
  split at ht'
  · obtain rfl := Option.some.inj ht'
    obtain rfl : hostId' = hostId := hhost'
    refine .inr ⟨sequenceBound_le_host hostId', ?_, ?_⟩
    · rw [hhosts]
      simp [nextSequence, setHost]
    · rw [sequenceBound, hhosts]
      simp [nextSequence, setHost, ownedRow]
  · exact .inl ⟨t', ht', hhost', .refl stays t'⟩

lemma ensureFinalReadyAnchor_advances {hostId' turnId : String} {revision : ContentRevision}
    {now : Int} (h : s.ensureFinalReadyAnchor R hostId' turnId revision now = .ok s') :
    Advances hostId stays s s' := by
  unfold ensureFinalReadyAnchor at h
  split at h
  · cases h
  · next c id hc =>
    have hafter : Advances hostId stays s (s.afterConnector c) := by
      refine .of_subrows (.of_eq rfl) fun i t ht => ?_
      unfold afterConnector at ht
      rw [Constrained.get?_deleteWhere, Option.filter_eq_some_iff] at ht
      exact ht.1
    dsimp only at h
    split at h
    · obtain rfl := Except.ok.inj h
      exact hafter.trans
        (.of_subrows (incrementTurnListGeneration_grows hostId') fun _ _ ht => ht)
    · obtain rfl := Except.ok.inj h
      exact hafter

lemma ensureCurrentAnchor_advances {hostId' turnId : String} {now : Int}
    (h : s.ensureCurrentAnchor R hostId' turnId now = .ok s') : Advances hostId stays s s' := by
  unfold ensureCurrentAnchor at h
  split at h
  · exact ensureFinalReadyAnchor_advances h
  · obtain rfl := Except.ok.inj h
    exact .refl hostId stays s

lemma replaceCurrentTurnContent_advances {hostId' turnId : String}
    {current : Option ContentRevision} {incomingUser incomingFinal : Option String} {b : Bool}
    (h : s.replaceCurrentTurnContent hostId' turnId current incomingUser incomingFinal =
      .ok (s', b)) : Advances hostId stays s s' := by
  obtain rfl | ⟨hw, -⟩ := replaceCurrentTurnContent_spec h
  · exact .refl hostId stays _
  · exact writesRevisions_advances hw

lemma ensureAbsentTurnContentRevision_advances {hostId' turnId : String} {b : Bool}
    (h : s.ensureAbsentTurnContentRevision hostId' turnId = .ok (s', b)) :
    Advances hostId stays s s' := by
  obtain rfl | ⟨hw, -⟩ := ensureAbsentTurnContentRevision_spec h
  · exact .refl hostId stays _
  · exact writesRevisions_advances hw

lemma insertObservedTurn_advances {o : TurnObservation} (h : s.insertObservedTurn R o = .ok s') :
    Advances hostId stays s s' := by
  unfold insertObservedTurn at h
  obtain ⟨s₁, h₁, h⟩ := bind_eq_ok.mp h
  obtain ⟨⟨s₂, b⟩, h₂, h⟩ := bind_eq_ok.mp h
  obtain ⟨⟨s₃, b'⟩, h₃, h⟩ := bind_eq_ok.mp h
  obtain rfl := Except.ok.inj h
  exact (insertOwnedTurn_advances h₁).trans ((replaceCurrentTurnContent_advances h₂).trans
    (ensureAbsentTurnContentRevision_advances h₃))

lemma touchTurn_advances {t : StoredTurn} {observedAt : String} :
    Advances hostId stays s (s.touchTurn R t observedAt) := by
  unfold touchTurn
  split
  · exact setTurn_advances _ fun _ _ _ _ _ => rfl
  · exact .refl hostId stays s

/-- A stored turn stays in its place if the observation names the worker it is stored under. -/
lemma updateObservedTurn_advances {o : TurnObservation} {i : Nat} {t : StoredTurn} {b : Bool}
    (ht : s.turn? o.hostId (o.turnId R) = some (i, t))
    (hclean : o.cleanContent.get? "worker_id" = none)
    (hworker : stays → o.hostId = hostId → o.workerId R = t.workerId)
    (h : s.updateObservedTurn R o t = .ok (s', b)) : Advances hostId stays s s' := by
  unfold updateObservedTurn at h
  dsimp only at h
  split at h
  · cases h
  · obtain ⟨⟨s₁, b₁⟩, h₁, h⟩ := bind_eq_ok.mp h
    have hrow : Advances hostId stays s s₁ := by
      obtain rfl | rfl := updateObservedTurnRow_spec h₁
      · exact .refl hostId stays _
      · refine setTurn_advances _ fun hs hhost j u hu => ?_
        rw [← hhost] at hu
        obtain ⟨-, rfl⟩ := Prod.mk.inj (Option.some.inj (ht.symm.trans hu))
        exact (observedRow_workerId hclean).trans (hworker hs hhost)
    split at h
    · obtain ⟨⟨s₂, b₂⟩, h₂, h⟩ := bind_eq_ok.mp h
      obtain ⟨⟨s₃, b₃⟩, h₃, h⟩ := bind_eq_ok.mp h
      obtain ⟨rfl, -⟩ := Prod.mk.inj (Except.ok.inj h)
      exact hrow.trans ((replaceCurrentTurnContent_advances h₂).trans
        (ensureAbsentTurnContentRevision_advances h₃))
    · obtain ⟨rfl, -⟩ := Prod.mk.inj (Except.ok.inj h)
      exact hrow

end Advances

end TurnStore

/-! ### A run -/

/-- No observation of the call names another worker for a stored turn of the host. -/
def TurnCall.KeepsWorker (R : TextRules) (hostId : String) (s : TurnStore) : TurnCall → Prop
  | .merge hostId' workerId content observedAt => hostId' = hostId →
      ∀ worker currentTime i t, s.workers hostId workerId = some worker →
        R.strictUtcTimestamp observedAt = some currentTime →
        let o := TurnStore.observation R hostId workerId worker content currentTime
        s.turn? hostId (o.turnId R) = some (i, t) → o.workerId R = t.workerId
  | .refresh _ _ | .repair _ _ => True

namespace TurnStore

variable {R : TextRules} {s s' : TurnStore} {hostId : String} {stays : Prop}

theorem call_advances {c : TurnCall} (hc : stays → c.KeepsWorker R hostId s) (h : s.call R c = .ok s') :
    Advances hostId stays s s' := by
  cases c with
  | merge hostId' workerId content observedAt =>
    obtain ⟨⟨s₁, n⟩, hrefresh, rfl⟩ := map_eq_ok.mp h
    obtain ⟨currentTime, htime, hcases⟩ := applyTurnRefresh_cases hrefresh
    obtain rfl | ⟨worker, hworker, ⟨t, -, rfl⟩ | hmerge⟩ := hcases
    · exact .refl hostId stays _
    · exact touchTurn_advances
    · obtain rfl | ⟨s₂, hanchor, ⟨-, hins⟩ | ⟨i, t, b, ht, hupd⟩⟩ :=
        mergeObservedTurnContent_cases hmerge
      · exact .refl hostId stays _
      · exact (insertObservedTurn_advances hins).trans (ensureCurrentAnchor_advances hanchor)
      · refine (updateObservedTurn_advances ht (cleanContent_workerId ..) ?_ hupd).trans
          (ensureCurrentAnchor_advances hanchor)
        rintro hs rfl
        exact hc hs rfl worker currentTime i t hworker htime ht
  | refresh hostId' workers =>
    obtain rfl := Except.ok.inj h
    have hprunes := refreshSnapshotProjections_prunes (R := R) (s := s) hostId' workers
    exact .of_subrows hprunes.hosts fun i t ht => (hprunes.kept i t ht).1
  | repair hostId' now =>
    exact Transition.foldlM_rel (R := Advances hostId stays) (Advances.refl hostId stays)
      (fun _ _ _ => Advances.trans) (fun s₁ e s₂ h₂ => ensureFinalReadyAnchor_advances h₂) _ h

lemma step_advances {c : TurnCall} (hc : stays → c.KeepsWorker R hostId s) :
    Advances hostId stays s (s.step R c) := by
  unfold step
  split
  · next s' h => exact call_advances hc h
  · exact .refl hostId stays s

/-- Every call of a run meets a condition in the store it is made on. -/
def Along (R : TextRules) (P : TurnStore → TurnCall → Prop) : TurnStore → List TurnCall → Prop
  | _, [] => True
  | s, c :: calls => P s c ∧ Along R P (s.step R c) calls

theorem run_advances {calls : List TurnCall}
    (h : stays → Along R (fun s c => c.KeepsWorker R hostId s) s calls) :
    Advances hostId stays s (s.run R calls) := by
  induction calls generalizing s with
  | nil => exact .refl hostId stays s
  | cons c calls ih => exact (step_advances fun hs => (h hs).1).trans (ih fun hs => (h hs).2)

end TurnStore

end Tendwire

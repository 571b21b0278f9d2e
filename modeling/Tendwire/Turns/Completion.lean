import Tendwire.Turns.MergeSpec

/-!
# Completion is monotone

The two completion flags of a stored payload pass every sanitizer unchanged, and each write of a
merge keeps a turn that is complete complete. In a run of merges and snapshot commits there is no
acknowledged tombstone, so no final is ever discarded.
-/

namespace Tendwire

open Json Connector Relational

def completionKeys : List String := ["complete", "has_open_turn"]

/-! ### The flags pass the sanitizers -/

section Flags

variable {R : TextRules} {key : String}

lemma not_rewritten_of_completion (h : key ∈ completionKeys) : key ∉ rewrittenKeys := by
  simp only [completionKeys, List.mem_cons, List.not_mem_nil, or_false] at h
  obtain rfl | rfl := h <;> decide

lemma bool?_sanitizeForbiddenFields (v : Value) :
    (R.sanitizeForbiddenFields v).bool? = v.bool? := by
  cases v <;> simp [TextRules.sanitizeForbiddenFields, Value.bool?]

lemma sanitizePublicValue_ofBool? (hkey : key ∈ completionKeys) (b : Option Bool) :
    R.sanitizePublicValue key (.ofBool? b) = some (.ofBool? b) := by
  have hdrops : R.dropsField key = false := by
    unfold TextRules.dropsField TextRules.normalizedField
    simp only [completionKeys, List.mem_cons, List.not_mem_nil, or_false] at hkey
    obtain rfl | rfl := hkey
    · rw [show strip "complete" = "complete" by decide +kernel,
        (R.completion_public "complete" (by simp)).1]
      decide +kernel
    · rw [show strip "has_open_turn" = "has_open_turn" by decide +kernel,
        (R.completion_public "has_open_turn" (by simp)).1]
      decide +kernel
  cases b <;> simp [Value.ofBool?, TextRules.sanitizePublicValue, hdrops]

lemma keepsKey_of_completion (hkey : key ∈ completionKeys) (v : Value) :
    R.keepsKey key v = true := by
  obtain ⟨-, htext, hfield, hmapping⟩ := R.completion_public key hkey
  unfold TextRules.keepsKey
  simp [htext, hfield, hmapping]

/-- A flag that is stored as a boolean or nothing is read back as it is. -/
lemma get?_sanitizePublicMapping (hkey : key ∈ completionKeys) {m : Fields} {b : Option Bool}
    (h : m.get? key = some (.ofBool? b)) :
    Fields.get? (R.sanitizePublicMapping m) key = some (.ofBool? b) := by
  induction m with
  | nil => cases h
  | cons e m ih =>
    obtain ⟨k, v⟩ := e
    rw [Fields.get?_cons] at h
    rw [TextRules.sanitizePublicMapping]
    by_cases hk : key = k
    · subst hk
      rw [if_pos rfl] at h
      obtain rfl := Option.some.inj h
      rw [if_pos (keepsKey_of_completion hkey _), sanitizePublicValue_ofBool? hkey]
      exact (Fields.get?_cons _ _ _ _).trans (if_pos rfl)
    · rw [if_neg hk] at h
      split
      · split
        · rw [Fields.get?_cons, if_neg hk]
          exact ih h
        · exact ih h
      · exact ih h

/-- The flag of a payload, if it is a boolean. -/
def flag (key : String) (m : Fields) : Option Bool := (m.get? key).bind Value.bool?

lemma get?_toDict_fromDict (payload : Fields) (hkey : key ∈ completionKeys) :
    ((Turn.fromDict R payload).toDict R).get? key = some (.ofBool? (flag key payload)) := by
  have hforbidden := (R.completion_public key hkey).2.2.1
  have hflag : (Fields.get? (R.sanitizeForbiddenMapping payload) key).bind Value.bool? =
      flag key payload := by
    rw [get?_sanitizeForbiddenMapping, hforbidden, if_neg Bool.false_ne_true, flag]
    cases payload.get? key with
    | none => rfl
    | some v => exact bool?_sanitizeForbiddenFields v
  simp only [completionKeys, List.mem_cons, List.not_mem_nil, or_false] at hkey
  rw [← hflag]
  obtain rfl | rfl := hkey <;> rfl

lemma get?_completion_observedTurnPayload (turnId : String) (payload : Fields)
    (hkey : key ∈ completionKeys) :
    (observedTurnPayload R turnId payload).get? key = some (.ofBool? (flag key payload)) :=
  (get?_observedTurnPayload turnId payload (not_rewritten_of_completion hkey)).trans
    (get?_toDict_fromDict payload hkey)

end Flags

/-! ### What a merge writes of the flags -/

/-- A complete payload says that no turn is open. -/
def Closed (m : Fields) : Prop := flag "complete" m = some true → flag "has_open_turn" m = some false

/-- A payload as the merges store it. -/
structure Settled (m : Fields) : Prop where
  stored : ∀ key ∈ completionKeys, m.get? key = some (.ofBool? (flag key m))
  closed : Closed m

section Writes

variable {R : TextRules}

lemma flag_observedTurnPayload (turnId : String) (payload : Fields) {key : String}
    (hkey : key ∈ completionKeys) :
    flag key (observedTurnPayload R turnId payload) = flag key payload := by
  rw [flag, get?_completion_observedTurnPayload turnId payload hkey]
  simp

lemma settled_observedTurnPayload (turnId : String) {payload : Fields} (h : Closed payload) :
    Settled (observedTurnPayload R turnId payload) := by
  have hflag := fun key (hkey : key ∈ completionKeys) =>
    flag_observedTurnPayload (R := R) turnId payload hkey
  refine ⟨fun key hkey => ?_, ?_⟩
  · rw [hflag key hkey]
    exact get?_completion_observedTurnPayload turnId payload hkey
  · unfold Closed
    rw [hflag _ (by simp [completionKeys]), hflag _ (by simp [completionKeys])]
    exact h

lemma isTrue_iff {v : Option Value} : isTrue v = true ↔ v.bind Value.bool? = some true := by
  unfold isTrue
  split
  · simp [Value.bool?]
  · next h =>
    constructor
    · intro hf
      cases hf
    · intro hb
      obtain ⟨w, rfl, hw⟩ := Option.bind_eq_some_iff.mp hb
      cases w <;> simp_all [Value.bool?]

lemma isTrue_get? {key : String} {m : Fields} :
    isTrue (m.get? key) = true ↔ flag key m = some true := isTrue_iff

lemma retainAuthoritativeCompletion_cases (metadata : Fields) (current : Option ContentRevision)
    (existing : Fields) (incomingFinal : Option String) (observedAt : String) :
    (let m := retainAuthoritativeCompletion metadata current existing incomingFinal observedAt
     m.get? "complete" = some (.bool true) ∧ m.get? "has_open_turn" = some (.bool false)) ∨
    (retainAuthoritativeCompletion metadata current existing incomingFinal observedAt = metadata ∧
      flag "complete" metadata ≠ some true ∧ flag "complete" existing ≠ some true) := by
  unfold retainAuthoritativeCompletion
  dsimp only
  split
  · left
    simp [Fields.get?_set]
  · next h =>
    right
    simp only [Bool.or_eq_true, not_or] at h
    exact ⟨rfl, fun hm => h.2.1 (isTrue_get?.mpr hm), fun he => h.1.1 (isTrue_get?.mpr he)⟩

lemma flag_update_retained {payload clean existing : Fields} {current : Option ContentRevision}
    {incomingFinal : Option String} {observedAt : String}
    (hexisting : flag "complete" payload = some true → flag "complete" existing = some true) :
    let p := payload.update
      (retainAuthoritativeCompletion clean current existing incomingFinal observedAt)
    Closed p ∧ (flag "complete" payload = some true → flag "complete" p = some true) := by
  dsimp only
  unfold Closed flag at *
  rw [Fields.get?_update, Fields.get?_update]
  obtain ⟨hcomplete, hopen⟩ | ⟨heq, hclean, hnot⟩ :=
    retainAuthoritativeCompletion_cases clean current existing incomingFinal observedAt
  · rw [hcomplete, hopen]
    exact ⟨fun _ => rfl, fun _ => rfl⟩
  · rw [heq]
    refine ⟨fun hp => ?_, fun hp => absurd (hexisting hp) hnot⟩
    cases hc : clean.get? "complete" with
    | none =>
      rw [hc, Option.none_or] at hp
      exact absurd (hexisting hp) hnot
    | some v =>
      rw [hc, Option.some_or] at hp
      exact absurd (by rw [flag, hc]; exact hp) hclean

/-- A merge keeps a complete payload complete and closed. -/
lemma flag_mergedPayload {stored item clean : Fields} {current : Option ContentRevision}
    {incomingFinal : Option String} {observedAt storedAt : String} (h : Closed stored) :
    let p := TurnStore.mergedPayload R stored item clean current incomingFinal observedAt storedAt
    Closed p ∧ (flag "complete" stored = some true → flag "complete" p = some true) := by
  rw [mergedPayload_eq]
  dsimp only
  set payload := (overwritten item observedMetadataKeys stored).erase "origin_command_id"
    with hpayload
  have hkeep : ∀ key ∈ completionKeys, payload.get? key = stored.get? key := by
    intro key hkey
    have hne : key ∉ observedMetadataKeys ∧ key ≠ "origin_command_id" := by
      simp only [completionKeys, List.mem_cons, List.not_mem_nil, or_false] at hkey
      obtain rfl | rfl := hkey <;> decide
    rw [hpayload, Fields.get?_erase, if_neg hne.2]
    exact get?_overwritten item _ hne.1 stored
  have hcomplete : flag "complete" payload = flag "complete" stored := by
    rw [flag, hkeep _ (by simp [completionKeys]), flag]
  have hopen : flag "has_open_turn" payload = flag "has_open_turn" stored := by
    rw [flag, hkeep _ (by simp [completionKeys]), flag]
  have hclosed : Closed payload := by
    unfold Closed
    rw [hcomplete, hopen]
    exact h
  rw [← hcomplete]
  split
  · exact flag_update_retained id
  · exact ⟨hclosed, id⟩

lemma closed_sanitized {m : Fields} (h : Settled m) : Closed (R.sanitizePublicMapping m) ∧
    flag "complete" (R.sanitizePublicMapping m) = flag "complete" m := by
  have hflag : ∀ key ∈ completionKeys, flag key (R.sanitizePublicMapping m) = flag key m := by
    intro key hkey
    rw [flag, get?_sanitizePublicMapping hkey (h.stored key hkey)]
    simp
  refine ⟨?_, hflag _ (by simp [completionKeys])⟩
  unfold Closed
  rw [hflag _ (by simp [completionKeys]), hflag _ (by simp [completionKeys])]
  exact h.closed

lemma flag_currentWorkerTurnProjection (hostId workerId : String) (worker : Fields) :
    flag "complete" (currentWorkerTurnProjection R hostId workerId worker) = none := by
  unfold currentWorkerTurnProjection
  dsimp only
  rw [flag, TextRules.publicMapping]
  refine (congrArg (Option.bind · Value.bool?)
    (get?_sanitizePublicMapping (b := none) (by simp [completionKeys]) ?_)).trans rfl
  rfl

/-- The row of a new turn is settled, whatever its worker and content say. -/
lemma settled_item {o : TurnStore.TurnObservation} (h : flag "complete" o.projection = none)
    (turnId : String) :
    Settled (stripCanonicalTurnPayload (observedTurnPayload R turnId (o.item R))) := by
  have hseed : Closed (TurnStore.observedSeed R o.projection o.cleanContent o.incomingFinal
      o.observedAt (o.incomingSource R)) := by
    unfold TurnStore.observedSeed
    dsimp only
    set base : Fields := if R.strOrEmpty (Fields.get? (Fields.erase o.projection
        "origin_command_id") "source") = "command" then
      Fields.set (Fields.erase o.projection "origin_command_id") "source" (.text "snapshot")
    else Fields.erase o.projection "origin_command_id" with hbase
    have hnone : flag "complete" base = none := by
      rw [hbase, flag]
      split
      · rw [Fields.get?_set_of_ne _ _ (by decide), Fields.get?_erase, if_neg (by decide)]
        exact h
      · rw [Fields.get?_erase, if_neg (by decide)]
        exact h
    have hupdate : Closed (base.update (retainAuthoritativeCompletion o.cleanContent none []
        o.incomingFinal o.observedAt)) :=
      (flag_update_retained fun hc => by
        rw [hnone] at hc
        cases hc).1
    unfold Closed flag at hupdate ⊢
    rwa [Fields.get?_set_of_ne _ _ (by decide), Fields.get?_set_of_ne _ _ (by decide)]
  have hitem : Closed (o.item R) := by
    have hget : ∀ key ∈ completionKeys, flag key (o.item R) =
        flag key (TurnStore.observedSeed R o.projection o.cleanContent o.incomingFinal
          o.observedAt (o.incomingSource R)) := by
      intro key hkey
      unfold TurnStore.TurnObservation.item
      rw [flag, get?_observedItem _ (not_rewritten_of_completion hkey),
        get?_toDict_fromDict _ hkey]
      simp
    unfold Closed
    rw [hget _ (by simp [completionKeys]), hget _ (by simp [completionKeys])]
    exact hseed
  have hobserved := settled_observedTurnPayload (R := R) turnId hitem
  have hstrip : ∀ key ∈ completionKeys, (stripCanonicalTurnPayload (observedTurnPayload R turnId
      (o.item R))).get? key = (observedTurnPayload R turnId (o.item R)).get? key := by
    intro key hkey
    have hkeys := not_rewritten_of_completion hkey
    simp only [rewrittenKeys, List.mem_cons, List.not_mem_nil, or_false, not_or] at hkeys
    exact get?_stripCanonicalTurnPayload _ (by simp [hkeys])
  refine ⟨fun key hkey => ?_, ?_⟩
  · rw [flag, hstrip key hkey]
    exact hobserved.stored key hkey
  · unfold Closed flag
    rw [hstrip _ (by simp [completionKeys]), hstrip _ (by simp [completionKeys])]
    exact hobserved.closed

end Writes

/-- An observation that is newer than the stored one. -/
def TurnCall.newer (R : TextRules) (t : StoredTurn) : TurnCall → Prop
  | .merge _ _ _ observedAt => ∃ currentTime, R.strictUtcTimestamp observedAt = some currentTime ∧
      turnObservationIsNewer R currentTime t.observedAt = true
  | .refresh _ _ | .repair _ _ => False

namespace TurnStore

variable {R : TextRules} {s s' s'' : TurnStore}

/-! ### Progress -/

/-- The current revision has a complete final. -/
def FinalComplete (s : TurnStore) (hostId turnId : String) : Prop :=
  ∃ revision, s.currentContent? hostId turnId = some revision ∧ revision.finalState = .complete

/-- A row that was written over: it is the same turn, and stays complete. -/
structure RowProgress (t t' : StoredTurn) : Prop where
  host : t'.hostId = t.hostId
  turn : t'.turnId = t.turnId
  settled : Settled t.loaded → Settled t'.loaded
  complete : Settled t.loaded → flag "complete" t.loaded = some true →
    flag "complete" t'.loaded = some true

/-- Turn rows that stay keep what is complete of them; no row comes back under its id. -/
structure Progress (s s' : TurnStore) : Prop where
  next_le : s.turns.table.next ≤ s'.turns.table.next
  rows : ∀ i t', s'.turns.get? i = some t' →
    (s.turns.table.next ≤ i ∧ Settled t'.loaded) ∨ ∃ t, s.turns.get? i = some t ∧ RowProgress t t'
  finals : ∀ i t t', s.turns.get? i = some t → s'.turns.get? i = some t' →
    s.FinalComplete t.hostId t.turnId → s'.FinalComplete t.hostId t.turnId
  deliveries : ∀ k, s.connector.deliveries.get? k = none → s'.connector.deliveries.get? k = none

lemma RowProgress.refl (t : StoredTurn) : RowProgress t t := ⟨rfl, rfl, id, fun _ => id⟩

lemma RowProgress.trans {t t' t'' : StoredTurn} (h : RowProgress t t') (h' : RowProgress t' t'') :
    RowProgress t t'' :=
  ⟨h'.host.trans h.host, h'.turn.trans h.turn, fun hs => h'.settled (h.settled hs),
    fun hs hc => h'.complete (h.settled hs) (h.complete hs hc)⟩

lemma Progress.refl (s : TurnStore) : Progress s s :=
  ⟨Nat.le_refl _, fun _ t' h => .inr ⟨t', h, .refl t'⟩, fun _ _ _ _ _ h => h, fun _ h => h⟩

lemma Progress.trans (h : Progress s s') (h' : Progress s' s'') : Progress s s'' where
  next_le := Nat.le_trans h.next_le h'.next_le
  rows := by
    intro i t'' ht''
    obtain ⟨hi, hset⟩ | ⟨t', ht', hp'⟩ := h'.rows i t'' ht''
    · exact .inl ⟨Nat.le_trans h.next_le hi, hset⟩
    · obtain ⟨hi, hset⟩ | ⟨t, ht, hp⟩ := h.rows i t' ht'
      · exact .inl ⟨hi, hp'.settled hset⟩
      · exact .inr ⟨t, ht, hp.trans hp'⟩
  finals := by
    intro i t t'' ht ht'' hfinal
    obtain ⟨hi, -⟩ | ⟨t', ht', -⟩ := h'.rows i t'' ht''
    · exact absurd (Table.get?_lt_next ht) (Nat.not_lt.mpr (Nat.le_trans h.next_le hi))
    · obtain ⟨hi, -⟩ | ⟨u, hu, hp⟩ := h.rows i t' ht'
      · exact absurd (Table.get?_lt_next ht) (Nat.not_lt.mpr hi)
      · obtain rfl := Option.some.inj (ht.symm.trans hu)
        have hnext := h'.finals i t' t'' ht' ht'' (by
          rw [hp.host, hp.turn]
          exact h.finals i t t' ht ht' hfinal)
        rwa [hp.host, hp.turn] at hnext
  deliveries := fun k hk => h'.deliveries k (h.deliveries k hk)

/-- The rows and the revisions are the same. -/
lemma progress_of_same (hnext : s'.turns.table.next = s.turns.table.next)
    (hturns : ∀ i, s'.turns.get? i = s.turns.get? i)
    (hrevisions : s'.connector.revisions = s.connector.revisions)
    (hdeliveries : ∀ k, s.connector.deliveries.get? k = none →
      s'.connector.deliveries.get? k = none) : Progress s s' where
  next_le := Nat.le_of_eq hnext.symm
  rows := fun i t' ht' => .inr ⟨t', (hturns i).symm.trans ht', .refl t'⟩
  finals := by
    rintro i t t' - - ⟨revision, hcur, hfinal⟩
    refine ⟨revision, ?_, hfinal⟩
    rw [← hcur]
    apply currentContent?_congr
    intro j r _ _
    rw [hrevisions]
  deliveries := hdeliveries

/-! ### Each statement is progress -/

lemma progress_writesRevisions {hostId turnId : String} (h : WritesRevisions s hostId turnId s')
    (hfinal : s.FinalComplete hostId turnId → s'.FinalComplete hostId turnId) : Progress s s' where
  next_le := Nat.le_of_eq (by rw [h.turns])
  rows := fun i t' ht' => .inr ⟨t', by rwa [h.turns] at ht', .refl t'⟩
  finals := by
    intro i t t' _ _ hcomplete
    by_cases hkey : t.hostId = hostId ∧ t.turnId = turnId
    · obtain ⟨rfl, rfl⟩ := hkey
      exact hfinal hcomplete
    · obtain ⟨revision, hcur, hstate⟩ := hcomplete
      exact ⟨revision, (h.currentContent?_of_ne hkey).trans hcur, hstate⟩
  deliveries := by
    intro k hk
    rw [h.eq]
    exact hk

lemma progress_setTurn {f : StoredTurn → StoredTurn} {hostId turnId : String}
    (keep : ∀ t, (f t).hostId = t.hostId ∧ (f t).turnId = t.turnId ∧
      (f t).listSequence = t.listSequence)
    (hf : ∀ i t, s.turn? hostId turnId = some (i, t) → RowProgress t (f t)) :
    Progress s (s.setTurn f hostId turnId keep) where
  next_le := Nat.le_refl _
  rows := by
    intro i t' ht'
    rw [setTurn_get?, Option.map_eq_some_iff] at ht'
    obtain ⟨t, ht, rfl⟩ := ht'
    refine .inr ⟨t, ht, ?_⟩
    split
    · next hkey =>
      simp only [StoredTurn.is, Bool.and_eq_true, beq_iff_eq] at hkey
      exact hf i t (turn?_eq_some_iff.mpr ⟨ht, hkey.1, hkey.2⟩)
    · exact .refl t
  finals := fun _ _ _ _ _ h => h
  deliveries := fun _ h => h

lemma progress_insertOwnedTurn {hostId : String} {item : Fields} {fingerprint observedAt : String}
    (hitem : Settled (stripCanonicalTurnPayload (observedTurnPayload R
      (R.strOrEmpty (item.get? "id")) item)))
    (h : s.insertOwnedTurn R hostId item fingerprint observedAt = .ok s') : Progress s s' := by
  obtain ⟨-, -, hconn, -, -, hget⟩ := insertOwnedTurn_spec h
  have hnext : s'.turns.table.next = s.turns.table.next + 1 := by
    unfold insertOwnedTurn at h
    dsimp only at h
    split at h
    · cases h
    · split at h
      · cases h
      · obtain ⟨t, ht, rfl⟩ := map_eq_ok.mp h
        exact congrArg Table.next (Constrained.insert_eq_some (demand_eq_ok ht))
  refine ⟨by omega, fun i t' ht' => ?_, ?_, ?_⟩
  · rw [hget] at ht'
    split at ht'
    · next hi =>
      obtain rfl := Option.some.inj ht'
      exact .inl ⟨Nat.le_of_eq hi.symm, hitem⟩
    · exact .inr ⟨t', ht', .refl t'⟩
  · rintro i t t' - - ⟨revision, hcur, hfinal⟩
    refine ⟨revision, ?_, hfinal⟩
    rw [← hcur]
    apply currentContent?_congr
    intro j r _ _
    rw [hconn]
  · intro k hk
    rwa [hconn]

/-- Without a tombstone the connector keeps the turn tables. -/
lemma progress_ensureFinalReadyAnchor {hostId turnId : String} {revision : ContentRevision}
    {now : Int} (hquiet : ∀ k, s.connector.deliveries.get? k = none)
    (h : s.ensureFinalReadyAnchor R hostId turnId revision now = .ok s') : Progress s s' := by
  unfold ensureFinalReadyAnchor at h
  split at h
  · cases h
  · next c id hc =>
    have hkeeps : Store.KeepsTurns (s.view R) c := by
      obtain hkeeps | ⟨payload, -, -, htomb, -⟩ := Store.ensureFinalReadyAnchor_turns hc
      · exact hkeeps
      · rw [Store.hasAcknowledgedTombstone_of_empty (s := s.view R) hquiet] at htomb
        cases htomb
    have hget : ∀ i, (s.afterConnector c).turns.get? i = s.turns.get? i := by
      intro i
      unfold afterConnector
      rw [Constrained.get?_deleteWhere, hkeeps.turns, view_turns_get?]
      cases s.turns.get? i <;> rfl
    have hsame : Progress s (s.afterConnector c) :=
      progress_of_same rfl hget hkeeps.revisions hkeeps.deliveries
    dsimp only at h
    split at h
    · obtain rfl := Except.ok.inj h
      exact hsame.trans (progress_of_same rfl (fun _ => rfl) rfl fun _ h => h)
    · obtain rfl := Except.ok.inj h
      exact hsame

lemma currentContent?_of_revisions (h : s'.connector.revisions = s.connector.revisions)
    (hostId turnId : String) : s'.currentContent? hostId turnId = s.currentContent? hostId turnId := by
  apply currentContent?_congr
  intro i r _ _
  rw [h]

lemma currentContent?_ensure {hostId turnId : String} {revision : ContentRevision} {now : Int}
    (hquiet : ∀ k, s.connector.deliveries.get? k = none)
    (h : s.ensureFinalReadyAnchor R hostId turnId revision now = .ok s') (hostId' turnId' : String) :
    s'.currentContent? hostId' turnId' = s.currentContent? hostId' turnId' := by
  unfold ensureFinalReadyAnchor at h
  split at h
  · cases h
  · next c id hc =>
    have hrevisions : c.revisions = s.connector.revisions := by
      obtain hkeeps | ⟨payload, -, -, htomb, -⟩ := Store.ensureFinalReadyAnchor_turns hc
      · exact hkeeps.revisions
      · rw [Store.hasAcknowledgedTombstone_of_empty (s := s.view R) hquiet] at htomb
        cases htomb
    dsimp only at h
    split at h
    · obtain rfl := Except.ok.inj h
      exact currentContent?_of_revisions hrevisions _ _
    · obtain rfl := Except.ok.inj h
      exact currentContent?_of_revisions hrevisions _ _

/-! ### A merge -/

/-- The current contents of all turns but one are the same. -/
def KeepsOthers (s : TurnStore) (hostId turnId : String) (s' : TurnStore) : Prop :=
  ∀ hostId' turnId', ¬ (hostId' = hostId ∧ turnId' = turnId) →
    s'.currentContent? hostId' turnId' = s.currentContent? hostId' turnId'

lemma progress_insertObservedTurn {o : TurnObservation} (hnone : s.turn? o.hostId (o.turnId R) = none)
    (ho : flag "complete" o.projection = none) (h : s.insertObservedTurn R o = .ok s') :
    Progress s s' ∧ KeepsOthers s o.hostId (o.turnId R) s' := by
  unfold insertObservedTurn at h
  obtain ⟨s₁, h₁, h⟩ := bind_eq_ok.mp h
  obtain ⟨⟨s₂, b⟩, h₂, h⟩ := bind_eq_ok.mp h
  obtain ⟨⟨s₃, b'⟩, h₃, h⟩ := bind_eq_ok.mp h
  obtain rfl := Except.ok.inj h
  have hins : Progress s s₁ := progress_insertOwnedTurn (settled_item ho _) h₁
  have hw : WritesRevisions s₁ o.hostId (o.turnId R) s₃ := by
    obtain rfl | ⟨hw₂, -⟩ := replaceCurrentTurnContent_spec h₂
    · obtain rfl | ⟨hw₃, -⟩ := ensureAbsentTurnContentRevision_spec h₃
      · exact .refl _ _ _
      · exact hw₃
    · obtain rfl | ⟨hw₃, -⟩ := ensureAbsentTurnContentRevision_spec h₃
      · exact hw₂
      · exact hw₂.trans hw₃
  have hothers : KeepsOthers s o.hostId (o.turnId R) s₃ := fun hostId' turnId' hne =>
    (hw.currentContent?_of_ne hne).trans
      (currentContent?_of_revisions (congrArg _ (insertOwnedTurn_spec h₁).2.2.1) _ _)
  refine ⟨⟨?_, ?_, ?_, ?_⟩, hothers⟩
  · rw [hw.turns]
    exact hins.next_le
  · rw [hw.turns]
    exact hins.rows
  · rintro i t t' ht - ⟨revision, hcur, hfinal⟩
    refine ⟨revision, (hothers _ _ ?_).trans hcur, hfinal⟩
    exact turn?_eq_none_iff.mp hnone i t ht
  · intro k hk
    rw [hw.eq]
    exact hins.deliveries k hk

lemma updateObservedTurnRow_frame {hostId turnId : String} {payload : Fields}
    {currentTime fingerprint : String} {b : Bool}
    (h : s.updateObservedTurnRow R hostId turnId payload currentTime fingerprint =
      .ok (s', b)) : s'.connector = s.connector := by
  obtain rfl | rfl := updateObservedTurnRow_spec h <;> rfl

/-- The row of a stored turn is written over by what its own payload and revision allow. -/
lemma rowProgress_observedRow {t : StoredTurn} {item clean : Fields}
    {current : Option ContentRevision} {final : Option String} {observedAt fingerprint : String} :
    RowProgress t (observedRow R t (mergedPayload R (R.sanitizePublicMapping t.loaded) item clean
      current final observedAt t.observedAt) observedAt fingerprint) := by
  refine ⟨rfl, rfl, fun hs => ?_, fun hs hc => ?_⟩
  · exact settled_observedTurnPayload t.turnId (flag_mergedPayload (closed_sanitized (R := R) hs).1).1
  · have hmerged : flag "complete" (R.sanitizePublicMapping t.loaded) = some true →
        flag "complete" (mergedPayload R (R.sanitizePublicMapping t.loaded) item clean current
          final observedAt t.observedAt) = some true :=
      (flag_mergedPayload (closed_sanitized (R := R) hs).1).2
    change flag "complete" (observedTurnPayload R t.turnId _) = some true
    rw [flag_observedTurnPayload _ _ (by simp [completionKeys])]
    exact hmerged ((closed_sanitized (R := R) hs).2.trans hc)

lemma finalState_of_complete {final current : Option String} :
    (mergeCanonicalField final current .complete).2 = .complete := by
  unfold mergeCanonicalField
  split <;> rfl

lemma progress_updateObservedTurn {o : TurnObservation} {i : Nat} {t : StoredTurn} {b : Bool}
    (ht : s.turn? o.hostId (o.turnId R) = some (i, t))
    (h : s.updateObservedTurn R o t = .ok (s', b)) :
    Progress s s' ∧ KeepsOthers s o.hostId (o.turnId R) s' ∧
      (turnObservationIsNewer R o.observedAt t.observedAt = false →
        s'.currentContent? o.hostId (o.turnId R) = s.currentContent? o.hostId (o.turnId R)) := by
  unfold updateObservedTurn at h
  dsimp only at h
  split at h
  · cases h
  · obtain ⟨⟨s₁, b₁⟩, h₁, h⟩ := bind_eq_ok.mp h
    have hsame := currentContent?_of_revisions (congrArg Store.revisions (updateObservedTurnRow_frame h₁))
    have hrow : Progress s s₁ := by
      obtain rfl | rfl := updateObservedTurnRow_spec h₁
      · exact .refl s₁
      · refine progress_setTurn _ fun j u hu => ?_
        obtain ⟨-, rfl⟩ := Prod.mk.inj (Option.some.inj (ht.symm.trans hu))
        exact rowProgress_observedRow
    split at h
    · next hnewer =>
      obtain ⟨⟨s₂, b₂⟩, h₂, h⟩ := bind_eq_ok.mp h
      obtain ⟨⟨s₃, b₃⟩, h₃, h⟩ := bind_eq_ok.mp h
      obtain ⟨rfl, -⟩ := Prod.mk.inj (Except.ok.inj h)
      have hcontent : Progress s₁ s₂ ∧ KeepsOthers s₁ o.hostId (o.turnId R) s₂ := by
        obtain rfl | ⟨hw, revision, hcur, hstate⟩ := replaceCurrentTurnContent_spec h₂
        · exact ⟨.refl _, fun _ _ _ => rfl⟩
        · refine ⟨progress_writesRevisions hw ?_, fun _ _ hne => hw.currentContent?_of_ne hne⟩
          rintro ⟨old, hold, hcomplete⟩
          refine ⟨revision, hcur, ?_⟩
          have holds : (s.currentRevision? o.hostId (o.turnId R)).map (·.contentRevision) =
              some old := (hsame _ _).symm.trans hold
          rw [hstate, holds]
          change (mergeCanonicalField _ _ old.finalState).2 = .complete
          rw [hcomplete]
          exact finalState_of_complete
      have habsent : Progress s₂ s₃ ∧ KeepsOthers s₂ o.hostId (o.turnId R) s₃ := by
        obtain rfl | ⟨hw, hnone⟩ := ensureAbsentTurnContentRevision_spec h₃
        · exact ⟨.refl _, fun _ _ _ => rfl⟩
        · refine ⟨progress_writesRevisions hw ?_, fun _ _ hne => hw.currentContent?_of_ne hne⟩
          rintro ⟨old, hold, -⟩
          rw [hnone] at hold
          cases hold
      refine ⟨hrow.trans (hcontent.1.trans habsent.1), fun hostId' turnId' hne => ?_, fun hf => ?_⟩
      · rw [habsent.2 _ _ hne, hcontent.2 _ _ hne, hsame]
      · rw [hnewer] at hf
        cases hf
    · obtain ⟨rfl, -⟩ := Prod.mk.inj (Except.ok.inj h)
      exact ⟨hrow, fun hostId' turnId' _ => hsame _ _, fun _ => hsame _ _⟩

lemma progress_ensureCurrentAnchor {hostId turnId : String} {now : Int}
    (hquiet : ∀ k, s.connector.deliveries.get? k = none)
    (h : s.ensureCurrentAnchor R hostId turnId now = .ok s') :
    Progress s s' ∧ ∀ hostId' turnId',
      s'.currentContent? hostId' turnId' = s.currentContent? hostId' turnId' := by
  unfold ensureCurrentAnchor at h
  split at h
  · exact ⟨progress_ensureFinalReadyAnchor hquiet h, currentContent?_ensure hquiet h⟩
  · obtain rfl := Except.ok.inj h
    exact ⟨.refl s, fun _ _ => rfl⟩

lemma touchTurn_progress {t : StoredTurn} {observedAt : String} :
    Progress s (s.touchTurn R t observedAt) ∧
      (s.touchTurn R t observedAt).connector = s.connector := by
  unfold touchTurn
  split
  · exact ⟨progress_setTurn _ fun _ _ _ => ⟨rfl, rfl, id, fun _ => id⟩, rfl⟩
  · exact ⟨.refl s, rfl⟩

/-- The turns that stay keep their current content, or are among those `newer` tells. -/
def KeepsContents (newer : StoredTurn → Prop) (s s' : TurnStore) : Prop :=
  ∀ i t t', s.turns.get? i = some t → s'.turns.get? i = some t' →
    s'.currentContent? t.hostId t.turnId = s.currentContent? t.hostId t.turnId ∨ newer t

lemma keepsContents_of_eq {newer : StoredTurn → Prop}
    (h : ∀ hostId turnId, s'.currentContent? hostId turnId = s.currentContent? hostId turnId) :
    KeepsContents newer s s' := fun _ _ _ _ _ => .inl (h _ _)

lemma progress_mergeObservedTurnContent {o : TurnObservation} {n : Nat}
    (hquiet : ∀ k, s.connector.deliveries.get? k = none)
    (ho : flag "complete" o.projection = none) (h : s.mergeObservedTurnContent R o = .ok (s', n)) :
    Progress s s' ∧
      KeepsContents (fun t => turnObservationIsNewer R o.observedAt t.observedAt = true) s s' := by
  obtain rfl | ⟨s₁, hanchor, happly⟩ := mergeObservedTurnContent_cases h
  · exact ⟨.refl _, keepsContents_of_eq fun _ _ => rfl⟩
  · obtain ⟨hnone, hins⟩ | ⟨i, t, b, ht, hupd⟩ := happly
    · obtain ⟨hprogress, hothers⟩ := progress_insertObservedTurn hnone ho hins
      obtain ⟨hlast, hsame⟩ :=
        progress_ensureCurrentAnchor (fun k => hprogress.deliveries k (hquiet k)) hanchor
      refine ⟨hprogress.trans hlast, fun j u u' hu _ => .inl ?_⟩
      rw [hsame]
      exact hothers _ _ (turn?_eq_none_iff.mp hnone j u hu)
    · obtain ⟨hprogress, hothers, hstale⟩ := progress_updateObservedTurn ht hupd
      obtain ⟨hlast, hsame⟩ :=
        progress_ensureCurrentAnchor (fun k => hprogress.deliveries k (hquiet k)) hanchor
      refine ⟨hprogress.trans hlast, fun j u u' hu _ => ?_⟩
      rw [hsame]
      by_cases hkey : u.hostId = o.hostId ∧ u.turnId = o.turnId R
      · obtain ⟨-, rfl⟩ := Prod.mk.inj
          (Option.some.inj (ht.symm.trans (turn?_eq_some_iff.mpr ⟨hu, hkey⟩)))
        cases hnewer : turnObservationIsNewer R o.observedAt t.observedAt with
        | true => exact .inr hnewer
        | false =>
          left
          rw [hkey.1, hkey.2]
          exact hstale hnewer
      · exact .inl (hothers _ _ hkey)

/-! ### A snapshot -/

lemma Prunes.progress (h : Prunes s s') : Progress s s' where
  next_le := Nat.le_of_eq h.next.symm
  rows := fun i t ht => .inr ⟨t, (h.kept i t ht).1, .refl t⟩
  finals := by
    rintro i t t' ht ht' ⟨revision, hcur, hfinal⟩
    obtain ⟨hstored, hsame⟩ := h.kept i t' ht'
    obtain rfl := Option.some.inj (ht.symm.trans hstored)
    exact ⟨revision, hsame.trans hcur, hfinal⟩
  deliveries := by
    intro k hk
    rwa [h.deliveries]

lemma Prunes.keepsContents (h : Prunes s s') (newer : StoredTurn → Prop) :
    KeepsContents newer s s' := by
  intro i t t' ht ht'
  obtain ⟨hstored, hsame⟩ := h.kept i t' ht'
  obtain rfl := Option.some.inj (ht.symm.trans hstored)
  exact .inl hsame

/-- The repair of missing roots writes no turn and no revision. -/
lemma repairMissingFinalReadyAnchors_progress {hostId : String} {now : Int}
    (hquiet : ∀ k, s.connector.deliveries.get? k = none)
    (h : s.repairMissingFinalReadyAnchors R hostId now = .ok s') :
    Progress s s' ∧ ∀ hostId' turnId',
      s'.currentContent? hostId' turnId' = s.currentContent? hostId' turnId' := by
  refine Transition.foldlM_invariant
    (P := fun s₁ => Progress s s₁ ∧ ∀ hostId' turnId',
      s₁.currentContent? hostId' turnId' = s.currentContent? hostId' turnId')
    (fun s₁ e s₂ _ hs₁ hstep => ?_) ⟨.refl s, fun _ _ => rfl⟩ h
  have hquiet₁ := fun k => hs₁.1.deliveries k (hquiet k)
  refine ⟨hs₁.1.trans (progress_ensureFinalReadyAnchor hquiet₁ hstep), fun _ _ => ?_⟩
  rw [currentContent?_ensure hquiet₁ hstep, hs₁.2]

/-! ### A run -/

lemma call_progress {c : TurnCall} (hquiet : ∀ k, s.connector.deliveries.get? k = none)
    (h : s.call R c = .ok s') :
    Progress s s' ∧ KeepsContents (fun t => c.newer R t) s s' := by
  cases c with
  | merge hostId workerId content observedAt =>
    obtain ⟨⟨s₁, n⟩, hrefresh, rfl⟩ := map_eq_ok.mp h
    obtain ⟨currentTime, htime, hcases⟩ := applyTurnRefresh_cases hrefresh
    obtain rfl | ⟨worker, -, ⟨t, -, rfl⟩ | hmerge⟩ := hcases
    · exact ⟨.refl _, keepsContents_of_eq fun _ _ => rfl⟩
    · exact ⟨touchTurn_progress.1,
        keepsContents_of_eq (currentContent?_of_revisions (by rw [touchTurn_progress.2]))⟩
    · obtain ⟨hprogress, hcontents⟩ := progress_mergeObservedTurnContent hquiet
        (flag_currentWorkerTurnProjection hostId workerId worker.payload) hmerge
      refine ⟨hprogress, fun i t t' ht ht' => ?_⟩
      obtain hsame | hnewer := hcontents i t t' ht ht'
      · exact .inl hsame
      · exact .inr ⟨currentTime, htime, hnewer⟩
  | refresh hostId workers =>
    obtain rfl := Except.ok.inj h
    have hprunes := refreshSnapshotProjections_prunes (R := R) (s := s) hostId workers
    exact ⟨hprunes.progress, hprunes.keepsContents _⟩
  | repair hostId now =>
    obtain ⟨hprogress, hsame⟩ := repairMissingFinalReadyAnchors_progress hquiet h
    exact ⟨hprogress, keepsContents_of_eq hsame⟩

lemma step_progress (c : TurnCall) (hquiet : ∀ k, s.connector.deliveries.get? k = none) :
    Progress s (s.step R c) ∧ KeepsContents (fun t => c.newer R t) s (s.step R c) := by
  unfold step
  split
  · next s' h => exact call_progress hquiet h
  · exact ⟨.refl s, keepsContents_of_eq fun _ _ => rfl⟩

/-- A store that only merges and snapshots have written. -/
structure Observed (s : TurnStore) : Prop where
  quiet : ∀ k, s.connector.deliveries.get? k = none
  settled : ∀ i t, s.turns.get? i = some t → Settled t.loaded

lemma Observed.of_progress (hs : Observed s) (h : Progress s s') : Observed s' where
  quiet := fun k => h.deliveries k (hs.quiet k)
  settled := by
    intro i t' ht'
    obtain ⟨-, hset⟩ | ⟨t, ht, hrow⟩ := h.rows i t' ht'
    · exact hset
    · exact hrow.settled (hs.settled i t ht)

lemma run_progress (calls : List TurnCall) (hs : Observed s) :
    Progress s (s.run R calls) ∧ Observed (s.run R calls) := by
  refine Transition.foldl_invariant (P := fun s' => Progress s s' ∧ Observed s')
    (fun s' c _ h => ?_) ⟨.refl s, hs⟩
  have hstep := (step_progress (R := R) c h.2.quiet).1
  exact ⟨h.1.trans hstep, h.2.of_progress hstep⟩

lemma observed_fresh (supersessions : Constrained supersessionSchema) (storeEpoch : String) :
    Observed (TurnStore.fresh supersessions storeEpoch) where
  quiet := fun _ => rfl
  settled := by
    intro i t ht
    have hnone : (TurnStore.fresh supersessions storeEpoch).turns.get? i = none :=
      Constrained.get?_empty i
    rw [hnone] at ht
    cases ht

/-- What two stores of one run say of a turn that is stored in both. -/
structure CompletionKept (s s' : TurnStore) : Prop where
  same : ∀ i t t', s.turns.get? i = some t → s'.turns.get? i = some t' →
    t'.hostId = t.hostId ∧ t'.turnId = t.turnId
  final : ∀ i t t', s.turns.get? i = some t → s'.turns.get? i = some t' →
    s.FinalComplete t.hostId t.turnId → s'.FinalComplete t.hostId t.turnId
  complete : ∀ i t t', s.turns.get? i = some t → s'.turns.get? i = some t' →
    flag "complete" t.loaded = some true →
      flag "complete" t'.loaded = some true ∧ flag "has_open_turn" t'.loaded = some false

lemma Progress.completionKept (h : Progress s s') (hs : Observed s) : CompletionKept s s' := by
  have hrow : ∀ i t t', s.turns.get? i = some t → s'.turns.get? i = some t' →
      RowProgress t t' := by
    intro i t t' ht ht'
    obtain ⟨hi, -⟩ | ⟨u, hu, hp⟩ := h.rows i t' ht'
    · exact absurd (Table.get?_lt_next ht) (Nat.not_lt.mpr hi)
    · obtain rfl := Option.some.inj (ht.symm.trans hu)
      exact hp
  refine ⟨fun i t t' ht ht' => ?_, h.finals, fun i t t' ht ht' hc => ?_⟩
  · exact ⟨(hrow i t t' ht ht').host, (hrow i t t' ht ht').turn⟩
  · have hcomplete := (hrow i t t' ht ht').complete (hs.settled i t ht) hc
    exact ⟨hcomplete, ((hs.of_progress h).settled i t' ht').closed hcomplete⟩

/-- Completion is monotone. In a run of merges and snapshots a turn that is still stored has kept
a complete final and a completion, and only an observation that is newer than the stored one has
changed the content of its current revision. -/
theorem completion_monotone (supersessions : Constrained supersessionSchema) (storeEpoch : String)
    (before after : List TurnCall) (c : TurnCall) :
    let s := (TurnStore.fresh supersessions storeEpoch).run R before
    CompletionKept s (s.run R after) ∧ KeepsContents (fun t => c.newer R t) s (s.step R c) := by
  intro s
  have hs : Observed s := (run_progress before (observed_fresh supersessions storeEpoch)).2
  exact ⟨(run_progress after hs).1.completionKept hs, (step_progress c hs.quiet).2⟩

end TurnStore

end Tendwire

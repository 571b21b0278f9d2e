import Tendwire.Turns.Item

/-!
# turn.list and turn.delta show the same item

Both paths build an item from the same row. They fail and skip alike, and what they return
agrees on every key that both are meant to share.
-/

namespace Tendwire

open Json Connector Relational

/-- The version of the projection, and the pending extension of turn.list. -/
def unsharedItemKeys : List String := ["schema_version", "awaiting_input", "pending_decision"]

/-- turn.list shows the schema version of the turn, turn.delta that of its projection; every
shared key is the same. -/
structure ItemsAgree (listed delta : Fields) : Prop where
  listed_version : listed.get? "schema_version" = some (.int turnSchemaVersion)
  delta_version : delta.get? "schema_version" = some (.int turnDeltaProjectionSchemaVersion)
  shared : ∀ key ∉ unsharedItemKeys, listed.get? key = delta.get? key

/-- What the two paths make of one row. -/
def OutcomesAgree : Except String (Option ListItem) → Except String (Option Fields) → Prop
  | .error e, .error e' => e = e'
  | .ok none, .ok none => True
  | .ok (some listed), .ok (some delta) => ItemsAgree listed.fields delta
  | _, _ => False

section Keys

variable (R : TextRules)

/-- Keeping the stored source id respects agreement on any key. -/
lemma get?_keepStoredSource_congr (payload : Fields) {m m' : Fields} {key : String}
    (h : m.get? key = m'.get? key) :
    (keepStoredSource R payload m).get? key = (keepStoredSource R payload m').get? key := by
  unfold keepStoredSource
  dsimp only
  split
  · split
    · rw [Fields.get?_set, Fields.get?_set, h]
    · exact h
  · exact h

lemma schemaVersion_keepStoredSource (payload m : Fields) :
    (keepStoredSource R payload m).get? "schema_version" = m.get? "schema_version" := by
  unfold keepStoredSource
  dsimp only
  split
  · split
    · exact Fields.get?_set_of_ne _ _ (by decide)
    · rfl
  · rfl

/-- A projection says nothing about the version of the item. -/
lemma schemaVersion_fields (p : ContentProjection)
    (h : p.texts.get? "schema_version" = none) : (p.fields R).get? "schema_version" = none := by
  rw [ContentProjection.fields, Fields.get?_cons, if_neg (by decide), h]

end Keys

/-! ### What a projection writes -/

section Projections

variable {R : TextRules}

lemma schemaVersion_texts (field : TurnField) (c : FieldColumns) :
    (c.texts field).get? "schema_version" = none := by
  unfold FieldColumns.texts
  cases field <;> split <;> try split
  all_goals rfl

lemma schemaVersion_projectContentText (field : TurnField) (text : Option String)
    (d : ContentFieldDescriptor) :
    (projectContentText field text d).get? "schema_version" = none := by
  unfold projectContentText
  cases field <;> split <;> split
  all_goals rfl

lemma schemaVersion_projectPersisted {c : ContentColumns} {p : ContentProjection}
    (h : projectPersistedTurnContent R c = .ok p) :
    (p.fields R).get? "schema_version" = none := by
  unfold projectPersistedTurnContent at h
  simp only [bind_eq_ok] at h
  obtain ⟨user, -, final, -, h⟩ := h
  obtain rfl := Except.ok.inj h
  exact schemaVersion_fields R _
    (Fields.get?_append_of_none (schemaVersion_texts _ _) (schemaVersion_texts _ _))

lemma schemaVersion_projectTurnContent {turnId : String} {user final : Option String}
    {userState finalState : ContentState} {p : ContentProjection}
    (h : projectTurnContent R turnId user final userState finalState = .ok p) :
    (p.fields R).get? "schema_version" = none := by
  unfold projectTurnContent at h
  simp only [bind_eq_ok] at h
  obtain ⟨_, -, _, -, _, -, d, -, d', -, h⟩ := h
  obtain rfl := Except.ok.inj h
  exact schemaVersion_fields R _ (Fields.get?_append_of_none
    (schemaVersion_projectContentText _ _ _) (schemaVersion_projectContentText _ _ _))

end Projections

/-! ### The two paths share their projection -/

section Paths

variable (R : TextRules)

/-- The projection of the current revision, or of the texts in a legacy payload. -/
def rowProjection (turnId : String) (serialized : Fields) (columns : Option ContentColumns) :
    Except String (Option ContentProjection) :=
  match columns with
  | some c => (projectPersistedTurnContent R c).map some
  | none =>
    let (user, userState) := legacyCanonicalField R (serialized.get? "user_text")
    let (final, finalState) := legacyCanonicalField R (serialized.get? "assistant_final_text")
    if userState ≠ .absent ∨ finalState ≠ .absent then
      (projectTurnContent R turnId user final userState finalState).map some
    else
      .ok none

def applyProjection (item : Fields) (p : Option ContentProjection) : Fields :=
  p.elim item fun p => item.update (p.fields R)

lemma listContent_fields (turnId : String) (serialized : Fields)
    (columns : Option ContentColumns) (item : Fields) :
    (listContent R turnListSchemaVersion turnId serialized columns item).map ListItem.fields =
      (rowProjection R turnId serialized columns).map (applyProjection R item) := by
  unfold listContent rowProjection
  cases columns with
  | some c =>
    dsimp only
    cases projectPersistedTurnContent R c <;> rfl
  | none =>
    simp only [if_true]
    split
    · cases projectTurnContent R turnId _ _ _ _ <;> rfl
    · rfl

lemma turnDeltaProjection_of_payload {t : StoredTurn} {payload : Fields}
    (h : publicTurnPayload R t = some payload) (columns : Option ContentColumns) :
    turnDeltaProjection R t columns =
      (rowProjection R t.turnId ((Turn.fromDict R payload).toDict R) columns).map fun p =>
        some ((applyProjection R (keepStoredSource R payload
          ((stripCanonicalTurnPayload ((Turn.fromDict R payload).toDict R)).set "id"
            (.text t.turnId))) p).set "schema_version" (.int turnDeltaProjectionSchemaVersion)) := by
  unfold turnDeltaProjection rowProjection
  rw [h]
  cases columns with
  | some c =>
    dsimp only
    cases projectPersistedTurnContent R c <;> rfl
  | none =>
    dsimp only
    split
    · cases projectTurnContent R t.turnId _ _ _ _ <;> rfl
    · rfl

lemma listItem_of_payload {t : StoredTurn} {payload : Fields}
    (h : publicTurnPayload R t = some payload) (columns : Option ContentColumns) :
    (listItem R turnListSchemaVersion t columns).map (Option.map ListItem.fields) =
      (rowProjection R t.turnId ((Turn.fromDict R payload).toDict R) columns).map fun p =>
        some (applyProjection R (keepStoredSource R payload
          (((stripCanonicalTurnPayload ((Turn.fromDict R payload).toDict R)).update
            (publicPendingTurnExtension R payload)).set "id" (.text t.turnId))) p) := by
  have hc := listContent_fields R t.turnId ((Turn.fromDict R payload).toDict R) columns
    (keepStoredSource R payload
      (((stripCanonicalTurnPayload ((Turn.fromDict R payload).toDict R)).update
        (publicPendingTurnExtension R payload)).set "id" (.text t.turnId)))
  unfold listItem
  rw [h]
  dsimp only
  cases hl : listContent R turnListSchemaVersion t.turnId ((Turn.fromDict R payload).toDict R)
      columns (keepStoredSource R payload
        (((stripCanonicalTurnPayload ((Turn.fromDict R payload).toDict R)).update
          (publicPendingTurnExtension R payload)).set "id" (.text t.turnId))) with
  | error e =>
    rw [hl] at hc
    cases hp : rowProjection R t.turnId ((Turn.fromDict R payload).toDict R) columns with
    | error e' =>
      rw [hp] at hc
      exact congrArg Except.error (Except.error.inj hc)
    | ok p =>
      rw [hp] at hc
      cases hc
  | ok item =>
    rw [hl] at hc
    cases hp : rowProjection R t.turnId ((Turn.fromDict R payload).toDict R) columns with
    | error e' =>
      rw [hp] at hc
      cases hc
    | ok p =>
      rw [hp] at hc
      exact congrArg (fun m => Except.ok (some m)) (Except.ok.inj hc)

lemma schemaVersion_rowProjection {turnId : String} {serialized : Fields}
    {columns : Option ContentColumns} {p : ContentProjection}
    (h : rowProjection R turnId serialized columns = .ok (some p)) :
    (p.fields R).get? "schema_version" = none := by
  unfold rowProjection at h
  cases columns with
  | some c =>
    obtain ⟨q, hq, heq⟩ := map_eq_ok.mp h
    obtain rfl := Option.some.inj heq
    exact schemaVersion_projectPersisted hq
  | none =>
    dsimp only at h
    split at h
    · obtain ⟨q, hq, heq⟩ := map_eq_ok.mp h
      obtain rfl := Option.some.inj heq
      exact schemaVersion_projectTurnContent hq
    · cases h

lemma get?_applyProjection_congr (p : Option ContentProjection) {m m' : Fields} {key : String}
    (h : m.get? key = m'.get? key) :
    (applyProjection R m p).get? key = (applyProjection R m' p).get? key := by
  cases p with
  | none => exact h
  | some p => exact Fields.get?_update_congr _ h

lemma schemaVersion_applyProjection {turnId : String} {serialized : Fields}
    {columns : Option ContentColumns} {p : Option ContentProjection}
    (h : rowProjection R turnId serialized columns = .ok p) (item : Fields) :
    (applyProjection R item p).get? "schema_version" = item.get? "schema_version" := by
  cases p with
  | none => rfl
  | some p => exact Fields.get?_update_of_none _ _ (schemaVersion_rowProjection R h)

lemma schemaVersion_stripped (t : Turn) :
    (stripCanonicalTurnPayload (t.toDict R)).get? "schema_version" =
      some (.int turnSchemaVersion) := by
  simp only [stripCanonicalTurnPayload, List.foldl_cons, List.foldl_nil, Fields.get?_erase]
  rfl

end Paths

/-- turn.list and turn.delta build the same item from every stored turn, up to the version and
the pending extension. -/
theorem TurnStore.items_agree (s : TurnStore) (R : TextRules) (t : StoredTurn) :
    OutcomesAgree (s.turnListItem R turnListSchemaVersion t) (s.turnDeltaItem R t) := by
  unfold TurnStore.turnListItem TurnStore.turnDeltaItem
  change OutcomesAgree (listItem R turnListSchemaVersion t
    ((s.currentRevision? t.hostId t.turnId).map listSelect)) (turnDeltaProjection R t
      ((s.currentRevision? t.hostId t.turnId).map listSelect))
  generalize (s.currentRevision? t.hostId t.turnId).map listSelect = columns
  cases hp : publicTurnPayload R t with
  | none =>
    simp only [listItem, turnDeltaProjection, hp]
    trivial
  | some payload =>
    have hl := listItem_of_payload R hp columns
    rw [turnDeltaProjection_of_payload R hp columns]
    cases hr : rowProjection R t.turnId ((Turn.fromDict R payload).toDict R) columns with
    | error e =>
      rw [hr] at hl
      cases hi : listItem R turnListSchemaVersion t columns with
      | error e' =>
        rw [hi] at hl
        exact Except.error.inj hl
      | ok item =>
        rw [hi] at hl
        cases hl
    | ok p =>
      rw [hr] at hl
      cases hi : listItem R turnListSchemaVersion t columns with
      | error e' =>
        rw [hi] at hl
        cases hl
      | ok item =>
        rw [hi] at hl
        cases item with
        | none => cases hl
        | some item =>
          have hfields := Option.some.inj (Except.ok.inj hl)
          refine ⟨?_, Fields.get?_set_self _ _ _, ?_⟩
          · rw [hfields, schemaVersion_applyProjection R hr, schemaVersion_keepStoredSource,
              Fields.get?_set_of_ne _ _ (by decide),
              Fields.get?_update_of_none _ _ (get?_publicPendingTurnExtension R payload (by decide))]
            exact schemaVersion_stripped R _
          · intro key hkey
            rw [hfields, Fields.get?_set_of_ne _ _ (by
              rintro rfl
              exact hkey (by decide))]
            apply get?_applyProjection_congr
            apply get?_keepStoredSource_congr
            rw [Fields.get?_set, Fields.get?_set,
              Fields.get?_update_of_none _ _
                (get?_publicPendingTurnExtension R payload fun h => hkey (List.mem_cons_of_mem _ h))]

/-! ### The items of one row are not equal -/

/-- Text rules under which every ordinary word is public. -/
def plainTextRules : TextRules where
  display := fun _ => "value"
  lower := id
  sanitizePublicText := id
  sanitizeValueText := id
  sanitizeTurnText := id
  isForbiddenFieldName := fun _ => false
  isForbiddenPublicMappingKey := fun _ => false
  containsForbiddenPublicText := fun _ => false
  looksLikeRawCommand := fun _ => false
  isRedacted := fun _ => false
  isOpaqueId := fun _ => false
  isTelegramChatId := fun _ => false
  looksLikeAutomationUserText := fun _ => false
  looksLikeAutomationResultText := fun _ => false
  stableFingerprint := fun _ => "0"
  revisionText := fun r => "twrev1." ++ r.turnId
  cursorText := fun c => "twcur1." ++ c.contentRevision.turnId
  strictUtcTimestamp := some
  instant := fun _ => 0
  canonicalJson := fun _ => ""
  completion_public := fun _ _ => ⟨rfl, rfl, rfl, rfl⟩

/-- A turn of an active worker that waits for a decision. -/
def awaitingTurn : StoredTurn where
  hostId := "host"
  turnId := "turn-1"
  workerId := "worker-1"
  workerFingerprint := .null
  spaceId := .null
  status := "active"
  kind := "task"
  updatedAt := .null
  fingerprint := "0"
  snapshotContentFingerprint := "0"
  observedAt := "2026-01-01T00:00:00+00:00"
  payload := .object [("host_id", .text "host"), ("worker_id", .text "worker-1"),
    ("awaiting_input", .bool true), ("pending_decision", .object [("prompt", .text "Go on?")])]
  listSequence := 1

/-- The two items of a row are the same mapping. -/
def SameItems (R : TextRules) (s : TurnStore) (t : StoredTurn) : Prop :=
  ∀ listed delta, s.turnListItem R turnListSchemaVersion t = .ok (some listed) →
    s.turnDeltaItem R t = .ok (some delta) → ∀ key, listed.fields.get? key = delta.get? key

/-- The revision of a turn of which no text was seen. -/
def absentRow (hostId turnId : String) : RevisionRow where
  hostId
  turnId
  contentRevision := ⟨turnId, none, none, .absent, .absent⟩
  userCharLength := 0
  userByteLength := 0
  finalCharLength := 0
  finalByteLength := 0
  userPageCount := 0
  finalPageCount := 0
  isCurrent := true

/-- The store of the one waiting turn. -/
def awaitingStore : TurnStore :=
  { TurnStore.fresh .empty "epoch" with
    turns := ⟨Table.empty.insert awaitingTurn, by
      simp [Schema.Holds, Table.insert, Table.empty, storedTurnSchema, awaitingTurn]⟩
    connector :=
      { Store.initial .empty with
        revisions := ⟨Table.empty.insert (absentRow "host" "turn-1"), by
          simp [Schema.Holds, Table.insert, Table.empty, revisionSchema, absentRow]⟩ } }

def versionOf (item : Except String (Option Fields)) : Option Int :=
  match item with
  | .ok (some m) => (m.get? "schema_version").bind Value.int?
  | _ => none

lemma exists_of_versionOf {item : Except String (Option Fields)} {n : Int}
    (h : versionOf item = some n) : ∃ m, item = .ok (some m) := by
  unfold versionOf at h
  split at h
  · next m => exact ⟨m, rfl⟩
  · cases h

theorem not_sameItems_of_awaitingTurn :
    ¬ SameItems plainTextRules awaitingStore awaitingTurn := by
  intro same
  have hl : versionOf ((awaitingStore.turnListItem plainTextRules turnListSchemaVersion
      awaitingTurn).map (Option.map ListItem.fields)) = some 1 := by decide +kernel
  have hd : versionOf (awaitingStore.turnDeltaItem plainTextRules awaitingTurn) = some 2 := by
    decide +kernel
  obtain ⟨m, hm⟩ := exists_of_versionOf hl
  obtain ⟨o, ho, heq⟩ := map_eq_ok.mp hm
  obtain ⟨listed, rfl, rfl⟩ := Option.map_eq_some_iff.mp heq
  obtain ⟨delta, hdelta⟩ := exists_of_versionOf hd
  rw [ho] at hl
  rw [hdelta] at hd
  have hversion : versionOf (.ok (some listed.fields)) = versionOf (.ok (some delta)) :=
    congrArg (fun v => v.bind Value.int?) (same listed delta ho hdelta "schema_version")
  have h12 : (some 1 : Option Int) = some 2 := hl.symm.trans (hversion.trans hd)
  cases h12

end Tendwire

import Mathlib.Algebra.Ring.Nat
import Tendwire.Turns.TurnStore

/-!
# Turn items

The content projection of a stored revision or of a legacy payload, and the item that
turn.list and turn.delta build from one row of their queries. A `ValueError` is its text.
-/

namespace Tendwire

open Json Connector

def turnListSchemaVersion : Nat := 2

def turnDeltaProjectionSchemaVersion : Nat := turnListSchemaVersion

def turnContentSchemaVersion : Nat := 1

def turnTextMaxChars : Nat := 12000

def turnContentPreviewMaxChars : Nat := 1000

def turnContentPageMaxUtf8Bytes : Nat := 48 * 1024

def legacyTruncationMarker : String := "\n[truncated]"

/-! ### The selected columns -/

/-- One content field as the projection queries select it. -/
structure FieldColumns where
  state : ContentState
  charLength : Nat
  byteLength : Nat
  pageCount : Nat
  inlineText : Option String
  previewText : Option String

/-- The `CASE` columns of one field. -/
def selectField (textMax previewMax : Nat) (state : ContentState)
    (charLength byteLength pageCount : Nat) (text : Option String) : FieldColumns :=
  let bounded := state == .complete && decide (1 ≤ charLength) && decide (charLength ≤ textMax)
  { state
    charLength
    byteLength
    pageCount := if state = .complete then pageCount else 0
    inlineText := if bounded then text else none
    previewText :=
      if state != .absent && !bounded then text.map (prefixChars previewMax) else none }

structure ContentColumns where
  contentRevision : ContentRevision
  user : FieldColumns
  final : FieldColumns

/-- What the left join with the current revision gives. -/
def selectContent (textMax previewMax : Nat) (r : RevisionRow) : ContentColumns where
  contentRevision := r.contentRevision
  user := selectField textMax previewMax r.contentRevision.userState r.userCharLength
    r.userByteLength r.userPageCount r.contentRevision.userText
  final := selectField textMax previewMax r.contentRevision.finalState r.finalCharLength
    r.finalByteLength r.finalPageCount r.contentRevision.finalText

def listSelect : RevisionRow → ContentColumns :=
  selectContent turnTextMaxChars turnContentPreviewMaxChars

def turnDeltaProjectionSelect : RevisionRow → ContentColumns :=
  selectContent turnTextMaxChars turnContentPreviewMaxChars

/-! ### Descriptors -/

def TurnField.key : TurnField → String
  | .userText => "user_text"
  | .assistantFinalText => "assistant_final_text"

def TurnField.previewKey : TurnField → String
  | .userText => "user_preview"
  | .assistantFinalText => "assistant_final_preview"

def ContentState.text : ContentState → String
  | .absent => "absent"
  | .complete => "complete"
  | .knownIncomplete => "known_incomplete"

structure ContentFieldDescriptor where
  availability : ContentState
  inline : Bool
  charLength : Nat
  byteLength : Nat
  pageCount : Nat
  firstCursor : Option String

namespace ContentFieldDescriptor

def validate (d : ContentFieldDescriptor) : Except String ContentFieldDescriptor :=
  if d.availability != .complete && (d.inline || d.pageCount != 0 || d.firstCursor.isSome) then
    .error "incomplete_content_cannot_be_inline_or_pageable"
  else if d.availability == .absent && (d.charLength != 0 || d.byteLength != 0) then
    .error "absent_content_has_length"
  else if d.inline && d.firstCursor.isSome then
    .error "inline_content_has_cursor"
  else if d.availability == .complete && !d.inline && d.charLength != 0 &&
      (d.pageCount == 0 || d.firstCursor.isNone) then
    .error "paged_content_requires_cursor"
  else
    .ok d

def toDict (d : ContentFieldDescriptor) : Fields := [
  ("availability", .text (ContentState.text d.availability)), ("inline", .bool d.inline),
  ("char_length", .int d.charLength), ("byte_length", .int d.byteLength),
  ("page_count", .int d.pageCount), ("first_cursor", .ofText? d.firstCursor)]

end ContentFieldDescriptor

structure TurnContentDescriptor where
  contentRevision : ContentRevision
  user : ContentFieldDescriptor
  final : ContentFieldDescriptor

/-- A projection: the descriptor and the texts or previews beside it. -/
structure ContentProjection where
  descriptor : TurnContentDescriptor
  texts : Fields

namespace TurnContentDescriptor

def knownIncomplete (d : TurnContentDescriptor) : Bool :=
  d.user.availability == .knownIncomplete || d.final.availability == .knownIncomplete

def toDict (R : TextRules) (d : TurnContentDescriptor) : Fields := [
  ("schema_version", .int turnContentSchemaVersion),
  ("content_revision", .text (R.revisionText d.contentRevision)),
  ("known_incomplete", .bool d.knownIncomplete),
  ("fields", .object [
    (TurnField.key .userText, .object d.user.toDict),
    (TurnField.key .assistantFinalText, .object d.final.toDict)])]

end TurnContentDescriptor

def ContentProjection.fields (R : TextRules) (p : ContentProjection) : Fields :=
  ("content", .object (p.descriptor.toDict R)) :: p.texts

/-- A field that a client of schema version 1 cannot be given. -/
def ContentProjection.incompatible (p : ContentProjection) : Bool :=
  [p.descriptor.user, p.descriptor.final].any fun d => d.availability != .absent && !d.inline

/-! ### The content projection -/

section Projection

variable (R : TextRules)

def firstCursor (revision : ContentRevision) (field : TurnField) : String :=
  R.cursorText ⟨revision, field, 0, 0, 0⟩

namespace FieldColumns

def inline (c : FieldColumns) : Bool :=
  c.state == .complete && decide (c.charLength ≤ turnTextMaxChars) && decide (0 < c.charLength)

/-- The checks of one round of the loop of `project_persisted_turn_content`. -/
def consistent (c : FieldColumns) : Bool :=
  (match c.state with
  | .absent => c.charLength == 0 && c.byteLength == 0 && c.pageCount == 0 && c.inlineText.isNone &&
      c.previewText.isNone
  | .knownIncomplete => c.pageCount == 0 && c.inlineText.isNone
  | .complete =>
    if c.charLength ≠ 0 then
      decide (1 ≤ c.pageCount) && (!c.inline || c.inlineText.isSome)
    else
      c.byteLength == 0 && c.pageCount == 0 && c.inlineText.all (· == "")) &&
  match c.inlineText, c.previewText with
  | some text, _ => c.inline && text.length == c.charLength
  | none, some preview =>
    c.state == .absent || decide (preview.length ≤ turnContentPreviewMaxChars)
  | none, none => true

/-- The text or the preview that goes beside the descriptor. -/
def texts (field : TurnField) (c : FieldColumns) : Fields :=
  match c.inlineText, c.previewText with
  | some text, _ => [(TurnField.key field, .text text)]
  | none, some preview =>
    if c.state = .absent then [] else [(TurnField.previewKey field, .text preview)]
  | none, none => []

def descriptor (revision : ContentRevision) (field : TurnField) (c : FieldColumns) :
    ContentFieldDescriptor where
  availability := c.state
  inline := c.inline
  charLength := c.charLength
  byteLength := c.byteLength
  pageCount := if c.state = .complete then c.pageCount else 0
  firstCursor :=
    if c.state == .complete && !c.inline && c.pageCount != 0 then
      some (firstCursor R revision field)
    else none

end FieldColumns

def projectPersistedField (revision : ContentRevision) (field : TurnField) (c : FieldColumns) :
    Except String ContentFieldDescriptor :=
  if c.consistent then
    (c.descriptor R revision field).validate
  else
    .error "invalid_persisted_content_descriptor"

def projectPersistedTurnContent (c : ContentColumns) : Except String ContentProjection := do
  let user ← projectPersistedField R c.contentRevision .userText c.user
  let final ← projectPersistedField R c.contentRevision .assistantFinalText c.final
  return ⟨⟨c.contentRevision, user, final⟩,
    c.user.texts .userText ++ c.final.texts .assistantFinalText⟩

/-- The byte lengths of the pages `segment_canonical_text` cuts, with `open` bytes in the page
under construction. -/
def segmentBytes (maxBytes : Nat) : Nat → List Char → List Nat
  | 0, [] => []
  | bytes, [] => [bytes]
  | bytes, c :: text =>
    if bytes ≠ 0 ∧ maxBytes < bytes + c.utf8Size then
      bytes :: segmentBytes maxBytes c.utf8Size text
    else
      segmentBytes maxBytes (bytes + c.utf8Size) text

def contentFieldDescriptor (revision : ContentRevision) (field : TurnField)
    (text : Option String) (state : ContentState) : Except String ContentFieldDescriptor :=
  match text with
  | none => ContentFieldDescriptor.validate ⟨state, false, 0, 0, 0, none⟩
  | some text =>
    let charLength := text.length
    let segments := segmentBytes turnContentPageMaxUtf8Bytes 0 text.toList
    let pageCount := if state = .complete then segments.length else 0
    let byteLength := if state = .complete then segments.sum else text.utf8ByteSize
    let inline := state == .complete && decide (charLength ≤ turnTextMaxChars)
    ContentFieldDescriptor.validate {
      availability := state
      inline
      charLength
      byteLength
      pageCount
      firstCursor :=
        if state == .complete && !inline && pageCount != 0 then
          some (firstCursor R revision field)
        else none }

def validateContentState (state : ContentState) (text : Option String) : Except String Unit :=
  if state = .absent ∧ text.isSome then
    .error "absent_content_has_text"
  else if state ≠ .absent ∧ text.isNone then
    .error "available_content_has_no_text"
  else
    .ok ()

def validateTurnId (turnId : String) : Except String Unit :=
  if turnId = "" then .error "invalid_turn_id" else .ok ()

def projectContentText (field : TurnField) (text : Option String)
    (descriptor : ContentFieldDescriptor) : Fields :=
  match text with
  | none => if descriptor.inline then [(TurnField.key field, .null)] else []
  | some text =>
    if descriptor.inline then
      [(TurnField.key field, .text text)]
    else
      [(TurnField.previewKey field, .text (prefixChars turnContentPreviewMaxChars text))]

/-- The legacy projection, which cuts the texts into pages itself. -/
def projectTurnContent (turnId : String) (userText finalText : Option String)
    (userState finalState : ContentState) : Except String ContentProjection := do
  validateContentState userState userText
  validateContentState finalState finalText
  validateTurnId turnId
  let revision : ContentRevision := ⟨turnId, userText, finalText, userState, finalState⟩
  let user ← contentFieldDescriptor R revision .userText userText userState
  let final ← contentFieldDescriptor R revision .assistantFinalText finalText finalState
  return ⟨⟨revision, user, final⟩, projectContentText .userText userText user ++
    projectContentText .assistantFinalText finalText final⟩

def legacyCanonicalField (value : Option Value) : Option String × ContentState :=
  match R.sanitizeCanonicalTurnText value with
  | none | some "" => (none, .absent)
  | some text =>
    (some text, if text.endsWith legacyTruncationMarker then .knownIncomplete else .complete)

end Projection

/-! ### Items -/

section Items

variable (R : TextRules)

/-- The payload as the public may see it; none for an empty or a machine protocol turn. -/
def publicTurnPayload (t : StoredTurn) : Option Fields :=
  let payload : Fields := R.sanitizePublicMapping t.loaded
  if payload.isEmpty || R.isInternalAutomationTurnPayload payload then none else some payload

def stripCanonicalTurnPayload (payload : Fields) : Fields :=
  ["user_text", "assistant_final_text", "user_preview", "assistant_final_preview",
    "content"].foldl Fields.erase payload

def publicPendingTurnExtension (payload : Fields) : Fields :=
  match payload.get? "awaiting_input" with
  | some (.bool true) =>
    let decision := R.publicMapping (payload.get? "pending_decision")
    if decision.isEmpty then
      []
    else
      [("awaiting_input", .bool true), ("pending_decision", .object decision)]
  | _ => []

lemma get?_stripCanonicalTurnPayload (payload : Fields) {key : String}
    (h : key ∉ ["user_text", "assistant_final_text", "user_preview", "assistant_final_preview",
      "content"]) : (stripCanonicalTurnPayload payload).get? key = payload.get? key := by
  simp only [List.mem_cons, List.not_mem_nil, or_false, not_or] at h
  simp [stripCanonicalTurnPayload, Fields.get?_erase, h]

lemma get?_publicPendingTurnExtension (payload : Fields) {key : String}
    (h : key ∉ ["awaiting_input", "pending_decision"]) :
    (publicPendingTurnExtension R payload).get? key = none := by
  simp only [List.mem_cons, List.not_mem_nil, or_false, not_or] at h
  unfold publicPendingTurnExtension
  split
  · dsimp only
    split
    · rfl
    · simp [Fields.get?_cons, h]
  · rfl

/-- The stored source id stays when it is one of those its payload derives. -/
def keepStoredSource (payload item : Fields) : Fields :=
  let stored := strip (R.strOrEmpty (payload.get? "source_turn_id"))
  match payload.get? "meta" with
  | some (.object metaFields) =>
    if stored != "" && (R.turnSourceIdCandidates (some (.text stored)) metaFields
        (payload.get? "source") (payload.get? "kind")).contains stored then
      item.set "source_turn_id" (.text stored)
    else
      item
  | _ => item

structure ListItem where
  fields : Fields
  incompatible : Bool

/-- The content part of a turn.list item of either schema version. -/
def listContent (requestedSchema : Nat) (turnId : String) (serialized : Fields)
    (columns : Option ContentColumns) (item : Fields) : Except String ListItem :=
  match columns with
  | some c => do
    let projection ← projectPersistedTurnContent R c
    return ⟨item.update (projection.fields R), projection.incompatible⟩
  | none =>
    let (user, userState) := legacyCanonicalField R (serialized.get? "user_text")
    let (final, finalState) := legacyCanonicalField R (serialized.get? "assistant_final_text")
    if requestedSchema = turnListSchemaVersion then
      if userState ≠ .absent ∨ finalState ≠ .absent then do
        let projection ← projectTurnContent R turnId user final userState finalState
        return ⟨item.update (projection.fields R), false⟩
      else
        .ok ⟨item, false⟩
    else
      let item₁ := if userState = .complete then item.set "user_text" (.ofText? user) else item
      let item₂ :=
        if finalState = .complete then item₁.set "assistant_final_text" (.ofText? final) else item₁
      .ok ⟨item₂, userState == .knownIncomplete || finalState == .knownIncomplete⟩

/-- What schema version 1 leaves of an item. -/
def listItemV1 (item : Fields) : Fields :=
  ((["content", "user_preview", "assistant_final_preview"].foldl Fields.erase
    (item.set "schema_version" (.int 1))).setDefault "user_text" .null).setDefault
      "assistant_final_text" .null

/-- The item of `turns_payload_from_store` for one row; none if the row is scanned over. -/
def listItem (requestedSchema : Nat) (t : StoredTurn) (columns : Option ContentColumns) :
    Except String (Option ListItem) :=
  match publicTurnPayload R t with
  | none => .ok none
  | some payload => do
    let serialized := (Turn.fromDict R payload).toDict R
    let item := (stripCanonicalTurnPayload serialized).update (publicPendingTurnExtension R payload)
    let item := keepStoredSource R payload (item.set "id" (.text t.turnId))
    let item ← listContent R requestedSchema t.turnId serialized columns item
    return some ⟨if requestedSchema = 1 then listItemV1 item.fields else item.fields,
      item.incompatible⟩

/-- `_turn_delta_projection`. -/
def turnDeltaProjection (t : StoredTurn) (columns : Option ContentColumns) :
    Except String (Option Fields) :=
  match publicTurnPayload R t with
  | none => .ok none
  | some payload => do
    let serialized := (Turn.fromDict R payload).toDict R
    let item := (stripCanonicalTurnPayload serialized).set "id" (.text t.turnId)
    let item := keepStoredSource R payload item
    let item ← match columns with
      | some c => do
        let projection ← projectPersistedTurnContent R c
        pure (item.update (projection.fields R))
      | none =>
        let (user, userState) := legacyCanonicalField R (serialized.get? "user_text")
        let (final, finalState) := legacyCanonicalField R (serialized.get? "assistant_final_text")
        if userState ≠ .absent ∨ finalState ≠ .absent then do
          let projection ← projectTurnContent R t.turnId user final userState finalState
          pure (item.update (projection.fields R))
        else
          pure item
    return some (item.set "schema_version" (.int turnDeltaProjectionSchemaVersion))

end Items

namespace TurnStore

variable (s : TurnStore) (R : TextRules)

def turnListItem (requestedSchema : Nat) (t : StoredTurn) : Except String (Option ListItem) :=
  listItem R requestedSchema t ((s.currentRevision? t.hostId t.turnId).map listSelect)

def turnDeltaItem (t : StoredTurn) : Except String (Option Fields) :=
  turnDeltaProjection R t ((s.currentRevision? t.hostId t.turnId).map turnDeltaProjectionSelect)

end TurnStore

end Tendwire

import Tendwire.Connector.Rows
import Tendwire.Turns.ContentPages

/-!
# The store of content

A revision keeps the texts of a turn, and beside them where their pages begin. A reader gets a page
by its byte range; the kept places say whether a cursor tells the truth.
-/

namespace Tendwire.Content

open Strings List Python Public Tokens
open Connector (ContentState TurnField)

def fieldName : TurnField → Text
  | .userText => ofString "user_text"
  | .assistantFinalText => ofString "assistant_final_text"

def fieldOf? (name : Text) : Option TurnField :=
  [TurnField.userText, .assistantFinalText].find? (fieldName · = name)

/-! ### Tables -/

structure FieldText where
  text : Option Text
  state : ContentState
  deriving DecidableEq

structure FieldRow extends FieldText where
  charLength : ℕ
  byteLength : ℕ
  pageCount : ℕ

structure ContentKey where
  hostId : Text
  turnId : Text
  revision : Text
  deriving DecidableEq

/-- A row of `turn_content_revisions`. -/
structure ContentRow where
  key : ContentKey
  field : TurnField → FieldRow
  isCurrent : Bool

structure PageStart where
  pageIndex : ℕ
  startChar : ℕ
  startByte : ℕ
  deriving DecidableEq

/-- A row of `turn_content_page_boundaries`. -/
structure PageBoundary extends PageStart where
  key : ContentKey
  field : TurnField
  deriving DecidableEq

/-- Two boundaries that a unique constraint keeps apart. -/
def PageBoundary.clashes (a b : PageBoundary) : Bool :=
  a.key == b.key && a.field == b.field &&
    (a.pageIndex == b.pageIndex || a.startChar == b.startChar || a.startByte == b.startByte)

/-- The two tables, which revisions have a plan, and what the aliases of turns resolve to. -/
structure ContentStore where
  rows : List ContentRow
  boundaries : List PageBoundary
  planned : ContentKey → Bool
  resolve : Text → Text → Option Text

inductive StoreError where
  | page (e : PageError)
  | invalidTurnId
  | absentContentHasText
  | availableContentHasNoText
  /-- A constraint of the database fails. -/
  | integrity
  /-- An integer does not fit a column. -/
  | overflow

def stored {α : Type} (x : Except PageError α) : Except StoreError α := x.mapError .page

def invalidMetadata : StoreError := .page .invalidMetadata

namespace ContentStore

def row? (s : ContentStore) (key : ContentKey) : Option ContentRow := s.rows.find? (·.key = key)

def boundariesOf (s : ContentStore) (key : ContentKey) (field : TurnField) : List PageBoundary :=
  s.boundaries.filter fun b => b.key = key ∧ b.field = field

def boundary? (s : ContentStore) (key : ContentKey) (field : TurnField) (index : ℕ) :
    Option PageBoundary := (s.boundariesOf key field).find? (·.pageIndex = index)

end ContentStore

/-! ### Writing -/

/-- `_validate_content_state`. -/
def validateContentState (f : FieldText) : Except StoreError Unit :=
  match f.state, f.text with
  | .absent, some _ => .error .absentContentHasText
  | .complete, none | .knownIncomplete, none => .error .availableContentHasNoText
  | _, _ => .ok ()

def stateName : ContentState → Text
  | .absent => ofString "absent"
  | .complete => ofString "complete"
  | .knownIncomplete => ofString "known_incomplete"

def encodeText (t : Text) : Except StoreError (List UInt8) :=
  stored (tokenized (required .unicodeEncode (utf8 t)))

/-- `segment_canonical_text(text or "") if state == "complete" else ()`. -/
def fieldSegments (f : FieldText) : Except StoreError (List ContentSegment) :=
  if f.state = .complete then
    stored ((segmentCanonicalText (f.text.getD []) turnContentPageMaxUtf8Bytes).mapError .segment)
  else .ok []

/-- The largest integer of a column. -/
def maxInteger : ℕ := 2 ^ 63 - 1

def fieldRow (f : FieldText) (segments : List ContentSegment) : Except StoreError FieldRow := do
  let bytes ← encodeText (f.text.getD [])
  if maxInteger < bytes.length then .error .overflow
  else .ok ⟨f, (f.text.getD []).length, bytes.length, segments.length⟩

def boundaryOf (key : ContentKey) (field : TurnField) (segment : ContentSegment) : PageBoundary :=
  ⟨⟨segment.index, segment.startChar, segment.startByte⟩, key, field⟩

/-- `INSERT OR IGNORE INTO turn_content_page_boundaries`. -/
def insertOrIgnore (boundaries : List PageBoundary) (b : PageBoundary) : List PageBoundary :=
  if boundaries.any b.clashes then boundaries else boundaries ++ [b]

/-- `_insert_turn_content_page_boundaries_conn`. -/
def insertBoundaries (key : ContentKey) (field : TurnField) (segments : List ContentSegment)
    (boundaries : List PageBoundary) : List PageBoundary :=
  (segments.map (boundaryOf key field)).foldl insertOrIgnore boundaries

section

variable {F : Type} [FloatText F] (R : Runtime F)

/-- `content_revision`. -/
def contentRevision (turnId : Text) (content : TurnField → FieldText) : Except StoreError Text := do
  if turnId = [] then .error .invalidTurnId
  else
    validateContentState (content .userText)
    validateContentState (content .assistantFinalText)
    let json (t : Option Text) : Json F := t.elim .null .str
    let bytes ← encodeText (stableJsonDumps R.tables (.dict [
      (ofString "domain", .str (ofString "tendwire.turn-content-revision.v1")),
      (ofString "turn_id", .str turnId),
      (ofString "user_text", json (content .userText).text),
      (ofString "assistant_final_text", json (content .assistantFinalText).text),
      (ofString "user_state", .str (stateName (content .userText).state)),
      (ofString "final_state", .str (stateName (content .assistantFinalText).state))]))
    .ok (ofString "twrev1." ++ base64url (R.sha256 bytes).toList)

namespace ContentStore

/-- `_insert_turn_content_revision_conn`. -/
def insertRevision (s : ContentStore) (hostId turnId : Text) (content : TurnField → FieldText)
    (isCurrent : Bool) : Except StoreError ContentStore := do
  let revision ← contentRevision R turnId content
  let userSegments ← fieldSegments (content .userText)
  let finalSegments ← fieldSegments (content .assistantFinalText)
  let user ← fieldRow (content .userText) userSegments
  let final ← fieldRow (content .assistantFinalText) finalSegments
  let key : ContentKey := ⟨hostId, turnId, revision⟩
  let row : ContentRow :=
    ⟨key, fun | .userText => user | .assistantFinalText => final, isCurrent⟩
  let boundaries := insertBoundaries key .assistantFinalText finalSegments
    (insertBoundaries key .userText userSegments s.boundaries)
  if (s.row? key).isSome then .ok { s with boundaries }
  else if isCurrent && s.rows.any fun r =>
      r.key.hostId == hostId && r.key.turnId == turnId && r.isCurrent then
    .error .integrity
  else .ok { s with rows := s.rows ++ [row], boundaries }

end ContentStore

end

/-! ### Repairing -/

structure Rebuild where
  boundaries : List PageBoundary
  pageIndex : ℕ
  startChar : ℕ
  startByte : ℕ

/-- The loop over a field's bytes; every round takes a byte at least. -/
def rebuildPages (key : ContentKey) (field : TurnField) (blob : List UInt8) (total : ℕ) :
    ℕ → Rebuild → Except StoreError Rebuild
  | 0, r => .ok r
  | rounds + 1, r =>
    if r.startByte < total then
      let raw := (blob.drop r.startByte).take
        (min turnContentPageMaxUtf8Bytes (total - r.startByte))
      match boundedUtf8BlobPage raw with
      | none => .error (.page .invalidUtf8)
      | some text =>
        let length := (encoded text).length
        let b : PageBoundary := ⟨⟨r.pageIndex, r.startChar, r.startByte⟩, key, field⟩
        if length = 0 ∨ turnContentPageMaxUtf8Bytes < length then .error invalidMetadata
        else if r.boundaries.any b.clashes then .error .integrity
        else rebuildPages key field blob total rounds
          ⟨r.boundaries ++ [b], r.pageIndex + 1, r.startChar + text.length, r.startByte + length⟩
    else .ok r

namespace ContentStore

/-- `_ensure_turn_content_page_boundaries_conn`. -/
def ensureBoundaries (s : ContentStore) (row : ContentRow) (field : TurnField)
    (allowRebuild : Bool) : Except StoreError ContentStore :=
  let f := row.field field
  let existing := (s.boundariesOf row.key field).length
  if existing = f.pageCount then .ok s
  else if existing ≠ 0 then .error invalidMetadata
  else if !allowRebuild then .error (.page .notAvailable)
  else match f.text with
    | none => .error .integrity
    | some text =>
      let blob := encoded text
      if blob.length ≠ f.byteLength then .error invalidMetadata
      else do
        let r ← rebuildPages row.key field blob f.byteLength (f.byteLength + 1) ⟨s.boundaries, 0, 0, 0⟩
        if r.pageIndex ≠ f.pageCount ∨ r.startByte ≠ f.byteLength ∨ r.startChar ≠ f.charLength then
          .error invalidMetadata
        else .ok { s with boundaries := r.boundaries }

/-- One field of `_backfill_missing_turn_content_page_boundaries_conn`. -/
def backfillField (s : ContentStore) (row : ContentRow) (field : TurnField) :
    Except StoreError ContentStore :=
  let f := row.field field
  if f.state ≠ .complete ∨ f.pageCount < 1 ∨ (s.boundariesOf row.key field).length = f.pageCount then
    .ok s
  else
    let emptied := { s with boundaries := s.boundaries.filter fun b =>
      !(b.key = row.key ∧ b.field = field) }
    emptied.ensureBoundaries row field true

/-- `_backfill_missing_turn_content_page_boundaries_conn`; the order of the rows is not seen. -/
def backfill (s : ContentStore) : Except StoreError ContentStore :=
  s.rows.foldlM (fun s row => do
    let s ← s.backfillField row .userText
    s.backfillField row .assistantFinalText) s

end ContentStore

/-! ### Reading -/

inductive ContentStatus where
  | unsupportedContentSchemaVersion
  | invalidContentField
  | contentRevisionNotFound
  | contentKnownIncomplete
  | contentNotAvailable
  | invalidCursor
  deriving DecidableEq, Repr

inductive ContentAnswer where
  | page (page : ContentPage)
  | refused (status : ContentStatus)

section

variable {F : Type} [FloatText F] (R : Runtime F)

namespace ContentStore

/-- What `get_turn_content` does for a field that is there. -/
def readContentPage (s : ContentStore) (row : ContentRow) (field : TurnField)
    (cursor : Option Text) : Except StoreError ContentPage := do
  let key := row.key
  let f := row.field field
  let name := fieldName field
  let p ← stored (tokenized (startPosition R key.revision name cursor f.pageCount))
  let s ← s.ensureBoundaries row field false
  match s.boundary? key field p.index.toNat with
  | none => .error invalidMetadata
  | some expected =>
    if p.startChar ≠ expected.startChar ∨ p.startByte ≠ expected.startByte then
      .error (.page (.token .invalidCursor))
    else match f.text with
      | none => .error .integrity
      | some whole =>
        let blob := encoded whole
        if blob.length ≠ f.byteLength then .error invalidMetadata
        else
          let raw := (blob.drop expected.startByte).take
            (min turnContentPageMaxUtf8Bytes (f.byteLength - expected.startByte))
          match boundedUtf8BlobPage raw with
          | none => .error (.page .invalidUtf8)
          | some text =>
            let length := (encoded text).length
            let endByte := expected.startByte + length
            let endChar := expected.startChar + text.length
            let next := s.boundary? key field (p.index.toNat + 1)
            if length = 0 ∨ turnContentPageMaxUtf8Bytes < length then .error invalidMetadata
            else if p.index + 1 < f.pageCount ∧
                next.all (fun b => endChar ≠ b.startChar ∨ endByte ≠ b.startByte) then
              .error invalidMetadata
            else if f.pageCount ≤ p.index + 1 ∧
                (endByte ≠ f.byteLength ∨ endChar ≠ f.charLength) then
              .error invalidMetadata
            else do
              let next ← stored (tokenized
                (nextCursor R key.revision name p.index f.pageCount endChar endByte))
              .ok ⟨key.turnId, key.revision, name, p.segmentId, p.index, f.pageCount, text,
                text.length, length, f.charLength, f.byteLength, next⟩

/-- What an exception makes of the request; a `TypeError` is not caught. -/
def answerError : StoreError → Except TokenError ContentAnswer
  | .page (.token .notAscii) => .error .notAscii
  | .page (.token .unhashable) => .error .unhashable
  | .page (.token .invalidCursor) => .ok (.refused .invalidCursor)
  | _ => .ok (.refused .contentNotAvailable)

/-- `get_turn_content`. -/
def getTurnContent (s : ContentStore) (hostId turnId contentRevision field : Text)
    (cursor : Option Text) (schemaVersion : ℤ) : Except TokenError ContentAnswer :=
  if schemaVersion ≠ 1 then .ok (.refused .unsupportedContentSchemaVersion)
  else match fieldOf? field with
    | none => .ok (.refused .invalidContentField)
    | some column =>
      match s.resolve hostId turnId with
      | none => .ok (.refused .contentRevisionNotFound)
      | some turnId =>
        let key : ContentKey := ⟨hostId, turnId, contentRevision⟩
        match s.row? key with
        | none => .ok (.refused .contentRevisionNotFound)
        | some row =>
          let f := row.field column
          if !row.isCurrent && !s.planned key then .ok (.refused .contentRevisionNotFound)
          else if f.state = .knownIncomplete then .ok (.refused .contentKnownIncomplete)
          else if f.state ≠ .complete ∨ f.charLength < 1 ∨ f.byteLength < 1 ∨ f.pageCount < 1 then
            .ok (.refused .contentNotAvailable)
          else match s.readContentPage R row column cursor with
            | .ok page => .ok (.page page)
            | .error e => answerError e

end ContentStore

end

end Tendwire.Content

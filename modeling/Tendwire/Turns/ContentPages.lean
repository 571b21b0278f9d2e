import Tendwire.Turns.BlobPages
import Tendwire.Turns.ContentTokens

/-!
# Pages of content

A reader names a page of a field by the cursor that came with the page before. The plain way to
answer is to cut the whole text again.
-/

namespace Tendwire.Content

open Strings List Python Public Tokens

/-- What a page is refused for. -/
inductive PageError where
  | token (e : TokenError)
  | segment (e : SegmentError)
  | noSegments
  | outOfRange
  | invalidMetadata
  | notAvailable
  | invalidUtf8
  deriving DecidableEq

/-- A page of `turn.content`; it is complete and of the first schema version. -/
structure ContentPage where
  turnId : Text
  contentRevision : Text
  field : Text
  segmentId : Text
  index : ℤ
  count : ℕ
  text : Text
  segmentCharLength : ℕ
  segmentByteLength : ℕ
  totalCharLength : ℕ
  totalByteLength : ℕ
  nextCursor : Option Text
  deriving DecidableEq

def tokenized {α : Type} (x : Except TokenError α) : Except PageError α := x.mapError .token

section

variable {F : Type} [FloatText F] (R : Runtime F)

/-- Where the page that a reader asks for begins. -/
def startPosition (revision field : Text) (cursor : Option Text) (count : ℕ) :
    Except TokenError ContentCursorPosition :=
  match cursor with
  | none => do
    let segmentId ← contentSegmentId R revision field 0
    .ok ⟨0, segmentId, 0, 0⟩
  | some cursor => decodeContentCursor R cursor revision field count

def nextCursor (revision field : Text) (index : ℤ) (count endChar endByte : ℕ) :
    Except TokenError (Option Text) :=
  if index + 1 < count then
    (contentCursor R revision field (index + 1) (some endChar) (some endByte)).map some
  else .ok none

/-- The page of a segment, where the cursor tells its place. -/
def segmentPage (turnId revision field text : Text) (segments : List ContentSegment)
    (p : ContentCursorPosition) (segment last : ContentSegment) : Except PageError ContentPage := do
  let segmentId ← tokenized (contentSegmentId R revision field segment.index)
  if p.segmentId ≠ segmentId ∨ p.startChar ≠ segment.startChar ∨ p.startByte ≠ segment.startByte then
    .error (.token .invalidCursor)
  else
    let next ← tokenized
      (nextCursor R revision field p.index segments.length segment.endChar segment.endByte)
    .ok ⟨turnId, revision, field, p.segmentId, p.index, segments.length, segment.text,
      segment.charLength, segment.byteLength, text.length, last.endByte, next⟩

/-- `build_turn_content_page`. -/
def buildTurnContentPage (turnId revision field text : Text) (cursor : Option Text)
    (maxUtf8Bytes : ℤ) : Except PageError ContentPage := do
  tokenized (ensure (Tokens.turnContentFields.contains field) .invalidContentField)
  let segments ← (segmentCanonicalText text maxUtf8Bytes).mapError .segment
  match segments.getLast? with
  | none => .error .noSegments
  | some last =>
    let p ← tokenized (startPosition R revision field cursor segments.length)
    match segments[p.index.toNat]? with
    | none => .error .outOfRange
    | some segment => segmentPage R turnId revision field text segments p segment last

/-! ### The page of a position -/

/-- What is to be served of a text that is cut into pages. -/
def servePage (turnId revision field : Text) (pages : List Text) (p : ContentCursorPosition) :
    Except PageError ContentPage :=
  let before := (pages.take p.index.toNat).flatten
  let page := pages.getD p.index.toNat []
  if p.startChar ≠ before.length ∨ p.startByte ≠ utf8Length before then .error (.token .invalidCursor)
  else do
    let next ← tokenized (nextCursor R revision field p.index pages.length
      (before.length + page.length) (utf8Length before + utf8Length page))
    .ok ⟨turnId, revision, field, p.segmentId, p.index, pages.length, page, page.length,
      utf8Length page, pages.flatten.length, utf8Length pages.flatten, next⟩

variable {R} {turnId revision field : Text} {cursor : Option Text} {count cap : ℕ}
  {p : ContentCursorPosition} {pages : List Text}

lemma startPosition_spec (hcount : 0 < count)
    (h : startPosition R revision field cursor count = .ok p) :
    0 ≤ p.index ∧ p.index < count ∧ contentSegmentId R revision field p.index = .ok p.segmentId := by
  cases cursor with
  | none =>
    obtain ⟨segmentId, hsegment, h⟩ := Transition.bind_eq_ok.mp h
    obtain rfl := Except.ok.inj h
    exact ⟨Int.le_refl _, by simpa using hcount, hsegment⟩
  | some cursor =>
    obtain ⟨-, m, integrity, -, -, -, hread, hindex, hsegment, -⟩ := decodeContentCursor_eq_ok.mp h
    obtain ⟨hnumbers, -⟩ := readContentPosition_eq_some.mp hread
    simp only [ContentCursorPosition.numbers, all_cons, Bool.and_eq_true,
      decide_eq_true_eq] at hnumbers
    exact ⟨hnumbers.1, hindex, hsegment⟩

lemma segment_of_index {i : ℕ} (hi : i < pages.length) : (segmentsOf pages)[i]? =
    some ⟨i, (pages.take i).flatten.length, (pages.take i).flatten.length + (pages.getD i []).length,
      utf8Length (pages.take i).flatten,
      utf8Length (pages.take i).flatten + utf8Length (pages.getD i []), pages.getD i [],
      (pages.getD i []).length, utf8Length (pages.getD i [])⟩ := by
  rw [getElem?_segmentsOf, getD_eq_getElem?_getD, getElem?_eq_getElem hi]
  rfl

lemma endByte_last (hne : pages ≠ []) :
    ∃ last, (segmentsOf pages).getLast? = some last ∧ last.endByte = utf8Length pages.flatten := by
  obtain ⟨front, page, rfl⟩ : ∃ front page, pages = front ++ [page] :=
    ⟨_, _, (dropLast_append_getLast hne).symm⟩
  rw [segmentsOf, segmentsFrom_append, segmentsFrom, segmentsFrom, getLast?_concat]
  refine ⟨_, rfl, ?_⟩
  rw [flatten_append, flatten_singleton, utf8Length_append]
  exact congrArg (· + utf8Length page) (Nat.zero_add _)

/-- Cutting the whole text serves the pages that are as long as they can be. -/
theorem buildTurnContentPage_eq_serve (hfield : Tokens.turnContentFields.contains field = true)
    (hcap : 1 ≤ cap) (hpacked : Packed utf8Width cap pages)
    (hfit : ∀ c ∈ pages.flatten, Segmentable cap c) (hne : pages ≠ []) :
    buildTurnContentPage R turnId revision field pages.flatten cursor cap =
      tokenized (startPosition R revision field cursor pages.length) >>=
        servePage R turnId revision field pages := by
  have hsegments : segmentCanonicalText pages.flatten cap = .ok (segmentsOf pages) :=
    segmentCanonicalText_eq_ok.mpr ⟨by exact_mod_cast hcap, hfit, pages, hpacked, rfl, rfl⟩
  have hcount : 0 < pages.length := length_pos_iff.mpr hne
  obtain ⟨last, hlast, hend⟩ := endByte_last hne
  unfold buildTurnContentPage
  rw [hfield, hsegments]
  change (match (segmentsOf pages).getLast? with | none => _ | some last => _) = _
  rw [hlast]
  simp only [length_segmentsFrom]
  cases hstart : startPosition R revision field cursor pages.length with
  | error e => rfl
  | ok p =>
    obtain ⟨hlow, hhigh, hsegment⟩ := startPosition_spec hcount hstart
    have hindex : p.index.toNat < pages.length := by omega
    have hcast : (p.index.toNat : ℤ) = p.index := Int.toNat_of_nonneg hlow
    change (match (segmentsOf pages)[p.index.toNat]? with | none => _ | some segment => _) =
      servePage R turnId revision field pages p
    rw [segment_of_index hindex]
    simp only [segmentPage, hcast, hsegment, hend, length_segmentsFrom]
    unfold servePage
    change (if p.segmentId ≠ p.segmentId ∨ _ then _ else _) = _
    simp only [ne_eq, not_true_eq_false, false_or]

end

end Tendwire.Content

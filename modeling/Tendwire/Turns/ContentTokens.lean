import Tendwire.Turns.Tokens

/-!
# Content cursors

A cursor names a segment of one field of one revision and where it begins.
-/

namespace Tendwire.Tokens

open Strings Python Public

structure ContentCursorPosition where
  index : ℤ
  segmentId : Text
  startChar : ℤ
  startByte : ℤ
  deriving DecidableEq

def contentTokenChars : ℕ := 1024

/-- `TURN_CONTENT_FIELDS`. -/
def turnContentFields : List Text := ["user_text", "assistant_final_text"].map ofString

section

variable {F : Type} [FloatText F] (R : Runtime F)

/-- `content_segment_id`. -/
def contentSegmentId (revision field : Text) (index : ℤ) : Except TokenError Text := do
  ensure (turnContentFields.contains field) .invalidContentField
  ensure (decide (0 ≤ index)) .invalidSegmentIndex
  let digest ← domainDigest R "tendwire.turn-content-segment.v1"
    [("content_revision", .text revision), ("field", .text field), ("index", .number index)]
  .ok (ofString "twseg1." ++ digest)

def contentMaterial (revision field : Text) (p : ContentCursorPosition) : Parts :=
  [("content_revision", .text revision), ("field", .text field), ("segment_id", .text p.segmentId),
    ("index", .number p.index), ("start_char", .number p.startChar),
    ("start_byte", .number p.startByte)]

def contentParts (integrity : Text) (p : ContentCursorPosition) : Parts :=
  [("b", .number p.startByte), ("c", .number p.startChar), ("h", .text integrity),
    ("i", .number p.index), ("s", .text p.segmentId), ("v", .number 2)]

def contentKeys : List String := ["b", "c", "h", "i", "s", "v"]

def contentIntegrity : String := "tendwire.turn-content-cursor-integrity.v2"

def ContentCursorPosition.numbers (p : ContentCursorPosition) : List ℤ :=
  [p.index, p.startChar, p.startByte]

/-- Where the segment begins: at the start of the field if nothing else is said of the first one. -/
def resolveStart (index : ℤ) : Option ℤ → Option ℤ → Option (ℤ × ℤ)
  | some startChar, some startByte => some (startChar, startByte)
  | none, none => if index = 0 then some (0, 0) else none
  | _, _ => none

/-- The position that `content_cursor` encodes. -/
def contentPosition (revision field : Text) (index : ℤ) (startChar startByte : Option ℤ) :
    Except TokenError ContentCursorPosition := do
  ensure (turnContentFields.contains field) .invalidContentField
  let (startChar, startByte) ← required .invalidCursor (resolveStart index startChar startByte)
  ensure ([index, startChar, startByte].all (0 ≤ ·)) .invalidCursor
  let segmentId ← contentSegmentId R revision field index
  .ok ⟨index, segmentId, startChar, startByte⟩

/-- `content_cursor`. -/
def contentCursor (revision field : Text) (index : ℤ) (startChar startByte : Option ℤ) :
    Except TokenError Text := do
  let p ← contentPosition R revision field index startChar startByte
  let integrity ← domainDigest R contentIntegrity (contentMaterial revision field p)
  tokenOf R "twcur1." (contentParts integrity p)

/-- The digest and the position that a cursor names. -/
def readContentPosition (m : Entries F) : Option (Text × ContentCursorPosition) := do
  let index ← numberAt m "i"
  let startChar ← numberAt m "c"
  let startByte ← numberAt m "b"
  let segmentId ← textAt m "s"
  let integrity ← textAt m "h"
  some (integrity, ⟨index, segmentId, startChar, startByte⟩)

/-- `decode_content_cursor`. -/
def decodeContentCursor (cursor revision field : Text) (count : ℤ) :
    Except TokenError ContentCursorPosition := do
  ensure (turnContentFields.contains field) .invalidContentField
  ensure (decide (1 ≤ count)) .invalidCursor
  let body ← decodeToken (F := F) "twcur1." contentTokenChars .invalidCursor cursor
  ensure (hasKeys body contentKeys) .invalidCursor
  ensure (equalsNumber 2 (Entries.get? body (ofString "v"))) .invalidCursor
  let (integrity, p) ← required .invalidCursor (readContentPosition body)
  ensure (decide (p.index < count)) .invalidCursor
  let segmentId ← contentSegmentId R revision field p.index
  ensure (p.segmentId == segmentId) .invalidCursor
  let expected ← domainDigest R contentIntegrity (contentMaterial revision field p)
  let same ← compareDigest integrity expected
  ensure same .invalidCursor
  .ok p

variable {R} {m : Entries F} {revision field integrity cursor token : Text} {index count : ℤ}
  {startChar startByte : Option ℤ} {p : ContentCursorPosition}

omit [FloatText F] in
lemma readContentPosition_eq_some : readContentPosition m = some (integrity, p) ↔
    p.numbers.all (0 ≤ ·) = true ∧
      ∀ e ∈ contentParts integrity p, e.1 ≠ "v" → Holds m e.1 e.2 := by
  unfold readContentPosition
  simp only [Option.bind_eq_bind, Option.bind_eq_some_iff, textAt_eq_some, numberAt_eq_some]
  constructor
  · rintro ⟨i, ⟨hi, hhi⟩, c, ⟨hc, hhc⟩, b, ⟨hb, hhb⟩, s, hhs, h, hhh, hlast⟩
    obtain ⟨rfl, rfl⟩ : h = integrity ∧ _ = p := by simpa using hlast
    refine ⟨?_, ?_⟩
    · simp [ContentCursorPosition.numbers, *]
    · simp [contentParts, *]
  · rintro ⟨hnumbers, hparts⟩
    simp only [contentParts, List.forall_mem_cons] at hparts
    simp only [ContentCursorPosition.numbers, List.all_cons, List.all_nil, Bool.and_true,
      Bool.and_eq_true, decide_eq_true_eq] at hnumbers
    obtain ⟨hi, hc, hb⟩ := hnumbers
    obtain ⟨hhb, hhc, hhh, hhi, hhs, -⟩ := hparts
    exact ⟨p.index, ⟨hi, hhi (by decide)⟩, p.startChar, ⟨hc, hhc (by decide)⟩, p.startByte,
      ⟨hb, hhb (by decide)⟩, p.segmentId, hhs (by decide), integrity, hhh (by decide), rfl⟩

lemma decodeContentCursor_eq_ok : decodeContentCursor R cursor revision field count = .ok p ↔
    (turnContentFields.contains field = true ∧ 1 ≤ count) ∧
      ∃ (m : Entries F) (integrity : Text), tokenBody "twcur1." contentTokenChars cursor = some m ∧
        hasKeys m contentKeys = true ∧ equalsNumber 2 (Entries.get? m (ofString "v")) = true ∧
        readContentPosition m = some (integrity, p) ∧ p.index < count ∧
        contentSegmentId R revision field p.index = .ok p.segmentId ∧
        domainDigest R contentIntegrity (contentMaterial revision field p) = .ok integrity := by
  unfold decodeContentCursor decodeToken
  simp only [Transition.bind_eq_ok, required_eq_ok, ensure_eq_ok, Prod.exists, exists_const,
    Except.ok.injEq, decide_eq_true_eq, beq_iff_eq]
  constructor
  · rintro ⟨hfield, hcount, m, hbody, hkeys, hversion, integrity, q, hread, hindex, segment, hsegment,
      rfl, expected, hdigest, same, hsame, rfl, rfl⟩
    obtain rfl := (compareDigest_eq_true (digest_spec hdigest).1).mp hsame
    exact ⟨⟨hfield, hcount⟩, m, integrity, hbody, hkeys, hversion, hread, hindex, hsegment, hdigest⟩
  · rintro ⟨⟨hfield, hcount⟩, m, integrity, hbody, hkeys, hversion, hread, hindex, hsegment, hdigest⟩
    exact ⟨hfield, hcount, m, hbody, hkeys, hversion, integrity, p, hread, hindex, p.segmentId,
      hsegment, rfl, integrity, hdigest, true,
      (compareDigest_eq_true (digest_spec hdigest).1).mpr rfl, rfl, rfl⟩

lemma contentPosition_eq_ok : contentPosition R revision field index startChar startByte = .ok p ↔
    turnContentFields.contains field = true ∧ p.index = index ∧
      resolveStart index startChar startByte = some (p.startChar, p.startByte) ∧
      p.numbers.all (0 ≤ ·) = true ∧
      contentSegmentId R revision field index = .ok p.segmentId := by
  unfold contentPosition
  simp only [Transition.bind_eq_ok, required_eq_ok, ensure_eq_ok, Prod.exists, exists_const,
    Except.ok.injEq]
  constructor
  · rintro ⟨hfield, c, b, hstart, hnumbers, segment, hsegment, rfl⟩
    exact ⟨hfield, rfl, hstart, hnumbers, hsegment⟩
  · rintro ⟨hfield, rfl, hstart, hnumbers, hsegment⟩
    exact ⟨hfield, p.startChar, p.startByte, hstart, hnumbers, p.segmentId, hsegment, rfl⟩

lemma escapedLength_segmentId {segmentId : Text}
    (h : contentSegmentId R revision field index = .ok segmentId) :
    escapedLength segmentId = 50 := by
  unfold contentSegmentId at h
  simp only [Transition.bind_eq_ok, ensure_eq_ok, exists_const, Except.ok.injEq] at h
  obtain ⟨-, -, digest, hdigest, rfl⟩ := h
  have htag : escapedLength (ofString "twseg1.") = 7 := by decide
  have hescaped := (digest_spec hdigest).2.2
  unfold escapedLength at *
  rw [List.flatMap_append, utf8Length_append, htag, hescaped]

/-- The bytes of the text in a cursor. -/
def contentSize (p : ContentCursorPosition) : ℕ := 129 + (p.numbers.map digitCount).sum

lemma bodyLength_contentParts (hsegment : escapedLength p.segmentId = 50)
    (h : escapedLength integrity = 43) : bodyLength (contentParts integrity p) = contentSize p := by
  have hone : digitCount 2 = 1 := by decide
  simp only [bodyLength, contentParts, contentSize, ContentCursorPosition.numbers, List.map_cons,
    List.map_nil, List.sum_cons, List.sum_nil, h, hsegment, Part.length, hone]
  omega

lemma lettered_contentParts (integrity : Text) (p : ContentCursorPosition) :
    Lettered ((contentParts integrity p).map Prod.fst) := by
  have hkeys : Lettered contentKeys := by decide
  exact hkeys

/-- A cursor comes back exactly while it is short enough and names one of the segments. -/
theorem decode_contentCursor
    (h : contentCursor R revision field index startChar startByte = .ok token)
    (hp : contentPosition R revision field index startChar startByte = .ok p) :
    decodeContentCursor R token revision field count = .ok p ↔
      contentSize p ≤ 768 ∧ index < count := by
  obtain ⟨hfield, rfl, -, hnumbers, hsegment⟩ := contentPosition_eq_ok.mp hp
  unfold contentCursor at h
  simp only [Transition.bind_eq_ok] at h
  obtain ⟨q, hq, integrity, hdigest, htoken⟩ := h
  obtain rfl := Except.ok.inj (hp.symm.trans hq)
  obtain ⟨-, hlength, hescaped⟩ := digest_spec hdigest
  have hkeys := lettered_contentParts integrity p
  obtain ⟨m, hmembers, hholds, hbody⟩ :=
    tokenBody_tokenOf contentTokenChars hkeys (List.cons_ne_nil _ _) htoken
  rw [bodyLength_contentParts (escapedLength_segmentId hsegment) hescaped] at hbody
  have hfits : 4 * contentSize p ≤ 3 * contentTokenChars ↔ contentSize p ≤ 768 := by
    unfold contentTokenChars
    omega
  simp only [hfits] at hbody
  rw [decodeContentCursor_eq_ok]
  constructor
  · rintro ⟨-, n, _, hn, -, -, -, hindex, -⟩
    refine ⟨?_, hindex⟩
    by_contra hlong
    rw [hbody, if_neg hlong] at hn
    cases hn
  · rintro ⟨hsize, hindex⟩
    rw [if_pos hsize] at hbody
    have hindex₀ : 0 ≤ p.index := by
      simp only [ContentCursorPosition.numbers, List.all_cons, Bool.and_eq_true,
        decide_eq_true_eq] at hnumbers
      exact hnumbers.1
    refine ⟨⟨hfield, by omega⟩, m, integrity, hbody, hmembers, ?_, ?_, hindex, hsegment, hdigest⟩
    · exact equalsNumber_of_holds (hholds ("v", .number 2) (by simp [contentParts]))
    · exact readContentPosition_eq_some.mpr ⟨hnumbers, fun e he _ => hholds e he⟩

/-- A cursor that is taken is the one that is made for its position exactly if it is written that
way. -/
theorem contentCursor_decoded (h : decodeContentCursor R token revision field count = .ok p) :
    contentCursor R revision field p.index (some p.startChar) (some p.startByte) = .ok token ↔
      Canonical F "twcur1." 2 token := by
  obtain ⟨⟨hfield, -⟩, m, integrity, hbody, hmembers, -, hread, -, hsegment, hdigest⟩ :=
    decodeContentCursor_eq_ok.mp h
  obtain ⟨hnumbers, hholds⟩ := readContentPosition_eq_some.mp hread
  have hposition : contentPosition R revision field p.index (some p.startChar) (some p.startByte) =
      .ok p := contentPosition_eq_ok.mpr ⟨hfield, rfl, rfl, hnumbers, hsegment⟩
  have hcanonical := tokenOf_iff_canonical (R := R) 2 (k := ⟨2, by decide⟩)
    (lettered_contentParts integrity p) (by simp [contentParts]) rfl hbody
    hmembers hholds
  rw [← hcanonical]
  unfold contentCursor
  simp only [Transition.bind_eq_ok]
  constructor
  · rintro ⟨q, hq, integrity', hdigest', htoken⟩
    obtain rfl := Except.ok.inj (hposition.symm.trans hq)
    obtain rfl := Except.ok.inj (hdigest.symm.trans hdigest')
    exact htoken
  · intro htoken
    exact ⟨p, hposition, integrity, hdigest, htoken⟩

end

end Tendwire.Tokens

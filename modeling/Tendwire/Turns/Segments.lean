import Tendwire.Collections.Packing
import Tendwire.Strings.Decoding
import Tendwire.Transition.Fallible

/-!
# Segments of a canonical text

A canonical text is sent in pages of bounded UTF-8. A scan over its characters cuts it, and a
segment tells where its page lies in characters and in bytes.
-/

namespace Tendwire.Content

open Strings List

/-- The `ValueError`s of `segment_canonical_text`. -/
inductive SegmentError where
  | surrogate
  | notPositive
  | tooNarrow
  deriving DecidableEq, Repr

structure ContentSegment where
  index : ℕ
  startChar : ℕ
  endChar : ℕ
  startByte : ℕ
  endByte : ℕ
  text : Text
  charLength : ℕ
  byteLength : ℕ
  deriving DecidableEq

/-- `_utf8_code_point_width`. -/
def utf8CodePointWidth (c : CodePoint) : Except SegmentError ℕ :=
  if isSurrogate c then .error .surrogate else .ok (utf8Width c)

/-- The segments so far, and where the open page starts and how long it is. -/
structure SegmentScan where
  segments : List ContentSegment
  start : ℕ
  startByte : ℕ
  byteLength : ℕ

/-- The segment of `text[start:offset]`. -/
def SegmentScan.close (s : SegmentScan) (text : Text) (offset : ℕ) : ContentSegment where
  index := s.segments.length
  startChar := s.start
  endChar := offset
  startByte := s.startByte
  endByte := s.startByte + s.byteLength
  text := (text.take offset).drop s.start
  charLength := offset - s.start
  byteLength := s.byteLength

def segmentStep (text : Text) (maxUtf8Bytes : ℕ) (s : SegmentScan) (entry : CodePoint × ℕ) :
    Except SegmentError SegmentScan := do
  let width ← utf8CodePointWidth entry.1
  if maxUtf8Bytes < width then .error .tooNarrow
  else if s.byteLength ≠ 0 ∧ maxUtf8Bytes < s.byteLength + width then
    .ok ⟨s.segments ++ [s.close text entry.2], entry.2, s.startByte + s.byteLength, width⟩
  else .ok { s with byteLength := s.byteLength + width }

/-- `segment_canonical_text`. -/
def segmentCanonicalText (text : Text) (maxUtf8Bytes : ℤ) :
    Except SegmentError (List ContentSegment) := do
  if maxUtf8Bytes < 1 then .error .notPositive
  else if text = [] then .ok []
  else
    let s ← text.zipIdx.foldlM (segmentStep text maxUtf8Bytes.toNat) ⟨[], 0, 0, 0⟩
    .ok (s.segments ++ [s.close text text.length])

/-! ### The segments of pages -/

/-- The segments of consecutive pages, from a place on. -/
def segmentsFrom (index startChar startByte : ℕ) : List Text → List ContentSegment
  | [] => []
  | page :: pages =>
    ⟨index, startChar, startChar + page.length, startByte, startByte + utf8Length page, page,
      page.length, utf8Length page⟩ ::
        segmentsFrom (index + 1) (startChar + page.length) (startByte + utf8Length page) pages

abbrev segmentsOf : List Text → List ContentSegment := segmentsFrom 0 0 0

variable {text t u v page : Text} {pages : List Text} {cap index startChar startByte : ℕ}
  {c : CodePoint} {s s' : SegmentScan}

@[simp] lemma length_segmentsFrom :
    (segmentsFrom index startChar startByte pages).length = pages.length := by
  induction pages generalizing index startChar startByte with
  | nil => rfl
  | cons page pages ih => simp [segmentsFrom, ih]

lemma texts_segmentsFrom :
    (segmentsFrom index startChar startByte pages).map (·.text) = pages := by
  induction pages generalizing index startChar startByte with
  | nil => rfl
  | cons page pages ih => rw [segmentsFrom, map_cons, ih]

lemma segmentsFrom_append (pages' : List Text) :
    segmentsFrom index startChar startByte (pages ++ pages') =
      segmentsFrom index startChar startByte pages ++ segmentsFrom (index + pages.length)
        (startChar + pages.flatten.length) (startByte + utf8Length pages.flatten) pages' := by
  induction pages generalizing index startChar startByte with
  | nil => rfl
  | cons page pages ih =>
    simp only [segmentsFrom, cons_append, ih, length_cons, flatten_cons, length_append,
      utf8Length_append]
    simp only [Nat.add_assoc, Nat.add_comm 1 pages.length]

/-- A segment lies behind the pages before it. -/
lemma getElem?_segmentsOf (i : ℕ) : (segmentsOf pages)[i]? = pages[i]?.map fun page =>
    ⟨i, (pages.take i).flatten.length, (pages.take i).flatten.length + page.length,
      utf8Length (pages.take i).flatten, utf8Length (pages.take i).flatten + utf8Length page, page,
      page.length, utf8Length page⟩ := by
  by_cases hi : i < pages.length
  · conv_lhs => rw [← take_append_drop i pages, drop_eq_getElem_cons hi, segmentsOf,
      segmentsFrom_append]
    have hlength : (segmentsFrom 0 0 0 (pages.take i)).length = i := by simp; omega
    rw [getElem?_append_right (Nat.le_of_eq hlength), hlength, Nat.sub_self, getElem?_eq_getElem hi]
    simp only [segmentsFrom, getElem?_cons_zero, Option.map_some, Nat.zero_add, length_take,
      Nat.min_eq_left (Nat.le_of_lt hi)]
  · rw [getElem?_eq_none (by simpa using hi), getElem?_eq_none (by omega)]
    rfl

/-! ### The scan -/

lemma utf8Width_pos (c : CodePoint) : 1 ≤ utf8Width c := by
  unfold utf8Width
  split_ifs <;> omega

lemma utf8Length_eq_zero : utf8Length t = 0 ↔ t = [] := by
  cases t with
  | nil => simp
  | cons c t =>
    have := utf8Width_pos c
    simp only [utf8Length_cons, reduceCtorEq, iff_false]
    omega

/-- A character that can be put on a page. -/
def Segmentable (cap : ℕ) (c : CodePoint) : Prop := isSurrogate c = false ∧ utf8Width c ≤ cap

instance (cap : ℕ) (c : CodePoint) : Decidable (Segmentable cap c) :=
  inferInstanceAs (Decidable (_ ∧ _))

/-- What is scanned is cut into closed pages and an open one. -/
structure Scanned (cap : ℕ) (u : Text) (s : SegmentScan) (pages : List Text) (page : Text) :
    Prop where
  text : pages.flatten ++ page = u
  segments : s.segments = segmentsOf pages
  start : s.start = pages.flatten.length
  startByte : s.startByte = utf8Length pages.flatten
  byteLength : s.byteLength = utf8Length page
  packed : page ≠ [] → Packed utf8Width cap (pages ++ [page])
  first : page = [] → pages = []

lemma Scanned.close (h : Scanned cap u s pages page) (htext : u <+: text) :
    s.segments ++ [s.close text u.length] = segmentsOf (pages ++ [page]) := by
  obtain ⟨rest, rfl⟩ := htext
  rw [segmentsOf, segmentsFrom_append, ← segmentsOf, ← h.segments]
  have hlength : u.length - s.start = page.length := by
    rw [← h.text, h.start, length_append]
    omega
  have hpage : ((u ++ rest).take u.length).drop s.start = page := by
    rw [take_left, ← h.text, h.start, drop_left]
  have hend : u.length = pages.flatten.length + page.length := by rw [← h.text, length_append]
  simp only [SegmentScan.close, segmentsFrom, hpage, hlength, Nat.zero_add]
  rw [hend, h.segments, length_segmentsFrom, h.start, h.startByte, h.byteLength]

/-- One more character. -/
theorem Scanned.step (h : Scanned cap u s pages page) (hc : Segmentable cap c)
    (htext : u ++ [c] <+: text) : ∃ s' pages' page',
      segmentStep text cap s (c, u.length) = .ok s' ∧ page' ≠ [] ∧
        Scanned cap (u ++ [c]) s' pages' page' := by
  have hwidth : utf8CodePointWidth c = .ok (utf8Width c) := if_neg (by simp [hc.1])
  simp only [segmentStep, hwidth]
  change ∃ s' pages' page', (if cap < utf8Width c then _ else _) = Except.ok s' ∧ _
  rw [if_neg (Nat.not_lt.mpr hc.2)]
  split_ifs with hfull
  · have hpage : page ≠ [] := by
      rw [h.byteLength] at hfull
      exact fun hnil => hfull.1 (utf8Length_eq_zero.mpr hnil)
    refine ⟨_, pages ++ [page], [c], rfl, cons_ne_nil _ _, ?_, ?_, ?_, ?_, ?_, fun _ => ?_, ?_⟩
    · rw [flatten_append, flatten_singleton, h.text]
    · exact h.close ((prefix_append u [c]).trans htext)
    · rw [flatten_append, flatten_singleton, h.text]
    · change s.startByte + s.byteLength = _
      rw [flatten_append, flatten_singleton, utf8Length_append, h.startByte, h.byteLength]
    · simp
    · refine (h.packed hpage).snoc hc.2 ?_
      rw [h.byteLength] at hfull
      exact hfull.2
    · exact fun hnil => absurd hnil (cons_ne_nil _ _)
  · refine ⟨_, pages, page ++ [c], rfl, by simp, ?_, h.segments, h.start, h.startByte, ?_, fun _ => ?_,
      fun hnil => absurd hnil (by simp)⟩
    · rw [← append_assoc, h.text]
    · change s.byteLength + utf8Width c = _
      rw [utf8Length_append, h.byteLength]
      simp
    · by_cases hpage : page = []
      · rw [hpage, h.first hpage]
        exact Packed.singleton hc.2
      · refine (h.packed hpage).extend ?_
        have hne : s.byteLength ≠ 0 := by rwa [h.byteLength, Ne, utf8Length_eq_zero]
        have := fun hlt => hfull ⟨hne, hlt⟩
        rw [h.byteLength] at this
        exact Nat.not_lt.mp this

lemma segmentStep_eq_ok {entry : CodePoint × ℕ} (h : segmentStep text cap s entry = .ok s') :
    Segmentable cap entry.1 := by
  obtain ⟨width, hwidth, h⟩ := Transition.bind_eq_ok.mp h
  unfold utf8CodePointWidth at hwidth
  split at hwidth
  · cases hwidth
  · next hsurrogate =>
    obtain rfl := Except.ok.inj hwidth
    split at h
    · cases h
    · next hle => exact ⟨by simpa using hsurrogate, Nat.not_lt.mp hle⟩

lemma segmentable_of_foldlM {entries : List (CodePoint × ℕ)}
    (h : entries.foldlM (segmentStep text cap) s = .ok s') :
    ∀ entry ∈ entries, Segmentable cap entry.1 := by
  induction entries generalizing s with
  | nil => simp
  | cons entry entries ih =>
    obtain ⟨s₁, hs₁, h⟩ := Transition.bind_eq_ok.mp h
    exact forall_mem_cons.mpr ⟨segmentStep_eq_ok hs₁, ih h⟩

/-- The characters that are left. -/
theorem Scanned.run (h : Scanned cap u s pages page) (hv : ∀ c ∈ v, Segmentable cap c)
    (hne : u ++ v ≠ []) (htext : u ++ v = text) : ∃ s' pages' page',
      (v.zipIdx u.length).foldlM (segmentStep text cap) s = .ok s' ∧ page' ≠ [] ∧
        Scanned cap text s' pages' page' := by
  induction v generalizing u s pages page with
  | nil =>
    rw [append_nil] at htext hne
    subst htext
    refine ⟨s, pages, page, rfl, fun hnil => hne ?_, h⟩
    rw [← h.text, hnil, h.first hnil]
    rfl
  | cons c v ih =>
    have hlonger : (u ++ [c]) ++ v = text := by rw [append_assoc]; exact htext
    obtain ⟨s₁, pages₁, page₁, hs₁, -, hscanned⟩ := h.step (hv c mem_cons_self)
      ⟨v, hlonger⟩
    obtain ⟨s', pages', page', hs', hpage, hdone⟩ := ih hscanned
      (fun d hd => hv d (mem_cons_of_mem _ hd)) (by simp) hlonger
    refine ⟨s', pages', page', ?_, hpage, hdone⟩
    rw [zipIdx_cons, foldlM_cons, hs₁]
    rw [length_append, length_singleton] at hs'
    exact hs'

/-- A text is cut exactly if each of its characters fits, and then into the pages that are as long
as they can be. -/
theorem segmentCanonicalText_eq_ok {maxUtf8Bytes : ℤ} {segments : List ContentSegment} :
    segmentCanonicalText text maxUtf8Bytes = .ok segments ↔
      1 ≤ maxUtf8Bytes ∧ (∀ c ∈ text, Segmentable maxUtf8Bytes.toNat c) ∧
        ∃ pages, Packed utf8Width maxUtf8Bytes.toNat pages ∧ pages.flatten = text ∧
          segments = segmentsOf pages := by
  unfold segmentCanonicalText
  split_ifs with hmax hempty
  · simp only [false_iff]
    omega
  · subst hempty
    constructor
    · intro h
      obtain rfl := Except.ok.inj h
      exact ⟨by omega, by simp, [], .nil, rfl, rfl⟩
    · rintro ⟨-, -, pages, hpacked, hflatten, rfl⟩
      rw [hpacked.eq_of_flatten .nil hflatten]
      rfl
  · have hpages : ∀ (_ : ∀ c ∈ text, Segmentable maxUtf8Bytes.toNat c), ∃ s' pages,
        text.zipIdx.foldlM (segmentStep text maxUtf8Bytes.toNat) ⟨[], 0, 0, 0⟩ = .ok s' ∧
          s'.segments ++ [s'.close text text.length] = segmentsOf pages ∧
          Packed utf8Width maxUtf8Bytes.toNat pages ∧ pages.flatten = text := by
      intro hall
      have hstart : Scanned maxUtf8Bytes.toNat [] ⟨[], 0, 0, 0⟩ [] [] :=
        ⟨rfl, rfl, rfl, rfl, rfl, fun h => absurd rfl h, fun _ => rfl⟩
      obtain ⟨s', pages, page, hs', hpage, hscanned⟩ := hstart.run hall hempty (nil_append text)
      refine ⟨s', pages ++ [page], hs', hscanned.close (prefix_rfl), hscanned.packed hpage, ?_⟩
      rw [flatten_append, flatten_singleton, hscanned.text]
    constructor
    · intro h
      obtain ⟨s', hs', h⟩ := Transition.bind_eq_ok.mp h
      obtain rfl := Except.ok.inj h
      have hall : ∀ c ∈ text, Segmentable maxUtf8Bytes.toNat c := by
        intro c hc
        obtain ⟨i, hi⟩ := mem_iff_getElem?.mp hc
        exact segmentable_of_foldlM hs' _ (mk_mem_zipIdx_iff_getElem?.mpr hi)
      obtain ⟨s'', pages, hs'', hsegments, hpacked, hflatten⟩ := hpages hall
      obtain rfl := Except.ok.inj (hs'.symm.trans hs'')
      exact ⟨by omega, hall, pages, hpacked, hflatten, hsegments⟩
    · rintro ⟨-, hall, pages, hpacked, hflatten, rfl⟩
      obtain ⟨s', pages', hs', hsegments, hpacked', hflatten'⟩ := hpages hall
      rw [hpacked.eq_of_flatten hpacked' (hflatten.trans hflatten'.symm), ← hsegments]
      exact Transition.bind_eq_ok.mpr ⟨s', hs', rfl⟩

/-! ### What a reader of segments relies on -/

/-- The texts of segments are the text, each lies where it says and is bounded, and no other way to
cut the text into bounded pieces has fewer. -/
theorem segments_of_text {maxUtf8Bytes : ℤ} {segments : List ContentSegment}
    (h : segmentCanonicalText text maxUtf8Bytes = .ok segments) :
    (segments.map (·.text)).flatten = text ∧
      (∀ x ∈ segments, x.text ≠ [] ∧ (utf8Length x.text : ℤ) ≤ maxUtf8Bytes ∧
        x.text = (text.take x.endChar).drop x.startChar ∧
        x.startByte = utf8Length (text.take x.startChar) ∧
        x.endByte = utf8Length (text.take x.endChar)) ∧
      ∀ pieces : List Text, pieces.flatten = text →
        (∀ piece ∈ pieces, (utf8Length piece : ℤ) ≤ maxUtf8Bytes) →
          segments.length ≤ pieces.length := by
  obtain ⟨hmax, -, pages, hpacked, rfl, rfl⟩ := segmentCanonicalText_eq_ok.mp h
  refine ⟨?_, fun x hx => ?_, fun pieces hflatten hpieces => ?_⟩
  · rw [texts_segmentsFrom]
  · obtain ⟨i, hi⟩ := mem_iff_getElem?.mp hx
    rw [getElem?_segmentsOf] at hi
    obtain ⟨page, hpage, rfl⟩ := Option.map_eq_some_iff.mp hi
    obtain ⟨hlt, rfl⟩ := List.getElem?_eq_some_iff.mp hpage
    have hmem := getElem_mem hlt
    have hlight : utf8Length pages[i] ≤ maxUtf8Bytes.toNat := hpacked.light _ hmem
    have hsplit : pages.flatten =
        (pages.take i).flatten ++ (pages[i] ++ (pages.drop (i + 1)).flatten) := by
      rw [← flatten_cons, getElem_cons_drop, ← flatten_append, take_append_drop]
    have hstart : pages.flatten.take (pages.take i).flatten.length = (pages.take i).flatten := by
      rw [hsplit, take_left]
    have hend : pages.flatten.take ((pages.take i).flatten.length + pages[i].length) =
        (pages.take i).flatten ++ pages[i] := by
      rw [hsplit, ← length_append, ← append_assoc, take_left]
    refine ⟨hpacked.nonempty _ hmem, ?_, ?_, ?_, ?_⟩
    · change (utf8Length pages[i] : ℤ) ≤ maxUtf8Bytes
      omega
    · change pages[i] = _
      rw [hend, drop_left]
    · rw [hstart]
    · rw [hend, utf8Length_append]
  · rw [length_segmentsFrom]
    refine hpacked.length_le (fun piece hpiece => ?_) (hflatten ▸ suffix_rfl)
    have hlight := hpieces piece hpiece
    change utf8Length piece ≤ _
    omega

theorem segments_of_text_sample : ∃ segments,
    segmentCanonicalText (ofString "segment") 3 = .ok segments ∧
      (segments.map (·.text)).flatten = ofString "segment" := by
  have hcut : segmentCanonicalText (ofString "segment") 3 = .ok _ := rfl
  exact ⟨_, hcut, (segments_of_text hcut).1⟩

end Tendwire.Content

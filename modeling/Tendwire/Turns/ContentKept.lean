import Mathlib.Data.List.Range
import Tendwire.Turns.ContentStore

/-!
# What the store of content keeps

A revision is named by a digest of its texts, so `T` says what each revision holds. Rows hold just
that, and the kept boundaries are where the pages begin, written or repaired.
-/

namespace Tendwire.Content

open Strings List Python Public Tokens
open Connector (ContentState TurnField)

variable {F : Type} [FloatText F] {R : Runtime F}

/-- The texts of each revision. -/
abbrev Holdings := Text → TurnField → FieldText

def Holdings.text (T : Holdings) (revision : Text) (field : TurnField) : Text :=
  (T revision field).text.getD []

/-- The pages of a text, as long as they can be. -/
structure CutInto (t : Text) (pages : List Text) : Prop where
  packed : Packed utf8Width turnContentPageMaxUtf8Bytes pages
  flatten : pages.flatten = t
  segmentable : ∀ c ∈ t, Segmentable turnContentPageMaxUtf8Bytes c

variable {t page : Text} {pages pages' done rest : List Text} {T : Holdings}
  {key : ContentKey} {field : TurnField} {boundaries : List PageBoundary} {b : PageBoundary}
  {s s' : ContentStore} {row : ContentRow} {index startChar startByte : ℕ}

lemma CutInto.unique (h : CutInto t pages) (h' : CutInto t pages') : pages = pages' :=
  h.packed.eq_of_flatten h'.packed (h.flatten.trans h'.flatten.symm)

lemma CutInto.encodable (h : CutInto t pages) : encodable t = true := by
  rw [Strings.encodable, all_eq_true]
  intro c hc
  rw [(h.segmentable c hc).1]
  rfl

lemma CutInto.nonempty (h : CutInto t pages) : ∀ page ∈ pages, page ≠ [] := h.packed.nonempty

/-! ### Where segments begin -/

lemma segmentsFrom_later : ∀ x ∈ segmentsFrom index startChar startByte pages,
    index ≤ x.index ∧ startChar ≤ x.startChar ∧ startByte ≤ x.startByte := by
  induction pages generalizing index startChar startByte with
  | nil => simp [segmentsFrom]
  | cons page pages ih =>
    rw [segmentsFrom, forall_mem_cons]
    refine ⟨⟨Nat.le_refl _, Nat.le_refl _, Nat.le_refl _⟩, fun x hx => ?_⟩
    have := ih x hx
    omega

lemma clashes_iff {a b : PageBoundary} : a.clashes b = true ↔ (a.key = b.key ∧ a.field = b.field) ∧
    (a.pageIndex = b.pageIndex ∨ a.startChar = b.startChar ∨ a.startByte = b.startByte) := by
  simp only [PageBoundary.clashes, Bool.and_eq_true, Bool.or_eq_true, beq_iff_eq, or_assoc]

lemma pairwise_boundaries (hne : ∀ page ∈ pages, page ≠ []) :
    ((segmentsFrom index startChar startByte pages).map (boundaryOf key field)).Pairwise
      fun a b => a.clashes b = false := by
  induction pages generalizing index startChar startByte with
  | nil => exact .nil
  | cons page pages ih =>
    rw [segmentsFrom, map_cons, pairwise_cons]
    refine ⟨fun b hb => ?_, ih fun p hp => hne p (mem_cons_of_mem _ hp)⟩
    obtain ⟨x, hx, rfl⟩ := mem_map.mp hb
    have hlater := segmentsFrom_later x hx
    have hpage := hne page mem_cons_self
    have hlength : page.length ≠ 0 := fun h => hpage (length_eq_zero_iff.mp h)
    have hwidth : utf8Length page ≠ 0 := fun h => hpage (utf8Length_eq_zero.mp h)
    rw [← Bool.not_eq_true, clashes_iff]
    simp only [boundaryOf]
    omega

/-- Boundaries of a field that lie before a place clash with none from there on. -/
def Before (boundaries : List PageBoundary) (key : ContentKey) (field : TurnField)
    (index startChar startByte : ℕ) : Prop :=
  ∀ b ∈ boundaries, b.key = key → b.field = field →
    b.pageIndex < index ∧ b.startChar < startChar ∧ b.startByte < startByte

lemma Before.any_clashes (h : Before boundaries key field index startChar startByte) :
    boundaries.any (PageBoundary.clashes ⟨⟨index, startChar, startByte⟩, key, field⟩) = false := by
  rw [← Bool.not_eq_true, any_eq_true]
  rintro ⟨b, hb, hclash⟩
  obtain ⟨⟨hkey, hfield⟩, hplace⟩ := clashes_iff.mp hclash
  have := h b hb hkey.symm hfield.symm
  simp only at hplace
  omega

lemma Before.snoc (h : Before boundaries key field index startChar startByte) (hpage : page ≠ []) :
    Before (boundaries ++ [⟨⟨index, startChar, startByte⟩, key, field⟩]) key field (index + 1)
      (startChar + page.length) (startByte + utf8Length page) := by
  have hlength : page.length ≠ 0 := fun h => hpage (length_eq_zero_iff.mp h)
  have hwidth : utf8Length page ≠ 0 := fun h => hpage (utf8Length_eq_zero.mp h)
  intro b hb hkey hfield
  rcases mem_append.mp hb with hb | hb
  · have := h b hb hkey hfield
    omega
  · rw [mem_singleton.mp hb]
    simp only
    omega

/-- The writer adds the boundaries of a field that has none. -/
theorem insertBoundaries_before (hne : ∀ page ∈ pages, page ≠ [])
    (h : Before boundaries key field index startChar startByte) :
    insertBoundaries key field (segmentsFrom index startChar startByte pages) boundaries =
      boundaries ++ (segmentsFrom index startChar startByte pages).map (boundaryOf key field) := by
  induction pages generalizing index startChar startByte boundaries with
  | nil => simp [insertBoundaries, segmentsFrom]
  | cons page pages ih =>
    have hrest := ih (fun p hp => hne p (mem_cons_of_mem _ hp)) (h.snoc (hne page mem_cons_self))
    rw [insertBoundaries] at hrest ⊢
    rw [segmentsFrom, map_cons, foldl_cons, insertOrIgnore, boundaryOf, h.any_clashes]
    simp only [Bool.false_eq_true, if_false]
    rw [hrest, append_assoc, singleton_append]

/-- The range behind some pages is read as the next one. -/
theorem CutInto.blobPage (h : CutInto t (done ++ page :: rest)) :
    boundedUtf8BlobPage (((encoded t).drop (utf8Length done.flatten)).take
      (min turnContentPageMaxUtf8Bytes (utf8Length t - utf8Length done.flatten))) = some page := by
  have htext : t = done.flatten ++ (page :: rest).flatten := by rw [← h.flatten, flatten_append]
  have hencodable := h.encodable
  rw [htext, encodable_append_iff] at hencodable
  have hdrop : (encoded t).drop (utf8Length done.flatten) = encoded (page :: rest).flatten := by
    rw [htext, encoded_append, ← length_encoded hencodable.1, drop_left]
  have htotal : utf8Length t - utf8Length done.flatten = (encoded (page :: rest).flatten).length := by
    rw [htext, utf8Length_append, length_encoded hencodable.2]
    omega
  rw [hdrop, htotal, ← take_eq_take_min]
  refine boundedUtf8BlobPage_page ?_ hencodable.2
  have hdropped := h.packed.drop done.length
  rwa [drop_left] at hdropped

lemma CutInto.bounds (h : CutInto t (done ++ page :: rest)) : (encoded page).length = utf8Length page ∧
    utf8Length page ≠ 0 ∧ utf8Length page ≤ turnContentPageMaxUtf8Bytes := by
  have hmem : page ∈ done ++ page :: rest := by simp
  refine ⟨?_, fun hzero => h.nonempty page hmem (utf8Length_eq_zero.mp hzero),
    h.packed.light page hmem⟩
  have hencodable := h.encodable
  rw [← h.flatten, flatten_append, flatten_cons, encodable_append_iff, encodable_append_iff] at hencodable
  exact length_encoded hencodable.2.1

/-- The repair finds them in the bytes. -/
theorem rebuildPages_before {rounds : ℕ} (hcut : CutInto t (done ++ rest))
    (h : Before boundaries key field done.length done.flatten.length (utf8Length done.flatten))
    (hrounds : rest.length < rounds) :
    rebuildPages key field (encoded t) (utf8Length t) rounds
        ⟨boundaries, done.length, done.flatten.length, utf8Length done.flatten⟩ =
      .ok ⟨boundaries ++ (segmentsFrom done.length done.flatten.length (utf8Length done.flatten)
        rest).map (boundaryOf key field), (done ++ rest).length, t.length, utf8Length t⟩ := by
  induction rest generalizing done boundaries rounds with
  | nil =>
    obtain ⟨rounds, rfl⟩ : ∃ k, rounds = k + 1 := ⟨rounds - 1, by omega⟩
    have htext : done.flatten = t := by rw [← hcut.flatten, append_nil]
    rw [rebuildPages, htext, if_neg (Nat.lt_irrefl _), append_nil, segmentsFrom, map_nil, append_nil]
  | cons page rest ih =>
    obtain ⟨rounds, rfl⟩ : ∃ k, rounds = k + 1 := ⟨rounds - 1, by omega⟩
    obtain ⟨hlength, hzero, hlight⟩ := hcut.bounds
    have hpage : page ≠ [] := hcut.nonempty page (by simp)
    have hmore : utf8Length done.flatten < utf8Length t := by
      rw [← hcut.flatten, flatten_append, flatten_cons, utf8Length_append, utf8Length_append]
      omega
    have hnext : done.flatten ++ page = (done ++ [page]).flatten := by
      rw [flatten_append, flatten_singleton]
    have hcut' : CutInto t ((done ++ [page]) ++ rest) := by rwa [append_assoc, singleton_append]
    have hbefore := h.snoc hpage
    have hlonger : done.length + 1 = (done ++ [page]).length := by simp
    rw [← length_append, ← utf8Length_append, hnext, hlonger] at hbefore
    have hstep := ih hcut' hbefore (Nat.lt_of_succ_lt_succ hrounds)
    rw [← hnext] at hstep
    simp only [length_append, utf8Length_append, length_singleton] at hstep
    rw [rebuildPages, if_pos hmore]
    simp only [hcut.blobPage, hlength, h.any_clashes]
    rw [if_neg (by omega)]
    simp only [Bool.false_eq_true, if_false]
    rw [hstep, segmentsFrom, map_cons, append_assoc, singleton_append]
    simp only [length_append, length_cons, boundaryOf, Nat.add_assoc, Nat.add_comm 1]

/-! ### The invariant -/

/-- A row holds the texts of its revision and their lengths. -/
structure RowKept (T : Holdings) (row : ContentRow) : Prop where
  content : ∀ f, (row.field f).toFieldText = T row.key.revision f
  named : Strings.encodable row.key.revision = true
  encodable : ∀ f, Strings.encodable (T.text row.key.revision f) = true
  charLength : ∀ f, (row.field f).charLength = (T.text row.key.revision f).length
  byteLength : ∀ f, (row.field f).byteLength = utf8Length (T.text row.key.revision f)
  small : ∀ f, utf8Length (T.text row.key.revision f) ≤ maxInteger
  available : ∀ f, (T row.key.revision f).state = .complete → (T row.key.revision f).text ≠ none
  pages : ∀ f, (T row.key.revision f).state = .complete →
    ∃ pages, CutInto (T.text row.key.revision f) pages ∧ (row.field f).pageCount = pages.length

/-- A boundary lies where a page of a complete text begins. -/
def BoundaryKept (T : Holdings) (b : PageBoundary) : Prop :=
  (T b.key.revision b.field).state = .complete ∧ ∃ done page rest, CutInto (T.text b.key.revision b.field) (done ++ page :: rest) ∧
    b.toPageStart = ⟨done.length, done.flatten.length, utf8Length done.flatten⟩

/-- What is there is right, though boundaries may be missing. -/
structure Sound (T : Holdings) (s : ContentStore) : Prop where
  rows : ∀ row ∈ s.rows, RowKept T row
  primary : (s.rows.map (·.key)).Nodup
  boundaries : ∀ b ∈ s.boundaries, BoundaryKept T b
  distinct : s.boundaries.Pairwise fun a b => a.clashes b = false
  owned : ∀ b ∈ s.boundaries, ∃ row ∈ s.rows, row.key = b.key

/-- A complete field has as many boundaries as pages. -/
def Full (s : ContentStore) (row : ContentRow) (f : TurnField) : Prop :=
  (row.field f).state = .complete →
    (s.boundariesOf row.key f).length = (row.field f).pageCount

structure Kept (T : Holdings) (s : ContentStore) : Prop extends Sound T s where
  full : ∀ row ∈ s.rows, ∀ f, Full s row f

lemma mem_boundariesOf :
    b ∈ s.boundariesOf key field ↔ b ∈ s.boundaries ∧ b.key = key ∧ b.field = field := by
  simp [ContentStore.boundariesOf]

/-- As many boundaries as pages are all of them. -/
theorem Sound.mem_boundariesOf (hs : Sound T s)
    (hcut : CutInto (T.text key.revision field) (done ++ page :: rest))
    (hlength : (s.boundariesOf key field).length = (done ++ page :: rest).length) :
    (⟨⟨done.length, done.flatten.length, utf8Length done.flatten⟩, key, field⟩ : PageBoundary) ∈
      s.boundariesOf key field := by
  have hplace : ∀ b ∈ s.boundariesOf key field, ∃ done' page' rest',
      done ++ page :: rest = done' ++ page' :: rest' ∧ b = ⟨⟨done'.length, done'.flatten.length,
        utf8Length done'.flatten⟩, key, field⟩ := by
    intro b hb
    obtain ⟨hmem, rfl, rfl⟩ := Content.mem_boundariesOf.mp hb
    obtain ⟨-, done', page', rest', hcut', hstart⟩ := hs.boundaries b hmem
    refine ⟨done', page', rest', hcut.unique hcut', ?_⟩
    rw [← hstart]
  have hnodup : ((s.boundariesOf key field).map (·.pageIndex)).Nodup := by
    rw [Nodup, pairwise_map]
    refine (hs.distinct.filter _).imp_of_mem fun {a b} ha hb hclash heq => ?_
    obtain ⟨-, hka, hfa⟩ := Content.mem_boundariesOf.mp ha
    obtain ⟨-, hkb, hfb⟩ := Content.mem_boundariesOf.mp hb
    rw [clashes_iff.mpr ⟨⟨hka.trans hkb.symm, hfa.trans hfb.symm⟩, .inl heq⟩] at hclash
    cases hclash
  have hsub : (s.boundariesOf key field).map (·.pageIndex) ⊆ range (done ++ page :: rest).length := by
    intro i hi
    obtain ⟨b, hb, rfl⟩ := mem_map.mp hi
    obtain ⟨done', page', rest', heq, rfl⟩ := hplace b hb
    rw [mem_range, heq]
    simp
  have hperm := (subperm_of_subset hnodup hsub).perm_of_length_le (by simp [hlength])
  have hmem : done.length ∈ (s.boundariesOf key field).map (·.pageIndex) :=
    hperm.mem_iff.mpr (by simp)
  obtain ⟨b, hb, hindex⟩ := mem_map.mp hmem
  obtain ⟨done', page', rest', heq, rfl⟩ := hplace b hb
  obtain rfl : done = done' := append_inj_left heq hindex.symm
  exact hb

/-! ### Insertions -/

section

variable {hostId turnId revision : Text} {content : TurnField → FieldText} {isCurrent : Bool}
  {f : FieldText} {segments : List ContentSegment}

lemma stored_eq_ok {α : Type} {x : Except PageError α} {a : α} : stored x = .ok a ↔ x = .ok a := by
  cases x <;> simp [stored, Except.mapError]

lemma tokenized_eq_ok {α : Type} {x : Except TokenError α} {a : α} :
    tokenized x = .ok a ↔ x = .ok a := by
  cases x <;> simp [tokenized, Except.mapError]

lemma encodeText_eq_ok {bytes : List UInt8} : encodeText t = .ok bytes ↔ utf8 t = some bytes := by
  rw [encodeText, stored_eq_ok, tokenized_eq_ok, required_eq_ok]

/-- A field that is complete is cut into its pages, and no other field is. -/
lemma fieldSegments_eq_ok (h : fieldSegments f = .ok segments) :
    ∃ pages, segments = segmentsOf pages ∧ (∀ page ∈ pages, page ≠ []) ∧
      (f.state = .complete → CutInto (f.text.getD []) pages) ∧
      (f.state ≠ .complete → pages = []) := by
  unfold fieldSegments at h
  split at h
  · next hstate =>
    rw [stored_eq_ok] at h
    cases hcut : segmentCanonicalText (f.text.getD []) turnContentPageMaxUtf8Bytes with
    | error e => rw [hcut] at h; cases h
    | ok found =>
      rw [hcut] at h
      obtain rfl := Except.ok.inj h
      obtain ⟨-, hfit, pages, hpacked, hflatten, rfl⟩ := segmentCanonicalText_eq_ok.mp hcut
      exact ⟨pages, rfl, hpacked.nonempty, fun _ => ⟨hpacked, hflatten, hfit⟩,
        fun hne => absurd hstate hne⟩
  · next hstate =>
    exact ⟨[], (Except.ok.inj h).symm, by simp, fun hc => absurd hc hstate, fun _ => rfl⟩

lemma fieldRow_eq_ok {r : FieldRow} (h : fieldRow f segments = .ok r) :
    Strings.encodable (f.text.getD []) = true ∧ utf8Length (f.text.getD []) ≤ maxInteger ∧
      r = ⟨f, (f.text.getD []).length, utf8Length (f.text.getD []), segments.length⟩ := by
  obtain ⟨bytes, hbytes, h⟩ := Transition.bind_eq_ok.mp h
  rw [encodeText_eq_ok] at hbytes
  rw [length_utf8 hbytes] at h
  split at h
  · cases h
  · next hsmall =>
    exact ⟨(utf8_eq_some_iff.mp hbytes).1, Nat.not_lt.mp hsmall, (Except.ok.inj h).symm⟩

lemma validateContentState_eq_ok (h : validateContentState f = .ok ()) (hstate : f.state = .complete) :
    f.text ≠ none := by
  unfold validateContentState at h
  intro hnone
  rw [hstate, hnone] at h
  cases h

lemma contentRevision_eq_ok (h : contentRevision R turnId content = .ok revision) :
    Strings.encodable revision = true ∧
      ∀ f, (content f).state = .complete → (content f).text ≠ none := by
  unfold contentRevision at h
  split at h
  · cases h
  · simp only [Transition.bind_eq_ok] at h
    obtain ⟨⟨⟩, huser, ⟨⟩, hfinal, bytes, -, h⟩ := h
    obtain rfl := Except.ok.inj h
    refine ⟨?_, fun f => ?_⟩
    · exact encodable_append_iff.mpr
        ⟨encodable_map_codePoint _, encodable_of_isAscii (isAscii_base64url _)⟩
    · cases f with
      | userText => exact validateContentState_eq_ok huser
      | assistantFinalText => exact validateContentState_eq_ok hfinal

/-- The boundaries that an insertion writes. -/
def insertedBoundaries (key : ContentKey) (segments : TurnField → List ContentSegment)
    (boundaries : List PageBoundary) : List PageBoundary :=
  insertBoundaries key .assistantFinalText (segments .assistantFinalText)
    (insertBoundaries key .userText (segments .userText) boundaries)

lemma insertRevision_spec (h : s.insertRevision R hostId turnId content isCurrent = .ok s') :
    ∃ (row : ContentRow) (segments : TurnField → List ContentSegment),
      (row.key.hostId = hostId ∧ row.key.turnId = turnId) ∧
      contentRevision R turnId content = .ok row.key.revision ∧
      (∀ f, fieldSegments (content f) = .ok (segments f) ∧
        fieldRow (content f) (segments f) = .ok (row.field f)) ∧
      ((s.row? row.key).isSome = true ∧
          s' = { s with boundaries := insertedBoundaries row.key segments s.boundaries } ∨
        s.row? row.key = none ∧ s' = { s with
          rows := s.rows ++ [row]
          boundaries := insertedBoundaries row.key segments s.boundaries }) := by
  unfold ContentStore.insertRevision at h
  simp only [Transition.bind_eq_ok] at h
  obtain ⟨revision, hrevision, userSegments, huserSegments, finalSegments, hfinalSegments, user,
    huser, final, hfinal, h⟩ := h
  refine ⟨⟨⟨hostId, turnId, revision⟩, fun f => f.casesOn user final, isCurrent⟩,
    fun f => f.casesOn userSegments finalSegments, ⟨rfl, rfl⟩, hrevision, fun f => ?_, ?_⟩
  · cases f with
    | userText => exact ⟨huserSegments, huser⟩
    | assistantFinalText => exact ⟨hfinalSegments, hfinal⟩
  · split at h
    · next hrow => exact .inl ⟨hrow, (Except.ok.inj h).symm⟩
    · next hrow =>
      rw [Bool.not_eq_true, Option.isSome_eq_false_iff, Option.isNone_iff_eq_none] at hrow
      split at h
      · cases h
      · refine .inr ⟨hrow, (Except.ok.inj h).symm.trans ?_⟩
        congr
        funext f
        cases f <;> rfl

/-- The segments of a field are boundaries of its pages. -/
lemma mem_boundaries_segmentsOf (h : b ∈ (segmentsOf pages).map (boundaryOf key field)) :
    ∃ done page rest, pages = done ++ page :: rest ∧
      b = ⟨⟨done.length, done.flatten.length, utf8Length done.flatten⟩, key, field⟩ := by
  obtain ⟨x, hx, rfl⟩ := mem_map.mp h
  obtain ⟨i, hi⟩ := mem_iff_getElem?.mp hx
  rw [getElem?_segmentsOf] at hi
  obtain ⟨page, hpage, rfl⟩ := Option.map_eq_some_iff.mp hi
  obtain ⟨hlt, hget⟩ := List.getElem?_eq_some_iff.mp hpage
  refine ⟨pages.take i, page, pages.drop (i + 1), ?_, ?_⟩
  · rw [← hget, getElem_cons_drop, take_append_drop]
  · rw [boundaryOf, length_take, Nat.min_eq_left (Nat.le_of_lt hlt)]

lemma insertBoundaries_of_mem (h : ∀ b ∈ segments.map (boundaryOf key field), b ∈ boundaries) :
    insertBoundaries key field segments boundaries = boundaries := by
  unfold insertBoundaries
  generalize segments.map (boundaryOf key field) = bs at h ⊢
  induction bs with
  | nil => rfl
  | cons b bs ih =>
    have hclash : boundaries.any b.clashes = true :=
      any_eq_true.mpr ⟨b, h b mem_cons_self, clashes_iff.mpr ⟨⟨rfl, rfl⟩, .inl rfl⟩⟩
    rw [foldl_cons, insertOrIgnore, hclash, if_pos rfl]
    exact ih fun b hb => h b (mem_cons_of_mem _ hb)

lemma mem_of_row? (h : s.row? key = some row) : row ∈ s.rows ∧ row.key = key :=
  ⟨mem_of_find?_eq_some h, by simpa using find?_some h⟩

/-- A revision that is there has its boundaries. -/
lemma Kept.insertedBoundaries_of_row (hs : Kept T s) (hrow : s.row? key = some row)
    (hT : T key.revision = content) {segments : TurnField → List ContentSegment}
    (hsegments : ∀ f, fieldSegments (content f) = .ok (segments f)) :
    insertedBoundaries key segments s.boundaries = s.boundaries := by
  obtain ⟨hmem, rfl⟩ := mem_of_row? hrow
  have hpresent : ∀ f, ∀ b ∈ (segments f).map (boundaryOf row.key f), b ∈ s.boundaries := by
    intro f b hb
    obtain ⟨pages, hpages, -, hcut, hnone⟩ := fieldSegments_eq_ok (hsegments f)
    rw [hpages] at hb
    obtain ⟨done, page, rest, rfl, rfl⟩ := mem_boundaries_segmentsOf hb
    have hcomplete : (content f).state = .complete := by
      by_contra hstate
      exact absurd (hnone hstate) (by simp)
    have hkept := hs.rows row hmem
    have hcontent : (row.field f).toFieldText = content f := by rw [hkept.content, hT]
    have htext : T.text row.key.revision f = (content f).text.getD [] := by rw [Holdings.text, hT]
    have hcut := hcut hcomplete
    rw [← htext] at hcut
    obtain ⟨pages', hcut', hcount⟩ := hkept.pages f (by rw [hT]; exact hcomplete)
    have hfull := hs.full row hmem f (by rw [hcontent, hcomplete])
    rw [hcount, ← hcut.unique hcut'] at hfull
    exact (mem_boundariesOf.mp (hs.mem_boundariesOf hcut hfull)).1
  rw [insertedBoundaries, insertBoundaries_of_mem (hpresent .userText),
    insertBoundaries_of_mem (hpresent .assistantFinalText)]

/-- A new revision gets those of both fields. -/
lemma insertedBoundaries_new {segments : TurnField → List ContentSegment}
    (hnew : ∀ b ∈ boundaries, b.key ≠ key) {pages : TurnField → List Text}
    (hsegments : ∀ f, segments f = segmentsOf (pages f)) (hne : ∀ f, ∀ page ∈ pages f, page ≠ []) :
    insertedBoundaries key segments boundaries = boundaries ++
      ((segments .userText).map (boundaryOf key .userText) ++
        (segments .assistantFinalText).map (boundaryOf key .assistantFinalText)) := by
  have huser : Before boundaries key .userText 0 0 0 := fun b hb hkey => absurd hkey (hnew b hb)
  have hfinal : Before (boundaries ++ (segmentsOf (pages .userText)).map (boundaryOf key .userText))
      key .assistantFinalText 0 0 0 := by
    intro b hb hkey hfield
    rcases mem_append.mp hb with hb | hb
    · exact absurd hkey (hnew b hb)
    · obtain ⟨x, -, rfl⟩ := mem_map.mp hb
      cases hfield
  rw [insertedBoundaries, hsegments .userText, hsegments .assistantFinalText,
    insertBoundaries_before (hne _) huser, insertBoundaries_before (hne _) hfinal, append_assoc]

end

end Tendwire.Content

import Tendwire.Turns.ContentRuns

/-!
# Reads of content

A page that is read by its byte range is the page that cutting the whole text again would give. So
a reader who follows the cursors gets the whole text, whatever is written in between.
-/

namespace Tendwire.Content

open Strings List Python Public Tokens
open Connector (ContentState TurnField)

variable {F : Type} [FloatText F] {R : Runtime F} {T : Holdings} {s : ContentStore}
  {row : ContentRow} {key : ContentKey} {field : TurnField} {b : PageBoundary}
  {pages done rest : List Text} {page : Text} {cursor : Option Text}

/-! ### One request -/

lemma Sound.boundary?_eq (hs : Sound T s) (hb : b ∈ s.boundariesOf key field) :
    s.boundary? key field b.pageIndex = some b := by
  rw [ContentStore.boundary?]
  cases hfind : (s.boundariesOf key field).find? (·.pageIndex = b.pageIndex) with
  | none =>
    have hnone := find?_eq_none.mp hfind b hb
    simp at hnone
  | some a =>
    have ha := mem_of_find?_eq_some hfind
    have hindex : a.pageIndex = b.pageIndex := by simpa using find?_some hfind
    obtain ⟨ha, hka, hfa⟩ := Content.mem_boundariesOf.mp ha
    obtain ⟨hb, hkb, hfb⟩ := Content.mem_boundariesOf.mp hb
    by_contra hne
    have hsymm : Std.Symm fun a b : PageBoundary => a.clashes b = false := by
      refine ⟨fun a b hclash => ?_⟩
      rw [← Bool.not_eq_true, clashes_iff] at hclash ⊢
      exact fun h => hclash ⟨⟨h.1.1.symm, h.1.2.symm⟩, h.2.imp Eq.symm (Or.imp Eq.symm Eq.symm)⟩
    have hclash := hs.distinct.forall ha hb fun h => hne (congrArg some h)
    rw [clashes_iff.mpr ⟨⟨hka.trans hkb.symm, hfa.trans hfb.symm⟩, .inl hindex⟩] at hclash
    cases hclash

lemma Kept.pageCount (hs : Kept T s) (hrow : row ∈ s.rows)
    (hstate : (row.field field).state = .complete)
    (hcut : CutInto (T.text row.key.revision field) pages) :
    (row.field field).pageCount = pages.length := by
  have hkept := hs.rows row hrow
  have hcontent := hkept.content field
  obtain ⟨pages', hcut', hcount⟩ := hkept.pages field (by rw [← hcontent]; exact hstate)
  rw [hcount, hcut.unique hcut']

/-- The place of every page is kept. -/
lemma Kept.boundary?_page (hs : Kept T s) (hrow : row ∈ s.rows)
    (hstate : (row.field field).state = .complete)
    (hcut : CutInto (T.text row.key.revision field) (done ++ page :: rest)) :
    s.boundary? row.key field done.length =
      some ⟨⟨done.length, done.flatten.length, utf8Length done.flatten⟩, row.key, field⟩ := by
  have hlength := hs.full row hrow field hstate
  rw [hs.pageCount hrow hstate hcut] at hlength
  exact hs.boundary?_eq (hs.mem_boundariesOf hcut hlength)

lemma exists_split {i : ℕ} (hi : i < pages.length) :
    ∃ done rest, pages = done ++ pages.getD i [] :: rest ∧ done = pages.take i ∧ done.length = i := by
  refine ⟨pages.take i, pages.drop (i + 1), ?_, rfl, by simp; omega⟩
  rw [getD_eq_getElem?_getD, getElem?_eq_getElem hi, Option.getD_some, getElem_cons_drop,
    take_append_drop]

/-- A request is served from the pages of the text. -/
theorem Kept.readContentPage (hs : Kept T s) (hrow : row ∈ s.rows)
    (hstate : (row.field field).state = .complete)
    (hcut : CutInto (T.text row.key.revision field) pages) (hne : pages ≠ []) :
    s.readContentPage R row field cursor = stored
      (tokenized (startPosition R row.key.revision (fieldName field) cursor pages.length) >>=
        servePage R row.key.turnId row.key.revision (fieldName field) pages) := by
  have hkept := hs.rows row hrow
  have hcount := hs.pageCount hrow hstate hcut
  unfold ContentStore.readContentPage
  simp only [hcount]
  cases hstart : startPosition R row.key.revision (fieldName field) cursor pages.length with
  | error e => rfl
  | ok p =>
    obtain ⟨hlow, hhigh, -⟩ := startPosition_spec (length_pos_iff.mpr hne) hstart
    have hindex : p.index.toNat < pages.length := by omega
    have hcast : (p.index.toNat : ℤ) = p.index := Int.toNat_of_nonneg hlow
    have hensure : s.ensureBoundaries row field false = .ok s := by
      unfold ContentStore.ensureBoundaries
      simp only [hs.full row hrow field hstate, if_true]
    obtain ⟨done, rest, hsplit, hdone, hlength⟩ := exists_split hindex
    generalize hpage : pages.getD p.index.toNat [] = page at hsplit
    have hcut₀ : CutInto (T.text row.key.revision field) (done ++ page :: rest) := hsplit ▸ hcut
    have hboundary := hs.boundary?_page hrow hstate hcut₀
    rw [hlength] at hboundary
    obtain ⟨hwidth, hzero, hlight⟩ := hcut₀.bounds
    have hencoded := length_encoded (hkept.encodable field)
    change (s.ensureBoundaries row field false >>= _) = stored (servePage R _ _ _ pages p)
    have hkeep {α : Type} (f : ContentStore → Except StoreError α) : (Except.ok s >>= f) = f s := rfl
    rw [hensure, hkeep]
    simp only [hboundary, hkept.text_eq hstate, hkept.byteLength, hkept.charLength]
    unfold servePage
    rw [← hdone, hpage]
    by_cases hplace : p.startChar ≠ done.flatten.length ∨ p.startByte ≠ utf8Length done.flatten
    · rw [if_pos hplace, if_pos hplace]
      rfl
    · rw [if_neg hplace, if_neg hplace, if_neg (by rw [hencoded]; exact fun h => h rfl)]
      simp only [hcut₀.blobPage, hwidth]
      have hend : done.flatten ++ page = (done ++ [page]).flatten := by simp
      have hcut₁ : CutInto (T.text row.key.revision field) ((done ++ [page]) ++ rest) := by
        rwa [append_assoc, singleton_append]
      rw [if_neg (by omega), if_neg, if_neg]
      · rw [hcut.flatten]
        cases nextCursor R row.key.revision (fieldName field) p.index pages.length
          (done.flatten.length + page.length) (utf8Length done.flatten + utf8Length page) <;> rfl
      · -- the last page ends where the text does
        rintro ⟨hlast, hne⟩
        obtain rfl : rest = [] := by
          rw [← length_eq_zero_iff]
          rw [hsplit, length_append, length_cons] at hlast
          omega
        rw [append_nil] at hcut₁
        rw [← hcut₁.flatten, ← hend, length_append, utf8Length_append] at hne
        simp at hne
      · -- and any other one where the next begins
        rintro ⟨hmore, hall⟩
        cases rest with
        | nil =>
          rw [hsplit, length_append, length_singleton] at hmore
          omega
        | cons next rest =>
          have hnext := hs.boundary?_page hrow hstate hcut₁
          rw [length_append, length_singleton, hlength] at hnext
          rw [hnext, ← hend, length_append, utf8Length_append] at hall
          simp at hall

/-- A field of a revision that a reader may see and that has pages. -/
structure Visible (s : ContentStore) (hostId turnId revision : Text) (field : TurnField)
    (row : ContentRow) : Prop where
  resolves : s.resolve hostId turnId = some row.key.turnId
  found : s.row? ⟨hostId, row.key.turnId, revision⟩ = some row
  seen : (row.isCurrent || s.planned row.key) = true
  complete : (row.field field).state = .complete
  nonempty : (row.field field).text ≠ some []

def answer : Except PageError ContentPage → Except TokenError ContentAnswer
  | .ok page => .ok (.page page)
  | .error e => ContentStore.answerError (.page e)

variable {hostId turnId revision : Text}

lemma Visible.mem (h : Visible s hostId turnId revision field row) :
    row ∈ s.rows ∧ row.key = ⟨hostId, row.key.turnId, revision⟩ := mem_of_row? h.found

/-- The pages of a field that can be seen. -/
lemma Kept.exists_pages (hs : Kept T s) (h : Visible s hostId turnId revision field row) :
    ∃ pages, CutInto (T.text revision field) pages ∧ pages ≠ [] ∧
      (row.field field).text = some (T.text revision field) := by
  obtain ⟨hrow, hkey⟩ := h.mem
  have hrevision : row.key.revision = revision := congrArg ContentKey.revision hkey
  have hkept := hs.rows row hrow
  have hcontent := hkept.content field
  have htext := hkept.text_eq h.complete
  obtain ⟨pages, hcut, -⟩ := hkept.pages field (by rw [← hcontent]; exact h.complete)
  rw [hrevision] at hcut htext
  refine ⟨pages, hcut, fun hnil => h.nonempty ?_, htext⟩
  rw [htext, ← hcut.flatten, hnil]
  rfl

lemma fieldOf?_fieldName (field : TurnField) : fieldOf? (fieldName field) = some field := by
  cases field <;> decide

theorem Kept.getTurnContent (hs : Kept T s) (h : Visible s hostId turnId revision field row)
    (hcut : CutInto (T.text revision field) pages) (hne : pages ≠ []) :
    s.getTurnContent R hostId turnId revision (fieldName field) cursor 1 = answer
      (tokenized (startPosition R revision (fieldName field) cursor pages.length) >>=
        servePage R row.key.turnId revision (fieldName field) pages) := by
  obtain ⟨hrow, hkey⟩ := h.mem
  have hrevision : row.key.revision = revision := congrArg ContentKey.revision hkey
  have hkept := hs.rows row hrow
  have htext : T.text revision field ≠ [] := by
    rw [← hcut.flatten]
    intro hnil
    obtain ⟨page, pages, rfl⟩ := exists_cons_of_ne_nil hne
    rw [flatten_cons, append_eq_nil_iff] at hnil
    exact hcut.nonempty page mem_cons_self hnil.1
  have hchars : (row.field field).charLength ≠ 0 := by
    rw [hkept.charLength, hrevision]
    exact fun hzero => htext (length_eq_zero_iff.mp hzero)
  have hbytes : (row.field field).byteLength ≠ 0 := by
    rw [hkept.byteLength, hrevision]
    exact fun hzero => htext (utf8Length_eq_zero.mp hzero)
  have hcount : (row.field field).pageCount ≠ 0 := by
    rw [hs.pageCount hrow h.complete (hrevision ▸ hcut)]
    exact fun hzero => hne (length_eq_zero_iff.mp hzero)
  have hread : s.readContentPage R row field cursor = _ :=
    hs.readContentPage hrow h.complete (hrevision ▸ hcut) hne
  rw [hrevision] at hread
  have hseen : (!row.isCurrent && !s.planned ⟨hostId, row.key.turnId, revision⟩) = false := by
    have hseen := h.seen
    rw [hkey] at hseen
    rw [← Bool.not_or, hseen]
    rfl
  have hpresent : ¬ ((row.field field).state ≠ .complete ∨ (row.field field).charLength < 1 ∨
      (row.field field).byteLength < 1 ∨ (row.field field).pageCount < 1) := by
    rw [h.complete]
    simp only [ne_eq, not_true_eq_false, false_or]
    omega
  unfold ContentStore.getTurnContent
  rw [if_neg (by simp), fieldOf?_fieldName]
  simp only [h.resolves, h.found, hseen, Bool.false_eq_true, if_false]
  rw [if_neg (by rw [h.complete]; simp), if_neg hpresent, hread]
  cases tokenized (startPosition R revision (fieldName field) cursor pages.length) >>=
    servePage R row.key.turnId revision (fieldName field) pages <;> rfl

/-- The page of a byte range is the page of the text that is cut again. -/
theorem Kept.getTurnContent_eq_build (hs : Kept T s)
    (h : Visible s hostId turnId revision field row) :
    s.getTurnContent R hostId turnId revision (fieldName field) cursor 1 = answer
      (buildTurnContentPage R row.key.turnId revision (fieldName field)
        ((row.field field).text.getD []) cursor turnContentPageMaxUtf8Bytes) := by
  obtain ⟨pages, hcut, hne, htext⟩ := hs.exists_pages h
  have hfield : Tokens.turnContentFields.contains (fieldName field) = true := by
    cases field <;> decide
  have hcap : 1 ≤ turnContentPageMaxUtf8Bytes := by decide
  have hfit : ∀ c ∈ pages.flatten, Segmentable turnContentPageMaxUtf8Bytes c := by
    rw [hcut.flatten]
    exact hcut.segmentable
  rw [hs.getTurnContent h hcut hne, htext, Option.getD_some, ← hcut.flatten,
    buildTurnContentPage_eq_serve hfield hcap hcut.packed hfit hne]

end Tendwire.Content

import Tendwire.Turns.ContentReads

/-!
# Walks through content

A reader takes the pages of a field one by one, each by the cursor that came with the one before.
The store is written, repaired and pruned meanwhile, and the reader still gets the text.
-/

namespace Tendwire.Content

open Strings List Python Public Tokens
open Connector (ContentState TurnField)

variable {F : Type} [FloatText F] {R : Runtime F} {T : Holdings} {s : ContentStore}
  {row : ContentRow} {field : TurnField} {hostId turnId revision : Text} {cut : List Text}
  {n startChar startByte : ℕ} {cursor : Option Text}

/-! ### Places of a stored text have cursors -/

lemma length_toDigits_small (h : n ≤ maxInteger) : (Nat.toDigits 10 n).length ≤ 19 := by
  rw [Nat.length_toDigits_le_iff (by decide) (by decide)]
  have hsmall : maxInteger < 10 ^ 19 := by decide
  omega

lemma isSome_shortInt (h : n ≤ maxInteger) : (shortInt (n : ℤ)).isSome = true := by
  have hdigits := length_toDigits_small h
  have hlimit : (Nat.toDigits 10 (n : ℤ).natAbs).length ≤ maxIntDigits := by
    rw [Int.natAbs_natCast]
    unfold maxIntDigits
    omega
  rw [shortInt, dif_pos hlimit]
  rfl

lemma digitCount_small (h : n ≤ maxInteger) : digitCount (n : ℤ) ≤ 19 := by
  have hdigits := length_toDigits_small h
  rw [digitCount, if_neg (by omega), Int.natAbs_natCast]
  omega

lemma contains_fieldName (field : TurnField) :
    Tokens.turnContentFields.contains (fieldName field) = true := by
  cases field <;> decide

lemma encodable_fieldName (field : TurnField) : encodable (fieldName field) = true := by
  cases field <;> exact encodable_map_codePoint _

lemma exists_contentSegmentId (field : TurnField) (hrevision : encodable revision = true)
    (hn : n ≤ maxInteger) :
    ∃ segmentId, contentSegmentId R revision (fieldName field) n = .ok segmentId ∧
      encodable segmentId = true := by
  have hwritable : ∀ e ∈ ([("content_revision", .text revision), ("field", .text (fieldName field)),
      ("index", .number n)] : Parts), e.2.Writable := by
    simp [Part.Writable, hrevision, encodable_fieldName, isSome_shortInt hn]
  obtain ⟨digest, hdigest⟩ := exists_domainDigest (R := R) "tendwire.turn-content-segment.v1" _
    hwritable
  refine ⟨ofString "twseg1." ++ digest, ?_, encodable_append_iff.mpr
    ⟨encodable_map_codePoint _, encodable_of_isAscii (digest_spec hdigest).1⟩⟩
  unfold contentSegmentId
  rw [contains_fieldName, hdigest]
  have hindex : decide (0 ≤ (n : ℤ)) = true := by simp
  rw [hindex]
  rfl

lemma exists_contentPosition (field : TurnField) (startChar startByte : ℕ)
    (hrevision : encodable revision = true) (hn : n ≤ maxInteger) :
    ∃ segmentId, encodable segmentId = true ∧
      contentPosition R revision (fieldName field) n (some startChar) (some startByte) =
        .ok ⟨n, segmentId, startChar, startByte⟩ := by
  obtain ⟨segmentId, hsegment, hencodable⟩ := exists_contentSegmentId (R := R) field hrevision hn
  refine ⟨segmentId, hencodable, contentPosition_eq_ok.mpr
    ⟨contains_fieldName field, rfl, rfl, ?_, hsegment⟩⟩
  simp [ContentCursorPosition.numbers]

lemma exists_contentCursor (field : TurnField) (hrevision : encodable revision = true)
    (hn : n ≤ maxInteger) (hchar : startChar ≤ maxInteger) (hbyte : startByte ≤ maxInteger) :
    ∃ token, contentCursor R revision (fieldName field) n (some startChar) (some startByte) =
      .ok token := by
  obtain ⟨segmentId, hencodable, hp⟩ := exists_contentPosition (R := R) field startChar startByte
    hrevision hn
  have hnumbers := And.intro (isSome_shortInt hn) (And.intro (isSome_shortInt hchar)
    (isSome_shortInt hbyte))
  have hmaterial : ∀ e ∈ contentMaterial revision (fieldName field)
      ⟨n, segmentId, startChar, startByte⟩, e.2.Writable := by
    simp [contentMaterial, Part.Writable, hrevision, encodable_fieldName, hencodable, hnumbers]
  obtain ⟨integrity, hdigest⟩ := exists_domainDigest (R := R) contentIntegrity _ hmaterial
  have hsealed := encodable_of_isAscii (digest_spec hdigest).1
  have htwo : (shortInt 2).isSome = true := by decide
  have hparts : ∀ e ∈ contentParts integrity ⟨n, segmentId, startChar, startByte⟩,
      e.2.Writable := by
    simp [contentParts, Part.Writable, hencodable, hsealed, hnumbers, htwo]
  obtain ⟨token, htoken⟩ := exists_tokenOf (R := R) "twcur1." _ hparts
  refine ⟨token, ?_⟩
  unfold contentCursor
  simp only [Transition.bind_eq_ok]
  exact ⟨_, hp, integrity, hdigest, htoken⟩

/-- The cursor of a place is taken for it. -/
lemma decodeContentCursor_place {token : Text} {count : ℕ} (hrevision : encodable revision = true)
    (hn : n ≤ maxInteger) (hchar : startChar ≤ maxInteger) (hbyte : startByte ≤ maxInteger)
    (hcount : n < count)
    (h : contentCursor R revision (fieldName field) n (some startChar) (some startByte) =
      .ok token) :
    ∃ segmentId, decodeContentCursor R token revision (fieldName field) count =
      .ok ⟨n, segmentId, startChar, startByte⟩ := by
  obtain ⟨segmentId, -, hp⟩ := exists_contentPosition (R := R) field startChar startByte hrevision hn
  refine ⟨segmentId, (decode_contentCursor h hp).mpr ⟨?_, by exact_mod_cast hcount⟩⟩
  have := digitCount_small hn
  have := digitCount_small hchar
  have := digitCount_small hbyte
  simp only [contentSize, ContentCursorPosition.numbers, map_cons, map_nil, sum_cons, sum_nil]
  omega

/-! ### Where a reader stands -/

/-- What a reader asks with who has some of the pages of a text. -/
def Stands (R : Runtime F) (revision : Text) (field : TurnField) (cut : List Text) (n : ℕ) :
    Option Text → Prop
  | none => n = 0
  | some token => contentCursor R revision (fieldName field) n
      (some ((cut.take n).flatten.length : ℕ)) (some (utf8Length (cut.take n).flatten : ℕ)) = .ok token

/-- A text that was stored. -/
structure Storable (revision : Text) (cut : List Text) : Prop where
  named : encodable revision = true
  nonempty : ∀ page ∈ cut, page ≠ []
  small : utf8Length cut.flatten ≤ maxInteger

lemma length_le_utf8Length (t : Text) : t.length ≤ utf8Length t := by
  induction t with
  | nil => simp
  | cons c t ih =>
    have := utf8Width_pos c
    rw [length_cons, utf8Length_cons]
    omega

lemma length_le_flatten {pages : List Text} (h : ∀ page ∈ pages, page ≠ []) :
    pages.length ≤ pages.flatten.length := by
  induction pages with
  | nil => simp
  | cons page pages ih =>
    have hpage := length_pos_iff.mpr (h page mem_cons_self)
    have := ih fun p hp => h p (mem_cons_of_mem _ hp)
    rw [length_cons, flatten_cons, length_append]
    omega

lemma Storable.place (h : Storable revision cut) (hn : n ≤ cut.length) :
    n ≤ maxInteger ∧ (cut.take n).flatten.length ≤ maxInteger ∧
      utf8Length (cut.take n).flatten ≤ maxInteger := by
  have hpages := length_le_flatten h.nonempty
  have hsplit : cut.flatten = (cut.take n).flatten ++ (cut.drop n).flatten := by
    rw [← flatten_append, take_append_drop]
  have hchars := length_le_utf8Length cut.flatten
  have hbefore := length_le_utf8Length (cut.take n).flatten
  have hsmall := h.small
  have hall : utf8Length (cut.take n).flatten ≤ utf8Length cut.flatten := by
    rw [hsplit, utf8Length_append]
    omega
  omega

lemma Stands.startPosition (h : Stands R revision field cut n cursor)
    (hcut : Storable revision cut) (hn : n < cut.length) :
    ∃ segmentId, startPosition R revision (fieldName field) cursor cut.length =
      .ok ⟨n, segmentId, (cut.take n).flatten.length, utf8Length (cut.take n).flatten⟩ := by
  obtain ⟨hindex, hchar, hbyte⟩ := hcut.place (Nat.le_of_lt hn)
  cases cursor with
  | none =>
    obtain rfl : n = 0 := h
    obtain ⟨segmentId, hsegment, -⟩ := exists_contentSegmentId (R := R) field hcut.named hindex
    exact ⟨segmentId, Transition.bind_eq_ok.mpr ⟨segmentId, hsegment, rfl⟩⟩
  | some token => exact decodeContentCursor_place hcut.named hindex hchar hbyte hn h

/-- A page that a reader gets, and where it leads. -/
structure Serves (R : Runtime F) (revision : Text) (field : TurnField) (cut : List Text) (n : ℕ)
    (page : ContentPage) : Prop where
  text : page.text = cut.getD n []
  index : page.index = n
  count : page.count = cut.length
  next : n + 1 = cut.length ∧ page.nextCursor = none ∨
    n + 1 < cut.length ∧ page.nextCursor ≠ none ∧ Stands R revision field cut (n + 1) page.nextCursor

lemma flatten_take_succ (hn : n < cut.length) :
    (cut.take (n + 1)).flatten = (cut.take n).flatten ++ cut.getD n [] := by
  rw [take_add_one, flatten_append, getD_eq_getElem?_getD, getElem?_eq_getElem hn]
  simp

theorem Stands.serves (h : Stands R revision field cut n cursor) (hcut : Storable revision cut)
    (hn : n < cut.length) (turnId : Text) :
    ∃ page, (tokenized (Content.startPosition R revision (fieldName field) cursor cut.length) >>=
        servePage R turnId revision (fieldName field) cut) = .ok page ∧
      Serves R revision field cut n page := by
  obtain ⟨segmentId, hstart⟩ := h.startPosition hcut hn
  rw [hstart]
  change ∃ page, servePage R _ _ _ _ _ = _ ∧ _
  unfold servePage
  simp only [Int.toNat_natCast, ne_eq, not_true_eq_false, or_self, if_false]
  rw [← length_append, ← utf8Length_append, ← flatten_take_succ hn, nextCursor]
  split_ifs with hmore
  · have hmore : n + 1 < cut.length := by exact_mod_cast hmore
    obtain ⟨hindex, hchar, hbyte⟩ := hcut.place (Nat.le_of_lt hmore)
    obtain ⟨token, htoken⟩ := exists_contentCursor (R := R) field hcut.named hindex hchar hbyte
    push_cast at htoken
    rw [htoken]
    refine ⟨_, rfl, rfl, rfl, rfl, .inr ⟨hmore, by simp, ?_⟩⟩
    change contentCursor R revision (fieldName field) _ _ _ = _
    push_cast
    exact htoken
  · have hlast : n + 1 = cut.length := by
      have : ¬ n + 1 < cut.length := fun h => hmore (by exact_mod_cast h)
      omega
    exact ⟨_, rfl, rfl, rfl, rfl, .inl ⟨hlast, rfl⟩⟩

/-! ### Walks -/

/-- Who gets a page sees the field. -/
lemma Kept.visible_of_page (hs : Kept T s) {page : ContentPage}
    (h : s.getTurnContent R hostId turnId revision (fieldName field) cursor 1 = .ok (.page page)) :
    ∃ row, Visible s hostId turnId revision field row := by
  unfold ContentStore.getTurnContent at h
  rw [if_neg (by simp), fieldOf?_fieldName] at h
  simp only at h
  cases hresolve : s.resolve hostId turnId with
  | none => simp [hresolve] at h
  | some turn =>
    simp only [hresolve] at h
    cases hfound : s.row? ⟨hostId, turn, revision⟩ with
    | none => simp [hfound] at h
    | some row =>
      simp only [hfound] at h
      obtain ⟨hrow, hkey⟩ := mem_of_row? hfound
      have hturn : row.key.turnId = turn := congrArg ContentKey.turnId hkey
      split at h
      · cases h
      next hseen =>
      split at h
      · cases h
      split at h
      · cases h
      next hpresent =>
      simp only [not_or, not_not] at hpresent
      obtain ⟨hcomplete, hchars, -⟩ := hpresent
      refine ⟨row, by rw [hturn]; exact hresolve, by rw [hturn]; exact hfound, ?_, hcomplete, ?_⟩
      · rw [Bool.not_eq_true, ← Bool.not_or, Bool.not_eq_false', ← hkey] at hseen
        exact hseen
      · intro hempty
        have hkept := hs.rows row hrow
        have htext := hkept.text_eq hcomplete
        rw [hempty] at htext
        rw [hkept.charLength, ← Option.some.inj htext] at hchars
        exact hchars Nat.one_pos

/-- What a reader has who began at some time, and the cursor to go on with. -/
inductive Walk (R : Runtime F) (hostId turnId revision : Text) (field : TurnField) :
    List ContentCall → List ContentPage → Option Text → Prop
  | start (calls : List ContentCall) : Walk R hostId turnId revision field calls [] none
  | write {calls : List ContentCall} {pages : List ContentPage} {cursor : Option Text}
      (more : List ContentCall) (h : Walk R hostId turnId revision field calls pages cursor) :
      Walk R hostId turnId revision field (calls ++ more) pages cursor
  | read {calls : List ContentCall} {pages : List ContentPage} {cursor : Option Text}
      {page : ContentPage} (h : Walk R hostId turnId revision field calls pages cursor)
      (hopen : pages = [] ∨ cursor ≠ none)
      (hpage : (ContentStore.fresh.run R calls).getTurnContent R hostId turnId revision
        (fieldName field) cursor 1 = .ok (.page page)) :
      Walk R hostId turnId revision field calls (pages ++ [page]) page.nextCursor

/-- The pages that a reader has are the first ones of the text. -/
structure Walked (R : Runtime F) (revision : Text) (field : TurnField) (cut : List Text)
    (pages : List ContentPage) (cursor : Option Text) : Prop where
  texts : pages.map (·.text) = cut.take pages.length
  next : pages.length = cut.length ∧ cursor = none ∨ pages.length < cut.length ∧
    (pages = [] ∨ cursor ≠ none) ∧ Stands R revision field cut pages.length cursor

variable {calls : List ContentCall} {pages : List ContentPage} {page : ContentPage}

lemma walked_nil (hne : cut ≠ []) : Walked R revision field cut [] none :=
  ⟨rfl, .inr ⟨length_pos_iff.mpr hne, .inl rfl, rfl⟩⟩

/-- Who is not at the end has not all pages. -/
lemma Walked.stands (h : Walked R revision field cut pages cursor)
    (hopen : pages = [] ∨ cursor ≠ none) (hne : cut ≠ []) :
    pages.length < cut.length ∧ Stands R revision field cut pages.length cursor := by
  rcases h.next with ⟨hall, hend⟩ | ⟨hmore, -, hstands⟩
  · rcases hopen with rfl | hcursor
    · exact absurd hall.symm (by simpa using hne)
    · exact absurd hend hcursor
  · exact ⟨hmore, hstands⟩

lemma Walked.read (h : Walked R revision field cut pages cursor) (hn : pages.length < cut.length)
    (hpage : Serves R revision field cut pages.length page) :
    Walked R revision field cut (pages ++ [page]) page.nextCursor := by
  refine ⟨?_, ?_⟩
  · rw [map_append, map_singleton, h.texts, hpage.text, length_append, length_singleton, take_add_one,
      getD_eq_getElem?_getD, getElem?_eq_getElem hn]
    rfl
  · rw [length_append, length_singleton]
    rcases hpage.next with hlast | ⟨hmore, hcursor, hstands⟩
    · exact .inl hlast
    · exact .inr ⟨hmore, .inr hcursor, hstands⟩

/-- What a field that can be seen is cut into. -/
lemma Kept.exists_cut (hs : Kept T s) (h : Visible s hostId turnId revision field row) :
    ∃ cut, CutInto (T.text revision field) cut ∧ cut ≠ [] ∧ Storable revision cut := by
  obtain ⟨pages, hcut, hne, -⟩ := hs.exists_pages h
  obtain ⟨hrow, hkey⟩ := h.mem
  have hkept := hs.rows row hrow
  have hrevision : row.key.revision = revision := congrArg ContentKey.revision hkey
  have hnamed := hkept.named
  have hsmall := hkept.small field
  rw [hrevision] at hnamed hsmall
  exact ⟨pages, hcut, hne, hnamed, hcut.nonempty, hcut.flatten ▸ hsmall⟩

/-- A request of a reader who stands somewhere in the text. -/
lemma Kept.serves (hs : Kept T s) (h : Visible s hostId turnId revision field row)
    (hcut : CutInto (T.text revision field) cut) (hstorable : Storable revision cut)
    (hstands : Stands R revision field cut n cursor) (hn : n < cut.length) :
    ∃ page, s.getTurnContent R hostId turnId revision (fieldName field) cursor 1 =
      .ok (.page page) ∧ Serves R revision field cut n page := by
  obtain ⟨page, hpage, hserves⟩ := hstands.serves hstorable hn row.key.turnId
  have hne : cut ≠ [] := length_pos_iff.mp (Nat.zero_lt_of_lt hn)
  refine ⟨page, ?_, hserves⟩
  rw [hs.getTurnContent h hcut hne, hpage]
  rfl

/-- Who has pages has the first ones of the text of a revision that was inserted. -/
def Follows (R : Runtime F) (T : Holdings) (calls : List ContentCall) (revision : Text)
    (field : TurnField) (pages : List ContentPage) (cursor : Option Text) : Prop :=
  pages = [] ∧ cursor = none ∨ (∃ content, Inserts R calls revision content) ∧
    ∃ cut, CutInto (T.text revision field) cut ∧ Walked R revision field cut pages cursor

lemma Follows.walked (h : Follows R T calls revision field pages cursor)
    (hcut : CutInto (T.text revision field) cut) (hne : cut ≠ []) :
    Walked R revision field cut pages cursor := by
  rcases h with ⟨rfl, rfl⟩ | ⟨-, cut', hcut', hwalked⟩
  · exact walked_nil hne
  · rwa [hcut.unique hcut']

theorem Walk.follows (h : Walk R hostId turnId revision field calls pages cursor)
    (hcalls : Addresses R T calls) : Follows R T calls revision field pages cursor := by
  induction h with
  | start calls => exact .inl ⟨rfl, rfl⟩
  | write more h ih =>
    rcases ih (hcalls.mono (subset_append_left _ _)) with hnil | ⟨⟨content, hcontent⟩, hwalked⟩
    · exact .inl hnil
    · exact .inr ⟨⟨content, hcontent.mono (subset_append_left _ _)⟩, hwalked⟩
  | @read calls pages cursor page h hopen hpage ih =>
    obtain ⟨hkept, hinserted⟩ := kept_run hcalls
    obtain ⟨row, hvisible⟩ := hkept.visible_of_page hpage
    obtain ⟨cut, hcut, hne, hstorable⟩ := hkept.exists_cut hvisible
    obtain ⟨hrow, hkey⟩ := hvisible.mem
    refine .inr ⟨?_, cut, hcut, ?_⟩
    · obtain ⟨content, isCurrent, hmem, hrevision, -⟩ := hinserted row hrow
      rw [hkey] at hrevision
      exact ⟨content, _, _, _, hmem, hrevision⟩
    · have hwalked := (ih hcalls).walked hcut hne
      obtain ⟨hmore, hstands⟩ := hwalked.stands hopen hne
      obtain ⟨page', hpage', hserves⟩ := hkept.serves hvisible hcut hstorable hstands hmore
      obtain rfl : page' = page := by simpa using hpage'.symm.trans hpage
      exact hwalked.read hmore hserves

end Tendwire.Content

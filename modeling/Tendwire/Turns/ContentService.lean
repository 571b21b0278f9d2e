import Tendwire.Turns.ContentWalks
import Tendwire.Turns.TokenInverse

/-!
# The service of content

What writers, repairs and readers of content may rely on in every run: a page is the page of the
text, a reader goes on while the field can be seen and ends with the text, and boundaries that are
lost come back.
-/

namespace Tendwire.Content

open Strings List Python Public Tokens
open Connector (ContentState TurnField)

variable {F : Type} [FloatText F] {R : Runtime F} {row : ContentRow} {field : TurnField}
  {hostId turnId revision : Text} {calls : List ContentCall} {pages : List ContentPage}
  {cursor : Option Text}

/-! ### A sample run -/

lemma exists_stableJson (T : Tables) {entries : Entries F}
    (h : ∀ e ∈ entries, encodable e.1 = true ∧ Encodes (sanitizeForbiddenFields T e.2)) :
    ∃ bytes, utf8 (stableJsonDumps T (.dict entries)) = some bytes := by
  rw [← Option.isSome_iff_exists, stableJsonDumps, isSome_utf8_dumps_iff, sanitizeForbiddenFields,
    Encodes]
  induction entries with
  | nil => exact trivial
  | cons e entries ih =>
    obtain ⟨key, v⟩ := e
    have hrest := ih fun e he => h e (mem_cons_of_mem _ he)
    rw [sanitizeForbiddenEntries]
    split
    · exact hrest
    · exact ⟨h (key, v) mem_cons_self, hrest⟩

/-- A revision is refused only for its turn, its states and lone surrogates. -/
lemma exists_contentRevision {content : TurnField → FieldText} (hturn : turnId ≠ [])
    (hencodable : encodable turnId = true)
    (hcontent : ∀ f, validateContentState (content f) = .ok () ∧
      ∀ text, (content f).text = some text → encodable text = true) :
    ∃ revision, contentRevision R turnId content = .ok revision := by
  have hjson : ∀ f, Encodes (sanitizeForbiddenFields R.tables
      ((content f).text.elim (.null : Json F) .str)) := by
    intro f
    cases htext : (content f).text with
    | none => exact trivial
    | some text => exact (hcontent f).2 text htext
  have hstate : ∀ state, encodable (stateName state) = true := by
    intro state
    cases state <;> exact encodable_map_codePoint _
  unfold contentRevision
  rw [if_neg hturn, (hcontent .userText).1, (hcontent .assistantFinalText).1]
  simp only [Transition.bind_eq_ok, encodeText_eq_ok]
  have hentries : ∀ e ∈ ([
      (ofString "domain", .str (ofString "tendwire.turn-content-revision.v1")),
      (ofString "turn_id", .str turnId),
      (ofString "user_text", (content .userText).text.elim .null .str),
      (ofString "assistant_final_text", (content .assistantFinalText).text.elim .null .str),
      (ofString "user_state", .str (stateName (content .userText).state)),
      (ofString "final_state", .str (stateName (content .assistantFinalText).state))] : Entries F),
      encodable e.1 = true ∧ Encodes (sanitizeForbiddenFields R.tables e.2) := by
    simp only [forall_mem_cons]
    exact ⟨⟨encodable_map_codePoint _, encodable_map_codePoint _⟩, ⟨encodable_map_codePoint _,
      hencodable⟩, ⟨encodable_map_codePoint _, hjson _⟩, ⟨encodable_map_codePoint _, hjson _⟩,
      ⟨encodable_map_codePoint _, hstate _⟩, ⟨encodable_map_codePoint _, hstate _⟩, by simp⟩
  obtain ⟨bytes, hbytes⟩ := exists_stableJson R.tables hentries
  exact ⟨_, (), trivial, (), trivial, bytes, hbytes, rfl⟩

def sampleContent : TurnField → FieldText
  | .userText => ⟨some (ofString "question"), .complete⟩
  | .assistantFinalText => ⟨none, .absent⟩

def sampleCalls : List ContentCall :=
  [.insert (ofString "host") (ofString "turn") sampleContent true]

lemma eq_sampleContent {content : TurnField → FieldText}
    (h : Inserts R sampleCalls revision content) : content = sampleContent := by
  obtain ⟨hostId, turnId, isCurrent, hmem, -⟩ := h
  simp only [sampleCalls, mem_singleton, ContentCall.insert.injEq] at hmem
  exact hmem.2.2.1

lemma collisionless_sampleCalls : Collisionless R sampleCalls := by
  intro revision content content' h h'
  rw [eq_sampleContent h, eq_sampleContent h']

lemma sampleCalls_visible : ∃ revision row, Visible (ContentStore.fresh.run R sampleCalls)
    (ofString "host") (ofString "turn") revision .userText row := by
  obtain ⟨revision, hrevision⟩ : ∃ revision,
      contentRevision R (ofString "turn") sampleContent = .ok revision := by
    refine exists_contentRevision (by decide) (encodable_map_codePoint _) fun f => ?_
    cases f with
    | userText =>
      refine ⟨rfl, fun text htext => ?_⟩
      obtain rfl := Option.some.inj htext
      exact encodable_map_codePoint _
    | assistantFinalText => exact ⟨rfl, fun text htext => by cases htext⟩
  obtain ⟨segments, hsegments⟩ : ∃ segments,
      fieldSegments (sampleContent .userText) = .ok segments := ⟨_, rfl⟩
  obtain ⟨user, huser⟩ : ∃ user, fieldRow (sampleContent .userText) segments = .ok user := ⟨_, rfl⟩
  obtain ⟨final, hfinal⟩ : ∃ final,
      fieldRow (sampleContent .assistantFinalText) [] = .ok final := ⟨_, rfl⟩
  have huserText := (fieldRow_eq_ok huser).2.2
  let row : ContentRow := ⟨⟨ofString "host", ofString "turn", revision⟩,
    fun | .userText => user | .assistantFinalText => final, true⟩
  have hinsert : ∃ boundaries, ContentStore.fresh.insertRevision R (ofString "host")
      (ofString "turn") sampleContent true = .ok { ContentStore.fresh with
        rows := [row]
        boundaries } := by
    unfold ContentStore.insertRevision
    simp only [Transition.bind_eq_ok]
    exact ⟨_, revision, hrevision, segments, hsegments, [], rfl, user, huser, final, hfinal, rfl⟩
  obtain ⟨boundaries, hinsert⟩ := hinsert
  refine ⟨revision, row, ?_⟩
  rw [sampleCalls, ContentStore.run, foldl_cons, foldl_nil, ContentStore.step, hinsert]
  refine ⟨rfl, ?_, rfl, ?_, ?_⟩
  · exact find?_cons_of_pos (by simp [row])
  · change user.state = _
    rw [huserText]
    rfl
  · have hquestion : (sampleContent .userText).text ≠ some [] := by decide
    change user.text ≠ _
    rw [huserText]
    exact hquestion

lemma sampleCalls_walk : ∃ revision pages, pages ≠ [] ∧
    Walk R (ofString "host") (ofString "turn") revision .userText sampleCalls pages none := by
  obtain ⟨revision, row, hvisible⟩ := sampleCalls_visible (R := R)
  obtain ⟨T, hT⟩ := (collisionless_sampleCalls (R := R)).exists_addresses
  obtain ⟨hkept, hinserted⟩ := kept_run hT
  obtain ⟨cut, hcut, hne, hstorable⟩ := hkept.exists_cut hvisible
  obtain ⟨content, isCurrent, hmem, hrevision, -⟩ := hinserted row hvisible.mem.1
  rw [hvisible.mem.2] at hrevision
  have hcontent : Inserts R sampleCalls revision content := ⟨_, _, _, hmem, hrevision⟩
  have hone : CutInto (T.text revision .userText) [ofString "question"] := by
    rw [Holdings.text, hT revision content hcontent, eq_sampleContent hcontent]
    have hlight : utf8Length (ofString "question") ≤ turnContentPageMaxUtf8Bytes := by decide
    have hsegments : segmentCanonicalText (ofString "question") turnContentPageMaxUtf8Bytes =
        .ok _ := rfl
    obtain ⟨-, hfit, -⟩ := segmentCanonicalText_eq_ok.mp hsegments
    exact ⟨⟨by decide, forall_mem_singleton.mpr hlight, .singleton _⟩, rfl, hfit⟩
  obtain rfl := hcut.unique hone
  have hstands : Stands R revision .userText [ofString "question"] 0 none := rfl
  obtain ⟨page, hpage, hserves⟩ := hkept.serves hvisible hcut hstorable hstands Nat.one_pos
  have hend : page.nextCursor = none := by
    rcases hserves.next with ⟨-, hend⟩ | ⟨hmore, -, -⟩
    · exact hend
    · exact absurd hmore (Nat.lt_irrefl 1)
  have hwalk := Walk.read (.start sampleCalls) (.inl rfl) hpage
  rw [hend] at hwalk
  exact ⟨revision, [] ++ [page], by simp, hwalk⟩

/-! ### Pages -/

/-- In every run, the page that is read by its byte range and the kept places is the page that
cutting the whole text again gives, cursor for cursor and refusal for refusal. -/
theorem getTurnContent_run (hcalls : Collisionless R calls)
    (h : Visible (ContentStore.fresh.run R calls) hostId turnId revision field row) :
    (ContentStore.fresh.run R calls).getTurnContent R hostId turnId revision (fieldName field) cursor
        1 = answer (buildTurnContentPage R row.key.turnId revision (fieldName field)
          ((row.field field).text.getD []) cursor turnContentPageMaxUtf8Bytes) := by
  obtain ⟨T, hT⟩ := hcalls.exists_addresses
  exact (kept_run hT).1.getTurnContent_eq_build h

theorem getTurnContent_run_sample : ∃ (revision : Text) (row : ContentRow),
    (ContentStore.fresh.run plainRuntime sampleCalls).getTurnContent plainRuntime (ofString "host")
        (ofString "turn") revision (fieldName .userText) none 1 =
      answer (buildTurnContentPage plainRuntime row.key.turnId revision (fieldName .userText)
        ((row.field .userText).text.getD []) none turnContentPageMaxUtf8Bytes) := by
  obtain ⟨revision, row, hvisible⟩ := sampleCalls_visible (R := plainRuntime)
  exact ⟨revision, row, getTurnContent_run collisionless_sampleCalls hvisible⟩

/-! ### Walks -/

/-- Who has followed the cursors to the end has the text that was inserted, in bounded pages. -/
theorem Walk.text (h : Walk R hostId turnId revision field calls pages none) (hne : pages ≠ [])
    (hcalls : Collisionless R calls) :
    ∃ content, Inserts R calls revision content ∧
      (content field).text = some (pages.map (·.text)).flatten ∧
      ∀ page ∈ pages, page.text ≠ [] ∧ utf8Length page.text ≤ turnContentPageMaxUtf8Bytes := by
  obtain ⟨T, hT⟩ := hcalls.exists_addresses
  rcases h.follows hT with ⟨hnil, -⟩ | ⟨⟨content, hcontent⟩, cut, hcut, hwalked⟩
  · exact absurd hnil hne
  have hall : pages.map (·.text) = cut := by
    rcases hwalked.next with ⟨hlength, -⟩ | ⟨-, hopen, -⟩
    · rw [hwalked.texts, hlength, take_length]
    · exact absurd rfl (hopen.resolve_left hne)
  have hpages : ∀ page ∈ pages, page.text ≠ [] ∧
      utf8Length page.text ≤ turnContentPageMaxUtf8Bytes := by
    intro page hpage
    have hmem : page.text ∈ cut := hall ▸ mem_map_of_mem hpage
    exact ⟨hcut.nonempty _ hmem, hcut.packed.light _ hmem⟩
  have htext : (content field).text.getD [] = (pages.map (·.text)).flatten := by
    rw [hall, hcut.flatten, Holdings.text, hT revision content hcontent]
  refine ⟨content, hcontent, ?_, hpages⟩
  cases hfield : (content field).text with
  | some text => rw [← htext, hfield, Option.getD_some]
  | none =>
    obtain ⟨page, hpage⟩ := exists_mem_of_ne_nil pages hne
    rw [hfield, Option.getD_none] at htext
    have hempty := flatten_eq_nil_iff.mp htext.symm page.text (mem_map_of_mem hpage)
    exact absurd hempty (hpages page hpage).1

theorem Walk.text_sample : ∃ revision pages, pages ≠ [] ∧
    Walk plainRuntime (ofString "host") (ofString "turn") revision .userText sampleCalls pages none ∧
      (pages.map (·.text)).flatten = ofString "question" := by
  obtain ⟨revision, pages, hne, hwalk⟩ := sampleCalls_walk (R := plainRuntime)
  obtain ⟨content, hcontent, htext, -⟩ := Walk.text hwalk hne collisionless_sampleCalls
  rw [eq_sampleContent hcontent] at htext
  exact ⟨revision, pages, hne, hwalk, (Option.some.inj htext).symm⟩

/-- While the field can be seen, who is not at the end gets the next page, and the last page of the
text is the end. -/
theorem Walk.next_page (h : Walk R hostId turnId revision field calls pages cursor)
    (hopen : pages = [] ∨ cursor ≠ none) (hcalls : Collisionless R calls)
    (hvisible : Visible (ContentStore.fresh.run R calls) hostId turnId revision field row) :
    ∃ page segments, (ContentStore.fresh.run R calls).getTurnContent R hostId turnId revision
        (fieldName field) cursor 1 = .ok (.page page) ∧
      segmentCanonicalText ((row.field field).text.getD []) turnContentPageMaxUtf8Bytes =
        .ok segments ∧
      pages.length < segments.length ∧ page.index = pages.length ∧
      (page.nextCursor = none ↔ pages.length + 1 = segments.length) := by
  obtain ⟨T, hT⟩ := hcalls.exists_addresses
  have hkept := (kept_run hT).1
  obtain ⟨cut, hcut, hne, hstorable⟩ := hkept.exists_cut hvisible
  obtain ⟨-, -, -, htext⟩ := hkept.exists_pages hvisible
  obtain ⟨hmore, hstands⟩ := ((h.follows hT).walked hcut hne).stands hopen hne
  obtain ⟨page, hpage, hserves⟩ := hkept.serves hvisible hcut hstorable hstands hmore
  have hsegments : segmentCanonicalText (T.text revision field) turnContentPageMaxUtf8Bytes =
      .ok (segmentsOf cut) :=
    segmentCanonicalText_eq_ok.mpr ⟨by decide, hcut.segmentable, cut, hcut.packed, hcut.flatten, rfl⟩
  refine ⟨page, segmentsOf cut, hpage, ?_, ?_, hserves.index, ?_⟩
  · rw [htext]
    exact hsegments
  · rw [length_segmentsFrom]
    exact hmore
  · rw [length_segmentsFrom]
    rcases hserves.next with ⟨hlast, hend⟩ | ⟨hmore, hcursor, -⟩
    · exact iff_of_true hend hlast
    · exact iff_of_false hcursor (by omega)

theorem Walk.next_page_sample : ∃ (revision : Text) (page : ContentPage),
    (ContentStore.fresh.run plainRuntime sampleCalls).getTurnContent plainRuntime (ofString "host")
        (ofString "turn") revision (fieldName .userText) none 1 = .ok (.page page) ∧
      page.index = 0 := by
  obtain ⟨revision, row, hvisible⟩ := sampleCalls_visible (R := plainRuntime)
  obtain ⟨page, -, hpage, -, -, hindex, -⟩ :=
    Walk.next_page (.start sampleCalls) (.inl rfl) collisionless_sampleCalls hvisible
  exact ⟨revision, page, hpage, hindex⟩

/-! ### Repairs -/

/-- The boundaries of a store follow from its rows. -/
lemma Kept.perm {T : Holdings} {s s' : ContentStore} (hs : Kept T s) (hs' : Kept T s')
    (hrows : s'.rows = s.rows) : s'.boundaries.Perm s.boundaries := by
  have hnodup : ∀ {s}, Kept T s → s.boundaries.Nodup := by
    intro s hs
    refine hs.distinct.imp fun {a b} hclash heq => ?_
    rw [heq, clashes_iff.mpr ⟨⟨rfl, rfl⟩, .inl rfl⟩] at hclash
    cases hclash
  have hsub : ∀ {s s'}, Kept T s → Kept T s' → s'.rows = s.rows →
      ∀ b ∈ s.boundaries, b ∈ s'.boundaries := by
    intro s s' hs hs' hrows b hb
    obtain ⟨hcomplete, done, page, rest, hcut, hstart⟩ := hs.boundaries b hb
    obtain ⟨row, hrow, hkey⟩ := hs.owned b hb
    rw [← hrows] at hrow
    rw [← hkey] at hcut hcomplete
    have hstate : (row.field b.field).state = .complete := by
      have hcontent := (hs'.rows row hrow).content b.field
      rw [← hcontent] at hcomplete
      exact hcomplete
    have hlength := hs'.full row hrow b.field hstate
    rw [hs'.pageCount hrow hstate hcut] at hlength
    have hmem := (Content.mem_boundariesOf.mp (hs'.mem_boundariesOf hcut hlength)).1
    rw [hkey, ← hstart] at hmem
    exact hmem
  rw [perm_ext_iff_of_nodup (hnodup hs') (hnodup hs)]
  exact fun b => ⟨hsub hs' hs hrows.symm b, hsub hs hs' hrows b⟩

/-- Whichever boundaries a store has lost, a repair succeeds and brings back just these. -/
theorem backfill_restores (hcalls : Collisionless R calls) (lost : PageBoundary → Bool) :
    ∃ s', { ContentStore.fresh.run R calls with
        boundaries := (ContentStore.fresh.run R calls).boundaries.filter (!lost ·) }.backfill =
          .ok s' ∧
      s'.rows = (ContentStore.fresh.run R calls).rows ∧
      s'.boundaries.Perm (ContentStore.fresh.run R calls).boundaries := by
  obtain ⟨T, hT⟩ := hcalls.exists_addresses
  have hkept := (kept_run hT).1
  have hsound : Sound T { ContentStore.fresh.run R calls with
      boundaries := (ContentStore.fresh.run R calls).boundaries.filter (!lost ·) } :=
    ⟨hkept.rows, hkept.primary, fun b hb => hkept.boundaries b (mem_of_mem_filter hb),
      hkept.distinct.filter _, fun b hb => hkept.owned b (mem_of_mem_filter hb)⟩
  obtain ⟨s', hs', hkept', hrows⟩ := hsound.backfill
  exact ⟨s', hs', hrows, hkept.perm hkept' hrows⟩

theorem backfill_restores_sample : ∃ s',
    { ContentStore.fresh.run plainRuntime sampleCalls with
      boundaries := (ContentStore.fresh.run plainRuntime sampleCalls).boundaries.filter
        (fun _ => !true) }.backfill = .ok s' ∧
      s'.rows = (ContentStore.fresh.run plainRuntime sampleCalls).rows ∧
      s'.boundaries.Perm (ContentStore.fresh.run plainRuntime sampleCalls).boundaries :=
  backfill_restores collisionless_sampleCalls fun _ => true

end Tendwire.Content

import Tendwire.Turns.ContentKept

/-!
# Runs of the store of content

Every run of writes keeps the rows and their boundaries, and a repair writes the boundaries that
the writer would have written.
-/

namespace Tendwire.Content

open Strings List Python Public Tokens
open Connector (ContentState TurnField)

variable {F : Type} [FloatText F] {R : Runtime F} {T : Holdings} {s s' : ContentStore}
  {row : ContentRow} {key : ContentKey} {field : TurnField} {b : PageBoundary}

/-! ### Insertions -/

section

variable {hostId turnId : Text} {content : TurnField → FieldText} {isCurrent : Bool}

lemma rowKept_inserted {segments : TurnField → List ContentSegment}
    (hrevision : contentRevision R turnId content = .ok row.key.revision)
    (hT : T row.key.revision = content)
    (hfields : ∀ f, fieldSegments (content f) = .ok (segments f) ∧
      fieldRow (content f) (segments f) = .ok (row.field f)) : RowKept T row := by
  obtain ⟨hnamed, havailable⟩ := contentRevision_eq_ok hrevision
  have htext : ∀ f, T.text row.key.revision f = (content f).text.getD [] := fun f => by
    rw [Holdings.text, hT]
  refine ⟨fun f => ?_, hnamed, fun f => ?_, fun f => ?_, fun f => ?_, fun f => ?_, fun f => ?_,
    fun f hstate => ?_⟩
  all_goals obtain ⟨hencodable, hsmall, hrow⟩ := fieldRow_eq_ok (hfields f).2
  · rw [hrow, hT]
  · rwa [htext]
  · rw [hrow, htext]
  · rw [hrow, htext]
  · rwa [htext]
  · rw [hT]
    exact havailable f
  · obtain ⟨pages, hsegments, -, hcut, -⟩ := fieldSegments_eq_ok (hfields f).1
    rw [hT] at hstate
    refine ⟨pages, htext f ▸ hcut hstate, ?_⟩
    rw [hrow, hsegments]
    exact length_segmentsFrom

lemma filter_boundaryOf (key key' : ContentKey) (f f' : TurnField) (segments : List ContentSegment) :
    (segments.map (boundaryOf key f)).filter (fun b => b.key = key' ∧ b.field = f') =
      if key = key' ∧ f = f' then segments.map (boundaryOf key f) else [] := by
  split_ifs with h
  · obtain ⟨rfl, rfl⟩ := h
    rw [filter_eq_self]
    intro b hb
    obtain ⟨x, -, rfl⟩ := mem_map.mp hb
    simp [boundaryOf]
  · rw [filter_eq_nil_iff]
    intro b hb
    obtain ⟨x, -, rfl⟩ := mem_map.mp hb
    rw [decide_eq_true_eq]
    exact h

theorem Kept.insertRevision (hs : Kept T s)
    (hT : ∀ revision, contentRevision R turnId content = .ok revision → T revision = content)
    (h : s.insertRevision R hostId turnId content isCurrent = .ok s') : Kept T s' := by
  obtain ⟨row, segments, -, hrevision, hfields, h⟩ := insertRevision_spec h
  have hT := hT _ hrevision
  rcases h with ⟨hrow, rfl⟩ | ⟨hrow, rfl⟩
  · obtain ⟨old, hold⟩ := Option.isSome_iff_exists.mp hrow
    rw [hs.insertedBoundaries_of_row hold hT fun f => (hfields f).1]
    exact hs
  · have hkept := rowKept_inserted hrevision hT hfields
    have hkeys : ∀ r ∈ s.rows, r.key ≠ row.key := by
      simpa [ContentStore.row?] using hrow
    have hnew : ∀ b ∈ s.boundaries, b.key ≠ row.key := by
      intro b hb
      obtain ⟨r, hr, hkey⟩ := hs.owned b hb
      rw [← hkey]
      exact hkeys r hr
    choose pages hpages hne hcut hnone using fun f => fieldSegments_eq_ok (hfields f).1
    rw [insertedBoundaries_new hnew hpages hne]
    have hmem : ∀ b, b ∈ (segments .userText).map (boundaryOf row.key .userText) ++
        (segments .assistantFinalText).map (boundaryOf row.key .assistantFinalText) →
        ∃ f, b ∈ (segmentsOf (pages f)).map (boundaryOf row.key f) := by
      intro b hb
      rw [hpages, hpages] at hb
      rcases mem_append.mp hb with hb | hb
      · exact ⟨_, hb⟩
      · exact ⟨_, hb⟩
    have hkeyOf : ∀ b, (∃ f, b ∈ (segmentsOf (pages f)).map (boundaryOf row.key f)) →
        b.key = row.key := by
      rintro b ⟨f, hb⟩
      obtain ⟨x, -, rfl⟩ := mem_map.mp hb
      rfl
    refine ⟨⟨?_, ?_, ?_, ?_, ?_⟩, ?_⟩
    · exact forall_mem_append.mpr ⟨hs.rows, forall_mem_singleton.mpr hkept⟩
    · rw [map_append, map_singleton, nodup_append]
      refine ⟨hs.primary, nodup_singleton _, fun a ha b hb => ?_⟩
      obtain ⟨r, hr, rfl⟩ := mem_map.mp ha
      rw [mem_singleton.mp hb]
      exact hkeys r hr
    · intro b hb
      rcases mem_append.mp hb with hb | hb
      · exact hs.boundaries b hb
      · obtain ⟨f, hf⟩ := hmem b hb
        obtain ⟨done, page, rest, hcut', rfl⟩ := mem_boundaries_segmentsOf hf
        have hcomplete : (content f).state = .complete := by
          by_contra hstate
          rw [hnone f hstate] at hcut'
          exact absurd hcut' (by simp)
        refine ⟨by rw [hT]; exact hcomplete, done, page, rest, ?_, rfl⟩
        rw [← hcut', Holdings.text, hT]
        exact hcut f hcomplete
    · rw [pairwise_append, pairwise_append]
      refine ⟨hs.distinct, ⟨?_, ?_, ?_⟩, fun a ha b hb => ?_⟩
      · rw [hpages]
        exact pairwise_boundaries (hne _)
      · rw [hpages]
        exact pairwise_boundaries (hne _)
      · intro a ha b hb
        obtain ⟨x, -, rfl⟩ := mem_map.mp ha
        obtain ⟨y, -, rfl⟩ := mem_map.mp hb
        rw [← Bool.not_eq_true, clashes_iff]
        rintro ⟨⟨-, hfield⟩, -⟩
        cases hfield
      · rw [← Bool.not_eq_true, clashes_iff]
        rintro ⟨⟨hkey, -⟩, -⟩
        exact hnew a ha (hkey.trans (hkeyOf b (hmem b hb)))
    · intro b hb
      rcases mem_append.mp hb with hb | hb
      · obtain ⟨r, hr, hkey⟩ := hs.owned b hb
        exact ⟨r, mem_append_left _ hr, hkey⟩
      · exact ⟨row, by simp, (hkeyOf b (hmem b hb)).symm⟩
    · intro r hr f hstate
      rcases mem_append.mp hr with hr | hr
      · rw [← hs.full r hr f hstate]
        simp only [ContentStore.boundariesOf, filter_append, length_append]
        rw [filter_boundaryOf, filter_boundaryOf, if_neg fun h => hkeys r hr h.1.symm,
          if_neg fun h => hkeys r hr h.1.symm]
        rfl
      · obtain rfl := mem_singleton.mp hr
        obtain ⟨-, -, hrow⟩ := fieldRow_eq_ok (hfields f).2
        have hold : s.boundaries.filter (fun b => b.key = r.key ∧ b.field = f) = [] := by
          rw [filter_eq_nil_iff]
          intro b hb
          simpa using fun hkey : b.key = r.key => absurd hkey (hnew b hb)
        have hcount : (r.field f).pageCount = (segments f).length := by rw [hrow]
        simp only [ContentStore.boundariesOf, filter_append, hold, nil_append, filter_boundaryOf,
          true_and, hcount]
        cases f with
        | userText => simp
        | assistantFinalText => simp

end

/-! ### Repairs -/

/-- The text of a complete field. -/
lemma RowKept.text_eq (h : RowKept T row) (hstate : (row.field field).state = .complete) :
    (row.field field).text = some (T.text row.key.revision field) := by
  have hcontent := h.content field
  have htext := h.available field (by rw [← hcontent]; exact hstate)
  obtain ⟨text, htext⟩ := Option.ne_none_iff_exists'.mp htext
  have hrow : (row.field field).text = some text := by rw [← htext, ← hcontent]
  rw [hrow, Holdings.text, htext]
  rfl

/-- A store without the boundaries of one field. -/
def ContentStore.without (s : ContentStore) (key : ContentKey) (field : TurnField) : ContentStore :=
  { s with boundaries := s.boundaries.filter fun b => !(b.key = key ∧ b.field = field) }

lemma boundariesOf_without : (s.without key field).boundariesOf key field = [] := by
  rw [ContentStore.boundariesOf, ContentStore.without, filter_filter, filter_eq_nil_iff]
  intro b _
  simp

lemma boundariesOf_without_of_ne {key' : ContentKey} {field' : TurnField}
    (hne : ¬ (key = key' ∧ field = field')) :
    (s.without key field).boundariesOf key' field' = s.boundariesOf key' field' := by
  rw [ContentStore.boundariesOf, ContentStore.without, filter_filter]
  refine filter_congr fun b _ => ?_
  by_cases hb : b.key = key' ∧ b.field = field'
  · obtain ⟨rfl, rfl⟩ := hb
    have hother : ¬ (b.key = key ∧ b.field = field) := fun h => hne ⟨h.1.symm, h.2.symm⟩
    simp [hother]
  · simp [hb]

lemma CutInto.length_le {t : Text} {pages : List Text} (h : CutInto t pages) :
    pages.length ≤ utf8Length t := by
  have hne := h.nonempty
  rw [← h.flatten]
  clear h
  induction pages with
  | nil => simp
  | cons page pages ih =>
    have hzero : utf8Length page ≠ 0 := fun h => hne page mem_cons_self (utf8Length_eq_zero.mp h)
    have := ih fun p hp => hne p (mem_cons_of_mem _ hp)
    rw [length_cons, flatten_cons, utf8Length_append]
    omega

/-- A field without boundaries gets the ones that the writer would write. -/
theorem Sound.ensureBoundaries (hs : Sound T s) (hrow : row ∈ s.rows)
    (hstate : (row.field field).state = .complete) (hcount : 1 ≤ (row.field field).pageCount)
    (hnone : s.boundariesOf row.key field = []) {pages : List Text}
    (hcut : CutInto (T.text row.key.revision field) pages) :
    s.ensureBoundaries row field true = .ok { s with
      boundaries := s.boundaries ++ (segmentsOf pages).map (boundaryOf row.key field) } := by
  have hkept := hs.rows row hrow
  have hcontent := hkept.content field
  obtain ⟨pages', hcut', hpages⟩ := hkept.pages field (by rw [← hcontent]; exact hstate)
  obtain rfl := hcut.unique hcut'
  have hbefore : Before s.boundaries row.key field 0 0 0 := by
    intro b hb hkey hfield
    have hmem : b ∈ s.boundariesOf row.key field :=
      Content.mem_boundariesOf.mpr ⟨hb, hkey, hfield⟩
    rw [hnone] at hmem
    cases hmem
  have hlong : pages.length < utf8Length (T.text row.key.revision field) + 1 :=
    Nat.lt_succ_of_le hcut.length_le
  have hall : CutInto (T.text row.key.revision field) ([] ++ pages) := hcut
  have hrebuild := rebuildPages_before hall hbefore hlong
  have hlength : (encoded (T.text row.key.revision field)).length = (row.field field).byteLength := by
    rw [length_encoded (hkept.encodable field), hkept.byteLength]
  unfold ContentStore.ensureBoundaries
  simp only [hnone, length_nil, hkept.text_eq hstate]
  rw [if_neg (by omega), if_neg (by simp), if_neg (by simp), if_neg (by simpa using hlength),
    hkept.byteLength, hkept.charLength]
  refine Transition.bind_eq_ok.mpr ⟨_, hrebuild, ?_⟩
  rw [if_neg (by simp [hpages])]
  rfl

lemma Sound.without (hs : Sound T s) (key : ContentKey) (field : TurnField) :
    Sound T (s.without key field) where
  rows := hs.rows
  primary := hs.primary
  boundaries b hb := hs.boundaries b (mem_of_mem_filter hb)
  distinct := hs.distinct.filter _
  owned b hb := hs.owned b (mem_of_mem_filter hb)

/-- No boundary lies in a field that is not cut. -/
lemma Sound.boundariesOf_nil (hs : Sound T s) (hcut : CutInto (T.text key.revision field) []) :
    s.boundariesOf key field = [] := by
  rw [eq_nil_iff_forall_not_mem]
  intro b hb
  obtain ⟨hmem, rfl, rfl⟩ := Content.mem_boundariesOf.mp hb
  obtain ⟨-, done, page, rest, hcut', -⟩ := hs.boundaries b hmem
  exact absurd (hcut.unique hcut') (by simp)

/-- The boundaries of one field and no others. -/
structure Repaired (T : Holdings) (s s' : ContentStore) (row : ContentRow) (field : TurnField) :
    Prop where
  rows : s'.rows = s.rows
  sound : Sound T s'
  full : Full s' row field
  others : ∀ key' field', ¬ (row.key = key' ∧ field = field') →
    s'.boundariesOf key' field' = s.boundariesOf key' field'

theorem Sound.backfillField (hs : Sound T s) (hrow : row ∈ s.rows) (field : TurnField) :
    ∃ s', s.backfillField row field = .ok s' ∧ Repaired T s s' row field := by
  have hkept := hs.rows row hrow
  have hcontent := hkept.content field
  unfold ContentStore.backfillField
  simp only
  split_ifs with hskip
  · refine ⟨s, rfl, rfl, hs, fun hstate => ?_, fun _ _ _ => rfl⟩
    obtain ⟨pages, hcut, hpages⟩ := hkept.pages field (by rw [← hcontent]; exact hstate)
    rcases hskip with hother | hzero | hcount
    · exact absurd hstate hother
    · obtain rfl : pages = [] := length_eq_zero_iff.mp (by omega)
      rw [hs.boundariesOf_nil hcut, hpages]
      rfl
    · exact hcount
  · simp only [not_or, not_not, Nat.not_lt] at hskip
    obtain ⟨hstate, hpositive, -⟩ := hskip
    obtain ⟨pages, hcut, hpages⟩ := hkept.pages field (by rw [← hcontent]; exact hstate)
    have hempty : (s.without row.key field).boundariesOf row.key field = [] := boundariesOf_without
    have hensure := (hs.without row.key field).ensureBoundaries hrow hstate hpositive hempty hcut
    refine ⟨_, hensure, rfl, ⟨hs.rows, hs.primary, ?_, ?_, ?_⟩, fun _ => ?_, fun key' field' hne => ?_⟩
    · intro b hb
      rcases mem_append.mp hb with hb | hb
      · exact hs.boundaries b (mem_of_mem_filter hb)
      · obtain ⟨done, page, rest, rfl, rfl⟩ := mem_boundaries_segmentsOf hb
        exact ⟨by rw [← hcontent]; exact hstate, done, page, rest, hcut, rfl⟩
    · rw [pairwise_append]
      refine ⟨hs.distinct.filter _, pairwise_boundaries hcut.nonempty, fun a ha b hb => ?_⟩
      obtain ⟨x, -, rfl⟩ := mem_map.mp hb
      rw [← Bool.not_eq_true, clashes_iff]
      rintro ⟨hsame, -⟩
      have hmem : a ∈ (s.without row.key field).boundariesOf row.key field :=
        Content.mem_boundariesOf.mpr ⟨ha, hsame⟩
      rw [hempty] at hmem
      cases hmem
    · intro b hb
      rcases mem_append.mp hb with hb | hb
      · exact hs.owned b (mem_of_mem_filter hb)
      · obtain ⟨x, -, rfl⟩ := mem_map.mp hb
        exact ⟨row, hrow, rfl⟩
    · change ((s.without row.key field).boundaries ++ _ |>.filter _).length = _
      rw [filter_append, filter_boundaryOf, if_pos ⟨rfl, rfl⟩]
      change ((s.without row.key field).boundariesOf row.key field ++ _).length = _
      rw [hempty, nil_append, length_map, length_segmentsFrom, hpages]
    · change ((s.without row.key field).boundaries ++ _ |>.filter _) = _
      rw [filter_append, filter_boundaryOf, if_neg hne, append_nil]
      exact boundariesOf_without_of_ne hne

/-- A field that has its boundaries keeps them. -/
lemma Repaired.keeps {r : ContentRow} {f : TurnField} (h : Repaired T s s' row field)
    (hrow : row ∈ s.rows) (hr : r ∈ s.rows) (hfull : Full s r f) : Full s' r f := by
  by_cases hsame : row.key = r.key ∧ field = f
  · have hprimary := h.sound.primary
    rw [h.rows] at hprimary
    obtain rfl := inj_on_of_nodup_map hprimary hrow hr hsame.1
    rw [← hsame.2]
    exact h.full
  · intro hstate
    rw [h.others _ _ hsame]
    exact hfull hstate

/-- A repair of a store that is sound makes it whole. -/
theorem Sound.backfill (hs : Sound T s) :
    ∃ s', s.backfill = .ok s' ∧ Kept T s' ∧ s'.rows = s.rows := by
  suffices h : ∀ (rs : List ContentRow) (s₀ : ContentStore), s₀.rows = s.rows → Sound T s₀ →
      (∀ r ∈ rs, r ∈ s.rows) → ∃ s', rs.foldlM (fun s row => do
          let s ← s.backfillField row .userText
          s.backfillField row .assistantFinalText) s₀ = .ok s' ∧ s'.rows = s.rows ∧ Sound T s' ∧
        ∀ r ∈ s.rows, ∀ f, r ∈ rs ∨ Full s₀ r f → Full s' r f by
    obtain ⟨s', hs', hrows, hsound, hfull⟩ := h s.rows s rfl hs fun _ => id
    exact ⟨s', hs', ⟨hsound, fun r hr f => hfull r (hrows ▸ hr) f (.inl (hrows ▸ hr))⟩, hrows⟩
  intro rs
  induction rs with
  | nil =>
    intro s₀ hrows hsound _
    exact ⟨s₀, rfl, hrows, hsound, fun r _ f h => h.resolve_left (by simp)⟩
  | cons row rs ih =>
    intro s₀ hrows hsound hsub
    have hrow : row ∈ s₀.rows := hrows ▸ hsub row mem_cons_self
    obtain ⟨s₁, hs₁, huser⟩ := hsound.backfillField hrow .userText
    have hrow₁ : row ∈ s₁.rows := huser.rows ▸ hrow
    obtain ⟨s₂, hs₂, hfinal⟩ := huser.sound.backfillField hrow₁ .assistantFinalText
    obtain ⟨s', hs', hrows', hsound', hfull⟩ := ih s₂ (hfinal.rows.trans (huser.rows.trans hrows))
      hfinal.sound fun r hr => hsub r (mem_cons_of_mem _ hr)
    refine ⟨s', ?_, hrows', hsound', fun r hr f h => hfull r hr f ?_⟩
    · rw [foldlM_cons, hs₁]
      change (s₁.backfillField row .assistantFinalText >>= _) = _
      rw [hs₂]
      exact hs'
    · have hr₀ : r ∈ s₀.rows := hrows ▸ hr
      have hr₁ : r ∈ s₁.rows := huser.rows ▸ hr₀
      rcases h with h | h
      · rcases mem_cons.mp h with rfl | h
        · cases f with
          | userText => exact .inr (hfinal.keeps hrow₁ hr₁ huser.full)
          | assistantFinalText => exact .inr hfinal.full
        · exact .inl h
      · exact .inr (hfinal.keeps hrow₁ hr₁ (huser.keeps hrow hr₀ h))

/-! ### Runs -/

/-- A transaction that writes content, or that changes what a reader may see of it. -/
inductive ContentCall where
  | insert (hostId turnId : Text) (content : TurnField → FieldText) (isCurrent : Bool)
  /-- `UPDATE turn_content_revisions SET is_current`. -/
  | mark (p : ContentRow → Bool) (isCurrent : Bool)
  /-- `DELETE FROM turn_content_revisions`, which takes the boundaries along. -/
  | delete (p : ContentRow → Bool)
  | backfill
  | plan (planned : ContentKey → Bool)
  | aliases (resolve : Text → Text → Option Text)

namespace ContentStore

def fresh : ContentStore := ⟨[], [], fun _ => false, fun _ turnId => some turnId⟩

def mark (s : ContentStore) (p : ContentRow → Bool) (isCurrent : Bool) : ContentStore :=
  { s with rows := s.rows.map fun r => if p r then { r with isCurrent } else r }

def delete (s : ContentStore) (p : ContentRow → Bool) : ContentStore :=
  { s with
    rows := s.rows.filter fun r => !p r
    boundaries := s.boundaries.filter fun b => !s.rows.any fun r => p r && r.key = b.key }

/-- A transaction that fails is rolled back. -/
def step (R : Runtime F) (s : ContentStore) : ContentCall → ContentStore
  | .insert hostId turnId content isCurrent =>
    (s.insertRevision R hostId turnId content isCurrent).toOption.getD s
  | .mark p isCurrent => s.mark p isCurrent
  | .delete p => s.delete p
  | .backfill => s.backfill.toOption.getD s
  | .plan planned => { s with planned }
  | .aliases resolve => { s with resolve }

def run (R : Runtime F) (s : ContentStore) (calls : List ContentCall) : ContentStore :=
  calls.foldl (step R) s

end ContentStore

/-- A call inserts a content that has the revision. -/
def Inserts (R : Runtime F) (calls : List ContentCall) (revision : Text)
    (content : TurnField → FieldText) : Prop :=
  ∃ hostId turnId isCurrent, .insert hostId turnId content isCurrent ∈ calls ∧
    contentRevision R turnId content = .ok revision

/-- No two contents that are inserted have the same revision. -/
def Collisionless (R : Runtime F) (calls : List ContentCall) : Prop :=
  ∀ revision content content', Inserts R calls revision content →
    Inserts R calls revision content' → content = content'

def Addresses (R : Runtime F) (T : Holdings) (calls : List ContentCall) : Prop :=
  ∀ revision content, Inserts R calls revision content → T revision = content

open Classical in
lemma Collisionless.exists_addresses {calls : List ContentCall} (h : Collisionless R calls) :
    ∃ T, Addresses R T calls := by
  refine ⟨fun revision => if hc : ∃ content, Inserts R calls revision content then hc.choose
    else fun _ => ⟨none, .absent⟩, fun revision content hcontent => ?_⟩
  have hc : ∃ content, Inserts R calls revision content := ⟨content, hcontent⟩
  simp only [dif_pos hc]
  exact h revision _ _ hc.choose_spec hcontent

lemma Inserts.mono {calls calls' : List ContentCall} {revision : Text}
    {content : TurnField → FieldText} (h : Inserts R calls revision content) (hsub : calls ⊆ calls') :
    Inserts R calls' revision content := by
  obtain ⟨hostId, turnId, isCurrent, hmem, hrevision⟩ := h
  exact ⟨hostId, turnId, isCurrent, hsub hmem, hrevision⟩

lemma Addresses.mono {calls calls' : List ContentCall} (h : Addresses R T calls')
    (hsub : calls ⊆ calls') : Addresses R T calls :=
  fun revision content hcontent => h revision content (hcontent.mono hsub)

lemma toOption_getD {α ε : Type} {P : α → Prop} {x : Except ε α} {a : α} (ha : P a)
    (hx : ∀ b, x = .ok b → P b) : P (x.toOption.getD a) := by
  cases x with
  | error e => exact ha
  | ok b => exact hx b rfl

/-- Only the key and the fields of a row matter. -/
lemma RowKept.of_eq {r : ContentRow} (h : RowKept T row) (hkey : r.key = row.key)
    (hfield : r.field = row.field) : RowKept T r := by
  obtain ⟨key, field, isCurrent⟩ := row
  obtain ⟨key', field', isCurrent'⟩ := r
  obtain rfl := hkey
  obtain rfl := hfield
  exact ⟨h.content, h.named, h.encodable, h.charLength, h.byteLength, h.small, h.available, h.pages⟩

lemma Kept.mark (hs : Kept T s) (p : ContentRow → Bool) (isCurrent : Bool) :
    Kept T (s.mark p isCurrent) := by
  have hmem : ∀ r ∈ (s.mark p isCurrent).rows, ∃ r₀ ∈ s.rows, r.key = r₀.key ∧
      r.field = r₀.field := by
    intro r hr
    obtain ⟨r₀, hr₀, rfl⟩ := mem_map.mp hr
    refine ⟨r₀, hr₀, ?_⟩
    split <;> exact ⟨rfl, rfl⟩
  have hkeys : (s.mark p isCurrent).rows.map (·.key) = s.rows.map (·.key) := by
    rw [ContentStore.mark, map_map]
    refine map_congr_left fun r _ => ?_
    rw [Function.comp_apply]
    split <;> rfl
  refine ⟨⟨fun r hr => ?_, ?_, hs.boundaries, hs.distinct, fun b hb => ?_⟩, fun r hr f hstate => ?_⟩
  · obtain ⟨r₀, hr₀, hkey, hfield⟩ := hmem r hr
    exact (hs.rows r₀ hr₀).of_eq hkey hfield
  · rw [hkeys]
    exact hs.primary
  · have hkey : b.key ∈ s.rows.map (·.key) := mem_map.mpr (hs.owned b hb)
    rw [← hkeys] at hkey
    exact mem_map.mp hkey
  · obtain ⟨r₀, hr₀, hkey, hfield⟩ := hmem r hr
    have hfull := hs.full r₀ hr₀ f (by rwa [← hfield])
    rwa [← hkey, ← hfield] at hfull

lemma Kept.delete (hs : Kept T s) (p : ContentRow → Bool) : Kept T (s.delete p) := by
  refine ⟨⟨fun r hr => hs.rows r (mem_of_mem_filter hr), hs.primary.sublist (filter_sublist.map _),
    fun b hb => hs.boundaries b (mem_of_mem_filter hb), hs.distinct.filter _, fun b hb => ?_⟩,
    fun r hr f hstate => ?_⟩
  · obtain ⟨hb, hstays⟩ := mem_filter.mp hb
    obtain ⟨r, hr, hkey⟩ := hs.owned b hb
    refine ⟨r, mem_filter.mpr ⟨hr, ?_⟩, hkey⟩
    by_contra hp
    rw [Bool.not_eq_true, Bool.not_eq_false'] at hp
    have hgone : (s.rows.any fun r => p r && r.key = b.key) = true :=
      any_eq_true.mpr ⟨r, hr, by simp [hp, hkey]⟩
    rw [hgone] at hstays
    cases hstays
  · obtain ⟨hr, hp⟩ := mem_filter.mp hr
    rw [← hs.full r hr f hstate]
    simp only [ContentStore.boundariesOf, ContentStore.delete, filter_filter]
    refine congrArg length (filter_congr fun b _ => ?_)
    by_cases hb : b.key = r.key ∧ b.field = f
    · have hstays : ∀ r' ∈ s.rows, p r' = true → r'.key ≠ b.key := by
        intro r' hr' hp' hkey
        -- the primary key tells the two rows to be one
        obtain rfl := inj_on_of_nodup_map hs.primary hr' hr (hkey.trans hb.1)
        rw [hp'] at hp
        cases hp
      have hnone : (s.rows.any fun r' => p r' && r'.key = b.key) = false := by
        rw [any_eq_false]
        intro r' hr'
        rw [Bool.and_eq_true, decide_eq_true_eq]
        exact fun h => hstays r' hr' h.1 h.2
      rw [hnone]
      simp [hb]
    · simp [hb]

theorem Kept.step (hs : Kept T s) (call : ContentCall) (hcall : Addresses R T [call]) :
    Kept T (s.step R call) := by
  cases call with
  | insert hostId turnId content isCurrent =>
    exact toOption_getD hs fun s' h => hs.insertRevision (fun revision hrevision =>
      hcall _ _ ⟨hostId, turnId, isCurrent, mem_singleton_self _, hrevision⟩) h
  | mark p isCurrent => exact hs.mark p isCurrent
  | delete p => exact hs.delete p
  | backfill =>
    obtain ⟨s', hs', hkept, -⟩ := hs.toSound.backfill
    refine toOption_getD hs fun s'' h => ?_
    obtain rfl := Except.ok.inj (hs'.symm.trans h)
    exact hkept
  | plan planned => exact ⟨⟨hs.rows, hs.primary, hs.boundaries, hs.distinct, hs.owned⟩, hs.full⟩
  | aliases resolve => exact ⟨⟨hs.rows, hs.primary, hs.boundaries, hs.distinct, hs.owned⟩, hs.full⟩

/-- A row holds what some call has inserted. -/
def Inserted (R : Runtime F) (calls : List ContentCall) (row : ContentRow) : Prop :=
  ∃ content isCurrent, .insert row.key.hostId row.key.turnId content isCurrent ∈ calls ∧
    contentRevision R row.key.turnId content = .ok row.key.revision ∧
      ∀ f, (row.field f).toFieldText = content f

/-- A row is inserted by the call or was there before it. -/
lemma Kept.inserted_step (hs : Kept T s) (call : ContentCall) (hrow : row ∈ (s.step R call).rows) :
    Inserted R [call] row ∨ ∃ r ∈ s.rows, row.key = r.key ∧ row.field = r.field := by
  cases call with
  | insert hostId turnId content isCurrent =>
    rw [ContentStore.step] at hrow
    cases hinsert : s.insertRevision R hostId turnId content isCurrent with
    | error e =>
      rw [hinsert] at hrow
      exact .inr ⟨row, hrow, rfl, rfl⟩
    | ok s' =>
      rw [hinsert] at hrow
      change row ∈ s'.rows at hrow
      obtain ⟨new, segments, ⟨rfl, rfl⟩, hrevision, hfields, ⟨-, rfl⟩ | ⟨-, rfl⟩⟩ :=
        insertRevision_spec hinsert
      · exact .inr ⟨row, hrow, rfl, rfl⟩
      · rcases mem_append.mp hrow with hrow | hrow
        · exact .inr ⟨row, hrow, rfl, rfl⟩
        · obtain rfl := mem_singleton.mp hrow
          refine .inl ⟨content, isCurrent, mem_singleton_self _, hrevision, fun f => ?_⟩
          rw [(fieldRow_eq_ok (hfields f).2).2.2]
  | mark p isCurrent =>
    obtain ⟨r, hr, rfl⟩ := mem_map.mp hrow
    refine .inr ⟨r, hr, ?_⟩
    split <;> exact ⟨rfl, rfl⟩
  | delete p => exact .inr ⟨row, mem_of_mem_filter hrow, rfl, rfl⟩
  | backfill =>
    obtain ⟨s', hs', -, hrows⟩ := hs.toSound.backfill
    rw [ContentStore.step, hs'] at hrow
    change row ∈ s'.rows at hrow
    rw [hrows] at hrow
    exact .inr ⟨row, hrow, rfl, rfl⟩
  | plan planned => exact .inr ⟨row, hrow, rfl, rfl⟩
  | aliases resolve => exact .inr ⟨row, hrow, rfl, rfl⟩

lemma Inserted.mono {calls calls' : List ContentCall} {r : ContentRow} (h : Inserted R calls r)
    (hsub : calls ⊆ calls') (hkey : row.key = r.key) (hfield : row.field = r.field) :
    Inserted R calls' row := by
  obtain ⟨content, isCurrent, hmem, hrevision, htexts⟩ := h
  unfold Inserted
  rw [hkey, hfield]
  exact ⟨content, isCurrent, hsub hmem, hrevision, htexts⟩

lemma kept_fresh : Kept T .fresh :=
  ⟨⟨by simp [ContentStore.fresh], nodup_nil, by simp [ContentStore.fresh], .nil,
    by simp [ContentStore.fresh]⟩, by simp [ContentStore.fresh]⟩

/-- Whatever is written, repaired or deleted, the store is kept and holds what was inserted. -/
theorem kept_run {calls : List ContentCall} (hcalls : Addresses R T calls) :
    Kept T (ContentStore.fresh.run R calls) ∧
      ∀ row ∈ (ContentStore.fresh.run R calls).rows, Inserted R calls row := by
  induction calls using reverseRecOn with
  | nil => exact ⟨kept_fresh, by simp [ContentStore.run, ContentStore.fresh]⟩
  | append_singleton calls call ih =>
    obtain ⟨hkept, hinserted⟩ := ih (hcalls.mono (subset_append_left _ _))
    have hrun : ContentStore.fresh.run R (calls ++ [call]) =
        (ContentStore.fresh.run R calls).step R call := by simp [ContentStore.run]
    rw [hrun]
    refine ⟨hkept.step call (hcalls.mono (subset_append_right _ _)), fun row hrow => ?_⟩
    rcases hkept.inserted_step call hrow with h | ⟨r, hr, hkey, hfield⟩
    · exact h.mono (subset_append_right _ _) rfl rfl
    · exact (hinserted r hr).mono (subset_append_left _ _) hkey hfield

end Tendwire.Content

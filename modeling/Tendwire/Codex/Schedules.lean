import Tendwire.Codex.Finals

/-!
# Schedules of polls

The contents that polls publish overlay each other. The records of a rollout give one overlay of
their own, of a reader that keeps the texts of the turn and publishes after each record. A
schedule of polls whose records are read as that reader reads them gives the same overlay.
-/

namespace Tendwire

variable {R : CodexRules} {file : List UInt8} {w w' g g' : CodexWork} {c c' : CodexCheckpoint}
  {e : CodexSemanticEvent} {raw : List UInt8}

/-! ### The overlay -/

/-- What is known of a turn. -/
@[ext]
structure TurnView where
  userText : Option String
  finalText : Option String
  complete : Bool
deriving DecidableEq, Repr

abbrev TurnViews := String → TurnView

namespace TurnViews

def empty : TurnViews := fun _ => ⟨none, none, false⟩

/-- A content over what is known: a text that it does not have stays. -/
def publish (views : TurnViews) (content : CodexContent) : TurnViews :=
  Function.update views content.sourceTurnId
    { userText := content.userText <|> (views content.sourceTurnId).userText
      finalText := content.assistantFinalText <|> (views content.sourceTurnId).finalText
      complete := content.complete }

def publish? (views : TurnViews) (content : Option CodexContent) : TurnViews :=
  content.elim views views.publish

@[simp] lemma publish?_none (views : TurnViews) : views.publish? none = views := rfl

@[simp] lemma publish?_some (views : TurnViews) (content : CodexContent) :
    views.publish? (some content) = views.publish content := rfl

end TurnViews

/-- The overlay of the contents of some polls. -/
def runViews (polls : List CodexPoll) : TurnViews :=
  polls.foldl (fun views p => views.publish? p.content) .empty

/-! ### The reader of single records -/

/-- A record read with the texts of all the records before it. -/
def CodexWork.keepLine (R : CodexRules) (g : CodexWork) (raw : List UInt8) : CodexWork :=
  { g with publicChanged := false }.advanceLine R raw

/-- The overlay of the contents after each record. -/
def keptViews (R : CodexRules) : CodexWork → TurnViews → List (List UInt8) → TurnViews
  | _, views, [] => views
  | g, views, raw :: rest =>
    keptViews R (g.keepLine R raw) (views.publish? ((g.keepLine R raw).content R)) rest

/-- When a poll, which has forgotten the texts before it, reads a record as the reader that keeps
them. -/
structure ReadsAlike (R : CodexRules) (views : TurnViews) (w g : CodexWork) (raw : List UInt8)
    (e : CodexSemanticEvent) : Prop where
  /-- Context of a turn whose prompt the poll has not read has no prompt before it. -/
  context : w.Takes e → e.kind = .user → isInternalUserText R e.text = true →
    (w.selected (w.eventTurnId e)).userText = none → (g.selected (w.eventTurnId e)).userText = none
  /-- A content that is replaced or hidden before the poll ends has been published. -/
  replaced : w.Discards R e ∨ (g.keepLine R raw).publicChanged = true ∧
      isInternalTurnContent R (w.advanceLine R raw).shown = true →
    ∀ content, w.content R = some content → views.publish content = views
  /-- A blank commentary does not end a turn that has changed. -/
  blank : w.Discards R e → e.kind = .commentary → strip e.text = "" → w.publicChanged = false
  /-- The texts that are forgotten do not matter for what is internal content. -/
  hidden : (g.keepLine R raw).publicChanged = true →
    isInternalTurnContent R (w.advanceLine R raw).shown =
      isInternalTurnContent R (g.keepLine R raw).shown
  /-- The texts that are forgotten have been published. -/
  prompt : ∀ content text, (g.keepLine R raw).content R = some content →
    (w.advanceLine R raw).userText = none → content.userText = some text →
    (views content.sourceTurnId).userText = some text
  final : ∀ content text, (g.keepLine R raw).content R = some content →
    (w.advanceLine R raw).finalText = none → content.assistantFinalText = some text →
    (views content.sourceTurnId).finalText = some text

/-- When a poll reads its records as the reader that keeps the texts. -/
def LinesAlike (R : CodexRules) (views : TurnViews) :
    CodexWork → CodexWork → List (List UInt8) → Prop
  | _, _, [] => True
  | w, g, raw :: rest =>
    (∀ e, eventOf R raw = some e → ReadsAlike R views w g raw e) ∧
      LinesAlike R views (w.advanceLine R raw) (g.keepLine R raw) rest

/-! ### Forgotten texts -/

/-- A work that is the same as another but may have forgotten texts. -/
structure Forgets (w g : CodexWork) : Prop where
  active : w.activeTurnId = g.activeTurnId
  last : w.lastContentTurnId = g.lastContentTurnId
  finalSeen : w.finalSeen = g.finalSeen
  complete : w.complete = g.complete
  internal : w.internalTurn = g.internalTurn
  prompt : w.userText = none ∨ w.userText = g.userText
  final : w.finalText = none ∨ w.finalText = g.finalText

namespace Forgets

lemma currentTurnId (h : Forgets w g) : w.currentTurnId = g.currentTurnId := by
  unfold CodexWork.currentTurnId
  rw [h.active, h.last]

lemma sourceTurnId (h : Forgets w g) : w.sourceTurnId = g.sourceTurnId := by
  rw [CodexWork.sourceTurnId, h.currentTurnId, CodexWork.sourceTurnId]

lemma eventTurnId (h : Forgets w g) : w.eventTurnId e = g.eventTurnId e := by
  unfold CodexWork.eventTurnId
  rw [h.active]

lemma takes (h : Forgets w g) : w.Takes e ↔ g.Takes e := by
  unfold CodexWork.Takes
  rw [h.eventTurnId, h.active]

lemma selected (h : Forgets w g) (turnId : String) :
    Forgets (w.selected turnId) (g.selected turnId) := by
  have hother : (w.activeTurnId = "" ∧ w.currentTurnId ≠ "" ∧ turnId ≠ w.currentTurnId) ↔
      g.activeTurnId = "" ∧ g.currentTurnId ≠ "" ∧ turnId ≠ g.currentTurnId := by
    rw [h.active, h.currentTurnId]
  unfold CodexWork.selected
  by_cases hw : w.activeTurnId = "" ∧ w.currentTurnId ≠ "" ∧ turnId ≠ w.currentTurnId
  · rw [if_pos hw, if_pos (hother.mp hw)]
    exact ⟨h.active, h.last, rfl, rfl, rfl, .inl rfl, .inl rfl⟩
  · rw [if_neg hw, if_neg (fun hg => hw (hother.mpr hg))]
    exact h

lemma applyUser (h : Forgets w g) (turnId text : String)
    (hcontext : isInternalUserText R text = true → w.userText = none → g.userText = none) :
    Forgets (w.applyUser R turnId text) (g.applyUser R turnId text) := by
  unfold CodexWork.applyUser
  split_ifs with htext hw hg hg
  · exact ⟨h.active, rfl, h.finalSeen, h.complete, rfl, h.prompt, .inl rfl⟩
  · exact (hg (hcontext htext hw)).elim
  · exact (hw (h.prompt.elim id (hg ▸ ·))).elim
  · exact h
  · exact ⟨h.active, rfl, h.finalSeen, h.complete, rfl, .inr rfl, h.final⟩

lemma applyEvent (h : Forgets w g) {span span' : CodexRecordSpan}
    (hcontext : w.Takes e → e.kind = .user → isInternalUserText R e.text = true →
      (w.selected (w.eventTurnId e)).userText = none →
      (g.selected (w.eventTurnId e)).userText = none) :
    Forgets (w.applyEvent R e span) (g.applyEvent R e span') := by
  by_cases hstart : e.kind = .start ∧ e.turnId ≠ ""
  · rw [CodexWork.applyEvent_of_start hstart.1 hstart.2,
      CodexWork.applyEvent_of_start hstart.1 hstart.2]
    exact ⟨rfl, rfl, rfl, rfl, rfl, .inl rfl, .inl rfl⟩
  by_cases htakes : w.Takes e
  · have hselected := h.selected (w.eventTurnId e)
    rw [CodexWork.applyEvent_of_takes htakes, CodexWork.applyEvent_of_takes (h.takes.mp htakes),
      ← h.eventTurnId]
    dsimp only
    rw [hselected.internal]
    split_ifs with huser hinternal hcommentary
    · exact hselected.applyUser _ _ (hcontext htakes huser)
    · exact hselected
    · unfold CodexWork.applyCommentary
      split_ifs
      · exact hselected
      · exact ⟨hselected.active, rfl, hselected.finalSeen, hselected.complete, hselected.internal,
          hselected.prompt, hselected.final⟩
    · exact ⟨hselected.active, rfl, rfl, rfl, hselected.internal, hselected.prompt, .inr rfl⟩
  · rw [CodexWork.applyEvent_of_not_takes hstart htakes,
      CodexWork.applyEvent_of_not_takes hstart (fun ht => htakes (h.takes.mpr ht))]
    exact h

end Forgets

/-! ### One record -/

/-- What a poll has published and holds is the overlay of the reader that keeps the texts. -/
structure Agrees (R : CodexRules) (views kept : TurnViews) (w g : CodexWork) : Prop where
  forgets : Forgets w g
  overlay : views.publish? (w.content R) = kept

variable {views kept : TurnViews}

lemma content_of_shows (hpublic : w.publicChanged = true) (hinternal : w.internalTurn = false)
    (hcurrent : w.currentTurnId ≠ "") :
    w.content R = if isInternalTurnContent R w.shown = true then none else some w.shown := by
  simp [CodexWork.content, hpublic, hinternal, hcurrent]

lemma content_of_internal (h : w.internalTurn = true) : w.content R = none := by
  simp [CodexWork.content, h]

lemma content_of_unchanged (h : w.publicChanged = false) : w.content R = none := by
  simp [CodexWork.content, h]

lemma content_shown {content : CodexContent} (h : w.content R = some content) :
    content = w.shown ∧ w.currentTurnId ≠ "" := by
  unfold CodexWork.content at h
  split_ifs at h with hguard hhidden
  simp only [Bool.or_eq_true, beq_iff_eq, not_or] at hguard
  exact ⟨(Option.some.inj h).symm, hguard.2⟩

lemma publish?_of_published
    (h : ∀ content, w.content R = some content → views.publish content = views) :
    views.publish? (w.content R) = views := by
  cases hcontent : w.content R with
  | none => rfl
  | some content => exact h content hcontent

lemma orElse_forgotten {kept? known? : Option String} {held old : Option String}
    (h : held = none ∨ held = kept?)
    (hforgotten : held = none → (∀ text, kept? = some text → old = some text) ∧ known? = old) :
    (held <|> old) = (kept? <|> known?) := by
  cases held with
  | none =>
    obtain ⟨hkept, rfl⟩ := hforgotten rfl
    cases hkept? : kept? with
    | none => rfl
    | some text => simp [hkept text hkept?]
  | some text =>
    obtain rfl := h.resolve_left (by simp)
    rfl

/-- Over what is published already, a content gives the same whether the texts before it are
forgotten or kept. -/
lemma publish_shown_eq {content : Option CodexContent} (h : Forgets w' g')
    (hown : ∀ c, content = some c → c.sourceTurnId = w'.sourceTurnId)
    (hprompt : w'.userText = none →
      (∀ text, g'.userText = some text → (views w'.sourceTurnId).userText = some text) ∧
      ∀ c, content = some c → c.userText = none)
    (hfinal : w'.finalText = none →
      (∀ text, g'.finalText = some text → (views w'.sourceTurnId).finalText = some text) ∧
      ∀ c, content = some c → c.assistantFinalText = none) :
    views.publish w'.shown = (views.publish? content).publish g'.shown := by
  have hkey : g'.shown.sourceTurnId = w'.sourceTurnId := h.sourceTurnId.symm
  have hother : ∀ key, key ≠ w'.sourceTurnId → (views.publish? content) key = views key := by
    intro key hne
    cases content with
    | none => rfl
    | some c => exact Function.update_of_ne (by rwa [hown c rfl]) _ _
  funext key
  unfold TurnViews.publish
  rw [hkey, CodexWork.shown_sourceTurnId]
  by_cases hkey' : key = w'.sourceTurnId
  · subst hkey'
    rw [Function.update_self, Function.update_self]
    have huser : w'.userText = none →
        ((views.publish? content) w'.sourceTurnId).userText =
          (views w'.sourceTurnId).userText := by
      intro hnone
      cases content with
      | none => rfl
      | some c => simp [TurnViews.publish?, TurnViews.publish, hown c rfl, (hprompt hnone).2 c rfl]
    have hfinalText : w'.finalText = none →
        ((views.publish? content) w'.sourceTurnId).finalText =
          (views w'.sourceTurnId).finalText := by
      intro hnone
      cases content with
      | none => rfl
      | some c => simp [TurnViews.publish?, TurnViews.publish, hown c rfl, (hfinal hnone).2 c rfl]
    ext1
    · exact orElse_forgotten h.prompt fun hnone => ⟨(hprompt hnone).1, huser hnone⟩
    · exact orElse_forgotten h.final fun hnone => ⟨(hfinal hnone).1, hfinalText hnone⟩
    · simp only [CodexWork.shown, h.complete, h.finalSeen]
  · rw [Function.update_of_ne hkey', Function.update_of_ne hkey', hother key hkey']

/-- Whether a record of the turn leaves the work. -/
def CodexWork.Idle (R : CodexRules) (w : CodexWork) (e : CodexSemanticEvent) : Prop :=
  (e.kind = .user ∧ isInternalUserText R e.text = true) ∨
    (e.kind ≠ .user ∧ (w.internalTurn = true ∨ e.kind = .commentary ∧ strip e.text = ""))

section Record

variable {span span' : CodexRecordSpan}

lemma applyEvent_of_idle (htakes : w.Takes e) (hkeeps : ¬ w.Discards R e) (hidle : w.Idle R e) :
    w.applyEvent R e span = w := by
  have hprompt : e.kind = .user → isInternalUserText R e.text = true → w.userText ≠ none :=
    fun hkind htext hnone => hkeeps (.context htakes hkind htext hnone)
  unfold CodexWork.Idle at hidle
  rw [CodexWork.applyEvent_of_takes htakes, CodexWork.selected_eq_self hkeeps htakes]
  unfold CodexWork.applyUser CodexWork.applyCommentary
  dsimp only
  split_ifs <;> grind -ring -linarith

/-- A record of the turn that changes it. -/
lemma changed_spec (htakes : w.Takes e) (hkeeps : ¬ w.Discards R e) (hchanges : ¬ w.Idle R e) :
    (w.applyEvent R e span).publicChanged = true ∧
      (w.applyEvent R e span).internalTurn = false ∧
      (w.applyEvent R e span).currentTurnId ≠ "" ∧
      ((w.applyEvent R e span).userText = none → w.userText = none) ∧
      ((w.applyEvent R e span).finalText = none → w.finalText = none) := by
  have hlast : ∀ w' : CodexWork, w'.activeTurnId = w.activeTurnId →
      w'.lastContentTurnId = w.eventTurnId e → w'.currentTurnId ≠ "" := by
    intro w' hactive hlast
    rw [CodexWork.currentTurnId_of_last hactive htakes hlast]
    exact htakes.2.2.1
  unfold CodexWork.Idle at hchanges
  rw [CodexWork.applyEvent_of_takes htakes, CodexWork.selected_eq_self hkeeps htakes]
  unfold CodexWork.applyUser CodexWork.applyCommentary CodexWork.applyFinal
  dsimp only
  split_ifs with huser htext hprompt hinternal hcommentary hblank
  · exact (hchanges (.inl ⟨huser, htext⟩)).elim
  · exact (hchanges (.inl ⟨huser, htext⟩)).elim
  · exact ⟨rfl, rfl, hlast _ rfl rfl, nofun, id⟩
  · exact (hchanges (.inr ⟨huser, .inl hinternal⟩)).elim
  · exact (hchanges (.inr ⟨huser, .inr ⟨hcommentary, hblank⟩⟩)).elim
  · exact ⟨rfl, by simpa using hinternal, hlast _ rfl rfl, id, id⟩
  · exact ⟨rfl, by simpa using hinternal, hlast _ rfl rfl, id, nofun⟩

lemma Forgets.discards (h : Forgets w g) (hg : g.Discards R e) : w.Discards R e := by
  cases hg with
  | start hkind hid => exact .start hkind hid
  | other htakes hactive hcurrent hother =>
    exact .other (h.takes.mpr htakes) (h.active.trans hactive) (h.currentTurnId ▸ hcurrent)
      (by rwa [h.eventTurnId, h.currentTurnId])
  | context htakes hkind htext hprompt =>
    exact .context (h.takes.mpr htakes) hkind htext (h.prompt.elim id (·.trans hprompt))

/-- A work without texts. -/
structure Fresh (w : CodexWork) : Prop where
  internal : w.internalTurn = false
  userText : w.userText = none
  finalText : w.finalText = none

lemma fresh_selected (hactive : w.activeTurnId = "") (hcurrent : w.currentTurnId ≠ "")
    {turnId : String} (hother : turnId ≠ w.currentTurnId) :
    Fresh (w.selected turnId) ∧ (w.selected turnId).publicChanged = w.publicChanged := by
  unfold CodexWork.selected
  rw [if_pos ⟨hactive, hcurrent, hother⟩]
  exact ⟨⟨rfl, rfl, rfl⟩, rfl⟩

/-- A record that makes the work drop its texts. -/
lemma discards_spec (h : Forgets w g) (hdiscards : w.Discards R e)
    (hunchanged : g.publicChanged = false)
    (hblank : e.kind = .commentary → strip e.text = "" → w.publicChanged = false) :
    (w.applyEvent R e span).internalTurn = true ∨
      ((w.applyEvent R e span).publicChanged = (g.applyEvent R e span').publicChanged ∧
        (w.applyEvent R e span).userText = (g.applyEvent R e span').userText ∧
        (w.applyEvent R e span).finalText = (g.applyEvent R e span').finalText) := by
  cases hdiscards with
  | start hkind hid =>
    rw [CodexWork.applyEvent_of_start hkind hid, CodexWork.applyEvent_of_start hkind hid]
    exact .inr ⟨rfl, rfl, rfl⟩
  | other htakes hactive hcurrent hother =>
    rw [CodexWork.applyEvent_of_takes htakes, CodexWork.applyEvent_of_takes (h.takes.mp htakes),
      ← h.eventTurnId]
    obtain ⟨hw, hwpublic⟩ := fresh_selected hactive hcurrent hother
    obtain ⟨hg, hgpublic⟩ := fresh_selected (h.active ▸ hactive) (h.currentTurnId ▸ hcurrent)
      (h.currentTurnId ▸ hother)
    rw [hunchanged] at hgpublic
    rw [← hwpublic] at hblank
    generalize w.selected (w.eventTurnId e) = s at hw hblank
    generalize g.selected (w.eventTurnId e) = t at hg hgpublic
    have hprompt := hw.userText.trans hg.userText.symm
    have hfinal := hw.finalText.trans hg.finalText.symm
    dsimp only
    by_cases huser : e.kind = .user
    · rw [if_pos huser, if_pos huser]
      unfold CodexWork.applyUser
      by_cases htext : isInternalUserText R e.text = true
      · rw [if_pos htext, if_pos hw.userText]
        exact .inl rfl
      · rw [if_neg htext, if_neg htext]
        exact .inr ⟨rfl, rfl, hfinal⟩
    · have hws : ¬ s.internalTurn = true := by simp [hw.internal]
      have hgt : ¬ t.internalTurn = true := by simp [hg.internal]
      rw [if_neg huser, if_neg huser, if_neg hws, if_neg hgt]
      by_cases hcommentary : e.kind = .commentary
      · rw [if_pos hcommentary, if_pos hcommentary]
        unfold CodexWork.applyCommentary
        by_cases hempty : strip e.text = ""
        · rw [if_pos hempty, if_pos hempty]
          exact .inr ⟨(hblank hcommentary hempty).trans hgpublic.symm, hprompt, hfinal⟩
        · rw [if_neg hempty, if_neg hempty]
          exact .inr ⟨rfl, hprompt, hfinal⟩
      · rw [if_neg hcommentary, if_neg hcommentary]
        exact .inr ⟨rfl, hprompt, rfl⟩
  | context htakes hkind htext hprompt =>
    have hnone : (w.selected (w.eventTurnId e)).userText = none := by
      unfold CodexWork.selected
      split_ifs
      · rfl
      · exact hprompt
    rw [CodexWork.applyEvent_of_takes htakes]
    unfold CodexWork.applyUser
    dsimp only
    rw [if_pos hkind, if_pos htext, if_pos hnone]
    exact .inl rfl

end Record

lemma userText_selected (turnId : String) :
    ({ g with publicChanged := false }.selected turnId).userText = (g.selected turnId).userText := by
  unfold CodexWork.selected CodexWork.currentTurnId
  dsimp only
  split_ifs <;> rfl

lemma Forgets.move (h : Forgets w g) (n m : Nat) :
    Forgets { w with committedOffset := n } { g with committedOffset := m } :=
  ⟨h.active, h.last, h.finalSeen, h.complete, h.internal, h.prompt, h.final⟩

lemma publish?_congr (h : Forgets w g)
    (hsame : w.internalTurn = true ∨ (w.publicChanged = g.publicChanged ∧
      w.userText = g.userText ∧ w.finalText = g.finalText))
    (hhidden : g.publicChanged = true →
      isInternalTurnContent R w.shown = isInternalTurnContent R g.shown) :
    views.publish? (w.content R) = views.publish? (g.content R) := by
  obtain hinternal | ⟨hpublic, hprompt, hfinal⟩ := hsame
  · rw [content_of_internal hinternal, content_of_internal (h.internal ▸ hinternal)]
  have hpublish : views.publish w.shown = (views.publish? none).publish g.shown := by
    refine publish_shown_eq h nofun (fun hnone => ⟨?_, nofun⟩) (fun hnone => ⟨?_, nofun⟩)
    · intro text htext
      rw [← hprompt, hnone] at htext
      cases htext
    · intro text htext
      rw [← hfinal, hnone] at htext
      cases htext
  unfold CodexWork.content
  rw [h.internal, hpublic, h.currentTurnId]
  by_cases hchanged : g.publicChanged = true
  · rw [hhidden hchanged]
    split_ifs
    · rfl
    · rfl
    · rw [TurnViews.publish?_some, hpublish, TurnViews.publish?_none, TurnViews.publish?_some]
  · simp [hchanged]

/-- A record that changes the turn of both works. -/
lemma Agrees.changed (h : Agrees R views kept w g) (hafter : Forgets w' g')
    (hw : w'.publicChanged = true ∧ w'.internalTurn = false ∧ w'.currentTurnId ≠ "" ∧
      (w'.userText = none → w.userText = none) ∧ (w'.finalText = none → w.finalText = none))
    (hg : g'.publicChanged = true)
    (hturn : w.currentTurnId ≠ "" → w'.currentTurnId = w.currentTurnId)
    (hhidden : isInternalTurnContent R w'.shown = isInternalTurnContent R g'.shown)
    (hpending : isInternalTurnContent R w'.shown = true →
      ∀ content, w.content R = some content → views.publish content = views)
    (hprompt : ∀ content text, g'.content R = some content → w'.userText = none →
      content.userText = some text → (views content.sourceTurnId).userText = some text)
    (hfinal : ∀ content text, g'.content R = some content → w'.finalText = none →
      content.assistantFinalText = some text →
      (views content.sourceTurnId).finalText = some text) :
    Agrees R views (kept.publish? (g'.content R)) w' g' := by
  obtain ⟨hwpublic, hwinternal, hwcurrent, huser, hfinalText⟩ := hw
  have hgcontent := content_of_shows (R := R) hg (hafter.internal ▸ hwinternal)
    (hafter.currentTurnId ▸ hwcurrent)
  refine ⟨hafter, ?_⟩
  rw [content_of_shows hwpublic hwinternal hwcurrent]
  by_cases hinternal : isInternalTurnContent R w'.shown = true
  · rw [if_pos hinternal, hgcontent, if_pos (hhidden ▸ hinternal), ← h.overlay,
      publish?_of_published (hpending hinternal)]
  · rw [if_neg (hhidden ▸ hinternal)] at hgcontent
    rw [if_neg hinternal, ← h.overlay, hgcontent, TurnViews.publish?_some, TurnViews.publish?_some]
    have hkey : g'.shown.sourceTurnId = w'.sourceTurnId := hafter.sourceTurnId.symm
    refine publish_shown_eq hafter ?_ ?_ ?_
    · intro content hcontent
      obtain ⟨rfl, hcurrent⟩ := content_shown hcontent
      rw [CodexWork.shown_sourceTurnId, CodexWork.sourceTurnId, CodexWork.sourceTurnId,
        hturn hcurrent]
    · refine fun hnone => ⟨fun text htext => ?_, fun content hcontent => ?_⟩
      · rw [← hkey]
        exact hprompt g'.shown text hgcontent hnone htext
      · rw [(content_shown hcontent).1]
        exact huser hnone
    · refine fun hnone => ⟨fun text htext => ?_, fun content hcontent => ?_⟩
      · rw [← hkey]
        exact hfinal g'.shown text hgcontent hnone htext
      · rw [(content_shown hcontent).1]
        exact hfinalText hnone

/-- A record that both readers read alike keeps them in agreement. -/
theorem Agrees.line (h : Agrees R views kept w g)
    (halike : ∀ e, eventOf R raw = some e → ReadsAlike R views w g raw e) :
    Agrees R views (kept.publish? ((g.keepLine R raw).content R)) (w.advanceLine R raw)
      (g.keepLine R raw) := by
  have hforgets : Forgets w { g with publicChanged := false } :=
    ⟨h.forgets.active, h.forgets.last, h.forgets.finalSeen, h.forgets.complete,
      h.forgets.internal, h.forgets.prompt, h.forgets.final⟩
  have hsame : w.advanceLine R raw =
        { w with committedOffset := w.committedOffset + raw.length + 1 } →
      g.keepLine R raw = { g with
        publicChanged := false, committedOffset := g.committedOffset + raw.length + 1 } →
      Agrees R views (kept.publish? ((g.keepLine R raw).content R)) (w.advanceLine R raw)
        (g.keepLine R raw) := by
    intro hw hg
    rw [hw, hg, content_of_unchanged rfl]
    exact ⟨hforgets.move _ _, h.overlay⟩
  cases hevent : eventOf R raw with
  | none =>
    refine hsame ?_ ?_
    · rw [CodexWork.advanceLine, hevent]
      rfl
    · rw [CodexWork.keepLine, CodexWork.advanceLine, hevent]
      rfl
  | some e =>
    have ha := halike e hevent
    obtain ⟨span, hw⟩ : ∃ span, w.advanceLine R raw = { w.applyEvent R e span with
        committedOffset := w.committedOffset + raw.length + 1 } := by
      refine ⟨⟨w.committedOffset, w.committedOffset + raw.length⟩, ?_⟩
      rw [CodexWork.advanceLine, hevent]
      rfl
    obtain ⟨span', hg⟩ : ∃ span', g.keepLine R raw =
        { { g with publicChanged := false }.applyEvent R e span' with
          committedOffset := g.committedOffset + raw.length + 1 } := by
      refine ⟨⟨g.committedOffset, g.committedOffset + raw.length⟩, ?_⟩
      rw [CodexWork.keepLine, CodexWork.advanceLine, hevent]
      rfl
    have hafter : Forgets (w.advanceLine R raw) (g.keepLine R raw) := by
      rw [hw, hg]
      exact (hforgets.applyEvent fun htakes hkind htext hnone =>
        (userText_selected _).trans (ha.context htakes hkind htext hnone)).move _ _
    by_cases hdiscards : w.Discards R e
    · refine ⟨hafter, ?_⟩
      have hviews : views = kept := by
        rw [← h.overlay, publish?_of_published (ha.replaced (.inl hdiscards))]
      rw [← hviews]
      refine publish?_congr hafter ?_ ha.hidden
      rw [hw, hg]
      exact discards_spec hforgets hdiscards rfl (ha.blank hdiscards)
    have hstart : ¬ (e.kind = .start ∧ e.turnId ≠ "") := fun hs => hdiscards (.start hs.1 hs.2)
    have hdiscards' := fun hd => hdiscards (hforgets.discards hd)
    by_cases htakes : w.Takes e
    · have htakes' := hforgets.takes.mp htakes
      have hsameIdle : w.Idle R e ↔ { g with publicChanged := false }.Idle R e := by
        unfold CodexWork.Idle
        rw [← hforgets.internal]
      by_cases hidle : w.Idle R e
      · refine hsame ?_ ?_
        · rw [hw, applyEvent_of_idle htakes hdiscards hidle]
        · rw [hg, applyEvent_of_idle htakes' hdiscards' (hsameIdle.mp hidle)]
      · have hidle' := fun hg => hidle (hsameIdle.mpr hg)
        have hgpublic : (g.keepLine R raw).publicChanged = true := by
          rw [hg]
          exact (changed_spec htakes' hdiscards' hidle').1
        refine h.changed hafter ?_ hgpublic ?_ (ha.hidden hgpublic)
          (fun hinternal => ha.replaced (.inr ⟨hgpublic, hinternal⟩)) ha.prompt ha.final
        · rw [hw]
          exact changed_spec htakes hdiscards hidle
        · rw [hw]
          exact CodexWork.currentTurnId_applyEvent hdiscards
    · refine hsame ?_ ?_
      · rw [hw, CodexWork.applyEvent_of_not_takes hstart htakes]
      · rw [hg, CodexWork.applyEvent_of_not_takes hstart fun ht => htakes (hforgets.takes.mpr ht)]

/-! ### Runs -/

namespace CodexWork

def keepLines (R : CodexRules) (g : CodexWork) (lines : List (List UInt8)) : CodexWork :=
  lines.foldl (keepLine R) g

@[simp] lemma keepLines_nil : g.keepLines R [] = g := rfl

@[simp] lemma keepLines_cons (lines : List (List UInt8)) :
    g.keepLines R (raw :: lines) = (g.keepLine R raw).keepLines R lines := rfl

lemma keepLines_append (lines lines' : List (List UInt8)) :
    g.keepLines R (lines ++ lines') = (g.keepLines R lines).keepLines R lines' :=
  List.foldl_append

end CodexWork

lemma keptViews_append (lines lines' : List (List UInt8)) :
    keptViews R g views (lines ++ lines') =
      keptViews R (g.keepLines R lines) (keptViews R g views lines) lines' := by
  induction lines generalizing g views with
  | nil => rfl
  | cons raw lines ih => simp only [List.cons_append, keptViews, CodexWork.keepLines_cons, ih]

theorem Agrees.lines {lines : List (List UInt8)} (h : Agrees R views kept w g)
    (halike : LinesAlike R views w g lines) :
    Agrees R views (keptViews R g kept lines) (w.advanceLines R lines) (g.keepLines R lines) := by
  induction lines generalizing w g kept with
  | nil => exact h
  | cons raw lines ih => exact ih (h.line halike.1) halike.2

/-- When each poll of a run reads its records as the reader that keeps the texts. -/
def RunAlike (R : CodexRules) (file : List UInt8) (g : CodexWork) (polls : List CodexPoll) : Prop :=
  ∀ (before : List CodexPoll) (p : CodexPoll) (after : List CodexPoll) (w : CodexWork),
    polls = before ++ p :: after → p.before.thaw R (file.take p.size) = .ok w →
    LinesAlike R (runViews before) w
      (g.keepLines R (before.flatMap (CodexPoll.lines file))) (p.lines file)

/-- A checkpoint forgets the texts and has nothing to publish. -/
lemma Agrees.thaw {work : CodexWork} {tail file' : List UInt8} {observed : Nat}
    (h : Agrees R views kept work g)
    (hthaw : (work.ended tail observed).freeze.thaw R file' = .ok w) :
    Agrees R (views.publish? (work.content R)) kept w g := by
  obtain ⟨items, -, hw⟩ := thaw_spec hthaw
  have hunchanged : w.publicChanged = false := by rw [hw]
  refine ⟨?_, by rw [content_of_unchanged hunchanged]; exact h.overlay⟩
  rw [hw]
  exact ⟨h.forgets.active, h.forgets.last, h.forgets.finalSeen, h.forgets.complete,
    h.forgets.internal, .inl rfl, .inl rfl⟩

/-- The overlay of a run is that of its records. -/
theorem runViews_eq {polls : List CodexPoll} (hc : c.Of file) (hstart : c.thaw R file = .ok g)
    (hrun : CodexRun R file c polls c') (halike : RunAlike R file g polls) :
    runViews polls = keptViews R g .empty (polls.flatMap (CodexPoll.lines file)) := by
  suffices hagrees : runViews polls =
        keptViews R g .empty (polls.flatMap (CodexPoll.lines file)) ∧
      ∀ file' w, c'.thaw R file' = .ok w →
        Agrees R (runViews polls) (keptViews R g .empty (polls.flatMap (CodexPoll.lines file))) w
          (g.keepLines R (polls.flatMap (CodexPoll.lines file))) from hagrees.1
  induction hrun with
  | nil =>
    refine ⟨rfl, fun file' w hthaw => ?_⟩
    obtain ⟨items, -, rfl⟩ := thaw_spec hstart
    obtain ⟨items', -, rfl⟩ := thaw_spec hthaw
    exact ⟨⟨rfl, rfl, rfl, rfl, rfl, .inl rfl, .inl rfl⟩, by rw [content_of_unchanged rfl]; rfl⟩
  | @snoc polls p hrun hseen hsize hread ih =>
    obtain ⟨w, hpoll⟩ := readCodexIncremental_spec (hrun.of_file hc) hseen hsize hread
    obtain ⟨-, hbefore⟩ := ih fun before p' after w' hpolls =>
      halike before p' (after ++ [p]) w' (by simp [hpolls])
    have hend := (hbefore _ w hpoll.thawed).lines (halike polls p [] w rfl hpoll.thawed)
    obtain ⟨tail, observed, hafter⟩ := hpoll.after_eq
    have hviews : runViews (polls ++ [p]) = (runViews polls).publish?
        ((w.advanceLines R (p.lines file)).content R) := by
      rw [runViews, List.foldl_append, ← hpoll.content_eq]
      rfl
    rw [List.flatMap_append, List.flatMap_singleton, keptViews_append, CodexWork.keepLines_append,
      hviews, hafter]
    exact ⟨hend.overlay, fun file' w' hthaw => hend.thaw hthaw⟩

/-- Two schedules of polls over a rollout that both catch up give the same overlay, where each
poll reads its records as the reader does that keeps the texts of the turn. -/
theorem schedules_agree {polls₁ polls₂ : List CodexPoll} {c₁ c₂ : CodexCheckpoint}
    (hc : c.Of file) (hstart : c.thaw R file = .ok g)
    (hrun₁ : CodexRun R file c polls₁ c₁) (hrun₂ : CodexRun R file c polls₂ c₂)
    (hcaught₁ : c₁.committedOffset + c₁.partialRecord.length = file.length)
    (hcaught₂ : c₂.committedOffset + c₂.partialRecord.length = file.length)
    (halike₁ : RunAlike R file g polls₁) (halike₂ : RunAlike R file g polls₂) :
    runViews polls₁ = runViews polls₂ := by
  rw [runViews_eq hc hstart hrun₁ halike₁, runViews_eq hc hstart hrun₂ halike₂,
    hrun₁.lines_of_caughtUp hc hcaught₁, hrun₂.lines_of_caughtUp hc hcaught₂]

/-! ### Context behind a prompt -/

/-- A turn whose prompt is followed by internal context. -/
def contextBehindPrompt : List (List UInt8 × Json.Value) :=
  [sampleStart "t1", sampleMessage "user" "hello",
    sampleMessage "user" "<environment_context>", sampleMessage "assistant" "done"]

/-- The poll that reads the whole turn. -/
def wholeTurnPoll : CodexPoll where
  before := emptyCheckpoint
  size := 393
  content := some ⟨some "hello", none, some "done", true, false, "t1"⟩
  after := ⟨393, [], 393, "t1", "t1", false, true, true, false, []⟩

/-- The poll that reads the turn up to its prompt. -/
def promptPoll : CodexPoll where
  before := emptyCheckpoint
  size := 171
  content := some ⟨some "hello", none, none, false, true, "t1"⟩
  after := ⟨171, [], 171, "t1", "t1", true, false, false, false, []⟩

/-- The poll that reads the rest of the turn. -/
def contextPoll : CodexPoll where
  before := promptPoll.after
  size := 393
  content := none
  after := ⟨393, [], 393, "t1", "t1", true, false, false, true, []⟩

lemma contextBehindPrompt_reads : (sampleFile contextBehindPrompt).length = 393 ∧
    ∀ p ∈ [wholeTurnPoll, promptPoll, contextPoll],
      readCodexIncremental (sampleCodexRules contextBehindPrompt)
        ((sampleFile contextBehindPrompt).take p.size) p.before = .ok (p.content, p.after) := by
  decide +kernel

/-- Where a poll ends between the prompt and the context, the final of the turn is not published. -/
theorem contextBehindPrompt_lost :
    CodexRun (sampleCodexRules contextBehindPrompt) (sampleFile contextBehindPrompt)
        emptyCheckpoint [wholeTurnPoll] wholeTurnPoll.after ∧
      CodexRun (sampleCodexRules contextBehindPrompt) (sampleFile contextBehindPrompt)
        emptyCheckpoint [promptPoll, contextPoll] contextPoll.after ∧
      wholeTurnPoll.after.committedOffset = (sampleFile contextBehindPrompt).length ∧
      contextPoll.after.committedOffset = (sampleFile contextBehindPrompt).length ∧
      runViews [wholeTurnPoll] "t1" = ⟨some "hello", some "done", true⟩ ∧
      runViews [promptPoll, contextPoll] "t1" = ⟨some "hello", none, false⟩ := by
  obtain ⟨hlength, hreads⟩ := contextBehindPrompt_reads
  have hsize : ∀ p ∈ [wholeTurnPoll, promptPoll, contextPoll],
      p.size ≤ (sampleFile contextBehindPrompt).length := by
    rw [hlength]
    decide
  have hprompt : CodexRun (sampleCodexRules contextBehindPrompt) (sampleFile contextBehindPrompt)
      emptyCheckpoint [promptPoll] contextPoll.before :=
    .snoc (p := promptPoll) .nil (by decide) (hsize _ (by simp)) (hreads _ (by simp))
  refine ⟨?_, ?_, hlength.symm, hlength.symm, by decide, by decide⟩
  · exact .snoc (p := wholeTurnPoll) .nil (by decide) (hsize _ (by simp)) (hreads _ (by simp))
  · exact .snoc (p := contextPoll) hprompt (by decide) (hsize _ (by simp)) (hreads _ (by simp))

/-! ### A turn read alike -/

lemma advanceLine_of_start (hevent : eventOf R raw = some e) (hkind : e.kind = .start)
    (hid : e.turnId ≠ "") :
    w.advanceLine R raw =
      { w.started e.turnId with committedOffset := w.committedOffset + raw.length + 1 } := by
  rw [CodexWork.advanceLine, hevent, CodexWork.advance, Option.elim,
    CodexWork.applyEvent_of_start hkind hid]

/-- The start of a turn is read alike, unless it replaces a content that is not published. -/
lemma ReadsAlike.of_start (hevent : eventOf R raw = some e) (hkind : e.kind = .start)
    (hid : e.turnId ≠ "")
    (hpublished : ∀ content, w.content R = some content → views.publish content = views) :
    ReadsAlike R views w g raw e := by
  have hw := advanceLine_of_start (w := w) hevent hkind hid
  have hg : g.keepLine R raw = _ := advanceLine_of_start hevent hkind hid
  refine ⟨fun htakes => (htakes.1 hkind).elim, fun _ => hpublished, ?_, ?_, ?_, ?_⟩
  · intro _ hcommentary
    rw [hkind] at hcommentary
    cases hcommentary
  · rw [hw, hg]
    exact fun _ => rfl
  · intro content text hcontent _ htext
    rw [hg] at hcontent
    rw [(content_shown hcontent).1] at htext
    cases htext
  · intro content text hcontent _ htext
    rw [hg] at hcontent
    rw [(content_shown hcontent).1] at htext
    cases htext

/-- A record is read alike where no text is forgotten and nothing is dropped or hidden. -/
lemma ReadsAlike.of_kept (hkeeps : ¬ w.Discards R e)
    (hcontext : isInternalUserText R e.text = false)
    (hvisible : isInternalTurnContent R (w.advanceLine R raw).shown = false)
    (hsame : (w.advanceLine R raw).shown = (g.keepLine R raw).shown) :
    ReadsAlike R views w g raw e := by
  refine ⟨?_, ?_, fun hdiscards => (hkeeps hdiscards).elim, fun _ => by rw [hsame], ?_, ?_⟩
  · intro _ _ htext
    rw [hcontext] at htext
    cases htext
  · rintro (hdiscards | ⟨-, hhidden⟩)
    · exact (hkeeps hdiscards).elim
    · rw [hvisible] at hhidden
      cases hhidden
  · intro content text hcontent hnone htext
    rw [(content_shown hcontent).1, ← hsame] at htext
    exact nomatch hnone.symm.trans htext
  · intro content text hcontent hnone htext
    rw [(content_shown hcontent).1, ← hsame] at htext
    exact nomatch hnone.symm.trans htext

/-- The poll that reads the start of the turn. -/
def startPoll : CodexPoll where
  before := emptyCheckpoint
  size := 70
  content := some ⟨none, none, none, false, true, "t1"⟩
  after := ⟨70, [], 70, "t1", "", true, false, false, false, []⟩

/-- The poll that reads the prompt. -/
def helloPoll : CodexPoll where
  before := startPoll.after
  size := 171
  content := promptPoll.content
  after := promptPoll.after

/-- The first two records of the turn, as they are read. -/
lemma contextBehindPrompt_events :
    eventOf (sampleCodexRules contextBehindPrompt) (sampleStart "t1").1 =
        some ⟨.start, "t1", ""⟩ ∧
      eventOf (sampleCodexRules contextBehindPrompt) (sampleMessage "user" "hello").1 =
        some ⟨.user, "t1", "hello"⟩ ∧
      isInternalUserText (sampleCodexRules contextBehindPrompt) "hello" = false := by
  decide +kernel

/-- The prompt of the turn is read alike, in the poll of its start or behind it. -/
lemma hello_alike (h : w.activeTurnId = "t1" ∧
    (w.advanceLine (sampleCodexRules contextBehindPrompt)
        (sampleMessage "user" "hello").1).shown =
      (g.keepLine (sampleCodexRules contextBehindPrompt) (sampleMessage "user" "hello").1).shown ∧
    isInternalTurnContent (sampleCodexRules contextBehindPrompt)
      (w.advanceLine (sampleCodexRules contextBehindPrompt)
        (sampleMessage "user" "hello").1).shown = false) :
    ∀ e, eventOf (sampleCodexRules contextBehindPrompt) (sampleMessage "user" "hello").1 = some e →
      ReadsAlike (sampleCodexRules contextBehindPrompt) views w g
        (sampleMessage "user" "hello").1 e := by
  intro e hevent
  obtain ⟨hactive, hsame, hvisible⟩ := h
  obtain ⟨-, hhello, hcontext⟩ := contextBehindPrompt_events
  obtain rfl := Option.some.inj (hevent.symm.trans hhello)
  refine .of_kept ?_ hcontext hvisible hsame
  rintro (⟨hkind, -⟩ | ⟨-, hnone, -⟩ | ⟨-, -, htext, -⟩)
  · cases hkind
  · rw [hactive] at hnone
    revert hnone
    decide
  · exact nomatch hcontext.symm.trans htext

lemma start_alike (hunchanged : w.publicChanged = false) :
    ∀ e, eventOf (sampleCodexRules contextBehindPrompt) (sampleStart "t1").1 = some e →
      ReadsAlike (sampleCodexRules contextBehindPrompt) views w g (sampleStart "t1").1 e := by
  intro e hevent
  have hstart := contextBehindPrompt_events.1
  obtain rfl := Option.some.inj (hevent.symm.trans hstart)
  refine .of_start hstart rfl (by decide) ?_
  rw [content_of_unchanged hunchanged]
  exact nofun

lemma promptPolls_reads : (sampleFile (contextBehindPrompt.take 2)).length = 171 ∧
    (∀ p ∈ [promptPoll, startPoll, helloPoll],
      readCodexIncremental (sampleCodexRules contextBehindPrompt)
        ((sampleFile (contextBehindPrompt.take 2)).take p.size) p.before =
          .ok (p.content, p.after)) ∧
    promptPoll.lines (sampleFile (contextBehindPrompt.take 2)) =
      [(sampleStart "t1").1, (sampleMessage "user" "hello").1] ∧
    startPoll.lines (sampleFile (contextBehindPrompt.take 2)) = [(sampleStart "t1").1] ∧
    helloPoll.lines (sampleFile (contextBehindPrompt.take 2)) =
      [(sampleMessage "user" "hello").1] := by
  decide +kernel

/-- The turn up to its prompt, read by one poll and by two. -/
theorem promptPolls_agree : runViews [promptPoll] = runViews [startPoll, helloPoll] := by
  have hc : emptyCheckpoint.Of (sampleFile (contextBehindPrompt.take 2)) :=
    ⟨by decide, List.nil_prefix, Nat.zero_le _⟩
  obtain ⟨hlength, hreads, hlines⟩ := promptPolls_reads
  have hsize : ∀ p ∈ [promptPoll, startPoll, helloPoll],
      p.size ≤ (sampleFile (contextBehindPrompt.take 2)).length := by
    rw [hlength]
    decide
  have hstart : CodexRun (sampleCodexRules contextBehindPrompt)
      (sampleFile (contextBehindPrompt.take 2)) emptyCheckpoint [startPoll] startPoll.after :=
    .snoc (p := startPoll) .nil (by decide) (hsize _ (by simp)) (hreads _ (by simp))
  refine schedules_agree (R := sampleCodexRules contextBehindPrompt) hc rfl
    (.snoc (p := promptPoll) .nil (by decide) (hsize _ (by simp)) (hreads _ (by simp)))
    (.snoc (p := helloPoll) hstart (by decide) (hsize _ (by simp)) (hreads _ (by simp)))
    hlength.symm hlength.symm ?_ ?_
  · intro before p after w hpolls hthaw
    obtain ⟨rfl, rfl⟩ : before = [] ∧ p = promptPoll := by
      cases before with
      | nil => exact ⟨rfl, (List.cons.inj hpolls).1.symm⟩
      | cons d before => simp at hpolls
    cases hthaw
    rw [hlines.1]
    exact ⟨start_alike rfl, hello_alike (by decide +kernel), trivial⟩
  · intro before p after w hpolls hthaw
    obtain ⟨rfl, rfl⟩ | ⟨rfl, rfl⟩ : (before = [] ∧ p = startPoll) ∨
        before = [startPoll] ∧ p = helloPoll := by
      cases before with
      | nil => exact .inl ⟨rfl, (List.cons.inj hpolls).1.symm⟩
      | cons d before =>
        obtain ⟨rfl, hrest⟩ := List.cons.inj hpolls
        cases before with
        | nil => exact .inr ⟨rfl, (List.cons.inj hrest).1.symm⟩
        | cons d before => simp at hrest
    · cases hthaw
      rw [hlines.2.1]
      exact ⟨start_alike rfl, trivial⟩
    · cases hthaw
      rw [hlines.2.2, List.flatMap_singleton, hlines.2.1]
      exact ⟨hello_alike (by decide +kernel), trivial⟩

end Tendwire

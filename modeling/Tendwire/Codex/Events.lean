import Tendwire.Codex.Polls

/-!
# Events of a rollout

What one event does to the work of a poll. A text that the work holds goes only with an event
that discards it.
-/

namespace Tendwire

variable {R : CodexRules} {w : CodexWork} {e : CodexSemanticEvent} {span : CodexRecordSpan}

namespace CodexWork

/-- The turn that a record is of. -/
def eventTurnId (w : CodexWork) (e : CodexSemanticEvent) : String :=
  if e.turnId != "" then e.turnId else w.activeTurnId

def sourceTurnId (w : CodexWork) : String := prefixChars 160 w.currentTurnId

@[simp] lemma shown_sourceTurnId : w.shown.sourceTurnId = w.sourceTurnId := rfl

/-- Whether the work takes a record of a turn. -/
def Takes (w : CodexWork) (e : CodexSemanticEvent) : Prop :=
  e.kind ≠ .start ∧ e.kind ≠ .completeEmpty ∧ w.eventTurnId e ≠ "" ∧
    (w.activeTurnId = "" ∨ w.eventTurnId e = w.activeTurnId)

instance : Decidable (w.Takes e) := inferInstanceAs (Decidable (_ ∧ _ ∧ _ ∧ _))

/-- Whether a record makes the work drop the texts that it holds: it starts a turn, it is of
another turn where none is active, or it is internal context without a prompt before it. -/
inductive Discards (R : CodexRules) (w : CodexWork) (e : CodexSemanticEvent) : Prop
  | start (hkind : e.kind = .start) (hid : e.turnId ≠ "")
  | other (htakes : w.Takes e) (hactive : w.activeTurnId = "") (hcurrent : w.currentTurnId ≠ "")
      (hother : w.eventTurnId e ≠ w.currentTurnId)
  | context (htakes : w.Takes e) (hkind : e.kind = .user)
      (htext : isInternalUserText R e.text = true) (hprompt : w.userText = none)

/-- The turn and the text of a final that the work accepts. -/
def acceptedFinal (w : CodexWork) (e : CodexSemanticEvent) : Option (String × String) :=
  if e.kind = .final ∧ w.Takes e ∧ (w.selected (w.eventTurnId e)).internalTurn = false then
    some (prefixChars 160 (w.eventTurnId e), e.text)
  else none

lemma applyEvent_of_start (hkind : e.kind = .start) (hid : e.turnId ≠ "") :
    w.applyEvent R e span = w.started e.turnId := by
  simp only [applyEvent, hkind, hid, if_true, if_false]

lemma kind_eq_final (h : w.Takes e) (huser : e.kind ≠ .user) (hcommentary : e.kind ≠ .commentary) :
    e.kind = .final := by
  obtain ⟨hstart, hempty, -⟩ := h
  cases hkind : e.kind <;> first | rfl | contradiction

/-- A record that the work takes. -/
lemma applyEvent_of_takes (h : w.Takes e) :
    w.applyEvent R e span =
      let s := w.selected (w.eventTurnId e)
      if e.kind = .user then s.applyUser R (w.eventTurnId e) e.text
      else if s.internalTurn then s
      else if e.kind = .commentary then s.applyCommentary (w.eventTurnId e) e.text span
      else s.applyFinal (w.eventTurnId e) e.text := by
  obtain ⟨hstart, hempty, hid, hactive⟩ := h
  unfold eventTurnId at hid hactive ⊢
  have hactive' : ¬ (w.activeTurnId ≠ "" ∧
      (if e.turnId != "" then e.turnId else w.activeTurnId) ≠ w.activeTurnId) := by
    rintro ⟨h₁, h₂⟩
    exact hactive.elim h₁ h₂
  unfold applyEvent
  dsimp only
  rw [if_neg hstart, if_neg (not_or.mpr ⟨hid, hempty⟩), if_neg hactive']

/-- A record that the work does not take. -/
lemma applyEvent_of_not_takes (hstart : ¬ (e.kind = .start ∧ e.turnId ≠ "")) (h : ¬ w.Takes e) :
    w.applyEvent R e span = w := by
  by_cases hkind : e.kind = .start
  · have hid : e.turnId = "" := by
      by_contra hid
      exact hstart ⟨hkind, hid⟩
    simp only [applyEvent, hkind, hid, if_true]
  have htaken := fun hempty hid hactive => h ⟨hkind, hempty, hid, hactive⟩
  unfold eventTurnId at htaken
  unfold applyEvent
  dsimp only
  rw [if_neg hkind]
  split_ifs with h₁ h₂ h₂ h₃ h₄ <;> grind -ring -linarith

lemma selected_eq_self (h : ¬ w.Discards R e) (htakes : w.Takes e) :
    w.selected (w.eventTurnId e) = w := by
  unfold selected
  rw [if_neg]
  rintro ⟨hactive, hcurrent, hother⟩
  exact h (.other htakes hactive hcurrent hother)

/-- A record of the turn of the work does not change which turn it is. -/
lemma eventTurnId_eq (h : ¬ w.Discards R e) (htakes : w.Takes e) (hcurrent : w.currentTurnId ≠ "") :
    w.eventTurnId e = w.currentTurnId := by
  by_contra hother
  by_cases hactive : w.activeTurnId = ""
  · exact h (.other htakes hactive hcurrent hother)
  · refine hother ?_
    rw [htakes.2.2.2.resolve_left hactive]
    simp [currentTurnId, hactive]

lemma currentTurnId_of_last {w' : CodexWork} (hactive : w'.activeTurnId = w.activeTurnId)
    (htakes : w.Takes e) (hlast : w'.lastContentTurnId = w.eventTurnId e) :
    w'.currentTurnId = w.eventTurnId e := by
  unfold currentTurnId
  rw [hactive, hlast]
  obtain h | h := htakes.2.2.2
  · simp [h]
  · by_cases h' : w.activeTurnId = ""
    · simp [h']
    · simp [h', h]

/-- A record that discards nothing leaves the turn of the work. -/
lemma currentTurnId_applyEvent (h : ¬ w.Discards R e) (hcurrent : w.currentTurnId ≠ "") :
    (w.applyEvent R e span).currentTurnId = w.currentTurnId := by
  by_cases htakes : w.Takes e
  · have hlast : ∀ w' : CodexWork, w'.activeTurnId = w.activeTurnId →
        w'.lastContentTurnId = w.eventTurnId e → w'.currentTurnId = w.currentTurnId :=
      fun w' hactive hlast =>
        (currentTurnId_of_last hactive htakes hlast).trans (eventTurnId_eq h htakes hcurrent)
    rw [applyEvent_of_takes htakes, selected_eq_self h htakes]
    dsimp only
    unfold applyUser applyCommentary applyFinal
    split_ifs <;> first | rfl | exact hlast _ rfl rfl
  · rw [applyEvent_of_not_takes (fun hs => h (.start hs.1 hs.2)) htakes]

section Accepted

variable {key text : String}

/-- An accepted final becomes the text that the work holds. -/
lemma accepted_spec (h : w.acceptedFinal e = some (key, text)) :
    (w.applyEvent R e span).finalText = some text ∧ (w.applyEvent R e span).sourceTurnId = key ∧
      (w.applyEvent R e span).currentTurnId ≠ "" ∧
      (w.applyEvent R e span).publicChanged = true ∧
      (w.applyEvent R e span).internalTurn = false := by
  unfold acceptedFinal at h
  split at h
  · next hfinal =>
    obtain ⟨hkind, htakes, hinternal⟩ := hfinal
    cases h
    have happly : w.applyEvent R e span =
        (w.selected (w.eventTurnId e)).applyFinal (w.eventTurnId e) e.text := by
      rw [applyEvent_of_takes htakes]
      simp [hkind, hinternal]
    have hactive : (w.applyEvent R e span).activeTurnId = w.activeTurnId := by
      rw [happly]
      unfold applyFinal selected
      split_ifs <;> rfl
    have hcurrent := currentTurnId_of_last hactive htakes (by rw [happly]; rfl)
    refine ⟨by rw [happly]; rfl, by rw [sourceTurnId, hcurrent], ?_, by rw [happly]; rfl, ?_⟩
    · rw [hcurrent]
      exact htakes.2.2.1
    · rw [happly]
      exact hinternal
  · cases h

lemma sourceTurnId_eq_of_accepted (h : w.acceptedFinal e = some (key, text))
    (hkeeps : ¬ w.Discards R e) (hcurrent : w.currentTurnId ≠ "") : w.sourceTurnId = key := by
  unfold acceptedFinal at h
  split at h
  · next hfinal =>
    cases h
    rw [sourceTurnId, eventTurnId_eq hkeeps hfinal.2.1 hcurrent]
  · cases h

lemma finalText_of_discards (h : w.acceptedFinal e = none) (hdiscards : w.Discards R e) :
    (w.applyEvent R e span).finalText = none := by
  have hselected : w.Takes e → (w.selected (w.eventTurnId e)).finalText = none →
      (w.applyEvent R e span).finalText = none := by
    intro htakes hnone
    have hfinal := kind_eq_final htakes
    unfold acceptedFinal at h
    rw [applyEvent_of_takes htakes]
    unfold applyUser applyCommentary applyFinal
    dsimp only
    split_ifs <;> first | rfl | exact hnone | grind -ring -linarith
  cases hdiscards with
  | start hkind hid => rw [applyEvent_of_start hkind hid]; rfl
  | other htakes hactive hcurrent hother =>
    refine hselected htakes ?_
    unfold selected
    rw [if_pos ⟨hactive, hcurrent, hother⟩]
  | context htakes hkind htext hprompt =>
    rw [applyEvent_of_takes htakes]
    unfold applyUser selected
    dsimp only
    split_ifs <;> rfl

/-- A record that discards nothing and has no accepted final leaves the final text. -/
lemma keeps_of_not_discards (h : w.acceptedFinal e = none) (hkeeps : ¬ w.Discards R e) :
    (w.applyEvent R e span).finalText = w.finalText ∧
      (w.publicChanged = true → (w.applyEvent R e span).publicChanged = true) ∧
      (w.internalTurn = false → (w.applyEvent R e span).internalTurn = false) := by
  by_cases htakes : w.Takes e
  · have hselected := selected_eq_self hkeeps htakes
    have hcontext : e.kind = .user → isInternalUserText R e.text = true → w.userText ≠ none :=
      fun hkind htext hprompt => hkeeps (.context htakes hkind htext hprompt)
    unfold acceptedFinal at h
    rw [applyEvent_of_takes htakes, hselected]
    rw [hselected] at h
    unfold applyUser applyCommentary applyFinal
    dsimp only
    have hfinal := kind_eq_final htakes
    split_ifs <;> grind -ring -linarith
  · rw [applyEvent_of_not_takes (fun hs => hkeeps (.start hs.1 hs.2)) htakes]
    exact ⟨rfl, id, id⟩

end Accepted

end CodexWork

end Tendwire

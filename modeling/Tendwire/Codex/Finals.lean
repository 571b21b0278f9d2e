import Tendwire.Codex.Events

/-!
# Finals of a rollout

A poll ends with the first final of a turn and publishes it. A later final of the turn waits for
the end of the poll, where the texts that the poll holds are published.
-/

namespace Tendwire

variable {R : CodexRules} {file : List UInt8} {w w' : CodexWork} {c c' : CodexCheckpoint}
  {e : CodexSemanticEvent} {raw : List UInt8} {key text : String} {β : Type*}

/-! ### The last entry of a key -/

/-- The last value that a history has for a key. -/
def lastFor (key : String) (history : List (String × β)) : Option β :=
  ((history.filter fun entry => entry.1 == key).getLast?).map Prod.snd

@[simp] lemma lastFor_nil : lastFor key ([] : List (String × β)) = none := rfl

lemma lastFor_concat (history : List (String × β)) (k : String) (v : β) :
    lastFor key (history ++ [(k, v)]) = if k = key then some v else lastFor key history := by
  unfold lastFor
  by_cases h : k = key
  · simp [h]
  · simp [h]

/-- The content published last for a turn carries a final text. -/
def Carries (published : List (String × CodexContent)) (key text : String) : Prop :=
  ∃ content, lastFor key published = some content ∧ content.assistantFinalText = some text

/-! ### Runs -/

/-- The finals that are accepted from some records, with their turns. -/
def acceptedFinals (R : CodexRules) (w : CodexWork) : List (List UInt8) → List (String × String)
  | [] => []
  | raw :: rest =>
    ((eventOf R raw).bind w.acceptedFinal).toList ++ acceptedFinals R (w.advanceLine R raw) rest

def CodexPoll.finals (R : CodexRules) (file : List UInt8) (p : CodexPoll) :
    List (String × String) :=
  ((p.before.thaw R (file.take p.size)).toOption.map fun w =>
    acceptedFinals R w (p.lines file)).getD []

/-- The finals accepted in a run of polls. -/
def runFinals (R : CodexRules) (file : List UInt8) (polls : List CodexPoll) :
    List (String × String) :=
  polls.flatMap (CodexPoll.finals R file)

/-- The content that a poll publishes, with its turn. -/
def CodexPoll.published (p : CodexPoll) : List (String × CodexContent) :=
  (p.content.map fun content => (content.sourceTurnId, content)).toList

def runPublished (polls : List CodexPoll) : List (String × CodexContent) :=
  polls.flatMap CodexPoll.published

/-- What the records discard has been published: a record that starts a turn, is of another turn
or is context before the prompt drops the final text that the poll holds. -/
def DiscardsPublished (R : CodexRules) (published : List (String × CodexContent)) :
    CodexWork → List (List UInt8) → Prop
  | _, [] => True
  | w, raw :: rest =>
    (∀ e text, eventOf R raw = some e → w.Discards R e → w.finalText = some text →
      Carries published w.sourceTurnId text) ∧
    DiscardsPublished R published (w.advanceLine R raw) rest

/-- When a poll that reads some records keeps their finals. -/
structure KeepsFinals (R : CodexRules) (published : List (String × CodexContent))
    (finals : List (String × String)) (w : CodexWork) (lines : List (List UInt8)) : Prop where
  discarded : DiscardsPublished R published w lines
  /-- A final text that the poll holds at its end is no internal content, or it has been
  published. -/
  hidden : ∀ text, (w.advanceLines R lines).finalText = some text →
    isInternalTurnContent R (w.advanceLines R lines).shown = true →
    Carries published (w.advanceLines R lines).sourceTurnId text
  /-- Where the poll holds no final text, it changes no turn that has had a final. -/
  settled : (w.advanceLines R lines).finalText = none →
    (w.advanceLines R lines).publicChanged = true →
    (w.advanceLines R lines).internalTurn = false →
    isInternalTurnContent R (w.advanceLines R lines).shown = false →
    lastFor (w.advanceLines R lines).sourceTurnId (finals ++ acceptedFinals R w lines) = none

/-! ### One record -/

/-- The last finals of the turns are held by the work or were published. -/
structure HoldsFinals (published : List (String × CodexContent)) (finals : List (String × String))
    (w : CodexWork) : Prop where
  shows : ∀ text, w.finalText = some text →
    w.currentTurnId ≠ "" ∧ w.publicChanged = true ∧ w.internalTurn = false
  own : ∀ text, w.finalText = some text → lastFor w.sourceTurnId finals = some text
  kept : ∀ key text, lastFor key finals = some text →
    (w.finalText = some text ∧ w.sourceTurnId = key) ∨ Carries published key text

variable {published : List (String × CodexContent)} {finals : List (String × String)}

lemma HoldsFinals.of_same (h : HoldsFinals published finals w) (hfinal : w'.finalText = w.finalText)
    (hturn : w.currentTurnId ≠ "" → w'.currentTurnId = w.currentTurnId)
    (hchanged : w.publicChanged = true → w'.publicChanged = true)
    (hinternal : w.internalTurn = false → w'.internalTurn = false) :
    HoldsFinals published finals w' := by
  have hkey : ∀ text, w.finalText = some text → w'.sourceTurnId = w.sourceTurnId := by
    intro text htext
    rw [CodexWork.sourceTurnId, hturn (h.shows text htext).1, CodexWork.sourceTurnId]
  refine ⟨?_, ?_, ?_⟩
  · intro text htext
    rw [hfinal] at htext
    obtain ⟨hcurrent, hpublic, hno⟩ := h.shows text htext
    exact ⟨by rwa [hturn hcurrent], hchanged hpublic, hinternal hno⟩
  · intro text htext
    rw [hfinal] at htext
    rw [hkey text htext]
    exact h.own text htext
  · intro key text hlast
    obtain ⟨htext, hown⟩ | hcarries := h.kept key text hlast
    · exact .inl ⟨by rw [hfinal, htext], by rw [hkey text htext, hown]⟩
    · exact .inr hcarries

/-- A record keeps the finals, unless it discards one that is not published. -/
theorem HoldsFinals.advanceLine (h : HoldsFinals published finals w)
    (hdiscarded : ∀ e text, eventOf R raw = some e → w.Discards R e → w.finalText = some text →
      Carries published w.sourceTurnId text) :
    HoldsFinals published (finals ++ ((eventOf R raw).bind w.acceptedFinal).toList)
      (w.advanceLine R raw) := by
  unfold CodexWork.advanceLine CodexWork.advance
  generalize (⟨w.committedOffset, w.committedOffset + raw.length⟩ : CodexRecordSpan) = span
  suffices hsame : HoldsFinals published
      (finals ++ ((eventOf R raw).bind w.acceptedFinal).toList)
      ((eventOf R raw).elim w fun e => w.applyEvent R e span) from
    hsame.of_same rfl (fun _ => rfl) id id
  cases hevent : eventOf R raw with
  | none => simpa using h
  | some e =>
    dsimp only [Option.elim, Option.bind]
    cases haccepted : w.acceptedFinal e with
    | none =>
      by_cases hdiscards : w.Discards R e
      · -- what is dropped was published, so that nothing is held any more
        have hnone : ∀ text, (w.applyEvent R e span).finalText ≠ some text := by
          intro text htext
          rw [CodexWork.finalText_of_discards haccepted hdiscards] at htext
          cases htext
        refine ⟨fun text h => (hnone text h).elim, fun text h => (hnone text h).elim, ?_⟩
        intro key text hlast
        rw [Option.toList_none, List.append_nil] at hlast
        obtain ⟨htext, rfl⟩ | hcarries := h.kept key text hlast
        · exact .inr (hdiscarded e text hevent hdiscards htext)
        · exact .inr hcarries
      · obtain ⟨hfinal, hpublic, hinternal⟩ := CodexWork.keeps_of_not_discards haccepted hdiscards
        rw [Option.toList_none, List.append_nil]
        exact h.of_same hfinal (CodexWork.currentTurnId_applyEvent hdiscards) hpublic hinternal
    | some entry =>
      obtain ⟨key, text⟩ := entry
      obtain ⟨htext, hkey, hcurrent, hpublic, hinternal⟩ :=
        @CodexWork.accepted_spec R _ _ span _ _ haccepted
      rw [Option.toList_some]
      refine ⟨fun _ _ => ⟨hcurrent, hpublic, hinternal⟩, ?_, ?_⟩
      · intro text' htext'
        rw [lastFor_concat, if_pos hkey.symm, ← htext, htext']
      · intro key' text' hlast
        rw [lastFor_concat] at hlast
        split at hlast
        · next heq =>
          exact .inl ⟨htext.trans hlast, hkey.trans heq⟩
        · next hne =>
          obtain ⟨hheld, rfl⟩ | hcarries := h.kept key' text' hlast
          · by_cases hdiscards : w.Discards R e
            · exact .inr (hdiscarded e text' hevent hdiscards hheld)
            · refine (hne ?_).elim
              exact (CodexWork.sourceTurnId_eq_of_accepted haccepted hdiscards
                (h.shows text' hheld).1).symm
          · exact .inr hcarries

theorem HoldsFinals.advanceLines {lines : List (List UInt8)} (h : HoldsFinals published finals w)
    (hdiscarded : DiscardsPublished R published w lines) :
    HoldsFinals published (finals ++ acceptedFinals R w lines) (w.advanceLines R lines) := by
  induction lines generalizing w finals with
  | nil => simpa [acceptedFinals] using h
  | cons raw lines ih =>
    rw [acceptedFinals, ← List.append_assoc, CodexWork.advanceLines_cons]
    exact ih (h.advanceLine hdiscarded.1) hdiscarded.2

/-! ### Polls -/

/-- The contents published last carry the last finals of their turns. -/
def Current (published : List (String × CodexContent)) (finals : List (String × String)) : Prop :=
  ∀ key text, lastFor key finals = some text → Carries published key text

lemma content_eq_some {content : CodexContent} (h : w.content R = some content) :
    content = w.shown ∧ w.publicChanged = true ∧ w.internalTurn = false ∧
      isInternalTurnContent R w.shown = false := by
  unfold CodexWork.content at h
  split_ifs at h with hguard hhidden
  cases h
  simp only [Bool.or_eq_true, Bool.not_eq_true', not_or] at hguard
  exact ⟨rfl, by simpa using hguard.1.2, by simpa using hguard.1.1, by simpa using hhidden⟩

/-- A poll that keeps its finals publishes them. -/
theorem Current.poll {p : CodexPoll} (h : Current published finals) (hpoll : PollRead R file p w)
    (hkeeps : KeepsFinals R published finals w (p.lines file)) :
    Current (published ++ p.published) (finals ++ acceptedFinals R w (p.lines file)) := by
  have hthawed : HoldsFinals published finals w := by
    obtain ⟨items, -, rfl⟩ := thaw_spec hpoll.thawed
    exact ⟨nofun, nofun, fun key text hlast => .inr (h key text hlast)⟩
  have hheld := hthawed.advanceLines hkeeps.discarded
  have hcontent := hpoll.content_eq
  obtain ⟨-, hhidden, hsettled⟩ := hkeeps
  generalize w.advanceLines R (p.lines file) = read at hheld hcontent hhidden hsettled
  intro key text hlast
  have hkept := hheld.kept key text hlast
  rw [CodexPoll.published, hcontent]
  cases hshown : read.content R with
  | none =>
    rw [Option.map_none, Option.toList_none, List.append_nil]
    obtain ⟨htext, rfl⟩ | hcarries := hkept
    · -- a final text that is held is shown unless it is internal content
      obtain ⟨hcurrent, hpublic, hinternal⟩ := hheld.shows text htext
      refine hhidden text htext ?_
      by_contra hvisible
      simp [CodexWork.content, hcurrent, hpublic, hinternal, hvisible] at hshown
    · exact hcarries
  | some content =>
    obtain ⟨rfl, hpublic, hinternal, hvisible⟩ := content_eq_some hshown
    rw [Option.map_some, Option.toList_some, Carries, lastFor_concat]
    by_cases hkey : read.shown.sourceTurnId = key
    · rw [if_pos hkey]
      refine ⟨read.shown, rfl, ?_⟩
      rw [CodexWork.shown_sourceTurnId] at hkey
      subst hkey
      change read.finalText = some text
      cases hfinal : read.finalText with
      | none =>
        rw [hsettled hfinal hpublic hinternal hvisible] at hlast
        cases hlast
      | some held => rw [← hheld.own held hfinal, hlast]
    · rw [if_neg hkey]
      obtain ⟨-, hown⟩ | hcarries := hkept
      · exact (hkey hown).elim
      · exact hcarries

/-- In a run of polls that keep their finals, each turn that had a final was published last with
the text of its last one. Where the run has read the whole file, these are the finals of all of
its records. -/
theorem finals_published {polls : List CodexPoll} (hc : c.Of file)
    (hrun : CodexRun R file c polls c')
    (hkeeps : ∀ (before : List CodexPoll) (p : CodexPoll) (after : List CodexPoll) (w : CodexWork),
      polls = before ++ p :: after → p.before.thaw R (file.take p.size) = .ok w →
      KeepsFinals R (runPublished before) (runFinals R file before) w (p.lines file)) :
    Current (runPublished polls) (runFinals R file polls) ∧
      (c'.committedOffset + c'.partialRecord.length = file.length →
        polls.flatMap (CodexPoll.lines file) =
          Framing.records 10 (file.drop c.committedOffset)) := by
  refine ⟨?_, hrun.lines_of_caughtUp hc⟩
  induction hrun with
  | nil => exact nofun
  | @snoc polls p hrun hseen hsize hread ih =>
    obtain ⟨w, hpoll⟩ := readCodexIncremental_spec (hrun.of_file hc) hseen hsize hread
    have hbefore := ih fun before p' after w' hpolls =>
      hkeeps before p' (after ++ [p]) w' (by simp [hpolls])
    have hfinals : runFinals R file (polls ++ [p]) =
        runFinals R file polls ++ acceptedFinals R w (p.lines file) := by
      unfold runFinals CodexPoll.finals
      rw [List.flatMap_append, List.flatMap_singleton, hpoll.thawed]
      rfl
    rw [runPublished, List.flatMap_append, List.flatMap_singleton, hfinals]
    exact hbefore.poll hpoll (hkeeps polls p [] w rfl hpoll.thawed)

/-! ### A repeated final -/

def jsonText (s : String) : List Char := '"' :: s.toList ++ ['"']

def jsonObject (fields : List (String × List Char)) : List Char :=
  Char.ofNat 123 :: [','].intercalate (fields.map fun field => jsonText field.1 ++ ':' :: field.2) ++
    [Char.ofNat 125]

/-- A record of texts as it stands in a rollout, and its value. -/
def sampleRecord (type : String) (payload : List (String × String)) : List UInt8 × Json.Value :=
  ((jsonObject [("type", jsonText type),
      ("payload", jsonObject (payload.map fun field => (field.1, jsonText field.2)))]).map
        fun c => c.toNat.toUInt8,
    .object [("type", .text type),
      ("payload", .object (payload.map fun field => (field.1, .text field.2)))])

def sampleStart (turnId : String) : List UInt8 × Json.Value :=
  sampleRecord "event_msg" [("type", "task_started"), ("turn_id", turnId)]

def sampleMessage (role text : String) : List UInt8 × Json.Value :=
  sampleRecord "response_item"
    [("type", "message"), ("role", role), ("turn_id", "t1"), ("message", text)]

/-- Decoding of the records of a sample. No text of a sample is one of automation. -/
def sampleCodexRules (records : List (List UInt8 × Json.Value)) : CodexRules where
  decode raw := (records.find? fun r => r.1 == raw).map Prod.snd
  str _ := ""
  looksLikeAutomationUserText _ := false
  looksLikeAutomationResultText _ := false
  promptlessStatusFinal _ := false

def sampleFile (records : List (List UInt8 × Json.Value)) : List UInt8 :=
  Framing.join 10 (records.map Prod.fst)

/-- The checkpoint of an empty rollout. -/
def emptyCheckpoint : CodexCheckpoint := ⟨0, [], 0, "", "", false, false, false, false, []⟩

/-- A turn with two finals, before the next turn starts. -/
def repeatedFinal : List (List UInt8 × Json.Value) :=
  [sampleStart "t1", sampleMessage "user" "hello", sampleMessage "assistant" "first",
    sampleMessage "assistant" "second", sampleStart "t2"]

/-- The poll that ends with the first final. -/
def firstFinalPoll : CodexPoll where
  before := emptyCheckpoint
  size := 454
  content := some ⟨some "hello", none, some "first", true, false, "t1"⟩
  after := ⟨277, [], 277, "t1", "t1", false, true, true, false, []⟩

/-- The poll that reads the rest of the file. -/
def nextTurnPoll : CodexPoll where
  before := firstFinalPoll.after
  size := 454
  content := some ⟨none, none, none, false, true, "t2"⟩
  after := ⟨454, [], 454, "t2", "", true, false, false, false, []⟩

lemma repeatedFinal_reads : (sampleFile repeatedFinal).length = 454 ∧
    ∀ p ∈ [firstFinalPoll, nextTurnPoll],
      readCodexIncremental (sampleCodexRules repeatedFinal)
        ((sampleFile repeatedFinal).take p.size) p.before = .ok (p.content, p.after) := by
  decide +kernel

lemma firstFinalPoll_run : CodexRun (sampleCodexRules repeatedFinal) (sampleFile repeatedFinal)
    emptyCheckpoint [firstFinalPoll] firstFinalPoll.after :=
  .snoc (p := firstFinalPoll) .nil (by decide) (Nat.le_of_eq repeatedFinal_reads.1.symm)
    (repeatedFinal_reads.2 _ (by simp))

/-- The finals that the polls read, of which the first one only is in their contents. -/
lemma repeatedFinal_finals :
    lastFor "t1" (runFinals (sampleCodexRules repeatedFinal) (sampleFile repeatedFinal)
        [firstFinalPoll, nextTurnPoll]) = some "second" ∧
      lastFor "t1" (runFinals (sampleCodexRules repeatedFinal) (sampleFile repeatedFinal)
        [firstFinalPoll]) = some "first" ∧
      lastFor "t1" (runPublished [firstFinalPoll, nextTurnPoll]) = firstFinalPoll.content := by
  decide +kernel

/-- The second final of a turn is read with the start of the next turn and never published. -/
theorem repeatedFinal_lost :
    CodexRun (sampleCodexRules repeatedFinal) (sampleFile repeatedFinal) emptyCheckpoint
        [firstFinalPoll, nextTurnPoll] nextTurnPoll.after ∧
      nextTurnPoll.after.committedOffset + nextTurnPoll.after.partialRecord.length =
        (sampleFile repeatedFinal).length ∧
      lastFor "t1" (runFinals (sampleCodexRules repeatedFinal) (sampleFile repeatedFinal)
        [firstFinalPoll, nextTurnPoll]) = some "second" ∧
      ¬ Carries (runPublished [firstFinalPoll, nextTurnPoll]) "t1" "second" := by
  obtain ⟨hlength, hreads⟩ := repeatedFinal_reads
  obtain ⟨hfinal, -, hpublished⟩ := repeatedFinal_finals
  refine ⟨.snoc (p := nextTurnPoll) firstFinalPoll_run (by decide) (Nat.le_of_eq hlength.symm)
    (hreads _ (by simp)), hlength.symm, hfinal, ?_⟩
  rintro ⟨content, hlast, htext⟩
  rw [hlast] at hpublished
  cases hpublished
  revert htext
  decide

/-- The first final of the turn is published. -/
theorem firstFinal_published : Carries (runPublished [firstFinalPoll]) "t1" "first" := by
  have hc : emptyCheckpoint.Of (sampleFile repeatedFinal) :=
    ⟨by decide, List.nil_prefix, Nat.zero_le _⟩
  refine (finals_published hc firstFinalPoll_run ?_).1 "t1" "first" repeatedFinal_finals.2.1
  intro before p after w hpolls hthaw
  obtain ⟨rfl, rfl⟩ : before = [] ∧ p = firstFinalPoll := by
    cases before with
    | nil => exact ⟨rfl, (List.cons.inj hpolls).1.symm⟩
    | cons d before => simp at hpolls
  have hlines : firstFinalPoll.lines (sampleFile repeatedFinal) =
      [(sampleStart "t1").1, (sampleMessage "user" "hello").1,
        (sampleMessage "assistant" "first").1] := by
    decide +kernel
  obtain ⟨items, hitems, rfl⟩ := thaw_spec hthaw
  cases hitems
  rw [hlines]
  set lines := [(sampleStart "t1").1, (sampleMessage "user" "hello").1,
    (sampleMessage "assistant" "first").1]
  set w : CodexWork := ⟨0, [], ((sampleFile repeatedFinal).take 454).length, "", "", false, false,
    false, false, [], none, none, false⟩
  obtain ⟨hnone, hfinal, hvisible⟩ : (∀ n : Fin 3, (w.advanceLines (sampleCodexRules repeatedFinal)
      (lines.take n)).finalText = none) ∧
      (w.advanceLines (sampleCodexRules repeatedFinal) lines).finalText = some "first" ∧
      isInternalTurnContent (sampleCodexRules repeatedFinal)
        (w.advanceLines (sampleCodexRules repeatedFinal) lines).shown = false := by decide +kernel
  refine ⟨⟨?_, ?_, ?_, trivial⟩, ?_, ?_⟩
  · exact fun _ _ _ _ htext => nomatch (hnone 0).symm.trans htext
  · exact fun _ _ _ _ htext => nomatch (hnone 1).symm.trans htext
  · exact fun _ _ _ _ htext => nomatch (hnone 2).symm.trans htext
  · exact fun _ _ hhidden => nomatch hvisible.symm.trans hhidden
  · exact fun hnone => nomatch hfinal.symm.trans hnone

end Tendwire

import Tendwire.Codex.Finals
import Tendwire.Omp.Replay

/-!
# Finals of a session

A poll publishes the turn of the last prompt that it reads. The final of a turn is published where
a poll ends between its stop message and the next prompt.
-/

namespace Tendwire

open Framing

variable {R : OmpRules} {file line prompt stop : List UInt8} {size : Nat} {c : OmpSessionState}
  {state : OmpTurnState} {before between rest more : List (List UInt8)} {id text : String}

/-! ### Turns -/

/-- The text of a stop message of the assistant. -/
def ompFinalText (R : OmpRules) (line : List UInt8) : Option String :=
  (ompMessageEntryFromLine R line).bind fun parsed =>
    if textOrEmpty R.texts (parsed.2.get? "role") = "assistant" ∧
        textOrEmpty R.texts (parsed.2.get? "stopReason") = "stop" ∧
        ompMessageText R parsed.2 ≠ "" then
      some (ompMessageText R parsed.2)
    else none

/-- A prompt with an id, and the stop message that ends its turn. -/
structure OmpTurn (R : OmpRules) (id text : String) (prompt : List UInt8)
    (between : List (List UInt8)) (stop : List UInt8) : Prop where
  isPrompt : isOmpPrompt R prompt = true
  named : ∃ entry message, ompMessageEntryFromLine R prompt = some (entry, message) ∧
    textOrEmpty R.texts (entry.get? "id") = id ∧ id ≠ ""
  noFinal : ∀ line ∈ between, isOmpPrompt R line = false ∧ ompFinalText R line = none
  isStop : ompFinalText R stop = some text

lemma applyOmpProgressMessage_frame (message : Json.Fields) :
    (applyOmpProgressMessage R state message).promptId = state.promptId ∧
      (applyOmpProgressMessage R state message).userText = state.userText ∧
      (applyOmpProgressMessage R state message).finalText = state.finalText := by
  have hitems : ∀ (items : List Json.Value) (s : OmpTurnState),
      (items.foldl (applyOmpProgressItem R) s).promptId = s.promptId ∧
        (items.foldl (applyOmpProgressItem R) s).userText = s.userText ∧
        (items.foldl (applyOmpProgressItem R) s).finalText = s.finalText := by
    intro items
    induction items with
    | nil => exact fun s => ⟨rfl, rfl, rfl⟩
    | cons item items ih =>
      intro s
      obtain ⟨hid, huser, hfinal⟩ := ih (applyOmpProgressItem R s item)
      rw [List.foldl_cons, hid, huser, hfinal]
      unfold applyOmpProgressItem
      cases item.object? with
      | none => exact ⟨rfl, rfl, rfl⟩
      | some fields =>
        dsimp only
        split_ifs <;> exact ⟨rfl, rfl, rfl⟩
  unfold applyOmpProgressMessage
  dsimp only
  split
  · exact hitems _ _
  · exact ⟨rfl, rfl, rfl⟩

/-- A line that is no prompt adds at most the final of the turn. -/
lemma applyOmpLine_of_not_prompt (hline : isOmpPrompt R line = false) (hid : state.promptId ≠ "") :
    (applyOmpLine R state line).promptId = state.promptId ∧
      (applyOmpLine R state line).userText = state.userText ∧
      (applyOmpLine R state line).finalText =
        if state.finalText = "" then (ompFinalText R line).getD "" else state.finalText := by
  unfold applyOmpLine ompFinalText
  unfold isOmpPrompt at hline
  cases hparse : ompMessageEntryFromLine R line with
  | none => simp
  | some parsed =>
    obtain ⟨entry, message⟩ := parsed
    rw [hparse, Option.any_some] at hline
    dsimp only [Option.bind]
    have hkeep : state.finalText =
        if state.finalText = "" then (none : Option String).getD "" else state.finalText := by
      split_ifs with hfinal
      · exact hfinal
      · rfl
    by_cases huser : textOrEmpty R.texts (message.get? "role") = "user"
    · have hskip : (!isOmpUserMessage R message || ompMessageText R message == "" ||
          isInternalUserText R.texts (ompMessageText R message)) = true := by
        by_contra hskip
        simp_all
      have hnone : ¬ (textOrEmpty R.texts (message.get? "role") = "assistant" ∧
          textOrEmpty R.texts (message.get? "stopReason") = "stop" ∧
          ompMessageText R message ≠ "") := by
        rw [huser]
        exact fun h => absurd h.1 (by decide)
      rw [if_pos huser, if_pos hskip, if_neg hnone]
      exact ⟨rfl, rfl, hkeep⟩
    rw [if_neg huser]
    by_cases hrole : textOrEmpty R.texts (message.get? "role") = "assistant"
    · rw [if_neg (by simp [hrole, hid])]
      by_cases hfinal : state.finalText = ""
      · rw [if_neg (by simp [hfinal]), if_pos hfinal]
        split_ifs with hstop hstop' hstop'
        · exact ⟨rfl, rfl, rfl⟩
        · exact (hstop' ⟨hrole, hstop⟩).elim
        · exact (hstop ⟨hstop'.2.1, hstop'.2.2⟩).elim
        · obtain ⟨hid', huser', hfinal'⟩ :=
            @applyOmpProgressMessage_frame R state message
          exact ⟨hid', huser', hfinal'.trans hfinal⟩
      · rw [if_pos hfinal, if_neg hfinal]
        exact ⟨rfl, rfl, rfl⟩
    · have hnone : ¬ (textOrEmpty R.texts (message.get? "role") = "assistant" ∧
          textOrEmpty R.texts (message.get? "stopReason") = "stop" ∧
          ompMessageText R message ≠ "") := fun h => hrole h.1
      rw [if_pos (.inl hrole), if_neg hnone]
      exact ⟨rfl, rfl, hkeep⟩

lemma ne_empty_of_ompFinalText (h : ompFinalText R line = some text) : text ≠ "" := by
  unfold ompFinalText at h
  obtain ⟨parsed, -, hparsed⟩ := Option.bind_eq_some_iff.mp h
  split at hparsed
  · next hstop =>
    cases hparsed
    exact hstop.2.2
  · cases hparsed

lemma not_prompt_of_ompFinalText (h : ompFinalText R line = some text) :
    isOmpPrompt R line = false := by
  unfold ompFinalText at h
  obtain ⟨parsed, hparse, hparsed⟩ := Option.bind_eq_some_iff.mp h
  split at hparsed
  · next hstop =>
    unfold isOmpPrompt isOmpUserMessage
    rw [hparse, Option.any_some, hstop.1]
    rfl
  · cases hparsed

/-- Lines without a prompt add the first final among them. -/
lemma applyOmpLinesToState_of_no_prompt {lines : List (List UInt8)}
    (hlines : ∀ line ∈ lines, isOmpPrompt R line = false) (hid : state.promptId ≠ "") :
    (applyOmpLinesToState R state lines).promptId = state.promptId ∧
      (applyOmpLinesToState R state lines).userText = state.userText ∧
      (applyOmpLinesToState R state lines).finalText =
        if state.finalText = "" then (lines.findSome? (ompFinalText R)).getD ""
        else state.finalText := by
  induction lines generalizing state with
  | nil =>
    refine ⟨rfl, rfl, ?_⟩
    split_ifs with hfinal
    · exact hfinal
    · rfl
  | cons line lines ih =>
    obtain ⟨hline, hlines⟩ := List.forall_mem_cons.mp hlines
    obtain ⟨hid', huser', hfinal'⟩ := applyOmpLine_of_not_prompt hline hid
    obtain ⟨hid'', huser'', hfinal''⟩ := ih hlines (hid'.symm ▸ hid)
    refine ⟨hid''.trans hid', huser''.trans huser', hfinal''.trans ?_⟩
    rw [hfinal', List.findSome?_cons]
    cases hfound : ompFinalText R line with
    | none =>
      by_cases hfinal : state.finalText = ""
      · simp [hfinal]
      · simp [hfinal]
    | some text =>
      have hne := ne_empty_of_ompFinalText hfound
      by_cases hfinal : state.finalText = ""
      · simp [hfinal, hne]
      · simp [hfinal]

/-- The state of a turn behind its prompt. -/
lemma OmpTurn.reads (hturn : OmpTurn R id text prompt between stop)
    (hmore : ∀ line ∈ more, isOmpPrompt R line = false) :
    (applyOmpLinesToState R emptyTurnState (prompt :: more)).promptId = id ∧
      (applyOmpLinesToState R emptyTurnState (prompt :: more)).userText ≠ "" ∧
      (applyOmpLinesToState R emptyTurnState (prompt :: more)).finalText =
        (more.findSome? (ompFinalText R)).getD "" := by
  obtain ⟨entry, message, hparse, hid, hne⟩ := hturn.named
  have htext : ompMessageText R message ≠ "" := by
    have hprompt := hturn.isPrompt
    unfold isOmpPrompt at hprompt
    rw [hparse, Option.any_some] at hprompt
    simp_all
  have hstart : applyOmpLinesToState R emptyTurnState (prompt :: more) =
      applyOmpLinesToState R ⟨id, ompMessageText R message, [], "", 0⟩ more := by
    rw [← hid, ← applyOmpLine_of_prompt hparse hturn.isPrompt emptyTurnState]
    rfl
  rw [hstart]
  have hne' : (⟨id, ompMessageText R message, [], "", 0⟩ : OmpTurnState).promptId ≠ "" := hne
  obtain ⟨hid', huser', hfinal'⟩ := applyOmpLinesToState_of_no_prompt hmore hne'
  exact ⟨hid', huser' ▸ htext, hfinal'⟩

lemma ompStateToContent_eq (hid : state.promptId ≠ "") (huser : state.userText ≠ "")
    (hvisible : isInternalTurnContent R.texts state.shown = false) :
    ompStateToContent R state = some state.shown := by
  unfold ompStateToContent
  rw [if_neg hid, hvisible]
  simp [OmpTurnState.shown, ompNonempty, huser]

/-! ### Runs -/

structure OmpPoll where
  /-- How many bytes of the session there are when the poll reads it. -/
  size : Nat
  content : Option CodexContent
  after : OmpSessionState

/-- The polls over a session as it grows, the first one without a checkpoint and each of the
others from the checkpoint of the poll before. -/
inductive OmpRun (R : OmpRules) (file : List UInt8) (first : OmpPoll) :
    List OmpPoll → OmpSessionState → Prop
  | first (hsize : first.size ≤ file.length)
      (hread : readOmpSessionTurn R (file.take first.size) none = (first.content, first.after)) :
      OmpRun R file first [] first.after
  | next {polls : List OmpPoll} {c : OmpSessionState} {p : OmpPoll}
      (hrun : OmpRun R file first polls c) (hseen : c.observedSize ≤ p.size)
      (hsize : p.size ≤ file.length)
      (hread : readOmpSessionTurn R (file.take p.size) (some c) = (p.content, p.after)) :
      OmpRun R file first (polls ++ [p]) p.after

/-- The lines of a session that are complete at some size. -/
lemma ompLines_isPrefix (hfile : OmpFile R file) (size : Nat) :
    ompLines R (file.take size) <+: pieces isLineEnd file := by
  obtain ⟨b, hb, hmeets, -⟩ := exists_completeBytes hfile (le_max_left size file.length)
  rw [List.take_of_length_le (le_max_right _ _)] at hb
  have hpieces := pieces_append hmeets
  rw [← hb] at hpieces
  exact ⟨_, hpieces.symm⟩

section Turn

variable {first : OmpPoll} {polls : List OmpPoll}

/-- Whether a poll has published the final of a turn. -/
def PublishesFinal (id text : String) (p : OmpPoll) : Prop :=
  ∃ content, p.content = some content ∧ content.sourceTurnId = prefixChars 160 id ∧
    content.assistantFinalText = some text

lemma OmpTurn.no_prompt (hturn : OmpTurn R id text prompt between stop)
    (hmore : ∀ line ∈ more, isOmpPrompt R line = false) :
    ∀ line ∈ between ++ stop :: more, isOmpPrompt R line = false := by
  intro line hline
  rcases List.mem_append.mp hline with hline | hline
  · exact (hturn.noFinal line hline).1
  · rcases List.mem_cons.mp hline with rfl | hline
    · exact not_prompt_of_ompFinalText hturn.isStop
    · exact hmore line hline

/-- A turn while its stop message is not read: the checkpoint holds it open. -/
lemma OmpTurn.open (hturn : OmpTurn R id text prompt between stop) (hmore : more <+: between)
    (hvisible : isInternalTurnContent R.texts
      (applyOmpLinesToState R emptyTurnState (prompt :: more)).shown = false) :
    (ompStateToContent R (applyOmpLinesToState R emptyTurnState (prompt :: more))).any
      (fun content => content.hasOpenTurn) = true := by
  have hnone : more.findSome? (ompFinalText R) = none := by
    rw [List.findSome?_eq_none_iff]
    exact fun line hline => (hturn.noFinal line (hmore.subset hline)).2
  obtain ⟨hid, huser, hfinal⟩ := hturn.reads fun line hline =>
    (hturn.noFinal line (hmore.subset hline)).1
  obtain ⟨-, -, -, -, hne⟩ := hturn.named
  rw [hnone] at hfinal
  rw [ompStateToContent_eq (hid ▸ hne) huser hvisible]
  simp [OmpTurnState.shown, hfinal]

/-- A turn whose stop message is the last that is read of it. -/
lemma OmpTurn.publishes (hturn : OmpTurn R id text prompt between stop)
    (hmore : ∀ line ∈ more, isOmpPrompt R line = false)
    (hvisible : isInternalTurnContent R.texts
      (applyOmpLinesToState R emptyTurnState (prompt :: (between ++ stop :: more))).shown = false)
    {p : OmpPoll}
    (hp : p.content = ompStateToContent R
      (applyOmpLinesToState R emptyTurnState (prompt :: (between ++ stop :: more)))) :
    PublishesFinal id text p := by
  have hfound : (between ++ stop :: more).findSome? (ompFinalText R) = some text := by
    have hnone : between.findSome? (ompFinalText R) = none := by
      rw [List.findSome?_eq_none_iff]
      exact fun line hline => (hturn.noFinal line hline).2
    rw [List.findSome?_append, hnone, Option.none_or, List.findSome?_cons, hturn.isStop]
  obtain ⟨hid, huser, hfinal⟩ := hturn.reads (hturn.no_prompt hmore)
  obtain ⟨-, -, -, -, hne⟩ := hturn.named
  rw [hfound, Option.getD_some] at hfinal
  rw [ompStateToContent_eq (hid ▸ hne) huser hvisible] at hp
  refine ⟨_, hp, ?_, ?_⟩
  · exact congrArg (prefixChars 160) hid
  · simp [OmpTurnState.shown, ompNonempty, hfinal, ne_empty_of_ompFinalText hturn.isStop]

/-- A checkpoint that has not read the stop message of a turn holds it from its prompt on. -/
def HoldsTurn (before : List (List UInt8)) (prompt : List UInt8) (between lines held :
    List (List UInt8)) : Prop :=
  ∀ more, lines = before ++ prompt :: more → more <+: between → ∃ torn, held = torn ++ prompt :: more

/-- What the next poll reads of a turn. -/
lemma HoldsTurn.read {lines held new : List (List UInt8)}
    (h : HoldsTurn before prompt between lines held)
    (hlines : lines ++ new = before ++ prompt :: more) :
    (∃ torn, held ++ new = torn ++ prompt :: more) ∨
      ∃ old, lines = before ++ prompt :: old ∧ old <+: more ∧ ¬ old <+: between := by
  obtain ⟨skipped, rfl, rfl⟩ | ⟨read, rfl, hread⟩ := List.append_eq_append_iff.mp hlines
  · exact .inl ⟨held ++ skipped, (List.append_assoc _ _ _).symm⟩
  · cases read with
    | nil =>
      rw [List.nil_append] at hread
      exact .inl ⟨held, by rw [hread]⟩
    | cons line old =>
      obtain ⟨rfl, rfl⟩ := List.cons.inj hread
      by_cases hold : old <+: between
      · obtain ⟨torn, rfl⟩ := h old rfl hold
        exact .inl ⟨torn, List.append_assoc _ _ _⟩
      · exact .inr ⟨old, rfl, List.prefix_append _ _, hold⟩

/-- What holds of a turn behind some polls: it is held until its stop message is read, and
published where no prompt was read with that message. -/
structure TurnRead (R : OmpRules) (file : List UInt8) (id text : String)
    (before : List (List UInt8)) (prompt : List UInt8) (between : List (List UInt8))
    (stop : List UInt8) (polls : List OmpPoll) (size : Nat) (held : List (List UInt8)) : Prop where
  holds : HoldsTurn before prompt between (ompLines R (file.take size)) held
  published : ∀ extra, ompLines R (file.take size) = before ++ prompt :: (between ++ stop :: extra) →
    (∀ line ∈ extra, isOmpPrompt R line = false) → ∃ p ∈ polls, PublishesFinal id text p
  before_published : ∀ q ∈ polls, ∀ extra,
    ompLines R (file.take q.size) = before ++ prompt :: (between ++ stop :: extra) →
    (∀ line ∈ extra, isOmpPrompt R line = false) → ∃ p ∈ polls, PublishesFinal id text p

/-- No content of a turn is internal at the size of a poll. -/
def ShowsTurn (R : OmpRules) (file : List UInt8) (before : List (List UInt8)) (prompt : List UInt8)
    (p : OmpPoll) : Prop :=
  ∀ more, ompLines R (file.take p.size) = before ++ prompt :: more →
    (∀ line ∈ more, isOmpPrompt R line = false) →
    isInternalTurnContent R.texts
      (applyOmpLinesToState R emptyTurnState (prompt :: more)).shown = false

/-- What a poll makes of the lines that it holds and reads. -/
lemma HoldsTurn.after {p : OmpPoll} {held : List (List UInt8)}
    (hturn : OmpTurn R id text prompt between stop) (hshows : ShowsTurn R file before prompt p)
    (hcontent : p.content = ompStateToContent R (applyOmpLinesToState R emptyTurnState held))
    (hheld : ∀ more, ompLines R (file.take p.size) = before ++ prompt :: more →
      more <+: between → ∃ torn, held = torn ++ prompt :: more) :
    HoldsTurn before prompt between (ompLines R (file.take p.size))
      (if p.content.any fun content => content.hasOpenTurn then held else []) := by
  intro more hlines hmore
  obtain ⟨torn, rfl⟩ := hheld more hlines hmore
  rw [applyOmpLinesToState_prompt hturn.isPrompt] at hcontent
  have hopen := hturn.open hmore (hshows more hlines fun line hline =>
    (hturn.noFinal line (hmore.subset hline)).1)
  rw [hcontent, if_pos hopen]
  exact ⟨torn, rfl⟩

/-- One more poll. -/
lemma TurnRead.next {p : OmpPoll} {held new : List (List UInt8)}
    (h : TurnRead R file id text before prompt between stop polls size held)
    (hturn : OmpTurn R id text prompt between stop) (hshows : ShowsTurn R file before prompt p)
    (hlines : ompLines R (file.take p.size) = ompLines R (file.take size) ++ new)
    (hcontent : p.content =
      ompStateToContent R (applyOmpLinesToState R emptyTurnState (held ++ new))) :
    TurnRead R file id text before prompt between stop (polls ++ [p]) p.size
      (if p.content.any fun content => content.hasOpenTurn then held ++ new else []) := by
  have hold : (∃ p ∈ polls, PublishesFinal id text p) →
      ∃ q ∈ polls ++ [p], PublishesFinal id text q :=
    fun ⟨q, hq, hpublishes⟩ => ⟨q, List.mem_append_left _ hq, hpublishes⟩
  have hpublished : ∀ extra,
      ompLines R (file.take p.size) = before ++ prompt :: (between ++ stop :: extra) →
      (∀ line ∈ extra, isOmpPrompt R line = false) →
      ∃ q ∈ polls ++ [p], PublishesFinal id text q := by
    intro extra hextra hno
    obtain ⟨torn, hread⟩ | ⟨old, hold', hstarts, hpast⟩ := h.holds.read (hlines.symm.trans hextra)
    · -- the poll reads the stop message
      refine ⟨p, List.mem_append_right _ List.mem_cons_self, ?_⟩
      rw [hread, applyOmpLinesToState_prompt hturn.isPrompt] at hcontent
      exact hturn.publishes hno (hshows _ hextra (hturn.no_prompt hno)) hcontent
    · -- the stop message was read before
      obtain ⟨extra', rfl, hextra'⟩ : ∃ extra', old = between ++ stop :: extra' ∧
          extra' <+: extra := by
        obtain ⟨tail, htail⟩ := hstarts
        obtain ⟨_, rfl, _⟩ | ⟨read, rfl, hread⟩ := List.append_eq_append_iff.mp htail
        · exact (hpast (List.prefix_append _ _)).elim
        · cases read with
          | nil => exact (hpast (by simp)).elim
          | cons line extra' =>
            obtain ⟨rfl, rfl⟩ := List.cons.inj hread
            exact ⟨extra', rfl, List.prefix_append _ _⟩
      exact hold (h.published extra' hold' fun line hline => hno line (hextra'.subset hline))
  refine ⟨?_, hpublished, ?_⟩
  · refine HoldsTurn.after hturn hshows hcontent fun more hmore hbetween => ?_
    obtain hread | ⟨old, -, hstarts, hpast⟩ := h.holds.read (hlines.symm.trans hmore)
    · exact hread
    · exact (hpast (hstarts.trans hbetween)).elim
  · intro q hq extra hextra hno
    rcases List.mem_append.mp hq with hq | hq
    · exact hold (h.before_published q hq extra hextra hno)
    · obtain rfl := List.mem_singleton.mp hq
      exact hpublished extra hextra hno

/-- A run keeps what holds of a turn whose stop message the first poll has not read. -/
theorem exists_turnRead (hfile : OmpFile R file) (hrun : OmpRun R file first polls c)
    (hturn : OmpTurn R id text prompt between stop)
    (hlater : (ompLines R (file.take first.size)).length ≤ before.length + 1 + between.length)
    (hshows : ∀ p ∈ first :: polls, ShowsTurn R file before prompt p) :
    ∃ size held, size ≤ file.length ∧ Tracks R file size c held ∧
      TurnRead R file id text before prompt between stop polls size held := by
  induction hrun with
  | first hsize hread =>
    obtain ⟨held, hcontent, htracks, hselected⟩ := tracks_first hsize hread
    refine ⟨first.size, _, hsize, htracks, ?_, ?_, nofun⟩
    · refine HoldsTurn.after hturn (hshows first List.mem_cons_self) hcontent ?_
      intro more hlines hmore
      refine hselected _ ?_
      rw [hlines]
      exact fromLastOmpUserLine_eq hturn.isPrompt fun line hline =>
        (hturn.noFinal line (hmore.subset hline)).1
    · intro extra hextra
      rw [hextra] at hlater
      simp only [List.length_append, List.length_cons] at hlater
      omega
  | @next polls c p hrun hseen hsize hread ih =>
    obtain ⟨size, held, hlength, htracks, hread'⟩ := ih fun q hq =>
      hshows q (by simp only [List.mem_cons, List.mem_append] at hq ⊢; tauto)
    rw [htracks.observed] at hseen
    obtain ⟨new, hlines, hcontent, htracks'⟩ := htracks.poll hfile hseen hsize hread
    exact ⟨p.size, _, hsize, htracks', hread'.next hturn (hshows p (by simp)) hlines hcontent⟩

/-- A turn of a session whose stop message is read after the first poll: its final is published
under its prompt id, where some poll ends behind the stop message and before the next prompt, and
no poll finds internal content in the turn. -/
theorem ompFinal_published {rest : List (List UInt8)} (hfile : OmpFile R file)
    (hrun : OmpRun R file first polls c)
    (hlines : pieces isLineEnd file = before ++ prompt :: (between ++ stop :: rest))
    (hturn : OmpTurn R id text prompt between stop)
    (hlater : (ompLines R (file.take first.size)).length ≤ before.length + 1 + between.length)
    (hends : ∃ p ∈ polls, ∃ n, (ompLines R (file.take p.size)).length =
      before.length + 1 + between.length + 1 + n ∧
      ∀ line ∈ rest.take n, isOmpPrompt R line = false)
    (hshows : ∀ p ∈ first :: polls, ShowsTurn R file before prompt p) :
    ∃ p ∈ polls, PublishesFinal id text p := by
  obtain ⟨size, held, -, -, hread⟩ := exists_turnRead hfile hrun hturn hlater hshows
  obtain ⟨p, hp, n, hn, hno⟩ := hends
  refine hread.before_published p hp (rest.take n) ?_ hno
  have hstarts := ompLines_isPrefix hfile p.size
  have hlength : before.length + 1 + between.length + 1 + n =
      before.length + ((between.length + (n + 1)) + 1) := by omega
  rw [List.prefix_iff_eq_take, hn, hlines, hlength, List.take_length_add_append,
    List.take_succ_cons, List.take_length_add_append, List.take_succ_cons] at hstarts
  exact hstarts

end Turn

/-- A prompt that is neither blank nor of automation shows its turn. -/
lemma ShowsTurn.of_prompt {entry message : Json.Fields} {p : OmpPoll}
    (hparse : ompMessageEntryFromLine R prompt = some (entry, message))
    (hprompt : isOmpPrompt R prompt = true) (hid : textOrEmpty R.texts (entry.get? "id") ≠ "")
    (hblank : strip (ompMessageText R message) ≠ "")
    (hautomation : R.texts.looksLikeAutomationUserText (ompMessageText R message) = false) :
    ShowsTurn R file before prompt p := by
  intro more _ hmore
  have hstart : applyOmpLinesToState R emptyTurnState (prompt :: more) = applyOmpLinesToState R
      ⟨textOrEmpty R.texts (entry.get? "id"), ompMessageText R message, [], "", 0⟩ more := by
    rw [← applyOmpLine_of_prompt hparse hprompt emptyTurnState]
    rfl
  obtain ⟨-, huser, -⟩ := applyOmpLinesToState_of_no_prompt (R := R) hmore
    (show (⟨textOrEmpty R.texts (entry.get? "id"), ompMessageText R message, [], "", 0⟩ :
      OmpTurnState).promptId ≠ "" from hid)
  rw [hstart]
  unfold isOmpPrompt at hprompt
  rw [hparse, Option.any_some] at hprompt
  simp only [Bool.and_eq_true, bne_iff_ne, ne_eq, Bool.not_eq_true'] at hprompt
  simp [isInternalTurnContent, isPromptlessStatusFinal, isInternalAutomationTurnPayload,
    OmpTurnState.shown, ompNonempty, huser, hprompt, hblank, hautomation]

/-! ### A prompt behind a final -/

/-- A message of a session as it stands in the file, and its value. -/
def sampleOmpMessage (id : String) (message : List (String × String)) : List UInt8 × Json.Value :=
  ((jsonObject [("type", jsonText "message"), ("id", jsonText id),
      ("message", jsonObject (message.map fun field => (field.1, jsonText field.2)))]).map
        fun c => c.toNat.toUInt8,
    .object [("type", .text "message"), ("id", .text id),
      ("message", .object (message.map fun field => (field.1, .text field.2)))])

def samplePromptLine (id text : String) : List UInt8 × Json.Value :=
  sampleOmpMessage id [("role", "user"), ("attribution", "user"), ("content", text)]

/-- A turn with its final, and the prompt of the next turn. -/
def promptBehindFinal : List (List UInt8 × Json.Value) :=
  [samplePromptLine "p1" "hello",
    sampleOmpMessage "m1" [("role", "assistant"), ("stopReason", "stop"), ("content", "done")],
    samplePromptLine "p2" "next"]

def sampleOmpRules : OmpRules where
  texts := sampleCodexRules []
  decode := (sampleCodexRules promptBehindFinal).decode
  toolSnippet _ _ := ""

lemma ompFile_sample (hlines : ∀ line ∈ pieces isLineEnd file,
      line ∈ promptBehindFinal.map Prod.fst) : OmpFile sampleOmpRules file := by
  have hkeys : ∀ k ∈ promptBehindFinal.map Prod.fst, ∀ l ∈ promptBehindFinal.map Prod.fst,
      k.isPrefixOf l = true → k = l := by decide +kernel
  intro line hline q hstarts hne _
  by_contra hdecode
  obtain ⟨value, hvalue⟩ := Option.ne_none_iff_exists'.mp hdecode
  obtain ⟨r, hr, -⟩ := Option.map_eq_some_iff.mp hvalue
  have hq : q ∈ promptBehindFinal.map Prod.fst :=
    List.mem_map.mpr ⟨r, List.mem_of_find?_eq_some hr, by simpa using List.find?_some hr⟩
  exact hne (hkeys q hq line (hlines line hline) (List.isPrefixOf_iff_prefix.mpr hstarts))

def sampleTurnPrompt : List UInt8 := (samplePromptLine "p1" "hello").1

def sampleTurnStop : List UInt8 :=
  (sampleOmpMessage "m1"
    [("role", "assistant"), ("stopReason", "stop"), ("content", "done")]).1

lemma sampleTurn : OmpTurn sampleOmpRules "p1" "done" sampleTurnPrompt [] sampleTurnStop := by
  refine ⟨by decide +kernel, ?_, nofun, by decide +kernel⟩
  exact ⟨_, _, rfl, by decide +kernel, by decide⟩

/-- The first poll, which finds the prompt. -/
def firstPromptPoll : OmpPoll where
  size := 94
  content := some ⟨some "hello", none, none, false, true, "p1"⟩
  after := ⟨94, 94, 0, true⟩

/-- The poll that reads the final and the next prompt. -/
def nextPromptPoll : OmpPoll where
  size := 284
  content := some ⟨some "next", none, none, false, true, "p2"⟩
  after := ⟨284, 284, 0, true⟩

/-- The poll that reads the final before the next prompt is there. -/
def finalPoll : OmpPoll where
  size := 191
  content := some ⟨some "hello", none, some "done", true, false, "p1"⟩
  after := ⟨191, 191, 191, false⟩

lemma firstPromptPoll_run (hsize : 94 ≤ file.length)
    (hfirst : file.take 94 = sampleTurnPrompt ++ [10]) :
    OmpRun sampleOmpRules file firstPromptPoll [] firstPromptPoll.after := by
  refine .first hsize ?_
  change readOmpSessionTurn sampleOmpRules (file.take 94) none = _
  rw [hfirst]
  unfold readOmpSessionTurn readOmpStateFromRecent
  rw [readOmpRecent]
  decide +kernel

/-- The lines of the file, with the next prompt and without it, are its records. -/
lemma promptBehindFinal_file : ∀ n ∈ [2, 3],
    94 ≤ (sampleFile (promptBehindFinal.take n)).length ∧
      (sampleFile (promptBehindFinal.take n)).take 94 = sampleTurnPrompt ++ [10] ∧
      pieces isLineEnd (sampleFile (promptBehindFinal.take n)) =
        (promptBehindFinal.take n).map Prod.fst ∧
      (ompLines sampleOmpRules ((sampleFile (promptBehindFinal.take n)).take 94)).length = 1 := by
  decide +kernel

/-- What the second poll reads, before the next prompt is there and behind it. -/
lemma promptBehindFinal_reads : ∀ e ∈ [(2, finalPoll), (3, nextPromptPoll)],
    e.2.size ≤ (sampleFile (promptBehindFinal.take e.1)).length ∧
      readOmpSessionTurn sampleOmpRules
        ((sampleFile (promptBehindFinal.take e.1)).take e.2.size) (some firstPromptPoll.after) =
          (e.2.content, e.2.after) := by
  decide +kernel

/-- The final of a turn is not published where the next prompt is read with it. -/
theorem promptBehindFinal_lost :
    OmpFile sampleOmpRules (sampleFile promptBehindFinal) ∧
      OmpRun sampleOmpRules (sampleFile promptBehindFinal) firstPromptPoll [nextPromptPoll]
        nextPromptPoll.after ∧
      pieces isLineEnd (sampleFile promptBehindFinal) =
        [] ++ sampleTurnPrompt :: ([] ++ sampleTurnStop :: [(samplePromptLine "p2" "next").1]) ∧
      OmpTurn sampleOmpRules "p1" "done" sampleTurnPrompt [] sampleTurnStop ∧
      (ompLines sampleOmpRules ((sampleFile promptBehindFinal).take firstPromptPoll.size)).length =
        1 ∧
      ¬ ∃ p ∈ [nextPromptPoll], PublishesFinal "p1" "done" p := by
  obtain ⟨hlength, hfirst, hlines, hlater⟩ := promptBehindFinal_file 3 (by simp)
  obtain ⟨hsize, hread⟩ := promptBehindFinal_reads (3, nextPromptPoll) (by simp)
  refine ⟨ompFile_sample fun line hline => ?_, ?_, hlines, sampleTurn, hlater, ?_⟩
  · rwa [show pieces isLineEnd (sampleFile promptBehindFinal) = _ from hlines] at hline
  · exact .next (p := nextPromptPoll) (firstPromptPoll_run hlength hfirst) (by decide) hsize hread
  · rintro ⟨p, hp, content, hcontent, hid, -⟩
    obtain rfl := List.mem_singleton.mp hp
    cases hcontent
    revert hid
    decide

/-- The final of a turn is published where the poll ends behind it. -/
theorem finalPoll_publishes : ∃ p ∈ [finalPoll], PublishesFinal "p1" "done" p := by
  obtain ⟨hlength, hfirst, hlines, hlater⟩ := promptBehindFinal_file 2 (by simp)
  obtain ⟨hsize, hread⟩ := promptBehindFinal_reads (2, finalPoll) (by simp)
  obtain ⟨entry, message, hparse, hid, hblank⟩ : ∃ entry message,
      ompMessageEntryFromLine sampleOmpRules sampleTurnPrompt = some (entry, message) ∧
        textOrEmpty sampleOmpRules.texts (entry.get? "id") ≠ "" ∧
        strip (ompMessageText sampleOmpRules message) ≠ "" :=
    ⟨_, _, rfl, by decide +kernel, by decide +kernel⟩
  have hfile : OmpFile sampleOmpRules (sampleFile (promptBehindFinal.take 2)) := by
    refine ompFile_sample fun line hline => ?_
    rw [hlines] at hline
    exact List.map_subset _ (List.take_subset 2 _) hline
  have hturn : pieces isLineEnd (sampleFile (promptBehindFinal.take 2)) =
      [] ++ sampleTurnPrompt :: ([] ++ sampleTurnStop :: []) := hlines
  exact ompFinal_published hfile
    (.next (p := finalPoll) (firstPromptPoll_run hlength hfirst) (by decide) hsize hread)
    hturn sampleTurn hlater.le
    ⟨finalPoll, List.mem_cons_self, 0, by decide +kernel, nofun⟩
    fun _ _ => .of_prompt hparse sampleTurn.isPrompt hid hblank rfl

end Tendwire

import Tendwire.Omp.Lines

/-!
# Replays of a session

A checkpoint stands for the lines that the next poll reads again. Over the lines of the session, a
poll shows the turn of the lines that it holds and of the new ones, and holds them all while that
turn is open.
-/

namespace Tendwire

open Framing

variable {R : OmpRules} {file : List UInt8} {size size' : Nat} {c c' : OmpSessionState}
  {content : Option CodexContent}

/-- From some size on, what is complete of a file is what is complete behind a start. -/
def GoodStart (R : OmpRules) (file : List UInt8) (start size : Nat) : Prop :=
  ∀ size', size ≤ size' → completeBytes R (file.take size') =
    (file.take size').take start ++ completeBytes R ((file.take size').drop start)

lemma GoodStart.mono {start : Nat} (h : GoodStart R file start size) (hsize : size ≤ size') :
    GoodStart R file start size' := fun size'' h' => h size'' (hsize.trans h')

lemma goodStart_zero : GoodStart R file 0 size := fun _ _ => by simp

lemma goodStart_complete (hfile : OmpFile R file) :
    GoodStart R file (completeBytes R (file.take size)).length size := by
  intro size' hsize
  obtain ⟨b, hb, -, hcomplete⟩ := exists_completeBytes hfile hsize
  rw [hcomplete, hb, List.take_left, List.drop_left]

lemma goodStart_of_lineEnd {start : Nat}
    (h : ∃ x ∈ (file.take size).drop start, isLineEnd x = true) : GoodStart R file start size := by
  intro size' hsize
  obtain ⟨x, hx, hend⟩ := h
  have hmem : x ∈ (file.take size').drop start := by
    obtain ⟨more, hmore⟩ : file.take size <+: file.take size' := List.take_prefix_take_left hsize
    rw [← hmore, List.drop_append]
    exact List.mem_append_left _ hx
  rw [← completeBytes_append_of_mem ⟨x, hmem, hend⟩, List.take_append_drop]

/-- A checkpoint behind the complete lines of a file, and the lines that it holds. -/
structure Tracks (R : OmpRules) (file : List UInt8) (size : Nat) (c : OmpSessionState)
    (held : List (List UInt8)) : Prop where
  offset : c.offset = (completeBytes R (file.take size)).length
  observed : c.observedSize = size
  start : c.turnOpen = true → GoodStart R file c.replayOffset size ∧ c.replayOffset ≤ c.offset
  held_eq : held = if c.turnOpen then
    pieces isLineEnd ((completeBytes R (file.take size)).drop c.replayOffset) else []

/-- What is read again from a start, with what is new. -/
lemma GoodStart.completeBytes_drop {start : Nat} {a b : List UInt8}
    (h : GoodStart R file start size) (hstart : start ≤ a.length)
    (hb : file.take size = a ++ b)
    (hcomplete : completeBytes R (file.take size) = a ++ completeBytes R b) :
    completeBytes R ((file.take size).drop start) = a.drop start ++ completeBytes R b := by
  have hgood := h size le_rfl
  have hlength : ((file.take size).take start).length = start := by
    rw [hb, List.length_take, List.length_append]
    omega
  have hdrop := congrArg (List.drop start) hgood
  rw [hcomplete, List.drop_append_of_le_length hstart] at hdrop
  rw [hdrop, List.drop_left' hlength]

/-- A poll over the lines that it holds and the new ones. -/
theorem Tracks.poll {held : List (List UInt8)} (h : Tracks R file size c held)
    (hfile : OmpFile R file) (hsize : size ≤ size') (hlength : size' ≤ file.length)
    (hread : readOmpSessionTurn R (file.take size') (some c) = (content, c')) :
    ∃ lines, ompLines R (file.take size') = ompLines R (file.take size) ++ lines ∧
      content = ompStateToContent R (applyOmpLinesToState R emptyTurnState (held ++ lines)) ∧
      Tracks R file size' c'
        (if content.any fun content => content.hasOpenTurn then held ++ lines else []) := by
  obtain ⟨b, hb, hmeets, hcomplete⟩ := exists_completeBytes hfile hsize
  obtain ⟨start, hstarts, hgood, hle, hheld⟩ : ∃ start,
      start = (if c.turnOpen then c.replayOffset else c.offset) ∧
      GoodStart R file start size' ∧ start ≤ (completeBytes R (file.take size)).length ∧
      held = pieces isLineEnd ((completeBytes R (file.take size)).drop start) := by
    refine ⟨_, rfl, ?_⟩
    rw [h.held_eq]
    cases hopen : c.turnOpen with
    | true =>
      obtain ⟨hgood, hle⟩ := h.start hopen
      exact ⟨hgood.mono hsize, h.offset ▸ hle, rfl⟩
    | false =>
      simp only [Bool.false_eq_true, if_false, h.offset, List.drop_length, pieces_nil, le_refl,
        and_self, and_true]
      exact (goodStart_complete hfile).mono hsize
  have hdrop := hgood.completeBytes_drop hle hb hcomplete
  have hend : start + (completeBytes R ((file.take size').drop start)).length =
      (completeBytes R (file.take size')).length := by
    rw [hdrop, hcomplete, List.length_append, List.length_append, List.length_drop]
    omega
  have hlines : pieces isLineEnd (completeBytes R ((file.take size').drop start)) =
      held ++ pieces isLineEnd (completeBytes R b) := by
    rw [hdrop, hheld, pieces_append ((hmeets.drop start).of_isPrefix (completeBytes_isPrefix b))]
  unfold readOmpSessionTurn at hread
  dsimp only at hread
  rw [readOmpJsonlLines_eq, ← hstarts, hlines, hend] at hread
  obtain ⟨hcontent, hc'⟩ := Prod.mk.inj hread
  rw [hcontent] at hc'
  refine ⟨pieces isLineEnd (completeBytes R b), ?_, hcontent.symm, ?_⟩
  · rw [ompLines, hcomplete, pieces_append (hmeets.of_isPrefix (completeBytes_isPrefix b)), ompLines]
  · subst hc'
    have hbytes : (file.take size').length = size' :=
      List.length_take.trans (min_eq_left hlength)
    have hstarts := (completeBytes_isPrefix (R := R) (file.take size')).length_le
    refine ⟨rfl, ?_, fun hopen => ?_, ?_⟩
    · rw [hbytes] at hstarts ⊢
      exact max_eq_left hstarts
    · rw [if_pos hopen]
      exact ⟨hgood, by rw [← hend]; exact Nat.le_add_right _ _⟩
    · dsimp only
      split_ifs with hopen
      · rw [hcomplete, List.drop_append_of_le_length hle, ← hdrop, hlines]
      · rfl

/-! ### The first poll -/

/-- The first segment ends a line, or it is all that there is. -/
lemma splitLines_first (buffer blob : List UInt8) :
    (∃ segment blob', splitLinesKeepEnds buffer blob = segment :: splitLinesKeepEnds [] blob' ∧
      buffer ++ blob = segment ++ blob' ∧ ∃ x ∈ segment.getLast?, isLineEnd x = true) ∨
    (splitLinesKeepEnds buffer blob).tail = [] := by
  fun_induction splitLinesKeepEnds buffer blob with
  | case1 => exact .inr rfl
  | case2 buffer hne => exact .inr rfl
  | case3 buffer rest ih =>
    refine .inl ⟨_, _, rfl, by simp, 10, by simp, rfl⟩
  | case4 buffer b rest hrest hend ih =>
    exact .inl ⟨_, _, rfl, by simp, b, by simp, hend⟩
  | case5 buffer b rest hrest hend ih =>
    rwa [List.append_assoc, List.singleton_append] at ih

lemma fromLastOmpUserLine_append {lines selected : List (List UInt8)}
    (h : fromLastOmpUserLine R lines = some selected) (before : List (List UInt8)) :
    fromLastOmpUserLine R (before ++ lines) = some selected := by
  induction before with
  | nil => exact h
  | cons line before ih =>
    rw [List.cons_append, fromLastOmpUserLine, ih]

lemma fromLastOmpUserLine_eq {prompt : List UInt8} {before more : List (List UInt8)}
    (hprompt : isOmpPrompt R prompt = true) (hmore : ∀ line ∈ more, isOmpPrompt R line = false) :
    fromLastOmpUserLine R (before ++ prompt :: more) = some (prompt :: more) := by
  refine fromLastOmpUserLine_append ?_ before
  have hnone : fromLastOmpUserLine R more = none := by
    induction more with
    | nil => rfl
    | cons line more ih =>
      obtain ⟨hline, hmore⟩ := List.forall_mem_cons.mp hmore
      rw [fromLastOmpUserLine, ih hmore, hline]
      rfl
  rw [fromLastOmpUserLine, hnone, hprompt]
  rfl

lemma exists_of_fromLastOmpUserLine {lines selected : List (List UInt8)}
    (h : fromLastOmpUserLine R lines = some selected) :
    ∃ before prompt more, lines = before ++ selected ∧ selected = prompt :: more ∧
      isOmpPrompt R prompt = true := by
  induction lines with
  | nil => cases h
  | cons line lines ih =>
    rw [fromLastOmpUserLine] at h
    cases hrest : fromLastOmpUserLine R lines with
    | some selected' =>
      rw [hrest] at h
      cases h
      obtain ⟨before, prompt, more, hlines, hselected, hprompt⟩ := ih hrest
      exact ⟨line :: before, prompt, more, by rw [hlines, List.cons_append], hselected, hprompt⟩
    | none =>
      rw [hrest] at h
      dsimp only at h
      split at h
      · next hprompt =>
        cases h
        exact ⟨[], line, lines, rfl, rfl, hprompt⟩
      · cases h

lemma applyOmpLinesToState_append (state : OmpTurnState) (lines lines' : List (List UInt8)) :
    applyOmpLinesToState R state (lines ++ lines') =
      applyOmpLinesToState R (applyOmpLinesToState R state lines) lines' :=
  List.foldl_append

/-- A prompt starts its turn afresh. -/
lemma applyOmpLine_of_prompt {prompt : List UInt8} {entry message : Json.Fields}
    (hparse : ompMessageEntryFromLine R prompt = some (entry, message))
    (hprompt : isOmpPrompt R prompt = true) (state : OmpTurnState) :
    applyOmpLine R state prompt = ⟨textOrEmpty R.texts (entry.get? "id"),
      ompMessageText R message, [], "", 0⟩ := by
  unfold isOmpPrompt at hprompt
  rw [hparse, Option.any_some, Bool.and_eq_true, Bool.and_eq_true] at hprompt
  obtain ⟨⟨huser, htext⟩, hinternal⟩ := hprompt
  have hrole : textOrEmpty R.texts (message.get? "role") = "user" := by
    unfold isOmpUserMessage at huser
    rw [Bool.and_eq_true, beq_iff_eq] at huser
    exact huser.1
  have hskip : (!isOmpUserMessage R message || ompMessageText R message == "" ||
      isInternalUserText R.texts (ompMessageText R message)) = false := by
    simp_all
  unfold applyOmpLine
  rw [hparse]
  dsimp only
  rw [if_pos hrole, hskip]
  rfl

/-- What comes before a prompt does not matter. -/
lemma applyOmpLinesToState_prompt {prompt : List UInt8} (hprompt : isOmpPrompt R prompt = true)
    (state : OmpTurnState) (before more : List (List UInt8)) :
    applyOmpLinesToState R state (before ++ prompt :: more) =
      applyOmpLinesToState R emptyTurnState (prompt :: more) := by
  cases hparse : ompMessageEntryFromLine R prompt with
  | none => simp [isOmpPrompt, hparse] at hprompt
  | some parsed =>
    obtain ⟨entry, message⟩ := parsed
    rw [applyOmpLinesToState_append]
    unfold applyOmpLinesToState
    rw [List.foldl_cons, List.foldl_cons, applyOmpLine_of_prompt hparse hprompt,
      applyOmpLine_of_prompt hparse hprompt]

/-- The lines that the first poll selects are those from its start on, as far as they matter. -/
structure Recent (R : OmpRules) (file : List UInt8) (size : Nat)
    (read : OmpTurnState × Nat × Nat) : Prop where
  offset : read.2.1 = (completeBytes R (file.take size)).length
  good : GoodStart R file read.2.2 size
  start_le : read.2.2 ≤ read.2.1
  state : read.1 = applyOmpLinesToState R emptyTurnState
    (pieces isLineEnd ((completeBytes R (file.take size)).drop read.2.2))
  prompt : ∀ selected, fromLastOmpUserLine R (ompLines R (file.take size)) = some selected →
    ∃ before, pieces isLineEnd ((completeBytes R (file.take size)).drop read.2.2) =
      before ++ selected

/-- Lines behind a start in the middle of a file, without the first segment. -/
lemma readOmpJsonlLines_dropFirst {start : Nat} (hstart : start ≤ (file.take size).length)
    (hlines : (readOmpJsonlLines R (file.take size) start true).1 ≠ []) :
    ∃ before, GoodStart R file start size ∧
      (readOmpJsonlLines R (file.take size) start true).2 =
        (completeBytes R (file.take size)).length ∧
      start ≤ (completeBytes R (file.take size)).length ∧
      pieces isLineEnd ((completeBytes R (file.take size)).drop start) =
        before ++ (readOmpJsonlLines R (file.take size) start true).1 ∧
      ∃ front, ompLines R (file.take size) =
        front ++ (readOmpJsonlLines R (file.take size) start true).1 := by
  have hread : readOmpJsonlLines R (file.take size) start true =
      ompTakeSegments R (splitLinesKeepEnds [] ((file.take size).drop start)).tail
        (start + ((splitLinesKeepEnds [] ((file.take size).drop start)).head?.getD []).length) := rfl
  rw [hread] at hlines ⊢
  obtain ⟨segment, blob, hsplit, hblob, x, hx, hend⟩ | hnone :=
    splitLines_first [] ((file.take size).drop start)
  · rw [List.nil_append] at hblob
    have hends : Ends isLineEnd segment := by
      intro y hy
      rw [Option.mem_def] at hx
      rwa [← Option.some.inj (hx.symm.trans hy)]
    have hgood : GoodStart R file start size := by
      refine goodStart_of_lineEnd ⟨x, ?_, hend⟩
      rw [hblob]
      exact List.mem_append_left _ (List.mem_of_mem_getLast? hx)
    have hcomplete : completeBytes R (file.take size) =
        (file.take size).take start ++ (segment ++ completeBytes R blob) := by
      rw [hgood size le_rfl, hblob, completeBytes_append hends]
    have htake : ((file.take size).take start).length = start :=
      List.length_take.trans (min_eq_left hstart)
    rw [hsplit, List.tail_cons, List.head?_cons, Option.getD_some, ompTakeSegments_eq (by simp),
      List.nil_append]
    refine ⟨pieces isLineEnd segment, hgood, ?_, ?_, ?_,
      pieces isLineEnd ((file.take size).take start ++ segment), ?_⟩
    · rw [hcomplete, List.length_append, List.length_append, htake, Nat.add_assoc]
    · rw [hcomplete, List.length_append, htake]
      exact Nat.le_add_right _ _
    · rw [hcomplete, List.drop_left' htake, pieces_append (.inl hends)]
    · have hfront : Ends isLineEnd ((file.take size).take start ++ segment) := by
        intro y hy
        rw [List.getLast?_append, Option.mem_def.mp hx, Option.some_or] at hy
        rwa [← Option.some.inj hy]
      rw [ompLines, hcomplete, ← List.append_assoc, pieces_append (.inl hfront)]
  · rw [hnone] at hlines
    exact (hlines rfl).elim

/-- The first poll, whatever its window. -/
theorem readOmpRecent_spec (window : Nat) (hwindow : window ≠ 0) :
    Recent R file size (readOmpRecent R (file.take size) window) := by
  have hwhole : ∀ state,
      state = applyOmpLinesToState R emptyTurnState (ompLines R (file.take size)) →
      Recent R file size (state, (completeBytes R (file.take size)).length, 0) := by
    intro state hstate
    refine ⟨rfl, goodStart_zero, Nat.zero_le _, hstate, fun selected hselected => ?_⟩
    obtain ⟨before, -, -, hlines, -⟩ := exists_of_fromLastOmpUserLine hselected
    exact ⟨before, hlines⟩
  fun_induction readOmpRecent R (file.take size) window with
  | case1 window start read selected hselected =>
    obtain ⟨before, prompt, more, hlines, rfl, hprompt⟩ := exists_of_fromLastOmpUserLine hselected
    by_cases hstart : start = 0
    · have hread : read = (ompLines R (file.take size),
          (completeBytes R (file.take size)).length) := by
        simp [read, hstart, readOmpJsonlLines_eq, ompLines]
      rw [hread] at hlines ⊢
      dsimp only at hlines
      rw [hstart]
      refine hwhole _ ?_
      rw [hlines, applyOmpLinesToState_prompt hprompt]
    · have hread : read = readOmpJsonlLines R (file.take size) start true := by
        simp [read, Nat.pos_of_ne_zero hstart]
      have hne : (readOmpJsonlLines R (file.take size) start true).1 ≠ [] := by
        rw [← hread, hlines]
        simp
      obtain ⟨torn, hgood, hoffset, hle, hheld, front, hall⟩ :=
        readOmpJsonlLines_dropFirst (Nat.sub_le _ _) hne
      rw [← hread] at hoffset hheld hall
      refine ⟨hoffset, hgood, hoffset ▸ hle, ?_, fun selected' hselected' => ?_⟩
      · rw [hheld, hlines, ← List.append_assoc, applyOmpLinesToState_prompt hprompt]
      · rw [hall, fromLastOmpUserLine_append hselected] at hselected'
        obtain rfl := Option.some.inj hselected'
        exact ⟨torn ++ before, by rw [hheld, hlines, List.append_assoc]⟩
  | case2 window start read hnone hstop =>
    have hstart : start = 0 := by
      rcases hstop with hstart | hwindow
      · exact hstart
      · contradiction
    have hread : read = (ompLines R (file.take size),
        (completeBytes R (file.take size)).length) := by
      simp [read, hstart, readOmpJsonlLines_eq, ompLines]
    rw [hread]
    exact hwhole _ rfl
  | case3 window start read hnone hmore ih =>
    refine ih ?_
    have hstart : start ≠ 0 := fun h => hmore (.inl h)
    omega

lemma readOmpStateFromRecent_spec :
    Recent R file size (readOmpStateFromRecent R (file.take size)) := by
  unfold readOmpStateFromRecent
  split_ifs with hempty
  · have hcomplete : completeBytes R (file.take size) = [] := by
      rw [hempty, completeBytes_nil]
    refine ⟨by rw [hcomplete]; rfl, goodStart_zero, le_rfl, by rw [hcomplete]; rfl,
      fun _ hselected => ?_⟩
    rw [ompLines, hcomplete, pieces_nil] at hselected
    cases hselected
  · refine readOmpRecent_spec _ ?_
    have := List.length_pos_of_ne_nil hempty
    unfold ompTailBytes
    omega

/-- The first poll stands for lines that go back to the last prompt. -/
theorem tracks_first {content : Option CodexContent} (hlength : size ≤ file.length)
    (hread : readOmpSessionTurn R (file.take size) none = (content, c)) :
    ∃ held, content = ompStateToContent R (applyOmpLinesToState R emptyTurnState held) ∧
      Tracks R file size c (if content.any fun content => content.hasOpenTurn then held else []) ∧
      ∀ selected, fromLastOmpUserLine R (ompLines R (file.take size)) = some selected →
        ∃ before, held = before ++ selected := by
  obtain ⟨hoffset, hgood, hle, hstate, hprompt⟩ :=
    @readOmpStateFromRecent_spec R file size
  unfold readOmpSessionTurn at hread
  dsimp only at hread
  rw [hstate] at hread
  obtain ⟨hcontent, hc⟩ := Prod.mk.inj hread
  rw [hcontent] at hc
  refine ⟨_, hcontent.symm, ?_, hprompt⟩
  subst hc
  refine ⟨hoffset, ?_, fun hopen => ?_, ?_⟩
  · rw [hoffset, List.length_take.trans (min_eq_left hlength)]
    have hstarts := (completeBytes_isPrefix (R := R) (file.take size)).length_le
    rw [List.length_take.trans (min_eq_left hlength)] at hstarts
    exact max_eq_left hstarts
  · rw [if_pos hopen]
    exact ⟨hgood, hle⟩
  · dsimp only
    split_ifs <;> rfl

end Tendwire

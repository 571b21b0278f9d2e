import Tendwire.Codex.Rollout
import Tendwire.Framing.Lines

/-!
# Polls over a rollout

What a poll reads are the complete records between two checkpoints, so that two runs of polls
that catch up read the same records.
-/

namespace Tendwire

open Framing

variable {R : CodexRules} {file : List UInt8} {w w' : CodexWork} {c c' : CodexCheckpoint}

/-- The event of a line that is read. -/
def eventOf (R : CodexRules) (raw : List UInt8) : Option CodexSemanticEvent :=
  (codexLineEvent R raw).toOption.join

namespace CodexWork

def advanceLine (R : CodexRules) (w : CodexWork) (raw : List UInt8) : CodexWork :=
  w.advance R (eventOf R raw) raw.length

/-- The work after some records. -/
def advanceLines (R : CodexRules) (w : CodexWork) (lines : List (List UInt8)) : CodexWork :=
  lines.foldl (advanceLine R) w

@[simp] lemma advanceLines_nil : w.advanceLines R [] = w := rfl

@[simp] lemma advanceLines_cons (raw : List UInt8) (lines : List (List UInt8)) :
    w.advanceLines R (raw :: lines) = (w.advanceLine R raw).advanceLines R lines := rfl

lemma advanceLines_append (lines lines' : List (List UInt8)) :
    w.advanceLines R (lines ++ lines') = (w.advanceLines R lines).advanceLines R lines' :=
  List.foldl_append

/-- The work at the end of a poll. -/
def ended (w : CodexWork) (partialRecord : List UInt8) (observedSize : Nat) : CodexWork :=
  { w with
    partialRecord := partialRecord
    observedSize := observedSize }

lemma committedOffset_advanceLine (raw : List UInt8) :
    (w.advanceLine R raw).committedOffset = w.committedOffset + raw.length + 1 := rfl

end CodexWork

lemma committedOffset_advanceLines (lines : List (List UInt8)) :
    (w.advanceLines R lines).committedOffset =
      w.committedOffset + (join 10 lines).length := by
  induction lines generalizing w with
  | nil => rfl
  | cons raw lines ih =>
    rw [CodexWork.advanceLines_cons, ih, CodexWork.committedOffset_advanceLine, join_cons]
    simp only [List.length_append, List.length_cons]
    omega

/-- What a scan has done with the bytes of the file. -/
structure Scanned (R : CodexRules) (w : CodexWork) (stream : List UInt8) (w' : CodexWork)
    (lines : List (List UInt8)) : Prop where
  whole : ∀ raw ∈ lines, 10 ∉ raw
  read : ∀ raw ∈ lines, ∃ event, codexLineEvent R raw = .ok event
  result : ∃ tail unread observed, 10 ∉ tail ∧ stream = join 10 lines ++ (tail ++ unread) ∧
    w' = (w.advanceLines R lines).ended tail observed

/-- A scan that does not raise applies the complete records up to its end. -/
theorem codexScan_spec {buffer bytes : List UInt8} (hbuffer : 10 ∉ buffer)
    (h : codexScan R w buffer bytes = .ok w') :
    ∃ lines, Scanned R w (buffer ++ bytes) w' lines := by
  induction bytes generalizing w buffer with
  | nil =>
    unfold codexScan at h
    split at h
    · cases h
    · cases h
      exact ⟨[], by simp, by simp, buffer, [], w.observedSize, hbuffer, by simp, rfl⟩
  | cons b rest ih =>
    unfold codexScan at h
    split at h
    · next hb =>
      subst hb
      split at h
      · cases h
      · split at h
        · cases h
        · next event hevent =>
          have hline : eventOf R buffer = event := by
            unfold eventOf
            rw [hevent]
            rfl
          dsimp only at h
          split at h
          · cases h
            refine ⟨[buffer], by simpa using hbuffer, ?_, [], rest,
              (w.advance R event buffer.length).committedOffset, by simp, by simp, ?_⟩
            · rintro raw hraw
              obtain rfl := List.mem_singleton.mp hraw
              exact ⟨event, hevent⟩
            · rw [CodexWork.advanceLines_cons, CodexWork.advanceLine, hline]
              rfl
          · obtain ⟨lines, hwhole, hread, tail, unread, observed, htail, hstream, hresult⟩ :=
              ih (by simp) h
            refine ⟨buffer :: lines, ?_, ?_, tail, unread, observed, htail, ?_, ?_⟩
            · exact List.forall_mem_cons.mpr ⟨hbuffer, hwhole⟩
            · exact List.forall_mem_cons.mpr ⟨⟨event, hevent⟩, hread⟩
            · rw [join_cons, List.append_assoc, List.cons_append, ← hstream, List.nil_append]
            · rw [CodexWork.advanceLines_cons, CodexWork.advanceLine, hline]
              exact hresult
    · next hb =>
      have hbuffer' : 10 ∉ buffer ++ [b] := by
        simp only [List.mem_append, List.mem_singleton, not_or]
        exact ⟨hbuffer, fun h => hb h.symm⟩
      obtain ⟨lines, hscan⟩ := ih hbuffer' h
      rw [List.append_assoc] at hscan
      exact ⟨lines, hscan⟩

/-- A thawed checkpoint has its coordinates and flags, but no text except the commentary. -/
lemma thaw_spec (h : c.thaw R file = .ok w) :
    ∃ items, codexMaterializeStreamItems R file c.streamSpans = .ok items ∧
      w = ⟨c.committedOffset, c.partialRecord, file.length, c.activeTurnId, c.lastContentTurnId,
        c.turnOpen, c.finalSeen, c.complete, c.internalTurn, items, none, none, false⟩ := by
  unfold CodexCheckpoint.thaw at h
  cases hitems : codexMaterializeStreamItems R file c.streamSpans with
  | error e =>
    rw [hitems] at h
    cases h
  | ok items =>
    rw [hitems] at h
    cases h
    exact ⟨items, rfl, rfl⟩

lemma committedOffset_thaw (h : c.thaw R file = .ok w) : w.committedOffset = c.committedOffset := by
  obtain ⟨items, -, rfl⟩ := thaw_spec h
  rfl

/-! ### Runs -/

/-- A checkpoint of a rollout: the file goes on behind it with the unfinished record. -/
structure CodexCheckpoint.Of (file : List UInt8) (c : CodexCheckpoint) : Prop where
  unfinished : 10 ∉ c.partialRecord
  onFile : c.partialRecord <+: file.drop c.committedOffset
  inFile : c.committedOffset ≤ file.length

structure CodexPoll where
  before : CodexCheckpoint
  /-- How many bytes of the rollout there are when the poll reads it. -/
  size : Nat
  content : Option CodexContent
  after : CodexCheckpoint

/-- The polls over a rollout as it grows, each from the checkpoint of the poll before. A poll that
raises leaves the checkpoint. -/
inductive CodexRun (R : CodexRules) (file : List UInt8) (c : CodexCheckpoint) :
    List CodexPoll → CodexCheckpoint → Prop
  | nil : CodexRun R file c [] c
  | snoc {polls : List CodexPoll} {p : CodexPoll} (hrun : CodexRun R file c polls p.before)
      (hseen : p.before.committedOffset + p.before.partialRecord.length ≤ p.size)
      (hsize : p.size ≤ file.length)
      (hread : readCodexIncremental R (file.take p.size) p.before = .ok (p.content, p.after)) :
      CodexRun R file c (polls ++ [p]) p.after

/-- The records between two checkpoints. -/
def CodexPoll.lines (file : List UInt8) (p : CodexPoll) : List (List UInt8) :=
  records 10 ((file.take p.after.committedOffset).drop p.before.committedOffset)

lemma drop_take_eq_of_isPrefix {buffer : List UInt8} {n size : Nat}
    (hstarts : buffer <+: file.drop n) (hseen : n + buffer.length ≤ size) :
    (file.take size).drop n = buffer ++ (file.take size).drop (n + buffer.length) := by
  obtain ⟨rest, hrest⟩ := hstarts
  have hdrop : file.drop (n + buffer.length) = rest := by
    rw [← List.drop_drop, ← hrest, List.drop_left]
  rw [List.drop_take, List.drop_take, hdrop, ← hrest,
    List.take_append, List.take_of_length_le (by omega), Nat.sub_add_eq]

/-- A poll that does not raise reads the records up to its new checkpoint. -/
structure PollRead (R : CodexRules) (file : List UInt8) (p : CodexPoll) (w : CodexWork) : Prop where
  thawed : p.before.thaw R (file.take p.size) = .ok w
  placed : p.after.Of file
  seen : p.after.committedOffset + p.after.partialRecord.length ≤ p.size
  bytes : join 10 (p.lines file) =
    (file.take p.after.committedOffset).drop p.before.committedOffset
  forward : p.after.committedOffset = p.before.committedOffset + (join 10 (p.lines file)).length
  whole : ∀ raw ∈ p.lines file, 10 ∉ raw
  read : ∀ raw ∈ p.lines file, ∃ event, codexLineEvent R raw = .ok event
  content_eq : p.content = (w.advanceLines R (p.lines file)).content R
  after_eq : ∃ tail observed,
    p.after = ((w.advanceLines R (p.lines file)).ended tail observed).freeze

theorem readCodexIncremental_spec {p : CodexPoll} (hc : p.before.Of file)
    (hseen : p.before.committedOffset + p.before.partialRecord.length ≤ p.size)
    (hsize : p.size ≤ file.length)
    (h : readCodexIncremental R (file.take p.size) p.before = .ok (p.content, p.after)) :
    ∃ w, PollRead R file p w := by
  unfold readCodexIncremental at h
  split at h
  · cases h
  next w hthaw =>
  dsimp only at h
  split at h
  · cases h
  split at h
  · cases h
  next w' hscan =>
  obtain ⟨hcontent, hafter⟩ := Prod.mk.inj (Except.ok.inj h)
  obtain ⟨lines, hwhole, hread, tail, unread, observed, htail, hstream, hresult⟩ :=
    codexScan_spec hc.unfinished hscan
  rw [← drop_take_eq_of_isPrefix hc.onFile hseen] at hstream
  have hw := committedOffset_thaw hthaw
  have hoffset : p.after.committedOffset =
      p.before.committedOffset + (join 10 lines).length := by
    rw [← hafter, hresult, ← hw, ← committedOffset_advanceLines]
    rfl
  have htaken : join 10 lines ++ tail <+: file.drop p.before.committedOffset := by
    rw [← List.append_assoc, List.drop_take] at hstream
    exact (List.prefix_append _ unread).trans (hstream ▸ List.take_prefix _ _)
  have hbytes : (file.take p.after.committedOffset).drop p.before.committedOffset =
      join 10 lines := by
    obtain ⟨rest, hrest⟩ := htaken
    rw [hoffset, List.drop_take, ← hrest, List.append_assoc, Nat.add_sub_cancel_left,
      List.take_left]
  have hlines : p.lines file = lines := by
    rw [CodexPoll.lines, hbytes, records_join hwhole]
  have htail' : p.after.partialRecord = tail := by
    rw [← hafter, hresult]
    rfl
  have hlength : (join 10 lines).length + tail.length ≤ p.size - p.before.committedOffset := by
    have := congrArg List.length hstream
    simp only [List.length_append, List.length_drop, List.length_take] at this
    omega
  refine ⟨w, hthaw, ⟨?_, ?_, ?_⟩, ?_, ?_, ?_, ?_, ?_, ?_, tail, observed, ?_⟩
  · rwa [htail']
  · obtain ⟨rest, hrest⟩ := htaken
    rw [hoffset, htail', ← List.drop_drop, ← hrest, List.append_assoc, List.drop_left]
    exact List.prefix_append _ _
  · have := hc.inFile
    omega
  · rw [hoffset, htail']
    omega
  · rw [hlines, hbytes]
  · rw [hlines, hoffset]
  · rwa [hlines]
  · rwa [hlines]
  · rw [hlines, ← hcontent, hresult]
    rfl
  · rw [hlines, ← hafter, hresult]

namespace CodexRun

variable {polls : List CodexPoll}

theorem of_file (hrun : CodexRun R file c polls c') (hc : c.Of file) : c'.Of file := by
  induction hrun with
  | nil => exact hc
  | snoc _ hseen hsize hread ih =>
    obtain ⟨w, hpoll⟩ := readCodexIncremental_spec ih hseen hsize hread
    exact hpoll.placed

/-- The last poll of a run. -/
theorem last_poll {p : CodexPoll} (hrun : CodexRun R file c (polls ++ [p]) c') (hc : c.Of file) :
    CodexRun R file c polls p.before ∧ c' = p.after ∧ p.size ≤ file.length ∧
      p.before.Of file ∧ ∃ w, PollRead R file p w := by
  generalize hall : polls ++ [p] = all at hrun
  cases hrun with
  | nil => simp at hall
  | snoc hrun hseen hsize hread =>
    obtain ⟨rfl, rfl⟩ := List.append_singleton_inj.mp hall
    have hbefore := hrun.of_file hc
    exact ⟨hrun, rfl, hsize, hbefore, readCodexIncremental_spec hbefore hseen hsize hread⟩

/-- A run reads the records between its checkpoints. -/
theorem join_lines (hrun : CodexRun R file c polls c') (hc : c.Of file) :
    (∀ raw ∈ polls.flatMap (CodexPoll.lines file), 10 ∉ raw) ∧
      join 10 (polls.flatMap (CodexPoll.lines file)) ++ file.drop c'.committedOffset =
        file.drop c.committedOffset := by
  induction hrun with
  | nil => simp
  | @snoc polls p hrun hseen hsize hread ih =>
    obtain ⟨w, hpoll⟩ := readCodexIncremental_spec (hrun.of_file hc) hseen hsize hread
    obtain ⟨hwhole, hjoin⟩ := ih
    rw [List.flatMap_append, List.flatMap_singleton]
    refine ⟨?_, ?_⟩
    · intro raw hraw
      rcases List.mem_append.mp hraw with hraw | hraw
      · exact hwhole raw hraw
      · exact hpoll.whole raw hraw
    · rw [join_append, List.append_assoc, hpoll.bytes, ← hjoin]
      congr 1
      have hle : p.before.committedOffset ≤ p.after.committedOffset := by
        rw [hpoll.forward]
        omega
      obtain ⟨k, hk⟩ := Nat.exists_eq_add_of_le hle
      rw [hk, ← List.drop_drop, List.drop_take, Nat.add_sub_cancel_left, List.take_append_drop]

/-- A run that has read the whole file has read each of its records. -/
theorem lines_of_caughtUp (hrun : CodexRun R file c polls c') (hc : c.Of file)
    (hcaught : c'.committedOffset + c'.partialRecord.length = file.length) :
    polls.flatMap (CodexPoll.lines file) = records 10 (file.drop c.committedOffset) := by
  obtain ⟨hwhole, hjoin⟩ := hrun.join_lines hc
  have hafter := hrun.of_file hc
  have htail : file.drop c'.committedOffset = c'.partialRecord := by
    refine (hafter.onFile.eq_of_length ?_).symm
    rw [List.length_drop]
    omega
  rw [← hjoin, htail, records_join_append hwhole hafter.unfinished]

end CodexRun

end Tendwire

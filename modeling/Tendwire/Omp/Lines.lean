import Tendwire.Omp.Session
import Tendwire.Framing.Pieces

/-!
# Lines of a session

What a poll reads are the lines that are complete: those with an end and an unfinished last one
that is JSON already.
-/

namespace Tendwire

open Framing

variable {R : OmpRules} {file a b buffer blob : List UInt8}

/-- The bytes of the complete lines. -/
def completeBytes (R : OmpRules) (bytes : List UInt8) : List UInt8 :=
  if (R.decode (unfinished isLineEnd bytes)).isNone then
    bytes.take (bytes.length - (unfinished isLineEnd bytes).length)
  else bytes

lemma completeBytes_append (ha : Ends isLineEnd a) :
    completeBytes R (a ++ b) = a ++ completeBytes R b := by
  have hle : (unfinished isLineEnd b).length ≤ b.length := List.IsSuffix.length_le (List.rtakeWhile_suffix _ _)
  unfold completeBytes
  rw [unfinished_append ha]
  split_ifs
  · rw [List.length_append, Nat.add_sub_assoc hle, List.take_length_add_append]
  · rfl

lemma stripLineEnd_append {body ends : List UInt8} (hbody : ∀ x ∈ body, isLineEnd x = false)
    (hends : ∀ x ∈ ends, isLineEnd x = true) : stripLineEnd (body ++ ends) = body := by
  have hkeep : body.reverse.dropWhile isLineEnd = body.reverse := by
    cases hreverse : body.reverse with
    | nil => rfl
    | cons x rest =>
      refine List.dropWhile_cons_of_neg ?_
      have hx : x ∈ body := List.mem_reverse.mp (hreverse ▸ List.mem_cons_self)
      simp [hbody x hx]
  unfold stripLineEnd
  rw [List.reverse_append, List.dropWhile_append_of_pos (by simpa using hends), hkeep,
    List.reverse_reverse]

/-- A line with an end is complete. -/
lemma ompTakeSegments_cons {rest : List (List UInt8)} {ends : List UInt8} {e : UInt8}
    (hbuffer : ∀ x ∈ buffer, isLineEnd x = false)
    (hends : ∀ x ∈ ends ++ [e], isLineEnd x = true) (offset : Nat) :
    ompTakeSegments R ((buffer ++ (ends ++ [e])) :: rest) offset =
      let taken := ompTakeSegments R rest (offset + (buffer ++ (ends ++ [e])).length)
      (pieces isLineEnd buffer ++ taken.1, taken.2) := by
  have he := hends e (by simp)
  rw [ompTakeSegments, stripLineEnd_append hbuffer hends]
  by_cases hnil : buffer = []
  · simp [hnil]
  · simp [hnil, he, pieces_of_run hbuffer hnil]

/-- A line with an end before lines that are read. -/
lemma ompTakeSegments_line {rest ends : List UInt8} {e : UInt8}
    (hbuffer : ∀ x ∈ buffer, isLineEnd x = false)
    (hends : ∀ x ∈ ends ++ [e], isLineEnd x = true)
    (hrest : ∀ offset, ompTakeSegments R (splitLinesKeepEnds [] rest) offset =
      (pieces isLineEnd (completeBytes R rest), offset + (completeBytes R rest).length))
    (offset : Nat) :
    ompTakeSegments R ((buffer ++ (ends ++ [e])) :: splitLinesKeepEnds [] rest) offset =
      (pieces isLineEnd (completeBytes R (buffer ++ ((ends ++ [e]) ++ rest))),
        offset + (completeBytes R (buffer ++ ((ends ++ [e]) ++ rest))).length) := by
  have he : Ends isLineEnd (buffer ++ (ends ++ [e])) := by
    rw [← List.append_assoc]
    exact .concat (hends e (by simp))
  have hassoc : buffer ++ ((ends ++ [e]) ++ rest) = (buffer ++ (ends ++ [e])) ++ rest :=
    (List.append_assoc _ _ _).symm
  rw [ompTakeSegments_cons hbuffer hends, hrest, hassoc, completeBytes_append he,
    pieces_append (.inl he), pieces_append_seps hends]
  simp only [List.length_append, Nat.add_assoc]

/-- The lines that a poll reads and the offset behind them. -/
theorem ompTakeSegments_eq (hbuffer : ∀ x ∈ buffer, isLineEnd x = false) (offset : Nat) :
    ompTakeSegments R (splitLinesKeepEnds buffer blob) offset =
      (pieces isLineEnd (completeBytes R (buffer ++ blob)),
        offset + (completeBytes R (buffer ++ blob)).length) := by
  fun_induction splitLinesKeepEnds buffer blob generalizing offset with
  | case1 => simp [ompTakeSegments, completeBytes]
  | case2 buffer hne =>
    have hstrip : stripLineEnd buffer = buffer := by
      simpa using stripLineEnd_append hbuffer (nofun : ∀ x ∈ [], isLineEnd x = true)
    have hlast : buffer.getLast?.any isLineEnd = false := by
      simpa [List.getLast?_eq_some_getLast hne] using hbuffer _ (List.getLast_mem hne)
    rw [List.append_nil, completeBytes, unfinished_of_run hbuffer, ompTakeSegments, hstrip, hlast,
      if_neg hne]
    by_cases hdecode : (R.decode buffer).isNone = true
    · simp [hdecode]
    · simp [hdecode, ompTakeSegments, pieces_of_run hbuffer hne]
  | case3 buffer rest ih =>
    have hends : ∀ x ∈ [13] ++ [10], isLineEnd x = true := by decide +kernel
    exact ompTakeSegments_line hbuffer hends (fun offset => by simpa using ih (by simp) offset)
      offset
  | case4 buffer b rest hrest hend ih =>
    have hends : ∀ x ∈ [] ++ [b], isLineEnd x = true := by simpa using hend
    exact ompTakeSegments_line hbuffer hends (fun offset => by simpa using ih (by simp) offset)
      offset
  | case5 buffer b rest hrest hend ih =>
    have hbuffer' : ∀ x ∈ buffer ++ [b], isLineEnd x = false := by
      intro x hx
      rcases List.mem_append.mp hx with hx | hx
      · exact hbuffer x hx
      · rw [List.mem_singleton.mp hx]
        simpa using hend
    rw [ih hbuffer', List.append_assoc, List.singleton_append]

lemma readOmpJsonlLines_eq (start : Nat) :
    readOmpJsonlLines R file start false =
      (pieces isLineEnd (completeBytes R (file.drop start)),
        start + (completeBytes R (file.drop start)).length) := by
  unfold readOmpJsonlLines
  exact ompTakeSegments_eq (by simp) start

/-- The complete lines of a session. -/
def ompLines (R : OmpRules) (bytes : List UInt8) : List (List UInt8) :=
  pieces isLineEnd (completeBytes R bytes)

/-! ### Cuts -/

/-- A file of JSON lines: no line has a beginning that is JSON itself. -/
def OmpFile (R : OmpRules) (file : List UInt8) : Prop :=
  ∀ line ∈ pieces isLineEnd file, ∀ q, q <+: line → q ≠ line → q ≠ [] → R.decode q = none

lemma completeBytes_isPrefix (bytes : List UInt8) : completeBytes R bytes <+: bytes := by
  unfold completeBytes
  split_ifs
  · exact List.take_prefix _ _
  · exact List.prefix_rfl

@[simp] lemma completeBytes_nil : completeBytes R [] = [] :=
  List.prefix_nil.mp (completeBytes_isPrefix [])

lemma completeBytes_append_cons {x : UInt8} (hx : isLineEnd x = true) :
    completeBytes R (a ++ x :: b) = a ++ x :: completeBytes R b := by
  rw [List.append_cons, completeBytes_append (.concat hx), List.append_assoc,
    List.singleton_append]

lemma completeBytes_append_of_mem (h : ∃ x ∈ b, isLineEnd x = true) :
    completeBytes R (a ++ b) = a ++ completeBytes R b := by
  obtain ⟨x, hx, hend⟩ := h
  obtain ⟨b₁, b₂, rfl⟩ := List.append_of_mem hx
  rw [← List.append_assoc, completeBytes_append_cons hend, completeBytes_append_cons hend,
    List.append_assoc]

lemma completeBytes_of_run {run : List UInt8} (hrun : ∀ x ∈ run, isLineEnd x = false) :
    completeBytes R run = if (R.decode run).isNone then [] else run := by
  unfold completeBytes
  rw [unfinished_of_run hrun, Nat.sub_self, List.take_zero]

/-- The complete lines of a file end where no line is under way, however the file goes on. -/
theorem exists_completeBytes (hfile : OmpFile R file) {size size' : Nat} (hsize : size ≤ size') :
    ∃ b, file.take size' = completeBytes R (file.take size) ++ b ∧
      Meets isLineEnd (completeBytes R (file.take size)) b ∧
      completeBytes R (file.take size') =
        completeBytes R (file.take size) ++ completeBytes R b := by
  obtain ⟨more, hmore⟩ : ∃ more, file.take size' = file.take size ++ more := by
    obtain ⟨more, hmore⟩ : file.take size <+: file.take size' :=
      List.take_prefix_take_left hsize
    exact ⟨more, hmore.symm⟩
  obtain ⟨rest, hrest⟩ := List.take_prefix size' file
  obtain ⟨front, run, hfront, hends, hrun⟩ := exists_run isLineEnd (file.take size)
  rw [hmore, hfront] at hrest
  rw [hmore, hfront, completeBytes_append hends, completeBytes_of_run hrun]
  split_ifs with hdecode
  · refine ⟨run ++ more, by simp, .inl (by simpa using hends), ?_⟩
    rw [List.append_nil, List.append_assoc, completeBytes_append hends]
  · refine ⟨more, rfl, ?_⟩
    by_cases hnil : run = []
    · rw [hnil, List.append_nil]
      exact ⟨.inl hends, completeBytes_append hends⟩
    cases more with
    | nil =>
      refine ⟨.inr nofun, ?_⟩
      rw [List.append_nil, completeBytes_append hends, completeBytes_of_run hrun, if_neg hdecode,
        completeBytes_nil, List.append_nil]
    | cons x more =>
      have hx : isLineEnd x = true := by
        -- a line that goes on has no beginning that is JSON
        by_contra hx
        have hline : run ++ (x :: more ++ rest).takeWhile (!isLineEnd ·) ∈
            pieces isLineEnd file := by
          rw [← hrest, List.append_assoc, List.append_assoc]
          exact exists_piece_of_run hends hrun hnil
        have hnone := hfile _ hline run (List.prefix_append _ _) (by simp [hx]) hnil
        rw [hnone] at hdecode
        exact hdecode rfl
      exact ⟨.inr (by simpa using hx), completeBytes_append_of_mem ⟨x, List.mem_cons_self, hx⟩⟩

end Tendwire

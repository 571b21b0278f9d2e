import Mathlib.Data.List.Infix

/-!
# Copies of a record

How often a record with its separator stands in a stream, wherever it starts.
-/

namespace Framing

universe u

variable {α : Type u} [DecidableEq α] {sep : α} {record piece stream frame : List α}

/-- The copies of a frame in a stream, counted by where they end. -/
def copies (frame stream : List α) : ℕ := stream.inits.countP fun l => decide (frame <:+ l)

lemma copies_nil (hframe : frame ≠ []) : copies frame [] = 0 := by
  have hnot : ¬frame <:+ [] := fun h => hframe (List.suffix_nil.mp h)
  simp [copies, hnot]

lemma copies_concat (x : α) : copies frame (stream ++ [x]) = copies frame stream +
    if frame <:+ stream ++ [x] then 1 else 0 := by
  unfold copies
  rw [List.inits_append, List.countP_append]
  simp [List.countP_singleton]

omit [DecidableEq α] in
/-- A copy ends with a separator. -/
lemma eq_of_suffix_concat {x : α} (h : record ++ [sep] <:+ stream ++ [x]) : x = sep := by
  obtain ⟨front, h⟩ := h
  rw [← List.append_assoc] at h
  exact (List.cons.inj (List.append_inj_right' h rfl)).1.symm

/-- A piece without separators completes no copy. -/
theorem copies_append_of_not_mem (hpiece : sep ∉ piece) :
    copies (record ++ [sep]) (stream ++ piece) = copies (record ++ [sep]) stream := by
  induction piece using List.reverseRecOn with
  | nil => rw [List.append_nil]
  | append_singleton piece x ih =>
    rw [List.mem_append, List.mem_singleton, not_or] at hpiece
    have hnot : ¬record ++ [sep] <:+ stream ++ piece ++ [x] :=
      fun h => hpiece.2 (eq_of_suffix_concat h).symm
    rw [← List.append_assoc, copies_concat, if_neg hnot]
    exact ih hpiece.1

/-- A record with its separator completes one copy at most. -/
theorem copies_append_record (hpiece : sep ∉ piece) :
    copies (record ++ [sep]) (stream ++ (piece ++ [sep])) = copies (record ++ [sep]) stream +
      if record ++ [sep] <:+ stream ++ (piece ++ [sep]) then 1 else 0 := by
  rw [← List.append_assoc, copies_concat, copies_append_of_not_mem hpiece]

end Framing

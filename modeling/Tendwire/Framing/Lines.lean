import Mathlib.Data.List.Basic

/-!
# Records behind separators

A stream of records, each with a separator behind it, can be cut into its records in one way.
-/

namespace Framing

universe u

variable {α : Type u} {sep : α}

def join (sep : α) (records : List (List α)) : List α := records.flatMap fun r => r ++ [sep]

@[simp] lemma join_nil : join sep [] = [] := rfl

@[simp] lemma join_cons (r : List α) (rs : List (List α)) :
    join sep (r :: rs) = r ++ sep :: join sep rs := by
  simp [join]

lemma join_append (rs rs' : List (List α)) : join sep (rs ++ rs') = join sep rs ++ join sep rs' := by
  simp [join]

variable [BEq α]

/-- The records that are complete. -/
def records (sep : α) (stream : List α) : List (List α) := (stream.splitOn sep).dropLast

variable [LawfulBEq α]

lemma splitOn_of_not_mem {tail : List α} (h : sep ∉ tail) : tail.splitOn sep = [tail] := by
  simpa using @List.splitOn_intercalate _ [tail] _ _ sep (by simpa using h) (by simp)

/-- The records of a stream do not depend on how it was written. -/
theorem records_join_append {rs : List (List α)} (hrs : ∀ r ∈ rs, sep ∉ r) {tail : List α}
    (htail : sep ∉ tail) : records sep (join sep rs ++ tail) = rs := by
  unfold records
  induction rs with
  | nil => simp [splitOn_of_not_mem htail]
  | cons r rs ih =>
    obtain ⟨hr, hrs⟩ := List.forall_mem_cons.mp hrs
    rw [join_cons, List.append_assoc, List.cons_append,
      List.splitOn_append_cons_self_of_not_mem hr]
    have hne : (join sep rs ++ tail).splitOn sep ≠ [] := by simp
    rw [List.dropLast_cons_of_ne_nil hne, ih hrs]

theorem records_join {rs : List (List α)} (hrs : ∀ r ∈ rs, sep ∉ r) :
    records sep (join sep rs) = rs := by
  simpa using @records_join_append _ _ _ _ _ hrs [] (by simp)

end Framing

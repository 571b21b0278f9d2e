import Mathlib.Data.List.DropRight

/-!
# Pieces between separators

The pieces of a stream are its runs without separators. A stream that is cut where no piece is
under way has the pieces of its two parts.
-/

namespace Framing

universe u

variable {α : Type u} {p : α → Bool} {sep : α} {a b l : List α}

/-- The runs of a stream without separators. -/
def pieces (p : α → Bool) (l : List α) : List (List α) := (l.splitOnP p).filter (!·.isEmpty)

/-- The run at the end of a stream. -/
def unfinished (p : α → Bool) (l : List α) : List α := l.rtakeWhile (!p ·)

/-- No piece is under way at the end of a stream. -/
def Ends (p : α → Bool) (l : List α) : Prop := ∀ x, l.getLast? = some x → p x = true

/-- No piece goes on from one stream to the other. -/
def Meets (p : α → Bool) (a b : List α) : Prop := Ends p a ∨ ∀ x, b.head? = some x → p x = true

@[simp] lemma pieces_nil : pieces p [] = [] := by simp [pieces]

lemma pieces_of_run (h : ∀ x ∈ l, p x = false) (hne : l ≠ []) : pieces p l = [l] := by
  simp [pieces, List.splitOnP_eq_singleton h, hne]

lemma pieces_append_cons (hsep : p sep = true) :
    pieces p (a ++ sep :: b) = pieces p a ++ pieces p b := by
  rw [pieces, List.splitOnP_append_cons a b hsep, List.filter_append]
  rfl

/-- A stream that is cut between pieces. -/
theorem pieces_append (h : Meets p a b) : pieces p (a ++ b) = pieces p a ++ pieces p b := by
  obtain ha | hb := h
  · induction a using List.reverseRecOn with
    | nil => simp
    | append_singleton a sep _ =>
      have hsep := ha sep (by simp)
      rw [List.append_assoc, List.singleton_append, pieces_append_cons hsep,
        pieces_append_cons hsep, pieces_nil, List.append_nil]
  · cases b with
    | nil => simp
    | cons sep b =>
      have hsep := hb sep rfl
      rw [pieces_append_cons hsep, ← List.nil_append (sep :: b), pieces_append_cons hsep,
        pieces_nil, List.nil_append]

lemma pieces_of_seps (h : ∀ x ∈ l, p x = true) : pieces p l = [] := by
  induction l with
  | nil => rfl
  | cons sep l ih =>
    obtain ⟨hsep, hl⟩ := List.forall_mem_cons.mp h
    rw [← List.nil_append (sep :: l), pieces_append_cons hsep, ih hl, pieces_nil,
      List.append_nil]

/-- Separators behind a stream add no pieces. -/
lemma pieces_append_seps (h : ∀ x ∈ b, p x = true) : pieces p (a ++ b) = pieces p a := by
  rw [pieces_append (.inr fun x hx => h x (List.mem_of_mem_head? hx)), pieces_of_seps h,
    List.append_nil]

lemma Ends.nil : Ends p ([] : List α) := nofun

lemma Ends.concat (hsep : p sep = true) : Ends p (a ++ [sep]) := by
  intro x hx
  simp only [List.getLast?_append, List.getLast?_singleton, Option.some_or, Option.some.injEq] at hx
  rwa [← hx]

lemma Ends.append (ha : Ends p a) (hb : Ends p b) : Ends p (a ++ b) := by
  intro x hx
  rw [List.getLast?_append] at hx
  cases hlast : b.getLast? with
  | none =>
    rw [hlast] at hx
    exact ha x hx
  | some y =>
    rw [hlast] at hx
    exact hb x (hlast.trans hx)

lemma Ends.drop (h : Ends p a) (n : Nat) : Ends p (a.drop n) := by
  intro x hx
  rw [List.getLast?_drop] at hx
  split_ifs at hx
  exact h x hx

lemma Meets.drop (h : Meets p a b) (n : Nat) : Meets p (a.drop n) b := h.imp (·.drop n) id

lemma Meets.of_isPrefix (h : Meets p a b) (hl : l <+: b) : Meets p a l := by
  refine h.imp id fun hb x hx => hb x ?_
  obtain ⟨rest, rfl⟩ := hl
  rw [List.head?_append, hx]
  rfl

lemma unfinished_of_run (h : ∀ x ∈ l, p x = false) : unfinished p l = l :=
  List.rtakeWhile_eq_self_iff.mpr (by simpa using h)

lemma not_sep_of_mem_unfinished {x : α} (h : x ∈ unfinished p l) : p x = false := by
  simpa using List.mem_rtakeWhile_imp h

/-- The run at the end does not reach over a cut between pieces. -/
lemma unfinished_append (ha : Ends p a) : unfinished p (a ++ b) = unfinished p b := by
  induction b using List.reverseRecOn with
  | nil =>
    rw [List.append_nil]
    refine List.rtakeWhile_eq_nil_iff.mpr fun hne => ?_
    simpa using ha _ (List.getLast?_eq_some_getLast hne)
  | append_singleton b x ih =>
    unfold unfinished at ih ⊢
    rw [← List.append_assoc, List.rtakeWhile_concat, List.rtakeWhile_concat, ih]

/-- A stream ends with the run after its last separator. -/
lemma exists_run (p : α → Bool) (l : List α) :
    ∃ front run, l = front ++ run ∧ Ends p front ∧ ∀ x ∈ run, p x = false := by
  induction l using List.reverseRecOn with
  | nil => exact ⟨[], [], rfl, .nil, nofun⟩
  | append_singleton l x ih =>
    obtain ⟨front, run, rfl, hfront, hrun⟩ := ih
    cases hx : p x with
    | true => exact ⟨front ++ run ++ [x], [], by simp, .concat hx, nofun⟩
    | false =>
      refine ⟨front, run ++ [x], by simp, hfront, fun y hy => ?_⟩
      rcases List.mem_append.mp hy with hy | hy
      · exact hrun y hy
      · rwa [List.mem_singleton.mp hy]

/-- A run that is not cut at its beginning is the beginning of a piece. -/
lemma exists_piece_of_run {run rest : List α} (ha : Ends p a) (hrun : ∀ x ∈ run, p x = false)
    (hne : run ≠ []) : run ++ rest.takeWhile (!p ·) ∈ pieces p (a ++ (run ++ rest)) := by
  have hsplit : run ++ rest =
      (run ++ rest.takeWhile (!p ·)) ++ rest.dropWhile (!p ·) := by
    rw [List.append_assoc, List.takeWhile_append_dropWhile]
  have hline : ∀ x ∈ run ++ rest.takeWhile (!p ·), p x = false := by
    intro x hx
    rcases List.mem_append.mp hx with hx | hx
    · exact hrun x hx
    · simpa using List.mem_takeWhile_imp hx
  have hmeets : Meets p (run ++ rest.takeWhile (!p ·)) (rest.dropWhile (!p ·)) := by
    refine .inr fun x hx => ?_
    have := List.head?_dropWhile_not (!p ·) rest
    rw [hx] at this
    simpa using this
  rw [pieces_append (.inl ha), hsplit, pieces_append hmeets, pieces_of_run hline (by simp [hne])]
  simp

end Framing

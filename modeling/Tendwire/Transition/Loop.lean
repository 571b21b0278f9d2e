import Mathlib.Tactic.Common

/-!
# Loops

What every pass of a loop preserves or relates, the loop does.
-/

namespace Transition

universe u v w

variable {σ : Type u} {α : Type v} {ε : Type w}

theorem foldl_rel {R : σ → σ → Prop} (hrefl : ∀ s, R s s)
    (htrans : ∀ a b c, R a b → R b c → R a c) {f : σ → α → σ} (hstep : ∀ s a, R s (f s a))
    (l : List α) (s : σ) : R s (l.foldl f s) := by
  induction l generalizing s with
  | nil => exact hrefl s
  | cons a l ih => exact htrans _ _ _ (hstep s a) (ih (f s a))

theorem foldlM_rel {R : σ → σ → Prop} (hrefl : ∀ s, R s s)
    (htrans : ∀ a b c, R a b → R b c → R a c) {f : σ → α → Except ε σ}
    (hstep : ∀ s a s', f s a = .ok s' → R s s') (l : List α)
    {s s' : σ} (h : l.foldlM f s = .ok s') : R s s' := by
  induction l generalizing s with
  | nil =>
    cases h
    exact hrefl _
  | cons a l ih =>
    rw [List.foldlM_cons] at h
    cases hf : f s a with
    | error e =>
      rw [hf] at h
      cases h
    | ok s₁ =>
      rw [hf] at h
      exact htrans _ _ _ (hstep _ _ _ hf) (ih h)

theorem foldl_invariant {P : σ → Prop} {f : σ → α → σ} {l : List α}
    (hstep : ∀ s a, a ∈ l → P s → P (f s a)) {s : σ} (hs : P s) : P (l.foldl f s) := by
  induction l generalizing s with
  | nil => exact hs
  | cons a l ih =>
    exact ih (fun s b hb => hstep s b (List.mem_cons_of_mem a hb)) (hstep s a (by simp) hs)

theorem foldlM_invariant {P : σ → Prop} {f : σ → α → Except ε σ} {l : List α}
    (hstep : ∀ s a s', a ∈ l → P s → f s a = .ok s' → P s') {s s' : σ} (hs : P s)
    (h : l.foldlM f s = .ok s') : P s' := by
  induction l generalizing s with
  | nil =>
    cases h
    exact hs
  | cons a l ih =>
    rw [List.foldlM_cons] at h
    cases hf : f s a with
    | error e =>
      rw [hf] at h
      cases h
    | ok s₁ =>
      rw [hf] at h
      exact ih (fun s b s' hb => hstep s b s' (List.mem_cons_of_mem a hb))
        (hstep s a s₁ (by simp) hs hf) h

/-- The greatest element, or the start if that is greater. -/
lemma foldl_max_le_iff {l : List Nat} {a n : Nat} :
    l.foldl max a ≤ n ↔ a ≤ n ∧ ∀ x ∈ l, x ≤ n := by
  induction l generalizing a with
  | nil => simp
  | cons x l ih =>
    rw [List.foldl_cons, ih, Nat.max_le, List.forall_mem_cons, and_assoc]

/-- What one pass does for its element, and no other pass undoes, holds of every element in the
end. -/
theorem foldlM_settles {P : σ → α → Prop} {f : σ → α → Except ε σ} {l : List α}
    (hdone : ∀ s a s', f s a = .ok s' → P s' a)
    (hkeep : ∀ s a b s', P s a → f s b = .ok s' → P s' a) {s s' : σ}
    (h : l.foldlM f s = .ok s') : ∀ a ∈ l, P s' a := by
  induction l generalizing s with
  | nil => simp
  | cons a l ih =>
    intro b hb
    rw [List.foldlM_cons] at h
    cases hf : f s a with
    | error e =>
      rw [hf] at h
      cases h
    | ok s₁ =>
      rw [hf] at h
      rcases List.mem_cons.mp hb with rfl | hb
      · exact foldlM_invariant (P := fun t => P t b)
          (fun t c t' _ ht hc => hkeep t b c t' ht hc) (hdone s b s₁ hf) h
      · exact ih h b hb

/-- A loop whose body may `continue`, with the number of passes that did not. -/
def sweep (f : σ → α → Option σ) (l : List α) (s : σ) : σ × Nat :=
  l.foldl (fun acc a => match f acc.1 a with
    | some s' => (s', acc.2 + 1)
    | none => acc) (s, 0)

theorem sweep_invariant {P : σ → Prop} {f : σ → α → Option σ} {l : List α}
    (hstep : ∀ s a s', a ∈ l → P s → f s a = some s' → P s') {s : σ} (hs : P s) :
    P (sweep f l s).1 := by
  unfold sweep
  refine foldl_invariant (P := fun acc : σ × Nat => P acc.1) ?_ hs
  intro acc a ha hP
  cases hf : f acc.1 a with
  | none => exact hP
  | some s' => exact hstep _ _ _ ha hP hf

lemma foldl_count (f : σ → α → Option σ) (l : List α) (s : σ) (n : Nat) :
    l.foldl (fun acc a => match f acc.1 a with
      | some s' => (s', acc.2 + 1)
      | none => acc) (s, n) = ((sweep f l s).1, n + (sweep f l s).2) := by
  induction l generalizing s n with
  | nil => rfl
  | cons a l ih =>
    unfold sweep
    rw [List.foldl_cons, List.foldl_cons]
    cases hf : f s a with
    | none => exact ih s n
    | some s' =>
      simp only
      rw [ih s' (n + 1), ih s' (0 + 1)]
      simp only [Prod.mk.injEq, true_and]
      omega

lemma sweep_cons_none {f : σ → α → Option σ} {a : α} {s : σ} (h : f s a = none) (l : List α) :
    sweep f (a :: l) s = sweep f l s := by
  unfold sweep
  rw [List.foldl_cons, h]

lemma sweep_cons_some {f : σ → α → Option σ} {a : α} {s s' : σ} (h : f s a = some s')
    (l : List α) : sweep f (a :: l) s = ((sweep f l s').1, (sweep f l s').2 + 1) := by
  have hfold := foldl_count f l s' (0 + 1)
  unfold sweep at hfold ⊢
  rw [List.foldl_cons, h]
  simp only at hfold ⊢
  rw [hfold, Nat.zero_add, Nat.add_comm]

/-- Where no element is for it, a sweep does nothing. -/
theorem sweep_eq_self {f : σ → α → Option σ} {l : List α} {s : σ} (h : ∀ a ∈ l, f s a = none) :
    sweep f l s = (s, 0) := by
  induction l with
  | nil => rfl
  | cons a l ih =>
    rw [sweep_cons_none (h a (by simp))]
    exact ih fun b hb => h b (List.mem_cons_of_mem a hb)

/-- Otherwise the first element that is for it is met in the state the sweep began in. -/
theorem sweep_first {f : σ → α → Option σ} {l : List α} {s : σ} (h : ∃ a ∈ l, f s a ≠ none) :
    ∃ a ∈ l, ∃ s' rest, f s a = some s' ∧ (sweep f l s).1 = (sweep f rest s').1 := by
  induction l with
  | nil =>
    obtain ⟨a, ha, -⟩ := h
    cases ha
  | cons a l ih =>
    cases hf : f s a with
    | some s' => exact ⟨a, by simp, s', l, hf, by rw [sweep_cons_some hf]⟩
    | none =>
      have htail : ∃ b ∈ l, f s b ≠ none := by
        obtain ⟨b, hb, hne⟩ := h
        cases hb with
        | head => exact absurd hf hne
        | tail _ hb => exact ⟨b, hb, hne⟩
      obtain ⟨b, hb, s', rest, hs', heq⟩ := ih htail
      exact ⟨b, List.mem_cons_of_mem a hb, s', rest, hs', by rw [sweep_cons_none hf, heq]⟩

/-- What holds of an element once the sweep has passed it, and no later step undoes, holds of
every element in the end. -/
theorem sweep_settles {P : σ → α → Prop} {f : σ → α → Option σ}
    (hpass : ∀ s a, f s a = none → P s a) (hdone : ∀ s a s', f s a = some s' → P s' a)
    (hkeep : ∀ s a b s', P s a → f s b = some s' → P s' a) (l : List α) (s : σ) :
    ∀ a ∈ l, P (sweep f l s).1 a := by
  have hrest (l : List α) (s : σ) (a : α) (h : P s a) : P (sweep f l s).1 a :=
    sweep_invariant (P := fun t => P t a) (fun t b t' _ ht hb => hkeep t a b t' ht hb) h
  induction l generalizing s with
  | nil => simp
  | cons a l ih =>
    intro b hb
    cases hf : f s a with
    | none =>
      rw [sweep_cons_none hf]
      rcases List.mem_cons.mp hb with rfl | hb
      · exact hrest l s b (hpass s b hf)
      · exact ih s b hb
    | some s' =>
      rw [sweep_cons_some hf]
      rcases List.mem_cons.mp hb with rfl | hb
      · exact hrest l s' b (hdone s b s' hf)
      · exact ih s' b hb

end Transition

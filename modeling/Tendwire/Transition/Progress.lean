import Mathlib.Order.Basic
import Mathlib.Data.Nat.Init

/-!
# Progress along a schedule

What stays as it is until it goes on, and goes on at some time, comes to pass.
-/

namespace Transition

variable {P Q : ℕ → Prop} {n : ℕ}

theorem eventually_of_unless (hinit : P n) (hunless : ∀ m, n ≤ m → P m → P (m + 1) ∨ Q (m + 1))
    (hgo : ∃ m, n ≤ m ∧ (P m → Q (m + 1))) : ∃ m, n ≤ m ∧ Q m := by
  obtain ⟨m, hnm, hm⟩ := hgo
  have hstays : P m ∨ ∃ k, n ≤ k ∧ Q k := by
    clear hm
    induction m, hnm using Nat.le_induction with
    | base => exact .inl hinit
    | succ m hnm ih =>
      rcases ih with hP | hQ
      · rcases hunless m hnm hP with hP | hQ
        · exact .inl hP
        · exact .inr ⟨m + 1, Nat.le_succ_of_le hnm, hQ⟩
      · exact .inr hQ
  rcases hstays with hP | hQ
  · exact ⟨m + 1, Nat.le_succ_of_le hnm, hm hP⟩
  · exact hQ

end Transition

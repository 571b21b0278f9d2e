import Mathlib.Data.Nat.Init
import Mathlib.Tactic.Common

/-!
# Atomic calls under a schedule

A machine answers each call and moves on. Concurrent callers whose calls are atomic are a
schedule: the order in which the calls take effect. A finite run is a prefix of a schedule.
-/

namespace Transition

universe u v w

structure Machine (σ : Type u) (ι : Type v) (ρ : Type w) where
  step : σ → ι → σ × ρ

namespace Machine

variable {σ : Type u} {ι : Type v} {ρ : Type w} (M : Machine σ ι ρ)

/-- The state before call `n`. -/
def stateAt (s : σ) (calls : ℕ → ι) : ℕ → σ
  | 0 => s
  | n + 1 => (M.step (stateAt s calls n) (calls n)).1

def answerAt (s : σ) (calls : ℕ → ι) (n : ℕ) : ρ := (M.step (M.stateAt s calls n) (calls n)).2

variable {M} {s : σ} {calls : ℕ → ι}

/-- What every step preserves holds along the whole schedule. -/
theorem stateAt_invariant {I : σ → Prop} (hinit : I s)
    (hstep : ∀ s c, I s → I (M.step s c).1) (n : ℕ) : I (M.stateAt s calls n) := by
  induction n with
  | zero => exact hinit
  | succ n ih => exact hstep _ _ ih

/-- A reflexive and transitive relation that holds across each step holds across any stretch. -/
theorem stateAt_rel {R : σ → σ → Prop} (hrefl : ∀ s, R s s)
    (htrans : ∀ a b c, R a b → R b c → R a c) (hstep : ∀ s c, R s (M.step s c).1) {i j : ℕ}
    (hij : i ≤ j) : R (M.stateAt s calls i) (M.stateAt s calls j) := by
  induction j, hij using Nat.le_induction with
  | base => exact hrefl _
  | succ j _ ih => exact htrans _ _ _ ih (hstep _ _)

/-- A property that is lost between two points is lost by one of the steps between them. -/
theorem exists_losing_step {P : σ → Prop} {i j : ℕ} (hij : i ≤ j)
    (hi : P (M.stateAt s calls i)) (hj : ¬P (M.stateAt s calls j)) :
    ∃ k, i ≤ k ∧ k < j ∧ P (M.stateAt s calls k) ∧ ¬P (M.stateAt s calls (k + 1)) := by
  induction j, hij using Nat.le_induction with
  | base => exact absurd hi hj
  | succ j hle ih =>
    by_cases hP : P (M.stateAt s calls j)
    · exact ⟨j, hle, Nat.lt_succ_self j, hP, hj⟩
    · obtain ⟨k, hik, hkj, hk⟩ := ih hP
      exact ⟨k, hik, Nat.lt_succ_of_lt hkj, hk⟩

end Machine

end Transition

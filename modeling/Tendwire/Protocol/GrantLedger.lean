import Mathlib.Data.Nat.Init
import Mathlib.Tactic.Common

/-!
# A ledger of one-time grants

Rows with never reused ids hold a key and a phase: reserved by an owner, started, or closed.
A reservation may be taken over while nothing has started, the reserving owner may start
once, and a row can be closed or forgotten. The ledger says nothing about clocks.
-/

namespace Protocol

universe u v

variable {κ : Type u} {ω : Type v}

inductive Phase (ω : Type v) where
  | reserved (owner : ω)
  | started
  | closed

/-- Keys are unique among the rows, and every id in use lies below `next`. -/
structure GrantLedger (κ : Type u) (ω : Type v) where
  rows : ℕ → Option (κ × Phase ω)
  next : ℕ
  below : ∀ n e, rows n = some e → n < next
  unique : ∀ m n k p q, rows m = some (k, p) → rows n = some (k, q) → m = n

inductive Grant (ω : Type v) where
  | silent
  | reserved (row : ℕ) (owner : ω)
  | started (row : ℕ) (owner : ω)
  | forgot

namespace GrantLedger

/-- What a step with a given label may do to row `n`. -/
inductive RowStep (next : ℕ) (l : Grant ω) (n : ℕ) :
    Option (κ × Phase ω) → Option (κ × Phase ω) → Prop where
  | keep (o) : RowStep next l n o o
  | close (k p) : RowStep next l n (some (k, p)) (some (k, .closed))
  | record (k) : next ≤ n → RowStep next l n none (some (k, .closed))
  | reserve (k w) : l = .reserved n w → next ≤ n → RowStep next l n none (some (k, .reserved w))
  | retake (k w₀ w) : l = .reserved n w →
      RowStep next l n (some (k, .reserved w₀)) (some (k, .reserved w))
  | start (k w) : l = .started n w →
      RowStep next l n (some (k, .reserved w)) (some (k, .started))
  | forget (k p) : l = .forgot → RowStep next l n (some (k, p)) none

structure Step (a : GrantLedger κ ω) (l : Grant ω) (b : GrantLedger κ ω) : Prop where
  next_le : a.next ≤ b.next
  row : ∀ n, RowStep a.next l n (a.rows n) (b.rows n)
  reserved : ∀ n w, l = .reserved n w →
    (a.rows n = none ∧ a.next ≤ n ∨ ∃ k w₀, a.rows n = some (k, .reserved w₀)) ∧
      ∃ k, b.rows n = some (k, .reserved w)
  started : ∀ n w, l = .started n w →
    ∃ k, a.rows n = some (k, .reserved w) ∧ b.rows n = some (k, .started)

/-- No start can ever be granted again under this id. -/
def Spent (a : GrantLedger κ ω) (n : ℕ) : Prop :=
  n < a.next ∧ ∀ k w, a.rows n ≠ some (k, .reserved w)

variable {a b : GrantLedger κ ω} {l : Grant ω} {n : ℕ}

theorem Step.spent (h : Step a l b) (hs : a.Spent n) : b.Spent n := by
  refine ⟨Nat.lt_of_lt_of_le hs.1 h.next_le, ?_⟩
  intro k w hb
  have hrow := h.row n
  rw [hb] at hrow
  cases ha : a.rows n with
  | none =>
    rw [ha] at hrow
    cases hrow with
    | reserve _ _ _ hle => exact absurd hs.1 (Nat.not_lt.mpr hle)
  | some e =>
    rw [ha] at hrow
    cases hrow with
    | keep => exact hs.2 _ _ ha
    | retake _ w₀ _ _ => exact hs.2 _ _ ha

/-- A row keeps its key while it is present, and can only go by being forgotten. -/
theorem Step.present (h : Step a l b) {k : κ} {p : Phase ω} (ha : a.rows n = some (k, p)) :
    (∃ q, b.rows n = some (k, q)) ∨ (l = .forgot ∧ b.rows n = none) := by
  have hrow := h.row n
  rw [ha] at hrow
  cases hb : b.rows n with
  | none =>
    rw [hb] at hrow
    cases hrow with
    | forget _ _ hl => exact Or.inr ⟨hl, rfl⟩
  | some e =>
    rw [hb] at hrow
    left
    cases hrow <;> exact ⟨_, rfl⟩

/-- A row that holds a reservation got it in this step or held the same one before. -/
theorem Step.reserved_cases (h : Step a l b) {k : κ} {w : ω}
    (hb : b.rows n = some (k, .reserved w)) :
    l = .reserved n w ∨ (a.rows n = some (k, .reserved w) ∧ ∀ w', l ≠ .reserved n w') := by
  have hrow := h.row n
  rw [hb] at hrow
  cases ha : a.rows n with
  | none =>
    rw [ha] at hrow
    cases hrow with
    | reserve _ _ hl _ => exact Or.inl hl
  | some e =>
    rw [ha] at hrow
    cases hrow with
    | keep =>
      by_cases hl : ∃ w', l = .reserved n w'
      · obtain ⟨w', hl⟩ := hl
        obtain ⟨k', hk'⟩ := (h.reserved n w' hl).2
        rw [hb] at hk'
        simp only [Option.some.injEq, Prod.mk.injEq, Phase.reserved.injEq] at hk'
        exact Or.inl (hk'.2 ▸ hl)
      · exact Or.inr ⟨rfl, fun w' hw' => hl ⟨w', hw'⟩⟩
    | retake _ _ _ hl => exact Or.inl hl

/-! ### Runs -/

section Run

variable {run : ℕ → GrantLedger κ ω} {label : ℕ → Grant ω}
  (hrun : ∀ i, Step (run i) (label i) (run (i + 1)))

include hrun

theorem spent_of_le {i j : ℕ} (hij : i ≤ j) (hs : (run i).Spent n) : (run j).Spent n := by
  induction j, hij using Nat.le_induction with
  | base => exact hs
  | succ j _ ih => exact (hrun j).spent ih

theorem spent_of_started {i : ℕ} {w : ω} (hl : label i = .started n w) :
    (run (i + 1)).Spent n := by
  obtain ⟨k, -, hb⟩ := (hrun i).started n w hl
  exact ⟨(run (i + 1)).below n _ hb, by simp [hb]⟩

theorem not_started_of_spent {i j : ℕ} (hij : i ≤ j) (hs : (run i).Spent n) (w : ω) :
    label j ≠ .started n w := by
  intro hl
  obtain ⟨k, ha, -⟩ := (hrun j).started n w hl
  exact (spent_of_le hrun hij hs).2 k w ha

/-- A spent row is never reserved again. -/
theorem not_reserved_of_spent {i j : ℕ} (hij : i ≤ j) (hs : (run i).Spent n) (w : ω) :
    label j ≠ .reserved n w := by
  intro hl
  have hspent := spent_of_le hrun hij hs
  rcases ((hrun j).reserved n w hl).1 with ⟨-, hle⟩ | ⟨k, w₀, ha⟩
  · exact absurd hspent.1 (Nat.not_lt.mpr hle)
  · exact hspent.2 k w₀ ha

/-- A row that is gone was forgotten by a step in between. -/
theorem exists_forgot {i j : ℕ} (hij : i ≤ j) {k : κ} {p : Phase ω}
    (hi : (run i).rows n = some (k, p)) (hj : ∀ q, (run j).rows n ≠ some (k, q)) :
    ∃ m, i ≤ m ∧ m < j ∧ label m = .forgot ∧ (∃ q, (run m).rows n = some (k, q)) ∧
      (run (m + 1)).rows n = none := by
  induction j, hij using Nat.le_induction with
  | base => exact absurd hi (hj p)
  | succ j hle ih =>
    by_cases hpres : ∃ q, (run j).rows n = some (k, q)
    · obtain ⟨q, hq⟩ := hpres
      rcases (hrun j).present hq with ⟨q', hq'⟩ | ⟨hl, hnone⟩
      · exact absurd hq' (hj q')
      · exact ⟨j, hle, Nat.lt_succ_self j, hl, ⟨q, hq⟩, hnone⟩
    · obtain ⟨m, him, hmj, hm⟩ := ih (fun q hq => hpres ⟨q, hq⟩)
      exact ⟨m, him, Nat.lt_succ_of_lt hmj, hm⟩

/-- Two starts for one key are separated by the deletion of the first start's row. -/
theorem forgot_between_starts {i j m : ℕ} {k : κ} {w w' : ω} {p q : Phase ω} (hij : i < j)
    (hi : label i = .started n w) (hj : label j = .started m w')
    (hki : (run i).rows n = some (k, p)) (hkj : (run j).rows m = some (k, q)) :
    ∃ t, i < t ∧ t < j ∧ label t = .forgot ∧ (∃ r, (run t).rows n = some (k, r)) ∧
      (run (t + 1)).rows n = none := by
  have hspent := spent_of_started hrun hi
  have hne : n ≠ m := by
    rintro rfl
    exact not_started_of_spent hrun hij hspent w' hj
  obtain ⟨k', ha, hb⟩ := (hrun i).started n w hi
  have hk : k' = k := by
    rw [ha] at hki
    simp only [Option.some.injEq, Prod.mk.injEq] at hki
    exact hki.1
  subst hk
  obtain ⟨t, hit, htj, ht⟩ := exists_forgot hrun (Nat.succ_le_of_lt hij) hb
    (fun r hr => hne ((run j).unique n m _ _ _ hr hkj))
  exact ⟨t, hit, htj, ht⟩

/-- A held reservation was granted to its holder, and no reservation for the same key has
been granted since; or it is older than the run. -/
theorem reservation_origin (j : ℕ) {k : κ} {w : ω} (hj : (run j).rows n = some (k, .reserved w)) :
    (∃ i, i < j ∧ label i = .reserved n w ∧ (run (i + 1)).rows n = some (k, .reserved w) ∧
        ∀ t, i < t → t < j → ∀ m w' p,
          label t = .reserved m w' → (run (t + 1)).rows m ≠ some (k, p)) ∨
      ((run 0).rows n = some (k, .reserved w) ∧ ∀ t, t < j → ∀ m w' p,
        label t = .reserved m w' → (run (t + 1)).rows m ≠ some (k, p)) := by
  induction j with
  | zero => exact Or.inr ⟨hj, fun t ht => absurd ht (Nat.not_lt_zero t)⟩
  | succ j ih =>
    rcases (hrun j).reserved_cases hj with hl | ⟨ha, hl⟩
    · exact Or.inl ⟨j, Nat.lt_succ_self j, hl, hj, fun t hjt htj => absurd htj (by omega)⟩
    · have hlast : ∀ m w' p, label j = .reserved m w' → (run (j + 1)).rows m ≠ some (k, p) := by
        intro m w' p hm hkey
        have hmn : m = n := (run (j + 1)).unique m n k p _ hkey hj
        exact hl w' (hmn ▸ hm)
      rcases ih ha with ⟨i, hij, hi, hrow, hsince⟩ | ⟨h0, hsince⟩
      · refine Or.inl ⟨i, Nat.lt_succ_of_lt hij, hi, hrow, fun t hit htj => ?_⟩
        rcases Nat.lt_succ_iff_lt_or_eq.mp htj with h | rfl
        · exact hsince t hit h
        · exact hlast
      · refine Or.inr ⟨h0, fun t htj => ?_⟩
        rcases Nat.lt_succ_iff_lt_or_eq.mp htj with h | rfl
        · exact hsince t h
        · exact hlast

end Run

end GrantLedger

end Protocol

import Mathlib.Algebra.BigOperators.Group.List.Basic
import Mathlib.Algebra.Order.BigOperators.Group.List
import Mathlib.Algebra.Order.Ring.Nat
import Mathlib.Logic.Function.Iterate
import Tendwire.Relational.Schema

/-!
# Weights of tables

A weight of the rows that every update lowers and every deletion takes away bounds how often a
table can change, so a call that only updates and deletes so comes to rest.
-/

namespace Relational

universe u v

/-- A step that rests or loses weight is at rest after some number of steps. -/
theorem exists_iterate_rest {σ : Type u} {m : σ → Nat} {f : σ → σ}
    (h : ∀ s, f s = s ∨ m (f s) < m s) (s : σ) : ∃ k, f (f^[k] s) = f^[k] s := by
  induction hm : m s using Nat.strong_induction_on generalizing s with
  | _ n ih =>
    rcases h s with hrest | hlt
    · exact ⟨0, hrest⟩
    · obtain ⟨k, hk⟩ := ih (m (f s)) (hm ▸ hlt) (f s) rfl
      exact ⟨k + 1, hk⟩

namespace Table

variable {ρ : Type u} {w : ρ → Nat}

def weight (w : ρ → Nat) (t : Table ρ) : Nat := (t.rows.map fun e => w e.2).sum

lemma updateWhere_eq_self {t : Table ρ} {p : Nat → ρ → Bool} (f : ρ → ρ)
    (h : ∀ i r, t.get? i = some r → p i r = false) : t.updateWhere p f = t := by
  have hrows : (t.updateWhere p f).rows = t.rows := by
    refine (List.map_congr_left fun e he => ?_).trans t.rows.map_id
    rw [h e.1 e.2 (get?_eq_some_iff.mpr he)]
    rfl
  cases t
  unfold updateWhere at hrows ⊢
  congr

lemma deleteWhere_eq_self {t : Table ρ} {p : Nat → ρ → Bool}
    (h : ∀ i r, t.get? i = some r → p i r = false) : t.deleteWhere p = t := by
  have hrows : (t.deleteWhere p).rows = t.rows := by
    refine List.filter_eq_self.mpr fun e he => ?_
    rw [h e.1 e.2 (get?_eq_some_iff.mpr he)]
    rfl
  cases t
  unfold deleteWhere at hrows ⊢
  congr

/-- An update that lowers the weight of each row it writes lowers the table's. -/
theorem weight_updateWhere {t : Table ρ} {p : Nat → ρ → Bool} {f : ρ → ρ}
    (h : ∀ i r, t.get? i = some r → p i r = true → w (f r) < w r) :
    t.updateWhere p f = t ∨ (t.updateWhere p f).weight w < t.weight w := by
  by_cases hany : ∃ i r, t.get? i = some r ∧ p i r = true
  · right
    have heach : ∀ e ∈ t.rows, w (if p e.1 e.2 then (e.1, f e.2) else e).2 ≤ w e.2 := by
      intro e he
      split
      · next hp => exact (h e.1 e.2 (get?_eq_some_iff.mpr he) hp).le
      · exact le_rfl
    obtain ⟨i, r, hr, hp⟩ := hany
    unfold weight updateWhere
    rw [List.map_map]
    refine List.sum_lt_sum _ _ heach ⟨(i, r), get?_eq_some_iff.mp hr, ?_⟩
    simpa [hp] using h i r hr hp
  · refine .inl (updateWhere_eq_self f fun i r hr => ?_)
    rw [Bool.eq_false_iff]
    exact fun hp => hany ⟨i, r, hr, hp⟩

/-- A deletion takes the weight of the rows it deletes. -/
theorem weight_deleteWhere {t : Table ρ} {p : Nat → ρ → Bool} (hw : ∀ r, 0 < w r) :
    t.deleteWhere p = t ∨ (t.deleteWhere p).weight w < t.weight w := by
  by_cases hany : ∃ i r, t.get? i = some r ∧ p i r = true
  · right
    obtain ⟨i, r, hr, hp⟩ := hany
    obtain ⟨before, after, hrows⟩ := List.append_of_mem (get?_eq_some_iff.mp hr)
    have hle : ∀ l : List (Nat × ρ), ((l.filter fun e => !p e.1 e.2).map fun e => w e.2).sum ≤
        (l.map fun e => w e.2).sum :=
      fun l => (List.filter_sublist.map _).sum_le_sum fun _ _ => Nat.zero_le _
    change ((t.rows.filter fun e => !p e.1 e.2).map fun e => w e.2).sum <
      (t.rows.map fun e => w e.2).sum
    rw [hrows]
    simp only [List.filter_append, List.filter_cons, hp, Bool.not_true, Bool.false_eq_true,
      if_false, List.map_append, List.map_cons, List.sum_append, List.sum_cons]
    have hbefore := hle before
    have hafter := hle after
    have hpos := hw r
    omega
  · refine .inl (deleteWhere_eq_self fun i r hr => ?_)
    rw [Bool.eq_false_iff]
    exact fun hp => hany ⟨i, r, hr, hp⟩

end Table

variable {ρ κ : Type u} [DecidableEq κ] {S : Schema ρ κ} {w : ρ → Nat}

lemma Constrained.eq_of_table_eq {t t' : Constrained S} (h : t.table = t'.table) : t = t' := by
  cases t
  cases t'
  congr

lemma Constrained.weight_deleteWhere (t : Constrained S) (p : Nat → ρ → Bool)
    (hw : ∀ r, 0 < w r) :
    (t.deleteWhere p).table = t.table ∨ (t.deleteWhere p).table.weight w < t.table.weight w :=
  Table.weight_deleteWhere hw

end Relational

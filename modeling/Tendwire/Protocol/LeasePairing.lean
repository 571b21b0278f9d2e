import Mathlib.Tactic.Common

/-!
# Paired leases

A lease is recorded twice: by the row it blocks and by the holder it was granted to. The two
records are paired when each determines the other. A system keeps them paired by closing both
halves of some leases, by opening a lease on a free row for a fresh holder, or by rewriting
both halves of one lease.

A half may lack its record, or a holder its row; such a half is never paired.
-/

namespace Protocol

universe u v w

structure LeaseView (ρ : Type u) (δ : Type v) (ℓ : Type w) where
  lease : ρ → Option ℓ
  held : δ → Option (Option ρ × ℓ)

namespace LeaseView

variable {ρ : Type u} {δ : Type v} {ℓ : Type w} (holder : ℓ → Option δ) {v v' v'' : LeaseView ρ δ ℓ}

structure Paired (v : LeaseView ρ δ ℓ) : Prop where
  held_of_lease : ∀ r l, v.lease r = some l → ∃ d, holder l = some d ∧ v.held d = some (some r, l)
  lease_of_held : ∀ d r l, v.held d = some (r, l) →
    ∃ r', r = some r' ∧ v.lease r' = some l ∧ holder l = some d

/-- Exactly the leases on the rows in `closed` end, on both sides. -/
structure Closes (closed : ρ → Prop) (v v' : LeaseView ρ δ ℓ) : Prop where
  lease_iff : ∀ r l, v'.lease r = some l ↔ v.lease r = some l ∧ ¬closed r
  held_iff : ∀ d r l, v'.held d = some (r, l) ↔
    v.held d = some (r, l) ∧ ∀ r', r = some r' → ¬closed r'

/-- No lease appears or changes. -/
structure Narrows (v v' : LeaseView ρ δ ℓ) : Prop where
  lease : ∀ r l, v'.lease r = some l → v.lease r = some l
  held : ∀ d x, v'.held d = some x → v.held d = some x

variable {holder}

/-- A row under a lease has one holder. -/
theorem Paired.holder_unique (h : Paired holder v) {r : ρ} {d d' : δ} {l l' : ℓ}
    (hd : v.held d = some (some r, l)) (hd' : v.held d' = some (some r, l')) : d = d' := by
  obtain ⟨r₁, h₁, hl, hk⟩ := h.lease_of_held _ _ _ hd
  obtain ⟨r₂, h₂, hl', hk'⟩ := h.lease_of_held _ _ _ hd'
  obtain rfl := Option.some.inj h₁
  obtain rfl := Option.some.inj h₂
  have hll : l = l' := Option.some.inj (hl.symm.trans hl')
  rw [hll] at hk
  exact Option.some.inj (hk.symm.trans hk')

lemma Narrows.refl (v : LeaseView ρ δ ℓ) : Narrows v v := ⟨fun _ _ h => h, fun _ _ h => h⟩

lemma Narrows.trans (h : Narrows v v') (h' : Narrows v' v'') : Narrows v v'' :=
  ⟨fun r l hl => h.lease r l (h'.lease r l hl), fun d x hx => h.held d x (h'.held d x hx)⟩

lemma Closes.narrows {closed : ρ → Prop} (h : Closes closed v v') : Narrows v v' :=
  ⟨fun r l hl => ((h.lease_iff r l).mp hl).1, fun d x hx => ((h.held_iff d x.1 x.2).mp hx).1⟩

theorem Paired.closes {closed : ρ → Prop} (h : Paired holder v) (hc : Closes closed v v') :
    Paired holder v' := by
  constructor
  · intro r l hl
    obtain ⟨hl', hopen⟩ := (hc.lease_iff r l).mp hl
    obtain ⟨d, hd, hheld⟩ := h.held_of_lease r l hl'
    refine ⟨d, hd, (hc.held_iff d _ _).mpr ⟨hheld, ?_⟩⟩
    intro r' hr'
    obtain rfl := Option.some.inj hr'
    exact hopen
  · intro d r l hd
    obtain ⟨hd', hopen⟩ := (hc.held_iff d r l).mp hd
    obtain ⟨r', hr, hl, hk⟩ := h.lease_of_held d r l hd'
    exact ⟨r', hr, (hc.lease_iff r' l).mpr ⟨hl, hopen r' hr⟩, hk⟩

/-- Closing one half on each side closes a lease, if the two halves belong together. -/
theorem Paired.closes_one {r : ρ} {d : δ} (h : Paired holder v)
    (hrow : ∀ l, v.lease r = some l → holder l = some d)
    (hheld : ∀ r' l, v.held d = some (r', l) → r' = some r)
    (hlease : ∀ r' l, v'.lease r' = some l ↔ v.lease r' = some l ∧ r' ≠ r)
    (hhold : ∀ d' x, v'.held d' = some x ↔ v.held d' = some x ∧ d' ≠ d) :
    Closes (· = r) v v' := by
  constructor
  · exact hlease
  · intro d' r' l
    rw [hhold]
    refine and_congr_right fun hx => ?_
    constructor
    · intro hne r'' hr'' heq
      obtain ⟨r₁, h₁, hl, hk⟩ := h.lease_of_held d' r' l hx
      rw [h₁] at hr''
      rw [← Option.some.inj hr''] at heq
      rw [heq] at hl
      exact hne (Option.some.inj (hk.symm.trans (hrow l hl)))
    · intro hopen heq
      rw [heq] at hx
      exact hopen r (hheld r' l hx) rfl

/-- A lease opened on a free row for a fresh holder. -/
theorem Paired.opens {r : ρ} {d : δ} {l : ℓ} (h : Paired holder v) (hfree : v.lease r = none)
    (hfresh : v.held d = none) (hl : holder l = some d)
    (hlease : ∀ r', v'.lease r' = some l ∧ r' = r ∨ v'.lease r' = v.lease r' ∧ r' ≠ r)
    (hheld : ∀ d', v'.held d' = some (some r, l) ∧ d' = d ∨ v'.held d' = v.held d' ∧ d' ≠ d) :
    Paired holder v' := by
  constructor
  · intro r' l' hr'
    rcases hlease r' with ⟨hnew, rfl⟩ | ⟨hold, hne⟩
    · obtain rfl := Option.some.inj (hnew.symm.trans hr')
      rcases hheld d with ⟨hnew', -⟩ | ⟨-, hne⟩
      · exact ⟨d, hl, hnew'⟩
      · exact absurd rfl hne
    · obtain ⟨d', hd', hx⟩ := h.held_of_lease r' l' (hold ▸ hr')
      rcases hheld d' with ⟨-, rfl⟩ | ⟨hold', -⟩
      · rw [hfresh] at hx
        cases hx
      · exact ⟨d', hd', hold'.trans hx⟩
  · intro d' r' l' hd'
    rcases hheld d' with ⟨hnew, rfl⟩ | ⟨hold, -⟩
    · obtain ⟨rfl, rfl⟩ := Prod.mk.inj (Option.some.inj (hnew.symm.trans hd'))
      rcases hlease r with ⟨hnew', -⟩ | ⟨-, hne⟩
      · exact ⟨r, rfl, hnew', hl⟩
      · exact absurd rfl hne
    · obtain ⟨r₁, h₁, hlr, hk⟩ := h.lease_of_held d' r' l' (hold ▸ hd')
      rcases hlease r₁ with ⟨-, rfl⟩ | ⟨hold', -⟩
      · rw [hfree] at hlr
        cases hlr
      · exact ⟨r₁, h₁, hold'.trans hlr, hk⟩

/-- Both halves of one lease are rewritten alike. -/
theorem Paired.rewrites {r : ρ} {d : δ} {l l' : ℓ} (h : Paired holder v)
    (hold : v.held d = some (some r, l)) (hl : holder l' = some d)
    (hlease : ∀ r', v'.lease r' = some l' ∧ r' = r ∨ v'.lease r' = v.lease r' ∧ r' ≠ r)
    (hheld : ∀ d', v'.held d' = some (some r, l') ∧ d' = d ∨ v'.held d' = v.held d' ∧ d' ≠ d) :
    Paired holder v' := by
  constructor
  · intro r' m hr'
    rcases hlease r' with ⟨hnew, rfl⟩ | ⟨hsame, hne⟩
    · obtain rfl := Option.some.inj (hnew.symm.trans hr')
      rcases hheld d with ⟨hnew', -⟩ | ⟨-, hne⟩
      · exact ⟨d, hl, hnew'⟩
      · exact absurd rfl hne
    · obtain ⟨d', hd', hx⟩ := h.held_of_lease r' m (hsame ▸ hr')
      rcases hheld d' with ⟨-, rfl⟩ | ⟨hsame', -⟩
      · rw [hold] at hx
        exact absurd (Option.some.inj (Prod.mk.inj (Option.some.inj hx)).1).symm hne
      · exact ⟨d', hd', hsame'.trans hx⟩
  · intro d' r' m hd'
    rcases hheld d' with ⟨hnew, rfl⟩ | ⟨hsame, hne⟩
    · obtain ⟨rfl, rfl⟩ := Prod.mk.inj (Option.some.inj (hnew.symm.trans hd'))
      rcases hlease r with ⟨hnew', -⟩ | ⟨-, hne⟩
      · exact ⟨r, rfl, hnew', hl⟩
      · exact absurd rfl hne
    · have hx := hsame ▸ hd'
      obtain ⟨r₁, h₁, hlr, hk⟩ := h.lease_of_held d' r' m hx
      rcases hlease r₁ with ⟨-, rfl⟩ | ⟨hsame', -⟩
      · rw [h₁] at hx
        exact absurd (h.holder_unique hx hold) hne
      · exact ⟨r₁, h₁, hsame'.trans hlr, hk⟩

end LeaseView

end Protocol

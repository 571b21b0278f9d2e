import Mathlib.Algebra.GroupWithZero.Nat
import Mathlib.Data.List.Chain
import Mathlib.Data.List.Infix
import Mathlib.Tactic.Common

/-!
# Packing

A list cut into pages of bounded weight, each of them as long as it can be. There is only one way
to cut a list so.
-/

namespace List

variable {α : Type*}

/-- No page is empty or too heavy, and none could have taken what the next begins with. -/
structure Packed (weight : α → ℕ) (cap : ℕ) (pages : List (List α)) : Prop where
  nonempty : ∀ page ∈ pages, page ≠ []
  light : ∀ page ∈ pages, (page.map weight).sum ≤ cap
  full : pages.IsChain fun page next => ∀ a ∈ next.head?, cap < (page.map weight).sum + weight a

namespace Packed

variable {weight : α → ℕ} {cap : ℕ} {page page' q : List α} {pages pages' : List (List α)} {a : α}

protected lemma nil : Packed weight cap [] := ⟨by simp, by simp, .nil⟩

lemma singleton (h : weight a ≤ cap) : Packed weight cap [[a]] :=
  ⟨by simp, by simpa using h, .singleton _⟩

lemma tail (h : Packed weight cap (page :: pages)) : Packed weight cap pages :=
  ⟨fun p hp => h.nonempty p (mem_cons_of_mem _ hp), fun p hp => h.light p (mem_cons_of_mem _ hp),
    h.full.tail⟩

lemma drop (h : Packed weight cap pages) (n : ℕ) : Packed weight cap (pages.drop n) := by
  induction n generalizing pages with
  | zero => exact h
  | succ n ih =>
    cases pages with
    | nil => exact h
    | cons page pages => exact ih h.tail

/-- The last page takes what still fits. -/
lemma extend (h : Packed weight cap (pages ++ [page])) (ha : (page.map weight).sum + weight a ≤ cap) :
    Packed weight cap (pages ++ [page ++ [a]]) := by
  have hne : page ≠ [] := h.nonempty page (by simp)
  obtain ⟨hpages, -, hlast⟩ := isChain_append.mp h.full
  refine ⟨?_, ?_, isChain_append.mpr ⟨hpages, .singleton _, ?_⟩⟩
  · intro p hp
    rcases mem_append.mp hp with hp | hp
    · exact h.nonempty p (mem_append_left _ hp)
    · rw [mem_singleton.mp hp]
      simp
  · intro p hp
    rcases mem_append.mp hp with hp | hp
    · exact h.light p (mem_append_left _ hp)
    · rw [mem_singleton.mp hp, map_append, sum_append]
      simpa using ha
  · intro p hp next hnext b hb
    obtain rfl : page ++ [a] = next := by simpa using hnext
    rw [head?_append_of_ne_nil _ hne] at hb
    exact hlast p hp page (by simp) b hb

/-- What does not fit begins a page. -/
lemma snoc (h : Packed weight cap (pages ++ [page])) (ha : weight a ≤ cap)
    (hfull : cap < (page.map weight).sum + weight a) :
    Packed weight cap (pages ++ [page] ++ [[a]]) := by
  refine ⟨?_, ?_, isChain_append.mpr ⟨h.full, .singleton _, ?_⟩⟩
  · intro p hp
    rcases mem_append.mp hp with hp | hp
    · exact h.nonempty p hp
    · rw [mem_singleton.mp hp]
      simp
  · intro p hp
    rcases mem_append.mp hp with hp | hp
    · exact h.light p hp
    · rw [mem_singleton.mp hp]
      simpa using ha
  · intro p hp next hnext b hb
    obtain rfl : page = p := by simpa using hp
    obtain rfl : [a] = next := by simpa using hnext
    obtain rfl : a = b := by simpa using hb
    exact hfull

/-- What comes behind a page does not fit on it. -/
lemma overflow (h : Packed weight cap (page :: pages)) (ha : pages.flatten.head? = some a) :
    cap < (page.map weight).sum + weight a := by
  cases pages with
  | nil => cases ha
  | cons next pages =>
    have hne : next ≠ [] := h.nonempty next (by simp)
    rw [flatten_cons, head?_append_of_ne_nil _ hne] at ha
    exact (isChain_cons_cons.mp h.full).1 a ha

/-- The first page is the longest that fits. -/
theorem longest (h : Packed weight cap (page :: pages)) (hq : q <+: (page :: pages).flatten)
    (hlight : (q.map weight).sum ≤ cap) : q <+: page := by
  rw [flatten_cons] at hq
  rcases prefix_or_prefix_of_prefix hq (prefix_append page pages.flatten) with hshort | ⟨rest, rfl⟩
  · exact hshort
  · cases rest with
    | nil => simp
    | cons a rest =>
      exfalso
      obtain ⟨more, hmore⟩ := (prefix_append_right_inj page).mp hq
      have hfull := h.overflow (a := a) (by rw [← hmore]; rfl)
      rw [map_append, sum_append, map_cons, sum_cons] at hlight
      omega

/-- There is one way to cut. -/
theorem eq_of_flatten (h : Packed weight cap pages) (h' : Packed weight cap pages')
    (heq : pages.flatten = pages'.flatten) : pages = pages' := by
  induction pages generalizing pages' with
  | nil =>
    cases pages' with
    | nil => rfl
    | cons page' pages' =>
      have hnil : page' = [] := (by simpa using heq.symm : page' = [] ∧ _).1
      exact absurd hnil (h'.nonempty page' (by simp))
  | cons page pages ih =>
    cases pages' with
    | nil =>
      have hnil : page = [] := (by simpa using heq : page = [] ∧ _).1
      exact absurd hnil (h.nonempty page (by simp))
    | cons page' pages' =>
      have hle : page' <+: page :=
        h.longest (heq ▸ prefix_append page' pages'.flatten) (h'.light page' (by simp))
      have hge : page <+: page' :=
        h'.longest (heq ▸ prefix_append page pages.flatten) (h.light page (by simp))
      obtain rfl : page = page' := hge.eq_of_length_le hle.length_le
      rw [flatten_cons, flatten_cons, append_cancel_left_eq] at heq
      rw [ih h.tail h'.tail heq]

/-- No other way to cut has fewer pieces. -/
theorem length_le {pieces : List (List α)} (h : Packed weight cap pages)
    (hpieces : ∀ piece ∈ pieces, (piece.map weight).sum ≤ cap)
    (hsuffix : pages.flatten <:+ pieces.flatten) : pages.length ≤ pieces.length := by
  induction pieces generalizing pages with
  | nil =>
    cases pages with
    | nil => exact Nat.le_refl _
    | cons page pages =>
      have hnil : page = [] := (by simpa using hsuffix : page = [] ∧ _).1
      exact absurd hnil (h.nonempty page (by simp))
  | cons piece pieces ih =>
    cases pages with
    | nil => exact Nat.zero_le _
    | cons page pages =>
      rw [flatten_cons, flatten_cons] at hsuffix
      have hrest : pages.flatten <:+ pieces.flatten := by
        have hbehind := (suffix_append page pages.flatten).trans hsuffix
        rcases suffix_or_suffix_of_suffix hbehind (suffix_append piece pieces.flatten) with
          hshort | ⟨more, hmore⟩
        · exact hshort
        cases more with
        | nil => exact ⟨[], hmore.symm⟩
        | cons a more =>
          -- a piece that reached behind the page would be too heavy
          exfalso
          have hfull := h.overflow (a := a) (by rw [← hmore]; rfl)
          obtain ⟨front, hfront⟩ := hsuffix
          rw [← hmore, ← append_assoc, ← append_assoc, append_cancel_right_eq] at hfront
          have hlight := hpieces piece mem_cons_self
          rw [← hfront] at hlight
          simp only [map_append, sum_append, map_cons, sum_cons] at hlight
          omega
      exact Nat.succ_le_succ (ih h.tail (fun q hq => hpieces q (mem_cons_of_mem _ hq)) hrest)

end Packed

end List

import Mathlib.Data.List.Sort
import Mathlib.Tactic.Common

/-!
# Stable sorting

Sorting by a key keeps the elements of each key in their order, and nothing else of the order. So
two lists sort alike exactly if the elements of each key stand alike in both.
-/

namespace List

universe u v

variable {α : Type u} {κ : Type v} [LinearOrder κ] (key : α → κ)

/-- `sorted(l, key=key)`. -/
def sortedBy (l : List α) : List α := l.insertionSort fun a b => key a ≤ key b

variable {key} {l l' : List α}

lemma sortedBy_perm (l : List α) : (l.sortedBy key).Perm l := perm_insertionSort _ l

lemma pairwise_sortedBy (l : List α) : (l.sortedBy key).Pairwise fun a b => key a ≤ key b := by
  have htotal : Std.Total fun a b : α => key a ≤ key b := ⟨fun a b => le_total (key a) (key b)⟩
  have htrans : IsTrans α fun a b => key a ≤ key b := ⟨fun _ _ _ => le_trans⟩
  exact pairwise_insertionSort _ l

/-- The elements of one key keep their order. -/
theorem filter_sortedBy (k : κ) :
    (l.sortedBy key).filter (key · = k) = l.filter (key · = k) := by
  have htotal : Std.Total fun a b : α => key a ≤ key b := ⟨fun a b => le_total (key a) (key b)⟩
  have htrans : IsTrans α fun a b => key a ≤ key b := ⟨fun _ _ _ => le_trans⟩
  have hkeys : (l.filter (key · = k)).Pairwise fun a b => key a ≤ key b := by
    apply pairwise_of_forall_mem_list
    intro a ha b hb
    have hka : key a = k := by simpa using (mem_filter.mp ha).2
    have hkb : key b = k := by simpa using (mem_filter.mp hb).2
    exact (hka.trans hkb.symm).le
  have hsub : (l.filter (key · = k)).Sublist (l.sortedBy key) :=
    sublist_insertionSort hkeys filter_sublist
  have hfilter := hsub.filter (key · = k)
  rw [filter_filter] at hfilter
  simp only [Bool.and_self] at hfilter
  have hperm : (l.sortedBy key).Perm l := sortedBy_perm l
  have hlength := (hperm.filter (key · = k)).length_eq
  exact (hfilter.eq_of_length hlength.symm).symm

/-- Sorted lists with the same elements of each key are equal. -/
lemma eq_of_filter_eq (hl : l.Pairwise fun a b => key a ≤ key b)
    (hl' : l'.Pairwise fun a b => key a ≤ key b)
    (h : ∀ k, l.filter (key · = k) = l'.filter (key · = k)) : l = l' := by
  induction l generalizing l' with
  | nil =>
    cases l' with
    | nil => rfl
    | cons b l' => simpa using h (key b)
  | cons a l ih =>
    cases l' with
    | nil => simpa using h (key a)
    | cons b l' =>
      have hmem : a ∈ b :: l' ∧ b ∈ a :: l := by
        constructor
        · have ha : a ∈ (a :: l).filter (key · = key a) := by simp
          rw [h] at ha
          exact mem_of_mem_filter ha
        · have hb : b ∈ (b :: l').filter (key · = key b) := by simp
          rw [← h] at hb
          exact mem_of_mem_filter hb
      have hle : key b ≤ key a := by
        rcases mem_cons.mp hmem.1 with hab | hab
        · rw [hab]
        · exact rel_of_pairwise_cons hl' hab
      have hge : key a ≤ key b := by
        rcases mem_cons.mp hmem.2 with hba | hba
        · rw [hba]
        · exact rel_of_pairwise_cons hl hba
      have hkey : key a = key b := le_antisymm hge hle
      have hhead := h (key a)
      rw [filter_cons_of_pos (by simp), filter_cons_of_pos (by simp [hkey])] at hhead
      obtain ⟨rfl, hrest⟩ := cons.inj hhead
      rw [ih hl.of_cons hl'.of_cons fun k => ?_]
      by_cases hk : key a = k
      · rw [← hk]
        exact hrest
      · have hother := h k
        rwa [filter_cons_of_neg (by simpa using hk), filter_cons_of_neg (by simpa using hk)] at hother

/-- Two lists sort alike exactly if the elements of each key stand alike in both. -/
theorem sortedBy_eq_iff :
    l.sortedBy key = l'.sortedBy key ↔ ∀ k, l.filter (key · = k) = l'.filter (key · = k) := by
  constructor
  · intro h k
    rw [← filter_sortedBy, h, filter_sortedBy]
  · intro h
    refine eq_of_filter_eq (pairwise_sortedBy l) (pairwise_sortedBy l') fun k => ?_
    rw [filter_sortedBy, filter_sortedBy, h]

end List

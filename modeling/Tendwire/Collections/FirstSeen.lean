import Mathlib.Data.List.Nodup
import Mathlib.Data.List.Perm.Basic
import Mathlib.Tactic.Common

/-!
# First seen

A scan over a list keeps the first element of each key. Which keys it keeps does not depend on
the order of the list; which elements it keeps does, unless a key says everything of its element.
-/

namespace List

universe u v

variable {α : Type u} {κ : Type v} [DecidableEq κ] (key : α → κ)

/-- The elements whose keys were not seen before. -/
def firstSeenAfter : List κ → List α → List α
  | _, [] => []
  | seen, a :: l =>
    if key a ∈ seen then firstSeenAfter seen l else a :: firstSeenAfter (key a :: seen) l

def firstSeen (l : List α) : List α := firstSeenAfter key [] l

variable {key} {seen : List κ} {l l' : List α} {a : α}

lemma mem_of_mem_firstSeenAfter (h : a ∈ firstSeenAfter key seen l) : a ∈ l ∧ key a ∉ seen := by
  induction l generalizing seen with
  | nil => cases h
  | cons b l ih =>
    rw [firstSeenAfter] at h
    split at h
    · exact ⟨mem_cons_of_mem _ (ih h).1, (ih h).2⟩
    · rename_i hb
      rcases mem_cons.mp h with rfl | h
      · exact ⟨mem_cons_self, hb⟩
      · exact ⟨mem_cons_of_mem _ (ih h).1, fun hs => (ih h).2 (mem_cons_of_mem _ hs)⟩

lemma nodup_map_firstSeenAfter : ((firstSeenAfter key seen l).map key).Nodup := by
  induction l generalizing seen with
  | nil => exact .nil
  | cons b l ih =>
    rw [firstSeenAfter]
    split
    · exact ih
    · rw [map_cons, nodup_cons]
      refine ⟨fun h => ?_, ih⟩
      obtain ⟨a, ha, hab⟩ := mem_map.mp h
      exact (mem_of_mem_firstSeenAfter ha).2 (hab ▸ mem_cons_self)

lemma nodup_map_firstSeen : ((firstSeen key l).map key).Nodup := nodup_map_firstSeenAfter

lemma eq_of_mem_firstSeen {b : α} (ha : a ∈ firstSeen key l) (hb : b ∈ firstSeen key l)
    (h : key a = key b) : a = b := inj_on_of_nodup_map nodup_map_firstSeen ha hb h

end List

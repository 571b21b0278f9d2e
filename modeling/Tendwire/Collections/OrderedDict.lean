import Mathlib.Data.List.Nodup
import Mathlib.Logic.Function.Basic

/-!
# Dictionaries in insertion order

A dictionary is its keys in the order in which they came and the value of each. A key that is set
again keeps its place.
-/

universe u v

structure OrderedDict (κ : Type u) (ν : Type v) where
  keys : List κ
  get? : κ → Option ν
  nodup : keys.Nodup
  mem_keys : ∀ k, k ∈ keys ↔ (get? k).isSome = true

namespace OrderedDict

variable {κ : Type u} {ν : Type v}

def empty : OrderedDict κ ν := ⟨[], fun _ => none, .nil, by simp⟩

instance : Membership κ (OrderedDict κ ν) := ⟨fun d k => k ∈ d.keys⟩

variable [DecidableEq κ]

instance (k : κ) (d : OrderedDict κ ν) : Decidable (k ∈ d) :=
  inferInstanceAs (Decidable (k ∈ d.keys))

def set (d : OrderedDict κ ν) (k : κ) (v : ν) : OrderedDict κ ν where
  keys := if k ∈ d then d.keys else d.keys ++ [k]
  get? := Function.update d.get? k (some v)
  nodup := by
    split
    · exact d.nodup
    · next h => exact List.concat_eq_append ▸ d.nodup.concat h
  mem_keys a := by
    have ha := d.mem_keys a
    by_cases hak : a = k
    · subst hak
      split
      · next h =>
        rw [Function.update_self]
        exact ⟨fun _ => rfl, fun _ => h⟩
      · simp
    · rw [Function.update_of_ne hak, ← ha]
      split
      · rfl
      · simp [hak]

def pop (d : OrderedDict κ ν) (k : κ) : OrderedDict κ ν where
  keys := d.keys.filter (· ≠ k)
  get? := Function.update d.get? k none
  nodup := d.nodup.filter _
  mem_keys a := by
    by_cases hak : a = k
    · simp [hak]
    · rw [Function.update_of_ne hak, ← d.mem_keys a]
      simp [hak]

variable {d : OrderedDict κ ν} {k a : κ} {v : ν}

omit [DecidableEq κ] in
@[simp, grind =] lemma mem_keys_iff : k ∈ d.keys ↔ k ∈ d := Iff.rfl

omit [DecidableEq κ] in
lemma mem_iff : k ∈ d ↔ (d.get? k).isSome = true := d.mem_keys k

omit [DecidableEq κ] in
@[grind →] lemma mem_of_get? (h : d.get? k = some v) : k ∈ d := by
  rw [mem_iff, h]
  rfl

omit [DecidableEq κ] in
@[simp, grind =] lemma keys_empty : (empty : OrderedDict κ ν).keys = [] := rfl

omit [DecidableEq κ] in
@[simp, grind =] lemma get?_empty : (empty : OrderedDict κ ν).get? k = none := rfl

omit [DecidableEq κ] in
@[simp, grind .] lemma not_mem_empty : k ∉ (empty : OrderedDict κ ν) := List.not_mem_nil

@[simp] lemma get?_set_self : (d.set k v).get? k = some v := Function.update_self ..

@[simp] lemma get?_set_of_ne (h : a ≠ k) : (d.set k v).get? a = d.get? a :=
  Function.update_of_ne h ..

@[grind =] lemma get?_set : (d.set k v).get? a = if a = k then some v else d.get? a :=
  Function.update_apply ..

@[simp] lemma get?_pop_self : (d.pop k).get? k = none := Function.update_self ..

@[simp] lemma get?_pop_of_ne (h : a ≠ k) : (d.pop k).get? a = d.get? a :=
  Function.update_of_ne h ..

@[grind =] lemma get?_pop : (d.pop k).get? a = if a = k then none else d.get? a :=
  Function.update_apply ..

@[simp, grind =] lemma mem_set : a ∈ d.set k v ↔ a = k ∨ a ∈ d := by
  rw [mem_iff, mem_iff]
  by_cases h : a = k
  · simp [h]
  · simp [h]

@[simp, grind =] lemma mem_pop : a ∈ d.pop k ↔ a ≠ k ∧ a ∈ d := by
  rw [mem_iff, mem_iff]
  by_cases h : a = k
  · simp [h]
  · simp [h]

lemma keys_set_of_mem (h : k ∈ d) : (d.set k v).keys = d.keys := if_pos h

lemma keys_set_of_not_mem (h : k ∉ d) : (d.set k v).keys = d.keys ++ [k] := if_neg h

/-- The first key taken out leaves the others in their order. -/
lemma keys_pop_cons {rest : List κ} (h : d.keys = k :: rest) : (d.pop k).keys = rest := by
  have hnodup := d.nodup
  rw [h, List.nodup_cons] at hnodup
  change d.keys.filter _ = rest
  rw [h, List.filter_cons_of_neg (by simp)]
  apply List.filter_eq_self.mpr
  intro a ha
  have hne : a ≠ k := fun hak => hnodup.1 (hak ▸ ha)
  simpa using hne

lemma count_keys : d.keys.count a = if a ∈ d then 1 else 0 := by
  split
  · next h => exact List.count_eq_one_of_mem d.nodup h
  · next h => exact List.count_eq_zero_of_not_mem h

lemma length_pop_of_mem (h : k ∈ d) : (d.pop k).keys.length + 1 = d.keys.length := by
  have herase : (d.pop k).keys = d.keys.erase k := by
    rw [d.nodup.erase_eq_filter]
    apply List.filter_congr
    intro a _
    by_cases hak : a = k
    · simp [hak]
    · simp [hak]
  rw [herase, List.length_erase_of_mem h]
  have hpos : 0 < d.keys.length := List.length_pos_of_mem h
  omega

lemma length_pop_le : (d.pop k).keys.length ≤ d.keys.length := List.length_filter_le ..

lemma length_set_le : (d.set k v).keys.length ≤ d.keys.length + 1 := by
  change (if k ∈ d then d.keys else d.keys ++ [k]).length ≤ _
  split
  · exact Nat.le_succ _
  · exact Nat.le_of_eq List.length_append

lemma length_set_of_mem (h : k ∈ d) : (d.set k v).keys.length = d.keys.length := by
  rw [keys_set_of_mem h]

end OrderedDict

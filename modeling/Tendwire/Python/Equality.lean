import Tendwire.Python.Decode

/-!
# Equality of JSON values

Whether two values are the same tree, and when values that share no object are equal.
-/

namespace Python

open Strings

variable {F : Type} [FloatText F]

/-! ### The same tree -/

def Float.same : Float F → Float F → Bool
  | .finite x, .finite y => FloatText.repr x == FloatText.repr y
  | .infinite a, .infinite b => a == b
  | .nan, .nan => true
  | _, _ => false

lemma Float.same_iff {x y : Float F} : x.same y = true ↔ x = y := by
  cases x with
  | finite a =>
    cases y with
    | finite b =>
      unfold Float.same
      rw [beq_iff_eq]
      refine ⟨fun h => ?_, fun h => ?_⟩
      · have hread := FloatText.read_repr a
        rw [h, FloatText.read_repr b] at hread
        exact hread.symm
      · rw [Float.finite.inj h]
    | infinite _ => simp [Float.same]
    | nan => simp [Float.same]
  | infinite a => cases y <;> simp [Float.same]
  | nan => cases y <;> simp [Float.same]

mutual

/-- Two values are the same tree. -/
def Json.same : Json F → Json F → Bool
  | .null, .null => true
  | .bool a, .bool b => a == b
  | .int a, .int b => a == b
  | .float a, .float b => a.same b
  | .str a, .str b => a == b
  | .list a, .list b => sameItems a b
  | .dict a, .dict b => sameEntries a b
  | _, _ => false

def sameItems : List (Json F) → List (Json F) → Bool
  | [], [] => true
  | a :: as, b :: bs => a.same b && sameItems as bs
  | _, _ => false

def sameEntries : List (Text × Json F) → List (Text × Json F) → Bool
  | [], [] => true
  | (k, a) :: as, (l, b) :: bs => k == l && a.same b && sameEntries as bs
  | _, _ => false

end

mutual

theorem Json.same_iff : ∀ v w : Json F, v.same w = true ↔ v = w
  | .null, w => by cases w <;> simp [Json.same]
  | .bool _, w => by cases w <;> simp [Json.same]
  | .int _, w => by cases w <;> simp [Json.same]
  | .float _, w => by cases w <;> simp [Json.same, Float.same_iff]
  | .str _, w => by cases w <;> simp [Json.same]
  | .list items, w => by
    cases w with
    | list other => rw [Json.same, sameItems_iff items other, Json.list.injEq]
    | _ => simp [Json.same]
  | .dict entries, w => by
    cases w with
    | dict other => rw [Json.same, sameEntries_iff entries other, Json.dict.injEq]
    | _ => simp [Json.same]

theorem sameItems_iff : ∀ items other : List (Json F), sameItems items other = true ↔ items = other
  | [], other => by cases other <;> simp [sameItems]
  | v :: items, other => by
    cases other with
    | nil => simp [sameItems]
    | cons w others =>
      rw [sameItems, Bool.and_eq_true, Json.same_iff v w, sameItems_iff items others,
        List.cons.injEq]

theorem sameEntries_iff : ∀ entries other : List (Text × Json F),
    sameEntries entries other = true ↔ entries = other
  | [], other => by cases other <;> simp [sameEntries]
  | (k, v) :: entries, other => by
    cases other with
    | nil => simp [sameEntries]
    | cons e others =>
      obtain ⟨l, w⟩ := e
      rw [sameEntries, Bool.and_eq_true, Bool.and_eq_true, Json.same_iff v w,
        sameEntries_iff entries others, beq_iff_eq, List.cons.injEq, Prod.mk.injEq]

end

instance : DecidableEq (Json F) := fun v w => decidable_of_iff _ (Json.same_iff v w)

/-! ### Equal values -/

section NanFree

variable {F : Type}

mutual

/-- No NaN stands in the value. -/
def NanFree : Json F → Prop
  | .float x => x ≠ .nan
  | .list items => NanFreeItems items
  | .dict entries => NanFreeEntries entries
  | _ => True

def NanFreeItems : List (Json F) → Prop
  | [] => True
  | item :: items => NanFree item ∧ NanFreeItems items

def NanFreeEntries : List (Text × Json F) → Prop
  | [] => True
  | (_, v) :: entries => NanFree v ∧ NanFreeEntries entries

end

namespace Entries

lemma get?_eq_some_iff {m : Entries F} (h : (Entries.keys m).Nodup) {key : Text} {v : Json F} :
    Entries.get? m key = some v ↔ (key, v) ∈ m := by
  induction m with
  | nil => simp
  | cons e m ih =>
    obtain ⟨k, w⟩ := e
    obtain ⟨hnot, hm⟩ := List.nodup_cons.mp h
    rw [get?_cons, List.mem_cons, Prod.mk.injEq]
    split_ifs with hk
    · have hkey : (k, v) ∉ m := fun hmem => hnot (List.mem_map.mpr ⟨(k, v), hmem, rfl⟩)
      simp [hk, hkey, eq_comm]
    · simp [hk, ih hm]

/-- The order of the entries does not matter to a look-up. -/
lemma get?_perm {m n : Entries F} (hperm : m.Perm n) (h : (Entries.keys m).Nodup) (key : Text) :
    Entries.get? m key = Entries.get? n key := by
  have hn : (Entries.keys n).Nodup := ((hperm.map Prod.fst).nodup_iff).mp h
  apply Option.ext
  intro v
  rw [get?_eq_some_iff h, get?_eq_some_iff hn, hperm.mem_iff]

lemma get?_eq_none_iff {m : Entries F} {key : Text} :
    Entries.get? m key = none ↔ key ∉ Entries.keys m := by
  induction m with
  | nil => simp [Entries.keys]
  | cons e m ih =>
    obtain ⟨k, v⟩ := e
    have hkeys : Entries.keys ((k, v) :: m) = k :: Entries.keys m := rfl
    rw [get?_cons, hkeys, List.mem_cons, not_or, ← ih]
    split_ifs with hk <;> simp [hk]

lemma keys_set (m : Entries F) (key : Text) (v : Json F) :
    Entries.keys (Entries.set m key v) =
      if key ∈ Entries.keys m then Entries.keys m else Entries.keys m ++ [key] := by
  induction m with
  | nil => rfl
  | cons e m ih =>
    obtain ⟨k, w⟩ := e
    unfold Entries.keys at ih ⊢
    rw [Entries.set]
    by_cases hk : k = key
    · simp [hk]
    · have hne : key ≠ k := fun h => hk h.symm
      rw [if_neg hk, List.map_cons, ih]
      by_cases hmem : key ∈ m.map Prod.fst
      · simp [hmem]
      · simp [hmem, hne]

/-- A dictionary has each key once. -/
theorem nodup_keys_ofPairs (pairs : List (Text × Json F)) :
    (Entries.keys (Entries.ofPairs pairs)).Nodup := by
  have hfold (m : Entries F) (hm : (Entries.keys m).Nodup) :
      (Entries.keys (pairs.foldl (fun m e => Entries.set m e.1 e.2) m)).Nodup := by
    induction pairs generalizing m with
    | nil => exact hm
    | cons e pairs ih =>
      rw [List.foldl_cons]
      apply ih
      rw [keys_set]
      split
      · exact hm
      · next hnot => exact List.nodup_append.mpr ⟨hm, List.nodup_singleton _, by
          rintro a ha b hb rfl
          exact hnot (List.mem_singleton.mp hb ▸ ha)⟩
  exact hfold [] List.nodup_nil

/-- Entries in the order of their keys are found by sorting whatever has the same look-ups. -/
theorem sortEntries_eq_of_get? {m n : Entries F} (hm : (Entries.keys m).Nodup)
    (hn : (Entries.keys n).Pairwise (· < ·))
    (hget : ∀ key, Entries.get? m key = Entries.get? n key) : sortEntries m = n := by
  have hnodup : (Entries.keys n).Nodup := hn.imp fun h => ne_of_lt h
  have hperm : m.Perm n := by
    rw [List.perm_ext_iff_of_nodup hm.of_map hnodup.of_map]
    rintro ⟨key, v⟩
    rw [← get?_eq_some_iff hm, ← get?_eq_some_iff hnodup, hget]
  have htotal : Std.Total fun a b : Text × Json F => a.1 ≤ b.1 := ⟨fun a b => le_total a.1 b.1⟩
  have htrans : IsTrans (Text × Json F) fun a b => a.1 ≤ b.1 := ⟨fun a b c => le_trans⟩
  have hsorted : n.Pairwise fun a b => a.1 ≤ b.1 := (List.pairwise_map.mp hn).imp fun h => h.le
  apply List.Perm.eq_of_pairwise ?_ (List.pairwise_insertionSort _ m) hsorted
    ((List.perm_insertionSort _ m).trans hperm)
  rintro ⟨key, v⟩ ⟨key', w⟩ ha hb hle hge
  obtain rfl : key = key' := le_antisymm hle hge
  have hmem : (key, v) ∈ n := hperm.mem_iff.mp ((List.perm_insertionSort _ m).mem_iff.mp ha)
  have hv := (get?_eq_some_iff hnodup).mpr hmem
  rw [(get?_eq_some_iff hnodup).mpr hb] at hv
  rw [Option.some.inj hv]

end Entries

/-- Reading a mapping finds each key once. -/
theorem nodup_keys_of_loads [FloatText F] {t : Text} {m : Entries F}
    (h : loads t = some (.dict m)) : (Entries.keys m).Nodup := by
  have hread (fuel : ℕ) (t rest : Text)
      (h : readValue fuel t = some (.dict m, rest)) : (Entries.keys m).Nodup := by
    cases t with
    | nil => simp [readValue] at h
    | cons c t =>
      cases fuel with
      | zero => simp [readValue] at h
      | succ fuel =>
        rw [readValue] at h
        split at h
        · simp at h
        split at h
        · split at h
          · cases h
          · split at h <;> simp at h
        split at h
        · split at h
          · cases h
          · split at h
            · obtain ⟨rfl, -⟩ : [] = m ∧ _ := by simpa using h
              exact List.nodup_nil
            · obtain ⟨r, -, hr⟩ := Option.map_eq_some_iff.mp h
              obtain ⟨rfl, -⟩ : Entries.ofPairs r.1 = m ∧ _ := by simpa using hr
              exact Entries.nodup_keys_ofPairs r.1
        -- What begins with neither bracket is a constant or a number.
        · rcases Option.or_eq_some_iff.mp h with hconst | ⟨-, hnumber⟩
          · obtain ⟨e, he, hv⟩ := Option.map_eq_some_iff.mp hconst
            have hmem := List.mem_of_find?_eq_some he
            have hvalue : e.2 = .dict m := (Prod.ext_iff.mp hv).1
            simp only [constants, List.mem_cons, List.not_mem_nil, or_false] at hmem
            rcases hmem with rfl | rfl | rfl | rfl | rfl | rfl <;> cases hvalue
          · unfold readNumber at hnumber
            dsimp only at hnumber
            split_ifs at hnumber <;> simp at hnumber
  unfold loads at h
  split at h
  · next v rest hv =>
    split at h
    · exact hread _ _ rest (by rw [hv, Option.some.inj h])
    · cases h
  · cases h

/-! ### Sorted keys -/

lemma sortKeysItems_eq_map (items : List (Json F)) : sortKeysItems items = items.map sortKeys := by
  induction items with
  | nil => rfl
  | cons v items ih => rw [sortKeysItems, ih, List.map_cons]

lemma sortKeysEntries_eq_map (m : Entries F) :
    sortKeysEntries m = m.map fun e => (e.1, sortKeys e.2) := by
  induction m with
  | nil => rfl
  | cons e m ih =>
    obtain ⟨key, v⟩ := e
    rw [sortKeysEntries, ih, List.map_cons]

lemma sortEntries_sortEntries (m : Entries F) : sortEntries (sortEntries m) = sortEntries m := by
  let before (a b : Text × Json F) : Prop := a.1 ≤ b.1
  have htotal : Std.Total before := ⟨fun a b => le_total a.1 b.1⟩
  have htrans : IsTrans _ before := ⟨fun a b c => le_trans⟩
  exact (List.pairwise_insertionSort before m).insertionSort_eq

lemma get?_sortKeysEntries (m : Entries F) (key : Text) :
    Entries.get? (sortKeysEntries m) key = (Entries.get? m key).map sortKeys := by
  induction m with
  | nil => rfl
  | cons e m ih =>
    obtain ⟨k, v⟩ := e
    rw [sortKeysEntries, Entries.get?_cons, Entries.get?_cons, ih]
    split_ifs <;> rfl

/-- Looking a key up in the sorted entries. -/
lemma get?_sortEntries {m : Entries F} (h : (Entries.keys m).Nodup) (key : Text) :
    Entries.get? (sortEntries (sortKeysEntries m)) key = (Entries.get? m key).map sortKeys := by
  rw [← get?_sortKeysEntries]
  refine (Entries.get?_perm (List.perm_insertionSort _ _).symm ?_ key).symm
  rw [keys_sortKeysEntries]
  exact h

/-- Dictionaries of one text have the same values at each key. -/
lemma get?_of_sortKeys_eq {m n : Entries F} (hm : (Entries.keys m).Nodup)
    (hn : (Entries.keys n).Nodup) (h : sortKeys (.dict m) = sortKeys (.dict n)) (key : Text) :
    (Entries.get? m key).map sortKeys = (Entries.get? n key).map sortKeys := by
  rw [← get?_sortEntries hm, ← get?_sortEntries hn]
  rw [sortKeys, sortKeys] at h
  rw [Json.dict.inj h]

mutual

theorem sortKeys_sortKeys : ∀ v : Json F, sortKeys (sortKeys v) = sortKeys v
  | .list items => congrArg Json.list (sortKeysItems_sortKeys items)
  | .dict entries => by
    have hfixed : ∀ e ∈ sortEntries (sortKeysEntries entries), (e.1, sortKeys e.2) = e := by
      intro e he
      exact sortKeysEntries_sortKeys entries e ((List.perm_insertionSort _ _).mem_iff.mp he)
    rw [sortKeys, sortKeys, sortKeysEntries_eq_map (sortEntries _), List.map_congr_left hfixed,
      List.map_id', sortEntries_sortEntries]
  | .null => rfl
  | .bool _ => rfl
  | .int _ => rfl
  | .float _ => rfl
  | .str _ => rfl

theorem sortKeysItems_sortKeys : ∀ items : List (Json F),
    sortKeysItems (sortKeysItems items) = sortKeysItems items
  | [] => rfl
  | v :: items => congrArg₂ List.cons (sortKeys_sortKeys v) (sortKeysItems_sortKeys items)

theorem sortKeysEntries_sortKeys : ∀ entries : List (Text × Json F),
    ∀ e ∈ sortKeysEntries entries, (e.1, sortKeys e.2) = e
  | [], e, h => by cases h
  | (key, v) :: entries, e, h => by
    cases h with
    | head => exact congrArg (Prod.mk key) (sortKeys_sortKeys v)
    | tail _ h => exact sortKeysEntries_sortKeys entries e h

end

end NanFree

end Python

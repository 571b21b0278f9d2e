import Mathlib.Data.List.Basic
import Mathlib.Tactic.Common

/-!
# Keyed tables

A finite table of rows under strictly increasing row ids, with the id counter of an
autoincrementing key. Every operation is described by what it does to `get?`, so that
later proofs reason row by row and never look at the list.
-/

namespace Relational

universe u

/-- A table carries the proof that its ids increase and lie below the counter, so an
operation can never produce two rows with one id. -/
structure Table (ρ : Type u) where
  rows : List (Nat × ρ)
  next : Nat
  sorted : rows.Pairwise (fun a b => a.1 < b.1)
  below : ∀ e ∈ rows, e.1 < next

namespace Table

variable {ρ : Type u}

instance [DecidableEq ρ] : DecidableEq (Table ρ) := fun a b =>
  decidable_of_iff (a.rows = b.rows ∧ a.next = b.next) (by
    cases a
    cases b
    simp)

/-- Row ids start at one. -/
def empty : Table ρ := ⟨[], 1, List.Pairwise.nil, by simp⟩

instance : Inhabited (Table ρ) := ⟨empty⟩

def get? (t : Table ρ) (i : Nat) : Option ρ := t.rows.lookup i

/-- `INSERT` into an autoincrementing table: the counter is never reused. -/
def insert (t : Table ρ) (r : ρ) : Table ρ where
  rows := t.rows ++ [(t.next, r)]
  next := t.next + 1
  sorted := by
    rw [List.pairwise_append]
    refine ⟨t.sorted, by simp, ?_⟩
    intro a ha b hb
    rw [List.mem_singleton.mp hb]
    exact t.below a ha
  below := by
    intro e he
    rcases List.mem_append.mp he with h | h
    · exact Nat.lt_succ_of_lt (t.below e h)
    · rw [List.mem_singleton.mp h]
      exact Nat.lt_succ_self _

/-- The same row ids with the rows seen through `f`. -/
def map {σ : Type*} (t : Table ρ) (f : ρ → σ) : Table σ where
  rows := t.rows.map (Prod.map id f)
  next := t.next
  sorted := List.pairwise_map.mpr t.sorted
  below := by
    intro e he
    obtain ⟨a, ha, rfl⟩ := List.mem_map.mp he
    exact t.below a ha

/-- `UPDATE ... SET f WHERE p`. -/
def updateWhere (t : Table ρ) (p : Nat → ρ → Bool) (f : ρ → ρ) : Table ρ where
  rows := t.rows.map (fun e => if p e.1 e.2 then (e.1, f e.2) else e)
  next := t.next
  sorted := by
    rw [List.pairwise_map]
    refine t.sorted.imp ?_
    intro a b h
    split <;> split <;> exact h
  below := by
    intro e he
    obtain ⟨a, ha, rfl⟩ := List.mem_map.mp he
    split <;> exact t.below a ha

/-- `DELETE FROM ... WHERE p`. -/
def deleteWhere (t : Table ρ) (p : Nat → ρ → Bool) : Table ρ where
  rows := t.rows.filter (fun e => !p e.1 e.2)
  next := t.next
  sorted := t.sorted.filter _
  below := fun e he => t.below e (List.mem_filter.mp he).1

/-- `UPDATE ... SET f WHERE id = i`. -/
def modify (t : Table ρ) (i : Nat) (f : ρ → ρ) : Table ρ :=
  t.updateWhere (fun j _ => j == i) f

/-- The selected rows in id order. -/
def select (t : Table ρ) (p : Nat → ρ → Bool) : List (Nat × ρ) :=
  t.rows.filter (fun e => p e.1 e.2)

/-- `EXISTS (SELECT 1 FROM ... WHERE p)`. -/
def any (t : Table ρ) (p : Nat → ρ → Bool) : Bool := t.rows.any (fun e => p e.1 e.2)

/-- `SELECT ... WHERE p LIMIT 1` over a unique key. -/
def first? (t : Table ρ) (p : Nat → ρ → Bool) : Option (Nat × ρ) := (t.select p).head?

/-- `SELECT ... WHERE p ORDER BY id DESC LIMIT 1`. -/
def newest? (t : Table ρ) (p : Nat → ρ → Bool) : Option (Nat × ρ) := (t.select p).getLast?

/-- The id after the largest id in use: the rowid of a key without autoincrement. -/
def freeId (t : Table ρ) : Nat := ((t.rows.getLast?.map Prod.fst).getD 0) + 1

lemma lt_freeId {t : Table ρ} {e : Nat × ρ} (he : e ∈ t.rows) : e.1 < t.freeId := by
  unfold freeId
  cases hl : t.rows.getLast? with
  | none =>
    rw [List.getLast?_eq_none_iff.mp hl] at he
    simp at he
  | some l =>
    obtain ⟨init, hinit⟩ := List.getLast?_eq_some_iff.mp hl
    have hs := hinit ▸ t.sorted
    rw [hinit] at he
    rcases List.mem_append.mp he with h | h
    · have := (List.pairwise_append.mp hs).2.2 e h l (List.mem_singleton_self l)
      simp
      omega
    · rw [List.mem_singleton.mp h]
      simp

/-- `INSERT` into a table whose key does not autoincrement. -/
def append (t : Table ρ) (r : ρ) : Table ρ where
  rows := t.rows ++ [(t.freeId, r)]
  next := max t.next (t.freeId + 1)
  sorted := by
    rw [List.pairwise_append]
    refine ⟨t.sorted, by simp, ?_⟩
    intro a ha b hb
    rw [List.mem_singleton.mp hb]
    exact lt_freeId ha
  below := by
    intro e he
    rcases List.mem_append.mp he with h | h
    · exact Nat.lt_of_lt_of_le (t.below e h) (Nat.le_max_left _ _)
    · rw [List.mem_singleton.mp h]
      exact Nat.lt_of_lt_of_le (Nat.lt_succ_self _) (Nat.le_max_right _ _)

/-! ### What the operations do to `get?` -/

theorem get?_eq_some_iff {t : Table ρ} {i : Nat} {r : ρ} :
    t.get? i = some r ↔ (i, r) ∈ t.rows := by
  obtain ⟨rows, next, sorted, below⟩ := t
  simp only [get?]
  clear below
  induction rows with
  | nil => simp
  | cons e es ih =>
    obtain ⟨j, r'⟩ := e
    rw [List.pairwise_cons] at sorted
    by_cases h : i = j
    · subst h
      have hne : (i, r) ∉ es := fun hm => Nat.lt_irrefl i (sorted.1 (i, r) hm)
      simp [hne, eq_comm]
    · have hb : (i == j) = false := by simp [h]
      rw [List.lookup_cons, hb]
      simp [ih sorted.2, h]

theorem get?_lt_next {t : Table ρ} {i : Nat} {r : ρ} (h : t.get? i = some r) : i < t.next :=
  t.below _ (get?_eq_some_iff.mp h)

theorem get?_lt_freeId {t : Table ρ} {i : Nat} {r : ρ} (h : t.get? i = some r) : i < t.freeId :=
  lt_freeId (get?_eq_some_iff.mp h)

lemma get?_eq_none_of_freeId_le {t : Table ρ} {i : Nat} (h : t.freeId ≤ i) : t.get? i = none := by
  cases hg : t.get? i with
  | none => rfl
  | some r => exact absurd (get?_lt_freeId hg) (Nat.not_lt.mpr h)

@[simp] lemma get?_empty (i : Nat) : (empty : Table ρ).get? i = none := rfl

lemma get?_eq_none_of_next_le {t : Table ρ} {i : Nat} (h : t.next ≤ i) : t.get? i = none := by
  cases hg : t.get? i with
  | none => rfl
  | some r => exact absurd (get?_lt_next hg) (Nat.not_lt.mpr h)

@[simp] theorem get?_insert (t : Table ρ) (r : ρ) (i : Nat) :
    (t.insert r).get? i = if i = t.next then some r else t.get? i := by
  apply Option.ext
  intro a
  rw [get?_eq_some_iff]
  by_cases h : i = t.next
  · subst h
    have hnot : (t.next, a) ∉ t.rows := fun hm => Nat.lt_irrefl _ (t.below _ hm)
    simp [insert, hnot, eq_comm]
  · simp [insert, h, get?_eq_some_iff]

@[simp] theorem get?_append (t : Table ρ) (r : ρ) (i : Nat) :
    (t.append r).get? i = if i = t.freeId then some r else t.get? i := by
  apply Option.ext
  intro a
  rw [get?_eq_some_iff]
  by_cases h : i = t.freeId
  · subst h
    have hnot : (t.freeId, a) ∉ t.rows := fun hm => Nat.lt_irrefl _ (lt_freeId hm)
    simp [append, hnot, eq_comm]
  · simp [append, h, get?_eq_some_iff]

@[simp] lemma next_insert (t : Table ρ) (r : ρ) : (t.insert r).next = t.next + 1 := rfl

@[simp] theorem get?_map {σ : Type*} (t : Table ρ) (f : ρ → σ) (i : Nat) :
    (t.map f).get? i = (t.get? i).map f := by
  change List.lookup i (t.rows.map (Prod.map id f)) = (List.lookup i t.rows).map f
  induction t.rows with
  | nil => rfl
  | cons e rows ih =>
    obtain ⟨j, r⟩ := e
    by_cases h : i = j
    · simp [h]
    · have hb : (i == j) = false := by simpa using h
      simpa [List.lookup_cons, hb] using ih

@[simp] theorem get?_updateWhere (t : Table ρ) (p : Nat → ρ → Bool) (f : ρ → ρ) (i : Nat) :
    (t.updateWhere p f).get? i = (t.get? i).map (fun r => if p i r then f r else r) := by
  apply Option.ext
  intro a
  rw [get?_eq_some_iff, Option.map_eq_some_iff]
  simp only [updateWhere, List.mem_map]
  constructor
  · rintro ⟨⟨j, r⟩, hm, he⟩
    refine ⟨r, ?_, ?_⟩ <;> by_cases hp : p j r <;> simp_all [get?_eq_some_iff]
  · rintro ⟨r, hr, rfl⟩
    refine ⟨(i, r), get?_eq_some_iff.mp hr, ?_⟩
    by_cases hp : p i r <;> simp [hp]

@[simp] lemma next_updateWhere (t : Table ρ) (p : Nat → ρ → Bool) (f : ρ → ρ) :
    (t.updateWhere p f).next = t.next := rfl

@[simp] lemma next_modify (t : Table ρ) (j : Nat) (f : ρ → ρ) : (t.modify j f).next = t.next := rfl

@[simp] theorem get?_deleteWhere (t : Table ρ) (p : Nat → ρ → Bool) (i : Nat) :
    (t.deleteWhere p).get? i = (t.get? i).filter (fun r => !p i r) := by
  apply Option.ext
  intro a
  rw [get?_eq_some_iff, Option.filter_eq_some_iff, get?_eq_some_iff]
  simp [deleteWhere]

@[simp] lemma next_deleteWhere (t : Table ρ) (p : Nat → ρ → Bool) :
    (t.deleteWhere p).next = t.next := rfl

theorem mem_select {t : Table ρ} {p : Nat → ρ → Bool} {i : Nat} {r : ρ} :
    (i, r) ∈ t.select p ↔ t.get? i = some r ∧ p i r := by
  rw [get?_eq_some_iff]
  simp [select]

theorem any_iff {t : Table ρ} {p : Nat → ρ → Bool} :
    t.any p = true ↔ ∃ i r, t.get? i = some r ∧ p i r := by
  simp only [any, List.any_eq_true, get?_eq_some_iff, Prod.exists]

theorem any_eq_false_iff {t : Table ρ} {p : Nat → ρ → Bool} :
    t.any p = false ↔ ∀ i r, t.get? i = some r → p i r = false := by
  rw [← Bool.not_eq_true, any_iff]
  simp

theorem first?_eq_some {t : Table ρ} {p : Nat → ρ → Bool} {i : Nat} {r : ρ}
    (h : t.first? p = some (i, r)) : t.get? i = some r ∧ p i r :=
  mem_select.mp (List.mem_of_head? h)

theorem first?_eq_none {t : Table ρ} {p : Nat → ρ → Bool} (h : t.first? p = none) {i : Nat}
    {r : ρ} (hr : t.get? i = some r) : p i r = false := by
  have hnil : t.select p = [] := List.head?_eq_none_iff.mp h
  by_contra hp
  have hm : (i, r) ∈ t.select p := mem_select.mpr ⟨hr, by simpa using hp⟩
  simp [hnil] at hm

/-- A selection is determined by the rows that meet its condition. -/
theorem select_congr {t t' : Table ρ} {p p' : Nat → ρ → Bool}
    (h : ∀ i r, (t.get? i = some r ∧ p i r = true) ↔ (t'.get? i = some r ∧ p' i r = true)) :
    t.select p = t'.select p' := by
  have nodup : ∀ {t : Table ρ} {p : Nat → ρ → Bool}, (t.select p).Nodup := fun {t p} =>
    (t.sorted.filter _).imp fun hlt heq => absurd (congrArg Prod.fst heq) (Nat.ne_of_lt hlt)
  have hperm : (t.select p).Perm (t'.select p') := by
    rw [List.perm_ext_iff_of_nodup nodup nodup]
    rintro ⟨i, r⟩
    rw [mem_select, mem_select]
    exact h i r
  refine hperm.eq_of_pairwise ?_ (t.sorted.filter _) (t'.sorted.filter _)
  intro a b _ _ hab hba
  exact absurd hba (Nat.lt_asymm hab)

/-- A row with a new last id is selected last. -/
theorem select_of_append {t t' : Table ρ} {p : Nat → ρ → Bool} {r : ρ}
    (h : ∀ i, t'.get? i = if i = t.freeId then some r else t.get? i)
    (hp : p t.freeId r = true) : t'.select p = t.select p ++ [(t.freeId, r)] := by
  have hsame : t'.select p = (t.append r).select p := by
    apply select_congr
    intro i x
    rw [h, get?_append]
  rw [hsame]
  change (t.rows ++ [(t.freeId, r)]).filter (fun e => p e.1 e.2) = _
  rw [List.filter_append, List.filter_singleton, hp]
  rfl

/-- An update of rows that are and stay outside a selection does not change the selection. -/
theorem select_updateWhere {t : Table ρ} {p q : Nat → ρ → Bool} {f : ρ → ρ}
    (h : ∀ i r, t.get? i = some r → q i r = true → p i r = false ∧ p i (f r) = false) :
    (t.updateWhere q f).select p = t.select p := by
  have hrows : ∀ e ∈ t.rows, q e.1 e.2 = true → p e.1 e.2 = false ∧ p e.1 (f e.2) = false :=
    fun e he => h e.1 e.2 (get?_eq_some_iff.mpr he)
  change List.filter _ (List.map _ t.rows) = List.filter _ t.rows
  generalize t.rows = rows at hrows
  induction rows with
  | nil => rfl
  | cons e rows ih =>
    have htail := ih fun e' he' => hrows e' (List.mem_cons_of_mem e he')
    rw [List.map_cons, List.filter_cons, List.filter_cons, htail]
    by_cases hq : q e.1 e.2 = true
    · obtain ⟨hp, hpf⟩ := hrows e (by simp) hq
      simp [hq, hp, hpf]
    · simp [hq]

/-- An update that keeps the condition of a selection updates the selected rows. -/
theorem select_updateWhere_of_keeps {t : Table ρ} {p q : Nat → ρ → Bool} {f : ρ → ρ}
    (h : ∀ i r, p i (f r) = p i r) :
    (t.updateWhere q f).select p =
      (t.select p).map fun e => if q e.1 e.2 then (e.1, f e.2) else e := by
  change List.filter _ (List.map _ t.rows) = List.map _ (List.filter _ t.rows)
  rw [List.filter_map]
  congr 1
  apply List.filter_congr
  intro e _
  by_cases hq : q e.1 e.2 = true
  · simp [hq, h]
  · simp [hq]

lemma sorted_select (t : Table ρ) (p : Nat → ρ → Bool) :
    (t.select p).Pairwise (fun a b => a.1 < b.1) := t.sorted.filter _

/-- A condition that only one row id can meet selects at most that row. -/
theorem select_eq_singleton {t : Table ρ} {p : Nat → ρ → Bool} {n : Nat} {r : ρ}
    (hr : t.get? n = some r) (hp : p n r = true)
    (honly : ∀ m r', t.get? m = some r' → p m r' = true → m = n) : t.select p = [(n, r)] := by
  have hmem : (n, r) ∈ t.select p := mem_select.mpr ⟨hr, hp⟩
  have hs := t.sorted_select p
  have hid : ∀ e ∈ t.select p, e.1 = n := fun e he =>
    honly e.1 e.2 (mem_select.mp he).1 (mem_select.mp he).2
  match hl : t.select p with
  | [] => simp [hl] at hmem
  | [e] =>
    rw [hl, List.mem_singleton] at hmem
    rw [hmem]
  | a :: b :: es =>
    rw [hl] at hs hid
    have hab : a.1 < b.1 := (List.pairwise_cons.mp hs).1 b (by simp)
    have ha : a.1 = n := hid a (by simp)
    have hb : b.1 = n := hid b (by simp)
    omega

theorem newest?_eq_some {t : Table ρ} {p : Nat → ρ → Bool} {i : Nat} {r : ρ}
    (h : t.newest? p = some (i, r)) :
    t.get? i = some r ∧ p i r ∧ ∀ j r', t.get? j = some r' → p j r' → j ≤ i := by
  obtain ⟨hr, hp⟩ := mem_select.mp (List.mem_of_getLast? h)
  refine ⟨hr, hp, fun j r' hj hpj => ?_⟩
  obtain ⟨init, hinit⟩ := List.getLast?_eq_some_iff.mp h
  have hm : (j, r') ∈ init ++ [(i, r)] := hinit ▸ mem_select.mpr ⟨hj, hpj⟩
  have hs : (init ++ [(i, r)]).Pairwise (fun a b => a.1 < b.1) := hinit ▸ t.sorted_select p
  rcases List.mem_append.mp hm with h' | h'
  · exact Nat.le_of_lt ((List.pairwise_append.mp hs).2.2 _ h' _ (List.mem_singleton_self _))
  · rw [List.mem_singleton] at h'
    exact Nat.le_of_eq (congrArg Prod.fst h')

theorem newest?_eq_none {t : Table ρ} {p : Nat → ρ → Bool} (h : t.newest? p = none) {i : Nat}
    {r : ρ} (hr : t.get? i = some r) : p i r = false := by
  have hnil : t.select p = [] := List.getLast?_eq_none_iff.mp h
  by_contra hp
  have hm : (i, r) ∈ t.select p := mem_select.mpr ⟨hr, by simpa using hp⟩
  simp [hnil] at hm

theorem newest?_updateWhere {t : Table ρ} {p q : Nat → ρ → Bool} {f : ρ → ρ}
    (h : ∀ i r, p i (f r) = p i r) :
    (t.updateWhere q f).newest? p =
      (t.newest? p).map fun e => if q e.1 e.2 then (e.1, f e.2) else e := by
  unfold newest?
  rw [select_updateWhere_of_keeps h, List.getLast?_map]

end Table

end Relational

import Mathlib.Data.List.Pairwise
import Tendwire.Relational.Table

/-!
# Tables under constraints

A schema is a row check and a list of unique keys, where a key that is `none` constrains
nothing. A write that would break the schema has no result, as a statement the database
refuses.
-/

namespace Relational

universe u v

structure Schema (ρ : Type u) (κ : Type v) where
  check : ρ → Bool
  keys : List (ρ → Option κ)

variable {ρ : Type u} {κ : Type v} [DecidableEq κ]

namespace Schema

/-- Two rows that agree on some unique key. -/
def clash (S : Schema ρ κ) (a b : ρ) : Bool :=
  S.keys.any (fun k => (k a).isSome && k a == k b)

def Holds (S : Schema ρ κ) (t : Table ρ) : Prop :=
  (∀ e ∈ t.rows, S.check e.2 = true) ∧ t.rows.Pairwise (fun a b => S.clash a.2 b.2 = false)

instance (S : Schema ρ κ) (t : Table ρ) : Decidable (S.Holds t) :=
  inferInstanceAs (Decidable (_ ∧ _))

lemma clash_comm (S : Schema ρ κ) (a b : ρ) : S.clash a b = S.clash b a := by
  unfold clash
  congr 1
  funext k
  cases ha : k a <;> cases hb : k b <;> simp [Bool.beq_comm]

/-- An update whose rows pass the check and keep their keys. -/
theorem Holds.updateWhere {S : Schema ρ κ} {t : Table ρ} (ht : S.Holds t) {p : Nat → ρ → Bool}
    {f : ρ → ρ} (hcheck : ∀ e ∈ t.rows, p e.1 e.2 = true → S.check (f e.2) = true)
    (hkeys : ∀ r, ∀ k ∈ S.keys, k (f r) = k r) : S.Holds (t.updateWhere p f) := by
  have hkey : ∀ k ∈ S.keys, ∀ e : Nat × ρ, k (if p e.1 e.2 then (e.1, f e.2) else e).2 = k e.2 := by
    intro k hk e
    split
    · exact hkeys e.2 k hk
    · rfl
  refine ⟨fun e he => ?_, ?_⟩
  · obtain ⟨a, ha, rfl⟩ := List.mem_map.mp he
    split
    · next hp => exact hcheck a ha hp
    · exact ht.1 a ha
  · change (List.map _ t.rows).Pairwise _
    rw [List.pairwise_map]
    refine ht.2.imp fun {a b} hab => ?_
    rw [← hab]
    unfold clash
    rw [Bool.eq_iff_iff, List.any_eq_true, List.any_eq_true]
    refine exists_congr fun k => and_congr_right fun hk => ?_
    rw [hkey k hk a, hkey k hk b]

end Schema

/-- A table together with the proof that it meets its schema. -/
structure Constrained (S : Schema ρ κ) where
  table : Table ρ
  holds : S.Holds table

namespace Constrained

variable {S : Schema ρ κ}

instance [DecidableEq ρ] : DecidableEq (Constrained S) := fun a b =>
  decidable_of_iff (a.table = b.table) (by
    cases a
    cases b
    simp)

def empty : Constrained S := ⟨Table.empty, by simp [Schema.Holds, Table.empty]⟩

def get? (t : Constrained S) (i : Nat) : Option ρ := t.table.get? i

/-- The statement's effect, unless it breaks the schema. -/
def write (t : Table ρ) : Option (Constrained S) := if h : S.Holds t then some ⟨t, h⟩ else none

def insert (t : Constrained S) (r : ρ) : Option (Constrained S) := write (t.table.insert r)

def updateWhere (t : Constrained S) (p : Nat → ρ → Bool) (f : ρ → ρ) : Option (Constrained S) :=
  write (t.table.updateWhere p f)

def append (t : Constrained S) (r : ρ) : Option (Constrained S) := write (t.table.append r)

/-- An update that changes neither the check nor a key of any row cannot break the schema. -/
def updateKeep (t : Constrained S) (p : Nat → ρ → Bool) (f : ρ → ρ)
    (keep : ∀ r, S.check (f r) = S.check r ∧ ∀ k ∈ S.keys, k (f r) = k r) : Constrained S where
  table := t.table.updateWhere p f
  holds := t.holds.updateWhere (fun e he _ => (keep e.2).1.trans (t.holds.1 e he)) fun r => (keep r).2

/-- `INSERT ... ON CONFLICT DO NOTHING`: a clash keeps the table, a failed check does not. -/
def insertOrIgnore (t : Constrained S) (r : ρ) : Option (Constrained S) :=
  if t.table.any (fun _ r' => S.clash r' r) then some t else t.insert r

def deleteWhere (t : Constrained S) (p : Nat → ρ → Bool) : Constrained S where
  table := t.table.deleteWhere p
  holds := ⟨fun e he => t.holds.1 e (List.mem_filter.mp he).1, t.holds.2.filter _⟩

/-- The rows under another schema, no two of which come to clash there. -/
def map {σ : Type*} {κ' : Type*} [DecidableEq κ'] {S' : Schema σ κ'} (t : Constrained S) (f : ρ → σ)
    (check : ∀ r, S'.check (f r) = true)
    (clash : ∀ a b, S.clash a b = false → S'.clash (f a) (f b) = false) : Constrained S' where
  table := t.table.map f
  holds := by
    refine ⟨?_, List.pairwise_map.mpr (t.holds.2.imp fun h => clash _ _ h)⟩
    intro e he
    obtain ⟨a, -, rfl⟩ := List.mem_map.mp he
    exact check a.2

/-! ### What the operations do to `get?` -/

@[simp] lemma get?_updateKeep (t : Constrained S) (p : Nat → ρ → Bool) (f : ρ → ρ)
    (keep : ∀ r, S.check (f r) = S.check r ∧ ∀ k ∈ S.keys, k (f r) = k r) (i : Nat) :
    (t.updateKeep p f keep).get? i = (t.get? i).map (fun r => if p i r then f r else r) :=
  Table.get?_updateWhere _ _ _ _

@[simp] lemma get?_map {σ : Type*} {κ' : Type*} [DecidableEq κ'] {S' : Schema σ κ'}
    (t : Constrained S) (f : ρ → σ) (check : ∀ r, S'.check (f r) = true)
    (clash : ∀ a b, S.clash a b = false → S'.clash (f a) (f b) = false) (i : Nat) :
    (t.map f check clash).get? i = (t.get? i).map f :=
  Table.get?_map _ _ _

@[simp] lemma get?_deleteWhere (t : Constrained S) (p : Nat → ρ → Bool) (i : Nat) :
    (t.deleteWhere p).get? i = (t.get? i).filter (fun r => !p i r) :=
  Table.get?_deleteWhere _ _ _

@[simp] lemma get?_empty (i : Nat) : (empty : Constrained S).get? i = none := rfl

theorem check_of_get? (t : Constrained S) {i : Nat} {r : ρ} (h : t.get? i = some r) :
    S.check r = true := t.holds.1 _ (Table.get?_eq_some_iff.mp h)

/-- An update that keeps the keys and whose rows pass the check is not refused. -/
theorem exists_updateWhere {t : Constrained S} {p : Nat → ρ → Bool} {f : ρ → ρ}
    (hcheck : ∀ i r, t.get? i = some r → p i r = true → S.check (f r) = true)
    (hkeys : ∀ r, ∀ k ∈ S.keys, k (f r) = k r) : ∃ t', t.updateWhere p f = some t' :=
  ⟨⟨_, t.holds.updateWhere (fun e he => hcheck e.1 e.2 (Table.get?_eq_some_iff.mpr he)) hkeys⟩,
    dif_pos _⟩

/-- A unique key determines the row id. -/
theorem eq_of_key (t : Constrained S) {k : ρ → Option κ} (hk : k ∈ S.keys) {i j : Nat}
    {a b : ρ} (ha : t.get? i = some a) (hb : t.get? j = some b) {v : κ} (hka : k a = some v)
    (hkb : k b = some v) : i = j := by
  have hclash : S.clash a b = true := by
    refine List.any_eq_true.mpr ⟨k, hk, ?_⟩
    simp [hka, hkb]
  by_contra hne
  have hsymm : Std.Symm (fun a b : Nat × ρ => a.1 ≠ b.1 → S.clash a.2 b.2 = false) :=
    ⟨fun a b h hba => S.clash_comm a.2 b.2 ▸ h (Ne.symm hba)⟩
  have hall := List.Pairwise.forall_of_forall (l := t.table.rows)
    (R := fun a b : Nat × ρ => a.1 ≠ b.1 → S.clash a.2 b.2 = false) (fun _ _ h => absurd rfl h)
    (t.holds.2.imp (S := fun a b : Nat × ρ => a.1 ≠ b.1 → S.clash a.2 b.2 = false)
      (fun h _ => h))
  have hfalse := hall (Table.get?_eq_some_iff.mp ha) (Table.get?_eq_some_iff.mp hb) hne
  exact Bool.noConfusion (hclash.symm.trans hfalse)

theorem write_eq_some {t : Table ρ} {t' : Constrained S} (h : write t = some t') :
    t'.table = t := by
  unfold write at h
  split at h
  · cases h
    rfl
  · cases h

theorem insert_eq_some {t t' : Constrained S} {r : ρ} (h : t.insert r = some t') :
    t'.table = t.table.insert r := write_eq_some h

lemma get?_insert {t t' : Constrained S} {r : ρ} (h : t.insert r = some t') (i : Nat) :
    t'.get? i = if i = t.table.next then some r else t.get? i := by
  unfold get?
  rw [insert_eq_some h, Table.get?_insert]

theorem insertOrIgnore_cases {t t' : Constrained S} {r : ρ} (h : t.insertOrIgnore r = some t') :
    (t' = t ∧ ∃ i r', t.get? i = some r' ∧ S.clash r' r = true) ∨
      ∀ i, t'.get? i = if i = t.table.next then some r else t.get? i := by
  unfold insertOrIgnore at h
  split at h
  · next hany => exact .inl ⟨(Option.some.inj h).symm, Table.any_iff.mp hany⟩
  · exact .inr (get?_insert h)

lemma get?_append {t t' : Constrained S} {r : ρ} (h : t.append r = some t') (i : Nat) :
    t'.get? i = if i = t.table.freeId then some r else t.get? i := by
  unfold get?
  rw [write_eq_some h, Table.get?_append]

lemma get?_updateWhere {t t' : Constrained S} {p : Nat → ρ → Bool} {f : ρ → ρ}
    (h : t.updateWhere p f = some t') (i : Nat) :
    t'.get? i = (t.get? i).map (fun r => if p i r then f r else r) := by
  unfold get?
  rw [write_eq_some h, Table.get?_updateWhere]

end Constrained

end Relational

import Mathlib.Data.Set.BooleanAlgebra
import Mathlib.Data.Set.Disjoint
import Mathlib.Data.Set.Insert
import Mathlib.Logic.Equiv.Sum
import Mathlib.Logic.Relation
import Mathlib.Order.CompletePartialOrder
import Mathlib.Tactic.Common

/-!
# Claims on shared keys

Two kinds of rows claim keys. A left and a right row match when they share a matching key; the
other keys they claim only decide whether a match can be trusted. A contested row spoils every
row that matches lead to from it, and what is left unspoiled is matched one to one.
-/

namespace Graph

universe u v w u' v'

/-- The keys that rows are matched by and the keys that they own. A tie is a key whose owners
are contested when a left and a right row own it without a match. -/
@[ext] structure Claims (α : Type u) (β : Type v) (κ : Type w) where
  matching : α ⊕ β → Set κ
  owned : α ⊕ β → Set κ
  tie : Set κ
  matching_owned : ∀ x, matching x ⊆ owned x
  /-- What a left and a right row own together shows in a match or in a tie. -/
  cross : ∀ a b, (owned (.inl a) ∩ owned (.inr b)).Nonempty →
    (matching (.inl a) ∩ matching (.inr b)).Nonempty ∨
      (tie ∩ (owned (.inl a) ∩ owned (.inr b))).Nonempty

namespace Claims

variable {α : Type u} {β : Type v} {κ : Type w} (C : Claims α β κ)

def Matched (a : α) (b : β) : Prop := (C.matching (.inl a) ∩ C.matching (.inr b)).Nonempty

/-- Two rows of any kind that share a matching key. -/
def Shares (x y : α ⊕ β) : Prop := (C.matching x ∩ C.matching y).Nonempty

/-- A match, in either direction. -/
inductive Joined : α ⊕ β → α ⊕ β → Prop
  | out {a : α} {b : β} : C.Matched a b → Joined (.inl a) (.inr b)
  | back {a : α} {b : β} : C.Matched a b → Joined (.inr b) (.inl a)

/-- The rows whose claims contradict another row's. Left rows that own a key together are only
contested when one of the owners of the key has a match. -/
inductive Contested : α ⊕ β → Prop
  | right {b b' : β} {k : κ} : b ≠ b' → k ∈ C.owned (.inr b) → k ∈ C.owned (.inr b') →
      Contested (.inr b)
  | tieLeft {a : α} {b : β} {k : κ} : k ∈ C.tie → k ∈ C.owned (.inl a) → k ∈ C.owned (.inr b) →
      ¬C.Matched a b → Contested (.inl a)
  | tieRight {a : α} {b : β} {k : κ} : k ∈ C.tie → k ∈ C.owned (.inl a) → k ∈ C.owned (.inr b) →
      ¬C.Matched a b → Contested (.inr b)
  | severalLeft {a : α} {b b' : β} : b ≠ b' → C.Matched a b → C.Matched a b' → Contested (.inl a)
  | severalRight {a : α} {b b' : β} : b ≠ b' → C.Matched a b → C.Matched a b' →
      Contested (.inr b)
  | claimedLeft {a a' : α} {b : β} : a ≠ a' → C.Matched a b → C.Matched a' b → Contested (.inl a)
  | claimedRight {a a' : α} {b : β} : a ≠ a' → C.Matched a b → C.Matched a' b →
      Contested (.inr b)
  | left {a a' c : α} {b : β} {k : κ} : a ≠ a' → k ∈ C.owned (.inl a) → k ∈ C.owned (.inl a') →
      k ∈ C.owned (.inl c) → C.Matched c b → Contested (.inl a)

/-- The rows that matches lead to from a contested one. -/
def Ambiguous (x : α ⊕ β) : Prop :=
  ∃ c, C.Contested c ∧ Relation.ReflTransGen C.Joined c x

/-- The matches that can be trusted. -/
def Paired (a : α) (b : β) : Prop :=
  ¬C.Ambiguous (.inl a) ∧ C.Matched a b ∧ ∀ b', C.Matched a b' → b' = b

/-- The rows that share matching keys with `a` and, through others, with whom it does. -/
def component (x : α ⊕ β) : Set (α ⊕ β) := {y | Relation.ReflTransGen C.Shares x y}

/-- No other row owns a key of the two. -/
def Unclaimed (a : α) (b : β) : Prop :=
  ∀ x, x ≠ .inl a → x ≠ .inr b →
    Disjoint (C.owned x) (C.owned (.inl a)) ∧ Disjoint (C.owned x) (C.owned (.inr b))

variable {C} {a a' : α} {b b' : β} {k : κ} {x y : α ⊕ β}

lemma Contested.ambiguous (h : C.Contested x) : C.Ambiguous x := ⟨x, h, .refl⟩

lemma Ambiguous.step (h : C.Ambiguous x) (hxy : C.Joined x y) : C.Ambiguous y := by
  obtain ⟨c, hc, hpath⟩ := h
  exact ⟨c, hc, hpath.tail hxy⟩

lemma Matched.owned (h : C.Matched a b) : ∃ k, k ∈ C.owned (.inl a) ∧ k ∈ C.owned (.inr b) := by
  obtain ⟨k, ha, hb⟩ := h
  exact ⟨k, C.matching_owned _ ha, C.matching_owned _ hb⟩

/-- A right row that owns a key of `a` matches `a`, or the two are contested. -/
lemma matched_or_contested (ha : k ∈ C.owned (.inl a)) (hb : k ∈ C.owned (.inr b)) :
    C.Matched a b ∨ (C.Contested (.inl a) ∧ C.Contested (.inr b)) := by
  by_cases hm : C.Matched a b
  · exact .inl hm
  · obtain ⟨t, ht, hta, htb⟩ := (C.cross a b ⟨k, ha, hb⟩).resolve_left hm
    exact .inr ⟨.tieLeft ht hta htb hm, .tieRight ht hta htb hm⟩

lemma Paired.right_not_ambiguous (h : C.Paired a b) : ¬C.Ambiguous (.inr b) :=
  fun hb => h.1 (hb.step (.back h.2.1))

/-- Who owns a key of a trusted pair is one of the two. -/
lemma Paired.owner (h : C.Paired a b) (hx : k ∈ C.owned x)
    (hk : k ∈ C.owned (.inl a) ∨ k ∈ C.owned (.inr b)) : x = .inl a ∨ x = .inr b := by
  have ha := h.1
  have hb := h.right_not_ambiguous
  obtain ⟨-, hm, huniq⟩ := h
  cases x with
  | inl c =>
    by_cases hc : c = a
    · exact .inl (congrArg Sum.inl hc)
    · exfalso
      rcases hk with hk | hk
      · exact ha (Contested.left (Ne.symm hc) hk hx hk hm).ambiguous
      · rcases matched_or_contested hx hk with hcb | ⟨-, hcon⟩
        · exact ha (Contested.claimedLeft (Ne.symm hc) hm hcb).ambiguous
        · exact hb hcon.ambiguous
  | inr c =>
    by_cases hc : c = b
    · exact .inr (congrArg Sum.inr hc)
    · exfalso
      rcases hk with hk | hk
      · rcases matched_or_contested hk hx with hac | ⟨hcon, -⟩
        · exact hc (huniq c hac)
        · exact ha hcon.ambiguous
      · exact hb (Contested.right (Ne.symm hc) hk hx).ambiguous

lemma Paired.component_eq (h : C.Paired a b) : C.component (.inl a) = {.inl a, .inr b} := by
  ext x
  simp only [component, Set.mem_ofPred_eq, Set.mem_insert_iff, Set.mem_singleton_iff]
  constructor
  · intro hpath
    induction hpath with
    | refl => exact .inl rfl
    | tail _ hshare ih =>
      obtain ⟨k, hy, hz⟩ := hshare
      apply h.owner (C.matching_owned _ hz)
      rcases ih with rfl | rfl
      · exact .inl (C.matching_owned _ hy)
      · exact .inr (C.matching_owned _ hy)
  · rintro (rfl | rfl)
    · exact .refl
    · exact .single h.2.1

lemma Paired.unclaimed (h : C.Paired a b) : C.Unclaimed a b := by
  intro x hxa hxb
  constructor <;> rw [Set.disjoint_left] <;> intro k hx hk
  · exact (h.owner hx (.inl hk)).elim hxa hxb
  · exact (h.owner hx (.inr hk)).elim hxa hxb

/-- Another row is told from the two of an unclaimed pair by any key it owns with them. -/
lemma Unclaimed.owner (h : C.Unclaimed a b) (hx : k ∈ C.owned x)
    (hk : k ∈ C.owned (.inl a) ∨ k ∈ C.owned (.inr b)) : x = .inl a ∨ x = .inr b := by
  by_contra hne
  obtain ⟨hda, hdb⟩ := h x (fun e => hne (.inl e)) (fun e => hne (.inr e))
  exact hk.elim (Set.disjoint_left.mp hda hx) (Set.disjoint_left.mp hdb hx)

lemma Unclaimed.left (h : C.Unclaimed a b) {c : α} (hc : k ∈ C.owned (.inl c))
    (hk : k ∈ C.owned (.inl a) ∨ k ∈ C.owned (.inr b)) : c = a :=
  (h.owner hc hk).elim Sum.inl.inj (fun e => by cases e)

lemma Unclaimed.right (h : C.Unclaimed a b) {c : β} (hc : k ∈ C.owned (.inr c))
    (hk : k ∈ C.owned (.inl a) ∨ k ∈ C.owned (.inr b)) : c = b :=
  (h.owner hc hk).elim (fun e => by cases e) Sum.inr.inj

/-- The rows of an unclaimed pair that matches are not contested. -/
lemma Unclaimed.not_contested (h : C.Unclaimed a b) (hm : C.Matched a b)
    (hx : x = .inl a ∨ x = .inr b) : ¬C.Contested x := by
  have hright {c : β} (hc : C.Matched a c) : c = b := by
    obtain ⟨k, hk, hck⟩ := hc.owned
    exact h.right hck (.inl hk)
  have hleft {c : α} (hc : C.Matched c b) : c = a := by
    obtain ⟨k, hk, hbk⟩ := hc.owned
    exact h.left hk (.inr hbk)
  intro hcon
  cases hcon with
  | @right c c' k hne hk hk' =>
    obtain rfl : c = b := by simpa using hx
    exact hne (h.right hk' (.inr hk)).symm
  | @tieLeft c d k _ hk hk' hnm =>
    obtain rfl : c = a := by simpa using hx
    exact hnm ((h.right hk' (.inl hk)) ▸ hm)
  | @tieRight c d k _ hk hk' hnm =>
    obtain rfl : d = b := by simpa using hx
    exact hnm ((h.left hk (.inr hk')) ▸ hm)
  | @severalLeft c d d' hne hd hd' =>
    obtain rfl : c = a := by simpa using hx
    exact hne ((hright hd).trans (hright hd').symm)
  | @severalRight c d d' hne hd hd' =>
    obtain rfl : d = b := by simpa using hx
    obtain rfl : c = a := hleft hd
    exact hne (hright hd').symm
  | @claimedLeft c c' d hne hd hd' =>
    obtain rfl : c = a := by simpa using hx
    obtain rfl : d = b := hright hd
    exact hne (hleft hd').symm
  | @claimedRight c c' d hne hd hd' =>
    obtain rfl : d = b := by simpa using hx
    exact hne ((hleft hd).trans (hleft hd').symm)
  | @left c c' e d k hne hk hk' _ _ =>
    obtain rfl : c = a := by simpa using hx
    exact hne (h.left hk' (.inl hk)).symm

lemma Joined.owned (h : C.Joined x y) : ∃ k, k ∈ C.owned x ∧ k ∈ C.owned y := by
  cases h with
  | out hm => exact hm.owned
  | back hm =>
    obtain ⟨k, ha, hb⟩ := hm.owned
    exact ⟨k, hb, ha⟩

/-- Matches lead from an unclaimed pair to nowhere else. -/
lemma Unclaimed.of_joined (h : C.Unclaimed a b)
    (hpath : Relation.ReflTransGen C.Joined x (.inl a)) : x = .inl a ∨ x = .inr b := by
  induction hpath using Relation.ReflTransGen.head_induction_on with
  | refl => exact .inl rfl
  | head hstep _ ih =>
    obtain ⟨k, hx, hy⟩ := hstep.owned
    apply h.owner hx
    rcases ih with rfl | rfl
    · exact .inl hy
    · exact .inr hy

/-- The two rows of a component of two match each other. -/
lemma matched_of_component (h : C.component (.inl a) = {.inl a, .inr b}) : C.Matched a b := by
  have hreach {x : α ⊕ β} (hpath : Relation.ReflTransGen C.Shares (.inl a) x) :
      x = .inl a ∨ (x = .inr b ∧ C.Matched a b) := by
    induction hpath with
    | refl => exact .inl rfl
    | @tail y z hpath hshare ih =>
      have hz : z ∈ C.component (.inl a) := hpath.tail hshare
      rw [h] at hz
      rcases hz with rfl | rfl
      · exact .inl rfl
      · rcases ih with rfl | ⟨-, hm⟩
        · exact .inr ⟨rfl, hshare⟩
        · exact .inr ⟨rfl, hm⟩
  have hb : Sum.inr b ∈ C.component (.inl a) := by
    rw [h]
    exact Set.mem_insert_of_mem _ rfl
  rcases hreach hb with h | h
  · cases h
  · exact h.2

/-- A trusted pair is a component of its own that nobody else has a claim on. -/
theorem paired_iff : C.Paired a b ↔
    C.component (.inl a) = {.inl a, .inr b} ∧ C.Unclaimed a b := by
  constructor
  · intro h
    exact ⟨h.component_eq, h.unclaimed⟩
  · rintro ⟨hcomp, hun⟩
    have hm := matched_of_component hcomp
    refine ⟨?_, hm, ?_⟩
    · rintro ⟨c, hc, hpath⟩
      exact hun.not_contested hm (hun.of_joined hpath) hc
    · intro b' hb'
      obtain ⟨k, hk, hbk⟩ := hb'.owned
      exact hun.right hbk (.inl hk)

/-! ### Renaming the rows -/

section Reindex

variable {α' : Type u'} {β' : Type v'} (e : α' ≃ α) (f : β' ≃ β)

/-- The same claims, with the rows in another order. -/
def reindex (C : Claims α β κ) : Claims α' β' κ where
  matching x := C.matching (x.map e f)
  owned x := C.owned (x.map e f)
  tie := C.tie
  matching_owned _ := C.matching_owned _
  cross a b := C.cross (e a) (f b)

variable {e f} {a : α'} {b : β'} {x y : α' ⊕ β'}

lemma matched_reindex : (C.reindex e f).Matched a b ↔ C.Matched (e a) (f b) := Iff.rfl

lemma Joined.of_reindex (h : (C.reindex e f).Joined x y) :
    C.Joined (x.map e f) (y.map e f) := by
  cases h with
  | out h => exact .out h
  | back h => exact .back h

lemma Contested.of_reindex (h : (C.reindex e f).Contested x) : C.Contested (x.map e f) := by
  cases h with
  | right hne h h' => exact .right (f.injective.ne hne) h h'
  | tieLeft ht h h' hm => exact .tieLeft ht h h' hm
  | tieRight ht h h' hm => exact .tieRight ht h h' hm
  | severalLeft hne h h' => exact .severalLeft (f.injective.ne hne) h h'
  | severalRight hne h h' => exact .severalRight (f.injective.ne hne) h h'
  | claimedLeft hne h h' => exact .claimedLeft (e.injective.ne hne) h h'
  | claimedRight hne h h' => exact .claimedRight (e.injective.ne hne) h h'
  | left hne h h' hc hm => exact .left (e.injective.ne hne) h h' hc hm

lemma Ambiguous.of_reindex (h : (C.reindex e f).Ambiguous x) : C.Ambiguous (x.map e f) := by
  obtain ⟨c, hc, hpath⟩ := h
  exact ⟨_, hc.of_reindex, hpath.lift _ fun _ _ => Joined.of_reindex⟩

lemma reindex_symm : (C.reindex e f).reindex e.symm f.symm = C := by
  simp [reindex, Sum.map_map]

theorem ambiguous_reindex : (C.reindex e f).Ambiguous x ↔ C.Ambiguous (x.map e f) := by
  constructor
  · exact Ambiguous.of_reindex
  · intro h
    have hback : ((C.reindex e f).reindex e.symm f.symm).Ambiguous (x.map e f) := by
      rwa [reindex_symm]
    simpa [Sum.map_map] using hback.of_reindex

theorem paired_reindex : (C.reindex e f).Paired a b ↔ C.Paired (e a) (f b) := by
  have hambiguous := ambiguous_reindex (C := C) (e := e) (f := f) (x := .inl a)
  simp only [Paired, matched_reindex, f.forall_congr_left, hambiguous, Sum.map_inl,
    Equiv.apply_symm_apply, Equiv.symm_apply_eq]

end Reindex

end Claims

end Graph

import Mathlib.Data.Finset.Card
import Mathlib.Logic.Relation
import Mathlib.Tactic.Common

/-!
# Marking from seeds

A worklist marks every node that the edges lead to from a seed. The order in which the list
is worked off does not matter: the marked nodes are the reachable ones.
-/

namespace Graph

universe u

variable {α : Type u} [DecidableEq α]

/-- Where the edges of a node lead. -/
def targets (edges : List (α × α)) (a : α) : List α :=
  ((edges.filter fun e => e.1 = a).map Prod.snd).dedup

/-- One node is taken off the list at a time, and what it leads to is marked and listed. -/
def spread (edges : List (α × α)) : ℕ → List α → List α → List α
  | 0, marked, _ => marked
  | _ + 1, marked, [] => marked
  | fuel + 1, marked, a :: pending =>
    let fresh := (targets edges a).filter (· ∉ marked)
    spread edges fuel (fresh ++ marked) (fresh ++ pending)

/-- Each node is listed once, as a seed or as the target of an edge. -/
def mark (edges : List (α × α)) (seeds : List α) : List α :=
  spread edges (seeds.length + edges.length) seeds seeds

/-- The nodes that a seed reaches. -/
def Reached (edges : List (α × α)) (seeds : List α) (x : α) : Prop :=
  ∃ s ∈ seeds, Relation.ReflTransGen (fun a b => (a, b) ∈ edges) s x

variable {edges : List (α × α)} {seeds marked pending : List α}

lemma mem_targets {a b : α} : b ∈ targets edges a ↔ (a, b) ∈ edges := by
  simp [targets]

/-- The targets that are not marked yet bound what can still be listed. -/
def unmarked (edges : List (α × α)) (marked : List α) : Finset α :=
  (edges.map Prod.snd).toFinset \ marked.toFinset

lemma card_unmarked_spread (a : α) :
    let fresh := (targets edges a).filter (· ∉ marked)
    (unmarked edges (fresh ++ marked)).card + fresh.length = (unmarked edges marked).card := by
  intro fresh
  have hnodup : fresh.Nodup := (List.nodup_dedup _).filter _
  have hsub : fresh.toFinset ⊆ unmarked edges marked := by
    intro b hb
    have hb' : (a, b) ∈ edges ∧ b ∉ marked := by
      simpa [fresh, mem_targets] using hb
    simpa [unmarked] using ⟨⟨a, hb'.1⟩, hb'.2⟩
  have hdiff : unmarked edges (fresh ++ marked) = unmarked edges marked \ fresh.toFinset := by
    ext b
    simp only [unmarked, List.toFinset_append, Finset.mem_sdiff, Finset.mem_union, not_or]
    tauto
  rw [hdiff, ← List.toFinset_card_of_nodup hnodup]
  exact Finset.card_sdiff_add_card_eq_card hsub

lemma spread_sound {fuel : ℕ} (hmarked : ∀ x ∈ marked, Reached edges seeds x)
    (hpending : ∀ x ∈ pending, Reached edges seeds x) :
    ∀ x ∈ spread edges fuel marked pending, Reached edges seeds x := by
  induction fuel generalizing marked pending with
  | zero => exact hmarked
  | succ fuel ih =>
    cases pending with
    | nil => exact hmarked
    | cons a pending =>
      have hfresh : ∀ x ∈ (targets edges a).filter (· ∉ marked), Reached edges seeds x := by
        intro x hx
        obtain ⟨s, hs, hpath⟩ := hpending a List.mem_cons_self
        exact ⟨s, hs, hpath.tail (mem_targets.mp (List.mem_of_mem_filter hx))⟩
      apply ih
      · intro x hx
        exact (List.mem_append.mp hx).elim (hfresh x) (hmarked x)
      · intro x hx
        exact (List.mem_append.mp hx).elim (hfresh x)
          (fun h => hpending x (List.mem_cons_of_mem _ h))

lemma subset_spread {fuel : ℕ} : marked ⊆ spread edges fuel marked pending := by
  induction fuel generalizing marked pending with
  | zero => exact List.Subset.refl _
  | succ fuel ih =>
    cases pending with
    | nil => exact List.Subset.refl _
    | cons a pending =>
      exact fun x hx => ih (List.mem_append_right _ hx)

/-- The list is worked off: a marked node that waits no more leads to marked nodes only. -/
lemma spread_closed {fuel : ℕ} (hfuel : (unmarked edges marked).card + pending.length ≤ fuel)
    (hclosed : ∀ x ∈ marked, x ∈ pending ∨ ∀ y, (x, y) ∈ edges → y ∈ marked) :
    ∀ x ∈ spread edges fuel marked pending, ∀ y, (x, y) ∈ edges →
      y ∈ spread edges fuel marked pending := by
  induction fuel generalizing marked pending with
  | zero =>
    have hnil : pending = [] := List.length_eq_zero_iff.mp (by omega)
    intro x hx
    exact (hclosed x hx).resolve_left (by simp [hnil])
  | succ fuel ih =>
    cases pending with
    | nil =>
      intro x hx
      exact (hclosed x hx).resolve_left (by simp)
    | cons a pending =>
      have hcard : (unmarked edges ((targets edges a).filter (· ∉ marked) ++ marked)).card +
          ((targets edges a).filter (· ∉ marked)).length = (unmarked edges marked).card :=
        card_unmarked_spread a
      apply ih
      · simp only [List.length_append, List.length_cons] at hcard hfuel ⊢
        omega
      · intro x hx
        by_cases hxa : x = a
        · right
          intro y hy
          by_cases hym : y ∈ marked
          · exact List.mem_append_right _ hym
          · apply List.mem_append_left
            rw [List.mem_filter, mem_targets]
            exact ⟨hxa ▸ hy, by simpa using hym⟩
        · rcases List.mem_append.mp hx with hfresh | hmarked
          · exact .inl (List.mem_append_left _ hfresh)
          · apply (hclosed x hmarked).imp
            · intro h
              exact List.mem_append_right _ ((List.mem_cons.mp h).resolve_left hxa)
            · intro h y hy
              exact List.mem_append_right _ (h y hy)

/-- The worklist marks what the seeds reach. -/
theorem mem_mark {x : α} : x ∈ mark edges seeds ↔ Reached edges seeds x := by
  have hself : ∀ s ∈ seeds, Reached edges seeds s := fun s hs => ⟨s, hs, .refl⟩
  constructor
  · exact spread_sound hself hself x
  · rintro ⟨s, hs, hpath⟩
    have hfuel : (unmarked edges seeds).card + seeds.length ≤ seeds.length + edges.length := by
      have hle : (unmarked edges seeds).card ≤ (edges.map Prod.snd).length :=
        (Finset.card_le_card Finset.sdiff_subset).trans (List.toFinset_card_le _)
      rw [List.length_map] at hle
      omega
    have hclosed := spread_closed hfuel (fun x hx => .inl hx)
    induction hpath with
    | refl => exact subset_spread hs
    | tail _ hedge ih => exact hclosed _ ih _ hedge

/-- Where every edge either belongs to `joined` or starts and ends at seeds, only the edges of
`joined` lead on. -/
theorem mem_mark_of_joined {joined : α → α → Prop} {x : α}
    (hjoined : ∀ a b, joined a b → (a, b) ∈ edges)
    (hedges : ∀ a b, (a, b) ∈ edges → joined a b ∨ b ∈ seeds) :
    x ∈ mark edges seeds ↔ ∃ s ∈ seeds, Relation.ReflTransGen joined s x := by
  rw [mem_mark]
  constructor
  · rintro ⟨s, hs, hpath⟩
    induction hpath with
    | refl => exact ⟨s, hs, .refl⟩
    | tail _ hedge ih =>
      obtain ⟨s', hs', hpath'⟩ := ih
      rcases hedges _ _ hedge with h | h
      · exact ⟨s', hs', hpath'.tail h⟩
      · exact ⟨_, h, .refl⟩
  · rintro ⟨s, hs, hpath⟩
    exact ⟨s, hs, Relation.ReflTransGen.mono hjoined s x hpath⟩

end Graph

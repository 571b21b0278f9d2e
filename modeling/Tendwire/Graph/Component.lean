import Mathlib.Data.Finset.Card
import Mathlib.Logic.Relation
import Mathlib.Tactic.Common

/-!
# Components of a bipartite graph

A search from one left node collects both sides of its connected component. The sides are
found in alternating rounds: the waiting left nodes are visited, then the right nodes they
reach, which name the left nodes of the next round.
-/

namespace Graph

universe u v

variable {α : Type u} {β : Type v}

/-- A finite bipartite graph: its two sides and which pairs are joined. -/
structure Bipartite (α : Type u) (β : Type v) where
  left : List α
  right : List β
  edge : α → β → Bool

namespace Bipartite

def ofLeft (g : Bipartite α β) (a : α) : List β := g.right.filter (g.edge a)

def ofRight (g : Bipartite α β) (b : β) : List α := g.left.filter (fun a => g.edge a b)

lemma mem_ofLeft {g : Bipartite α β} {a : α} {b : β} :
    b ∈ g.ofLeft a ↔ b ∈ g.right ∧ g.edge a b = true := by
  simp [ofLeft]

lemma mem_ofRight {g : Bipartite α β} {a : α} {b : β} :
    a ∈ g.ofRight b ↔ a ∈ g.left ∧ g.edge a b = true := by
  simp [ofRight]

/-- Two nodes that an edge joins, in either direction. -/
inductive Adjacent (g : Bipartite α β) : α ⊕ β → α ⊕ β → Prop
  | out {a : α} {b : β} : a ∈ g.left → b ∈ g.ofLeft a → Adjacent g (.inl a) (.inr b)
  | back {a : α} {b : β} : b ∈ g.right → a ∈ g.ofRight b → Adjacent g (.inr b) (.inl a)

/-- The connected component of a node. -/
def Connected (g : Bipartite α β) : α ⊕ β → α ⊕ β → Prop := Relation.ReflTransGen g.Adjacent

lemma Adjacent.symm {g : Bipartite α β} {c d : α ⊕ β} (h : g.Adjacent c d) : g.Adjacent d c := by
  cases h with
  | out ha hb => exact .back (mem_ofLeft.mp hb).1 (mem_ofRight.mpr ⟨ha, (mem_ofLeft.mp hb).2⟩)
  | back hb ha => exact .out (mem_ofRight.mp ha).1 (mem_ofLeft.mpr ⟨hb, (mem_ofRight.mp ha).2⟩)

instance (g : Bipartite α β) : Std.Symm g.Adjacent := ⟨fun _ _ => Adjacent.symm⟩

lemma Connected.symm {g : Bipartite α β} {c d : α ⊕ β} (h : g.Connected c d) : g.Connected d c :=
  Std.Symm.symm (r := Relation.ReflTransGen g.Adjacent) c d h

/-! ### Visiting one side -/

section Visit

variable {γ : Type u} {δ : Type v} [DecidableEq γ]

/-- The pending nodes are visited once each; what they lead to is handed to the other side. -/
def visit (next : γ → List δ) : List γ → List γ → List δ → List γ × List δ
  | [], seen, out => (seen, out)
  | a :: pending, seen, out =>
    if a ∈ seen then visit next pending seen out
    else visit next pending (a :: seen) (out ++ next a)

variable {next : γ → List δ} {pending seen : List γ} {out : List δ}

@[simp] lemma mem_visit_fst {x : γ} :
    x ∈ (visit next pending seen out).1 ↔ x ∈ seen ∨ x ∈ pending := by
  induction pending generalizing seen out with
  | nil => simp [visit]
  | cons a pending ih =>
    unfold visit
    split
    · rename_i ha
      rw [ih, List.mem_cons]
      constructor
      · rintro (h | h)
        · exact Or.inl h
        · exact Or.inr (Or.inr h)
      · rintro (h | rfl | h)
        · exact Or.inl h
        · exact Or.inl ha
        · exact Or.inr h
    · rw [ih, List.mem_cons, List.mem_cons]
      tauto

lemma mem_visit_snd {y : δ} :
    y ∈ (visit next pending seen out).2 ↔
      y ∈ out ∨ ∃ x, x ∈ pending ∧ x ∉ seen ∧ y ∈ next x := by
  induction pending generalizing seen out with
  | nil => simp [visit]
  | cons a pending ih =>
    unfold visit
    split
    · rename_i ha
      rw [ih]
      constructor
      · rintro (h | ⟨x, hx, hns, hy⟩)
        · exact Or.inl h
        · exact Or.inr ⟨x, List.mem_cons_of_mem a hx, hns, hy⟩
      · rintro (h | ⟨x, hx, hns, hy⟩)
        · exact Or.inl h
        · rcases List.mem_cons.mp hx with rfl | hx
          · exact absurd ha hns
          · exact Or.inr ⟨x, hx, hns, hy⟩
    · rename_i ha
      rw [ih, List.mem_append]
      constructor
      · rintro ((h | h) | ⟨x, hx, hns, hy⟩)
        · exact Or.inl h
        · exact Or.inr ⟨a, by simp, ha, h⟩
        · exact Or.inr ⟨x, List.mem_cons_of_mem a hx, fun hm => hns (List.mem_cons_of_mem a hm), hy⟩
      · rintro (h | ⟨x, hx, hns, hy⟩)
        · exact Or.inl (Or.inl h)
        · by_cases hxa : x = a
          · exact Or.inl (Or.inr (hxa ▸ hy))
          · refine Or.inr ⟨x, (List.mem_cons.mp hx).resolve_left hxa, ?_, hy⟩
            simp [hxa, hns]

lemma nodup_visit_fst (h : seen.Nodup) : (visit next pending seen out).1.Nodup := by
  induction pending generalizing seen out with
  | nil => exact h
  | cons a pending ih =>
    unfold visit
    split
    · exact ih h
    · rename_i ha
      exact ih (List.nodup_cons.mpr ⟨ha, h⟩)

end Visit

/-! ### The search -/

section Search

variable [DecidableEq α] [DecidableEq β]

/-- Rounds of the search, until no left node is pending. -/
def explore (g : Bipartite α β) : Nat → List α → List α → List β → List α × List β
  | 0, _, lefts, rights => (lefts, rights)
  | _ + 1, [], lefts, rights => (lefts, rights)
  | n + 1, a :: pending, lefts, rights =>
    let out := visit g.ofLeft (a :: pending) lefts []
    let back := visit g.ofRight out.2 rights []
    explore g n back.2 out.1 back.1

/-- Both sides of the component of a left node. A round that does not end the search finds a
new right node, so the right side bounds the rounds. -/
def component (g : Bipartite α β) (a : α) : List α × List β :=
  g.explore (g.right.length + 2) [a] [] []

variable {g : Bipartite α β} {a : α}

/-- Every node the search holds lies in the component it started from. -/
structure Within (g : Bipartite α β) (c : α ⊕ β) (pending lefts : List α) (rights : List β) :
    Prop where
  pending : ∀ x ∈ pending, x ∈ g.left ∧ g.Connected c (.inl x)
  lefts : ∀ x ∈ lefts, x ∈ g.left ∧ g.Connected c (.inl x)
  rights : ∀ y ∈ rights, y ∈ g.right ∧ g.Connected c (.inr y)

/-- What is left to do: the edges of a visited node lead to visited or pending nodes. -/
structure Frontier (g : Bipartite α β) (pending lefts : List α) (rights : List β) : Prop where
  out : ∀ x ∈ lefts, ∀ y ∈ g.ofLeft x, y ∈ rights
  back : ∀ y ∈ rights, ∀ x ∈ g.ofRight y, x ∈ lefts ∨ x ∈ pending

section Round

variable {pending lefts : List α} {rights : List β} {c : α ⊕ β}

lemma Within.round (h : g.Within c pending lefts rights) :
    g.Within c (visit g.ofRight (visit g.ofLeft pending lefts []).2 rights []).2
      (visit g.ofLeft pending lefts []).1
      (visit g.ofRight (visit g.ofLeft pending lefts []).2 rights []).1 := by
  have hlefts : ∀ x ∈ (visit g.ofLeft pending lefts []).1, x ∈ g.left ∧ g.Connected c (.inl x) := by
    intro x hx
    rcases mem_visit_fst.mp hx with hx | hx
    · exact h.lefts x hx
    · exact h.pending x hx
  have hfound : ∀ y ∈ (visit g.ofLeft pending lefts []).2,
      y ∈ g.right ∧ g.Connected c (.inr y) := by
    intro y hy
    rcases mem_visit_snd.mp hy with hy | ⟨x, hx, -, hy⟩
    · simp at hy
    · obtain ⟨hxl, hconn⟩ := h.pending x hx
      exact ⟨(mem_ofLeft.mp hy).1, hconn.tail (.out hxl hy)⟩
  have hrights : ∀ y ∈ (visit g.ofRight (visit g.ofLeft pending lefts []).2 rights []).1,
      y ∈ g.right ∧ g.Connected c (.inr y) := by
    intro y hy
    rcases mem_visit_fst.mp hy with hy | hy
    · exact h.rights y hy
    · exact hfound y hy
  refine ⟨?_, hlefts, hrights⟩
  intro x hx
  rcases mem_visit_snd.mp hx with hx | ⟨y, hy, -, hx⟩
  · simp at hx
  · obtain ⟨hyr, hconn⟩ := hfound y hy
    exact ⟨(mem_ofRight.mp hx).1, hconn.tail (.back hyr hx)⟩

lemma Frontier.round (h : g.Frontier pending lefts rights) :
    g.Frontier (visit g.ofRight (visit g.ofLeft pending lefts []).2 rights []).2
      (visit g.ofLeft pending lefts []).1
      (visit g.ofRight (visit g.ofLeft pending lefts []).2 rights []).1 := by
  constructor
  · intro x hx y hy
    rw [mem_visit_fst, mem_visit_snd]
    by_cases hseen : x ∈ lefts
    · exact Or.inl (h.out x hseen y hy)
    · have hpending := (mem_visit_fst.mp hx).resolve_left hseen
      exact Or.inr (Or.inr ⟨x, hpending, hseen, hy⟩)
  · intro y hy x hx
    rw [mem_visit_fst]
    by_cases hold : y ∈ rights
    · exact Or.inl (h.back y hold x hx)
    · have hnew := (mem_visit_fst.mp hy).resolve_left hold
      exact Or.inr (mem_visit_snd.mpr (Or.inr ⟨y, hnew, hold, hx⟩))

/-- The right nodes a search has not reached. -/
def unreached (g : Bipartite α β) (rights : List β) : Nat :=
  (g.right.toFinset \ rights.toFinset).card

/-- A round that leaves something pending has reached a right node it did not know. -/
lemma unreached_round (hw : g.Within c pending lefts rights) {x : α}
    (hx : x ∈ (visit g.ofRight (visit g.ofLeft pending lefts []).2 rights []).2) :
    g.unreached (visit g.ofRight (visit g.ofLeft pending lefts []).2 rights []).1 <
      g.unreached rights := by
  rcases mem_visit_snd.mp hx with hx | ⟨y, hy, hnew, -⟩
  · simp at hx
  · have hyr := (hw.round.rights y (mem_visit_fst.mpr (Or.inr hy))).1
    refine Finset.card_lt_card (Finset.ssubset_iff_of_subset ?_ |>.mpr ⟨y, ?_, ?_⟩)
    · intro z hz
      simp only [Finset.mem_sdiff, List.mem_toFinset, mem_visit_fst, not_or] at hz ⊢
      exact ⟨hz.1, hz.2.1⟩
    · simp [hyr, hnew]
    · simp [hy]

end Round

lemma explore_within {n : Nat} {pending lefts : List α} {rights : List β} {c : α ⊕ β}
    (h : g.Within c pending lefts rights) :
    g.Within c [] (g.explore n pending lefts rights).1 (g.explore n pending lefts rights).2 := by
  induction n generalizing pending lefts rights with
  | zero => exact ⟨by simp, h.lefts, h.rights⟩
  | succ n ih =>
    cases pending with
    | nil => exact ⟨by simp, h.lefts, h.rights⟩
    | cons x pending => exact ih h.round

lemma explore_frontier {n : Nat} {pending lefts : List α} {rights : List β} {c : α ⊕ β}
    (hw : g.Within c pending lefts rights) (hf : g.Frontier pending lefts rights)
    (hn : pending = [] ∨ g.unreached rights < n) :
    g.Frontier [] (g.explore n pending lefts rights).1 (g.explore n pending lefts rights).2 ∧
      ∀ x, x ∈ lefts ∨ x ∈ pending → x ∈ (g.explore n pending lefts rights).1 := by
  induction n generalizing pending lefts rights with
  | zero =>
    rcases hn with rfl | hn
    · exact ⟨hf, fun x hx => hx.resolve_right (by simp)⟩
    · omega
  | succ n ih =>
    cases pending with
    | nil => exact ⟨hf, fun x hx => hx.resolve_right (by simp)⟩
    | cons z pending =>
      have hlt := hn.resolve_left (by simp)
      have hnext := ih hw.round hf.round (by
        by_cases hp : (visit g.ofRight (visit g.ofLeft (z :: pending) lefts []).2 rights []).2 = []
        · exact Or.inl hp
        · obtain ⟨x, hx⟩ := List.exists_mem_of_ne_nil _ hp
          have := unreached_round hw hx
          exact Or.inr (by omega))
      refine ⟨hnext.1, fun x hx => hnext.2 x (Or.inl ?_)⟩
      exact mem_visit_fst.mpr hx

lemma nodup_explore {n : Nat} {pending lefts : List α} {rights : List β} (hl : lefts.Nodup)
    (hr : rights.Nodup) :
    (g.explore n pending lefts rights).1.Nodup ∧ (g.explore n pending lefts rights).2.Nodup := by
  induction n generalizing pending lefts rights with
  | zero => exact ⟨hl, hr⟩
  | succ n ih =>
    cases pending with
    | nil => exact ⟨hl, hr⟩
    | cons x pending => exact ih (nodup_visit_fst hl) (nodup_visit_fst hr)

theorem nodup_component : (g.component a).1.Nodup ∧ (g.component a).2.Nodup :=
  nodup_explore List.nodup_nil List.nodup_nil

lemma component_within (ha : a ∈ g.left) :
    g.Within (.inl a) [] (g.component a).1 (g.component a).2 := by
  refine explore_within ⟨?_, by simp, by simp⟩
  intro x hx
  rw [List.mem_singleton.mp hx]
  exact ⟨ha, .refl⟩

lemma component_frontier (ha : a ∈ g.left) :
    g.Frontier [] (g.component a).1 (g.component a).2 ∧ a ∈ (g.component a).1 := by
  have hw : g.Within (.inl a) [a] [] [] := by
    refine ⟨?_, by simp, by simp⟩
    intro x hx
    rw [List.mem_singleton.mp hx]
    exact ⟨ha, .refl⟩
  have hcard : g.unreached [] ≤ g.right.length := by
    unfold unreached
    exact (Finset.card_le_card Finset.sdiff_subset).trans g.right.toFinset_card_le
  obtain ⟨hf, hmem⟩ := explore_frontier (n := g.right.length + 2) hw ⟨by simp, by simp⟩
    (Or.inr (by omega))
  exact ⟨hf, hmem a (by simp)⟩

/-- The search finds exactly the connected component. -/
theorem mem_component (ha : a ∈ g.left) (c : α ⊕ β) :
    c.elim (· ∈ (g.component a).1) (· ∈ (g.component a).2) ↔ g.Connected (.inl a) c := by
  obtain ⟨hf, hself⟩ := component_frontier ha
  constructor
  · intro h
    cases c with
    | inl x => exact ((component_within ha).lefts x h).2
    | inr y => exact ((component_within ha).rights y h).2
  · intro h
    induction h with
    | refl => exact hself
    | tail _ hadj ih =>
      cases hadj with
      | out _ hb => exact hf.out _ ih _ hb
      | back _ hb => exact (hf.back _ ih _ hb).resolve_right (by simp)

/-- The members of a component have the same component. -/
theorem mem_component_of_mem {b : α} (ha : a ∈ g.left) (hb : b ∈ (g.component a).1) (c : α ⊕ β) :
    c.elim (· ∈ (g.component b).1) (· ∈ (g.component b).2) ↔
      c.elim (· ∈ (g.component a).1) (· ∈ (g.component a).2) := by
  obtain ⟨hbl, hab⟩ := (component_within ha).lefts b hb
  rw [mem_component ha, mem_component hbl]
  exact ⟨hab.trans, hab.symm.trans⟩

/-- A node without edges is a component of its own. -/
lemma component_of_isolated (h : g.ofLeft a = []) : g.component a = ([a], []) := by
  simp [component, explore, visit, h]

/-- A component of one node on each side holds nothing else. -/
theorem connected_of_component_eq {b : β} (ha : a ∈ g.left)
    (h : g.component a = ([a], [b])) (c : α ⊕ β) :
    g.Connected (.inl a) c ↔ c = .inl a ∨ c = .inr b := by
  rw [← mem_component ha, h]
  cases c <;> simp

lemma edge_of_component_eq {b : β} (ha : a ∈ g.left) (h : g.component a = ([a], [b])) :
    b ∈ g.right ∧ g.edge a b = true := by
  have hconn : g.Connected (.inl a) (.inr b) :=
    (connected_of_component_eq ha h _).mpr (Or.inr rfl)
  cases hconn with
  | tail hpath hadj =>
    cases hadj with
    | out _ hb =>
      rcases (connected_of_component_eq ha h _).mp hpath with hx | hx
      · cases hx
        exact mem_ofLeft.mp hb
      · cases hx

end Search

end Bipartite

end Graph

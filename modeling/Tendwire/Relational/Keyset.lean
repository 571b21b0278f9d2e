import Mathlib.Data.List.Sort

/-!
# Keyset pagination

An ordered set is read page by page, and each page goes on after the position where the one
before it ended. The set may change between two pages.
-/

namespace Relational.Keyset

variable {π : Type*} [LinearOrder π]

def Above : Option π → π → Prop
  | none, _ => True
  | some q, p => q < p

def UpTo : Option π → π → Prop
  | none, _ => True
  | some q, p => p ≤ q

/-- One page of a set: what it scans after a position, and where the next page begins. -/
structure Page (S : Set π) (after : Option π) (scanned : List π) (next : Option π) : Prop where
  sorted : scanned.Pairwise (· < ·)
  sound : ∀ p ∈ scanned, p ∈ S ∧ Above after p
  reaches : ∀ p ∈ S, Above after p → UpTo next p → p ∈ scanned
  bound : ∀ q, next = some q → Above after q ∧ ∀ p ∈ scanned, p ≤ q

/-- A page is the first part of what is left of the set, in order. -/
theorem Page.of_append {S : Set π} {after next : Option π} {scanned rest : List π}
    (hsorted : (scanned ++ rest).Pairwise (· < ·))
    (hmem : ∀ p, p ∈ scanned ++ rest ↔ p ∈ S ∧ Above after p)
    (hnext : next = none ∧ rest = [] ∨ ∃ q, scanned.getLast? = some q ∧ next = some q) :
    Page S after scanned next := by
  obtain ⟨hscanned, -, hlt⟩ := List.pairwise_append.mp hsorted
  refine ⟨hscanned, fun p hp => (hmem p).mp (List.mem_append_left rest hp), ?_, ?_⟩
  · intro p hp habove hupto
    obtain hp | hp := List.mem_append.mp ((hmem p).mpr ⟨hp, habove⟩)
    · exact hp
    · obtain ⟨-, rfl⟩ | ⟨q, hq, rfl⟩ := hnext
      · cases hp
      · exact absurd (hlt q (List.mem_of_getLast? hq) p hp) (not_lt.mpr hupto)
  · rintro q rfl
    obtain ⟨hnone, -⟩ | ⟨q', hq, heq⟩ := hnext
    · cases hnone
    · obtain rfl := Option.some.inj heq
      have hqmem := List.mem_of_getLast? hq
      refine ⟨((hmem q).mp (List.mem_append_left rest hqmem)).2, fun p hp => ?_⟩
      obtain ⟨front, rfl⟩ := List.getLast?_eq_some_iff.mp hq
      obtain hp | hp := List.mem_append.mp hp
      · exact le_of_lt ((List.pairwise_append.mp hscanned).2.2 p hp q (by simp))
      · exact le_of_eq (List.mem_singleton.mp hp)

/-- A page may be cut short at any position that it scanned. -/
theorem Page.cut {S : Set π} {after next : Option π} {scanned : List π}
    (h : Page S after scanned next) {q : π} (hq : q ∈ scanned) :
    Page S after (scanned.filter (· ≤ q)) (some q) := by
  refine ⟨h.sorted.filter _, fun p hp => h.sound p (List.mem_of_mem_filter hp), ?_, ?_⟩
  · intro p hp habove hle
    refine List.mem_filter.mpr ⟨h.reaches p hp habove ?_, decide_eq_true hle⟩
    cases next with
    | none => trivial
    | some q' => exact le_trans hle ((h.bound q' rfl).2 q hq)
  · rintro q' hq'
    obtain rfl := Option.some.inj hq'
    exact ⟨(h.sound q hq).2, fun p hp => of_decide_eq_true (List.mem_filter.mp hp).2⟩

/-- The first elements of a sorted list are those up to the last of them. -/
theorem take_eq_filter {l : List π} (hl : l.Pairwise (· < ·)) {m : Nat} {q : π}
    (hq : (l.take m).getLast? = some q) : l.take m = l.filter (· ≤ q) := by
  have hsplit : (l.take m ++ l.drop m).Pairwise (· < ·) := by rwa [List.take_append_drop]
  obtain ⟨htake, -, hlt⟩ := List.pairwise_append.mp hsplit
  obtain ⟨front, hfront⟩ := List.getLast?_eq_some_iff.mp hq
  have hkeep : (l.take m).filter (· ≤ q) = l.take m := by
    rw [List.filter_eq_self]
    intro p hp
    rw [hfront] at hp htake
    obtain hp | hp := List.mem_append.mp hp
    · exact decide_eq_true (le_of_lt ((List.pairwise_append.mp htake).2.2 p hp q (by simp)))
    · exact decide_eq_true (le_of_eq (List.mem_singleton.mp hp))
  have hdrop : (l.drop m).filter (· ≤ q) = [] := by
    rw [List.filter_eq_nil_iff]
    intro p hp
    simpa using hlt q (List.mem_of_getLast? hq) p hp
  calc l.take m = (l.take m).filter (· ≤ q) ++ (l.drop m).filter (· ≤ q) := by
        rw [hkeep, hdrop, List.append_nil]
    _ = l.filter (· ≤ q) := by rw [← List.filter_append, List.take_append_drop]

/-- Pages that follow each other until one says that it is the last. -/
inductive Walk : Option π → List (Set π × List π) → Prop where
  | last {S : Set π} {after : Option π} {scanned : List π} :
      Page S after scanned none → Walk after [(S, scanned)]
  | next {S : Set π} {after : Option π} {scanned : List π} {q : π}
      {rest : List (Set π × List π)} :
      Page S after scanned (some q) → Walk (some q) rest → Walk after ((S, scanned) :: rest)

def scannedOf (pages : List (Set π × List π)) : List π := pages.flatMap Prod.snd

/-- No position is scanned twice, however the set changes between the pages. -/
theorem Walk.sorted {after : Option π} {pages : List (Set π × List π)} (h : Walk after pages) :
    (scannedOf pages).Pairwise (· < ·) ∧ ∀ p ∈ scannedOf pages, Above after p := by
  induction h with
  | last hpage =>
    simp only [scannedOf, List.flatMap_cons, List.flatMap_nil, List.append_nil]
    exact ⟨hpage.sorted, fun p hp => (hpage.sound p hp).2⟩
  | @next S after scanned q rest hpage _ ih =>
    obtain ⟨habove, hle⟩ := hpage.bound q rfl
    rw [scannedOf, List.flatMap_cons]
    refine ⟨List.pairwise_append.mpr ⟨hpage.sorted, ih.1, fun p hp p' hp' => ?_⟩, fun p hp => ?_⟩
    · exact lt_of_le_of_lt (hle p hp) (ih.2 p' hp')
    · obtain hp | hp := List.mem_append.mp hp
      · exact (hpage.sound p hp).2
      · cases after with
        | none => trivial
        | some a => exact lt_trans habove (ih.2 p hp)

/-- A position that is in the set at every page is scanned. -/
theorem Walk.complete {after : Option π} {pages : List (Set π × List π)} (h : Walk after pages)
    {p : π} (habove : Above after p) (hp : ∀ page ∈ pages, p ∈ page.1) : p ∈ scannedOf pages := by
  induction h with
  | last hpage =>
    simp only [scannedOf, List.flatMap_cons, List.flatMap_nil, List.append_nil]
    exact hpage.reaches p (hp _ List.mem_cons_self) habove trivial
  | @next S after scanned q rest hpage _ ih =>
    rw [scannedOf, List.flatMap_cons, List.mem_append]
    rcases lt_or_ge q p with hlt | hge
    · exact .inr (ih hlt fun page hmem => hp page (List.mem_cons_of_mem _ hmem))
    · exact .inl (hpage.reaches p (hp _ List.mem_cons_self) habove hge)

theorem Walk.sound {after : Option π} {pages : List (Set π × List π)} (h : Walk after pages)
    {p : π} (hp : p ∈ scannedOf pages) : ∃ page ∈ pages, p ∈ page.1 := by
  induction h with
  | last hpage =>
    simp only [scannedOf, List.flatMap_cons, List.flatMap_nil, List.append_nil] at hp
    exact ⟨_, List.mem_cons_self, (hpage.sound p hp).1⟩
  | next hpage _ ih =>
    rw [scannedOf, List.flatMap_cons, List.mem_append] at hp
    obtain hp | hp := hp
    · exact ⟨_, List.mem_cons_self, (hpage.sound p hp).1⟩
    · obtain ⟨page, hmem, hpage⟩ := ih hp
      exact ⟨page, List.mem_cons_of_mem _ hmem, hpage⟩

end Relational.Keyset

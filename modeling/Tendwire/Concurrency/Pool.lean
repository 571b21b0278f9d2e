import Mathlib.Data.List.Nodup
import Tendwire.Concurrency.Program
import Tendwire.Transition.Schedule

/-!
# Interleaved programs

Programs of several kinds share a state. A schedule starts them, lets one of them perform its
next operation, or crashes one. A kind is admitted next to the kinds that are running.
-/

namespace Concurrency

variable {σ ι χ κ α : Type} {ρ : ι → Type}

structure Thread (σ ι : Type) (ρ : ι → Type) (κ α : Type) where
  kind : κ
  /-- The shared state that the program was started in. -/
  origin : σ
  program : Program ι ρ α

structure Pool (σ ι : Type) (ρ : ι → Type) (κ α : Type) where
  shared : σ
  threads : List (ℕ × Thread σ ι ρ κ α)
  next : ℕ

inductive Event (κ χ : Type) where
  | start (kind : κ)
  | step (id : ℕ) (chance : χ)
  | crash (id : ℕ)

/-- What an event did. A program that goes on has no outcome yet; one that failed has the outcome
`some none`. -/
inductive Report (ι κ α : Type) where
  | idle
  | started (id : ℕ) (kind : κ)
  | ended (id : ℕ) (kind : κ) (outcome : Option α)
  | performed (id : ℕ) (kind : κ) (operation : ι) (outcome : Option (Option α))
  | crashed (id : ℕ) (kind : κ)

/-- The program that an event brought to its end, and how. -/
def Report.outcome? : Report ι κ α → Option (ℕ × κ × Option α)
  | ended id kind outcome => some (id, kind, outcome)
  | performed id kind _ (some outcome) => some (id, kind, outcome)
  | _ => none

/-- How programs are made and when they may start. -/
structure Workshop (σ ι χ : Type) (ρ : ι → Type) (κ α : Type) where
  exec : χ → (i : ι) → σ → ρ i × σ
  program : κ → Program ι ρ α
  admits : List κ → κ → Bool

namespace Pool

variable (W : Workshop σ ι χ ρ κ α)

def thread? (w : Pool σ ι ρ κ α) (id : ℕ) : Option (Thread σ ι ρ κ α) := w.threads.lookup id

def kinds (w : Pool σ ι ρ κ α) : List κ := w.threads.map fun e => e.2.kind

def remove (w : Pool σ ι ρ κ α) (id : ℕ) : Pool σ ι ρ κ α :=
  { w with threads := w.threads.filter fun e => e.1 != id }

/-- The thread goes on with the rest of its program, or leaves the pool at the end of it. -/
def proceed (w : Pool σ ι ρ κ α) (id : ℕ) (rest : Program ι ρ α) : Pool σ ι ρ κ α :=
  if rest.outcome?.isSome then w.remove id
  else { w with threads := w.threads.map fun e =>
    if e.1 = id then (e.1, { e.2 with program := rest }) else e }

def step (w : Pool σ ι ρ κ α) : Event κ χ → Pool σ ι ρ κ α × Report ι κ α
  | .start kind =>
    if W.admits w.kinds kind then
      ({ w with
          threads := (w.next, ⟨kind, w.shared, W.program kind⟩) :: w.threads
          next := w.next + 1 }, .started w.next kind)
    else (w, .idle)
  | .step id chance =>
    match w.thread? id with
    | none => (w, .idle)
    | some t =>
      match t.program with
      | .done a => (w.remove id, .ended id t.kind (some a))
      | .fail => (w.remove id, .ended id t.kind none)
      | .call i next =>
        ({ w with shared := (W.exec chance i w.shared).2 }.proceed id
            (next (W.exec chance i w.shared).1),
          .performed id t.kind i (next (W.exec chance i w.shared).1).outcome?)
  | .crash id =>
    match w.thread? id with
    | none => (w, .idle)
    | some t => (w.remove id, .crashed id t.kind)

def machine : Transition.Machine (Pool σ ι ρ κ α) (Event κ χ) (Report ι κ α) := ⟨step W⟩

variable {W} {w : Pool σ ι ρ κ α} {e : Event κ χ}

/-! ### Which threads there are -/

lemma mem_of_thread? {id : ℕ} {t : Thread σ ι ρ κ α} (h : w.thread? id = some t) :
    (id, t) ∈ w.threads := by
  unfold thread? at h
  generalize w.threads = l at h
  induction l with
  | nil => cases h
  | cons x l ih =>
    obtain ⟨k, u⟩ := x
    rw [List.lookup_cons] at h
    cases hk : id == k with
    | true =>
      rw [hk] at h
      cases h
      rw [eq_of_beq hk]
      exact List.mem_cons_self
    | false =>
      rw [hk] at h
      exact List.mem_cons_of_mem _ (ih h)

/-- Everything an event can do. -/
inductive Stepped (W : Workshop σ ι χ ρ κ α) (w : Pool σ ι ρ κ α) :
    Event κ χ → Pool σ ι ρ κ α → Report ι κ α → Prop where
  | idle (e : Event κ χ) : Stepped W w e w .idle
  | start (k : κ) : W.admits w.kinds k = true → Stepped W w (.start k)
      { w with
        threads := (w.next, ⟨k, w.shared, W.program k⟩) :: w.threads
        next := w.next + 1 } (.started w.next k)
  | ended (id : ℕ) (c : χ) (t : Thread σ ι ρ κ α) (o : Option α) : (id, t) ∈ w.threads →
      t.program.outcome? = some o → Stepped W w (.step id c) (w.remove id) (.ended id t.kind o)
  | performed (id : ℕ) (c : χ) (t : Thread σ ι ρ κ α) (i : ι) (next : ρ i → Program ι ρ α) :
      (id, t) ∈ w.threads → t.program = .call i next → Stepped W w (.step id c)
        ({ w with shared := (W.exec c i w.shared).2 }.proceed id
          (next (W.exec c i w.shared).1))
        (.performed id t.kind i (next (W.exec c i w.shared).1).outcome?)
  | crashed (id : ℕ) (t : Thread σ ι ρ κ α) : (id, t) ∈ w.threads →
      Stepped W w (.crash id) (w.remove id) (.crashed id t.kind)

theorem stepped (e : Event κ χ) : Stepped W w e (w.step W e).1 (w.step W e).2 := by
  cases e with
  | start k =>
    unfold step
    dsimp only
    split
    · next hadmits => exact .start k hadmits
    · exact .idle _
  | step id c =>
    unfold step
    dsimp only
    split
    · exact .idle _
    · next t ht =>
      split
      · next a hp => exact .ended id c t (some a) (mem_of_thread? ht) (by rw [hp]; rfl)
      · next hp => exact .ended id c t none (mem_of_thread? ht) (by rw [hp]; rfl)
      · next i next hp => exact .performed id c t i next (mem_of_thread? ht) hp
  | crash id =>
    unfold step
    dsimp only
    split
    · exact .idle _
    · next t ht => exact .crashed id t (mem_of_thread? ht)

lemma mem_remove {id : ℕ} {x : ℕ × Thread σ ι ρ κ α} (h : x ∈ (w.remove id).threads) :
    x ∈ w.threads ∧ x.1 ≠ id := by
  simpa [remove] using h

lemma mem_proceed {id : ℕ} {rest : Program ι ρ α} {x : ℕ × Thread σ ι ρ κ α}
    (h : x ∈ (w.proceed id rest).threads) :
    (x ∈ w.threads ∧ x.1 ≠ id) ∨
      ∃ t, (id, t) ∈ w.threads ∧ x = (id, { t with program := rest }) := by
  unfold proceed at h
  split at h
  · exact Or.inl (mem_remove h)
  · obtain ⟨y, hy, rfl⟩ := List.mem_map.mp h
    dsimp only
    split
    · next hid =>
      subst hid
      exact Or.inr ⟨y.2, hy, rfl⟩
    · next hid => exact Or.inl ⟨hy, hid⟩

@[simp] lemma shared_remove (id : ℕ) : (w.remove id).shared = w.shared := rfl

@[simp] lemma shared_proceed (id : ℕ) (rest : Program ι ρ α) :
    (w.proceed id rest).shared = w.shared := by
  unfold proceed
  split <;> rfl

/-! ### Safe pools -/

/-- What each kind of program relies on and promises, in view of the state it was started in. -/
structure Discipline (W : Workshop σ ι χ ρ κ α) where
  rely : κ → σ → σ → Prop
  promise : κ → σ → ι → σ → σ → Option Bool → Prop
  post : κ → σ → σ → Option α → Prop
  /-- Which kinds may run next to each other. -/
  beside : κ → κ → Prop
  refl : ∀ k s, rely k s s
  trans : ∀ k s t u, rely k s t → rely k t u → rely k s u
  symm : ∀ k l, beside k l → beside l k
  admitted : ∀ ks k, W.admits ks k = true → ∀ l ∈ ks, beside l k
  kept : ∀ k l o i s s' ending, beside k l → promise k o i s s' ending → rely l s s'

namespace Discipline

def terms (D : Discipline W) (k : κ) (origin : σ) : Terms σ ι χ ρ :=
  ⟨W.exec, D.rely k, D.promise k origin, D.refl k, D.trans k⟩

variable (D : Discipline W)

def Upholds (s : σ) (t : Thread σ ι ρ κ α) : Prop :=
  (D.terms t.kind t.origin).Safe (D.post t.kind t.origin) t.program s

/-- Every program of the pool is safe where it stands, and no two of them interfere. -/
structure Orderly (w : Pool σ ι ρ κ α) : Prop where
  upholds : ∀ x ∈ w.threads, D.Upholds w.shared x.2
  beside : ∀ x ∈ w.threads, ∀ y ∈ w.threads, x.1 ≠ y.1 → D.beside x.2.kind y.2.kind
  distinct : (w.threads.map Prod.fst).Nodup
  below : ∀ x ∈ w.threads, x.1 < w.next

end Discipline

variable {D : Discipline W}

lemma Discipline.Orderly.eq_of_mem (h : D.Orderly w) {id : ℕ} {t u : Thread σ ι ρ κ α}
    (ht : (id, t) ∈ w.threads) (hu : (id, u) ∈ w.threads) : t = u := by
  have := List.inj_on_of_nodup_map h.distinct ht hu rfl
  exact (Prod.mk.inj this).2

lemma Discipline.Orderly.remove (h : D.Orderly w) (id : ℕ) : D.Orderly (w.remove id) := by
  refine ⟨fun x hx => h.upholds x (mem_remove hx).1, fun x hx y hy hne => ?_, ?_,
    fun x hx => h.below x (mem_remove hx).1⟩
  · exact h.beside x (mem_remove hx).1 y (mem_remove hy).1 hne
  · exact h.distinct.sublist (List.filter_sublist.map _)

/-- The operation of a thread, judged by what it promises. -/
lemma Discipline.Orderly.performs (h : D.Orderly w) {id : ℕ} {t : Thread σ ι ρ κ α} {i : ι}
    {next : ρ i → Program ι ρ α} (ht : (id, t) ∈ w.threads) (hp : t.program = .call i next)
    (c : χ) :
    D.promise t.kind t.origin i w.shared (W.exec c i w.shared).2
        (next (W.exec c i w.shared).1).ending? ∧
      (D.terms t.kind t.origin).Safe (D.post t.kind t.origin) (next (W.exec c i w.shared).1)
        (W.exec c i w.shared).2 := by
  have hsafe := h.upholds _ ht
  unfold Discipline.Upholds at hsafe
  rw [hp] at hsafe
  exact hsafe w.shared c (D.refl _ _)

lemma Discipline.Orderly.proceed (h : D.Orderly w) {id : ℕ} {t : Thread σ ι ρ κ α} {i : ι}
    {next : ρ i → Program ι ρ α} (ht : (id, t) ∈ w.threads) (hp : t.program = .call i next)
    (c : χ) :
    D.Orderly ({ w with shared := (W.exec c i w.shared).2 }.proceed id
      (next (W.exec c i w.shared).1)) := by
  obtain ⟨hpromise, hrest⟩ := h.performs ht hp c
  have hold : ∀ x ∈ ({ w with shared := (W.exec c i w.shared).2 }.proceed id
      (next (W.exec c i w.shared).1)).threads,
      ∃ u, (x.1, u) ∈ w.threads ∧ u.kind = x.2.kind := by
    intro x hx
    obtain ⟨hx, -⟩ | ⟨u, hu, rfl⟩ := mem_proceed hx
    · exact ⟨x.2, hx, rfl⟩
    · exact ⟨u, hu, rfl⟩
  constructor
  · intro x hx
    rw [shared_proceed]
    obtain ⟨hx, hne⟩ | ⟨u, hu, rfl⟩ := mem_proceed hx
    · have hbeside := h.beside _ ht _ hx (Ne.symm hne)
      exact (h.upholds x hx).later (D.kept _ _ _ _ _ _ _ hbeside hpromise)
    · obtain rfl := h.eq_of_mem ht hu
      exact hrest
  · intro x hx y hy hne
    obtain ⟨u, hu, hux⟩ := hold x hx
    obtain ⟨v, hv, hvy⟩ := hold y hy
    rw [← hux, ← hvy]
    exact h.beside _ hu _ hv hne
  · unfold Pool.proceed
    split
    · exact h.distinct.sublist (List.filter_sublist.map _)
    · have hids : w.threads.map (Prod.fst ∘ fun x => if x.1 = id then
          (x.1, { x.2 with program := next (W.exec c i w.shared).1 }) else x) =
          w.threads.map Prod.fst := by
        refine List.map_congr_left fun x _ => ?_
        dsimp only [Function.comp]
        split <;> rfl
      simp only [List.map_map]
      rw [hids]
      exact h.distinct
  · intro x hx
    obtain ⟨u, hu, -⟩ := hold x hx
    have hnext : ({ w with shared := (W.exec c i w.shared).2 }.proceed id
        (next (W.exec c i w.shared).1)).next = w.next := by
      unfold Pool.proceed
      split <;> rfl
    rw [hnext]
    exact h.below (x.1, u) hu

/-- A program that is safe wherever it starts, started beside kinds that it is admitted with. -/
lemma Discipline.Orderly.start (h : D.Orderly w)
    (hsafe : ∀ k s, (D.terms k s).Safe (D.post k s) (W.program k) s) {k : κ}
    (hadmits : W.admits w.kinds k = true) :
    D.Orderly { w with
      threads := (w.next, ⟨k, w.shared, W.program k⟩) :: w.threads
      next := w.next + 1 } := by
  have hbeside : ∀ x ∈ w.threads, D.beside x.2.kind k := fun x hx =>
    D.admitted _ _ hadmits _ (List.mem_map.mpr ⟨x, hx, rfl⟩)
  refine ⟨?_, ?_, ?_, ?_⟩
  · intro x hx
    rcases List.mem_cons.mp hx with rfl | hx
    · exact hsafe k w.shared
    · exact h.upholds x hx
  · intro x hx y hy hne
    rcases List.mem_cons.mp hx with rfl | hx
    · rcases List.mem_cons.mp hy with rfl | hy
      · exact absurd rfl hne
      · exact D.symm _ _ (hbeside y hy)
    · rcases List.mem_cons.mp hy with rfl | hy
      · exact hbeside x hx
      · exact h.beside x hx y hy hne
  · rw [List.map_cons, List.nodup_cons]
    refine ⟨fun hmem => ?_, h.distinct⟩
    obtain ⟨x, hx, hid⟩ := List.mem_map.mp hmem
    exact absurd (h.below x hx) (by simp [hid])
  · intro x hx
    rcases List.mem_cons.mp hx with rfl | hx
    · exact Nat.lt_succ_self _
    · exact Nat.lt_succ_of_lt (h.below x hx)

/-- Every event keeps a pool orderly. -/
theorem Discipline.Orderly.step (h : D.Orderly w)
    (hsafe : ∀ k s, (D.terms k s).Safe (D.post k s) (W.program k) s) (e : Event κ χ) :
    D.Orderly (w.step W e).1 := by
  obtain he := stepped (W := W) (w := w) e
  generalize (w.step W e).1 = w', (w.step W e).2 = r at he
  cases he with
  | idle => exact h
  | start k hadmits => exact h.start hsafe hadmits
  | ended id => exact h.remove id
  | performed id c t i next ht hp => exact h.proceed ht hp c
  | crashed id => exact h.remove id

/-- A program that ends leaves what it is meant to. -/
theorem Discipline.Orderly.outcome (h : D.Orderly w) (e : Event κ χ) {id : ℕ} {k : κ}
    {o : Option α} (hr : (w.step W e).2.outcome? = some (id, k, o)) :
    ∃ t, (id, t) ∈ w.threads ∧ t.kind = k ∧ D.post k t.origin (w.step W e).1.shared o := by
  obtain he := stepped (W := W) (w := w) e
  generalize (w.step W e).1 = w', (w.step W e).2 = r at he hr
  cases he with
  | idle => cases hr
  | start => cases hr
  | ended id c t o ht ho =>
    cases hr
    exact ⟨t, ht, rfl, (h.upholds _ ht).outcome ho⟩
  | performed id c t i next ht hp =>
    obtain ⟨-, hrest⟩ := h.performs ht hp c
    cases hout : (next (W.exec c i w.shared).1).outcome? with
    | none =>
      rw [hout] at hr
      cases hr
    | some o =>
      rw [hout] at hr
      cases hr
      refine ⟨t, ht, rfl, ?_⟩
      rw [shared_proceed]
      exact hrest.outcome hout
  | crashed => cases hr

end Pool

end Concurrency

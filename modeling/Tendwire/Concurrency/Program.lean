import Mathlib.Tactic.Common

/-!
# Programs of atomic operations

A program performs one operation on the shared state at a time and may fail. Between two of its
operations others may act, within what the program relies on; every operation keeps what the
program promises.
-/

namespace Concurrency

variable {σ ι χ α β : Type} {ρ : ι → Type}

inductive Program (ι : Type) (ρ : ι → Type) (α : Type) where
  | done (a : α)
  | fail
  | call (i : ι) (next : ρ i → Program ι ρ α)

namespace Program

def bind : Program ι ρ α → (α → Program ι ρ β) → Program ι ρ β
  | done a, f => f a
  | fail, _ => fail
  | call i next, f => call i fun r => (next r).bind f

instance : Monad (Program ι ρ) where
  pure := done
  bind := bind

def perform (i : ι) : Program ι ρ (ρ i) := call i done

/-- How a program has ended: with a result, or by failing. -/
def outcome? : Program ι ρ α → Option (Option α)
  | done a => some (some a)
  | fail => some none
  | call _ _ => none

def ending? (p : Program ι ρ α) : Option Bool := p.outcome?.map Option.isSome

@[simp] lemma pure_eq (a : α) : (pure a : Program ι ρ α) = done a := rfl

@[simp] lemma done_bind (a : α) (f : α → Program ι ρ β) : (done a >>= f) = f a := rfl

@[simp] lemma fail_bind (f : α → Program ι ρ β) : ((fail : Program ι ρ α) >>= f) = fail := rfl

@[simp] lemma call_bind (i : ι) (next : ρ i → Program ι ρ α) (f : α → Program ι ρ β) :
    (call i next >>= f) = call i fun r => next r >>= f := rfl

@[simp] lemma map_call (f : α → β) (i : ι) (next : ρ i → Program ι ρ α) :
    f <$> call i next = call i fun r => f <$> next r := rfl

lemma outcome?_map (f : α → β) (p : Program ι ρ α) :
    (f <$> p).outcome? = p.outcome?.map (Option.map f) := by
  cases p <;> rfl

lemma ending?_map (f : α → β) (p : Program ι ρ α) : (f <$> p).ending? = p.ending? := by
  cases p <;> rfl

lemma outcome?_of_ending? {p : Program ι ρ α} (h : p.ending? = some true) :
    ∃ a, p.outcome? = some (some a) := by
  cases p with
  | done a => exact ⟨a, rfl⟩
  | fail => cases h
  | call i next => cases h

@[simp] lemma perform_bind (i : ι) (f : ρ i → Program ι ρ β) :
    (perform i >>= f) = call i f := rfl

end Program

/-- What an operation does, what a program may rely on between two of its operations, and what
each of its operations promises. The last argument of a promise is how the operation ends the
program, if it does: with a result or by failing. -/
structure Terms (σ ι χ : Type) (ρ : ι → Type) where
  exec : χ → (i : ι) → σ → ρ i × σ
  rely : σ → σ → Prop
  promise : ι → σ → σ → Option Bool → Prop
  refl : ∀ s, rely s s
  trans : ∀ s t u, rely s t → rely t u → rely s u

namespace Terms

/-- The promise of operations that other operations follow or not. -/
def inner (T : Terms σ ι χ ρ) : Terms σ ι χ ρ :=
  { T with promise := fun i s s' _ => ∀ ending, T.promise i s s' ending }

/-- Every operation of the program keeps the promise, and its end meets `post`. -/
def Safe (T : Terms σ ι χ ρ) (post : σ → Option α → Prop) : Program ι ρ α → σ → Prop
  | .done a, s => ∀ s', T.rely s s' → post s' (some a)
  | .fail, s => ∀ s', T.rely s s' → post s' none
  | .call i next, s => ∀ s' c, T.rely s s' →
      T.promise i s' (T.exec c i s').2 (next (T.exec c i s').1).ending? ∧
        Safe T post (next (T.exec c i s').1) (T.exec c i s').2

variable {T : Terms σ ι χ ρ} {post post' : σ → Option α → Prop} {p : Program ι ρ α} {s s' : σ}

/-- A safe program stays safe while the others act. -/
lemma Safe.later (h : T.Safe post p s) (hrely : T.rely s s') : T.Safe post p s' := by
  cases p with
  | done a => exact fun t ht => h t (T.trans _ _ _ hrely ht)
  | fail => exact fun t ht => h t (T.trans _ _ _ hrely ht)
  | call i next => exact fun t c ht => h t c (T.trans _ _ _ hrely ht)

lemma Safe.imp (h : T.Safe post p s) (himp : ∀ t o, post t o → post' t o) :
    T.Safe post' p s := by
  induction p generalizing s with
  | done a => exact fun t ht => himp _ _ (h t ht)
  | fail => exact fun t ht => himp _ _ (h t ht)
  | call i next ih =>
    intro t c ht
    obtain ⟨hpromise, hnext⟩ := h t c ht
    exact ⟨hpromise, ih _ hnext⟩

lemma Safe.outcome (h : T.Safe post p s) {o : Option α} (ho : p.outcome? = some o) :
    post s o := by
  cases p with
  | done a =>
    cases ho
    exact h s (T.refl s)
  | fail =>
    cases ho
    exact h s (T.refl s)
  | call i next => cases ho

/-- A program that goes on with another one. -/
theorem Safe.bind {f : α → Program ι ρ β} {goal : σ → Option β → Prop}
    (h : T.inner.Safe post p s) (hdone : ∀ a t, post t (some a) → T.Safe goal (f a) t)
    (hfail : ∀ t, post t none → goal t none) : T.Safe goal (p >>= f) s := by
  induction p generalizing s with
  | done a => exact hdone a s (h s (T.refl s))
  | fail => exact fun t ht => hfail t (h t ht)
  | call i next ih =>
    intro t c ht
    obtain ⟨hpromise, hnext⟩ := h t c ht
    exact ⟨hpromise _, ih _ hnext⟩

/-- Another view of the result of a program. -/
theorem Safe.map {f : α → β} {goal : σ → Option β → Prop} (h : T.Safe post p s)
    (hgoal : ∀ t o, post t o → goal t (o.map f)) : T.Safe goal (f <$> p) s := by
  induction p generalizing s with
  | done a => exact fun t ht => hgoal t _ (h t ht)
  | fail => exact fun t ht => hgoal t _ (h t ht)
  | call i next ih =>
    intro t c ht
    obtain ⟨hpromise, hnext⟩ := h t c ht
    change T.promise i t (T.exec c i t).2 (f <$> next (T.exec c i t).1).ending? ∧
      T.Safe goal (f <$> next (T.exec c i t).1) (T.exec c i t).2
    rw [Program.ending?_map]
    exact ⟨hpromise, ih _ hnext⟩

lemma safe_done {a : α} (h : ∀ t, T.rely s t → post t (some a)) : T.Safe post (.done a) s := h

lemma safe_fail (h : ∀ t, T.rely s t → post t none) : T.Safe post .fail s := h

/-- A program of one operation. -/
lemma safe_perform {i : ι} {post : σ → Option (ρ i) → Prop}
    (h : ∀ t c, T.rely s t → T.promise i t (T.exec c i t).2 (some true) ∧
      ∀ u, T.rely (T.exec c i t).2 u → post u (some (T.exec c i t).1)) :
    T.Safe post (Program.perform i) s := h

end Terms

end Concurrency

import Mathlib.Tactic.Common

/-!
# Fallible programs on a state

A program answers or raises, and either way it leaves a state. A contract says what holds of the
answer or of the error, and of the state it comes with.
-/

namespace Transition

variable {σ ε α β : Type}

/-- A computation that answers, step by step. -/
lemma bind_eq_ok {x : Except ε α} {f : α → Except ε β} {b : β} :
    (x >>= f) = .ok b ↔ ∃ a, x = .ok a ∧ f a = .ok b := by
  cases x with
  | error e => simp [bind, Except.bind]
  | ok a => simp [bind, Except.bind]

def Fallible (σ ε α : Type) : Type := σ → Except ε α × σ

namespace Fallible

def bind (m : Fallible σ ε α) (f : α → Fallible σ ε β) : Fallible σ ε β := fun s =>
  match m s with
  | (.ok a, t) => f a t
  | (.error e, t) => (.error e, t)

instance : Monad (Fallible σ ε) where
  pure a := fun s => (.ok a, s)
  bind := bind

def raise (e : ε) : Fallible σ ε α := fun s => (.error e, s)

def read (f : σ → α) : Fallible σ ε α := fun s => (.ok (f s), s)

def update (f : σ → σ) : Fallible σ ε Unit := fun s => (.ok (), f s)

/-- A computation on its own, raised or answered. -/
def lift : Except ε α → Fallible σ ε α
  | .ok a => pure a
  | .error e => raise e

/-- From the state `s`, the program answers as `Q` says or raises as `E` says. -/
def Meets (Q : α → σ → Prop) (E : ε → σ → Prop) (m : Fallible σ ε α) (s : σ) : Prop :=
  match m s with
  | (.ok a, t) => Q a t
  | (.error e, t) => E e t

variable {Q Q' : α → σ → Prop} {G : β → σ → Prop} {E E' : ε → σ → Prop}
  {m : Fallible σ ε α} {f : α → Fallible σ ε β} {s : σ}

lemma meets_pure {a : α} (h : Q a s) : Meets Q E (pure a : Fallible σ ε α) s := h

lemma meets_raise {e : ε} (h : E e s) : Meets Q E (raise e : Fallible σ ε α) s := h

lemma meets_read {g : σ → α} (h : Q (g s) s) : Meets Q E (read g : Fallible σ ε α) s := h

lemma meets_update {g : σ → σ} {Q : Unit → σ → Prop} (h : Q () (g s)) :
    Meets Q E (update g : Fallible σ ε Unit) s := h

lemma meets_lift {x : Except ε α} (hok : ∀ a, x = .ok a → Q a s)
    (herror : ∀ e, x = .error e → E e s) : Meets Q E (lift x : Fallible σ ε α) s := by
  cases x with
  | ok a => exact hok a rfl
  | error e => exact herror e rfl

theorem Meets.bind (h : Meets Q E m s) (hf : ∀ a t, Q a t → Meets G E (f a) t) :
    Meets G E (m >>= f) s := by
  change Meets G E (Fallible.bind m f) s
  unfold Meets Fallible.bind at *
  cases hm : m s with
  | mk r t =>
    rw [hm] at h
    cases r with
    | ok a => exact hf a t h
    | error e => exact h

theorem Meets.imp (h : Meets Q E m s) (hpost : ∀ a t, Q a t → Q' a t)
    (herr : ∀ e t, E e t → E' e t) : Meets Q' E' m s := by
  unfold Meets at *
  cases hm : m s with
  | mk r t =>
    rw [hm] at h
    cases r with
    | ok a => exact hpost a t h
    | error e => exact herr e t h

lemma Meets.ok (h : Meets Q E m s) {a : α} {t : σ} (hm : m s = (.ok a, t)) : Q a t := by
  unfold Meets at h
  rw [hm] at h
  exact h

lemma Meets.error (h : Meets Q E m s) {e : ε} {t : σ} (hm : m s = (.error e, t)) :
    E e t := by
  unfold Meets at h
  rw [hm] at h
  exact h

/-- What holds however the program ends. -/
lemma Meets.state {P : σ → Prop} (h : Meets (fun _ => P) (fun _ => P) m s) : P (m s).2 := by
  unfold Meets at h
  cases hm : m s with
  | mk r t =>
    rw [hm] at h
    cases r with
    | ok a => exact h
    | error e => exact h

/-- What follows a program matters where the program answers. -/
lemma bind_congr_of_ok {f g : α → Fallible σ ε β} (h : ∀ a t, m s = (.ok a, t) → f a t = g a t) :
    (m >>= f) s = (m >>= g) s := by
  change Fallible.bind m f s = Fallible.bind m g s
  unfold Fallible.bind
  cases hm : m s with
  | mk r t =>
    cases r with
    | ok a => exact h a t hm
    | error e => rfl

/-- Every run of the program relates the state before it to the state behind it. -/
def Relates (R : σ → σ → Prop) (m : Fallible σ ε α) : Prop := ∀ s, R s (m s).2

variable {R : σ → σ → Prop}

lemma relates_pure (hrefl : ∀ s, R s s) (a : α) : Relates R (pure a : Fallible σ ε α) := hrefl

lemma relates_raise (hrefl : ∀ s, R s s) (e : ε) : Relates R (raise e : Fallible σ ε α) := hrefl

lemma relates_read (hrefl : ∀ s, R s s) (g : σ → α) : Relates R (read g : Fallible σ ε α) := hrefl

lemma relates_lift (hrefl : ∀ s, R s s) (x : Except ε α) :
    Relates R (lift x : Fallible σ ε α) := by
  cases x with
  | ok a => exact hrefl
  | error e => exact hrefl

/-- A program that goes on with another one, or stops where the first one raises. -/
theorem Relates.bind {R₁ R₂ : σ → σ → Prop} (hseq : ∀ s t u, R₁ s t → R₂ t u → R s u)
    (hstop : ∀ s t, R₁ s t → R s t) (h : Relates R₁ m) (hf : ∀ a, Relates R₂ (f a)) :
    Relates R (m >>= f) := by
  intro s
  change R s (Fallible.bind m f s).2
  unfold Fallible.bind
  have hm := h s
  cases hs : m s with
  | mk r t =>
    rw [hs] at hm
    cases r with
    | ok a => exact hseq _ _ _ hm (hf a t)
    | error e => exact hstop _ _ hm

end Fallible

end Transition

import Mathlib.Data.List.TakeDrop
import Mathlib.Tactic.Common

/-!
# Arrivals

A reader takes bytes from a socket as they arrive. However a stream is split, what the reader gets
of it is cut off the stream, or the stream is too short.
-/

namespace Framing

universe u

variable {α : Type u}

/-- What a reader meets in one round; at the end of all rounds the peer has closed. -/
inductive Arrival (α : Type u) where
  | quiet
  | bytes (bytes : List α)
  | expired

/-- Why a reader stops. -/
inductive Stop where
  | closed
  | timeout
  deriving DecidableEq

/-- What arrives before the time is up. -/
def stream : List (Arrival α) → List α
  | [] => []
  | .quiet :: rest => stream rest
  | .bytes bytes :: rest => bytes ++ stream rest
  | .expired :: _ => []

def ending : List (Arrival α) → Stop
  | [] => .closed
  | .quiet :: rest => ending rest
  | .bytes _ :: rest => ending rest
  | .expired :: _ => .timeout

def rounds : List (Arrival α) → ℕ
  | [] => 0
  | .bytes bytes :: rest => 1 + bytes.length + rounds rest
  | _ :: rest => 1 + rounds rest

/-- Reading until `need` bytes are there, at most `limit + 1` of them in one round. -/
def fill (limit need : ℕ) (got : List α) (arrivals : List (Arrival α)) :
    Except Stop (List α × List (Arrival α)) :=
  if need ≤ got.length then .ok (got, arrivals)
  else match arrivals with
    | [] => .error .closed
    | .expired :: _ => .error .timeout
    | .quiet :: rest => fill limit need got rest
    | .bytes [] :: rest => fill limit need got rest
    | .bytes (b :: bytes) :: rest =>
      let taken := min (limit + 1) (need - got.length)
      fill limit need (got ++ (b :: bytes).take taken) (.bytes ((b :: bytes).drop taken) :: rest)
termination_by rounds arrivals
decreasing_by all_goals simp only [rounds, List.length_drop, List.length_cons]; omega

variable {limit need : ℕ} {got : List α} {arrivals : List (Arrival α)}

/-- A stream that is long enough is cut where the reader stops. -/
theorem fill_of_le (limit : ℕ) (hgot : got.length ≤ need)
    (h : need ≤ got.length + (stream arrivals).length) :
    ∃ rest, fill limit need got arrivals = .ok ((got ++ stream arrivals).take need, rest) ∧
      stream rest = (got ++ stream arrivals).drop need ∧ ending rest = ending arrivals := by
  fun_induction fill limit need got arrivals with
  | case1 got arrivals hfull =>
    have hlength : need = got.length := Nat.le_antisymm hfull hgot
    subst hlength
    exact ⟨arrivals, by rw [List.take_left], by rw [List.drop_left], rfl⟩
  | case2 got hshort => simp [stream] at h; omega
  | case3 got hshort => simp [stream] at h; omega
  | case4 got hshort rest ih => exact ih hgot h
  | case5 got hshort rest ih => exact ih hgot h
  | case6 got hshort b bytes rest taken ih =>
    have htaken : taken ≤ need - got.length := Nat.min_le_right _ _
    have hlength : (got ++ (b :: bytes).take taken).length ≤ need := by
      rw [List.length_append, List.length_take]
      omega
    have hsame : got ++ (b :: bytes).take taken ++ stream (.bytes ((b :: bytes).drop taken) :: rest) =
        got ++ stream (.bytes (b :: bytes) :: rest) := by
      rw [stream, stream, List.append_assoc, ← List.append_assoc (List.take _ _),
        List.take_append_drop]
    have hlonger : (got ++ (b :: bytes).take taken).length +
        (stream (.bytes ((b :: bytes).drop taken) :: rest)).length =
          got.length + (stream (.bytes (b :: bytes) :: rest)).length := by
      rw [← List.length_append, hsame, List.length_append]
    have hnext := ih hlength (hlonger ▸ h)
    rw [hsame] at hnext
    exact hnext

/-- And no other one can be read so far. -/
theorem fill_of_lt (h : got.length + (stream arrivals).length < need) :
    fill limit need got arrivals = .error (ending arrivals) := by
  fun_induction fill limit need got arrivals with
  | case1 got arrivals hfull => omega
  | case2 got hshort => rfl
  | case3 got hshort => rfl
  | case4 got hshort rest ih => exact ih h
  | case5 got hshort rest ih => exact ih h
  | case6 got hshort b bytes rest taken ih =>
    refine ih ?_
    simp only [stream, List.length_append, List.length_take, List.length_drop] at h ⊢
    omega

end Framing

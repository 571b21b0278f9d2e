import Mathlib.Algebra.Group.Nat.Defs
import Mathlib.Data.List.Induction
import Tendwire.Framing.Arrivals
import Tendwire.Transition.Fallible

/-!
# Frames behind their lengths

A frame is its payload behind the length of it, in big-endian bytes. A reader of frames takes just
the frames that were written, however they arrive.
-/

namespace Framing

/-! ### Lengths -/

def bigEndian : ℕ → ℕ → List UInt8
  | 0, _ => []
  | size + 1, n => bigEndian size (n / 256) ++ [UInt8.ofNat (n % 256)]

def ofBigEndian (bytes : List UInt8) : ℕ := bytes.foldl (fun n b => 256 * n + b.toNat) 0

variable {size n limit maximum : ℕ} {bytes payload s : List UInt8} {b : UInt8}
  {arrivals rest : List (Arrival UInt8)}

@[simp] lemma length_bigEndian : (bigEndian size n).length = size := by
  induction size generalizing n with
  | zero => rfl
  | succ size ih => rw [bigEndian, List.length_append, ih, List.length_singleton]

lemma ofBigEndian_append_singleton : ofBigEndian (bytes ++ [b]) = 256 * ofBigEndian bytes + b.toNat := by
  rw [ofBigEndian, List.foldl_append]
  rfl

lemma ofBigEndian_bigEndian (h : n < 256 ^ size) : ofBigEndian (bigEndian size n) = n := by
  induction size generalizing n with
  | zero =>
    rw [Nat.pow_zero, Nat.lt_one_iff] at h
    rw [h]
    rfl
  | succ size ih =>
    have hdiv : n / 256 < 256 ^ size := by
      rw [Nat.div_lt_iff_lt_mul (by decide), ← Nat.pow_succ]
      exact h
    have hbyte : (UInt8.ofNat (n % 256)).toNat = n % 256 :=
      UInt8.toNat_ofNat_of_lt' (Nat.mod_lt n (by decide))
    rw [bigEndian, ofBigEndian_append_singleton, ih hdiv, hbyte]
    omega

/-- Each length has one form of a size. -/
lemma bigEndian_ofBigEndian : bigEndian bytes.length (ofBigEndian bytes) = bytes := by
  induction bytes using List.reverseRecOn with
  | nil => rfl
  | append_singleton bytes b ih =>
    have hb : b.toNat < 256 := b.toNat_lt
    have hdiv : (256 * ofBigEndian bytes + b.toNat) / 256 = ofBigEndian bytes := by omega
    have hmod : (256 * ofBigEndian bytes + b.toNat) % 256 = b.toNat := by omega
    rw [List.length_append, List.length_singleton, bigEndian, ofBigEndian_append_singleton, hdiv,
      hmod, ih, UInt8.ofNat_toNat]

lemma ofBigEndian_lt : ofBigEndian bytes < 256 ^ bytes.length := by
  induction bytes using List.reverseRecOn with
  | nil => exact Nat.one_pos
  | append_singleton bytes b ih =>
    have hb : b.toNat < 256 := b.toNat_lt
    rw [ofBigEndian_append_singleton, List.length_append, List.length_singleton, Nat.pow_succ]
    omega

/-! ### Frames -/

def frame (size : ℕ) (payload : List UInt8) : List UInt8 := bigEndian size payload.length ++ payload

inductive FrameError where
  | stopped (stop : Stop)
  | oversized
  deriving DecidableEq

def recvFrame (limit size maximum : ℕ) (arrivals : List (Arrival UInt8)) :
    Except FrameError (List UInt8 × List (Arrival UInt8)) := do
  let (header, rest) ← (fill limit size [] arrivals).mapError .stopped
  let expected := ofBigEndian header
  if maximum < expected then .error .oversized
  else do
    let (framed, rest) ← (fill limit (size + expected) header rest).mapError .stopped
    .ok (framed.drop size, rest)

lemma fill_eq_ok {need : ℕ} {got read : List UInt8} (hgot : got.length ≤ need)
    (h : fill limit need got arrivals = .ok (read, rest)) :
    read.length = need ∧ got ++ stream arrivals = read ++ stream rest ∧
      ending rest = ending arrivals := by
  rcases Nat.lt_or_ge (got.length + (stream arrivals).length) need with hshort | hlong
  · rw [fill_of_lt hshort] at h
    cases h
  · obtain ⟨rest', hfill, hstream, hending⟩ := fill_of_le limit hgot hlong
    rw [hfill] at h
    obtain ⟨rfl, rfl⟩ := Prod.mk.inj (Except.ok.inj h)
    refine ⟨?_, ?_, hending⟩
    · rw [List.length_take, List.length_append]
      omega
    · rw [hstream, List.take_append_drop]

/-- A frame that is written is read, and no byte behind it. -/
theorem recvFrame_frame (limit : ℕ) (hsize : payload.length < 256 ^ size)
    (hmaximum : payload.length ≤ maximum)
    (hstream : stream arrivals = frame size payload ++ s) :
    ∃ rest, recvFrame limit size maximum arrivals = .ok (payload, rest) ∧ stream rest = s ∧
      ending rest = ending arrivals := by
  have hheader : ([] : List UInt8) ++ stream arrivals =
      bigEndian size payload.length ++ (payload ++ s) := by
    rw [List.nil_append, hstream, frame, List.append_assoc]
  have hlength : size ≤ ([] : List UInt8).length + (stream arrivals).length := by
    rw [← List.length_append, hheader, List.length_append, length_bigEndian]
    omega
  obtain ⟨behind, hfill, hbehind, hending⟩ :=
    fill_of_le limit (Nat.zero_le size : ([] : List UInt8).length ≤ size) hlength
  have htake : ([] ++ stream arrivals).take size = bigEndian size payload.length := by
    rw [hheader, List.take_left' length_bigEndian]
  rw [hheader, List.drop_left' length_bigEndian] at hbehind
  rw [htake] at hfill
  have hmore : size + payload.length ≤
      (bigEndian size payload.length).length + (stream behind).length := by
    rw [hbehind, length_bigEndian, List.length_append]
    omega
  obtain ⟨rest, hrest, hstop, hend⟩ :=
    fill_of_le limit (by rw [length_bigEndian]; omega) hmore
  have hframed : (bigEndian size payload.length ++ payload).length = size + payload.length := by
    rw [List.length_append, length_bigEndian]
  rw [hbehind, ← List.append_assoc] at hrest hstop
  rw [List.take_left' hframed] at hrest
  rw [List.drop_left' hframed] at hstop
  refine ⟨rest, ?_, hstop, hend.trans hending⟩
  unfold recvFrame
  rw [hfill]
  change (if maximum < ofBigEndian (bigEndian size payload.length) then _ else _) = _
  rw [ofBigEndian_bigEndian hsize, if_neg (Nat.not_lt.mpr hmaximum), hrest]
  change Except.ok ((bigEndian size payload.length ++ payload).drop size, rest) = _
  rw [List.drop_left' length_bigEndian]

lemma mapError_eq_ok {α ε ε' : Type} {x : Except ε α} {f : ε → ε'} {a : α} :
    x.mapError f = .ok a ↔ x = .ok a := by
  cases x <;> simp [Except.mapError]

/-- What is read was written as a frame. -/
theorem recvFrame_exact (h : recvFrame limit size maximum arrivals = .ok (payload, rest)) :
    stream arrivals = frame size payload ++ stream rest ∧ payload.length < 256 ^ size ∧
      payload.length ≤ maximum ∧ ending rest = ending arrivals := by
  obtain ⟨⟨header, behind⟩, hheader, h⟩ := Transition.bind_eq_ok.mp h
  obtain ⟨hsize, hstream, hending⟩ := fill_eq_ok (Nat.zero_le _) (mapError_eq_ok.mp hheader)
  simp only at h
  split at h
  · cases h
  next hmaximum =>
  obtain ⟨⟨framed, behind'⟩, hframed, h⟩ := Transition.bind_eq_ok.mp h
  obtain ⟨rfl, rfl⟩ := Prod.mk.inj (Except.ok.inj h)
  obtain ⟨hlength, hstream', hending'⟩ :=
    fill_eq_ok (by rw [hsize]; omega) (mapError_eq_ok.mp hframed)
  have hpayload : (framed.drop size).length = ofBigEndian header := by
    rw [List.length_drop, hlength]
    omega
  have htake : framed.take size = header := by
    have hbegin := congrArg (List.take size) hstream'
    rw [List.take_left' hsize, List.take_append_of_le_length (by omega)] at hbegin
    exact hbegin.symm
  have hbytes : bigEndian size (ofBigEndian header) = header := by
    rw [← hsize]
    exact bigEndian_ofBigEndian
  have hbound : ofBigEndian header < 256 ^ size := by
    rw [← hsize]
    exact ofBigEndian_lt
  refine ⟨?_, Nat.lt_of_le_of_lt (Nat.le_of_eq hpayload) hbound,
    Nat.le_trans (Nat.le_of_eq hpayload) (Nat.not_lt.mp hmaximum), hending'.trans hending⟩
  rw [frame, hpayload, hbytes, ← htake, List.take_append_drop, ← hstream', ← hstream,
    List.nil_append]

end Framing

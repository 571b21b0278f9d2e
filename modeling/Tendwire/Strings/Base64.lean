import Tendwire.Strings.CodePoints
import Mathlib.Data.List.GetD

/-!
# URL-safe base64

Bytes as digits of six bits, without padding. The digits of some bytes are read back as these
bytes, and how many there are tells how many bytes there were.
-/

namespace Strings

def base64Alphabet : Text :=
  ofString "ABCDEFGHIJKLMNOPQRSTUVWXYZabcdefghijklmnopqrstuvwxyz0123456789-_"

def sextetChar (n : ℕ) : CodePoint := base64Alphabet.getD n 0

def sextetOf (c : CodePoint) : Option ℕ := base64Alphabet.idxOf? c

/-- `base64.urlsafe_b64encode(value).rstrip(b"=")`. -/
def base64url : List UInt8 → Text
  | [] => []
  | [a] => [sextetChar (a.toNat / 4), sextetChar (a.toNat % 4 * 16)]
  | [a, b] =>
    [sextetChar (a.toNat / 4), sextetChar (a.toNat % 4 * 16 + b.toNat / 16),
      sextetChar (b.toNat % 16 * 4)]
  | a :: b :: c :: bytes =>
    sextetChar (a.toNat / 4) :: sextetChar (a.toNat % 4 * 16 + b.toNat / 16) ::
      sextetChar (b.toNat % 16 * 4 + c.toNat / 64) :: sextetChar (c.toNat % 64) :: base64url bytes

/-- The bytes of padded digits: left-over bits are dropped, one left-over digit is an error. -/
def b64decode : Text → Option (List UInt8)
  | [] => some []
  | [_] => none
  | [a, b] => do
    let w ← sextetOf a
    let x ← sextetOf b
    some [UInt8.ofNat (w * 4 + x / 16)]
  | [a, b, c] => do
    let w ← sextetOf a
    let x ← sextetOf b
    let y ← sextetOf c
    some [UInt8.ofNat (w * 4 + x / 16), UInt8.ofNat (x % 16 * 16 + y / 4)]
  | a :: b :: c :: d :: t => do
    let w ← sextetOf a
    let x ← sextetOf b
    let y ← sextetOf c
    let z ← sextetOf d
    let bytes ← b64decode t
    some (UInt8.ofNat (w * 4 + x / 16) :: UInt8.ofNat (x % 16 * 16 + y / 4) ::
      UInt8.ofNat (y % 4 * 64 + z) :: bytes)

variable {bytes bytes' : List UInt8} {n : ℕ}

lemma sextetOf_sextetChar (h : n < 64) : sextetOf (sextetChar n) = some n := by
  have hall : ∀ i : Fin 64, sextetOf (sextetChar i.val) = some i.val := by decide +kernel
  exact hall ⟨n, h⟩

lemma sextetChar_mem (h : n < 64) : sextetChar n ∈ base64Alphabet := by
  have hlength : n < base64Alphabet.length := h
  unfold sextetChar
  rw [List.getD_eq_getElem _ _ hlength]
  exact List.getElem_mem hlength

/-- Bytes are told by their values. -/
lemma ofNat_eq {a : UInt8} (h : n = a.toNat) : UInt8.ofNat n = a := by
  rw [h]
  exact UInt8.ofNat_toNat

/-- The digits are read back. -/
theorem b64decode_base64url (bytes : List UInt8) : b64decode (base64url bytes) = some bytes := by
  induction bytes using base64url.induct with
  | case1 => rfl
  | case2 a =>
    have ha := a.toNat_lt
    simp only [base64url, b64decode]
    rw [sextetOf_sextetChar (by omega), sextetOf_sextetChar (by omega)]
    simp only [Option.bind_eq_bind, Option.bind_some]
    rw [ofNat_eq (a := a) (by omega)]
  | case3 a b =>
    have ha := a.toNat_lt
    have hb := b.toNat_lt
    simp only [base64url, b64decode]
    rw [sextetOf_sextetChar (by omega), sextetOf_sextetChar (by omega),
      sextetOf_sextetChar (by omega)]
    simp only [Option.bind_eq_bind, Option.bind_some]
    rw [ofNat_eq (a := a) (by omega), ofNat_eq (a := b) (by omega)]
  | case4 a b c bytes ih =>
    have ha := a.toNat_lt
    have hb := b.toNat_lt
    have hc := c.toNat_lt
    simp only [base64url, b64decode]
    rw [sextetOf_sextetChar (by omega), sextetOf_sextetChar (by omega),
      sextetOf_sextetChar (by omega), sextetOf_sextetChar (by omega), ih]
    simp only [Option.bind_eq_bind, Option.bind_some]
    rw [ofNat_eq (a := a) (by omega), ofNat_eq (a := b) (by omega), ofNat_eq (a := c) (by omega)]

lemma base64url_injective (h : base64url bytes = base64url bytes') : bytes = bytes' := by
  have hread := congrArg b64decode h
  rw [b64decode_base64url, b64decode_base64url] at hread
  exact Option.some.inj hread

lemma mem_base64Alphabet {c : CodePoint} (h : c ∈ base64url bytes) : c ∈ base64Alphabet := by
  induction bytes using base64url.induct with
  | case1 => cases h
  | case2 a =>
    have ha := a.toNat_lt
    simp only [base64url, List.mem_cons, List.not_mem_nil, or_false] at h
    obtain rfl | rfl := h <;> exact sextetChar_mem (by omega)
  | case3 a b =>
    have ha := a.toNat_lt
    have hb := b.toNat_lt
    simp only [base64url, List.mem_cons, List.not_mem_nil, or_false] at h
    obtain rfl | rfl | rfl := h <;> exact sextetChar_mem (by omega)
  | case4 a b c bytes ih =>
    have ha := a.toNat_lt
    have hb := b.toNat_lt
    have hc := c.toNat_lt
    simp only [base64url, List.mem_cons] at h
    obtain rfl | rfl | rfl | rfl | h := h
    · exact sextetChar_mem (by omega)
    · exact sextetChar_mem (by omega)
    · exact sextetChar_mem (by omega)
    · exact sextetChar_mem (by omega)
    · exact ih h

/-- Four digits for three bytes, and one more than the bytes that are left over. -/
theorem length_base64url (bytes : List UInt8) :
    (base64url bytes).length = (4 * bytes.length + 2) / 3 := by
  induction bytes using base64url.induct with
  | case1 => rfl
  | case2 => simp [base64url]
  | case3 => simp [base64url]
  | case4 a b c bytes ih =>
    simp only [base64url, List.length_cons, ih]
    omega

lemma length_base64url_le_iff {cap : ℕ} :
    (base64url bytes).length ≤ cap ↔ 4 * bytes.length ≤ 3 * cap := by
  rw [length_base64url]
  omega

lemma base64url_eq_nil_iff : base64url bytes = [] ↔ bytes = [] := by
  rw [← List.length_eq_zero_iff, length_base64url, ← List.length_eq_zero_iff]
  omega

end Strings

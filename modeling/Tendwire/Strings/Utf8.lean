import Mathlib.Algebra.GroupWithZero.Nat
import Tendwire.Strings.CodePoints

/-!
# UTF-8 of a text

A text with a lone surrogate has no UTF-8, and any other text is read back from its bytes.
-/

namespace Strings

def isSurrogate (c : CodePoint) : Bool := 0xD800 ≤ c.val && c.val ≤ 0xDFFF

def encodable (t : Text) : Bool := t.all fun c => !isSurrogate c

def toChars (t : Text) : List Char := t.map fun c => Char.ofNat c.val

/-- `text.encode("utf-8")`; `none` is the `UnicodeEncodeError`. -/
def utf8 (t : Text) : Option (List UInt8) :=
  if encodable t then some ((toChars t).flatMap String.utf8EncodeChar) else none

variable {t u : Text} {bytes : List UInt8}

lemma isSome_utf8 (t : Text) : (utf8 t).isSome = encodable t := by
  unfold utf8
  split
  · next h => rw [h]; rfl
  · next h => rw [Bool.not_eq_true] at h; rw [h]; rfl

lemma toNat_ofNat {c : CodePoint} (h : isSurrogate c = false) : (Char.ofNat c.val).toNat = c.val := by
  have hvalid : Nat.isValidChar c.val := by
    unfold Nat.isValidChar
    simp only [isSurrogate, Bool.and_eq_false_iff, decide_eq_false_iff_not] at h
    omega
  rw [Char.ofNat, dif_pos hvalid]
  rfl

lemma toChars_injective (ht : encodable t = true) (hu : encodable u = true)
    (h : toChars t = toChars u) : t = u := by
  induction t generalizing u with
  | nil =>
    cases u with
    | nil => rfl
    | cons d u => cases h
  | cons c t ih =>
    cases u with
    | nil => cases h
    | cons d u =>
      simp only [encodable, List.all_cons, Bool.and_eq_true, Bool.not_eq_true'] at ht hu
      obtain ⟨hhead, htail⟩ := List.cons.inj h
      have hval := congrArg Char.toNat hhead
      rw [toNat_ofNat ht.1, toNat_ofNat hu.1] at hval
      rw [Fin.ext hval, ih ht.2 hu.2 htail]

/-- The bytes tell the text. -/
theorem utf8_injective (ht : utf8 t = some bytes) (hu : utf8 u = some bytes) : t = u := by
  unfold utf8 at ht hu
  split at ht
  · next hencT =>
    split at hu
    · next hencU =>
      have hbytes : (toChars t).flatMap String.utf8EncodeChar =
          (toChars u).flatMap String.utf8EncodeChar := by
        rw [Option.some.inj ht, Option.some.inj hu]
      have hdecode (cs : List Char) : (cs.flatMap String.utf8EncodeChar).toByteArray.utf8Decode? =
          some cs.toArray := List.utf8Decode?_utf8Encode
      have harray : (toChars t).toArray = (toChars u).toArray := by
        have hboth := hdecode (toChars t)
        rw [hbytes, hdecode] at hboth
        exact (Option.some.inj hboth).symm
      exact toChars_injective hencT hencU (by simpa using harray)
    · cases hu
  · cases ht

/-- `data.decode("utf-8")`; `none` is the `UnicodeDecodeError`. -/
def decodeUtf8 (bytes : List UInt8) : Option Text :=
  bytes.toByteArray.utf8Decode?.map fun chars => chars.toList.map codePoint

lemma isSurrogate_codePoint (c : Char) : isSurrogate (codePoint c) = false := by
  have hvalid : c.toNat < 0xD800 ∨ 0xDFFF < c.toNat ∧ c.toNat < 0x110000 := c.valid
  have hval : (codePoint c).val = c.toNat := by
    unfold codePoint
    exact Nat.mod_eq_of_lt (by omega)
  simp only [isSurrogate, hval, Bool.and_eq_false_iff, decide_eq_false_iff_not]
  omega

lemma codePoint_ofNat {c : CodePoint} (h : isSurrogate c = false) :
    codePoint (Char.ofNat c.val) = c := by
  unfold codePoint
  rw [toNat_ofNat h]
  exact Fin.ext (Nat.mod_eq_of_lt c.isLt)

lemma ofNat_codePoint (c : Char) : Char.ofNat (codePoint c).val = c := by
  have hround := toNat_ofNat (isSurrogate_codePoint c)
  have hval : (codePoint c).val = c.toNat := by
    have hvalid : c.toNat < 0xD800 ∨ 0xDFFF < c.toNat ∧ c.toNat < 0x110000 := c.valid
    unfold codePoint
    exact Nat.mod_eq_of_lt (by omega)
  rw [hval]
  exact Char.ofNat_toNat c

lemma toChars_map_codePoint (chars : List Char) : toChars (chars.map codePoint) = chars := by
  unfold toChars
  rw [List.map_map]
  calc chars.map ((fun c : CodePoint => Char.ofNat c.val) ∘ codePoint) = chars.map id :=
        List.map_congr_left fun c _ => ofNat_codePoint c
    _ = chars := List.map_id chars

lemma encodable_map_codePoint (chars : List Char) : encodable (chars.map codePoint) = true := by
  unfold encodable
  rw [List.all_eq_true]
  intro c hc
  obtain ⟨d, -, rfl⟩ := List.mem_map.mp hc
  rw [isSurrogate_codePoint]
  rfl

lemma map_toChars (h : encodable t = true) : (toChars t).map codePoint = t := by
  unfold toChars
  rw [List.map_map]
  calc t.map (codePoint ∘ fun c : CodePoint => Char.ofNat c.val) = t.map id :=
        List.map_congr_left fun c hc =>
          codePoint_ofNat (by simpa using List.all_eq_true.mp h c hc)
    _ = t := List.map_id t

/-- The bytes of a character. -/
def utf8Width (c : CodePoint) : ℕ :=
  if c.val < 0x80 then 1 else if c.val < 0x800 then 2 else if c.val < 0x10000 then 3 else 4

/-- The bytes of a text. -/
def utf8Length (t : Text) : ℕ := (t.map utf8Width).sum

lemma utf8Size_ofNat {c : CodePoint} (h : isSurrogate c = false) :
    (Char.ofNat c.val).utf8Size = utf8Width c := by
  have hval : (Char.ofNat c.val).val.toNat = c.val := toNat_ofNat h
  unfold Char.utf8Size utf8Width
  simp only [UInt32.le_iff_toNat_le, hval]
  split_ifs <;> simp_all <;> omega

lemma length_utf8 (h : utf8 t = some bytes) : bytes.length = utf8Length t := by
  unfold utf8 at h
  split at h
  · next henc =>
    rw [← Option.some.inj h]
    clear h
    induction t with
    | nil => rfl
    | cons c t ih =>
      simp only [encodable, List.all_cons, Bool.and_eq_true, Bool.not_eq_true'] at henc
      simp only [toChars, List.map_cons, List.flatMap_cons, List.length_append, utf8Length,
        List.sum_cons, String.length_utf8EncodeChar]
      rw [utf8Size_ofNat henc.1]
      exact congrArg _ (ih henc.2)
  · cases h

@[simp] lemma utf8Length_nil : utf8Length [] = 0 := rfl

@[simp] lemma utf8Length_cons (c : CodePoint) (t : Text) :
    utf8Length (c :: t) = utf8Width c + utf8Length t := rfl

@[simp] lemma utf8Length_append (t u : Text) : utf8Length (t ++ u) = utf8Length t + utf8Length u := by
  unfold utf8Length
  rw [List.map_append, List.sum_append]

/-- Reading and writing are inverse. -/
theorem decodeUtf8_eq_some_iff : decodeUtf8 bytes = some t ↔ utf8 t = some bytes := by
  constructor
  · intro h
    obtain ⟨chars, hchars, rfl⟩ := Option.map_eq_some_iff.mp h
    have hsome : bytes.toByteArray.utf8Decode?.isSome = true := by rw [hchars]; rfl
    obtain ⟨cs, hcs⟩ := ByteArray.isSome_utf8Decode?_iff.mp hsome
    rw [hcs, List.utf8Decode?_utf8Encode] at hchars
    have hbytes : bytes = cs.flatMap String.utf8EncodeChar := by
      have hlist := congrArg (fun data : ByteArray => data.data.toList) hcs
      simpa [List.utf8Encode] using hlist
    rw [← Option.some.inj hchars]
    unfold utf8
    rw [if_pos (encodable_map_codePoint _), toChars_map_codePoint, hbytes]
  · intro h
    unfold utf8 at h
    split at h
    · next henc =>
      have hdecode : ((toChars t).flatMap String.utf8EncodeChar).toByteArray.utf8Decode? =
          some (toChars t).toArray := List.utf8Decode?_utf8Encode
      unfold decodeUtf8
      rw [← Option.some.inj h, hdecode, Option.map_some, map_toChars henc]
    · cases h

/-- A character whose bytes are ASCII has one byte, its own number. -/
lemma utf8EncodeChar_of_ascii {c : Char} (h : ∀ b ∈ String.utf8EncodeChar c, b.toNat < 0x80) :
    c.toNat < 0x80 ∧ String.utf8EncodeChar c = [UInt8.ofNat c.toNat] := by
  have hlead {x y : ℕ} (hmem : UInt8.ofNat (x + y) ∈ String.utf8EncodeChar c) (hx : x + y < 256)
      (hy : 0x80 ≤ y) : False := by
    have hsmall := h _ hmem
    rw [UInt8.toNat_ofNat', Nat.mod_eq_of_lt (by omega)] at hsmall
    omega
  have hval : c.val.toNat = c.toNat := rfl
  unfold String.utf8EncodeChar at hlead ⊢
  simp only [hval] at hlead ⊢
  split_ifs at hlead ⊢ with h1 h2 h3
  · exact ⟨by omega, rfl⟩
  · exact (hlead List.mem_cons_self (by omega) (by omega)).elim
  · exact (hlead List.mem_cons_self (by omega) (by omega)).elim
  · exact (hlead List.mem_cons_self (by omega) (by omega)).elim

/-- The characters of an ASCII text are its bytes. -/
lemma ofString_of_ascii {s : String}
    (h : (s.toByteArray.data.toList.all fun b => b.toNat < 0x80) = true) :
    ofString s = s.toByteArray.data.toList.map fun b => codePoint (Char.ofNat b.toNat) := by
  simp only [List.all_eq_true, decide_eq_true_eq] at h
  obtain ⟨chars, rfl⟩ : ∃ chars, s = String.ofList chars := ⟨s.toList, String.ofList_toList.symm⟩
  rw [String.toByteArray_ofList, List.utf8Encode, List.toList_data_toByteArray] at h ⊢
  rw [ofString, String.toList_ofList]
  induction chars with
  | nil => rfl
  | cons c chars ih =>
    simp only [List.flatMap_cons, List.mem_append, or_imp, forall_and] at h
    obtain ⟨hsmall, hbytes⟩ := utf8EncodeChar_of_ascii h.1
    have hback : (UInt8.ofNat c.toNat).toNat = c.toNat := by
      rw [UInt8.toNat_ofNat']
      exact Nat.mod_eq_of_lt (by omega)
    rw [List.flatMap_cons, List.map_cons, hbytes, List.map_append, List.map_singleton, hback,
      Char.ofNat_toNat, ih h.2]
    rfl
/-- What follows a tag is told by the tagged text. -/
lemma append_tag_cancel {tag a b : String} (h : tag ++ a = tag ++ b) : a = b := by
  have hlist := congrArg String.toList h
  rw [String.toList_append, String.toList_append, List.append_cancel_left_eq] at hlist
  exact String.toList_inj.mp hlist

end Strings

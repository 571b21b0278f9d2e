import Tendwire.Turns.Segments

/-!
# Pages of a BLOB

A stored text is read by byte ranges. A range that ends inside a character loses its last bytes,
and what remains is the page that the scan over the characters cuts at this place.
-/

namespace Tendwire.Content

open Strings List

/-- `TURN_CONTENT_PAGE_MAX_UTF8_BYTES`. -/
def turnContentPageMaxUtf8Bytes : ℕ := 48 * 1024

/-- The ends that are tried from one on, as many as are given. -/
def decodeEnds (raw : List UInt8) : ℕ → ℕ → Option Text
  | 0, _ => none
  | attempts + 1, stop =>
    match decodeFrom 0 (raw.take stop) with
    | .ok text => some text
    | .error seen => if seen ≠ stop then none else decodeEnds raw attempts (stop - 1)

/-- `_bounded_utf8_blob_page`: the ends from the last one to three before it; `none` is
`invalid_canonical_utf8`. -/
def boundedUtf8BlobPage (raw : List UInt8) : Option Text :=
  decodeEnds raw (raw.length - (raw.length - 3) + 1) raw.length

variable {t page : Text} {pages : List Text} {raw : List UInt8} {cap n attempts : ℕ} {c : Char}

/-- A text and the beginning of a character. -/
lemma decodeEnds_cut (ht : encodable t = true) (hn : n < (String.utf8EncodeChar c).length)
    (hraw : encoded t ++ (String.utf8EncodeChar c).take n <+: raw) (hattempts : n < attempts) :
    decodeEnds raw attempts (utf8Length t + n) = some t := by
  induction n generalizing attempts with
  | zero =>
    obtain ⟨attempts, rfl⟩ : ∃ k, attempts = k + 1 := ⟨attempts - 1, by omega⟩
    rw [take_zero, append_nil] at hraw
    have htake : raw.take (utf8Length t + 0) = encoded t := by
      rw [Nat.add_zero, ← length_encoded ht]
      exact (prefix_iff_eq_take.mp hraw).symm
    rw [decodeEnds, htake, decodeFrom_eq_ok.mpr (utf8_eq_some_iff.mpr ⟨ht, rfl⟩)]
  | succ n ih =>
    obtain ⟨attempts, rfl⟩ : ∃ k, attempts = k + 1 := ⟨attempts - 1, by omega⟩
    have htake : raw.take (utf8Length t + (n + 1)) =
        encoded t ++ (String.utf8EncodeChar c).take (n + 1) := by
      have hlength : (encoded t ++ (String.utf8EncodeChar c).take (n + 1)).length =
          utf8Length t + (n + 1) := by
        rw [length_append, length_encoded ht, length_take]
        omega
      rw [← hlength]
      exact (prefix_iff_eq_take.mp hraw).symm
    have hshorter : encoded t ++ (String.utf8EncodeChar c).take n <+: raw := by
      refine (prefix_append_right_inj _ |>.mpr ?_).trans hraw
      exact take_prefix_take_left (Nat.le_succ n)
    rw [decodeEnds, htake, decodeFrom_append ht, decodeFrom_cut (Nat.succ_pos n) hn]
    simp only [Except.map, Nat.zero_add, ne_eq, not_true_eq_false, if_false]
    exact ih (by omega) hshorter (by omega)

lemma boundedUtf8BlobPage_cut (ht : encodable t = true)
    (hn : n < (String.utf8EncodeChar c).length) :
    boundedUtf8BlobPage (encoded t ++ (String.utf8EncodeChar c).take n) = some t := by
  have hlength : (encoded t ++ (String.utf8EncodeChar c).take n).length = utf8Length t + n := by
    rw [length_append, length_encoded ht, length_take]
    omega
  have hwidth : (String.utf8EncodeChar c).length ≤ 4 := by
    rw [String.length_utf8EncodeChar]
    exact c.utf8Size_le_four
  rw [boundedUtf8BlobPage, hlength]
  exact decodeEnds_cut ht hn prefix_rfl (by omega)

/-- The bytes of a page that can be read are the page and part of the next character. -/
lemma take_encoded (h : Packed utf8Width cap (page :: pages))
    (hencodable : encodable (page :: pages).flatten = true) :
    ∃ c n, n < (String.utf8EncodeChar c).length ∧
      (encoded (page :: pages).flatten).take cap =
        encoded page ++ (String.utf8EncodeChar c).take n := by
  rw [flatten_cons] at hencodable ⊢
  obtain ⟨hpage, hrest⟩ := encodable_append_iff.mp hencodable
  have hlight : (encoded page).length ≤ cap := by
    rw [length_encoded hpage]
    exact h.light page mem_cons_self
  rw [encoded_append, take_append, take_of_length_le hlight]
  cases pages with
  | nil =>
    refine ⟨'a', 0, ?_, by simp [encoded, toChars]⟩
    rw [String.length_utf8EncodeChar]
    exact Char.utf8Size_pos 'a'
  | cons next pages =>
    obtain ⟨a, next, rfl⟩ := exists_cons_of_ne_nil (h.nonempty next (by simp))
    have hfull := (isChain_cons_cons.mp h.full).1 a rfl
    rw [flatten_cons, cons_append, encodable_cons] at hrest
    have hwidth : (String.utf8EncodeChar (Char.ofNat a.val)).length = utf8Width a := by
      rw [String.length_utf8EncodeChar, utf8Size_ofNat hrest.1]
    have hcut : cap - (encoded page).length < (String.utf8EncodeChar (Char.ofNat a.val)).length := by
      rw [hwidth, length_encoded hpage]
      change cap - (page.map utf8Width).sum < utf8Width a
      have := utf8Width_pos a
      omega
    refine ⟨Char.ofNat a.val, cap - (encoded page).length, hcut, ?_⟩
    rw [flatten_cons, cons_append, encoded_cons, take_append_of_le_length (Nat.le_of_lt hcut)]

/-- A range of a stored text is read as the page that begins there. -/
theorem boundedUtf8BlobPage_page (h : Packed utf8Width cap (page :: pages))
    (hencodable : encodable (page :: pages).flatten = true) :
    boundedUtf8BlobPage ((encoded (page :: pages).flatten).take cap) = some page := by
  obtain ⟨c, n, hn, htake⟩ := take_encoded h hencodable
  rw [flatten_cons, encodable_append_iff] at hencodable
  rw [htake]
  exact boundedUtf8BlobPage_cut hencodable.1 hn

end Tendwire.Content

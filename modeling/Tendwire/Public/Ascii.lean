import Tendwire.Public.Sanitizer

/-!
# ASCII texts

The sanitizer asks the tables of the interpreter about characters beyond ASCII only, so ASCII texts
come out the same under all of them.
-/

namespace Tendwire.Public

open Strings Regex Python

variable {T T' : Tables} {t : Text} {c : CodePoint}

def IsAsciiChar (c : CodePoint) : Prop := c.val < 0x80

lemma isAscii_iff : isAscii t = true ↔ ∀ c ∈ t, IsAsciiChar c := by
  simp [isAscii, IsAsciiChar]

lemma isAscii_sublist {u : Text} (h : isAscii t = true) (hsub : ∀ c ∈ u, c ∈ t) :
    isAscii u = true := isAscii_iff.mpr fun c hc => isAscii_iff.mp h c (hsub c hc)

lemma test_ascii (T T' : Tables) (p : CharClass) (c : CodePoint) (h : IsAsciiChar c) :
    T.test p c = T'.test p c := by
  have hlt : c.val < 0x80 := h
  unfold Tables.test Tables.isWord Tables.isDecimal
  simp only [hlt, if_true]

lemma redact_ascii (T T' : Tables) (h : isAscii t = true) : redact T t = redact T' t :=
  sub_sameOn (test_ascii T T') _ _ (isAscii_iff.mp h)

lemma redactAndTruncate_ascii (T T' : Tables) (maxChars : Option ℕ) (h : isAscii t = true) :
    redactAndTruncate T maxChars t = redactAndTruncate T' maxChars t := by
  have htake (n : ℕ) : isAscii (t.take n) = true := isAscii_sublist h fun c => List.mem_of_mem_take
  cases maxChars with
  | none => exact redact_ascii T T' h
  | some limit =>
    have hvisible := htake (limit - truncatedMark.length)
    unfold redactAndTruncate
    dsimp only
    rw [redact_ascii T T' h, search_sameOn (test_ascii T T') _ (isAscii_iff.mp hvisible),
      redact_ascii T T' hvisible]
    cases search T'.test sensitiveCrossing (t.take (limit - truncatedMark.length)) with
    | none => rfl
    | some cut =>
      dsimp only
      rw [redact_ascii T T' (isAscii_sublist hvisible fun c => List.mem_of_mem_take)]

theorem sanitizePublicText_ascii (T T' : Tables) (maxChars : Option ℕ) (h : isAscii t = true) :
    sanitizePublicText T maxChars t = sanitizePublicText T' maxChars t := by
  have hclean : isAscii ((t.filter (· ≠ 0)).filter (!isZeroWidth ·)) = true :=
    isAscii_sublist h fun c hc => List.mem_of_mem_filter (List.mem_of_mem_filter hc)
  unfold sanitizePublicText Tables.normalize
  rw [if_pos h, if_pos h, redactAndTruncate_ascii T T' maxChars hclean]

lemma lowerText_ascii (T : Tables) (h : isAscii t = true) : T.lowerText t = t.map asciiLower :=
  if_pos h

lemma looksLikeRawCommand_ascii (T T' : Tables) (h : isAscii t = true) :
    looksLikeRawCommand T t = looksLikeRawCommand T' t := by
  have hstrip : isAscii (strip t) = true := isAscii_sublist h fun c hc =>
    (List.dropWhile_sublist _).subset ((List.rdropWhile_prefix _ _).sublist.subset hc)
  have hascii := isAscii_iff.mp hstrip
  unfold looksLikeRawCommand
  dsimp only
  rw [search_sameOn (test_ascii T T') shellMeta hascii,
    search_sameOn (test_ascii T T') rawCommandHead hascii,
    search_sameOn (test_ascii T T') rawCommandOption hascii]

lemma scanPhrase_ascii (T T' : Tables) (h : isAscii t = true) (scan : PhraseScan) :
    scanPhrase T t scan = scanPhrase T' t scan := by
  induction t generalizing scan with
  | nil => rfl
  | cons c t ih =>
    have hrest : isAscii t = true := isAscii_sublist h fun d => List.mem_cons_of_mem _
    have hone : isAscii [c] = true := isAscii_sublist h fun d hd => by
      rw [List.mem_singleton.mp hd]
      exact List.mem_cons_self
    rw [scanPhrase, scanPhrase, lowerText_ascii T hone, lowerText_ascii T' hone]
    dsimp only
    simp only [ih hrest]

lemma isForbiddenPhrase_ascii (T T' : Tables) (h : isAscii t = true) :
    isForbiddenPhrase T t = isForbiddenPhrase T' t := by
  unfold isForbiddenPhrase
  rw [scanPhrase_ascii T T' h]

lemma isAsciiChar_asciiLower (h : isAsciiAlnum c = true) : IsAsciiChar (asciiLower c) := by
  have hsmall : c.val < 0x80 := by
    simp only [isAsciiAlnum, isLowerLetter, isUpperLetter, isAsciiDigit, Bool.or_eq_true,
      Bool.and_eq_true, decide_eq_true_eq] at h
    omega
  unfold asciiLower IsAsciiChar
  split
  · next hupper =>
    simp only [isUpperLetter, Bool.and_eq_true, decide_eq_true_eq] at hupper
    have hval : (c + 0x20).val = c.val + 0x20 := by
      rw [Fin.val_add]
      exact Nat.mod_eq_of_lt (by change c.val + 0x20 < 0x110000; omega)
    omega
  · exact hsmall

/-- Tokens have ASCII letters and digits only, whatever the text. -/
lemma isAscii_token {token : Text} (h : token ∈ publicTextTokens t) : isAscii token = true := by
  obtain ⟨part, hpart, rfl⟩ := List.mem_map.mp h
  rw [isAscii_iff]
  intro c hc
  obtain ⟨d, hd, rfl⟩ := List.mem_map.mp hc
  have halnum := not_of_mem_splitOnP (List.mem_of_mem_filter hpart) hd
  exact isAsciiChar_asciiLower (by simpa using halnum)

lemma isAscii_joinTokens {tokens : List Text} (h : ∀ token ∈ tokens, isAscii token = true) :
    isAscii (joinTokens tokens) = true := by
  induction tokens with
  | nil => rfl
  | cons token tokens ih =>
    have hrest := ih fun token' htoken => h token' (List.mem_cons_of_mem _ htoken)
    rw [isAscii_iff] at hrest ⊢
    have htoken := isAscii_iff.mp (h token List.mem_cons_self)
    cases tokens with
    | nil => simpa [joinTokens] using htoken
    | cons token' tokens =>
      have hcons : joinTokens (token :: token' :: tokens) =
          token ++ underscore :: joinTokens (token' :: tokens) := by
        simp [joinTokens, List.intercalate]
      rw [hcons]
      intro c hc
      rcases List.mem_append.mp hc with hc | hc
      · exact htoken c hc
      · rcases List.mem_cons.mp hc with rfl | hc
        · change underscore.val < 0x80
          decide
        · exact hrest c hc

lemma isAscii_phrase {tokens : List Text} (h : ∀ token ∈ tokens, isAscii token = true)
    {phrase : Text} (hphrase : phrase ∈ phrases tokens) : isAscii phrase = true := by
  induction tokens with
  | nil => cases hphrase
  | cons token tokens ih =>
    rw [phrases] at hphrase
    rcases List.mem_append.mp hphrase with hmem | hmem
    · obtain ⟨n, -, rfl⟩ := List.mem_map.mp hmem
      exact isAscii_joinTokens fun token' htoken => h token' (List.mem_of_mem_take htoken)
    · exact ih (fun token' htoken => h token' (List.mem_cons_of_mem _ htoken)) hmem

/-- The test for forbidden words needs no table at all. -/
theorem containsForbiddenText_eq (T T' : Tables) (t : Text) :
    containsForbiddenText T t = containsForbiddenText T' t := by
  have hphrases : (phrases (publicTextTokens t)).any
      (fun phrase => phrase != ofString "command" && isForbiddenPhrase T phrase) =
        (phrases (publicTextTokens t)).any
      fun phrase => phrase != ofString "command" && isForbiddenPhrase T' phrase := by
    rw [Bool.eq_iff_iff, List.any_eq_true, List.any_eq_true]
    have hsame (phrase : Text) (hmem : phrase ∈ phrases (publicTextTokens t)) :
        isForbiddenPhrase T phrase = isForbiddenPhrase T' phrase :=
      isForbiddenPhrase_ascii T T' (isAscii_phrase (fun token => isAscii_token) hmem)
    constructor
    · rintro ⟨phrase, hmem, htest⟩
      exact ⟨phrase, hmem, by rw [← hsame phrase hmem]; exact htest⟩
    · rintro ⟨phrase, hmem, htest⟩
      exact ⟨phrase, hmem, by rw [hsame phrase hmem]; exact htest⟩
  unfold containsForbiddenText
  dsimp only
  rw [hphrases]

lemma isForbiddenMappingKey_eq (T T' : Tables) (key : Text) :
    isForbiddenMappingKey T key = isForbiddenMappingKey T' key := by
  unfold isForbiddenMappingKey
  rw [containsForbiddenText_eq T T']

lemma isForbiddenFieldName_ascii (T T' : Tables) (h : isAscii t = true) :
    isForbiddenFieldName T t = isForbiddenFieldName T' t := by
  unfold isForbiddenFieldName normalizedName
  rw [lowerText_ascii T h, lowerText_ascii T' h]

theorem keepsKey_ascii (T T' : Tables) (h : isAscii t = true) (structured : Bool) :
    keepsKey T t structured = keepsKey T' t structured := by
  unfold keepsKey sanitizeValueText
  rw [sanitizePublicText_ascii T T' _ h, isForbiddenFieldName_ascii T T' h,
    isForbiddenMappingKey_eq T T']

lemma normalizedField_ascii (T T' : Tables) (h : isAscii t = true) :
    normalizedField T t = normalizedField T' t := by
  have hstrip : isAscii (strip t) = true := isAscii_sublist h fun c hc =>
    (List.dropWhile_sublist _).subset ((List.rdropWhile_prefix _ _).sublist.subset hc)
  unfold normalizedField
  rw [lowerText_ascii T hstrip, lowerText_ascii T' hstrip]

/-- The tables of an interpreter that knows ASCII only. -/
def asciiTables : Tables := ⟨id, id, fun _ => false, fun _ => none, fun _ => false⟩

/-- Values without fractions. -/
instance : FloatText Empty where
  repr := Empty.elim
  read _ := .nan
  literal := Empty.rec
  number := Empty.rec
  read_repr := Empty.rec

/-- An ASCII text that one interpreter lets through unchanged passes them all. -/
theorem sanitizeString_public (T : Tables) {field : Text} (hfield : isAscii field = true)
    (ht : isAscii t = true) (hsame : sanitizeValueText asciiTables t = t)
    (hkept : sanitizeString asciiTables field t = some t) : sanitizeString T field t = some t := by
  have htext : sanitizeValueText T t = t := (sanitizePublicText_ascii T asciiTables _ ht).trans hsame
  unfold sanitizeString at hkept ⊢
  rw [hsame] at hkept
  rw [htext]
  dsimp only at hkept ⊢
  rw [looksLikeRawCommand_ascii T asciiTables ht, containsForbiddenText_eq T asciiTables,
    fullMatch_sameOn (test_ascii T asciiTables) opaqueId (isAscii_iff.mp ht),
    normalizedField_ascii T asciiTables hfield]
  exact hkept

end Tendwire.Public

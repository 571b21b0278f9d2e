import Tendwire.Python.Equality
import Tendwire.Strings.Utf8

/-!
# Texts that can be encoded

The text of a JSON value has an encoding exactly if no lone surrogate stands in its texts and keys.
-/

namespace Python

open Strings

variable {F : Type}

mutual

/-- No lone surrogate stands in the texts and the keys. -/
def Encodes : Json F → Prop
  | .str t => encodable t = true
  | .list items => EncodesItems items
  | .dict entries => EncodesEntries entries
  | _ => True

def EncodesItems : List (Json F) → Prop
  | [] => True
  | item :: items => Encodes item ∧ EncodesItems items

def EncodesEntries : List (Text × Json F) → Prop
  | [] => True
  | (key, v) :: entries => (encodable key = true ∧ Encodes v) ∧ EncodesEntries entries

end

/-! ### Texts -/

lemma encodable_append (t u : Text) : encodable (t ++ u) = (encodable t && encodable u) := by
  simp [encodable]

lemma encodable_cons (c : CodePoint) (t : Text) :
    encodable (c :: t) = (!isSurrogate c && encodable t) := rfl

lemma not_isSurrogate_of_lt {c : CodePoint} (h : c.val < 0x80) : isSurrogate c = false := by
  have hsmall : ¬0xD800 ≤ c.val := by omega
  simp [isSurrogate, hsmall]

lemma encodable_hexDigit (n : ℕ) : isSurrogate (hexDigit n) = false := by
  have hall : ∀ k < 16, isSurrogate (codePoint (hexDigits.getD k '0')) = false := by decide
  exact hall (n % 16) (Nat.mod_lt n (by decide))

/-- Escaping neither adds nor hides a surrogate. -/
lemma encodable_escape (c : CodePoint) : encodable (escape c) = !isSurrogate c := by
  unfold escape
  split_ifs with hquote hslash hfeed hreturn htab hform hback hcontrol
  · rw [hquote]
    decide
  · rw [hslash]
    decide
  · rw [hfeed]
    decide
  · rw [hreturn]
    decide
  · rw [htab]
    decide
  · rw [not_isSurrogate_of_lt (by omega)]
    decide
  · rw [not_isSurrogate_of_lt (by omega)]
    decide
  · rw [not_isSurrogate_of_lt (by omega), encodable_append, encodable_cons, encodable_cons,
      encodable_hexDigit, encodable_hexDigit]
    decide
  · rw [encodable_cons]
    simp [encodable]

lemma encodable_quoted (t : Text) : encodable (quoted t) = encodable t := by
  have hbody : encodable (t.flatMap escape) = encodable t := by
    induction t with
    | nil => rfl
    | cons c t ih => rw [List.flatMap_cons, encodable_append, encodable_escape, ih, encodable_cons]
  have hmark : isSurrogate (codePoint '"') = false ∧ encodable [codePoint '"'] = true := by decide
  unfold quoted
  rw [List.cons_append, encodable_cons, encodable_append, hbody, hmark.1, hmark.2]
  simp

lemma encodable_number {t : Text} (h : ∀ c ∈ t, isNumberChar c = true) : encodable t = true := by
  have hsmall : ∀ c : CodePoint, isNumberChar c = true → isSurrogate c = false := by
    intro c hc
    apply not_isSurrogate_of_lt
    simp only [isNumberChar, isDigit, Bool.or_eq_true, Bool.and_eq_true, decide_eq_true_eq,
      beq_iff_eq] at hc
    rcases hc with ((((hc | rfl) | rfl) | rfl) | rfl) | rfl
    · omega
    · decide
    · decide
    · decide
    · decide
    · decide
  rw [encodable, List.all_eq_true]
  intro c hc
  simp [hsmall c (h c hc)]

/-! ### Values -/

section Values

variable [FloatText F]

/-- The first character of a list of items or entries is a comma. -/
lemma encodable_tail {c : CodePoint} (hc : isSurrogate c = false) {t : Text}
    (h : t = [] ∨ ∃ u, t = c :: u) : encodable t.tail = encodable t := by
  rcases h with rfl | ⟨u, rfl⟩
  · rfl
  · rw [List.tail_cons, encodable_cons, hc]
    rfl

lemma encodeItems_start (items : List (Json F)) :
    encodeItems items = [] ∨ ∃ u, encodeItems items = codePoint ',' :: u := by
  cases items with
  | nil => exact .inl rfl
  | cons v items => exact .inr ⟨_, rfl⟩

lemma encodeEntries_start (entries : List (Text × Json F)) :
    encodeEntries entries = [] ∨ ∃ u, encodeEntries entries = codePoint ',' :: u := by
  cases entries with
  | nil => exact .inl rfl
  | cons e entries =>
    obtain ⟨key, v⟩ := e
    exact .inr ⟨_, rfl⟩

lemma plain_marks : isSurrogate (codePoint ',') = false ∧ isSurrogate (codePoint ':') = false ∧
    isSurrogate (codePoint '[') = false ∧ encodable [codePoint ']'] = true ∧
    isSurrogate (codePoint '\x7b') = false ∧ encodable [codePoint '\x7d'] = true := by
  decide

mutual

theorem encodable_encode_iff : ∀ v : Json F, encodable (encode v) = true ↔ Encodes v
  | .null => iff_of_true (by rw [encode]; decide) trivial
  | .bool true => iff_of_true (by rw [encode]; decide) trivial
  | .bool false => iff_of_true (by rw [encode]; decide) trivial
  | .int n => by
    refine iff_of_true ?_ trivial
    rw [encode]
    exact encodable_number fun c hc => isNumberChar_of_mem_intText hc
  | .float x => by
    refine iff_of_true ?_ trivial
    rw [encode]
    cases x with
    | finite x => exact encodable_number (FloatText.number x)
    | infinite b =>
      cases b with
      | true =>
        rw [encodeFloat]
        decide
      | false =>
        rw [encodeFloat]
        decide
    | nan =>
      rw [encodeFloat]
      decide
  | .str t => by rw [encode, encodable_quoted, Encodes]
  | .list items => by
    rw [encode, Encodes, List.cons_append, encodable_cons, encodable_append,
      encodable_tail plain_marks.1 (encodeItems_start items), plain_marks.2.2.1,
      plain_marks.2.2.2.1, ← encodable_encodeItems_iff items]
    simp
  | .dict entries => by
    rw [encode, Encodes, List.cons_append, encodable_cons, encodable_append,
      encodable_tail plain_marks.1 (encodeEntries_start entries), plain_marks.2.2.2.2.1,
      plain_marks.2.2.2.2.2, ← encodable_encodeEntries_iff entries]
    simp

theorem encodable_encodeItems_iff : ∀ items : List (Json F),
    encodable (encodeItems items) = true ↔ EncodesItems items
  | [] => iff_of_true rfl trivial
  | v :: items => by
    rw [encodeItems, EncodesItems, List.cons_append, encodable_cons, encodable_append,
      plain_marks.1, ← encodable_encode_iff v, ← encodable_encodeItems_iff items]
    simp

theorem encodable_encodeEntries_iff : ∀ entries : List (Text × Json F),
    encodable (encodeEntries entries) = true ↔ EncodesEntries entries
  | [] => iff_of_true rfl trivial
  | (key, v) :: entries => by
    rw [encodeEntries, EncodesEntries, ← encodable_encode_iff v,
      ← encodable_encodeEntries_iff entries]
    simp only [List.cons_append, encodable_cons, encodable_append, encodable_quoted, plain_marks]
    simp [and_assoc]

end

end Values

/-! ### Sorted keys -/

lemma encodesItems_iff {items : List (Json F)} : EncodesItems items ↔ ∀ v ∈ items, Encodes v := by
  induction items with
  | nil => exact ⟨fun _ => by simp, fun _ => trivial⟩
  | cons v items ih => rw [EncodesItems, ih, List.forall_mem_cons]

lemma encodesEntries_iff {entries : List (Text × Json F)} :
    EncodesEntries entries ↔ ∀ e ∈ entries, encodable e.1 = true ∧ Encodes e.2 := by
  induction entries with
  | nil => exact ⟨fun _ => by simp, fun _ => trivial⟩
  | cons e entries ih =>
    obtain ⟨key, v⟩ := e
    rw [EncodesEntries, ih, List.forall_mem_cons]

mutual

theorem encodes_sortKeys_iff : ∀ v : Json F, Encodes (sortKeys v) ↔ Encodes v
  | .list items => encodesItems_sortKeys_iff items
  | .dict entries => by
    have hperm : (sortEntries (sortKeysEntries entries)).Perm (sortKeysEntries entries) :=
      List.perm_insertionSort _ _
    rw [sortKeys, Encodes, Encodes, ← encodesEntries_sortKeys_iff entries, encodesEntries_iff,
      encodesEntries_iff]
    exact forall_congr' fun e => by rw [hperm.mem_iff]
  | .null => Iff.rfl
  | .bool _ => Iff.rfl
  | .int _ => Iff.rfl
  | .float _ => Iff.rfl
  | .str _ => Iff.rfl

theorem encodesItems_sortKeys_iff : ∀ items : List (Json F),
    EncodesItems (sortKeysItems items) ↔ EncodesItems items
  | [] => Iff.rfl
  | v :: items => and_congr (encodes_sortKeys_iff v) (encodesItems_sortKeys_iff items)

theorem encodesEntries_sortKeys_iff : ∀ entries : List (Text × Json F),
    EncodesEntries (sortKeysEntries entries) ↔ EncodesEntries entries
  | [] => Iff.rfl
  | (_, v) :: entries =>
    and_congr (and_congr_right fun _ => encodes_sortKeys_iff v)
      (encodesEntries_sortKeys_iff entries)

end

/-- The text of a value can be encoded exactly if its texts and keys can. -/
theorem isSome_utf8_dumps_iff [FloatText F] (v : Json F) :
    (utf8 (dumps v)).isSome = true ↔ Encodes v := by
  rw [isSome_utf8, dumps, encodable_encode_iff, encodes_sortKeys_iff]

end Python

import Tendwire.Strings.Reflow
import Tendwire.Strings.Utf8

/-!
# Instruction text

Which instruction texts are admitted, how they are normalized, and the fingerprint under which the
echo of an instruction is matched with it.
-/

namespace Tendwire

open Strings

def maxInstructionLength : ℕ := 4096

def isRawInstructionControl (c : CodePoint) : Bool :=
  (decide (c.val < 32) && !(c.val == 9 || c.val == 10)) || c.val == 127

def isC1Control (c : CodePoint) : Bool := 0x80 ≤ c.val && c.val ≤ 0x9F

/-- The characters that `normalize_instruction_text` drops at both ends. -/
def isEdgeControl (c : CodePoint) : Bool := isRawInstructionControl c || isC1Control c

/-- `sub in text`. -/
def hasInfix (sub t : Text) : Bool := t.tails.any fun rest => sub.isPrefixOf rest

def containsBracketedPaste (t : Text) : Bool :=
  hasInfix (ofString "\x1b[200~") t || hasInfix (ofString "\x1b[201~") t

/-- `validate_instruction_text` of a string: the message of the first rule that it breaks. -/
def instructionTextMessage (t : Text) : Option String :=
  if t = [] then some "instruction.text must not be empty"
  else if maxInstructionLength < t.length then
    some "instruction.text exceeds maximum length of 4096"
  else if t.contains 0 then some "instruction.text must not contain NUL"
  else if containsBracketedPaste t then
    some "instruction.text must not contain bracketed-paste sequences"
  else if t.contains 0x1B then some "instruction.text must not contain escape sequences"
  else if t.any isC1Control then some "instruction.text must not contain C1 control characters"
  else if t.any isRawInstructionControl then
    some "instruction.text must not contain raw control characters"
  else none

/-- The loops that move `start` and `end`. -/
def dropEdgeControls (t : Text) : Text := (t.dropWhile isEdgeControl).rdropWhile isEdgeControl

/-- `"\n".join(" ".join(line.split()) for line in raw[start:end].splitlines()).strip()`. -/
def normalizeInstructionText (t : Text) : Text :=
  strip (render ((splitlines (dropEdgeControls t)).map words))

/-- What `instruction_fingerprint` digests: a blank text stands for itself. -/
def fingerprintText (t : Text) : Text :=
  if normalizeInstructionText t = [] then t else normalizeInstructionText t

def asciiBytes (s : String) : List UInt8 := s.toList.map fun c => UInt8.ofNat c.toNat

def instructionFingerprintDomain : List UInt8 := asciiBytes "tendwire.instruction-fingerprint.v1"

/-- `instruction_fingerprint`; `none` is the `UnicodeEncodeError` of a lone surrogate. -/
def instructionFingerprint (sha256 : List UInt8 → String) (t : Text) : Option String :=
  (utf8 (fingerprintText t)).map fun bytes =>
    "twins1." ++ sha256 (instructionFingerprintDomain ++ 0 :: bytes)

def ValidInstructionText (t : Text) : Prop := instructionTextMessage t = none

instance (t : Text) : Decidable (ValidInstructionText t) :=
  inferInstanceAs (Decidable (instructionTextMessage t = none))

variable {t u : Text} {c : CodePoint}

/-! ### Normal form -/

lemma normalizeInstructionText_eq (t : Text) :
    normalizeInstructionText t = render (blocks (dropEdgeControls t)) := by
  unfold normalizeInstructionText
  rw [strip_render (wordLines_splitlines _), trimBlank_splitlines]

/-- No control that is dropped at an edge stands in a valid text. -/
lemma ValidInstructionText.not_edgeControl (h : ValidInstructionText t) (hc : c ∈ t) :
    isEdgeControl c = false := by
  unfold ValidInstructionText instructionTextMessage at h
  split_ifs at h with _ _ _ _ _ hC1 hraw
  rw [List.any_eq_true] at hC1 hraw
  push Not at hC1 hraw
  simp [isEdgeControl, hC1 c hc, hraw c hc]

lemma dropEdgeControls_eq_self (h : ∀ c ∈ t, isEdgeControl c = false) : dropEdgeControls t = t := by
  unfold dropEdgeControls
  cases t with
  | nil => rfl
  | cons c t =>
    rw [dropWhile_eq_self_of_head (h c List.mem_cons_self)]
    apply List.rdropWhile_eq_self_iff.mpr
    intro hne
    rw [h _ (List.getLast_mem hne)]
    exact Bool.false_ne_true

/-- Controls around a text are dropped together with those at its own ends. -/
lemma dropEdgeControls_append {C C' : Text} (hC : ∀ c ∈ C, isEdgeControl c = true)
    (hC' : ∀ c ∈ C', isEdgeControl c = true) (hc : c ∈ t) (hplain : isEdgeControl c = false) :
    dropEdgeControls (C ++ t ++ C') = dropEdgeControls t := by
  have hdrop : (t ++ C').dropWhile isEdgeControl = t.dropWhile isEdgeControl ++ C' := by
    rw [List.dropWhile_append, if_neg]
    intro hempty
    have hall := List.dropWhile_eq_nil_iff.mp (List.isEmpty_iff.mp hempty) c hc
    rw [hplain] at hall
    cases hall
  unfold dropEdgeControls
  rw [List.append_assoc, dropWhile_append_of_forall hC, hdrop, rdropWhile_append_of_forall hC']

/-- When all its controls are whitespace, dropping those at the ends changes no block. -/
lemma blocks_dropEdgeControls (h : ∀ c ∈ t, isEdgeControl c = true → isSpace c = true) :
    blocks (dropEdgeControls t) = blocks t := by
  obtain ⟨a, b, heq, ha, hb⟩ := exists_dropped_both isEdgeControl t
  change t = a ++ dropEdgeControls t ++ b at heq
  have hfront : ∀ c ∈ a, isSpace c = true := fun c hc =>
    h c (heq ▸ List.mem_append_left _ (List.mem_append_left _ hc)) (ha c hc)
  have hback : ∀ c ∈ b, isSpace c = true := fun c hc =>
    h c (heq ▸ List.mem_append_right _ hc) (hb c hc)
  conv_rhs => rw [heq]
  rw [blocks_append_spaces hback, blocks_spaces_append hfront]

/-- An echo of `t`: whitespace and, outside of it, controls around a reflow. -/
structure IsEcho (t e : Text) : Prop where
  shape : ∃ C W u W' C', e = C ++ (W ++ u ++ W') ++ C' ∧ Reflowed t u ∧
    (∀ c ∈ C, isEdgeControl c = true) ∧ (∀ c ∈ W, isSpace c = true) ∧
    (∀ c ∈ W', isSpace c = true) ∧ ∀ c ∈ C', isEdgeControl c = true

def NotBlank (t : Text) : Prop := strip t ≠ []

instance (t : Text) : Decidable (NotBlank t) := inferInstanceAs (Decidable (strip t ≠ []))

lemma NotBlank.exists_plain (h : NotBlank t) : ∃ c ∈ t, isSpace c = false := by
  by_contra hall
  push Not at hall
  apply h
  unfold strip
  rw [List.dropWhile_eq_nil_iff.mpr fun c hc => by simpa using hall c hc]
  rfl

lemma normalizeInstructionText_valid (h : ValidInstructionText t) :
    normalizeInstructionText t = render (blocks t) := by
  rw [normalizeInstructionText_eq, dropEdgeControls_eq_self fun c hc => h.not_edgeControl hc]

theorem normalizeInstructionText_echo {e : Text} (hvalid : ValidInstructionText t)
    (hblank : NotBlank t) (he : IsEcho t e) :
    normalizeInstructionText e = normalizeInstructionText t := by
  obtain ⟨C, W, u, W', C', rfl, hflow, hC, hW, hW', hC'⟩ := he.shape
  obtain ⟨k, hk, hplain⟩ := hblank.exists_plain
  -- a character of the text that is neither whitespace nor a control comes back in the echo
  have hku : k ∈ u := by
    rcases hflow.symm.kept k hk with hspace | hmem
    · rw [hplain] at hspace
      cases hspace
    · exact hmem
  have hcontrols : ∀ c ∈ W ++ u ++ W', isEdgeControl c = true → isSpace c = true := by
    intro c hc hcontrol
    rcases List.mem_append.mp hc with hc | hc
    · rcases List.mem_append.mp hc with hc | hc
      · exact hW c hc
      · rcases hflow.kept c hc with hspace | hmem
        · exact hspace
        · rw [hvalid.not_edgeControl hmem] at hcontrol
          cases hcontrol
    · exact hW' c hc
  have hkm : k ∈ W ++ u ++ W' := List.mem_append_left _ (List.mem_append_right _ hku)
  rw [normalizeInstructionText_valid hvalid, normalizeInstructionText_eq,
    dropEdgeControls_append hC hC' hkm (hvalid.not_edgeControl hk),
    blocks_dropEdgeControls hcontrols, blocks_append_spaces hW', blocks_spaces_append hW]
  unfold blocks
  rw [hflow.lineWords_eq]

lemma normalizeInstructionText_ne_nil (hvalid : ValidInstructionText t) (hblank : NotBlank t) :
    normalizeInstructionText t ≠ [] := by
  obtain ⟨c, hc, hplain⟩ := hblank.exists_plain
  rw [normalizeInstructionText_valid hvalid]
  intro hnil
  have hread := blocks_render_blocks t
  rw [hnil] at hread
  exact blocks_ne_nil hc hplain hread.symm

/-- Neither the first nor the last character other than whitespace is a control, once the outer
controls are gone. -/
def EdgesSettled (t : Text) : Prop :=
  (∀ c ∈ (dropEdgeControls t).find? (!isSpace ·), isEdgeControl c = false) ∧
    ∀ c ∈ (dropEdgeControls t).reverse.find? (!isSpace ·), isEdgeControl c = false

theorem normalizeInstructionText_settled (h : EdgesSettled t) :
    normalizeInstructionText (normalizeInstructionText t) = normalizeInstructionText t := by
  obtain ⟨hfirst, hlast⟩ := h
  rw [← head?_render_blocks] at hfirst
  rw [← getLast?_render_blocks] at hlast
  have hkeep : dropEdgeControls (render (blocks (dropEdgeControls t))) =
      render (blocks (dropEdgeControls t)) := by
    generalize render (blocks (dropEdgeControls t)) = r at hfirst hlast
    cases r with
    | nil => rfl
    | cons c r =>
      unfold dropEdgeControls
      rw [dropWhile_eq_self_of_head (hfirst c rfl), List.rdropWhile_eq_self_iff]
      intro hne
      rw [hlast _ (List.getLast?_eq_some_getLast hne)]
      exact Bool.false_ne_true
  rw [normalizeInstructionText_eq t, normalizeInstructionText_eq, hkeep, blocks_render_blocks]

theorem blocks_of_fingerprint {sha256 : List UInt8 → String} (hsha : Function.Injective sha256)
    {digest : String} (ht : ValidInstructionText t) (hu : ValidInstructionText u)
    (hblankT : NotBlank t) (hblankU : NotBlank u)
    (hdigest : instructionFingerprint sha256 t = some digest)
    (hdigest' : instructionFingerprint sha256 u = some digest) : blocks t = blocks u := by
  obtain ⟨a, ha, rfl⟩ := Option.map_eq_some_iff.mp hdigest
  obtain ⟨b, hb, heq⟩ := Option.map_eq_some_iff.mp hdigest'
  have hbytes : b = a := by
    have hmaterial := hsha (append_tag_cancel heq)
    rw [List.append_cancel_left_eq] at hmaterial
    exact (List.cons.inj hmaterial).2
  subst hbytes
  have htext := utf8_injective ha hb
  unfold fingerprintText at htext
  rw [if_neg (normalizeInstructionText_ne_nil ht hblankT),
    if_neg (normalizeInstructionText_ne_nil hu hblankU), normalizeInstructionText_valid ht,
    normalizeInstructionText_valid hu] at htext
  exact render_blocks_injective htext

/-- What instruction matching ignores: the echo of an instruction has its fingerprint,
normalization settles, and the fingerprint tells the lines. -/
theorem instructionMatching (sha256 : List UInt8 → String) (hsha : Function.Injective sha256) :
    (∀ t e, ValidInstructionText t → NotBlank t → IsEcho t e →
      instructionFingerprint sha256 e = instructionFingerprint sha256 t) ∧
    (∀ t, EdgesSettled t →
      normalizeInstructionText (normalizeInstructionText t) = normalizeInstructionText t) ∧
    ∀ t u digest, ValidInstructionText t → ValidInstructionText u → NotBlank t → NotBlank u →
      instructionFingerprint sha256 t = some digest →
      instructionFingerprint sha256 u = some digest → blocks t = blocks u := by
  refine ⟨?_, fun t => normalizeInstructionText_settled, ?_⟩
  · intro t e hvalid hblank he
    have hnormal := normalizeInstructionText_echo hvalid hblank he
    have hne := normalizeInstructionText_ne_nil hvalid hblank
    unfold instructionFingerprint fingerprintText
    rw [hnormal, if_neg hne, if_neg hne]
  · intro t u digest ht hu hblankT hblankU hdigest hdigest'
    exact blocks_of_fingerprint hsha ht hu hblankT hblankU hdigest hdigest'

/-- One character for each byte. -/
def byteText (bytes : List UInt8) : String := String.ofList (bytes.map fun b => Char.ofNat b.toNat)

lemma byteText_injective : Function.Injective byteText := by
  have hchar : Function.Injective fun b : UInt8 => Char.ofNat b.toNat := by
    intro a b h
    have hnat (b : UInt8) : (Char.ofNat b.toNat).toNat = b.toNat := by
      have hvalid : Nat.isValidChar b.toNat := .inl (b.toNat_lt.trans (by decide))
      rw [Char.ofNat, dif_pos hvalid]
      rfl
    have hval := congrArg Char.toNat h
    rw [hnat, hnat] at hval
    exact UInt8.toNat_inj.mp hval
  intro a b h
  exact hchar.list_map (String.ofList_injective h)

theorem instructionMatching_echo :
    IsEcho (ofString "a b") (ofString "\x01\n a\t b \x01") ∧
      instructionFingerprint byteText (ofString "\x01\n a\t b \x01") =
        instructionFingerprint byteText (ofString "a b") := by
  have hall (s : Text) {p : CodePoint → Bool} (h : s.all p = true) : ∀ c ∈ s, p c = true :=
    List.all_eq_true.mp h
  have hblanks := hall (ofString "\t ") (p := isBlank) rfl
  have hspace := hall (ofString " ") (p := isBlank) rfl
  have hnone := hall [] (p := isBlank) rfl
  have hrun : Respaced (ofString " " ++ ofString "b") (ofString "\t " ++ ofString "b") :=
    .run (by simp [ofString]) (by simp [ofString]) hspace hblanks (.plain rfl (.ends hnone hnone))
  have hflow : Reflowed (ofString "a b") (ofString "a\t b") :=
    .line (.mk hnone hnone (.plain rfl hrun))
  have he : IsEcho (ofString "a b") (ofString "\x01\n a\t b \x01") :=
    ⟨ofString "\x01", ofString "\n ", ofString "a\t b", ofString " ", ofString "\x01", rfl, hflow,
      hall _ rfl, hall _ rfl, hall _ rfl, hall _ rfl⟩
  have hvalid : ValidInstructionText (ofString "a b") := by decide +kernel
  have hblank : NotBlank (ofString "a b") := by decide +kernel
  exact ⟨he, (instructionMatching byteText byteText_injective).1 _ _ hvalid hblank he⟩

/-- A control behind whitespace outlives one pass, and a blank instruction is matched as it is. -/
theorem instructionMatching_edges :
    normalizeInstructionText (normalizeInstructionText (ofString "\x01 \x01a")) ≠
        normalizeInstructionText (ofString "\x01 \x01a") ∧
      ValidInstructionText (ofString " ") ∧
      instructionFingerprint byteText (ofString "  ") ≠
        instructionFingerprint byteText (ofString " ") := by
  decide +kernel

end Tendwire

import Tendwire.Strings.Utf8

/-!
# Reading UTF-8

The decoder takes one character after another. Where it takes none, it says where the part ends
that it has looked at, and of a text that is cut inside a character that is the end of the bytes.
-/

namespace Strings

/-- How many bytes follow a first byte; `none` begins no character. -/
def trailingBytes (lead : ℕ) : Option ℕ :=
  if lead < 0x80 then some 0
  else if lead < 0xC2 then none
  else if lead < 0xE0 then some 1
  else if lead < 0xF0 then some 2
  else if lead < 0xF5 then some 3
  else none

def isContinuation (b : ℕ) : Bool := 0x80 ≤ b && b < 0xC0

/-- Whether a byte can be the second one: no overlong form, no surrogate, nothing past the last
code point. -/
def admitsSecond (lead b : ℕ) : Bool :=
  isContinuation b && !(lead == 0xE0 && b < 0xA0) && !(lead == 0xED && 0xA0 ≤ b) &&
    !(lead == 0xF0 && b < 0x90) && !(lead == 0xF4 && 0x90 ≤ b)

/-- The bits of a first byte. -/
def leadValue (lead : ℕ) : ℕ :=
  if lead < 0x80 then lead
  else if lead < 0xE0 then lead - 0xC0
  else if lead < 0xF0 then lead - 0xE0
  else lead - 0xF0

inductive Trailing where
  | complete (value : ℕ)
  | cut
  | stopped (matched : ℕ)

def readTrailing (admits : ℕ → Bool) (value matched : ℕ) : ℕ → List UInt8 → Trailing
  | 0, _ => .complete value
  | _ + 1, [] => .cut
  | n + 1, b :: rest =>
    if admits b.toNat then
      readTrailing isContinuation (value * 64 + (b.toNat - 0x80)) (matched + 1) n rest
    else .stopped matched

/-- `data.decode("utf-8")` from a position on; the error is the `end` of the
`UnicodeDecodeError`. -/
def decodeFrom (pos : ℕ) : List UInt8 → Except ℕ Text
  | [] => .ok []
  | b :: rest =>
    match trailingBytes b.toNat with
    | none => .error (pos + 1)
    | some n =>
      match readTrailing (admitsSecond b.toNat) (leadValue b.toNat) 0 n rest with
      | .complete value =>
        (decodeFrom (pos + (n + 1)) (rest.drop n)).map (Fin.ofNat 0x110000 value :: ·)
      | .cut => .error (pos + 1 + rest.length)
      | .stopped matched => .error (pos + 1 + matched)
termination_by bytes => bytes.length
decreasing_by simp only [List.length_drop, List.length_cons]; omega

/-! ### Trailing bytes -/

section

variable {admits : ℕ → Bool} {value matched n : ℕ} {trail rest bytes : List UInt8}

/-- The bytes after a first byte that admits the second. -/
def Admitted (admits : ℕ → Bool) : List UInt8 → Prop
  | [] => True
  | b :: trail => admits b.toNat = true ∧ Admitted isContinuation trail

/-- Six bits a byte. -/
def trailingValue (value : ℕ) (trail : List UInt8) : ℕ :=
  trail.foldl (fun v b => v * 64 + (b.toNat - 0x80)) value

lemma trailingValue_cons (b : UInt8) : trailingValue value (b :: trail) =
    trailingValue (value * 64 + (b.toNat - 0x80)) trail := List.foldl_cons ..

lemma readTrailing_append (h : Admitted admits trail) :
    readTrailing admits value matched trail.length (trail ++ rest) =
      .complete (trailingValue value trail) := by
  induction trail generalizing admits value matched with
  | nil => rfl
  | cons b trail ih =>
    rw [List.length_cons, List.cons_append, readTrailing, if_pos h.1, trailingValue_cons]
    exact ih h.2

lemma readTrailing_take (h : Admitted admits trail) (hn : n < trail.length) :
    readTrailing admits value matched trail.length (trail.take n) = .cut := by
  induction trail generalizing admits value matched n with
  | nil => cases hn
  | cons b trail ih =>
    cases n with
    | zero => rfl
    | succ n =>
      rw [List.length_cons, List.take_succ_cons, readTrailing, if_pos h.1]
      exact ih h.2 (Nat.lt_of_succ_lt_succ hn)

lemma readTrailing_eq_complete {v : ℕ}
    (h : readTrailing admits value matched n bytes = .complete v) :
    ∃ trail, bytes = trail ++ bytes.drop n ∧ trail.length = n ∧ Admitted admits trail ∧
      trailingValue value trail = v := by
  induction n generalizing admits value matched bytes with
  | zero => exact ⟨[], rfl, rfl, trivial, Trailing.complete.inj h⟩
  | succ n ih =>
    cases bytes with
    | nil => cases h
    | cons b bytes =>
      rw [readTrailing] at h
      split at h
      · next hb =>
        obtain ⟨trail, htrail, hlength, hadmitted, hvalue⟩ := ih h
        refine ⟨b :: trail, congrArg (b :: ·) htrail, congrArg (· + 1) hlength, ⟨hb, hadmitted⟩, ?_⟩
        rw [trailingValue_cons, hvalue]
      · cases h

end

/-! ### A character is read back -/

/-- A first byte and what follows it are those of a character. -/
structure Spells (c : Char) (lead : UInt8) (trail : List UInt8) : Prop where
  encode : String.utf8EncodeChar c = lead :: trail
  trailing : trailingBytes lead.toNat = some trail.length
  admitted : Admitted (admitsSecond lead.toNat) trail
  value : trailingValue (leadValue lead.toNat) trail = c.toNat

lemma toNat_byte {n : ℕ} (h : n < 256) : (UInt8.ofNat n).toNat = n := by
  rw [UInt8.toNat_ofNat']
  exact Nat.mod_eq_of_lt h

lemma admitsSecond_iff {lead b : ℕ} : admitsSecond lead b = true ↔
    (0x80 ≤ b ∧ b < 0xC0) ∧ (lead = 0xE0 → 0xA0 ≤ b) ∧ (lead = 0xED → b < 0xA0) ∧
      (lead = 0xF0 → 0x90 ≤ b) ∧ (lead = 0xF4 → b < 0x90) := by
  simp only [admitsSecond, isContinuation, Bool.and_eq_true, Bool.not_eq_true', Bool.and_eq_false_iff,
    beq_eq_false_iff_ne, decide_eq_true_eq, decide_eq_false_iff_not]
  omega

lemma isContinuation_iff {b : ℕ} : isContinuation b = true ↔ 0x80 ≤ b ∧ b < 0xC0 := by
  simp [isContinuation]

theorem exists_spells (c : Char) : ∃ lead trail, Spells c lead trail := by
  have hvalid : c.toNat < 0xD800 ∨ 0xDFFF < c.toNat ∧ c.toNat < 0x110000 := c.valid
  have hval : c.val.toNat = c.toNat := rfl
  have hencode : String.utf8EncodeChar c = _ := String.utf8EncodeChar.eq_1 c
  simp only [hval] at hencode
  split_ifs at hencode with h1 h2 h3
  · refine ⟨_, _, hencode, ?_, trivial, ?_⟩
    · rw [toNat_byte (by omega), trailingBytes, if_pos (by omega)]
      rfl
    · rw [toNat_byte (by omega), leadValue, if_pos (by omega)]
      rfl
  · have hlead := toNat_byte (n := c.toNat / 64 % 0x20 + 0xC0) (by omega)
    have hsecond := toNat_byte (n := c.toNat % 0x40 + 0x80) (by omega)
    refine ⟨_, _, hencode, ?_, ?_, ?_⟩
    · rw [hlead, trailingBytes, if_neg (by omega), if_neg (by omega), if_pos (by omega)]
      rfl
    · simp only [Admitted, hlead, hsecond, admitsSecond_iff, and_true]
      omega
    · simp only [trailingValue, List.foldl_cons, List.foldl_nil, hlead, hsecond]
      rw [leadValue, if_neg (by omega), if_pos (by omega)]
      omega
  · have hlead := toNat_byte (n := c.toNat / 4096 % 0x10 + 0xE0) (by omega)
    have hsecond := toNat_byte (n := c.toNat / 64 % 0x40 + 0x80) (by omega)
    have hthird := toNat_byte (n := c.toNat % 0x40 + 0x80) (by omega)
    refine ⟨_, _, hencode, ?_, ?_, ?_⟩
    · rw [hlead, trailingBytes, if_neg (by omega), if_neg (by omega), if_neg (by omega),
        if_pos (by omega)]
      rfl
    · simp only [Admitted, hlead, hsecond, hthird, admitsSecond_iff, isContinuation_iff, and_true]
      omega
    · simp only [trailingValue, List.foldl_cons, List.foldl_nil, hlead, hsecond, hthird]
      rw [leadValue, if_neg (by omega), if_neg (by omega), if_pos (by omega)]
      omega
  · have hlead := toNat_byte (n := c.toNat / 262144 % 0x08 + 0xF0) (by omega)
    have hsecond := toNat_byte (n := c.toNat / 4096 % 0x40 + 0x80) (by omega)
    have hthird := toNat_byte (n := c.toNat / 64 % 0x40 + 0x80) (by omega)
    have hfourth := toNat_byte (n := c.toNat % 0x40 + 0x80) (by omega)
    refine ⟨_, _, hencode, ?_, ?_, ?_⟩
    · rw [hlead, trailingBytes, if_neg (by omega), if_neg (by omega), if_neg (by omega),
        if_neg (by omega), if_pos (by omega)]
      rfl
    · simp only [Admitted, hlead, hsecond, hthird, hfourth, admitsSecond_iff, isContinuation_iff,
        and_true]
      omega
    · simp only [trailingValue, List.foldl_cons, List.foldl_nil, hlead, hsecond, hthird, hfourth]
      rw [leadValue, if_neg (by omega), if_neg (by omega), if_neg (by omega)]
      omega

lemma trailingBytes_iff {lead n : ℕ} : trailingBytes lead = some n ↔
    n = 0 ∧ lead < 0x80 ∨ n = 1 ∧ 0xC2 ≤ lead ∧ lead < 0xE0 ∨ n = 2 ∧ 0xE0 ≤ lead ∧ lead < 0xF0 ∨
      n = 3 ∧ 0xF0 ≤ lead ∧ lead < 0xF5 := by
  unfold trailingBytes
  split_ifs <;> simp only [Option.some.injEq, false_iff] <;> omega

lemma byte_eq {b : UInt8} {n : ℕ} (h : n = b.toNat) : UInt8.ofNat n = b := by
  rw [h, UInt8.ofNat_toNat]

lemma toNat_char {n : ℕ} (h : n < 0xD800 ∨ 0xDFFF < n ∧ n < 0x110000) : (Char.ofNat n).toNat = n := by
  have hvalid : Nat.isValidChar n := h
  rw [Char.ofNat, dif_pos hvalid]
  rfl

/-- Whatever the decoder takes is the encoding of a character. -/
theorem spells_of_admitted {lead : UInt8} {trail : List UInt8}
    (ht : trailingBytes lead.toNat = some trail.length)
    (ha : Admitted (admitsSecond lead.toNat) trail) : ∃ c, Spells c lead trail := by
  have hlead := trailingBytes_iff.mp ht
  suffices h : ∃ v, v = trailingValue (leadValue lead.toNat) trail ∧
      (v < 0xD800 ∨ 0xDFFF < v ∧ v < 0x110000) ∧
      ∀ c : Char, c.val.toNat = v → String.utf8EncodeChar c = lead :: trail by
    obtain ⟨v, hvalue, hvalid, hencode⟩ := h
    have hc := toNat_char hvalid
    exact ⟨Char.ofNat v, hencode _ hc, ht, ha, by rw [hc, hvalue]⟩
  match trail, ha, hlead with
  | [], _, hlead =>
    have hlead : lead.toNat < 0x80 := by simpa using hlead
    refine ⟨lead.toNat, ?_, by omega, fun c hc => ?_⟩
    · rw [leadValue, if_pos hlead]
      rfl
    · rw [String.utf8EncodeChar.eq_1]
      simp only [hc]
      rw [if_pos (by omega), UInt8.ofNat_toNat]
  | [a], ha, hlead =>
    have hlead : 0xC2 ≤ lead.toNat ∧ lead.toNat < 0xE0 := by simpa using hlead
    simp only [Admitted, admitsSecond_iff, and_true] at ha
    refine ⟨(lead.toNat - 0xC0) * 64 + (a.toNat - 0x80), ?_, by omega, fun c hc => ?_⟩
    · rw [leadValue, if_neg (by omega), if_pos (by omega)]
      rfl
    · rw [String.utf8EncodeChar.eq_1]
      simp only [hc]
      rw [if_neg (by omega), if_pos (by omega), byte_eq (b := lead) (by omega),
        byte_eq (b := a) (by omega)]
  | [a, b], ha, hlead =>
    have hlead : 0xE0 ≤ lead.toNat ∧ lead.toNat < 0xF0 := by simpa using hlead
    simp only [Admitted, admitsSecond_iff, isContinuation_iff, and_true] at ha
    refine ⟨((lead.toNat - 0xE0) * 64 + (a.toNat - 0x80)) * 64 + (b.toNat - 0x80), ?_, by omega,
      fun c hc => ?_⟩
    · rw [leadValue, if_neg (by omega), if_neg (by omega), if_pos (by omega)]
      rfl
    · rw [String.utf8EncodeChar.eq_1]
      simp only [hc]
      rw [if_neg (by omega), if_neg (by omega), if_pos (by omega), byte_eq (b := lead) (by omega),
        byte_eq (b := a) (by omega), byte_eq (b := b) (by omega)]
  | [a, b, d], ha, hlead =>
    have hlead : 0xF0 ≤ lead.toNat ∧ lead.toNat < 0xF5 := by simpa using hlead
    simp only [Admitted, admitsSecond_iff, isContinuation_iff, and_true] at ha
    refine ⟨(((lead.toNat - 0xF0) * 64 + (a.toNat - 0x80)) * 64 + (b.toNat - 0x80)) * 64 +
      (d.toNat - 0x80), ?_, by omega, fun c hc => ?_⟩
    · rw [leadValue, if_neg (by omega), if_neg (by omega), if_neg (by omega)]
      rfl
    · rw [String.utf8EncodeChar.eq_1]
      simp only [hc]
      rw [if_neg (by omega), if_neg (by omega), if_neg (by omega), byte_eq (b := lead) (by omega),
        byte_eq (b := a) (by omega), byte_eq (b := b) (by omega), byte_eq (b := d) (by omega)]
  | _ :: _ :: _ :: _ :: trail, _, hlead =>
    simp at hlead

/-! ### Texts -/

/-- The bytes of a text without surrogates. -/
def encoded (t : Text) : List UInt8 := (toChars t).flatMap String.utf8EncodeChar

variable {t u : Text} {bytes rest : List UInt8} {pos : ℕ}

lemma utf8_eq_some_iff : utf8 t = some bytes ↔ encodable t = true ∧ encoded t = bytes := by
  unfold utf8
  split
  · next h => simp [h, encoded]
  · next h => simp [h]

lemma encoded_cons (c : CodePoint) (t : Text) :
    encoded (c :: t) = String.utf8EncodeChar (Char.ofNat c.val) ++ encoded t := rfl

lemma encoded_append (t u : Text) : encoded (t ++ u) = encoded t ++ encoded u := by
  simp [encoded, toChars]

lemma length_encoded (h : encodable t = true) : (encoded t).length = utf8Length t :=
  length_utf8 (utf8_eq_some_iff.mpr ⟨h, rfl⟩)

lemma encodable_cons {c : CodePoint} :
    encodable (c :: t) = true ↔ isSurrogate c = false ∧ encodable t = true := by
  simp [encodable]

lemma encodable_append_iff : encodable (t ++ u) = true ↔ encodable t = true ∧ encodable u = true := by
  simp only [encodable, List.all_append, Bool.and_eq_true]

lemma decodeFrom_cons {c : Char} {lead : UInt8} {trail : List UInt8} (h : Spells c lead trail) :
    decodeFrom pos (lead :: (trail ++ rest)) =
      (decodeFrom (pos + (trail.length + 1)) rest).map (codePoint c :: ·) := by
  rw [decodeFrom, h.trailing]
  simp only [readTrailing_append h.admitted, h.value, List.drop_left]
  rfl

/-- A text is read off the front of what begins with its bytes. -/
theorem decodeFrom_append (h : encodable t = true) : decodeFrom pos (encoded t ++ rest) =
    (decodeFrom (pos + utf8Length t) rest).map (t ++ ·) := by
  induction t generalizing pos with
  | nil =>
    change decodeFrom pos rest = (decodeFrom pos rest).map ([] ++ ·)
    cases decodeFrom pos rest <;> rfl
  | cons c t ih =>
    obtain ⟨hc, ht⟩ := encodable_cons.mp h
    obtain ⟨lead, trail, hspells⟩ := exists_spells (Char.ofNat c.val)
    have hwidth : trail.length + 1 = utf8Width c := by
      rw [← utf8Size_ofNat hc, ← String.length_utf8EncodeChar, hspells.encode, List.length_cons]
    rw [encoded_cons, hspells.encode, List.append_assoc, List.cons_append, decodeFrom_cons hspells,
      ih ht, hwidth, codePoint_ofNat hc, utf8Length_cons, Nat.add_assoc]
    cases decodeFrom (pos + (utf8Width c + utf8Length t)) rest <;> rfl

/-- A character that is cut off has all its bytes seen. -/
theorem decodeFrom_cut {c : Char} {n : ℕ} (hpos : 0 < n)
    (hn : n < (String.utf8EncodeChar c).length) :
    decodeFrom pos ((String.utf8EncodeChar c).take n) = .error (pos + n) := by
  obtain ⟨lead, trail, h⟩ := exists_spells c
  obtain ⟨n, rfl⟩ : ∃ k, n = k + 1 := ⟨n - 1, by omega⟩
  rw [h.encode, List.length_cons] at hn
  have hlt : n < trail.length := by omega
  rw [h.encode, List.take_succ_cons, decodeFrom, h.trailing]
  simp only [readTrailing_take h.admitted hlt, List.length_take]
  exact congrArg Except.error (by omega)

theorem decodeFrom_eq_ok : decodeFrom pos bytes = .ok t ↔ utf8 t = some bytes := by
  constructor
  · intro h
    rw [utf8_eq_some_iff]
    induction pos, bytes using decodeFrom.induct generalizing t with
    | case1 pos =>
      rw [decodeFrom] at h
      obtain rfl := Except.ok.inj h
      exact ⟨rfl, rfl⟩
    | case2 pos b rest hb =>
      rw [decodeFrom, hb] at h
      cases h
    | case3 pos b rest n hn value hread ih =>
      rw [decodeFrom, hn] at h
      simp only [hread] at h
      obtain ⟨u, hu, rfl⟩ : ∃ u, decodeFrom (pos + (n + 1)) (rest.drop n) = .ok u ∧
          Fin.ofNat 0x110000 value :: u = t := by
        cases hu : decodeFrom (pos + (n + 1)) (rest.drop n) with
        | error e => rw [hu] at h; cases h
        | ok u => rw [hu] at h; exact ⟨u, rfl, Except.ok.inj h⟩
      obtain ⟨hencodable, hencoded⟩ := ih hu
      obtain ⟨trail, hrest, rfl, hadmitted, rfl⟩ := readTrailing_eq_complete hread
      obtain ⟨c, hspells⟩ := spells_of_admitted hn hadmitted
      rw [hspells.value]
      change encodable (codePoint c :: u) = true ∧ encoded (codePoint c :: u) = b :: rest
      rw [encodable_cons, encoded_cons, ofNat_codePoint, hspells.encode, hencoded, List.cons_append,
        ← hrest]
      exact ⟨⟨isSurrogate_codePoint c, hencodable⟩, rfl⟩
    | case4 pos b rest n hn hread =>
      rw [decodeFrom, hn] at h
      simp only [hread] at h
      cases h
    | case5 pos b rest n hn matched hread =>
      rw [decodeFrom, hn] at h
      simp only [hread] at h
      cases h
  · intro h
    obtain ⟨hencodable, rfl⟩ := utf8_eq_some_iff.mp h
    have happend : decodeFrom pos (encoded t ++ []) =
        (decodeFrom (pos + utf8Length t) []).map (t ++ ·) := decodeFrom_append hencodable
    rw [List.append_nil] at happend
    rw [happend, decodeFrom]
    exact congrArg Except.ok (List.append_nil t)

end Strings

import Tendwire.Json.Fields

/-!
# Encoded JSON values

The compact text of a value in UTF-8, and a scanner that keeps track of brackets and strings. No
text of an object goes on behind an object that another one ends with.
-/

namespace Json

/-! ### The encoder -/

def hexDigits : List Char :=
  ['0', '1', '2', '3', '4', '5', '6', '7', '8', '9', 'a', 'b', 'c', 'd', 'e', 'f']

def hexDigit (n : ℕ) : Char := hexDigits.getD (n % 16) '0'

/-- `\u` and four hexadecimal digits, for a character below 256. -/
def unicodeEscape (c : Char) : List Char :=
  ['\\', 'u', '0', '0', hexDigit (c.toNat / 16), hexDigit c.toNat]

/-- `ESCAPE_DCT`, for texts that need not be ASCII. -/
def escapeChar (c : Char) : List Char :=
  if c = '"' then ['\\', '"']
  else if c = '\\' then ['\\', '\\']
  else if c = '\n' then ['\\', 'n']
  else if c = '\r' then ['\\', 'r']
  else if c = '\t' then ['\\', 't']
  else if c.toNat = 0x0C then ['\\', 'f']
  else if c.toNat = 0x08 then ['\\', 'b']
  else if c.toNat < 0x20 then unicodeEscape c
  else [c]

def quoted (s : String) : List Char := '"' :: s.toList.flatMap escapeChar ++ ['"']

def decimal : Int → List Char
  | .ofNat n => Nat.toDigits 10 n
  | .negSucc n => '-' :: Nat.toDigits 10 (n + 1)

mutual

/-- `json.dumps(value, ensure_ascii=False, separators=(",", ":"))`. -/
def dumps : Value → List Char
  | .null => ['n', 'u', 'l', 'l']
  | .bool true => ['t', 'r', 'u', 'e']
  | .bool false => ['f', 'a', 'l', 's', 'e']
  | .int n => decimal n
  | .float literal => literal.toList
  | .text s => quoted s
  | .array items => '[' :: (dumpsItems items).tail ++ [']']
  | .object fields => '{' :: (dumpsFields fields).tail ++ ['}']

/-- The items, each behind a comma. -/
def dumpsItems : List Value → List Char
  | [] => []
  | item :: items => ',' :: dumps item ++ dumpsItems items

def dumpsFields : List (String × Value) → List Char
  | [] => []
  | (key, v) :: fields => ',' :: quoted key ++ ':' :: dumps v ++ dumpsFields fields

end

def utf8 (text : List Char) : List UInt8 := text.flatMap String.utf8EncodeChar

/-- What the text of a number is made of, `NaN` and `Infinity` included. -/
def isNumberChar (c : Char) : Bool := c.isAlphanum || c == '+' || c == '-' || c == '.'

mutual

/-- Every number with a fraction has the text of a number. -/
def Value.numeric : Value → Bool
  | .float literal => literal.toList.all isNumberChar
  | .array items => numericItems items
  | .object fields => numericFields fields
  | _ => true

def Value.numericItems : List Value → Bool
  | [] => true
  | item :: items => item.numeric && numericItems items

def Value.numericFields : List (String × Value) → Bool
  | [] => true
  | (_, v) :: fields => v.numeric && numericFields fields

end

/-! ### The scanner -/

inductive ScanMode where
  | outside
  /-- Behind a string. -/
  | closed
  | inString
  | escaped
deriving DecidableEq, Repr

/-- How many brackets are open, and where the text stands. -/
abbrev ScanState := ℕ × ScanMode

def scanOutside (depth : ℕ) (b : UInt8) : Option ScanState :=
  if b = 0x22 then some (depth, .inString)
  else if b = 0x7B ∨ b = 0x5B then some (depth + 1, .outside)
  else if b = 0x7D ∨ b = 0x5D then if depth = 0 then none else some (depth - 1, .outside)
  else some (depth, .outside)

/-- Behind a string stands a comma, a colon or a closing bracket. A backslash escapes a quote, a
slash, another backslash or one of `bfnrtu`. -/
def scanMode (depth : ℕ) (b : UInt8) : ScanMode → Option ScanState
  | .outside => scanOutside depth b
  | .closed => if b ∈ [0x2C, 0x3A, 0x7D, 0x5D] then scanOutside depth b else none
  | .inString =>
    if b = 0x22 then some (depth, .closed)
    else if b = 0x5C then some (depth, .escaped)
    else some (depth, .inString)
  | .escaped =>
    if b ∈ [0x22, 0x2F, 0x5C, 0x62, 0x66, 0x6E, 0x72, 0x74, 0x75] then some (depth, .inString)
    else none

/-- There are no line breaks. -/
def scanByte (state : ScanState) (b : UInt8) : Option ScanState :=
  if b = 0x0A then none else scanMode state.1 b state.2

def scan (state : ScanState) (l : List UInt8) : Option ScanState := l.foldlM scanByte state

variable {l l' : List UInt8} {d d' k : ℕ} {m m' : ScanMode} {s s' : ScanState}

lemma scan_append : scan s (l ++ l') = (scan s l).bind fun t => scan t l' := by
  unfold scan
  rw [List.foldlM_append]
  rfl

lemma scan_cons (b : UInt8) : scan s (b :: l) = (scanByte s b).bind fun t => scan t l := by
  unfold scan
  rw [List.foldlM_cons]
  rfl

@[simp] lemma scan_nil : scan s [] = some s := rfl

lemma scanOutside_add {b : UInt8} (h : scanOutside d b = some (d', m')) :
    scanOutside (d + k) b = some (d' + k, m') := by
  unfold scanOutside at h ⊢
  split_ifs at h ⊢ <;> simp_all <;> omega

lemma scanMode_add {b : UInt8} (h : scanMode d b m = some (d', m')) :
    scanMode (d + k) b m = some (d' + k, m') := by
  cases m with
  | outside => exact scanOutside_add h
  | closed =>
    dsimp only [scanMode] at h ⊢
    split_ifs at h ⊢
    exact scanOutside_add h
  | inString =>
    dsimp only [scanMode] at h ⊢
    split_ifs at h ⊢ <;> simp_all
  | escaped =>
    dsimp only [scanMode] at h ⊢
    split_ifs at h ⊢
    simp_all

lemma scanByte_add {b : UInt8} (h : scanByte (d, m) b = some (d', m')) :
    scanByte (d + k, m) b = some (d' + k, m') := by
  unfold scanByte at h ⊢
  split_ifs at h ⊢
  exact scanMode_add h

/-- A text is scanned alike below other brackets. -/
lemma scan_add (h : scan (d, m) l = some (d', m')) : scan (d + k, m) l = some (d' + k, m') := by
  induction l generalizing d m with
  | nil =>
    cases h
    rfl
  | cons b l ih =>
    rw [scan_cons] at h ⊢
    obtain ⟨⟨e, n⟩, hb, hl⟩ := Option.bind_eq_some_iff.mp h
    rw [scanByte_add hb]
    exact ih hl

lemma not_newline_of_scan (h : scan s l = some s') : 0x0A ∉ l := by
  induction l generalizing s with
  | nil => exact List.not_mem_nil
  | cons b l ih =>
    rw [scan_cons] at h
    obtain ⟨t, hb, hl⟩ := Option.bind_eq_some_iff.mp h
    intro hmem
    rcases List.mem_cons.mp hmem with rfl | hmem
    · cases hb
    · exact ih hl hmem

/-! ### Texts of values -/

/-- Outside of strings, with the brackets as they were. -/
def Rests (d : ℕ) (s : ScanState) : Prop := s = (d, .outside) ∨ s = (d, .closed)

/-- A text that is scanned to its end and leaves the brackets as they were. -/
def Balances (d : ℕ) (s : ScanState) (l : List UInt8) : Prop := ∃ t, scan s l = some t ∧ Rests d t

lemma Balances.append (h : Balances d s l) (h' : ∀ t, Rests d t → Balances d' t l') :
    Balances d' s (l ++ l') := by
  obtain ⟨t, ht, hrest⟩ := h
  unfold Balances
  rw [scan_append, ht]
  exact h' t hrest

lemma mem_utf8EncodeChar {c : Char} {b : UInt8} (h : b ∈ String.utf8EncodeChar c)
    (hb : b.toNat < 0x80) : c.toNat = b.toNat := by
  unfold String.utf8EncodeChar at h
  have hval : c.val.toNat = c.toNat := rfl
  rw [hval] at h
  dsimp only at h
  -- the bytes of a longer sequence are `0x80` and above
  split_ifs at h with h1 h2 h3
  · rw [List.mem_singleton] at h
    subst h
    simp only [UInt8.toNat_ofNat']
    omega
  · simp only [List.mem_cons, List.not_mem_nil, or_false] at h
    rcases h with rfl | rfl <;> simp only [UInt8.toNat_ofNat'] at hb <;> omega
  · simp only [List.mem_cons, List.not_mem_nil, or_false] at h
    rcases h with rfl | rfl | rfl <;> simp only [UInt8.toNat_ofNat'] at hb <;> omega
  · simp only [List.mem_cons, List.not_mem_nil, or_false] at h
    rcases h with rfl | rfl | rfl | rfl <;> simp only [UInt8.toNat_ofNat'] at hb <;> omega

lemma utf8_ascii {c : Char} (h : c.toNat < 0x80) :
    String.utf8EncodeChar c = [UInt8.ofNat c.toNat] := by
  unfold String.utf8EncodeChar
  have hval : c.val.toNat ≤ 0x7F := Nat.le_of_lt_succ h
  rw [if_pos hval]
  rfl

@[simp] lemma utf8_nil : utf8 [] = [] := rfl

@[simp] lemma utf8_cons (c : Char) (text : List Char) :
    utf8 (c :: text) = String.utf8EncodeChar c ++ utf8 text := rfl

@[simp] lemma utf8_append (a b : List Char) : utf8 (a ++ b) = utf8 a ++ utf8 b :=
  List.flatMap_append

lemma ne_of_mem_utf8 {c c' : Char} {b : UInt8} (hne : c ≠ c') (hc' : c'.toNat < 0x80)
    (h : b ∈ String.utf8EncodeChar c) : b ≠ UInt8.ofNat c'.toNat := by
  rintro rfl
  have hb : (UInt8.ofNat c'.toNat).toNat = c'.toNat := by
    rw [UInt8.toNat_ofNat']
    omega
  have heq := mem_utf8EncodeChar h (by rw [hb]; exact hc')
  exact hne (Char.ext (UInt32.toNat_inj.mp (heq.trans hb)))

lemma scan_plain {mode : ScanMode} (h : ∀ b ∈ l, scanByte (d, mode) b = some (d, mode)) :
    scan (d, mode) l = some (d, mode) := by
  induction l with
  | nil => rfl
  | cons b l ih =>
    rw [scan_cons, h b List.mem_cons_self]
    exact ih fun b' hb' => h b' (List.mem_cons_of_mem b hb')

/-- Whatever needs no escape stays inside of a string. -/
lemma scan_inString {c : Char} (hquote : c ≠ '"') (hback : c ≠ '\\') (hline : c ≠ '\n') :
    scan (d, .inString) (String.utf8EncodeChar c) = some (d, .inString) := by
  apply scan_plain
  intro b hb
  have h22 : b ≠ 0x22 := ne_of_mem_utf8 hquote (by decide) hb
  have h5C : b ≠ 0x5C := ne_of_mem_utf8 hback (by decide) hb
  have h0A : b ≠ 0x0A := ne_of_mem_utf8 hline (by decide) hb
  simp [scanByte, scanMode, h22, h5C, h0A]

lemma scan_hexDigit (n : ℕ) :
    scan (d, .inString) (String.utf8EncodeChar (hexDigit n)) = some (d, .inString) := by
  have hplain : ∀ c ∈ hexDigits, c ≠ '"' ∧ c ≠ '\\' ∧ c ≠ '\n' := by simp [hexDigits]
  have hmem : hexDigit n ∈ hexDigits := by
    have hlt : n % 16 < hexDigits.length := Nat.mod_lt n (by decide)
    unfold hexDigit
    rw [List.getD_eq_getElem?_getD, List.getElem?_eq_getElem hlt]
    exact List.getElem_mem hlt
  obtain ⟨hquote, hback, hline⟩ := hplain _ hmem
  exact scan_inString hquote hback hline

lemma scan_escapeChar (c : Char) :
    scan (d, .inString) (utf8 (escapeChar c)) = some (d, .inString) := by
  unfold escapeChar
  split_ifs with hquote hback hline
  any_goals rfl
  · have hlead : scan (d, .inString) (utf8 ['\\', 'u', '0', '0']) = some (d, .inString) := rfl
    change scan (d, .inString) (utf8 (['\\', 'u', '0', '0'] ++
      [hexDigit (c.toNat / 16), hexDigit c.toNat])) = _
    rw [utf8_append, scan_append, hlead]
    simp only [utf8_cons, utf8_nil, scan_append, scan_hexDigit, Option.bind_some, scan_nil]
  · rw [utf8_cons, utf8_nil, List.append_nil]
    exact scan_inString hquote hback hline

lemma scan_quoted (s : String) : scan (d, .outside) (utf8 (quoted s)) = some (d, .closed) := by
  have hchars : ∀ cs : List Char, scan (d, .inString) (utf8 (cs.flatMap escapeChar)) =
      some (d, .inString) := by
    intro cs
    induction cs with
    | nil => rfl
    | cons c cs ih =>
      rw [List.flatMap_cons, utf8_append, scan_append, scan_escapeChar]
      exact ih
  have hopen : scan (d, .outside) (String.utf8EncodeChar '"') = some (d, .inString) := rfl
  have hclose : scan (d, .inString) (String.utf8EncodeChar '"') = some (d, .closed) := rfl
  unfold quoted
  simp only [utf8_cons, utf8_append, utf8_nil, List.cons_append, scan_append, hopen, hchars, hclose,
    Option.bind_some, scan_nil]

lemma scan_number {text : List Char} (h : ∀ c ∈ text, isNumberChar c = true) :
    scan (d, .outside) (utf8 text) = some (d, .outside) := by
  apply scan_plain
  intro b hb
  obtain ⟨c, hc, hb⟩ := List.mem_flatMap.mp hb
  have hnumber := h c hc
  have hne : ∀ c' : Char, isNumberChar c' = false → c'.toNat < 0x80 →
      b ≠ UInt8.ofNat c'.toNat := by
    intro c' hc' hascii
    refine ne_of_mem_utf8 ?_ hascii hb
    rintro rfl
    rw [hnumber] at hc'
    cases hc'
  have h22 : b ≠ 0x22 := hne '"' (by decide) (by decide)
  have h0A : b ≠ 0x0A := hne '\n' (by decide) (by decide)
  have h7B : b ≠ 0x7B := hne '\x7b' (by decide) (by decide)
  have h7D : b ≠ 0x7D := hne '\x7d' (by decide) (by decide)
  have h5B : b ≠ 0x5B := hne '[' (by decide) (by decide)
  have h5D : b ≠ 0x5D := hne ']' (by decide) (by decide)
  simp [scanByte, scanMode, scanOutside, h22, h0A, h7B, h7D, h5B, h5D]

lemma isNumberChar_of_mem_decimal {n : Int} {c : Char} (h : c ∈ decimal n) :
    isNumberChar c = true := by
  have hdigit : ∀ k : ℕ, c ∈ Nat.toDigits 10 k → isNumberChar c = true := by
    intro k hk
    have := Nat.isDigit_of_mem_toDigits (by decide) (by decide) hk
    simp [isNumberChar, Char.isAlphanum, this]
  cases n with
  | ofNat n => exact hdigit n h
  | negSucc n =>
    rcases List.mem_cons.mp h with rfl | h
    · rfl
    · exact hdigit _ h

lemma Rests.comma (h : Rests d s) : scan s (String.utf8EncodeChar ',') = some (d, .outside) := by
  rcases h with rfl | rfl <;> rfl

lemma Rests.close {c : Char} (hc : c = '\x7d' ∨ c = ']') (h : Rests (d + 1) s) :
    scan s (String.utf8EncodeChar c) = some (d, .outside) := by
  rcases hc with rfl | rfl <;> rcases h with rfl | rfl <;> rfl

lemma balances_comma {text : List Char} (hs : Rests d s)
    (h : Balances d (d, .outside) (utf8 text)) : Balances d s (utf8 (',' :: text)) := by
  unfold Balances
  rw [utf8_cons, scan_append, hs.comma]
  exact h

lemma balances_brackets {opening closing : Char} {text : List Char}
    (hopen : opening = '\x7b' ∨ opening = '[') (hclose : closing = '\x7d' ∨ closing = ']')
    (h : Balances (d + 1) (d + 1, .outside) (utf8 text)) :
    Balances d (d, .outside) (utf8 (opening :: text ++ [closing])) := by
  obtain ⟨t, ht, hrest⟩ := h
  have hopening : scan (d, .outside) (String.utf8EncodeChar opening) = some (d + 1, .outside) := by
    rcases hopen with rfl | rfl <;> rfl
  refine ⟨(d, .outside), ?_, .inl rfl⟩
  rw [List.cons_append, utf8_cons, scan_append, hopening, utf8_append]
  change scan (d + 1, .outside) (utf8 text ++ utf8 [closing]) = _
  rw [scan_append, ht, utf8_cons, utf8_nil, List.append_nil]
  exact hrest.close hclose

lemma balances_quoted (s : String) : Balances d (d, .outside) (utf8 (quoted s)) :=
  ⟨_, scan_quoted s, .inr rfl⟩

lemma balances_key {key : String} {text : List Char} (h : Balances d (d, .outside) (utf8 text)) :
    Balances d (d, .outside) (utf8 (quoted key ++ ':' :: text)) := by
  rw [utf8_append, utf8_cons]
  unfold Balances
  rw [scan_append, scan_quoted]
  exact h

/-! The texts of a value, of items and of fields balance, by induction on the value. -/

mutual

theorem balances_dumps : ∀ {v : Value} {d : ℕ}, v.numeric = true →
    Balances d (d, .outside) (utf8 (dumps v))
  | .null, _, _ => ⟨_, rfl, .inl rfl⟩
  | .bool true, _, _ => ⟨_, rfl, .inl rfl⟩
  | .bool false, _, _ => ⟨_, rfl, .inl rfl⟩
  | .int n, d, _ => by
    unfold dumps
    exact ⟨_, scan_number fun c => isNumberChar_of_mem_decimal, .inl rfl⟩
  | .float literal, d, h => by
    unfold dumps
    exact ⟨_, scan_number (List.all_eq_true.mp h), .inl rfl⟩
  | .text s, d, _ => by
    unfold dumps
    exact balances_quoted s
  | .array items, d, h => by
    unfold dumps
    refine balances_brackets (.inr rfl) (.inr rfl) ?_
    cases items with
    | nil => exact ⟨_, rfl, .inl rfl⟩
    | cons item items =>
      obtain ⟨hitem, hitems⟩ := Bool.and_eq_true_iff.mp h
      rw [dumpsItems, List.cons_append, List.tail_cons, utf8_append]
      exact (balances_dumps hitem).append fun t => balances_dumpsItems hitems
  | .object fields, d, h => by
    unfold dumps
    refine balances_brackets (.inl rfl) (.inl rfl) ?_
    cases fields with
    | nil => exact ⟨_, rfl, .inl rfl⟩
    | cons field fields =>
      obtain ⟨key, v⟩ := field
      obtain ⟨hv, hfields⟩ := Bool.and_eq_true_iff.mp h
      rw [dumpsFields, List.cons_append, List.cons_append, List.tail_cons, utf8_append]
      exact (balances_key (balances_dumps hv)).append fun t => balances_dumpsFields hfields

theorem balances_dumpsItems : ∀ {items : List Value} {d : ℕ} {s : ScanState},
    Value.numericItems items = true → Rests d s → Balances d s (utf8 (dumpsItems items))
  | [], _, s, _, hs => ⟨s, rfl, hs⟩
  | item :: items, d, s, h, hs => by
    obtain ⟨hitem, hitems⟩ := Bool.and_eq_true_iff.mp h
    rw [dumpsItems, utf8_append]
    exact (balances_comma hs (balances_dumps hitem)).append fun t => balances_dumpsItems hitems

theorem balances_dumpsFields : ∀ {fields : List (String × Value)} {d : ℕ} {s : ScanState},
    Value.numericFields fields = true → Rests d s → Balances d s (utf8 (dumpsFields fields))
  | [], _, s, _, hs => ⟨s, rfl, hs⟩
  | (key, v) :: fields, d, s, h, hs => by
    obtain ⟨hv, hfields⟩ := Bool.and_eq_true_iff.mp h
    rw [dumpsFields, utf8_append]
    exact (balances_comma hs (balances_key (balances_dumps hv))).append
      fun t => balances_dumpsFields hfields

end

/-! ### Texts of objects -/

lemma not_newline_of_dumps {v : Value} (h : v.numeric = true) : 0x0A ∉ utf8 (dumps v) := by
  obtain ⟨t, ht, -⟩ := balances_dumps (d := 0) h
  exact not_newline_of_scan ht

/-- An object that opens with a key, where no quote could close a string. -/
def OpensWithKey (l : List UInt8) : Prop :=
  ∃ b rest, l = 0x7B :: 0x22 :: b :: rest ∧ b ∉ [0x2C, 0x3A, 0x7D, 0x5D]

/-- Between its brackets, the text of an object balances. -/
lemma exists_inner {m : Fields} (h : (Value.object m).numeric = true) :
    ∃ inner, utf8 (dumps (.object m)) = 0x7B :: inner ++ [0x7D] ∧
      ∀ d, Balances d (d, .outside) inner := by
  refine ⟨utf8 (dumpsFields m).tail, ?_, fun d => ?_⟩
  · unfold dumps
    rw [List.cons_append, utf8_cons, utf8_append]
    rfl
  · cases m with
    | nil => exact ⟨_, rfl, .inl rfl⟩
    | cons field m =>
      obtain ⟨key, v⟩ := field
      obtain ⟨hv, hm⟩ := Bool.and_eq_true_iff.mp h
      rw [dumpsFields, List.cons_append, List.cons_append, List.tail_cons, utf8_append]
      exact (balances_key (balances_dumps hv)).append fun t => balances_dumpsFields hm

/-- Inside of another text, an object leaves its bracket open until its last byte. -/
lemma not_scan_object {inner rest : List UInt8} {b : UInt8} {t : ScanState}
    (hinner : Balances 1 (1, .outside) inner) (hopens : inner = 0x22 :: b :: rest)
    (hb : b ∉ [0x2C, 0x3A, 0x7D, 0x5D]) (ht : scan s (0x7B :: inner) = some t) :
    ¬Rests 0 t := by
  obtain ⟨depth, mode⟩ := s
  cases mode with
  | outside =>
    obtain ⟨⟨e, mode⟩, he, hrest⟩ := hinner
    have hopen : scan (0, .outside) (0x7B :: inner) = some (e, mode) := by
      rw [scan_cons]
      exact he
    have hadd := scan_add (k := depth) hopen
    rw [Nat.zero_add, ht] at hadd
    cases hadd
    intro hzero
    have h0 : e + depth = 0 := by rcases hzero with h | h <;> exact congrArg Prod.fst h
    have h1 : e = 1 := by rcases hrest with h | h <;> exact congrArg Prod.fst h
    omega
  | closed => cases ht
  | escaped => cases ht
  | inString =>
    subst hopens
    -- the first quote closes the string, and no key follows a string
    have hstring : scanByte (depth, .closed) b = none := by
      unfold scanByte
      split
      · rfl
      · exact if_neg hb
    have hopen : scan (depth, .inString) (0x7B :: 0x22 :: b :: rest) =
        scan (depth, .closed) (b :: rest) := rfl
    rw [hopen, scan_cons, hstring] at ht
    cases ht

/-- No text of an object ends with the text of another one. -/
theorem eq_nil_of_dumps_eq_append {m m' : Fields} {front : List UInt8}
    (hm : (Value.object m).numeric = true) (hm' : (Value.object m').numeric = true)
    (hopens : OpensWithKey (utf8 (dumps (.object m'))))
    (h : utf8 (dumps (.object m)) = front ++ utf8 (dumps (.object m'))) : front = [] := by
  obtain ⟨inner, htext, hinner⟩ := exists_inner hm
  obtain ⟨inner', htext', hinner'⟩ := exists_inner hm'
  obtain ⟨b, rest, hkey, hb⟩ := hopens
  rw [htext, htext'] at h
  rw [htext'] at hkey
  cases front with
  | nil => rfl
  | cons c front =>
    exfalso
    have hsplit : inner = front ++ 0x7B :: inner' := by
      rw [List.cons_append, List.cons_append, ← List.append_assoc] at h
      exact List.append_cancel_right (List.cons.inj h).2
    obtain ⟨t, ht, hrest⟩ := hinner 0
    rw [hsplit, scan_append] at ht
    obtain ⟨s, hs, ht⟩ := Option.bind_eq_some_iff.mp ht
    obtain ⟨rest', hrest'⟩ : ∃ rest', inner' = 0x22 :: b :: rest' := by
      have hkey' : inner' ++ [0x7D] = 0x22 :: b :: rest := (List.cons.inj hkey).2
      rcases inner' with _ | ⟨x, _ | ⟨y, l⟩⟩
      · cases hkey'
      · cases hkey'
        exact absurd (by decide) hb
      · cases hkey'
        exact ⟨l, rfl⟩
    exact not_scan_object (hinner' 1) hrest' hb ht hrest

end Json

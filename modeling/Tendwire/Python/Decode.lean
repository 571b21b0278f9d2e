import Tendwire.Python.Json

/-!
# Reading JSON

`json.loads` over texts of code points: what is written for a value is read back as that value.
-/

namespace Python

open Strings

/-! ### The reader -/

def isJsonSpace (c : CodePoint) : Bool :=
  c == codePoint ' ' || c == codePoint '\t' || c == codePoint '\n' || c == codePoint '\r'

def skipSpace (t : Text) : Text := t.dropWhile isJsonSpace

def hexValue (c : CodePoint) : Option ℕ :=
  if 0x30 ≤ c.val ∧ c.val ≤ 0x39 then some (c.val - 0x30)
  else if 0x41 ≤ c.val ∧ c.val ≤ 0x46 then some (c.val - 0x41 + 10)
  else if 0x61 ≤ c.val ∧ c.val ≤ 0x66 then some (c.val - 0x61 + 10)
  else none

/-- The code unit behind `\u`. -/
def hexUnit (a b c d : CodePoint) : Option CodePoint := do
  let w ← hexValue a
  let x ← hexValue b
  let y ← hexValue c
  let z ← hexValue d
  some (Fin.ofNat _ (((w * 16 + x) * 16 + y) * 16 + z))

/-- `BACKSLASH`. -/
def unescape (c : CodePoint) : Option CodePoint :=
  if c = codePoint '"' then some (codePoint '"')
  else if c = codePoint '\\' then some (codePoint '\\')
  else if c = codePoint '/' then some (codePoint '/')
  else if c = codePoint 'b' then some 0x08
  else if c = codePoint 'f' then some 0x0C
  else if c = codePoint 'n' then some (codePoint '\n')
  else if c = codePoint 'r' then some (codePoint '\r')
  else if c = codePoint 't' then some (codePoint '\t')
  else none

/-- The characters of a string up to its closing quote; those from `\u` are marked. -/
def readUnits : Text → Option (List (CodePoint × Bool) × Text)
  | [] => none
  | c :: t =>
    if c = codePoint '"' then some ([], t)
    else if c = codePoint '\\' then
      match t with
      | [] => none
      | e :: t =>
        if e = codePoint 'u' then
          match t with
          | a :: b :: c :: d :: t =>
            (hexUnit a b c d).bind fun u => (readUnits t).map fun r => ((u, true) :: r.1, r.2)
          | _ => none
        else (unescape e).bind fun u => (readUnits t).map fun r => ((u, false) :: r.1, r.2)
    else if c.val < 0x20 then none
    else (readUnits t).map fun r => ((c, false) :: r.1, r.2)

def isHighSurrogate (c : CodePoint) : Bool := 0xD800 ≤ c.val && c.val ≤ 0xDBFF

def isLowSurrogate (c : CodePoint) : Bool := 0xDC00 ≤ c.val && c.val ≤ 0xDFFF

def joinSurrogates (high low : CodePoint) : CodePoint :=
  Fin.ofNat _ (0x10000 + ((high.val - 0xD800) * 0x400 + (low.val - 0xDC00)))

/-- Two marked halves of a surrogate pair are one character. -/
def joinUnits : List (CodePoint × Bool) → Text
  | [] => []
  | [(c, _)] => [c]
  | (c, marked) :: (d, marked') :: units =>
    if marked && marked' && isHighSurrogate c && isLowSurrogate d then
      joinSurrogates c d :: joinUnits units
    else c :: joinUnits ((d, marked') :: units)

def readString (t : Text) : Option (Text × Text) :=
  (readUnits t).map fun r => (joinUnits r.1, r.2)

section Values

variable {F : Type} [FloatText F]

/-- A number is as long as its characters go on. -/
def readNumber (t : Text) : Option (Json F × Text) :=
  let literal := t.takeWhile isNumberChar
  let rest := t.dropWhile isNumberChar
  if isIntLiteral literal then (intOf literal).map fun n => (.int n, rest)
  else if isFloatLiteral literal then some (.float (FloatText.read literal), rest)
  else none

/-- The constants, and what they read as. -/
def constants : List (Text × Json F) :=
  [(ofString "null", .null), (ofString "true", .bool true), (ofString "false", .bool false),
    (ofString "NaN", .float .nan), (ofString "Infinity", .float (.infinite false)),
    (ofString "-Infinity", .float (.infinite true))]

def readConstant (t : Text) : Option (Json F × Text) :=
  (constants.find? fun e => e.1.isPrefixOf t).map fun e => (e.2, t.drop e.1.length)

mutual

/-- `scan_once`, with as many steps as `fuel`. -/
def readValue : ℕ → Text → Option (Json F × Text)
  | _, [] => none
  | 0, _ => none
  | fuel + 1, c :: t =>
    if c = codePoint '"' then (readString t).map fun r => (.str r.1, r.2)
    else if c = codePoint '[' then
      match skipSpace t with
      | [] => none
      | d :: rest =>
        if d = codePoint ']' then some (.list [], rest)
        else (readItems fuel (d :: rest)).map fun r => (.list r.1, r.2)
    else if c = codePoint '\x7b' then
      match skipSpace t with
      | [] => none
      | d :: rest =>
        if d = codePoint '\x7d' then some (.dict [], rest)
        else (readEntries fuel (d :: rest)).map fun r => (.dict (Entries.ofPairs r.1), r.2)
    else (readConstant (c :: t)).or (readNumber (c :: t))

/-- Items up to the closing bracket, at least one. -/
def readItems : ℕ → Text → Option (List (Json F) × Text)
  | 0, _ => none
  | fuel + 1, t =>
    match readValue fuel t with
    | none => none
    | some (v, t) =>
      match skipSpace t with
      | [] => none
      | c :: t =>
        if c = codePoint ']' then some ([v], t)
        else if c = codePoint ',' then (readItems fuel (skipSpace t)).map fun r => (v :: r.1, r.2)
        else none

def readEntries : ℕ → Text → Option (List (Text × Json F) × Text)
  | _, [] => none
  | 0, _ => none
  | fuel + 1, c :: t =>
    if c = codePoint '"' then
      match readString t with
      | none => none
      | some (key, t) =>
        match skipSpace t with
        | [] => none
        | d :: t =>
          if d = codePoint ':' then
            match readValue fuel (skipSpace t) with
            | none => none
            | some (v, t) =>
              match skipSpace t with
              | [] => none
              | e :: t =>
                if e = codePoint '\x7d' then some ([(key, v)], t)
                else if e = codePoint ',' then
                  (readEntries fuel (skipSpace t)).map fun r => ((key, v) :: r.1, r.2)
                else none
          else none
    else none

end

/-- `json.loads(text)`; `none` is the `ValueError`. Every step takes a character. -/
def loads (t : Text) : Option (Json F) :=
  match readValue (t.length + 1) (skipSpace t) with
  | some (v, rest) => if skipSpace rest = [] then some v else none
  | none => none

end Values

/-! ### Strings come back -/

variable {t r : Text} {c : CodePoint}

/-- Whether a character is written as `\u` and four digits. -/
def isUnitEscaped (c : CodePoint) : Bool :=
  c.val < 0x20 && !(c.val == 0x0A || c.val == 0x0D || c.val == 0x09 || c.val == 0x0C ||
    c.val == 0x08)

lemma hexValue_hexDigit (n : ℕ) : hexValue (hexDigit n) = some (n % 16) := by
  have htable : ∀ d < 16, hexValue (codePoint (hexDigits.getD d '0')) = some d := by decide
  exact htable (n % 16) (Nat.mod_lt n (by decide))

lemma hexUnit_hexDigit (h : c.val < 0x20) :
    hexUnit (codePoint '0') (codePoint '0') (hexDigit (c.val / 16)) (hexDigit c.val) = some c := by
  have hzero : hexValue (codePoint '0') = some 0 := by decide
  unfold hexUnit
  rw [hzero, hexValue_hexDigit, hexValue_hexDigit]
  have hsum : ((0 * 16 + 0) * 16 + c.val / 16 % 16) * 16 + c.val % 16 = c.val := by omega
  simp only [Option.bind_eq_bind, Option.bind_some, hsum]
  exact congrArg some (Fin.ofNat_val_eq_self c)

lemma readUnits_plain (hquote : c ≠ codePoint '"') (hback : c ≠ codePoint '\\')
    (hcontrol : ¬c.val < 0x20) :
    readUnits (c :: t) = (readUnits t).map fun r => ((c, false) :: r.1, r.2) := by
  conv_lhs => unfold readUnits
  rw [if_neg hquote, if_neg hback, if_neg hcontrol]

lemma readUnits_short {e u : CodePoint} (he : e ≠ codePoint 'u') (hu : unescape e = some u) :
    readUnits (codePoint '\\' :: e :: t) =
      (readUnits t).map fun r => ((u, false) :: r.1, r.2) := by
  conv_lhs => unfold readUnits
  rw [if_neg (by decide), if_pos rfl]
  dsimp only
  rw [if_neg he, hu, Option.bind_some]

lemma readUnits_unit {a b c d u : CodePoint} (hu : hexUnit a b c d = some u) :
    readUnits (codePoint '\\' :: codePoint 'u' :: a :: b :: c :: d :: t) =
      (readUnits t).map fun r => ((u, true) :: r.1, r.2) := by
  conv_lhs => unfold readUnits
  rw [if_neg (by decide), if_pos rfl]
  dsimp only
  rw [if_pos rfl, hu, Option.bind_some]

lemma readUnits_escape (c : CodePoint) (t : Text) :
    readUnits (escape c ++ t) = (readUnits t).map fun r => ((c, isUnitEscaped c) :: r.1, r.2) := by
  unfold escape
  split_ifs with hquote hback hfeed hreturn htab hform hbell hcontrol
  · subst hquote
    exact readUnits_short (by decide) (by decide)
  · subst hback
    exact readUnits_short (by decide) (by decide)
  · subst hfeed
    exact readUnits_short (by decide) (by decide)
  · subst hreturn
    exact readUnits_short (by decide) (by decide)
  · subst htab
    exact readUnits_short (by decide) (by decide)
  · obtain rfl : c = 0x0C := Fin.ext hform
    exact readUnits_short (by decide) (by decide)
  · obtain rfl : c = 0x08 := Fin.ext hbell
    exact readUnits_short (by decide) (by decide)
  · have hmark : isUnitEscaped c = true := by
      have hne (d : CodePoint) (h : ¬c = d) : c.val ≠ d.val := fun hval => h (Fin.ext hval)
      have h0A := hne _ hfeed
      have h0D := hne _ hreturn
      have h09 := hne _ htab
      have hvals : (codePoint '\n').val = 0x0A ∧ (codePoint '\r').val = 0x0D ∧
          (codePoint '\t').val = 0x09 := by decide
      rw [hvals.1] at h0A
      rw [hvals.2.1] at h0D
      rw [hvals.2.2] at h09
      simp [isUnitEscaped, hcontrol, h0A, h0D, h09, hform, hbell]
    rw [hmark]
    exact readUnits_unit (hexUnit_hexDigit hcontrol)
  · have hmark : isUnitEscaped c = false := by simp [isUnitEscaped, hcontrol]
    rw [hmark]
    exact readUnits_plain hquote hback hcontrol

lemma readUnits_quoted (t r : Text) :
    readUnits (t.flatMap escape ++ codePoint '"' :: r) =
      some (t.map fun c => (c, isUnitEscaped c), r) := by
  induction t with
  | nil =>
    conv_lhs => unfold readUnits
    exact if_pos rfl
  | cons c t ih =>
    rw [List.flatMap_cons, List.append_assoc, readUnits_escape, ih]
    rfl

/-- Only halves of a surrogate pair are joined. -/
lemma joinUnits_map (t : Text) : joinUnits (t.map fun c => (c, isUnitEscaped c)) = t := by
  induction t with
  | nil => rfl
  | cons c t ih =>
    cases t with
    | nil => rfl
    | cons d t =>
      have hlow : (isUnitEscaped c && isHighSurrogate c) = false := by
        unfold isUnitEscaped isHighSurrogate
        by_cases hc : c.val < 0x20
        · have hhigh : ¬0xD800 ≤ c.val := by omega
          simp [hhigh]
        · simp [hc]
      rw [List.map_cons] at ih
      rw [List.map_cons, List.map_cons, joinUnits, if_neg, ih]
      intro hjoin
      simp only [Bool.and_eq_true] at hjoin
      rw [hjoin.1.1.1, hjoin.1.2] at hlow
      cases hlow

theorem readString_quoted (t r : Text) :
    readString (t.flatMap escape ++ codePoint '"' :: r) = some (t, r) := by
  unfold readString
  rw [readUnits_quoted, Option.map_some, joinUnits_map]

/-! ### Numbers come back -/

/-- Behind a value no character of a number goes on. -/
def Delimited (r : Text) : Prop := ∀ c ∈ r.head?, isNumberChar c = false

lemma takeWhile_number (ht : ∀ c ∈ t, isNumberChar c = true) (hr : Delimited r) :
    (t ++ r).takeWhile isNumberChar = t ∧ (t ++ r).dropWhile isNumberChar = r := by
  induction t with
  | nil =>
    cases r with
    | nil => exact ⟨rfl, rfl⟩
    | cons c r =>
      have hc : ¬isNumberChar c = true := by simp [hr c rfl]
      exact ⟨List.takeWhile_cons_of_neg hc, List.dropWhile_cons_of_neg hc⟩
  | cons c t ih =>
    have hc := ht c List.mem_cons_self
    obtain ⟨htake, hdrop⟩ := ih fun d hd => ht d (List.mem_cons_of_mem _ hd)
    rw [List.cons_append, List.takeWhile_cons_of_pos hc, List.dropWhile_cons_of_pos hc, htake,
      hdrop]
    exact ⟨rfl, rfl⟩

lemma naturalOf_map (cs : List Char) (h : ∀ c ∈ cs, c.isDigit = true) :
    naturalOf (cs.map codePoint) = Nat.ofDigitChars 10 cs 0 := by
  have hval : ∀ c : Char, c.isDigit = true → (codePoint c).val = c.toNat := by
    intro c hc
    have hle : c.toNat ≤ '9'.toNat := (Char.isDigit_iff_toNat.mp hc).2
    exact Nat.mod_eq_of_lt (hle.trans_lt (by decide))
  have hfold (n : ℕ) : (cs.map codePoint).foldl (fun n c => 10 * n + (c.val - 0x30)) n =
      Nat.ofDigitChars 10 cs n := by
    induction cs generalizing n with
    | nil => rfl
    | cons c cs ih =>
      rw [List.map_cons, List.foldl_cons, ih fun d hd => h d (List.mem_cons_of_mem _ hd),
        hval c (h c List.mem_cons_self), Nat.ofDigitChars_cons]
      rfl
  exact hfold 0

lemma naturalOf_decimal (n : ℕ) : naturalOf (decimal n) = n := by
  unfold decimal
  rw [naturalOf_map _ fun c hc => Nat.isDigit_of_mem_toDigits (by decide) (by decide) hc,
    Nat.ofDigitChars_ten_toDigits]

lemma isDigit_of_mem_decimal {n : ℕ} (h : c ∈ decimal n) : isDigit c = true := by
  obtain ⟨d, hd, rfl⟩ := List.mem_map.mp h
  have hdigit := Nat.isDigit_of_mem_toDigits (b := 10) (by decide) (by decide) hd
  have hchar := Char.isDigit_iff_toNat.mp hdigit
  have hval : (codePoint d).val = d.toNat := Nat.mod_eq_of_lt (hchar.2.trans_lt (by decide))
  have hlow : 0x30 ≤ d.toNat := hchar.1
  have hhigh : d.toNat ≤ 0x39 := hchar.2
  unfold isDigit
  rw [hval]
  simp [hlow, hhigh]

lemma decimal_ne_nil (n : ℕ) : decimal n ≠ [] := by simp [decimal]

/-- A number other than zero is written without a leading zero. -/
lemma head?_toDigits {n : ℕ} (h : 0 < n) : (Nat.toDigits 10 n).head? ≠ some '0' := by
  induction n using Nat.strongRecOn with
  | ind n ih =>
    rw [Nat.toDigits_eq_if (by decide)]
    split
    · next hlt =>
      have hall : ∀ m < 10, 0 < m → m.digitChar ≠ '0' := by decide
      simpa using hall n hlt h
    · next hge =>
      have hrest := ih (n / 10) (by omega) (by omega)
      have hne : Nat.toDigits 10 (n / 10) ≠ [] := Nat.toDigits_ne_nil
      rw [List.head?_append_of_ne_nil _ hne]
      exact hrest

lemma isNatural_decimal (n : ℕ) : isNatural (decimal n) = true := by
  have hdigits : isDigits (decimal n) = true := by
    unfold isDigits
    rw [List.all_eq_true.mpr fun c hc => isDigit_of_mem_decimal hc]
    simp [decimal_ne_nil]
  unfold isNatural
  rw [hdigits, Bool.true_and, Bool.or_eq_true]
  rcases Nat.eq_zero_or_pos n with rfl | hpos
  · exact .inl (by decide)
  · right
    have hhead := head?_toDigits hpos
    rw [bne_iff_ne]
    unfold decimal
    rw [List.head?_map]
    intro hzero
    obtain ⟨d, hd, hcode⟩ := Option.map_eq_some_iff.mp hzero
    have hmem : d ∈ Nat.toDigits 10 n := List.mem_of_mem_head? (by rw [hd]; rfl)
    have hchar := Char.isDigit_iff_toNat.mp
      (Nat.isDigit_of_mem_toDigits (b := 10) (by decide) (by decide) hmem)
    have hval : (codePoint d).val = d.toNat := Nat.mod_eq_of_lt (hchar.2.trans_lt (by decide))
    have hnat : d.toNat = 48 := by rw [← hval, hcode]; decide
    have hd0 : d = '0' := Char.toNat_inj.mp hnat
    rw [hd, hd0] at hhead
    exact hhead rfl

variable {F : Type} [FloatText F]

lemma isNumberChar_of_isDigit (h : isDigit c = true) : isNumberChar c = true := by
  simp [isNumberChar, h]

lemma head?_decimal_ne_minus (n : ℕ) : (decimal n).head? ≠ some (codePoint '-') := by
  intro h
  have hdigit := isDigit_of_mem_decimal (List.mem_of_mem_head? (by rw [h]; rfl))
  exact absurd hdigit (by decide)

lemma isNumberChar_of_mem_intText {n : ShortInt} (hc : c ∈ intText n) : isNumberChar c = true := by
  unfold intText at hc
  split at hc
  · rcases List.mem_cons.mp hc with rfl | hc
    · decide
    · exact isNumberChar_of_isDigit (isDigit_of_mem_decimal hc)
  · exact isNumberChar_of_isDigit (isDigit_of_mem_decimal hc)

/-- A written integer has a digit. -/
lemma intText_ne (n : ShortInt) : intText n ≠ [] ∧ intText n ≠ [codePoint '-'] := by
  unfold intText
  split
  · exact ⟨by simp, by simp [decimal_ne_nil]⟩
  · refine ⟨decimal_ne_nil _, fun h => head?_decimal_ne_minus n.val.natAbs ?_⟩
    rw [h]
    rfl

theorem readNumber_intText (n : ShortInt) (hr : Delimited r) :
    readNumber (F := F) (intText n ++ r) = some (.int n, r) := by
  obtain ⟨htake, hdrop⟩ := takeWhile_number (fun c => isNumberChar_of_mem_intText) hr
  have hliteral : isIntLiteral (intText n) = true := by
    unfold isIntLiteral intText dropSign
    split
    · simp [isNatural_decimal]
    · have hhead := head?_decimal_ne_minus n.val.natAbs
      rw [if_neg, isNatural_decimal]
      intro hany
      obtain ⟨d, hd, heq⟩ := (Option.any_eq_true _ _).mp hany
      rw [hd] at hhead
      exact hhead (by rw [beq_iff_eq.mp heq])
  have hread : intOf (intText n) = some n := by
    unfold intOf intText
    split
    · next hneg =>
      have hval : -(naturalOf (codePoint '-' :: decimal n.val.natAbs).tail : Int) = n.val := by
        rw [List.tail_cons, naturalOf_decimal]
        omega
      simp only [List.head?_cons, if_true, hval]
      rw [dif_pos n.short]
    · next hpos =>
      have hval : (naturalOf (decimal n.val.natAbs) : Int) = n.val := by
        rw [naturalOf_decimal]
        omega
      simp only [head?_decimal_ne_minus, if_false, hval]
      rw [dif_pos n.short]
  unfold readNumber
  rw [htake, hdrop]
  simp only [hliteral, if_true, hread, Option.map_some]

theorem readNumber_float (x : F) (hr : Delimited r) :
    readNumber (FloatText.repr x ++ r) = some (.float (.finite x), r) := by
  obtain ⟨htake, hdrop⟩ := takeWhile_number (FloatText.number x) hr
  have hliteral := FloatText.literal x
  have hint : isIntLiteral (FloatText.repr x) = false := by
    by_contra hnat
    rw [Bool.not_eq_false] at hnat
    unfold isFloatLiteral at hliteral
    simp only [Bool.and_eq_true, Bool.not_eq_true'] at hliteral
    unfold isIntLiteral isNatural isDigits at hnat
    simp only [Bool.and_eq_true] at hnat
    have hnone := List.dropWhile_eq_nil_iff.mpr (List.all_eq_true.mp hnat.1.2)
    rw [hnone] at hliteral
    exact absurd hliteral.1.2 (by decide)
  unfold readNumber
  rw [htake, hdrop]
  simp only [hint, Bool.false_eq_true, if_false, hliteral, if_true, FloatText.read_repr]

omit [FloatText F] in
lemma readConstant_number (ht : ∀ c ∈ t, isNumberChar c = true) (hne : t ≠ [])
    (hsign : t ≠ [codePoint '-']) : readConstant (F := F) (t ++ r) = none := by
  obtain ⟨c, t, rfl⟩ := List.exists_cons_of_ne_nil hne
  have hhead (d : CodePoint) (hd : isNumberChar d = false) (c' : CodePoint)
      (hc : isNumberChar c' = true) : ¬d = c' := by
    rintro rfl
    rw [hc] at hd
    cases hd
  have hc := ht c List.mem_cons_self
  have hn := hhead (codePoint 'n') (by decide) c hc
  have htrue := hhead (codePoint 't') (by decide) c hc
  have hfalse := hhead (codePoint 'f') (by decide) c hc
  have hnan := hhead (codePoint 'N') (by decide) c hc
  have hinf := hhead (codePoint 'I') (by decide) c hc
  have hminus : ¬(ofString "-Infinity").isPrefixOf (c :: t ++ r) = true := by
    cases t with
    | nil =>
      have hc' : ¬codePoint '-' = c := fun h => hsign (by rw [h])
      simp [ofString, List.isPrefixOf, hc']
    | cons d t =>
      have hd := hhead (codePoint 'I') (by decide) d (ht d (by simp))
      simp [ofString, List.isPrefixOf, hd]
  unfold readConstant constants
  rw [List.find?_cons_of_neg, List.find?_cons_of_neg, List.find?_cons_of_neg,
    List.find?_cons_of_neg, List.find?_cons_of_neg, List.find?_cons_of_neg]
  · rfl
  · exact hminus
  · simp [ofString, List.isPrefixOf, hinf]
  · simp [ofString, List.isPrefixOf, hnan]
  · simp [ofString, List.isPrefixOf, hfalse]
  · simp [ofString, List.isPrefixOf, htrue]
  · simp [ofString, List.isPrefixOf, hn]

/-! ### Values come back -/

omit [FloatText F] in
lemma set_of_not_mem {m : Entries F} {key : Text} (v : Json F) (h : key ∉ Entries.keys m) :
    Entries.set m key v = m ++ [(key, v)] := by
  induction m with
  | nil => rfl
  | cons e m ih =>
    obtain ⟨k, w⟩ := e
    have hne : k ≠ key := fun hk => h (by simp [Entries.keys, hk])
    have hrest : key ∉ Entries.keys m := fun hmem => h (List.mem_cons_of_mem _ hmem)
    rw [Entries.set, if_neg hne, ih hrest]
    rfl

omit [FloatText F] in
/-- Pairs with different keys are the dictionary. -/
lemma ofPairs_of_nodup {m : Entries F} (h : (Entries.keys m).Nodup) : Entries.ofPairs m = m := by
  have hfold (a m : Entries F) (ha : (Entries.keys (a ++ m)).Nodup) :
      m.foldl (fun m e => Entries.set m e.1 e.2) a = a ++ m := by
    induction m generalizing a with
    | nil => rw [List.foldl_nil, List.append_nil]
    | cons e m ih =>
      have hnot : e.1 ∉ Entries.keys a := by
        unfold Entries.keys at ha
        rw [List.map_append, List.map_cons, List.nodup_append] at ha
        exact fun hmem => ha.2.2 _ hmem _ List.mem_cons_self rfl
      rw [List.foldl_cons, set_of_not_mem _ hnot, ih]
      · simp
      · simpa using ha
  exact hfold [] m (by simpa using h)

mutual

/-- Every dictionary has each key once. -/
def Distinct : Json F → Prop
  | .list items => DistinctItems items
  | .dict entries => (Entries.keys entries).Nodup ∧ DistinctEntries entries
  | _ => True

def DistinctItems : List (Json F) → Prop
  | [] => True
  | item :: items => Distinct item ∧ DistinctItems items

def DistinctEntries : List (Text × Json F) → Prop
  | [] => True
  | (_, v) :: entries => Distinct v ∧ DistinctEntries entries

end

mutual

/-- The steps that reading a value takes. -/
def cost : Json F → ℕ
  | .list items => 1 + costItems items
  | .dict entries => 1 + costEntries entries
  | _ => 1

def costItems : List (Json F) → ℕ
  | [] => 0
  | item :: items => 1 + cost item + costItems items

def costEntries : List (Text × Json F) → ℕ
  | [] => 0
  | (_, v) :: entries => 1 + cost v + costEntries entries

end

/-- A written float has a digit. -/
lemma repr_ne (x : F) : FloatText.repr x ≠ [] ∧ FloatText.repr x ≠ [codePoint '-'] := by
  have hliteral := FloatText.literal x
  constructor
  · intro h
    rw [h] at hliteral
    exact absurd hliteral (by decide)
  · intro h
    rw [h] at hliteral
    exact absurd hliteral (by decide)

lemma number_start (hne : t ≠ []) (ht : ∀ c ∈ t, isNumberChar c = true) :
    ∃ c u, t = c :: u ∧ isJsonSpace c = false ∧ c ≠ codePoint ']' ∧ c ≠ codePoint '"' ∧
      c ≠ codePoint '[' ∧ c ≠ codePoint '\x7b' := by
  obtain ⟨c, u, rfl⟩ := List.exists_cons_of_ne_nil hne
  have hc := ht c List.mem_cons_self
  have hout (d : CodePoint) (hd : isNumberChar d = false) : c ≠ d := by
    rintro rfl
    rw [hc] at hd
    cases hd
  refine ⟨c, u, rfl, ?_, hout _ (by decide), hout _ (by decide), hout _ (by decide),
    hout _ (by decide)⟩
  simp [isJsonSpace, hout (codePoint ' ') (by decide), hout (codePoint '\t') (by decide),
    hout (codePoint '\n') (by decide), hout (codePoint '\r') (by decide)]

/-- How a value starts. -/
lemma exists_encode_cons (v : Json F) :
    ∃ c t, encode v = c :: t ∧ isJsonSpace c = false ∧ c ≠ codePoint ']' := by
  cases v with
  | null => exact ⟨codePoint 'n', ofString "ull", rfl, by decide, by decide⟩
  | bool b =>
    cases b with
    | false => exact ⟨codePoint 'f', ofString "alse", rfl, by decide, by decide⟩
    | true => exact ⟨codePoint 't', ofString "rue", rfl, by decide, by decide⟩
  | int n =>
    obtain ⟨c, u, heq, hspace, hclose, -⟩ :=
      number_start (intText_ne n).1 fun c => isNumberChar_of_mem_intText
    exact ⟨c, u, heq, hspace, hclose⟩
  | float x =>
    cases x with
    | finite x =>
      obtain ⟨c, u, heq, hspace, hclose, -⟩ := number_start (repr_ne x).1 (FloatText.number x)
      exact ⟨c, u, heq, hspace, hclose⟩
    | infinite negative =>
      cases negative with
      | false => exact ⟨codePoint 'I', ofString "nfinity", rfl, by decide, by decide⟩
      | true => exact ⟨codePoint '-', ofString "Infinity", rfl, by decide, by decide⟩
    | nan => exact ⟨codePoint 'N', ofString "aN", rfl, by decide, by decide⟩
  | str t => exact ⟨codePoint '"', _, rfl, by decide, by decide⟩
  | list items => exact ⟨codePoint '[', _, rfl, by decide, by decide⟩
  | dict entries => exact ⟨codePoint '\x7b', _, rfl, by decide, by decide⟩

lemma skipSpace_cons (h : isJsonSpace c = false) : skipSpace (c :: t) = c :: t :=
  dropWhile_eq_self_of_head h

lemma skipSpace_encode (v : Json F) (r : Text) : skipSpace (encode v ++ r) = encode v ++ r := by
  obtain ⟨c, t, heq, hspace, -⟩ := exists_encode_cons v
  rw [heq, List.cons_append, skipSpace_cons hspace]

/-- A value that is no string, list or dictionary. -/
lemma readValue_scalar {fuel : ℕ} (hquote : c ≠ codePoint '"') (hlist : c ≠ codePoint '[')
    (hdict : c ≠ codePoint '\x7b') :
    readValue (F := F) (fuel + 1) (c :: t) =
      (readConstant (c :: t)).or (readNumber (c :: t)) := by
  rw [readValue, if_neg hquote, if_neg hlist, if_neg hdict]

lemma readValue_number {v : Json F} {fuel : ℕ} (hne : t ≠ []) (hsign : t ≠ [codePoint '-'])
    (ht : ∀ c ∈ t, isNumberChar c = true) (hread : readNumber (t ++ r) = some (v, r)) :
    readValue (fuel + 1) (t ++ r) = some (v, r) := by
  have hnone := readConstant_number (F := F) (r := r) ht hne hsign
  obtain ⟨c, u, rfl, -, -, hquote, hlist, hdict⟩ := number_start hne ht
  rw [List.cons_append] at hnone hread ⊢
  rw [readValue_scalar hquote hlist hdict, hnone, hread]
  rfl

theorem readValue_scalars {v : Json F} {fuel : ℕ} (hr : Delimited r)
    (hlist : ∀ items, v ≠ .list items) (hdict : ∀ entries, v ≠ .dict entries) :
    readValue (fuel + 1) (encode v ++ r) = some (v, r) := by
  cases v with
  | null => exact readValue_scalar (by decide) (by decide) (by decide)
  | bool b =>
    cases b with
    | false => exact readValue_scalar (by decide) (by decide) (by decide)
    | true => exact readValue_scalar (by decide) (by decide) (by decide)
  | int n =>
    exact readValue_number (intText_ne n).1 (intText_ne n).2
      (fun c => isNumberChar_of_mem_intText) (readNumber_intText n hr)
  | float x =>
    cases x with
    | finite x =>
      exact readValue_number (repr_ne x).1 (repr_ne x).2 (FloatText.number x)
        (readNumber_float x hr)
    | infinite negative =>
      cases negative with
      | false => exact readValue_scalar (by decide) (by decide) (by decide)
      | true => exact readValue_scalar (by decide) (by decide) (by decide)
    | nan => exact readValue_scalar (by decide) (by decide) (by decide)
  | str t =>
    change readValue (fuel + 1) (quoted t ++ r) = _
    unfold quoted
    rw [List.cons_append, List.cons_append, readValue, if_pos rfl, List.append_assoc,
      List.singleton_append, readString_quoted]
    rfl
  | list items => exact absurd rfl (hlist items)
  | dict entries => exact absurd rfl (hdict entries)

lemma delimited_cons (h : isNumberChar c = false) : Delimited (c :: t) := by
  intro d hd
  obtain rfl : c = d := by simpa using hd
  exact h

omit [FloatText F] in
lemma one_le_cost (v : Json F) : 1 ≤ cost v := by
  cases v with
  | list items =>
    rw [cost]
    omega
  | dict entries =>
    rw [cost]
    omega
  | _ => exact Nat.le_refl 1

/-- Behind an item comes a comma or the closing bracket. -/
lemma delimited_encodeItems (items : List (Json F)) (r : Text) :
    Delimited (encodeItems items ++ codePoint ']' :: r) := by
  cases items with
  | nil => exact delimited_cons (by decide)
  | cons item items => exact delimited_cons (by decide)

lemma delimited_encodeEntries (entries : Entries F) (r : Text) :
    Delimited (encodeEntries entries ++ codePoint '\x7d' :: r) := by
  cases entries with
  | nil => exact delimited_cons (by decide)
  | cons e entries => exact delimited_cons (by decide)

lemma readItems_cons {fuel : ℕ} {v : Json F} {items : List (Json F)}
    (hv : readValue fuel (encode v ++ (encodeItems items ++ codePoint ']' :: r)) =
      some (v, encodeItems items ++ codePoint ']' :: r))
    (hrest : ∀ w ws, items = w :: ws →
      readItems fuel (encode w ++ (encodeItems ws ++ codePoint ']' :: r)) = some (w :: ws, r)) :
    readItems (fuel + 1) (encode v ++ (encodeItems items ++ codePoint ']' :: r)) =
      some (v :: items, r) := by
  rw [readItems, hv]
  dsimp only
  cases items with
  | nil =>
    change (match skipSpace (codePoint ']' :: r) with
      | [] => none
      | c :: t => _) = _
    rw [skipSpace_cons (by decide)]
    exact if_pos rfl
  | cons w ws =>
    rw [encodeItems, List.cons_append, List.cons_append, skipSpace_cons (by decide)]
    dsimp only
    rw [if_neg (by decide), if_pos rfl, List.append_assoc, skipSpace_encode, hrest w ws rfl]
    rfl

/-- The text of an entry without the comma in front of it. -/
def encodeEntry (key : Text) (v : Json F) : Text := quoted key ++ codePoint ':' :: encode v

lemma encodeEntry_append (key : Text) (v : Json F) (r : Text) :
    encodeEntry key v ++ r =
      codePoint '"' :: (key.flatMap escape ++ codePoint '"' :: codePoint ':' :: (encode v ++ r)) := by
  simp [encodeEntry, quoted]

lemma encodeEntries_cons (key : Text) (v : Json F) (entries : Entries F) (r : Text) :
    encodeEntries ((key, v) :: entries) ++ r =
      codePoint ',' :: (encodeEntry key v ++ (encodeEntries entries ++ r)) := by
  simp [encodeEntries, encodeEntry]

lemma readEntries_cons {fuel : ℕ} {key : Text} {v : Json F} {entries : Entries F}
    (hv : readValue fuel (encode v ++ (encodeEntries entries ++ codePoint '\x7d' :: r)) =
      some (v, encodeEntries entries ++ codePoint '\x7d' :: r))
    (hrest : ∀ k w es, entries = (k, w) :: es →
      readEntries fuel (encodeEntry k w ++ (encodeEntries es ++ codePoint '\x7d' :: r)) =
        some ((k, w) :: es, r)) :
    readEntries (fuel + 1)
        (encodeEntry key v ++ (encodeEntries entries ++ codePoint '\x7d' :: r)) =
      some ((key, v) :: entries, r) := by
  have hquote : isJsonSpace (codePoint '"') = false := by decide
  rw [encodeEntry_append, readEntries, if_pos rfl, readString_quoted]
  dsimp only
  rw [skipSpace_cons (by decide)]
  dsimp only
  rw [if_pos rfl, skipSpace_encode, hv]
  dsimp only
  cases entries with
  | nil =>
    change (match skipSpace (codePoint '\x7d' :: r) with
      | [] => none
      | c :: t => _) = _
    rw [skipSpace_cons (by decide)]
    exact if_pos rfl
  | cons e es =>
    obtain ⟨k, w⟩ := e
    have hnext := hrest k w es rfl
    rw [encodeEntries_cons, skipSpace_cons (by decide)]
    dsimp only
    rw [encodeEntry_append] at hnext ⊢
    rw [if_neg (by decide), if_pos rfl, skipSpace_cons hquote, hnext]
    rfl

/-- With as many steps as a value costs, reading its text gives the value back. -/
theorem readValue_encode (fuel : ℕ) :
    (∀ (v : Json F) r, Distinct v → cost v ≤ fuel → Delimited r →
      readValue fuel (encode v ++ r) = some (v, r)) ∧
    (∀ (v : Json F) items r, DistinctItems (v :: items) → costItems (v :: items) ≤ fuel →
      readItems fuel (encode v ++ (encodeItems items ++ codePoint ']' :: r)) =
        some (v :: items, r)) ∧
    ∀ key (v : Json F) entries r, DistinctEntries ((key, v) :: entries) →
      costEntries ((key, v) :: entries) ≤ fuel →
      readEntries fuel (encodeEntry key v ++ (encodeEntries entries ++ codePoint '\x7d' :: r)) =
        some ((key, v) :: entries, r) := by
  induction fuel with
  | zero =>
    refine ⟨fun v r _ hcost _ => ?_, fun v items r _ hcost => ?_, fun key v entries r _ hcost => ?_⟩
    · have hone := one_le_cost v
      omega
    · rw [costItems] at hcost
      omega
    · rw [costEntries] at hcost
      omega
  | succ fuel ih =>
    obtain ⟨ihValue, ihItems, ihEntries⟩ := ih
    refine ⟨fun v r hdist hcost hr => ?_, fun v items r hdist hcost => ?_,
      fun key v entries r hdist hcost => ?_⟩
    · by_cases hlist : ∃ items, v = .list items
      · obtain ⟨items, rfl⟩ := hlist
        rw [encode, List.cons_append, List.cons_append, readValue, if_neg (by decide), if_pos rfl]
        cases items with
        | nil => rfl
        | cons w ws =>
          rw [cost] at hcost
          rw [Distinct] at hdist
          have hread := ihItems w ws r hdist (by omega)
          rw [encodeItems, List.cons_append, List.tail_cons, List.append_assoc, List.append_assoc,
            List.singleton_append, skipSpace_encode]
          obtain ⟨c, t, heq, -, hclose⟩ := exists_encode_cons w
          rw [heq, List.cons_append] at hread ⊢
          dsimp only
          rw [if_neg hclose, hread]
          rfl
      · by_cases hdict : ∃ entries, v = .dict entries
        · obtain ⟨entries, rfl⟩ := hdict
          rw [encode, List.cons_append, List.cons_append, readValue, if_neg (by decide),
            if_neg (by decide), if_pos rfl]
          cases entries with
          | nil => rfl
          | cons e es =>
            obtain ⟨k, w⟩ := e
            rw [cost] at hcost
            rw [Distinct] at hdist
            have hread := ihEntries k w es r hdist.2 (by omega)
            have htail (s : Text) : (encodeEntries ((k, w) :: es)).tail ++ s =
                encodeEntry k w ++ (encodeEntries es ++ s) := by
              simp [encodeEntries, encodeEntry]
            rw [List.append_assoc, List.singleton_append, htail]
            rw [encodeEntry_append] at hread ⊢
            rw [skipSpace_cons (by decide)]
            dsimp only
            rw [if_neg (by decide), hread, Option.map_some, ofPairs_of_nodup hdist.1]
        · exact readValue_scalars hr (fun items h => hlist ⟨items, h⟩)
            fun entries h => hdict ⟨entries, h⟩
    · rw [costItems] at hcost
      rw [DistinctItems] at hdist
      apply readItems_cons
      · exact ihValue v _ hdist.1 (by omega) (delimited_encodeItems items r)
      · rintro w ws rfl
        exact ihItems w ws r hdist.2 (by omega)
    · rw [costEntries] at hcost
      rw [DistinctEntries] at hdist
      apply readEntries_cons
      · exact ihValue v _ hdist.1 (by omega) (delimited_encodeEntries entries r)
      · rintro k w es rfl
        exact ihEntries k w es r hdist.2 (by omega)

lemma one_le_length_encode (v : Json F) : 1 ≤ (encode v).length := by
  obtain ⟨c, t, heq, -⟩ := exists_encode_cons v
  rw [heq, List.length_cons]
  omega

mutual

/-- Every step of the reader takes a character. -/
theorem cost_le_length : ∀ v : Json F, cost v ≤ (encode v).length
  | .list items => by
    have hitems := costItems_le_length items
    rw [cost, encode]
    simp only [List.length_append, List.length_cons, List.length_tail, List.length_nil]
    omega
  | .dict entries => by
    have hentries := costEntries_le_length entries
    rw [cost, encode]
    simp only [List.length_append, List.length_cons, List.length_tail, List.length_nil]
    omega
  | .null => one_le_length_encode .null
  | .bool b => one_le_length_encode (.bool b)
  | .int n => one_le_length_encode (.int n)
  | .float x => one_le_length_encode (.float x)
  | .str t => one_le_length_encode (.str t)

theorem costItems_le_length : ∀ items : List (Json F),
    costItems items ≤ (encodeItems items).length
  | [] => Nat.le_refl 0
  | v :: items => by
    have hv := cost_le_length v
    have hitems := costItems_le_length items
    rw [costItems, encodeItems]
    simp only [List.length_append, List.length_cons]
    omega

theorem costEntries_le_length : ∀ entries : List (Text × Json F),
    costEntries entries ≤ (encodeEntries entries).length
  | [] => Nat.le_refl 0
  | (key, v) :: entries => by
    have hv := cost_le_length v
    have hentries := costEntries_le_length entries
    rw [costEntries, encodeEntries]
    simp only [List.length_append, List.length_cons]
    omega

end

theorem loads_encode {v : Json F} (h : Distinct v) : loads (encode v) = some v := by
  have hcost := cost_le_length v
  have hread := (readValue_encode ((encode v).length + 1)).1 v [] h (by omega) (by simp [Delimited])
  have hskip := skipSpace_encode v []
  rw [List.append_nil] at hread hskip
  unfold loads
  rw [hskip, hread]
  exact if_pos rfl

omit [FloatText F] in
lemma keys_sortEntries (m : Entries F) : (Entries.keys (sortEntries m)).Perm (Entries.keys m) :=
  (List.perm_insertionSort _ m).map _

omit [FloatText F] in
lemma keys_sortKeysEntries (m : Entries F) : Entries.keys (sortKeysEntries m) = Entries.keys m := by
  induction m with
  | nil => rfl
  | cons e m ih =>
    obtain ⟨k, v⟩ := e
    unfold Entries.keys at ih ⊢
    rw [sortKeysEntries, List.map_cons, List.map_cons, ih]

omit [FloatText F] in
lemma distinctEntries_iff {m : Entries F} : DistinctEntries m ↔ ∀ e ∈ m, Distinct e.2 := by
  induction m with
  | nil => exact ⟨fun _ => by simp, fun _ => trivial⟩
  | cons e m ih =>
    obtain ⟨k, v⟩ := e
    rw [DistinctEntries, ih, List.forall_mem_cons]

omit [FloatText F] in
mutual

theorem distinct_sortKeys : ∀ v : Json F, Distinct v → Distinct (sortKeys v)
  | .list items, h => distinctItems_sortKeys items h
  | .dict entries, h => by
    rw [Distinct] at h
    rw [sortKeys, Distinct]
    refine ⟨?_, ?_⟩
    · rw [(keys_sortEntries _).nodup_iff, keys_sortKeysEntries]
      exact h.1
    · rw [distinctEntries_iff]
      intro e he
      have hmem : e ∈ sortKeysEntries entries := (List.perm_insertionSort _ _).mem_iff.mp he
      exact distinctEntries_iff.mp (distinctEntries_sortKeys entries h.2) e hmem
  | .null, _ => trivial
  | .bool _, _ => trivial
  | .int _, _ => trivial
  | .float _, _ => trivial
  | .str _, _ => trivial

theorem distinctItems_sortKeys : ∀ items : List (Json F), DistinctItems items →
    DistinctItems (sortKeysItems items)
  | [], _ => trivial
  | v :: items, h => ⟨distinct_sortKeys v h.1, distinctItems_sortKeys items h.2⟩

theorem distinctEntries_sortKeys : ∀ entries : List (Text × Json F), DistinctEntries entries →
    DistinctEntries (sortKeysEntries entries)
  | [], _ => trivial
  | (_, v) :: entries, h => ⟨distinct_sortKeys v h.1, distinctEntries_sortKeys entries h.2⟩

end

/-- What was written comes back, with its keys in order. -/
theorem loads_dumps {v : Json F} (h : Distinct v) : loads (dumps v) = some (sortKeys v) :=
  loads_encode (distinct_sortKeys v h)

/-- The text tells the value up to the order of keys. -/
theorem dumps_injective {v w : Json F} (hv : Distinct v) (hw : Distinct w)
    (h : dumps v = dumps w) : sortKeys v = sortKeys w := by
  have hload := loads_dumps hv
  rw [h, loads_dumps hw] at hload
  exact (Option.some.inj hload).symm

end Python

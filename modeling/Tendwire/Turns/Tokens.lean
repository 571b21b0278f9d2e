import Mathlib.Algebra.Order.Ring.Rat
import Mathlib.Tactic.Ring
import Tendwire.Python.Encodable
import Tendwire.Python.Equality
import Tendwire.Public.Ascii
import Tendwire.Public.Resanitized
import Tendwire.Strings.Base64
import Tendwire.Transition.Fallible
import Tendwire.Turns.Listing

/-!
# Opaque tokens

A token is a tag and the base64url text of a JSON mapping. What is common to all kinds: how the
mapping is written, how it is read back, and how long the text may be.
-/

namespace Tendwire.Tokens

open Strings Python Public

/-- Why a token is not made or not taken. -/
inductive TokenError where
  | invalidCursor
  | invalidWatermark
  | cursorExpired
  | expiredCursor
  | crossHostWatermark
  | incompatibleSchema
  | invalidContentField
  | invalidSegmentIndex
  /-- A text with a lone surrogate has no UTF-8. -/
  | unicodeEncode
  /-- An integer has too many digits to be written. -/
  | intTooLong
  /-- A list or a mapping is looked up in a set. -/
  | unhashable
  /-- `hmac.compare_digest` takes ASCII texts only. -/
  | notAscii
  deriving DecidableEq, Repr

/-- The interpreter: its character tables and its digest. -/
structure Runtime (F : Type) where
  tables : Tables
  sha256 : List UInt8 → Vector UInt8 32

def ensure (b : Bool) (e : TokenError) : Except TokenError Unit := if b then .ok () else .error e

def required {α : Type} (e : TokenError) (x : Option α) : Except TokenError α :=
  x.elim (.error e) .ok

@[simp] lemma ensure_eq_ok {b : Bool} {e : TokenError} {u : Unit} :
    ensure b e = .ok u ↔ b = true := by
  cases b <;> simp [ensure]

@[simp] lemma required_eq_ok {α : Type} {e : TokenError} {x : Option α} {a : α} :
    required e x = .ok a ↔ x = some a := by
  cases x <;> simp [required]

variable {F : Type}

/-! ### Parts of a mapping -/

/-- A value of a token's mapping. -/
inductive Part where
  | number (n : ℤ)
  | text (t : Text)
  /-- Where a page ends: worker, sequence and turn. -/
  | place (workerId : Text) (sequence : ℤ) (turnId : Text)

abbrev Parts := List (String × Part)

/-- The integer, if it has few enough digits. -/
def shortInt (n : ℤ) : Option ShortInt :=
  if h : (Nat.toDigits 10 n.natAbs).length ≤ maxIntDigits then some ⟨n, h⟩ else none

def Part.json : Part → Option (Json F)
  | number n => (shortInt n).map .int
  | text t => some (.str t)
  | place workerId sequence turnId =>
    (shortInt sequence).map fun n => .list [.str workerId, .int n, .str turnId]

def jsonEntries : Parts → Option (Entries F)
  | [] => some []
  | (key, part) :: parts =>
    part.json.bind fun v => (jsonEntries parts).map fun m => (ofString key, v) :: m

/-! ### Writing -/

section

variable [FloatText F] (R : Runtime F)

/-- `stable_json_dumps(mapping).encode("utf-8")`. -/
def stableBytes (parts : Parts) : Except TokenError (List UInt8) := do
  let entries ← required .intTooLong (jsonEntries (F := F) parts)
  required .unicodeEncode (utf8 (stableJsonDumps R.tables (.dict entries)))

/-- `_domain_digest`. -/
def domainDigest (domain : String) (material : Parts) : Except TokenError Text := do
  let bytes ← stableBytes R (("domain", .text (ofString domain)) :: material)
  .ok (base64url (R.sha256 bytes).toList)

/-- `f"{tag}{_base64url(stable_json_dumps(body).encode("utf-8"))}"`. -/
def tokenOf (tag : String) (body : Parts) : Except TokenError Text := do
  let bytes ← stableBytes R body
  .ok (ofString tag ++ base64url bytes)

/-! ### Reading -/

/-- The mapping in a token whose encoding has at most `cap` characters. -/
def tokenBody (tag : String) (cap : ℕ) (token : Text) : Option (Entries F) :=
  let encoded := token.drop (ofString tag).length
  if (ofString tag).isPrefixOf token = false ∨ encoded = [] ∨ cap < encoded.length ∨
      encoded.all (base64Alphabet.contains ·) = false then none
  else (b64decode encoded).bind fun raw =>
    if base64url raw ≠ encoded then none
    else (decodeUtf8 raw).bind fun text => (loads text).bind Json.dict?

/-- `_decode_turn_list_token`. -/
def decodeToken (tag : String) (cap : ℕ) (status : TokenError) (token : Text) :
    Except TokenError (Entries F) := required status (tokenBody tag cap token)

end

/-- `set(body) == keys`. -/
def hasKeys (m : Entries F) (keys : List String) : Bool :=
  (Entries.keys m).all (fun key => (keys.map ofString).contains key) &&
    (keys.map ofString).all (Entries.keys m).contains

/-- `value == n`, which also holds of a boolean and of a float. -/
def equalsNumber [FloatText F] (n : ℕ) : Option (Json F) → Bool
  | some (.int m) => m.val == n
  | some (.bool b) => b.toNat == n
  | some (.float (.finite x)) => FloatText.repr x == decimal n ++ ofString ".0"
  | _ => false

/-- `isinstance(value, int) and not isinstance(value, bool) and value >= 0`. -/
def nonnegative? : Json F → Option ℤ
  | .int n => if 0 ≤ n.val then some n.val else none
  | _ => none

def numberAt (m : Entries F) (key : String) : Option ℤ :=
  (Entries.get? m (ofString key)).bind nonnegative?

def textAt (m : Entries F) (key : String) : Option Text :=
  (Entries.get? m (ofString key)).bind Json.str?

def nonEmptyTextAt (m : Entries F) (key : String) : Option Text :=
  (textAt m key).filter (· ≠ [])

/-- `[worker, sequence, turn]` with a turn. -/
def placeAt (m : Entries F) (key : String) : Option (Text × ℤ × Text) :=
  match Entries.get? m (ofString key) with
  | some (.list [.str workerId, sequence, .str turnId]) =>
    (nonnegative? sequence).bind fun n => if turnId = [] then none else some (workerId, n, turnId)
  | _ => none

/-- `hmac.compare_digest`. -/
def compareDigest (a b : Text) : Except TokenError Bool :=
  if isAscii a && isAscii b then .ok (a == b) else .error .notAscii

/-! ### What is written -/

def letters : List String :=
  ["a", "b", "c", "e", "f", "g", "h", "i", "l", "m", "n", "p", "q", "r", "s", "v", "w", "x", "z"]

/-- The keys of a token's mapping are letters in their order. -/
def Lettered (keys : List String) : Prop :=
  (keys.map ofString).Pairwise (· < ·) ∧ ∀ key ∈ keys, key ∈ letters

instance (keys : List String) : Decidable (Lettered keys) :=
  inferInstanceAs (Decidable (_ ∧ _))

/-- No forbidden name is as short as a letter, with its underscores or without. -/
lemma length_forbidden {name : Text} (h : name ∈ forbiddenNames ∨ name ∈ forbiddenCompact) :
    2 ≤ name.length := by
  have hall : ∀ name ∈ forbiddenFieldNames,
      (name.toByteArray.data.toList.all fun b => b.toNat < 0x80) = true ∧
      2 ≤ (compact (name.toByteArray.data.toList.map fun b =>
        codePoint (Char.ofNat b.toNat))).length := by
    decide +kernel
  have hshort {name : Text} (h : name ∈ forbiddenNames) : 2 ≤ (compact name).length := by
    obtain ⟨spelled, hmem, rfl⟩ := List.mem_map.mp h
    obtain ⟨hascii, hlength⟩ := hall spelled hmem
    rw [ofString_of_ascii hascii]
    exact hlength
  rcases h with h | h
  · exact (hshort h).trans (List.length_filter_le _ name)
  · obtain ⟨plain, hplain, rfl⟩ := List.mem_map.mp h
    exact hshort hplain

lemma admitted_of_letter (T : Tables) {key : String} (h : key ∈ letters) :
    isForbiddenFieldName T (ofString key) = false := by
  have hall : ∀ key ∈ letters, isAscii (ofString key) = true ∧
      (normalizedName asciiTables (ofString key)).length = 1 := by decide
  obtain ⟨hascii, hlength⟩ := hall key h
  have hcompact := List.length_filter_le (· ≠ underscore)
    (normalizedName asciiTables (ofString key))
  rw [isForbiddenFieldName_ascii T asciiTables hascii, isForbiddenFieldName, Bool.or_eq_false_iff]
  constructor
  · rw [List.contains_eq_mem, decide_eq_false_iff_not]
    intro hmem
    have := length_forbidden (.inl hmem)
    omega
  · rw [List.contains_eq_mem, decide_eq_false_iff_not]
    intro hmem
    have := length_forbidden (.inr hmem)
    rw [compact] at this
    omega

lemma keys_jsonEntries {parts : Parts} {m : Entries F} (h : jsonEntries parts = some m) :
    Entries.keys m = (parts.map Prod.fst).map ofString := by
  induction parts generalizing m with
  | nil =>
    obtain rfl : [] = m := Option.some.inj h
    rfl
  | cons e parts ih =>
    obtain ⟨key, part⟩ := e
    obtain ⟨v, -, hrest⟩ := Option.bind_eq_some_iff.mp h
    obtain ⟨n, hn, rfl⟩ := Option.map_eq_some_iff.mp hrest
    exact congrArg (ofString key :: ·) (ih hn)

lemma plain_json (T : Tables) {part : Part} {v : Json F} (h : part.json = some v) :
    sortKeys v = v ∧ KeysAdmitted T v ∧ Distinct v := by
  cases part with
  | number n =>
    obtain ⟨k, -, rfl⟩ := Option.map_eq_some_iff.mp h
    exact ⟨rfl, trivial, trivial⟩
  | text t =>
    obtain rfl := Option.some.inj h
    exact ⟨rfl, trivial, trivial⟩
  | place workerId sequence turnId =>
    obtain ⟨k, -, rfl⟩ := Option.map_eq_some_iff.mp h
    exact ⟨rfl, ⟨trivial, trivial, trivial, trivial⟩, trivial, trivial, trivial, trivial⟩

lemma plain_jsonEntries (T : Tables) {parts : Parts} {m : Entries F}
    (hkeys : ∀ key ∈ parts.map Prod.fst, key ∈ letters) (h : jsonEntries parts = some m) :
    sortKeysEntries m = m ∧ KeysAdmittedEntries T m ∧ DistinctEntries m := by
  induction parts generalizing m with
  | nil =>
    obtain rfl : [] = m := Option.some.inj h
    exact ⟨rfl, trivial, trivial⟩
  | cons e parts ih =>
    obtain ⟨key, part⟩ := e
    obtain ⟨v, hv, hrest⟩ := Option.bind_eq_some_iff.mp h
    obtain ⟨n, hn, rfl⟩ := Option.map_eq_some_iff.mp hrest
    obtain ⟨hsorted, hadmitted, hdistinct⟩ :=
      ih (fun key hkey => hkeys key (List.mem_cons_of_mem _ hkey)) hn
    obtain ⟨hvalue, hplain, hv⟩ := plain_json T hv
    have hkey := admitted_of_letter T (hkeys key List.mem_cons_self)
    refine ⟨?_, ⟨⟨hkey, hplain⟩, hadmitted⟩, hv, hdistinct⟩
    rw [sortKeysEntries, hvalue, hsorted]

section

variable [FloatText F] {R : Runtime F} {tag : String} {cap : ℕ} {parts : Parts} {m : Entries F}
  {token : Text}

/-- The mapping of a token is written as it stands. -/
lemma stableJsonDumps_parts (T : Tables) (hkeys : Lettered (parts.map Prod.fst))
    (h : jsonEntries parts = some m) :
    sortKeys (.dict m) = .dict m ∧ stableJsonDumps T (.dict m) = encode (.dict m) := by
  obtain ⟨hvalues, hadmitted, -⟩ := plain_jsonEntries T hkeys.2 h
  have hordered : (Entries.keys m).Pairwise (· < ·) := by
    rw [keys_jsonEntries h]
    exact hkeys.1
  have hnodup : (Entries.keys m).Nodup := hordered.imp fun h => ne_of_lt h
  have hsorted : sortKeys (.dict m) = .dict m := by
    rw [sortKeys, hvalues, Entries.sortEntries_eq_of_get? hnodup hordered fun _ => rfl]
  refine ⟨hsorted, ?_⟩
  have hsame : sanitizeForbiddenFields T (.dict m) = .dict m :=
    sanitizeForbiddenFields_eq_self T (.dict m) hadmitted
  rw [stableJsonDumps, hsame, dumps, hsorted]

lemma stableBytes_eq_ok {bytes : List UInt8} (hkeys : Lettered (parts.map Prod.fst)) :
    stableBytes R parts = .ok bytes ↔
      ∃ m : Entries F, jsonEntries parts = some m ∧ utf8 (encode (.dict m)) = some bytes := by
  unfold stableBytes
  simp only [Transition.bind_eq_ok, required_eq_ok]
  refine exists_congr fun m => and_congr_right fun hm => ?_
  rw [(stableJsonDumps_parts R.tables hkeys hm).2]

lemma tokenOf_eq_ok (hkeys : Lettered (parts.map Prod.fst)) :
    tokenOf R tag parts = .ok token ↔ ∃ (m : Entries F) (bytes : List UInt8),
      jsonEntries parts = some m ∧ utf8 (encode (.dict m)) = some bytes ∧
        token = ofString tag ++ base64url bytes := by
  unfold tokenOf
  simp only [Transition.bind_eq_ok, stableBytes_eq_ok hkeys, Except.ok.injEq]
  constructor
  · rintro ⟨bytes, ⟨m, hm, hbytes⟩, rfl⟩
    exact ⟨m, bytes, hm, hbytes, rfl⟩
  · rintro ⟨m, bytes, hm, hbytes, rfl⟩
    exact ⟨bytes, ⟨m, hm, hbytes⟩, rfl⟩

/-! ### What is read -/

/-- A token is read from the text that it encodes. -/
theorem tokenBody_eq_some : tokenBody tag cap token = some m ↔
    ∃ (raw : List UInt8) (text : Text), token = ofString tag ++ base64url raw ∧
      4 * raw.length ≤ 3 * cap ∧ utf8 text = some raw ∧ loads text = some (.dict m) := by
  have hdict (v : Option (Json F)) : v.bind Json.dict? = some m ↔ v = some (.dict m) := by
    cases v with
    | none => simp
    | some v => cases v <;> simp [Json.dict?]
  unfold tokenBody
  dsimp only
  constructor
  · intro h
    split at h
    · cases h
    next hshape =>
    obtain ⟨raw, -, h⟩ := Option.bind_eq_some_iff.mp h
    split at h
    · cases h
    next hcanonical =>
    rw [not_not] at hcanonical
    obtain ⟨text, htext, hloads⟩ := Option.bind_eq_some_iff.mp h
    simp only [not_or, Bool.not_eq_false, not_lt] at hshape
    obtain ⟨htagged, -, hcap, -⟩ := hshape
    obtain ⟨encoded, rfl⟩ := List.isPrefixOf_iff_prefix.mp htagged
    rw [List.drop_left] at hcap hcanonical
    refine ⟨raw, text, by rw [hcanonical], ?_, decodeUtf8_eq_some_iff.mp htext,
      (hdict _).mp hloads⟩
    rw [← length_base64url_le_iff, hcanonical]
    exact hcap
  · rintro ⟨raw, text, rfl, hcap, htext, hloads⟩
    have hne : base64url raw ≠ [] := by
      rw [Ne, base64url_eq_nil_iff]
      rintro rfl
      have hempty := length_utf8 htext
      cases text with
      | nil => cases hloads
      | cons c t =>
        rw [utf8Length_cons, List.length_nil] at hempty
        have hwidth : 0 < utf8Width c := by
          unfold utf8Width
          split_ifs <;> omega
        omega
    have hall : (base64url raw).all (base64Alphabet.contains ·) = true :=
      List.all_eq_true.mpr fun c hc => List.contains_iff_mem.mpr (mem_base64Alphabet hc)
    rw [List.drop_left, if_neg, b64decode_base64url, Option.bind_some,
      if_neg (not_not_intro rfl), decodeUtf8_eq_some_iff.mpr htext, Option.bind_some, hloads]
    · rfl
    · simp only [not_or, Bool.not_eq_false, not_lt]
      exact ⟨List.isPrefixOf_iff_prefix.mpr (List.prefix_append _ _), hne,
        length_base64url_le_iff.mpr hcap, hall⟩

/-! ### What can be written -/

/-- The texts of a part have UTF-8 and its numbers have few enough digits. -/
def Part.Writable : Part → Prop
  | number n => (shortInt n).isSome = true
  | text t => encodable t = true
  | place workerId sequence turnId =>
    encodable workerId = true ∧ (shortInt sequence).isSome = true ∧ encodable turnId = true

omit [FloatText F] in
lemma encodes_writable (T : Tables) {part : Part} (h : part.Writable) :
    ∃ v : Json F, part.json = some v ∧ Encodes (sanitizeForbiddenFields T v) := by
  cases part with
  | number n =>
    obtain ⟨k, hk⟩ := Option.isSome_iff_exists.mp h
    exact ⟨.int k, by rw [Part.json, hk, Option.map_some], trivial⟩
  | text t => exact ⟨.str t, rfl, h⟩
  | place workerId sequence turnId =>
    obtain ⟨hworker, hsequence, hturn⟩ := h
    obtain ⟨k, hk⟩ := Option.isSome_iff_exists.mp hsequence
    exact ⟨.list [.str workerId, .int k, .str turnId], by rw [Part.json, hk, Option.map_some],
      hworker, trivial, hturn, trivial⟩

omit [FloatText F] in
lemma encodable_of_isAscii {t : Text} (h : isAscii t = true) : encodable t = true := by
  refine List.all_eq_true.mpr fun c hc => ?_
  rw [not_isSurrogate_of_lt (isAscii_iff.mp h c hc)]
  rfl

/-- Writable parts are written. -/
theorem exists_stableBytes (h : ∀ e ∈ parts, e.2.Writable) :
    ∃ bytes, stableBytes R parts = .ok bytes := by
  have hentries : ∃ m : Entries F, jsonEntries parts = some m ∧
      EncodesEntries (sanitizeForbiddenEntries R.tables m) := by
    induction parts with
    | nil => exact ⟨[], rfl, trivial⟩
    | cons e parts ih =>
      obtain ⟨key, part⟩ := e
      obtain ⟨v, hv, hencodes⟩ := encodes_writable (F := F) R.tables (h _ List.mem_cons_self)
      obtain ⟨m, hm, hrest⟩ := ih fun e he => h e (List.mem_cons_of_mem _ he)
      refine ⟨(ofString key, v) :: m, ?_, ?_⟩
      · rw [jsonEntries, hv, Option.bind_some, hm, Option.map_some]
      · rw [sanitizeForbiddenEntries]
        split
        · exact hrest
        · exact ⟨⟨encodable_map_codePoint _, hencodes⟩, hrest⟩
  obtain ⟨m, hm, hencodes⟩ := hentries
  have hsome : (utf8 (stableJsonDumps R.tables (.dict m))).isSome = true := by
    rw [stableJsonDumps, isSome_utf8_dumps_iff]
    exact hencodes
  obtain ⟨bytes, hbytes⟩ := Option.isSome_iff_exists.mp hsome
  refine ⟨bytes, ?_⟩
  unfold stableBytes
  exact Transition.bind_eq_ok.mpr ⟨m, required_eq_ok.mpr hm, required_eq_ok.mpr hbytes⟩

lemma exists_domainDigest (domain : String) (material : Parts)
    (h : ∀ e ∈ material, e.2.Writable) :
    ∃ digest, domainDigest R domain material = .ok digest := by
  have hall : ∀ e ∈ (("domain", .text (ofString domain)) :: material : Parts), e.2.Writable :=
    List.forall_mem_cons.mpr ⟨encodable_map_codePoint _, h⟩
  obtain ⟨bytes, hbytes⟩ := exists_stableBytes (R := R) hall
  exact ⟨_, Transition.bind_eq_ok.mpr ⟨bytes, hbytes, rfl⟩⟩

lemma exists_tokenOf (tag : String) (parts : Parts) (h : ∀ e ∈ parts, e.2.Writable) :
    ∃ token, tokenOf R tag parts = .ok token := by
  obtain ⟨bytes, hbytes⟩ := exists_stableBytes (R := R) h
  exact ⟨_, Transition.bind_eq_ok.mpr ⟨bytes, hbytes, rfl⟩⟩

/-! ### How long it is -/

/-- The bytes of a text inside a JSON string. -/
def escapedLength (t : Text) : ℕ := utf8Length (t.flatMap escape)

/-- The characters of an integer, its sign included. -/
def digitCount (n : ℤ) : ℕ := (if n < 0 then 1 else 0) + (Nat.toDigits 10 n.natAbs).length

def Part.length : Part → ℕ
  | number n => digitCount n
  | text t => 2 + escapedLength t
  | place workerId sequence turnId =>
    8 + escapedLength workerId + digitCount sequence + escapedLength turnId

/-- The bytes of a mapping whose keys are letters. -/
def bodyLength (parts : Parts) : ℕ := 1 + (parts.map fun e => 5 + e.2.length).sum

lemma utf8Length_quoted (t : Text) : utf8Length (quoted t) = 2 + escapedLength t := by
  have hquote : utf8Width (codePoint '"') = 1 := by decide
  unfold quoted escapedLength
  rw [utf8Length_append, utf8Length_cons, utf8Length_cons, utf8Length_nil, hquote]
  omega

lemma utf8Length_ascii {t : Text} (h : isAscii t = true) : utf8Length t = t.length := by
  induction t with
  | nil => rfl
  | cons c t ih =>
    rw [isAscii, List.all_cons, Bool.and_eq_true, decide_eq_true_eq] at h
    rw [utf8Length_cons, utf8Width, if_pos h.1, ih h.2, List.length_cons]
    omega

lemma utf8Length_intText (n : ShortInt) : utf8Length (intText n) = digitCount n.val := by
  have hdecimal (k : ℕ) : utf8Length (decimal k) = (Nat.toDigits 10 k).length := by
    rw [utf8Length_ascii, decimal, List.length_map]
    refine List.all_eq_true.mpr fun c hc => ?_
    have hdigit := isDigit_of_mem_decimal hc
    simp only [Python.isDigit, Bool.and_eq_true, decide_eq_true_eq] at hdigit
    rw [decide_eq_true_eq]
    omega
  have hminus : utf8Width (codePoint '-') = 1 := by decide
  unfold intText digitCount
  split
  · rw [utf8Length_cons, hdecimal, hminus]
  · rw [hdecimal, zero_add]

lemma val_shortInt {n : ℤ} {k : ShortInt} (h : shortInt n = some k) : k.val = n := by
  unfold shortInt at h
  split at h
  · rw [← Option.some.inj h]
  · cases h

lemma utf8Length_part {part : Part} {v : Json F} (h : part.json = some v) :
    utf8Length (encode v) = part.length := by
  cases part with
  | number n =>
    obtain ⟨k, hk, rfl⟩ := Option.map_eq_some_iff.mp h
    rw [encode, utf8Length_intText, val_shortInt hk, Part.length]
  | text t =>
    obtain rfl := Option.some.inj h
    rw [encode, utf8Length_quoted, Part.length]
  | place workerId sequence turnId =>
    obtain ⟨k, hk, rfl⟩ := Option.map_eq_some_iff.mp h
    have hmarks : utf8Width (codePoint '[') = 1 ∧ utf8Width (codePoint ',') = 1 ∧
        utf8Width (codePoint ']') = 1 := by decide
    simp only [encode, encodeItems, List.cons_append, List.tail_cons, List.append_nil,
      utf8Length_cons, utf8Length_append, utf8Length_quoted, utf8Length_intText, utf8Length_nil,
      hmarks, val_shortInt hk, Part.length]
    omega

lemma utf8Length_entries (hkeys : ∀ key ∈ parts.map Prod.fst, key ∈ letters)
    (h : jsonEntries parts = some m) :
    utf8Length (encodeEntries m) = (parts.map fun e => 5 + e.2.length).sum := by
  have hletter : ∀ key ∈ letters, utf8Length (quoted (ofString key)) = 3 := by decide
  have hmarks : utf8Width (codePoint ',') = 1 ∧ utf8Width (codePoint ':') = 1 := by decide
  induction parts generalizing m with
  | nil =>
    obtain rfl : [] = m := Option.some.inj h
    rfl
  | cons e parts ih =>
    obtain ⟨key, part⟩ := e
    obtain ⟨v, hv, hrest⟩ := Option.bind_eq_some_iff.mp h
    obtain ⟨n, hn, rfl⟩ := Option.map_eq_some_iff.mp hrest
    have hlength := ih (fun key hkey => hkeys key (List.mem_cons_of_mem _ hkey)) hn
    rw [encodeEntries, List.map_cons, List.sum_cons, ← hlength]
    simp only [List.cons_append, utf8Length_cons, utf8Length_append, utf8Length_part hv, hmarks,
      hletter key (hkeys key List.mem_cons_self)]
    omega

/-- The bytes of a token's mapping. -/
theorem length_encode_parts {bytes : List UInt8} (hkeys : Lettered (parts.map Prod.fst))
    (h : jsonEntries parts = some m) (hne : parts ≠ [])
    (hbytes : utf8 (encode (.dict m)) = some bytes) : bytes.length = bodyLength parts := by
  have hmarks : utf8Width (codePoint '\x7b') = 1 ∧ utf8Width (codePoint '\x7d') = 1 ∧
      utf8Width (codePoint ',') = 1 := by decide
  have hentries := utf8Length_entries hkeys.2 h
  rw [length_utf8 hbytes, bodyLength, encode, ← hentries]
  cases m with
  | nil =>
    have hnil := keys_jsonEntries h
    exact absurd (List.map_eq_nil_iff.mp (List.map_eq_nil_iff.mp hnil.symm)) hne
  | cons e m =>
    obtain ⟨key, v⟩ := e
    simp only [encodeEntries, List.cons_append, List.tail_cons, utf8Length_cons,
      utf8Length_append, utf8Length_nil, hmarks]
    omega

/-! ### Members -/

/-- The mapping has the part at the key. -/
def Holds (m : Entries F) (key : String) (part : Part) : Prop :=
  ∃ v, part.json = some v ∧ Entries.get? m (ofString key) = some v

omit [FloatText F] in
lemma exists_jsonEntries (h : ∀ e ∈ parts, ∃ v : Json F, e.2.json = some v) :
    ∃ m : Entries F, jsonEntries parts = some m := by
  induction parts with
  | nil => exact ⟨[], rfl⟩
  | cons e parts ih =>
    obtain ⟨v, hv⟩ := h e List.mem_cons_self
    obtain ⟨m, hm⟩ := ih fun e he => h e (List.mem_cons_of_mem _ he)
    exact ⟨(ofString e.1, v) :: m, by rw [jsonEntries, hv, Option.bind_some, hm, Option.map_some]⟩

omit [FloatText F] in
lemma holds_jsonEntries (hkeys : Lettered (parts.map Prod.fst)) (h : jsonEntries parts = some m) :
    ∀ e ∈ parts, Holds m e.1 e.2 := by
  have hmem : ∀ {parts : Parts} {m : Entries F}, jsonEntries parts = some m →
      ∀ e ∈ parts, ∃ v, e.2.json = some v ∧ (ofString e.1, v) ∈ m := by
    intro parts
    induction parts with
    | nil => exact fun _ e he => absurd he List.not_mem_nil
    | cons d parts ih =>
      intro m hm e he
      obtain ⟨v, hv, hrest⟩ := Option.bind_eq_some_iff.mp hm
      obtain ⟨n, hn, rfl⟩ := Option.map_eq_some_iff.mp hrest
      rcases List.mem_cons.mp he with rfl | he
      · exact ⟨v, hv, List.mem_cons_self⟩
      · obtain ⟨w, hw, hmem⟩ := ih hn e he
        exact ⟨w, hw, List.mem_cons_of_mem _ hmem⟩
  intro e he
  obtain ⟨v, hv, hin⟩ := hmem h e he
  have hnodup : (Entries.keys m).Nodup := by
    rw [keys_jsonEntries h]
    exact hkeys.1.imp fun h => ne_of_lt h
  exact ⟨v, hv, (Entries.get?_eq_some_iff hnodup).mpr hin⟩

omit [FloatText F] in
lemma nonnegative?_eq_some {v : Json F} {n : ℤ} :
    nonnegative? v = some n ↔ 0 ≤ n ∧ ∃ k, shortInt n = some k ∧ v = .int k := by
  cases v with
  | int k =>
    have hk : shortInt k.val = some k := by rw [shortInt, dif_pos k.short]
    unfold nonnegative?
    dsimp only
    constructor
    · intro h
      split at h
      · next hn =>
        obtain rfl := Option.some.inj h
        exact ⟨hn, k, hk, rfl⟩
      · cases h
    · rintro ⟨hn, l, hl, heq⟩
      obtain rfl := Json.int.inj heq
      rw [val_shortInt hl, if_pos hn]
  | _ => simp [nonnegative?]

omit [FloatText F] in
lemma numberAt_eq_some {key : String} {n : ℤ} :
    numberAt m key = some n ↔ 0 ≤ n ∧ Holds m key (.number n) := by
  unfold numberAt
  rw [Option.bind_eq_some_iff]
  constructor
  · rintro ⟨v, hv, hn⟩
    obtain ⟨hle, k, hk, rfl⟩ := nonnegative?_eq_some.mp hn
    exact ⟨hle, .int k, by rw [Part.json, hk, Option.map_some], hv⟩
  · rintro ⟨hn, v, hv, hget⟩
    obtain ⟨k, hk, rfl⟩ := Option.map_eq_some_iff.mp hv
    exact ⟨.int k, hget, nonnegative?_eq_some.mpr ⟨hn, k, hk, rfl⟩⟩

omit [FloatText F] in
lemma textAt_eq_some {key : String} {t : Text} :
    textAt m key = some t ↔ Holds m key (.text t) := by
  unfold textAt
  rw [Option.bind_eq_some_iff]
  constructor
  · rintro ⟨v, hv, ht⟩
    cases v with
    | str u =>
      obtain rfl := Option.some.inj ht
      exact ⟨.str u, rfl, hv⟩
    | _ => cases ht
  · rintro ⟨v, hv, hget⟩
    obtain rfl := Option.some.inj hv
    exact ⟨.str t, hget, rfl⟩

omit [FloatText F] in
lemma nonEmptyTextAt_eq_some {key : String} {t : Text} :
    nonEmptyTextAt m key = some t ↔ t ≠ [] ∧ Holds m key (.text t) := by
  unfold nonEmptyTextAt
  rw [Option.filter_eq_some_iff, textAt_eq_some, decide_eq_true_eq, and_comm]

omit [FloatText F] in
lemma placeAt_eq_some {key : String} {workerId turnId : Text} {sequence : ℤ} :
    placeAt m key = some (workerId, sequence, turnId) ↔
      0 ≤ sequence ∧ turnId ≠ [] ∧ Holds m key (.place workerId sequence turnId) := by
  unfold placeAt
  constructor
  · intro h
    split at h
    · next w v u hget =>
      obtain ⟨n, hn, hplace⟩ := Option.bind_eq_some_iff.mp h
      split at hplace
      · cases hplace
      next hne =>
      obtain ⟨rfl, rfl, rfl⟩ : w = workerId ∧ n = sequence ∧ u = turnId := by simpa using hplace
      obtain ⟨hle, k, hk, rfl⟩ := nonnegative?_eq_some.mp hn
      exact ⟨hle, hne, _, by rw [Part.json, hk, Option.map_some], hget⟩
    · cases h
  · rintro ⟨hn, hne, v, hv, hget⟩
    obtain ⟨k, hk, rfl⟩ := Option.map_eq_some_iff.mp hv
    rw [hget]
    dsimp only
    rw [nonnegative?_eq_some.mpr ⟨hn, k, hk, rfl⟩, Option.bind_some, if_neg hne]

lemma equalsNumber_of_holds {version : ℕ} (h : Holds m "v" (.number version)) :
    equalsNumber version (Entries.get? m (ofString "v")) = true := by
  obtain ⟨v, hv, hget⟩ := h
  obtain ⟨k, hk, rfl⟩ := Option.map_eq_some_iff.mp hv
  rw [hget, equalsNumber, val_shortInt hk, beq_self_eq_true]

omit [FloatText F] in
lemma hasKeys_jsonEntries (h : jsonEntries parts = some m) :
    hasKeys m (parts.map Prod.fst) = true := by
  unfold hasKeys
  rw [keys_jsonEntries h, Bool.and_eq_true, List.all_eq_true]
  exact ⟨fun key hkey => List.contains_iff_mem.mpr hkey,
    fun key hkey => List.contains_iff_mem.mpr hkey⟩

/-! ### Integrity -/

omit [FloatText F] in
lemma isAscii_base64url (bytes : List UInt8) : isAscii (base64url bytes) = true := by
  have hall : isAscii base64Alphabet = true := by decide
  exact isAscii_sublist hall fun c hc => mem_base64Alphabet hc

omit [FloatText F] in
/-- A digest equals itself only. -/
lemma compareDigest_eq_true {a b : Text} (hb : isAscii b = true) :
    compareDigest a b = .ok true ↔ a = b := by
  unfold compareDigest
  split
  · simp
  · next h =>
    simp only [hb, Bool.and_true, Bool.not_eq_true] at h
    simp only [reduceCtorEq, false_iff]
    rintro rfl
    rw [hb] at h
    cases h

omit [FloatText F] in
lemma escapedLength_base64url (bytes : List UInt8) :
    escapedLength (base64url bytes) = (base64url bytes).length := by
  have hplain : base64Alphabet.all (fun c => escape c == [c] && utf8Width c == 1) = true := by
    decide
  have hall (c : CodePoint) (hc : c ∈ base64Alphabet) : escape c = [c] ∧ utf8Width c = 1 := by
    simpa using List.all_eq_true.mp hplain c hc
  have hsum (t : Text) (ht : ∀ c ∈ t, c ∈ base64Alphabet) : escapedLength t = t.length := by
    unfold escapedLength
    induction t with
    | nil => rfl
    | cons c t ih =>
      obtain ⟨hc, hwidth⟩ := hall c (ht c List.mem_cons_self)
      rw [List.flatMap_cons, hc, utf8Length_append, ih fun d hd => ht d (List.mem_cons_of_mem _ hd),
        utf8Length_cons, utf8Length_nil, hwidth, List.length_cons]
      omega
  exact hsum _ fun c hc => mem_base64Alphabet hc

/-- A digest is ASCII and as long as every other one. -/
lemma digest_spec {domain : String} {material : Parts} {digest : Text}
    (h : domainDigest R domain material = .ok digest) :
    isAscii digest = true ∧ digest.length = 43 ∧ escapedLength digest = 43 := by
  unfold domainDigest at h
  obtain ⟨bytes, -, hdigest⟩ := Transition.bind_eq_ok.mp h
  obtain rfl := Except.ok.inj hdigest
  have hlength : (base64url (R.sha256 bytes).toList).length = 43 := by
    rw [length_base64url, Vector.length_toList]
  refine ⟨isAscii_base64url _, hlength, ?_⟩
  rw [escapedLength_base64url, hlength]

/-! ### There and back -/

/-- What is written for the parts is read as them. -/
lemma loads_parts (hkeys : Lettered (parts.map Prod.fst)) (h : jsonEntries parts = some m) :
    loads (encode (.dict m)) = some (.dict m) := by
  have hordered : (Entries.keys m).Pairwise (· < ·) := by
    rw [keys_jsonEntries h]
    exact hkeys.1
  obtain ⟨-, -, hvalues⟩ := plain_jsonEntries asciiTables hkeys.2 h
  exact loads_encode ⟨hordered.imp fun h => ne_of_lt h, hvalues⟩

/-- A token is read back, with all its parts, exactly while its encoding is short enough. -/
theorem tokenBody_tokenOf (cap : ℕ) (hkeys : Lettered (parts.map Prod.fst)) (hne : parts ≠ [])
    (h : tokenOf R tag parts = .ok token) : ∃ m : Entries F,
      hasKeys m (parts.map Prod.fst) = true ∧ (∀ e ∈ parts, Holds m e.1 e.2) ∧
      tokenBody tag cap token = if 4 * bodyLength parts ≤ 3 * cap then some m else none := by
  obtain ⟨m, bytes, hparts, hbytes, rfl⟩ := (tokenOf_eq_ok hkeys).mp h
  refine ⟨m, hasKeys_jsonEntries hparts, holds_jsonEntries hkeys hparts, ?_⟩
  rw [← length_encode_parts hkeys hparts hne hbytes]
  split
  · next hfits =>
    exact tokenBody_eq_some.mpr ⟨bytes, _, rfl, hfits, hbytes, loads_parts hkeys hparts⟩
  · next hlong =>
    rw [Option.eq_none_iff_forall_ne_some]
    intro n hn
    obtain ⟨raw, text, htoken, hcap, -, -⟩ := tokenBody_eq_some.mp hn
    rw [← base64url_injective (List.append_cancel_left htoken)] at hcap
    exact hlong hcap

/-- The text in the token is the one that `json.dumps` writes for its mapping, and the version in
it is an integer. -/
def Canonical (F : Type) [FloatText F] (tag : String) (version : ℕ) (token : Text) : Prop :=
  ∃ (raw : List UInt8) (text : Text) (m : Entries F), token = ofString tag ++ base64url raw ∧
    utf8 text = some raw ∧ loads text = some (.dict m) ∧ text = dumps (.dict m) ∧
    ∃ n, Entries.get? m (ofString "v") = some (.int n) ∧ n.val = version

/-- A token that has the parts of another one, versions apart, is that one if it is written as
it is. -/
theorem tokenOf_iff_canonical (version : ℕ) {k : ShortInt} (hkeys : Lettered (parts.map Prod.fst))
    (hversion : ("v", Part.number version) ∈ parts) (hk : shortInt version = some k)
    (hbody : tokenBody tag cap token = some m)
    (hmembers : hasKeys m (parts.map Prod.fst) = true)
    (hholds : ∀ e ∈ parts, e.1 ≠ "v" → Holds m e.1 e.2) :
    tokenOf R tag parts = .ok token ↔ Canonical F tag version token := by
  have hkval : k.val = version := val_shortInt hk
  obtain ⟨n, hparts⟩ : ∃ n : Entries F, jsonEntries parts = some n := by
    apply exists_jsonEntries
    intro e he
    by_cases hv : e.1 = "v"
    · have hnodup : (parts.map (ofString ∘ Prod.fst)).Nodup := by
        rw [← List.map_map]
        exact hkeys.1.imp fun h => ne_of_lt h
      obtain rfl := List.inj_on_of_nodup_map hnodup he hversion (congrArg ofString hv)
      exact ⟨.int k, by rw [Part.json, hk, Option.map_some]⟩
    · obtain ⟨v, hv, -⟩ := hholds e he hv
      exact ⟨v, hv⟩
  have hin := holds_jsonEntries hkeys hparts
  have hversion : Entries.get? n (ofString "v") = some (.int k) := by
    obtain ⟨v, hv, hget⟩ := hin _ hversion
    rw [Part.json, hk, Option.map_some] at hv
    rw [hget, hv]
  have hagree (key : String) (hkey : key ∈ parts.map Prod.fst) (hne : key ≠ "v") :
      Entries.get? m (ofString key) = Entries.get? n (ofString key) := by
    obtain ⟨e, he, rfl⟩ := List.mem_map.mp hkey
    obtain ⟨v, hv, hget⟩ := hholds e he hne
    obtain ⟨w, hw, hget'⟩ := hin e he
    rw [hget, hget', ← hv, hw]
  obtain ⟨raw, text, htoken, -, htext, hloads⟩ := tokenBody_eq_some.mp hbody
  obtain ⟨hsorted, -⟩ := stableJsonDumps_parts R.tables hkeys hparts
  rw [tokenOf_eq_ok hkeys]
  constructor
  · rintro ⟨n', bytes, hn', hbytes, htoken'⟩
    obtain rfl := Option.some.inj (hparts.symm.trans hn')
    obtain rfl := base64url_injective (List.append_cancel_left (htoken.symm.trans htoken'))
    have hsame := utf8_injective htext hbytes
    refine ⟨raw, text, n, htoken, htext, ?_, ?_, k, hversion, hkval⟩
    · rw [hsame, loads_parts hkeys hparts]
    · rw [dumps, hsorted, hsame]
  · rintro ⟨raw', text', m', htoken', htext', hloads', hdumps, l, hl, hlval⟩
    obtain rfl := base64url_injective (List.append_cancel_left (htoken.symm.trans htoken'))
    obtain rfl := utf8_injective htext htext'
    obtain rfl := Json.dict.inj (Option.some.inj (hloads.symm.trans hloads'))
    have hv : l = k := by
      have hval : l.val = k.val := hlval.trans hkval.symm
      cases l
      cases k
      obtain rfl := hval
      rfl
    simp only [hasKeys, Bool.and_eq_true, List.all_eq_true, List.contains_iff_mem] at hmembers
    have hget (key : Text) : Entries.get? m key = Entries.get? n key := by
      by_cases hkey : key ∈ (parts.map Prod.fst).map ofString
      · obtain ⟨letter, hletter, rfl⟩ := List.mem_map.mp hkey
        by_cases hisv : letter = "v"
        · rw [hisv, hl, hversion, hv]
        · exact hagree letter hletter hisv
      · rw [Entries.get?_eq_none_iff.mpr fun hmem => hkey (hmembers.1 key hmem),
          Entries.get?_eq_none_iff.mpr (by rw [keys_jsonEntries hparts]; exact hkey)]
    have hordered : (Entries.keys n).Pairwise (· < ·) := by
      rw [keys_jsonEntries hparts]
      exact hkeys.1
    obtain ⟨hvalues, -, -⟩ := plain_jsonEntries R.tables hkeys.2 hparts
    -- The values are the plain ones of the parts, so sorting their keys changes nothing.
    have hmapping : sortKeys (.dict m) = .dict n := by
      rw [sortKeys]
      congr 1
      apply Entries.sortEntries_eq_of_get? ?_ hordered
      · intro key
        rw [get?_sortKeysEntries, hget, ← get?_sortKeysEntries, hvalues]
      · rw [keys_sortKeysEntries]
        exact nodup_keys_of_loads hloads
    refine ⟨n, raw, hparts, ?_, htoken⟩
    rw [← hmapping, ← dumps, ← hdumps, htext]

end

end Tendwire.Tokens

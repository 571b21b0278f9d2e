import Tendwire.Strings.CodePoints
import Mathlib.Data.List.Lex
import Mathlib.Data.List.Sort

/-!
# JSON values and their text

Values as `json.loads` builds them, over texts of code points, and the compact text that
`json.dumps` writes for them.
-/

namespace Python

open Strings

/-- `sys.get_int_max_str_digits()`. -/
def maxIntDigits : ℕ := 4300

/-- An integer within the digits that the interpreter turns into text and back. -/
structure ShortInt where
  val : Int
  short : (Nat.toDigits 10 val.natAbs).length ≤ maxIntDigits
deriving DecidableEq

/-! ### Numbers -/

def digitOf (c : CodePoint) : Option ℕ :=
  if 0x30 ≤ c.val ∧ c.val ≤ 0x39 then some (c.val - 0x30) else none

def isDigit (c : CodePoint) : Bool := 0x30 ≤ c.val && c.val ≤ 0x39

/-- The characters that numbers are written with. -/
def isNumberChar (c : CodePoint) : Bool :=
  isDigit c || c == codePoint '-' || c == codePoint '+' || c == codePoint '.' ||
    c == codePoint 'e' || c == codePoint 'E'

/-- `[0-9]+` to the end of the text. -/
def isDigits (t : Text) : Bool := !t.isEmpty && t.all isDigit

/-- `0|[1-9][0-9]*`. -/
def isNatural (t : Text) : Bool := isDigits t && (t.length == 1 || t.head? != some (codePoint '0'))

def dropSign (sign : CodePoint → Bool) (t : Text) : Text :=
  if t.head?.any sign then t.tail else t

def isIntLiteral (t : Text) : Bool := isNatural (dropSign (· == codePoint '-') t)

/-- `([eE][-+]?[0-9]+)?`. -/
def isExponent (t : Text) : Bool :=
  t.isEmpty || (t.head?.any (fun c => c == codePoint 'e' || c == codePoint 'E') &&
    isDigits (dropSign (fun c => c == codePoint '-' || c == codePoint '+') t.tail))

/-- `(\.[0-9]+)?([eE][-+]?[0-9]+)?`. -/
def isFraction (t : Text) : Bool :=
  if t.head? = some (codePoint '.') then
    isDigits (t.tail.takeWhile isDigit) && isExponent (t.tail.dropWhile isDigit)
  else isExponent t

def isFloatLiteral (t : Text) : Bool :=
  let unsigned := dropSign (· == codePoint '-') t
  isNatural (unsigned.takeWhile isDigit) && !(unsigned.dropWhile isDigit).isEmpty &&
    isFraction (unsigned.dropWhile isDigit)

def naturalOf (t : Text) : ℕ := t.foldl (fun n c => 10 * n + (c.val - 0x30)) 0

def decimal (n : ℕ) : Text := (Nat.toDigits 10 n).map codePoint

def intText (n : ShortInt) : Text :=
  if n.val < 0 then codePoint '-' :: decimal n.val.natAbs else decimal n.val.natAbs

/-- `int(literal)`, which fails on too many digits. -/
def intOf (t : Text) : Option ShortInt :=
  let n : Int := if t.head? = some (codePoint '-') then -(naturalOf t.tail : Int) else naturalOf t
  if h : (Nat.toDigits 10 n.natAbs).length ≤ maxIntDigits then some ⟨n, h⟩ else none

/-- A float of the interpreter, over its finite values. -/
inductive Float (F : Type) where
  | finite (x : F)
  | infinite (negative : Bool)
  | nan
deriving DecidableEq

/-- The finite floats: how they are written, and how a literal is read. -/
class FloatText (F : Type) where
  repr : F → Text
  read : Text → Float F
  literal : ∀ x, isFloatLiteral (repr x) = true
  number : ∀ x, ∀ c ∈ repr x, isNumberChar c = true
  read_repr : ∀ x, read (repr x) = .finite x

/-! ### Values -/

inductive Json (F : Type) where
  | null
  | bool (b : Bool)
  | int (n : ShortInt)
  | float (x : Float F)
  | str (t : Text)
  | list (items : List (Json F))
  | dict (entries : List (Text × Json F))

/-- The entries of a dictionary in insertion order. -/
abbrev Entries (F : Type) := List (Text × Json F)

namespace Json

variable {F : Type}

def str? : Json F → Option Text
  | str t => some t
  | _ => none

def dict? : Json F → Option (Entries F)
  | dict entries => some entries
  | _ => none

def ofOption (t : Option Text) : Json F := t.elim null str

end Json

namespace Entries

variable {F : Type}

def get? (m : Entries F) (key : Text) : Option (Json F) := m.lookup key

/-- `m[key] = v`: a key that is there keeps its place. -/
def set : Entries F → Text → Json F → Entries F
  | [], key, v => [(key, v)]
  | (k, w) :: m, key, v => if k = key then (key, v) :: m else (k, w) :: set m key v

def keys (m : Entries F) : List Text := m.map Prod.fst

/-- The dictionary of the pairs, the last one of a key wins. -/
def ofPairs (pairs : List (Text × Json F)) : Entries F :=
  pairs.foldl (fun m e => set m e.1 e.2) []

@[simp] lemma get?_nil (key : Text) : Entries.get? ([] : Entries F) key = none := rfl

lemma get?_cons (k : Text) (v : Json F) (m : Entries F) (key : Text) :
    Entries.get? ((k, v) :: m) key = if key = k then some v else Entries.get? m key := by
  unfold Entries.get?
  rw [List.lookup_cons]
  by_cases h : key = k
  · have hb : (key == k) = true := by simpa using h
    rw [hb, if_pos h]
  · have hb : (key == k) = false := by simpa using h
    rw [hb, if_neg h]

lemma get?_set (m : Entries F) (key : Text) (v : Json F) (k : Text) :
    Entries.get? (Entries.set m key v) k = if k = key then some v else Entries.get? m k := by
  induction m with
  | nil => rw [Entries.set, get?_cons]
  | cons e m ih =>
    obtain ⟨a, w⟩ := e
    by_cases h : a = key
    · subst h
      rw [Entries.set, if_pos rfl, get?_cons, get?_cons]
      split <;> rfl
    · rw [Entries.set, if_neg h, get?_cons, get?_cons, ih]
      by_cases hk : k = a
      · subst hk
        rw [if_pos rfl, if_pos rfl, if_neg h]
      · rw [if_neg hk, if_neg hk]

lemma get?_set_of_ne {m : Entries F} {key k : Text} (v : Json F) (h : k ≠ key) :
    Entries.get? (Entries.set m key v) k = Entries.get? m k := by
  rw [get?_set, if_neg h]

end Entries

/-! ### Encoding -/

def hexDigits : List Char :=
  ['0', '1', '2', '3', '4', '5', '6', '7', '8', '9', 'a', 'b', 'c', 'd', 'e', 'f']

def hexDigit (n : ℕ) : CodePoint := codePoint (hexDigits.getD (n % 16) '0')

/-- `ESCAPE_DCT`, for texts that need not be ASCII. -/
def escape (c : CodePoint) : Text :=
  if c = codePoint '"' then ofString "\\\""
  else if c = codePoint '\\' then ofString "\\\\"
  else if c = codePoint '\n' then ofString "\\n"
  else if c = codePoint '\r' then ofString "\\r"
  else if c = codePoint '\t' then ofString "\\t"
  else if c.val = 0x0C then ofString "\\f"
  else if c.val = 0x08 then ofString "\\b"
  else if c.val < 0x20 then ofString "\\u00" ++ [hexDigit (c.val / 16), hexDigit c.val]
  else [c]

def quoted (t : Text) : Text := codePoint '"' :: t.flatMap escape ++ [codePoint '"']

section Encode

variable {F : Type} [FloatText F]

def encodeFloat : Float F → Text
  | .finite x => FloatText.repr x
  | .infinite false => ofString "Infinity"
  | .infinite true => ofString "-Infinity"
  | .nan => ofString "NaN"

mutual

/-- The compact text of a value, keys in the order they have. -/
def encode : Json F → Text
  | .null => ofString "null"
  | .bool true => ofString "true"
  | .bool false => ofString "false"
  | .int n => intText n
  | .float x => encodeFloat x
  | .str t => quoted t
  | .list items => codePoint '[' :: (encodeItems items).tail ++ [codePoint ']']
  | .dict entries => codePoint '\x7b' :: (encodeEntries entries).tail ++ [codePoint '\x7d']

/-- The items, each behind a comma. -/
def encodeItems : List (Json F) → Text
  | [] => []
  | item :: items => codePoint ',' :: encode item ++ encodeItems items

def encodeEntries : List (Text × Json F) → Text
  | [] => []
  | (key, v) :: entries =>
    codePoint ',' :: quoted key ++ codePoint ':' :: encode v ++ encodeEntries entries

end

def sortEntries (m : Entries F) : Entries F := m.insertionSort fun a b => a.1 ≤ b.1

mutual

/-- The value with the keys of every mapping in order. -/
def sortKeys : Json F → Json F
  | .list items => .list (sortKeysItems items)
  | .dict entries => .dict (sortEntries (sortKeysEntries entries))
  | v => v

def sortKeysItems : List (Json F) → List (Json F)
  | [] => []
  | item :: items => sortKeys item :: sortKeysItems items

def sortKeysEntries : List (Text × Json F) → List (Text × Json F)
  | [] => []
  | (key, v) :: entries => (key, sortKeys v) :: sortKeysEntries entries

end

/-- `json.dumps(value, ensure_ascii=False, sort_keys=True, separators=(",", ":"))`. -/
def dumps (v : Json F) : Text := encode (sortKeys v)

end Encode

end Python

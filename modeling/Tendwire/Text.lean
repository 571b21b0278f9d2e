import Mathlib.Data.List.Basic

/-!
# Text

The string operations of the source language that the stores rely on.
-/

namespace Tendwire

abbrev Bytes := List UInt8

/-- The characters that `str.strip()` removes. -/
def isWhitespace (c : Char) : Bool :=
  (0x09 ≤ c.toNat && c.toNat ≤ 0x0D) || (0x1C ≤ c.toNat && c.toNat ≤ 0x20) || c.toNat == 0x85 ||
    c.toNat == 0xA0 || c.toNat == 0x1680 || (0x2000 ≤ c.toNat && c.toNat ≤ 0x200A) ||
    c.toNat == 0x2028 || c.toNat == 0x2029 || c.toNat == 0x202F || c.toNat == 0x205F ||
    c.toNat == 0x3000

def strip (text : String) : String :=
  String.ofList ((text.toList.dropWhile isWhitespace).reverse.dropWhile isWhitespace).reverse

def isLowerHexDigit (c : Char) : Bool := ('0' ≤ c && c ≤ '9') || ('a' ≤ c && c ≤ 'f')

/-- `text.replace(a, b)` for single characters. -/
def replaceChar (a b : Char) (text : String) : String :=
  String.ofList (text.toList.map fun c => if c = a then b else c)

/-- `" ".join(text.split())`. -/
def collapseSpaces (text : String) : String :=
  String.ofList ([' '].intercalate ((text.toList.splitOnP isWhitespace).filter (!·.isEmpty)))

/-- `text[:n]`, in code points. -/
def prefixChars (n : Nat) (text : String) : String := String.ofList (text.toList.take n)

/-- `text[-n:]`. -/
def suffixChars (n : Nat) (text : String) : String :=
  String.ofList (text.toList.drop (text.toList.length - n))

example : strip " req-1\n" = "req-1" := by decide

end Tendwire

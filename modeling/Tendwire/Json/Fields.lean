import Mathlib.Data.List.Basic
import Mathlib.Tactic.Common

/-!
# JSON values and mappings

A mapping keeps its entries in insertion order, and two mappings are the same when they
answer every key alike. Each operation is described by what it does to `get?`.
-/

namespace Json

/-- A number with a fraction is the text it was read from. -/
inductive Value where
  | null
  | bool (b : Bool)
  | int (n : Int)
  | float (literal : String)
  | text (s : String)
  | array (items : List Value)
  | object (fields : List (String × Value))

abbrev Fields := List (String × Value)

namespace Value

def bool? : Value → Option Bool
  | bool b => some b
  | _ => none

def text? : Value → Option String
  | text s => some s
  | _ => none

def int? : Value → Option Int
  | int n => some n
  | _ => none

def object? : Value → Option Fields
  | object m => some m
  | _ => none

/-- `bool(value)`. A float is zero when its mantissa has no other digit. -/
def truthy : Value → Bool
  | null => false
  | bool b => b
  | int n => n != 0
  | float literal => (literal.toList.takeWhile fun c => c != 'e' && c != 'E').any fun c =>
      '1' ≤ c && c ≤ '9'
  | text s => s != ""
  | array items => !items.isEmpty
  | object m => !m.isEmpty

def ofText? (t : Option String) : Value := t.elim null text

def ofBool? (b : Option Bool) : Value := b.elim null bool

@[simp]
lemma bool?_ofBool? (b : Option Bool) : (ofBool? b).bool? = b := by
  cases b <;> rfl

mutual

/-- `a == b`: a boolean equals its integer, and the order of a mapping does not matter. -/
def same : Value → Value → Bool
  | null, null => true
  | bool a, bool b => a == b
  | bool a, int n => n == if a then 1 else 0
  | int n, bool b => n == if b then 1 else 0
  | int m, int n => m == n
  | float a, float b => a == b
  | text a, text b => a == b
  | array as, array bs => sameItems as bs
  | object m, object n => m.length == n.length && sameFields m n
  | _, _ => false

def sameItems : List Value → List Value → Bool
  | [], [] => true
  | a :: as, b :: bs => same a b && sameItems as bs
  | _, _ => false

def sameFields : List (String × Value) → List (String × Value) → Bool
  | [], _ => true
  | (key, a) :: m, n =>
    (match n.lookup key with
    | some b => same a b
    | none => false) && sameFields m n

end

/-- `m.get(key) == value`, where an absent key answers `None`. -/
def sameEntry (entry : Option Value) (v : Value) : Bool := same (entry.getD null) v

end Value

namespace Fields

def get? (m : Fields) (key : String) : Option Value := m.lookup key

/-- `m[key] = v`: a key that is there keeps its place. -/
def set : Fields → String → Value → Fields
  | [], key, v => [(key, v)]
  | (k, w) :: m, key, v => if k = key then (key, v) :: m else (k, w) :: set m key v

def erase (m : Fields) (key : String) : Fields := m.filter (fun e => e.1 != key)

/-- `m.setdefault(key, v)`. -/
def setDefault (m : Fields) (key : String) (v : Value) : Fields :=
  if (m.get? key).isSome then m else m.set key v

/-- `m.update(n)`. -/
def update (m n : Fields) : Fields := n.foldr (fun e acc => acc.set e.1 e.2) m

@[simp]
lemma get?_nil (key : String) : get? [] key = none := rfl

lemma get?_cons (k : String) (v : Value) (m : Fields) (key : String) :
    get? ((k, v) :: m) key = if key = k then some v else get? m key := by
  by_cases h : key = k
  · simp [get?, h]
  · have hb : (key == k) = false := by simpa using h
    simp [get?, List.lookup_cons, h, hb]

lemma get?_append_of_none {m n : Fields} {key : String} (hm : m.get? key = none)
    (hn : n.get? key = none) : Fields.get? (m ++ n) key = none := by
  induction m with
  | nil => exact hn
  | cons e m ih =>
    obtain ⟨k, v⟩ := e
    rw [Fields.get?_cons] at hm
    split at hm
    · cases hm
    · next hk => rw [List.cons_append, Fields.get?_cons, if_neg hk, ih hm]

lemma get?_set (m : Fields) (key : String) (v : Value) (k : String) :
    (m.set key v).get? k = if k = key then some v else m.get? k := by
  induction m with
  | nil => simp [set, get?_cons]
  | cons e m ih =>
    obtain ⟨a, w⟩ := e
    by_cases h : a = key
    · subst h
      by_cases hk : k = a
      · simp [set, get?_cons, hk]
      · simp [set, get?_cons, hk]
    · simp only [set, h, if_false, get?_cons, ih]
      by_cases hk : k = a
      · subst hk
        simp [h]
      · simp [hk]

@[simp]
lemma get?_set_self (m : Fields) (key : String) (v : Value) : (m.set key v).get? key = some v := by
  simp [get?_set]

lemma get?_set_of_ne (m : Fields) {key k : String} (v : Value) (h : k ≠ key) :
    (m.set key v).get? k = m.get? k := by
  simp [get?_set, h]

lemma get?_erase (m : Fields) (key k : String) :
    (m.erase key).get? k = if k = key then none else m.get? k := by
  induction m with
  | nil => simp [erase]
  | cons e m ih =>
    obtain ⟨a, w⟩ := e
    simp only [erase] at ih ⊢
    by_cases h : a = key
    · subst h
      rw [List.filter_cons_of_neg (by simp), ih, get?_cons]
      by_cases hk : k = a
      · simp [hk]
      · simp [hk]
    · rw [List.filter_cons_of_pos (by simpa using h), get?_cons, get?_cons, ih]
      by_cases hk : k = a
      · subst hk
        simp [h]
      · simp [hk]

lemma get?_update (m n : Fields) (k : String) :
    (m.update n).get? k = (n.get? k).or (m.get? k) := by
  induction n with
  | nil => rfl
  | cons e n ih =>
    obtain ⟨a, v⟩ := e
    change ((m.update n).set a v).get? k = _
    rw [get?_set, get?_cons, ih]
    by_cases h : k = a
    · simp [h]
    · simp [h]

/-- Two mappings that agree on a key still agree on it after the same update. -/
lemma get?_update_congr (n : Fields) {m m' : Fields} {k : String} (h : m.get? k = m'.get? k) :
    (m.update n).get? k = (m'.update n).get? k := by
  rw [get?_update, get?_update, h]

lemma get?_update_of_none (n m : Fields) {k : String} (h : n.get? k = none) :
    (m.update n).get? k = m.get? k := by
  rw [get?_update, h, Option.none_or]

end Fields

end Json

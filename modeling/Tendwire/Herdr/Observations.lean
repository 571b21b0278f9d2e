import Tendwire.Collections.FirstSeen
import Tendwire.Turns.PublicTurn

/-!
# Herdr observations

The items of an agent or a pane list, the fields that are looked up in them under several
spellings, and the record that a worker is observed as.
-/

namespace Tendwire

open Json

/-- A character that lower case leaves alone. -/
def isPlainNameChar (c : Char) : Bool := ('a' ≤ c && c ≤ 'z') || c == '_'

/-- The text rules of an adapter, with the digests that private identities go through. -/
structure ObservationRules extends TextRules where
  /-- `private_stable_sha256`, cut to a fingerprint. -/
  privateStableDigest : Value → String
  /-- `_private_fingerprint`. -/
  adapterDigest : Value → String
  /-- `json.dumps(item, sort_keys=True)`. -/
  observationJson : Value → String
  lower_plain : ∀ text : String, text.toList.all isPlainNameChar = true → lower text = text

structure ObservationConfig where
  hostId : String
  outputExcerptChars : Int

def backendName : String := "herdr"

def statusKeys : List String :=
  ["agent_status", "status", "state", "phase", "lifecycle", "lifecycle_state", "raw_status"]

def forbiddenConnectorFields : List String := [
  "telegram", "chat_id", "topic_id", "message_id", "thread_id", "token", "bot_token", "delivery",
  "route", "herdres_delivery", "backend_target"]

def turnObservationFieldNames : List String := ["turn", "turnepoch", "lastcompletedturn", "outcome"]

def removeChar (a : Char) (text : String) : String :=
  String.ofList (text.toList.filter (· != a))

/-- `a or b` of texts that may be missing. -/
def eitherText (a b : Option String) : Option String :=
  match a with
  | some text => if text = "" then b else a
  | none => b

def presentText (text : Option String) : Bool := text.any (· != "")

/-! ### Fields -/

mutual

/-- Fields are dropped by their names at every depth. -/
def stripFields (drops : String → Bool) : Value → Value
  | .object m => .object (stripFieldsMapping drops m)
  | .array items => .array (stripFieldsItems drops items)
  | v => v

def stripFieldsMapping (drops : String → Bool) : List (String × Value) → List (String × Value)
  | [] => []
  | (key, value) :: m =>
    if drops key then
      stripFieldsMapping drops m
    else
      (key, stripFields drops value) :: stripFieldsMapping drops m

def stripFieldsItems (drops : String → Bool) : List Value → List Value
  | [] => []
  | value :: items => stripFields drops value :: stripFieldsItems drops items

end

namespace ObservationRules

variable (R : ObservationRules)

def compactFieldName (key : String) : String :=
  removeChar '_' (replaceChar '.' '_' (replaceChar '-' '_' (R.lower key)))

def fieldMatches (key expected : String) : Bool :=
  R.compactFieldName key == R.compactFieldName expected

def isStatusField (key : String) : Bool := statusKeys.any (R.fieldMatches key)

def isReservedStableKeyField (key : String) : Bool :=
  (removeChar '.' (removeChar '-' (removeChar '_' (R.lower key)))).startsWith "stablekey"

def isForbiddenConnectorField (key : String) : Bool :=
  let normalized := replaceChar '.' '_' (replaceChar '-' '_' (R.lower key))
  let segments := (normalized.toList.splitOnP (· == '_')).map String.ofList
  forbiddenConnectorFields.contains normalized ||
    (forbiddenConnectorFields.map (removeChar '_')).contains (R.compactFieldName key) ||
    segments.any forbiddenConnectorFields.contains

def isTurnObservationField (key : String) : Bool :=
  turnObservationFieldNames.contains (R.compactFieldName key)

def isTurnApiVolatileKey (key : String) : Bool :=
  let normalized := replaceChar '.' '_' (replaceChar '-' '_' (R.lower (strip key)))
  ["turn", "turn_epoch", "last_completed_turn", "outcome", "state_change_seq"].contains
    normalized || normalized.startsWith "turn_"

def stripStableKeyFields (m : Fields) : Fields := stripFieldsMapping R.isReservedStableKeyField m

def stripTurnObservationFields (m : Fields) : Fields :=
  stripFieldsMapping R.isTurnObservationField m

def stripConnectorFields (m : Fields) : Fields := stripFieldsMapping R.isForbiddenConnectorField m

def stripStatusFields (v : Value) : Value := stripFields R.isStatusField v

def stripTurnApiVolatile (m : Fields) : Fields := stripFieldsMapping R.isTurnApiVolatileKey m

/-- The value under the exact key, or under the first key that is spelled like it. -/
def valueForKey (item : Fields) (expected : String) : Option Value :=
  match item.get? expected with
  | some value => some value
  | none => (item.find? fun e => R.fieldMatches e.1 expected).map Prod.snd

/-- `str(value)` of a string, a number or a truth value. -/
def scalarText : Value → Option String
  | .null | .array _ | .object _ => none
  | v => some (R.str v)

def firstText (item : Fields) (keys : List String) : Option String :=
  keys.findSome? fun key => (R.valueForKey item key).bind R.scalarText

def valueAt (value : Value) : List String → Option Value
  | [] => some value
  | key :: path =>
    match value.object? with
    | some m => (R.valueForKey m key).bind (valueAt · path)
    | none => none

def nestedText (item : Fields) (path : List String) : Option String :=
  match R.valueAt (.object item) path with
  | some (.object m) => R.firstText m ["id", "value", "name", "label"]
  | some v => R.scalarText v
  | none => none

def relatedId : Option Value → Option String
  | some (.object m) => R.firstText m ["id", "workspace_id", "space_id", "slug", "name"]
  | some v => R.scalarText v
  | none => none

lemma sizeOf_valueForKey {item : Fields} {key : String} {v : Value}
    (h : R.valueForKey item key = some v) : sizeOf v < sizeOf item := by
  have hmem : ∃ k, (k, v) ∈ item := by
    unfold valueForKey at h
    split at h
    · rename_i w hw
      obtain rfl : w = v := Option.some.inj h
      obtain ⟨before, after, rfl, -⟩ := List.lookup_eq_some_iff.mp hw
      exact ⟨key, by simp⟩
    · obtain ⟨e, he, rfl⟩ := Option.map_eq_some_iff.mp h
      exact ⟨e.1, List.mem_of_find?_eq_some he⟩
  obtain ⟨k, hmem⟩ := hmem
  have hlt := List.sizeOf_lt_of_mem hmem
  simp at hlt
  omega

/-! ### Lookups after fields are dropped -/

section Stripped

variable {drops : String → Bool} {key : String}

lemma get?_stripFieldsMapping (m : Fields) :
    Fields.get? (stripFieldsMapping drops m) key =
      if drops key then none else (Fields.get? m key).map (stripFields drops) := by
  induction m with
  | nil => simp [stripFieldsMapping]
  | cons e m ih =>
    obtain ⟨k, v⟩ := e
    by_cases hk : drops k = true
    · rw [stripFieldsMapping, if_pos hk, ih, Fields.get?_cons]
      by_cases hkey : key = k
      · simp [hkey, hk]
      · rw [if_neg hkey]
    · rw [stripFieldsMapping, if_neg hk, Fields.get?_cons, Fields.get?_cons, ih]
      by_cases hkey : key = k
      · simp [hkey, hk]
      · simp only [if_neg hkey]

lemma find?_stripFieldsMapping {p : String → Bool} (hp : ∀ k, p k = true → drops k = false)
    (m : Fields) :
    (stripFieldsMapping drops m).find? (fun e => p e.1) =
      (m.find? fun e => p e.1).map fun e => (e.1, stripFields drops e.2) := by
  induction m with
  | nil => rfl
  | cons e m ih =>
    obtain ⟨k, v⟩ := e
    by_cases hk : p k = true
    · rw [stripFieldsMapping, if_neg (by simp [hp k hk]), List.find?_cons_of_pos (by exact hk),
        List.find?_cons_of_pos (by exact hk)]
      rfl
    · rw [stripFieldsMapping, List.find?_cons_of_neg (by exact hk)]
      split
      · exact ih
      · rw [List.find?_cons_of_neg (by exact hk), ih]

/-- A lookup is not touched by dropping fields that are not spelled like it. -/
lemma valueForKey_stripFieldsMapping {m : Fields}
    (hdrops : ∀ k, R.fieldMatches k key = true → drops k = false) :
    R.valueForKey (stripFieldsMapping drops m) key =
      (R.valueForKey m key).map (stripFields drops) := by
  have hkey : drops key = false := hdrops key (by simp [fieldMatches])
  unfold valueForKey
  rw [get?_stripFieldsMapping, if_neg (by simp [hkey])]
  cases Fields.get? m key with
  | some v => rfl
  | none =>
    rw [find?_stripFieldsMapping (p := fun k => R.fieldMatches k key) hdrops, Option.map_none]
    simp only [Option.map_map]
    rfl

@[simp] lemma scalarText_stripFields (v : Value) :
    R.scalarText (stripFields drops v) = R.scalarText v := by
  cases v <;> simp [stripFields, scalarText, TextRules.str]

lemma firstText_stripFieldsMapping {m : Fields} {keys : List String}
    (hdrops : ∀ key ∈ keys, ∀ k, R.fieldMatches k key = true → drops k = false) :
    R.firstText (stripFieldsMapping drops m) keys = R.firstText m keys := by
  unfold firstText
  induction keys with
  | nil => rfl
  | cons key keys ih =>
    rw [List.findSome?_cons, List.findSome?_cons,
      R.valueForKey_stripFieldsMapping (hdrops key List.mem_cons_self), Option.bind_map,
      ih fun key hkey => hdrops key (List.mem_cons_of_mem _ hkey)]
    simp only [Function.comp_def, scalarText_stripFields]

lemma valueAt_stripFields {path : List String}
    (hdrops : ∀ key ∈ path, ∀ k, R.fieldMatches k key = true → drops k = false) (v : Value) :
    R.valueAt (stripFields drops v) path = (R.valueAt v path).map (stripFields drops) := by
  induction path generalizing v with
  | nil => rfl
  | cons key path ih =>
    have hrest := ih fun key hkey => hdrops key (List.mem_cons_of_mem _ hkey)
    cases v with
    | object m =>
      simp only [stripFields, valueAt, Value.object?,
        R.valueForKey_stripFieldsMapping (hdrops key List.mem_cons_self)]
      cases R.valueForKey m key with
      | none => rfl
      | some w => exact hrest w
    | _ => rfl

lemma nestedText_stripFieldsMapping {m : Fields} {path : List String}
    (hdrops : ∀ key ∈ path ++ ["id", "value", "name", "label"], ∀ k,
      R.fieldMatches k key = true → drops k = false) :
    R.nestedText (stripFieldsMapping drops m) path = R.nestedText m path := by
  have hpath : R.valueAt (stripFields drops (.object m)) path =
      (R.valueAt (.object m) path).map (stripFields drops) :=
    R.valueAt_stripFields (fun key hkey => hdrops key (List.mem_append_left _ hkey)) (.object m)
  have hobject : stripFields drops (.object m) = .object (stripFieldsMapping drops m) := by
    rw [stripFields]
  rw [hobject] at hpath
  unfold nestedText
  rw [hpath]
  cases R.valueAt (.object m) path with
  | none => rfl
  | some v =>
    cases v with
    | object n =>
      simp only [Option.map_some, stripFields]
      exact R.firstText_stripFieldsMapping fun key hkey => hdrops key (List.mem_append_right _ hkey)
    | _ => simp [stripFields, scalarText, TextRules.str]

/-- A plain name is its own lower case. -/
lemma compactFieldName_plain (h : key.toList.all isPlainNameChar = true) :
    R.compactFieldName key = removeChar '_' (replaceChar '.' '_' (replaceChar '-' '_' key)) := by
  rw [compactFieldName, R.lower_plain key h]

end Stripped

/-! ### Lists of items -/

def observedItems (candidates : List Value) : List Fields :=
  (candidates.filterMap Value.object?).map R.stripConnectorFields

mutual

/-- The items of a list, or of the first list found under one of the keys. -/
def payloadItems (keys : List String) : Value → List Fields
  | .array items => R.observedItems items
  | .object m => scanPayload keys m keys
  | _ => []
termination_by payload => (sizeOf payload, 0)

def scanPayload (keys : List String) (m : Fields) : List String → List Fields
  | [] => []
  | key :: rest =>
    match _h : R.valueForKey m key with
    | some (.array items) => R.observedItems items
    | some (.object n) =>
      let nested := payloadItems keys (.object n)
      if nested.isEmpty then scanPayload keys m rest else nested
    | _ => scanPayload keys m rest
termination_by rest => (sizeOf m, rest.length + 1)
decreasing_by
  · exact .left _ _ (R.sizeOf_valueForKey _h)
  · exact .right _ (by simp)
  · exact .right _ (by simp)

end

end ObservationRules

end Tendwire

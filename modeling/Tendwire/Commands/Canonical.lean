import Tendwire.Collections.StableSort
import Tendwire.Commands.Targets
import Tendwire.Public.Resanitized
import Tendwire.Python.Encodable

/-!
# Canonical mutations

The canonical identity of a live mutation, and when it tells two mutations of one worker apart.
-/

namespace Tendwire.Commands

open Strings Python Public

/-! ### Option references -/

section References

variable (T : Tables)

/-- `str.isdigit()`. -/
def isDigitText (t : Text) : Bool :=
  !t.isEmpty && t.all fun c => if c.val < 0x80 then isAsciiDigit c else T.isDigit c

/-- The value of a decimal digit. -/
def digitValue (c : CodePoint) : Option ℕ :=
  if c.val < 0x80 then digitOf c else T.decimal c

/-- `int(ref)` of digits; `none` is the `ValueError` of a digit that is no decimal, or of too
many. -/
def intOfDigits (t : Text) : Option ℕ :=
  if t.length ≤ maxIntDigits then
    (t.mapM (digitValue T)).map fun digits => digits.foldl (fun n d => 10 * n + d) 0
  else none

/-- `int(ref) if str(ref).isdigit() else -1`. -/
def refKey (ref : Text) : Option ℤ :=
  if isDigitText T ref then (intOfDigits T ref).map Int.ofNat else some (-1)

/-- The key of a reference that has one. -/
def refNumber (ref : Text) : ℤ := (refKey T ref).getD 0

/-- `sorted(option_refs, key=...)`, which asks for all keys first. -/
def sortRefs (refs : List Text) : Option (List Text) :=
  if refs.all fun ref => (refKey T ref).isSome then some (refs.sortedBy (refNumber T)) else none

end References

/-! ### The canonical payload -/

structure CanonicalMutation where
  canonicalVersion : ShortInt
  action : Text
  publicWorkerId : Text
  canonicalJson : Text
  fingerprint : Text

section Payload

variable {F : Type} [FloatText F] (I : Interpreter F) (sha256 : List UInt8 → String)

/-- The payload of an action, with what is peculiar to it under a name of its own. -/
def actionPayload (action : String) (workerId : Text) (name : String) (content : Entries F) :
    Json F :=
  .dict [(ofString "canonical_version", .int shortOne), (ofString "action", textJson action),
    (ofString "target", .dict [(ofString "worker_id", .str workerId)]),
    (ofString name, .dict content), (ofString "options", .dict [])]

/-- A string at a key of a mapping. -/
def textAt (m : Entries F) (key : String) : Option Text := (m.get? (ofString key)).bind Json.str?

/-- The branches of `build_canonical_mutation` for the selection of a decision. -/
def canonicalSelection (selection : Entries F) : Option (Entries F) :=
  match selection.get? (ofString "option_refs") with
  | some refs => do
    let texts ← match refs with
      | .list items => items.mapM Json.str?
      | _ => none
    let sorted ← sortRefs I.toTables texts
    return [(ofString "option_refs", namesJson sorted)]
  | none => do
    let text ← textAt selection "text"
    return [(ofString "text", .str text)]

/-- The branches of `build_canonical_mutation`; `none` is an exception. -/
def canonicalPayload (r : CommandRequest F) (workerId : Text) : Option (Json F) :=
  if r.action = ofString "send_instruction" then do
    let instruction ← r.instruction
    let text ← textAt instruction "text"
    return actionPayload "send_instruction" workerId "instruction" [(ofString "text", .str text)]
  else if r.action = ofString "answer_pending" then do
    let params ← r.params
    let pendingId ← textAt params "pending_id"
    let pendingFingerprint ← textAt params "pending_fingerprint"
    let choiceId ← textAt params "choice_id"
    return actionPayload "answer_pending" workerId "pending"
      [(ofString "pending_id", .str pendingId),
        (ofString "pending_fingerprint", .str pendingFingerprint),
        (ofString "choice_id", .str choiceId)]
  else do
    let params ← r.params
    let selection ← (params.get? (ofString "selection")).bind Json.dict?
    let canonical ← canonicalSelection I selection
    let decisionRef ← textAt params "decision_ref"
    return actionPayload "answer_decision" workerId "decision"
      [(ofString "decision_ref", .str decisionRef), (ofString "selection", .dict canonical)]

/-- `build_canonical_mutation`; `none` is an exception. -/
def buildCanonicalMutation (r : CommandRequest F) (publicWorkerId : Text) :
    Option CanonicalMutation :=
  if IsLiveMutation I r ∧ strip publicWorkerId ≠ [] then do
    let payload ← canonicalPayload I r publicWorkerId
    let bytes ← utf8 (stableJsonDumps I.toTables payload)
    return { canonicalVersion := shortOne, action := r.action, publicWorkerId
             canonicalJson := stableJsonDumps I.toTables payload
             fingerprint := (ofString (sha256 bytes)).take fingerprintHexChars }
  else none

end Payload

/-! ### What a mutation asks for -/

/-- What a live mutation asks of its worker. -/
inductive Mutation where
  | instruct (text : Text)
  | answer (pendingId pendingFingerprint choiceId : Text)
  | write (decisionRef text : Text)
  | choose (decisionRef : Text) (refs : List Text)

namespace Mutation

/-- The same mutation: the order and the number of the references do not count. -/
def Same : Mutation → Mutation → Prop
  | instruct t, instruct u => t = u
  | answer p f c, answer p' f' c' => p = p' ∧ f = f' ∧ c = c'
  | write d t, write d' t' => d = d' ∧ t = t'
  | choose d refs, choose d' refs' => d = d' ∧ ∀ ref, ref ∈ refs ↔ ref ∈ refs'
  | _, _ => False

def refs : Mutation → List Text
  | choose _ refs => refs
  | _ => []

/-- Every text of the mutation. -/
def texts : Mutation → List Text
  | instruct t => [t]
  | answer p f c => [p, f, c]
  | write d t => [d, t]
  | choose d refs => d :: refs

end Mutation

section Requested

variable {F : Type}

/-- What the selection of a decision asks for. -/
def selectionMutation (decisionRef : Text) (selection : Entries F) : Option Mutation :=
  match selection.get? (ofString "option_refs") with
  | some (.list items) => (items.mapM Json.str?).map (.choose decisionRef)
  | some _ => none
  | none => (textAt selection "text").map (.write decisionRef)

/-- What a request asks for. -/
def mutationOf (r : CommandRequest F) : Option Mutation :=
  if r.action = ofString "send_instruction" then do
    let instruction ← r.instruction
    return .instruct (← textAt instruction "text")
  else if r.action = ofString "answer_pending" then do
    let params ← r.params
    let pendingId ← textAt params "pending_id"
    let pendingFingerprint ← textAt params "pending_fingerprint"
    let choiceId ← textAt params "choice_id"
    return .answer pendingId pendingFingerprint choiceId
  else do
    let params ← r.params
    let selection ← (params.get? (ofString "selection")).bind Json.dict?
    let decisionRef ← textAt params "decision_ref"
    selectionMutation decisionRef selection

end Requested

/-! ### The payload of a mutation -/

namespace Mutation

variable (T : Tables) {F : Type}

def action : Mutation → String
  | instruct _ => "send_instruction"
  | answer _ _ _ => "answer_pending"
  | write _ _ | choose _ _ => "answer_decision"

/-- The name of what is peculiar to the action. -/
def field : Mutation → String
  | instruct _ => "instruction"
  | answer _ _ _ => "pending"
  | write _ _ | choose _ _ => "decision"

def content : Mutation → Entries F
  | instruct t => [(ofString "text", .str t)]
  | answer p f c => [(ofString "pending_id", .str p), (ofString "pending_fingerprint", .str f),
      (ofString "choice_id", .str c)]
  | write d t => [(ofString "decision_ref", .str d),
      (ofString "selection", .dict [(ofString "text", .str t)])]
  | choose d refs => [(ofString "decision_ref", .str d),
      (ofString "selection", .dict [(ofString "option_refs", namesJson refs)])]

/-- The mutation with its references in order. -/
def sorted : Mutation → Mutation
  | choose d refs => choose d (refs.sortedBy (refNumber T))
  | m => m

/-- Every reference has a key. -/
def Parsable (m : Mutation) : Prop := ∀ ref ∈ m.refs, (refKey T ref).isSome = true

instance (m : Mutation) : Decidable (m.Parsable T) :=
  inferInstanceAs (Decidable (∀ ref ∈ m.refs, _))

def payload (m : Mutation) (workerId : Text) : Json F :=
  actionPayload m.action workerId m.field m.content

end Mutation

section Requested

variable {F : Type} [FloatText F] (I : Interpreter F) {r : CommandRequest F} {m : Mutation}

omit [FloatText F] in
lemma sortRefs_eq (T : Tables) (d : Text) (refs : List Text) :
    sortRefs T refs =
      if (Mutation.choose d refs).Parsable T then some (refs.sortedBy (refNumber T)) else none := by
  unfold sortRefs
  simp only [List.all_eq_true]
  rfl

omit [FloatText F] in
lemma parsable_of_refs_nil {T : Tables} (h : m.refs = []) : m.Parsable T := by
  intro ref href
  rw [h] at href
  cases href

omit [FloatText F] in
lemma kind_of_selection (T : Tables) {d : Text} {selection : Entries F}
    (h : selectionMutation d selection = some m) :
    (m.sorted T).action = "answer_decision" ∧ (m.sorted T).field = "decision" := by
  unfold selectionMutation at h
  split at h
  · obtain ⟨refs, -, rfl⟩ := Option.map_eq_some_iff.mp h
    exact ⟨rfl, rfl⟩
  · cases h
  · obtain ⟨text, -, rfl⟩ := Option.map_eq_some_iff.mp h
    exact ⟨rfl, rfl⟩

omit [FloatText F] in
lemma canonicalSelection_eq {d : Text} {selection : Entries F}
    (h : selectionMutation d selection = some m) :
    (canonicalSelection I selection).map (fun canonical => ([(ofString "decision_ref", .str d),
        (ofString "selection", .dict canonical)] : Entries F)) =
      if m.Parsable I.toTables then some (m.sorted I.toTables).content else none := by
  unfold selectionMutation at h
  unfold canonicalSelection
  split at h
  · next items hrefs =>
    obtain ⟨refs, hitems, rfl⟩ := Option.map_eq_some_iff.mp h
    rw [hrefs]
    dsimp only
    rw [hitems, Option.bind_eq_bind, Option.bind_some, sortRefs_eq I.toTables d]
    split_ifs <;> rfl
  · cases h
  · next hrefs =>
    obtain ⟨text, htext, rfl⟩ := Option.map_eq_some_iff.mp h
    rw [hrefs, if_pos (parsable_of_refs_nil rfl)]
    dsimp only
    rw [htext]
    rfl

omit [FloatText F] in
/-- The payload of a request is that of what it asks for, its references in order. -/
lemma canonicalPayload_eq (h : mutationOf r = some m) (workerId : Text) :
    canonicalPayload I r workerId =
      if m.Parsable I.toTables then some ((m.sorted I.toTables).payload workerId) else none := by
  unfold mutationOf at h
  unfold canonicalPayload
  split_ifs at h with hsend hpending
  · obtain ⟨instruction, hinstruction, h⟩ := Option.bind_eq_some_iff.mp h
    obtain ⟨text, htext, h⟩ := Option.bind_eq_some_iff.mp h
    rw [if_pos hsend, ← Option.some.inj h, if_pos (parsable_of_refs_nil rfl), hinstruction,
      Option.bind_eq_bind, Option.bind_some, htext]
    rfl
  · obtain ⟨params, hparams, h⟩ := Option.bind_eq_some_iff.mp h
    obtain ⟨p, hp, h⟩ := Option.bind_eq_some_iff.mp h
    obtain ⟨f, hf, h⟩ := Option.bind_eq_some_iff.mp h
    obtain ⟨c, hc, h⟩ := Option.bind_eq_some_iff.mp h
    rw [if_neg hsend, if_pos hpending, ← Option.some.inj h, if_pos (parsable_of_refs_nil rfl)]
    simp only [hparams, hp, hf, hc, Option.bind_eq_bind, Option.bind_some]
    rfl
  · obtain ⟨params, hparams, h⟩ := Option.bind_eq_some_iff.mp h
    obtain ⟨selection, hselection, h⟩ := Option.bind_eq_some_iff.mp h
    obtain ⟨d, hd, h⟩ := Option.bind_eq_some_iff.mp h
    have hcontent := canonicalSelection_eq I h
    rw [if_neg hsend, if_neg hpending]
    simp only [hparams, hselection, hd, Option.bind_eq_bind, Option.bind_some]
    have hkind := kind_of_selection I.toTables h
    unfold Mutation.payload
    rw [hkind.1, hkind.2]
    cases hcanonical : canonicalSelection I selection with
    | none =>
      rw [hcanonical] at hcontent
      split_ifs at hcontent ⊢
      · cases hcontent
      · rfl
    | some canonical =>
      rw [hcanonical] at hcontent
      split_ifs at hcontent ⊢
      · rw [← Option.some.inj hcontent]
        rfl
      · cases hcontent

/-! ### What live mutations ask for -/

omit [FloatText F] in
lemma exists_str_of_isNonblank {v : Option (Json F)} (h : isNonblank v = true) :
    ∃ t, v = some (.str t) := by
  cases v with
  | none => cases h
  | some v =>
    cases v with
    | str t => exact ⟨t, rfl⟩
    | _ => cases h

omit [FloatText F] in
lemma textAt_of_isNonblank {params : Entries F} {key : String}
    (h : isNonblank (params.get? (ofString key)) = true) : ∃ t, textAt params key = some t := by
  obtain ⟨t, ht⟩ := exists_str_of_isNonblank h
  unfold textAt
  rw [ht]
  exact ⟨t, rfl⟩

/-- A text that passes its checks is a string. -/
lemma exists_str_of_instructionText {text : Option (Json F)}
    (h : validateInstructionText I text = none) : ∃ t, text = some (.str t) := by
  cases text with
  | none => cases h
  | some v =>
    cases v with
    | str t => exact ⟨t, rfl⟩
    | _ => cases h

lemma exists_instruct (h : IsLiveMutation I r) (hsend : r.action = ofString "send_instruction") :
    ∃ instruction text, r.instruction = some instruction ∧
      textAt instruction "text" = some text := by
  have hchecks := h.validateSend_eq hsend
  have hshape := (checks_of_valid (Option.isNone_iff_eq_none.mp h.2.2)).2.1
  unfold validateSend at hchecks
  split_ifs at hchecks with _ _ htext
  unfold validateInstructionShape at hshape
  cases hinstruction : r.instruction with
  | none =>
    rw [hinstruction] at htext
    exact absurd rfl htext
  | some instruction =>
    rw [hinstruction] at hshape
    dsimp only at hshape
    split_ifs at hshape
    obtain ⟨t, ht⟩ := exists_str_of_instructionText I hshape
    refine ⟨instruction, t, rfl, ?_⟩
    unfold textAt
    rw [ht]
    rfl

lemma exists_answer (h : IsLiveMutation I r) (hpending : r.action = ofString "answer_pending") :
    ∃ params p f c, r.params = some params ∧ textAt params "pending_id" = some p ∧
      textAt params "pending_fingerprint" = some f ∧ textAt params "choice_id" = some c := by
  have hchecks := h.validateAnswerPending_eq hpending
  unfold validateAnswerPending at hchecks
  split_ifs at hchecks
  cases hparams : r.params with
  | none =>
    rw [hparams] at hchecks
    cases hchecks
  | some params =>
    rw [hparams] at hchecks
    dsimp only at hchecks
    split_ifs at hchecks
    have hall := List.find?_eq_none.mp (Option.map_eq_none_iff.mp hchecks)
    have hnonblank : ∀ key : String, ofString key ∈ answerPendingParamFields →
        ∃ t, textAt params key = some t := by
      intro key hkey
      have hmem : ofString key ∈ sortTexts answerPendingParamFields :=
        (List.perm_insertionSort _ _).mem_iff.mpr hkey
      exact textAt_of_isNonblank (by simpa using hall _ hmem)
    obtain ⟨p, hp⟩ := hnonblank "pending_id" (by decide)
    obtain ⟨f, hf⟩ := hnonblank "pending_fingerprint" (by decide)
    obtain ⟨c, hc⟩ := hnonblank "choice_id" (by decide)
    exact ⟨params, p, f, c, rfl, hp, hf, hc⟩

omit [FloatText F] in
lemma exists_mapM_str {items : List (Json F)}
    (h : (items.all fun ref => isNonblank (some ref)) = true) :
    ∃ refs, items.mapM Json.str? = some refs := by
  induction items with
  | nil => exact ⟨[], rfl⟩
  | cons v items ih =>
    obtain ⟨hv, hitems⟩ := (Bool.and_eq_true_iff).mp h
    obtain ⟨t, ht⟩ := exists_str_of_isNonblank hv
    obtain ⟨refs, hrefs⟩ := ih hitems
    rw [Option.some.inj ht, List.mapM_cons, hrefs]
    exact ⟨t :: refs, rfl⟩

omit [FloatText F] in
lemma get?_eq_none {m : Entries F} {key : Text} (h : key ∉ m.keys) : m.get? key = none := by
  induction m with
  | nil => rfl
  | cons e m ih =>
    obtain ⟨k, v⟩ := e
    obtain ⟨hne, hrest⟩ := not_or.mp fun hor => h (List.mem_cons.mpr hor)
    rw [Entries.get?_cons, if_neg hne, ih hrest]

lemma exists_selection {selection : Option (Json F)} (h : validateSelection I selection = none)
    (d : Text) : ∃ entries m, selection.bind Json.dict? = some entries ∧
      selectionMutation d entries = some m := by
  unfold validateSelection at h
  unfold selectionMutation
  split at h
  · cases h
  · next entries hentries =>
    refine ⟨entries, ?_⟩
    split_ifs at h with _ hrefs htext htext'
    · split at h
      · next items hget =>
        split_ifs at h with hbad
        obtain ⟨-, hall⟩ := not_or.mp hbad
        obtain ⟨refs, hitems⟩ := exists_mapM_str (not_not.mp hall)
        rw [hget]
        dsimp only
        rw [hitems]
        exact ⟨_, hentries, rfl⟩
      · cases h
    · have hnot : ofString "option_refs" ∉ entries.keys := by
        intro hmem
        have hkeys := (Bool.and_eq_true_iff.mp htext).1
        have hcontains := List.all_eq_true.mp hkeys _ hmem
        exact absurd hcontains (by decide)
      have hvalid : validateInstructionText I (entries.get? (ofString "text")) = none := by
        simpa using htext'
      obtain ⟨t, ht⟩ := exists_str_of_instructionText I hvalid
      rw [get?_eq_none hnot]
      unfold textAt
      dsimp only
      rw [ht]
      exact ⟨_, hentries, rfl⟩

/-- Every live mutation asks for something. -/
theorem exists_mutation (h : IsLiveMutation I r) : ∃ m, mutationOf r = some m := by
  unfold mutationOf
  rcases h.action_cases with hsend | hpending | hdecision
  · obtain ⟨instruction, text, hinstruction, htext⟩ := exists_instruct I h hsend
    rw [if_pos hsend]
    simp only [hinstruction, htext, Option.bind_eq_bind, Option.bind_some]
    exact ⟨_, rfl⟩
  · obtain ⟨params, p, f, c, hparams, hp, hf, hc⟩ := exists_answer I h hpending
    have hne : r.action ≠ ofString "send_instruction" :=
      hpending ▸ IsLiveMutation.actions_distinct.1
    rw [if_neg hne, if_pos hpending]
    simp only [hparams, hp, hf, hc, Option.bind_eq_bind, Option.bind_some]
    exact ⟨_, rfl⟩
  · have hchecks := h.validateAnswerDecision_eq hdecision
    have hnot : r.action ≠ ofString "send_instruction" ∧ r.action ≠ ofString "answer_pending" :=
      hdecision ▸ IsLiveMutation.actions_distinct.2
    unfold validateAnswerDecision at hchecks
    split_ifs at hchecks
    cases hparams : r.params with
    | none =>
      rw [hparams] at hchecks
      cases hchecks
    | some params =>
      rw [hparams] at hchecks
      dsimp only at hchecks
      split_ifs at hchecks with _ hnonblank
      obtain ⟨d, hd⟩ := textAt_of_isNonblank (not_not.mp (by simpa using hnonblank))
      obtain ⟨entries, m, hentries, hm⟩ := exists_selection I hchecks d
      rw [if_neg hnot.1, if_neg hnot.2]
      simp only [hd, hentries, hm, Option.bind_eq_bind, Option.bind_some]
      exact ⟨m, rfl⟩

end Requested

/-! ### The text of a payload -/

namespace Mutation

variable {F : Type}

/-- Every key of a payload is admitted. -/
def payloadKeys : List Text :=
  ["canonical_version", "action", "target", "worker_id", "options", "instruction", "text", "pending",
    "pending_id", "pending_fingerprint", "choice_id", "decision", "decision_ref", "selection",
    "option_refs"].map ofString

lemma isForbiddenFieldName_payloadKey (T : Tables) {key : Text} (h : key ∈ payloadKeys) :
    isForbiddenFieldName T key = false := by
  have hall : ∀ key ∈ payloadKeys,
      isAscii key = true ∧ isForbiddenFieldName asciiTables key = false := by
    unfold isForbiddenFieldName forbiddenCompact
    rw [forbiddenNames_eq_bytes]
    decide +kernel
  obtain ⟨hascii, hname⟩ := hall key h
  rw [isForbiddenFieldName_ascii T asciiTables hascii]
  exact hname

def actions : List String := ["send_instruction", "answer_pending", "answer_decision"]

lemma action_mem (m : Mutation) : m.action ∈ actions := by
  cases m <;> simp [action, actions]

lemma field_mem (m : Mutation) : m.field ∈ ["instruction", "pending", "decision"] := by
  cases m <;> simp [field]

lemma keysAdmitted_namesJson (T : Tables) (names : List Text) :
    KeysAdmitted T (namesJson (F := F) names) := by
  unfold namesJson
  rw [KeysAdmitted]
  induction names with
  | nil => trivial
  | cons name names ih => exact ⟨trivial, ih⟩

lemma keysAdmitted_payload (T : Tables) (m : Mutation) (workerId : Text) :
    KeysAdmitted T (m.payload (F := F) workerId) := by
  have hkey : ∀ key : String, ofString key ∈ payloadKeys →
      isForbiddenFieldName T (ofString key) = false := fun _ => isForbiddenFieldName_payloadKey T
  have hcontent : KeysAdmittedEntries T (m.content (F := F)) := by
    cases m with
    | instruct t => exact ⟨⟨hkey _ (by decide), trivial⟩, trivial⟩
    | answer p f c =>
      exact ⟨⟨hkey _ (by decide), trivial⟩, ⟨hkey _ (by decide), trivial⟩,
        ⟨hkey _ (by decide), trivial⟩, trivial⟩
    | write d t =>
      exact ⟨⟨hkey _ (by decide), trivial⟩,
        ⟨hkey _ (by decide), ⟨hkey _ (by decide), trivial⟩, trivial⟩, trivial⟩
    | choose d refs =>
      exact ⟨⟨hkey _ (by decide), trivial⟩,
        ⟨hkey _ (by decide), ⟨hkey _ (by decide), keysAdmitted_namesJson T refs⟩, trivial⟩, trivial⟩
  have hfield : ofString m.field ∈ payloadKeys := by
    have hall : ∀ name ∈ ["instruction", "pending", "decision"], ofString name ∈ payloadKeys := by
      decide
    exact hall _ m.field_mem
  exact ⟨⟨hkey _ (by decide), trivial⟩, ⟨hkey _ (by decide), trivial⟩,
    ⟨hkey _ (by decide), ⟨hkey _ (by decide), trivial⟩, trivial⟩, ⟨hkey _ hfield, hcontent⟩,
    ⟨hkey _ (by decide), trivial⟩, trivial⟩

lemma stableJsonDumps_payload [FloatText F] (T : Tables) (m : Mutation) (workerId : Text) :
    stableJsonDumps T (m.payload (F := F) workerId) = dumps (m.payload (F := F) workerId) := by
  unfold stableJsonDumps
  rw [sanitizeForbiddenFields_eq_self T _ (keysAdmitted_payload T m workerId)]

/-! ### Encodable payloads -/

lemma encodes_namesJson_iff (names : List Text) :
    Encodes (namesJson (F := F) names) ↔ ∀ name ∈ names, encodable name = true := by
  unfold namesJson
  rw [Encodes, encodesItems_iff]
  simp [Encodes]

lemma encodable_payloadKey (key : String) (h : ofString key ∈ payloadKeys) :
    encodable (ofString key) = true := by
  have hall : ∀ key ∈ payloadKeys, encodable key = true := by decide +kernel
  exact hall _ h

lemma encodes_content_iff (m : Mutation) :
    EncodesEntries (m.content (F := F)) ↔ ∀ t ∈ m.texts, encodable t = true := by
  have hkey := encodable_payloadKey
  cases m with
  | instruct t => simp [content, texts, EncodesEntries, Encodes, hkey "text" (by decide)]
  | answer p f c =>
    simp [content, texts, EncodesEntries, Encodes, hkey "pending_id" (by decide),
      hkey "pending_fingerprint" (by decide), hkey "choice_id" (by decide)]
  | write d t =>
    simp [content, texts, EncodesEntries, Encodes, hkey "decision_ref" (by decide),
      hkey "selection" (by decide), hkey "text" (by decide)]
  | choose d refs =>
    simp [content, texts, EncodesEntries, Encodes, encodes_namesJson_iff,
      hkey "decision_ref" (by decide), hkey "selection" (by decide),
      hkey "option_refs" (by decide)]

/-- The payload can be encoded exactly if its texts can. -/
lemma encodes_payload_iff (m : Mutation) (workerId : Text) :
    Encodes (m.payload (F := F) workerId) ↔
      encodable workerId = true ∧ ∀ t ∈ m.texts, encodable t = true := by
  have hnames : ∀ name ∈ ["instruction", "pending", "decision"],
      encodable (ofString name) = true := by decide
  have haction : ∀ name ∈ actions, encodable (ofString name) = true := by decide
  have hfields : encodable (ofString "canonical_version") = true ∧
      encodable (ofString "action") = true ∧ encodable (ofString "target") = true ∧
      encodable (ofString "worker_id") = true ∧ encodable (ofString "options") = true := by decide
  rw [← encodes_content_iff (F := F)]
  unfold payload actionPayload textJson
  simp [Encodes, EncodesEntries, hfields, hnames _ m.field_mem, haction _ m.action_mem]

/-! ### What a payload tells -/

lemma nodup_keys_payload (m : Mutation) (workerId : Text) (content : Entries F) :
    (Entries.keys [(ofString "canonical_version", .int shortOne),
      (ofString "action", textJson m.action),
      (ofString "target", .dict [(ofString "worker_id", .str workerId)]),
      (ofString m.field, .dict content), (ofString "options", .dict [])]).Nodup := by
  have hall : ∀ name ∈ ["instruction", "pending", "decision"], ([ofString "canonical_version",
      ofString "action", ofString "target", ofString name, ofString "options"]).Nodup := by
    decide
  exact hall _ m.field_mem

lemma nodup_keys_content (m : Mutation) : (Entries.keys (m.content (F := F))).Nodup := by
  cases m with
  | instruct t => exact List.nodup_singleton _
  | answer p f c =>
    change ([ofString "pending_id", ofString "pending_fingerprint", ofString "choice_id"]).Nodup
    decide
  | write d t =>
    change ([ofString "decision_ref", ofString "selection"]).Nodup
    decide
  | choose d refs =>
    change ([ofString "decision_ref", ofString "selection"]).Nodup
    decide

lemma distinct_payload (m : Mutation) (workerId : Text) :
    Distinct (m.payload (F := F) workerId) := by
  have hcontent : DistinctEntries (m.content (F := F)) := by
    cases m with
    | instruct t => exact ⟨trivial, trivial⟩
    | answer p f c => exact ⟨trivial, trivial, trivial, trivial⟩
    | write d t => exact ⟨trivial, ⟨List.nodup_singleton _, trivial, trivial⟩, trivial⟩
    | choose d refs =>
      exact ⟨trivial, ⟨List.nodup_singleton _, distinct_namesJson refs, trivial⟩, trivial⟩
  exact ⟨nodup_keys_payload m workerId _, trivial, trivial,
    ⟨List.nodup_singleton _, trivial, trivial⟩, ⟨nodup_keys_content m, hcontent⟩,
    ⟨List.nodup_nil, trivial⟩, trivial⟩

lemma content_injective {m n : Mutation} (hkind : m.action = n.action)
    (h : sortKeys (.dict (m.content (F := F))) = sortKeys (.dict n.content)) : m = n := by
  have hget := get?_of_sortKeys_eq (nodup_keys_content m) (nodup_keys_content n) h
  cases m with
  | instruct t =>
    cases n with
    | instruct u =>
      have htext : some (Json.str (F := F) t) = some (.str u) := hget (ofString "text")
      rw [Json.str.inj (Option.some.inj htext)]
    | _ => simp [action] at hkind
  | answer p f c =>
    cases n with
    | answer p' f' c' =>
      have hp : some (Json.str (F := F) p) = some (.str p') := hget (ofString "pending_id")
      have hf : some (Json.str (F := F) f) = some (.str f') := hget (ofString "pending_fingerprint")
      have hc : some (Json.str (F := F) c) = some (.str c') := hget (ofString "choice_id")
      rw [Json.str.inj (Option.some.inj hp), Json.str.inj (Option.some.inj hf),
        Json.str.inj (Option.some.inj hc)]
    | _ => simp [action] at hkind
  | write d t =>
    cases n with
    | write d' t' =>
      have hd : some (Json.str (F := F) d) = some (.str d') := hget (ofString "decision_ref")
      have ht : some (Json.dict (F := F) [(ofString "text", .str t)]) =
          some (.dict [(ofString "text", .str t')]) := hget (ofString "selection")
      have htext := (List.cons.inj (Json.dict.inj (Option.some.inj ht))).1
      rw [Json.str.inj (Option.some.inj hd), Json.str.inj (Prod.mk.inj htext).2]
    | choose d' refs =>
      have hselection : some (Json.dict (F := F) [(ofString "text", .str t)]) =
          some (.dict [(ofString "option_refs", sortKeys (namesJson refs))]) :=
        hget (ofString "selection")
      have hkey := (List.cons.inj (Json.dict.inj (Option.some.inj hselection))).1
      exact absurd (Prod.mk.inj hkey).1 (by decide)
    | _ => simp [action] at hkind
  | choose d refs =>
    cases n with
    | write d' t =>
      have hselection : some (Json.dict (F := F) [(ofString "option_refs",
          sortKeys (namesJson refs))]) = some (.dict [(ofString "text", .str t)]) :=
        hget (ofString "selection")
      have hkey := (List.cons.inj (Json.dict.inj (Option.some.inj hselection))).1
      exact absurd (Prod.mk.inj hkey).1 (by decide)
    | choose d' refs' =>
      have hd : some (Json.str (F := F) d) = some (.str d') := hget (ofString "decision_ref")
      have hselection : some (Json.dict (F := F) [(ofString "option_refs",
          sortKeys (namesJson refs))]) =
            some (.dict [(ofString "option_refs", sortKeys (namesJson refs'))]) :=
        hget (ofString "selection")
      have hrefs := (List.cons.inj (Json.dict.inj (Option.some.inj hselection))).1
      rw [sortKeys_namesJson, sortKeys_namesJson] at hrefs
      rw [Json.str.inj (Option.some.inj hd), namesJson_injective (Prod.mk.inj hrefs).2]
    | _ => simp [action] at hkind

lemma field_eq {m n : Mutation} (h : m.action = n.action) : m.field = n.field := by
  cases m <;> cases n <;> simp_all [action, field]

lemma get?_payload_field (m : Mutation) (workerId : Text) :
    Entries.get? [(ofString "canonical_version", .int shortOne),
      (ofString "action", textJson m.action),
      (ofString "target", .dict [(ofString "worker_id", .str workerId)]),
      (ofString m.field, .dict (m.content (F := F))), (ofString "options", .dict [])]
        (ofString m.field) = some (.dict m.content) :=
  (Entries.get?_eq_some_iff (nodup_keys_payload m workerId _)).mpr (by simp)

/-- The text of a payload tells the mutation. -/
theorem dumps_payload_injective [FloatText F] {m n : Mutation} {workerId : Text}
    (h : dumps (m.payload (F := F) workerId) = dumps (n.payload (F := F) workerId)) : m = n := by
  have hsorted := dumps_injective (distinct_payload m workerId) (distinct_payload n workerId) h
  have hget := get?_of_sortKeys_eq (nodup_keys_payload m workerId _)
    (nodup_keys_payload n workerId _) hsorted
  have haction : some (textJson (F := F) m.action) = some (textJson n.action) :=
    hget (ofString "action")
  have hkind : m.action = n.action := by
    have hall : ∀ a ∈ actions, ∀ b ∈ actions, ofString a = ofString b → a = b := by decide
    exact hall _ m.action_mem _ n.action_mem (Json.str.inj (Option.some.inj haction))
  have hcontent := hget (ofString m.field)
  have hm := get?_payload_field (F := F) m workerId
  have hn := get?_payload_field (F := F) n workerId
  rw [hm, field_eq hkind, hn] at hcontent
  exact content_injective hkind (Option.some.inj hcontent)

end Mutation

/-! ### Sorted references -/

namespace Mutation

variable (T : Tables)

/-- The references of each number stand alike in both. -/
def AlikeRefs (refs refs' : List Text) : Prop :=
  ∀ k, refs.filter (refNumber T · = k) = refs'.filter (refNumber T · = k)

/-- If two choices are of one decision and one set of references, then the references of each number
stand alike in both. -/
def InOrder : Mutation → Mutation → Prop
  | choose d refs, choose d' refs' =>
    d = d' → (∀ ref, ref ∈ refs ↔ ref ∈ refs') → AlikeRefs T refs refs'
  | _, _ => True

/-- Mutations sort alike exactly if they are the same and their references stand in order. -/
theorem sorted_eq_iff (m n : Mutation) : m.sorted T = n.sorted T ↔ m.Same n ∧ InOrder T m n := by
  cases m with
  | choose d refs =>
    cases n with
    | choose d' refs' =>
      have hsorted : refs.sortedBy (refNumber T) = refs'.sortedBy (refNumber T) ↔
          AlikeRefs T refs refs' := List.sortedBy_eq_iff
      change choose d (refs.sortedBy _) = choose d' (refs'.sortedBy _) ↔
        (d = d' ∧ ∀ ref, ref ∈ refs ↔ ref ∈ refs') ∧ (d = d' → _ → AlikeRefs T refs refs')
      rw [choose.injEq]
      constructor
      · rintro ⟨hd, hrefs⟩
        have hmem : ∀ ref, ref ∈ refs ↔ ref ∈ refs' := by
          intro ref
          have hperm : (refs.sortedBy (refNumber T)).Perm refs := List.sortedBy_perm refs
          rw [← hperm.mem_iff, hrefs, (List.sortedBy_perm refs').mem_iff]
        exact ⟨⟨hd, hmem⟩, fun _ _ => hsorted.mp hrefs⟩
      · rintro ⟨⟨hd, hmem⟩, halike⟩
        exact ⟨hd, hsorted.mpr (halike hd hmem)⟩
    | _ => simp [sorted, Same]
  | instruct t => cases n <;> simp [sorted, Same, InOrder]
  | answer p f c => cases n <;> simp [sorted, Same, InOrder]
  | write d t => cases n <;> simp [sorted, Same, InOrder]

/-- Different mutations owe no order. -/
lemma inOrder_of_not_same {m n : Mutation} (h : ¬m.Same n) : InOrder T m n := by
  cases m with
  | choose d refs =>
    cases n with
    | choose d' refs' => exact fun hd hmem => absurd ⟨hd, hmem⟩ h
    | _ => trivial
  | _ => trivial

lemma mem_texts_sorted (m : Mutation) (t : Text) : t ∈ (m.sorted T).texts ↔ t ∈ m.texts := by
  cases m with
  | choose d refs =>
    change t ∈ d :: refs.sortedBy (refNumber T) ↔ t ∈ d :: refs
    rw [List.mem_cons, List.mem_cons, (List.sortedBy_perm refs).mem_iff]
  | _ => exact Iff.rfl

end Mutation

/-! ### When the identity exists -/

lemma encodable_iff {t : Text} : encodable t = true ↔ ∀ c ∈ t, isSurrogate c = false := by
  simp [encodable]

/-- Normalizing a text adds no surrogates. -/
lemma encodable_fingerprintText {t : Text} (h : encodable t = true) :
    encodable (fingerprintText t) = true := by
  rw [encodable_iff] at h ⊢
  unfold fingerprintText
  split_ifs
  · exact h
  · intro c hc
    have hrender : c ∈ render ((splitlines (dropEdgeControls t)).map words) :=
      (List.dropWhile_sublist _).subset ((List.rdropWhile_prefix _ _).sublist.subset hc)
    rcases mem_render hrender with rfl | ⟨l, hl, hc⟩
    · decide
    · obtain ⟨line, hline, rfl⟩ := List.mem_map.mp hl
      rcases mem_joinWords hc with rfl | ⟨w, hw, hc⟩
      · decide
      · have hdropped := mem_of_mem_splitlines hline (mem_of_mem_words hw hc)
        exact h c ((List.dropWhile_sublist _).subset
          ((List.rdropWhile_prefix _ _).sublist.subset hdropped))

section Identity

variable {F : Type} [FloatText F] (I : Interpreter F) (sha256 : List UInt8 → String)

/-- The texts of the selector proof. -/
def selectorTexts (target : Option (Entries F)) : List Text :=
  target.elim [] fun m =>
    (selectorOf I m).workerId :: (selectorOf I m).name :: (selectorOf I m).spaceId.toList

/-- The identity of the mutation, its selector proof and its instruction's fingerprint are built. -/
def Succeeds (r : CommandRequest F) (workerId : Text) : Prop :=
  (buildCanonicalMutation I sha256 r workerId).isSome = true ∧
    (buildSelectorProof I sha256 r).isSome = true ∧
    ∀ t, mutationOf r = some (.instruct t) → (instructionFingerprint sha256 t).isSome = true

def canonicalJson (r : CommandRequest F) (workerId : Text) : Option Text :=
  (buildCanonicalMutation I sha256 r workerId).map (·.canonicalJson)

/-- No lone surrogate in what is digested, and a key for every reference. -/
def Identifiable (r : CommandRequest F) (workerId : Text) : Prop :=
  encodable workerId = true ∧ (∀ t ∈ selectorTexts I r.target, encodable t = true) ∧
    ∀ m, mutationOf r = some m → (∀ t ∈ m.texts, encodable t = true) ∧ m.Parsable I.toTables

/-- The same action with the same instruction, choice, or decision and answer. -/
def SameMutation (r s : CommandRequest F) : Prop :=
  ∃ m n, mutationOf r = some m ∧ mutationOf s = some n ∧ m.Same n

/-- The references of the requests stand in order, if they choose alike. -/
def InOrder (r s : CommandRequest F) : Prop :=
  ∀ m n, mutationOf r = some m → mutationOf s = some n → Mutation.InOrder I.toTables m n

variable {I sha256} {r s : CommandRequest F} {m n : Mutation} {workerId : Text}

lemma encodes_selectorPayload_iff (h : IsLiveMutation I r) :
    Encodes (selectorPayload I r) ↔ ∀ t ∈ selectorTexts I r.target, encodable t = true := by
  have haction : encodable r.action = true := by
    rcases h.action_cases with hr | hr | hr <;> rw [hr] <;> decide
  have hkeys : encodable (ofString "proof_version") = true ∧ encodable (ofString "action") = true ∧
      encodable (ofString "selector") = true ∧ encodable (ofString "shape") = true ∧
      encodable (ofString "none") = true ∧ encodable (ofString "target") = true ∧
      encodable (ofString "worker_id") = true ∧ encodable (ofString "name") = true ∧
      encodable (ofString "space_id") = true := by decide
  unfold selectorPayload selectorTexts
  rw [selectorJson_eq]
  cases r.target with
  | none => simp [Encodes, EncodesEntries, noSelector, textJson, hkeys, haction]
  | some m =>
    cases hspace : (selectorOf I m).spaceId with
    | none =>
      simp [Encodes, EncodesEntries, Selector.entries, textJson, hkeys, haction, hspace,
        Json.ofOption]
    | some space =>
      simp [Encodes, EncodesEntries, Selector.entries, textJson, hkeys, haction, hspace,
        Json.ofOption]

lemma isSome_selectorProof_iff (h : IsLiveMutation I r) :
    (buildSelectorProof I sha256 r).isSome = true ↔
      ∀ t ∈ selectorTexts I r.target, encodable t = true := by
  unfold buildSelectorProof
  rw [if_pos h, Option.isSome_map, isSome_utf8_dumps_iff, encodes_selectorPayload_iff h]

/-- The identity of a live mutation. -/
lemma buildCanonicalMutation_eq (h : IsLiveMutation I r) (hworker : strip workerId ≠ [])
    (hm : mutationOf r = some m) :
    (buildCanonicalMutation I sha256 r workerId).map (·.canonicalJson) =
      if m.Parsable I.toTables ∧ encodable workerId = true ∧ ∀ t ∈ m.texts, encodable t = true then
        some (dumps ((m.sorted I.toTables).payload (F := F) workerId)) else none := by
  have hencodes : (utf8 (dumps ((m.sorted I.toTables).payload (F := F) workerId))).isSome = true ↔
      encodable workerId = true ∧ ∀ t ∈ m.texts, encodable t = true := by
    rw [isSome_utf8_dumps_iff, Mutation.encodes_payload_iff]
    exact and_congr_right fun _ => forall_congr' fun t => by rw [Mutation.mem_texts_sorted]
  unfold buildCanonicalMutation
  rw [if_pos ⟨h, hworker⟩, canonicalPayload_eq I hm]
  by_cases hparsable : m.Parsable I.toTables
  · rw [if_pos hparsable, Option.bind_eq_bind, Option.bind_some, Mutation.stableJsonDumps_payload]
    cases hbytes : utf8 (dumps ((m.sorted I.toTables).payload (F := F) workerId)) with
    | none =>
      rw [hbytes] at hencodes
      rw [if_neg fun hall => Bool.false_ne_true (hencodes.mpr hall.2)]
      rfl
    | some bytes =>
      rw [hbytes] at hencodes
      rw [if_pos ⟨hparsable, hencodes.mp rfl⟩]
      rfl
  · rw [if_neg hparsable, if_neg fun hall => hparsable hall.1]
    rfl

/-- The three digests are built exactly if the request can be identified. -/
theorem succeeds_iff (h : IsLiveMutation I r) (hworker : strip workerId ≠ []) :
    Succeeds I sha256 r workerId ↔ Identifiable I r workerId := by
  obtain ⟨m, hm⟩ := exists_mutation I h
  have hbuilt : (buildCanonicalMutation I sha256 r workerId).isSome = true ↔
      m.Parsable I.toTables ∧ encodable workerId = true ∧ ∀ t ∈ m.texts, encodable t = true := by
    rw [← Option.isSome_map (f := (·.canonicalJson)), buildCanonicalMutation_eq h hworker hm]
    split_ifs with hall
    · exact iff_of_true rfl hall
    · exact iff_of_false Bool.false_ne_true hall
  unfold Succeeds Identifiable
  rw [hbuilt, isSome_selectorProof_iff h]
  constructor
  · rintro ⟨⟨hparsable, hencodable, htexts⟩, hselector, -⟩
    refine ⟨hencodable, hselector, fun n hn => ?_⟩
    rw [Option.some.inj (hn.symm.trans hm)]
    exact ⟨htexts, hparsable⟩
  · rintro ⟨hencodable, hselector, hmutation⟩
    obtain ⟨htexts, hparsable⟩ := hmutation m hm
    refine ⟨⟨hparsable, hencodable, htexts⟩, hselector, fun t ht => ?_⟩
    rw [Option.some.inj (hm.symm.trans ht)] at htexts
    unfold instructionFingerprint
    rw [Option.isSome_map, isSome_utf8]
    exact encodable_fingerprintText (htexts t List.mem_cons_self)

omit [FloatText F] in
lemma sameMutation_iff (hm : mutationOf r = some m) (hn : mutationOf s = some n) :
    SameMutation r s ↔ m.Same n := by
  constructor
  · rintro ⟨m', n', hm', hn', hsame⟩
    rwa [Option.some.inj (hm.symm.trans hm'), Option.some.inj (hn.symm.trans hn')]
  · exact fun h => ⟨m, n, hm, hn, h⟩

omit [FloatText F] in
lemma inOrder_iff (hm : mutationOf r = some m) (hn : mutationOf s = some n) :
    InOrder I r s ↔ Mutation.InOrder I.toTables m n := by
  refine ⟨fun h => h m n hm hn, fun h m' n' hm' hn' => ?_⟩
  rwa [← Option.some.inj (hm.symm.trans hm'), ← Option.some.inj (hn.symm.trans hn')]

/-- The canonical texts of two identifiable requests agree exactly if the sorted mutations do. -/
lemma canonicalJson_eq_iff (hr : IsLiveMutation I r) (hs : IsLiveMutation I s)
    (hworker : strip workerId ≠ []) (hm : mutationOf r = some m) (hn : mutationOf s = some n)
    (hidr : Identifiable I r workerId) (hids : Identifiable I s workerId) :
    canonicalJson I sha256 r workerId = canonicalJson I sha256 s workerId ↔
      m.sorted I.toTables = n.sorted I.toTables := by
  obtain ⟨htexts, hparsable⟩ := hidr.2.2 m hm
  obtain ⟨htexts', hparsable'⟩ := hids.2.2 n hn
  unfold canonicalJson
  rw [buildCanonicalMutation_eq hr hworker hm, buildCanonicalMutation_eq hs hworker hn,
    if_pos ⟨hparsable, hidr.1, htexts⟩, if_pos ⟨hparsable', hids.1, htexts'⟩, Option.some.injEq]
  exact ⟨Mutation.dumps_payload_injective, fun h => by rw [h]⟩

/-- Canonical identity is exact, and built, exactly for requests that can be identified and whose
references stand in order. -/
theorem canonicalIdentity_iff (hr : IsLiveMutation I r) (hs : IsLiveMutation I s)
    (worker : Worker I.toTables sha256 F) :
    (Succeeds I sha256 r worker.id ∧ Succeeds I sha256 s worker.id ∧
      (canonicalJson I sha256 r worker.id = canonicalJson I sha256 s worker.id ↔
        SameMutation r s)) ↔
      Identifiable I r worker.id ∧ Identifiable I s worker.id ∧ InOrder I r s := by
  have hworker := strip_id_ne_nil worker
  obtain ⟨m, hm⟩ := exists_mutation I hr
  obtain ⟨n, hn⟩ := exists_mutation I hs
  rw [succeeds_iff hr hworker, succeeds_iff hs hworker]
  refine and_congr_right fun hidr => and_congr_right fun hids => ?_
  rw [canonicalJson_eq_iff hr hs hworker hm hn hidr hids, Mutation.sorted_eq_iff,
    sameMutation_iff hm hn, inOrder_iff hm hn]
  constructor
  · intro h
    by_cases hsame : m.Same n
    · exact (h.mpr hsame).2
    · exact Mutation.inOrder_of_not_same I.toTables hsame
  · exact fun horder => ⟨And.left, fun hsame => ⟨hsame, horder⟩⟩

end Identity

/-- A live answer to a decision. -/
def decisionRequest (refs : List String) : CommandRequest Empty where
  action := ofString "answer_decision"
  schemaVersion := .int shortOne
  requestId := textJson "r1"
  dryRun := .bool false
  target := some [(ofString "worker_id", textJson "a")]
  instruction := none
  params := some [(ofString "decision_ref", textJson "d"),
    (ofString "selection", .dict [(ofString "option_refs", namesJson (refs.map ofString))])]
  responseSchemaVersion := .int shortTwo

lemma isNamed_short : IsNamed asciiTables byteText ⟨ofString "a", ofString "a", none⟩ :=
  isNamed_iff.mpr ⟨some (ofString "a"), some (ofString "a"), none,
    (publicSafeIdentity_short asciiTables byteText "worker").1,
    (publicSafeText_short asciiTables (ofString "a")).1.symm, rfl⟩

lemma identifiable_decision {refs : List Text} {r : CommandRequest Empty}
    (hm : mutationOf r = some (.choose (ofString "d") refs))
    (htexts : ∀ t ∈ selectorTexts asciiInterpreter r.target, encodable t = true)
    (hrefs : ∀ ref ∈ refs, encodable ref = true ∧ (refKey asciiTables ref).isSome = true) :
    Identifiable asciiInterpreter r (ofString "a") := by
  refine ⟨by decide, htexts, fun m hm' => ?_⟩
  rw [Option.some.inj (hm'.symm.trans hm)]
  refine ⟨fun t ht => ?_, fun ref href => (hrefs ref href).2⟩
  rcases List.mem_cons.mp ht with rfl | ht
  · decide
  · exact (hrefs t ht).1

/-- The samples are live, in whatever order their references stand. -/
lemma decisionRequest_live : ∀ refs ∈ [["2", "1"], ["1", "2"], ["b", "a"], ["a", "b"]],
    IsLiveMutation asciiInterpreter (decisionRequest refs) := by
  intro refs hrefs
  have hkey : ∀ name : String, ofString name ∈ Mutation.payloadKeys →
      isForbiddenFieldName asciiInterpreter.toTables (ofString name) = false :=
    fun _ => Mutation.isForbiddenFieldName_payloadKey _
  have hkeys : KeysAdmitted asciiInterpreter.toTables (.dict (decisionRequest refs).toDict) :=
    keysAdmitted_toDict _ trivial trivial trivial
      ⟨⟨hkey "worker_id" (by decide), trivial⟩, trivial⟩ trivial
      ⟨⟨hkey "decision_ref" (by decide), trivial⟩, ⟨hkey "selection" (by decide),
        ⟨hkey "option_refs" (by decide), Mutation.keysAdmitted_namesJson _ _⟩, trivial⟩, trivial⟩ trivial
  -- what is left does not look into the table of forbidden names
  unfold IsLiveMutation validateRequest
  dsimp only
  rw [findForbiddenFields_of_admitted _ _ _ hkeys]
  clear hkeys
  revert refs
  decide +kernel

/-- Numbers in any order identify a choice. -/
theorem canonicalIdentity_iff_numbers :
    canonicalJson asciiInterpreter byteText (decisionRequest ["2", "1"]) (ofString "a") =
        canonicalJson asciiInterpreter byteText (decisionRequest ["1", "2"]) (ofString "a") ↔
      SameMutation (decisionRequest ["2", "1"]) (decisionRequest ["1", "2"]) := by
  have hr := decisionRequest_live ["2", "1"] (by simp)
  have hs := decisionRequest_live ["1", "2"] (by simp)
  let worker : Worker asciiInterpreter.toTables byteText Empty :=
    Worker.ofNamed asciiInterpreter isNamed_short
  have hone : refNumber asciiTables (ofString "1") = 1 := by decide +kernel
  have htwo : refNumber asciiTables (ofString "2") = 2 := by decide +kernel
  have hrefs : ∀ ref ∈ [ofString "2", ofString "1"],
      encodable ref = true ∧ (refKey asciiTables ref).isSome = true := by decide +kernel
  refine ((canonicalIdentity_iff hr hs worker).mpr ⟨?_, ?_, ?_⟩).2.2
  · exact identifiable_decision rfl (by decide) hrefs
  · have hrefs' : ∀ ref ∈ [ofString "1", ofString "2"],
        encodable ref = true ∧ (refKey asciiTables ref).isSome = true := by decide +kernel
    exact identifiable_decision rfl (by decide) hrefs'
  · refine (inOrder_iff (m := .choose (ofString "d") [ofString "2", ofString "1"])
      (n := .choose (ofString "d") [ofString "1", ofString "2"]) rfl rfl).mpr fun _ _ k => ?_
    change List.filter (refNumber asciiTables · = k) _ = List.filter (refNumber asciiTables · = k) _
    by_cases hk : k = 1
    · simp [hk, hone, htwo]
    · simp [List.filter_cons, hone, Ne.symm hk]

/-- References that are no numbers keep the order in which they were given. -/
theorem canonicalIdentity_letters :
    IsLiveMutation asciiInterpreter (decisionRequest ["b", "a"]) ∧
      IsLiveMutation asciiInterpreter (decisionRequest ["a", "b"]) ∧
      SameMutation (decisionRequest ["b", "a"]) (decisionRequest ["a", "b"]) ∧
      canonicalJson asciiInterpreter byteText (decisionRequest ["b", "a"]) (ofString "a") ≠
        canonicalJson asciiInterpreter byteText (decisionRequest ["a", "b"]) (ofString "a") := by
  have hr := decisionRequest_live ["b", "a"] (by simp)
  have hs := decisionRequest_live ["a", "b"] (by simp)
  refine ⟨hr, hs, ?_, fun h => ?_⟩
  · refine ⟨.choose (ofString "d") [ofString "b", ofString "a"],
      .choose (ofString "d") [ofString "a", ofString "b"], rfl, rfl, rfl, fun ref => ?_⟩
    rw [List.mem_pair, List.mem_pair, or_comm]
  · have hrefs : ∀ ref ∈ [ofString "a", ofString "b"],
        encodable ref = true ∧ (refKey asciiTables ref).isSome = true := by decide +kernel
    have hidr := identifiable_decision (r := decisionRequest ["b", "a"]) rfl (by decide)
      fun ref href => hrefs ref (List.mem_pair.mpr (List.mem_pair.mp href).symm)
    have hids := identifiable_decision (r := decisionRequest ["a", "b"]) rfl (by decide) hrefs
    -- no letter is a number, so the references stay as they were given
    have hsorted := (canonicalJson_eq_iff hr hs (by decide) rfl rfl hidr hids).mp h
    exact absurd (Mutation.choose.inj hsorted).2 (by decide +kernel)

end Tendwire.Commands

import Tendwire.Commands.Request
import Tendwire.Public.Resanitized
import Tendwire.Python.Equality

/-!
# Validated requests

What the checks of a request establish of one that passes them all.
-/

namespace Tendwire.Commands

open Strings Python Public

variable {F : Type} [FloatText F] (I : Interpreter F)

/-- A mutation that is no dry run, and valid. -/
def IsLiveMutation (r : CommandRequest F) : Prop :=
  r.mutating = true ∧ isFalse r.dryRun = true ∧ (validateRequest I r).isNone = true

instance (r : CommandRequest F) : Decidable (IsLiveMutation I r) :=
  inferInstanceAs (Decidable (_ ∧ _ ∧ _))

variable {I} {r : CommandRequest F}

lemma checks_of_valid (h : validateRequest I r = none) :
    validateTargetShape I r.target = none ∧ validateInstructionShape I r.instruction = none ∧
      validateAction I r = none := by
  unfold validateRequest at h
  dsimp only at h
  split_ifs at h
  obtain ⟨htarget, hrest⟩ := Option.or_eq_none_iff.mp h
  obtain ⟨hinstruction, haction⟩ := Option.or_eq_none_iff.mp hrest
  exact ⟨htarget, hinstruction, haction⟩

namespace IsLiveMutation

lemma validateAction_eq (h : IsLiveMutation I r) : validateAction I r = none :=
  (checks_of_valid (Option.isNone_iff_eq_none.mp h.2.2)).2.2

/-- The three actions that mutate. -/
lemma action_cases (h : IsLiveMutation I r) : r.action = ofString "send_instruction" ∨
    r.action = ofString "answer_pending" ∨ r.action = ofString "answer_decision" := by
  have hmem := List.contains_iff_mem.mp h.1
  simpa [mutatingActions] using hmem

lemma actions_distinct : ofString "answer_pending" ≠ ofString "send_instruction" ∧
    ofString "answer_decision" ≠ ofString "send_instruction" ∧
    ofString "answer_decision" ≠ ofString "answer_pending" := by
  decide

lemma validateSend_eq (h : IsLiveMutation I r) (hsend : r.action = ofString "send_instruction") :
    validateSend I r = none := by
  have haction := h.validateAction_eq
  unfold validateAction at haction
  rwa [if_pos hsend] at haction

lemma validateAnswerPending_eq (h : IsLiveMutation I r)
    (hpending : r.action = ofString "answer_pending") : validateAnswerPending I r = none := by
  have haction := h.validateAction_eq
  unfold validateAction at haction
  rwa [hpending, if_neg actions_distinct.1, if_pos rfl] at haction

lemma validateAnswerDecision_eq (h : IsLiveMutation I r)
    (hdecision : r.action = ofString "answer_decision") : validateAnswerDecision I r = none := by
  have haction := h.validateAction_eq
  unfold validateAction at haction
  rwa [hdecision, if_neg actions_distinct.2.1, if_neg actions_distinct.2.2, if_pos rfl] at haction

/-- A live mutation has a target, but for an answer to a pending choice. -/
lemma target_isNone_iff (h : IsLiveMutation I r) :
    r.target.isNone = true ↔ r.action = ofString "answer_pending" := by
  rcases h.action_cases with hsend | hpending | hdecision
  · have hchecks := h.validateSend_eq hsend
    unfold validateSend at hchecks
    split_ifs at hchecks with htarget
    rw [hsend]
    exact iff_of_false htarget actions_distinct.1.symm
  · have hchecks := h.validateAnswerPending_eq hpending
    unfold validateAnswerPending at hchecks
    split_ifs at hchecks with htarget
    exact iff_of_true (by simpa using htarget) hpending
  · have hchecks := h.validateAnswerDecision_eq hdecision
    unfold validateAnswerDecision at hchecks
    split_ifs at hchecks with htarget
    rw [hdecision]
    refine iff_of_false (fun hnone => htarget ?_) actions_distinct.2.2
    rw [Option.isNone_iff_eq_none.mp hnone]
    rfl

end IsLiveMutation

/-! ### Lists of names -/

omit [FloatText F] in
lemma sortKeys_namesJson (names : List Text) :
    sortKeys (namesJson (F := F) names) = namesJson names := by
  unfold namesJson
  rw [sortKeys, sortKeysItems_eq_map, List.map_map]
  rfl

omit [FloatText F] in
lemma distinct_namesJson (names : List Text) : Distinct (namesJson (F := F) names) := by
  unfold namesJson
  rw [Distinct]
  induction names with
  | nil => trivial
  | cons name names ih => exact ⟨trivial, ih⟩

omit [FloatText F] in
lemma namesJson_injective : Function.Injective (namesJson (F := F)) := by
  intro a b h
  have hinj : Function.Injective (Json.str (F := F)) := fun t u heq => Json.str.inj heq
  exact hinj.list_map (Json.list.inj h)

/-! ### Keys without forbidden names -/

section Keys

variable (T : Tables)

omit [FloatText F] in
mutual

/-- Where all keys are admitted, no forbidden field is found. -/
theorem findForbiddenFields_of_admitted : ∀ (path : Text) (v : Json F), KeysAdmitted T v →
    findForbiddenFields T path v = []
  | path, .list items, h => findForbiddenItems_of_admitted path 0 items h
  | path, .dict entries, h => findForbiddenEntries_of_admitted path entries h
  | _, .null, _ => rfl
  | _, .bool _, _ => rfl
  | _, .int _, _ => rfl
  | _, .float _, _ => rfl
  | _, .str _, _ => rfl

theorem findForbiddenItems_of_admitted : ∀ (path : Text) (index : ℕ) (items : List (Json F)),
    KeysAdmittedItems T items → findForbiddenItems T path index items = []
  | _, _, [], _ => rfl
  | path, index, v :: items, h => by
    rw [findForbiddenItems, findForbiddenFields_of_admitted _ v h.1,
      findForbiddenItems_of_admitted path (index + 1) items h.2]
    rfl

theorem findForbiddenEntries_of_admitted : ∀ (path : Text) (entries : List (Text × Json F)),
    KeysAdmittedEntries T entries → findForbiddenEntries T path entries = []
  | _, [], _ => rfl
  | path, (key, v) :: entries, h => by
    rw [findForbiddenEntries, h.1.1, findForbiddenFields_of_admitted _ v h.1.2,
      findForbiddenEntries_of_admitted path entries h.2]
    rfl

end

/-- The forbidden names by their bytes: all of them are ASCII. -/
lemma forbiddenNames_eq_bytes : forbiddenNames = forbiddenFieldNames.map fun name =>
    name.toByteArray.data.toList.map fun b => codePoint (Char.ofNat b.toNat) := by
  have hascii : ∀ name ∈ forbiddenFieldNames,
      (name.toByteArray.data.toList.all fun b => b.toNat < 0x80) = true := by decide +kernel
  exact List.map_congr_left fun name h => ofString_of_ascii (hascii name h)

/-- No field that a request may have is a forbidden name. -/
lemma isForbiddenFieldName_allowed {key : Text}
    (h : key ∈ requestAllowedFields ++ targetAllowedFields ++ instructionAllowedFields ++
      answerPendingParamFields ++ answerDecisionParamFields) : isForbiddenFieldName T key = false := by
  have hall : ∀ key ∈ requestAllowedFields ++ targetAllowedFields ++ instructionAllowedFields ++
      answerPendingParamFields ++ answerDecisionParamFields,
      isAscii key = true ∧ isForbiddenFieldName asciiTables key = false := by
    unfold isForbiddenFieldName forbiddenCompact
    rw [forbiddenNames_eq_bytes]
    decide +kernel
  obtain ⟨hascii, hname⟩ := hall key h
  rw [isForbiddenFieldName_ascii T asciiTables hascii]
  exact hname

omit [FloatText F] in
/-- The keys of a request are admitted if those of its values are. -/
lemma keysAdmitted_toDict {r : CommandRequest F} (hschema : KeysAdmitted T r.schemaVersion)
    (hrequestId : KeysAdmitted T r.requestId) (hdryRun : KeysAdmitted T r.dryRun)
    (htarget : KeysAdmitted T (ofMapping r.target))
    (hinstruction : KeysAdmitted T (ofMapping r.instruction))
    (hparams : KeysAdmitted T (ofMapping r.params))
    (hresponse : KeysAdmitted T r.responseSchemaVersion) : KeysAdmitted T (.dict r.toDict) := by
  have hkey : ∀ key ∈ requestAllowedFields, isForbiddenFieldName T key = false := fun key h =>
    isForbiddenFieldName_allowed T (by simp [h])
  simp only [requestAllowedFields, List.map_cons, List.map_nil, List.forall_mem_cons] at hkey
  obtain ⟨h₁, h₂, h₃, h₄, h₅, h₆, h₇, h₈, -⟩ := hkey
  unfold CommandRequest.toDict
  rw [KeysAdmitted]
  split_ifs
  · exact ⟨⟨h₁, hschema⟩, ⟨h₂, trivial⟩, ⟨h₃, hrequestId⟩, ⟨h₄, hdryRun⟩, ⟨h₅, htarget⟩,
      ⟨h₆, hinstruction⟩, ⟨h₇, hparams⟩, trivial⟩
  · exact ⟨⟨h₁, hschema⟩, ⟨h₂, trivial⟩, ⟨h₃, hrequestId⟩, ⟨h₄, hdryRun⟩, ⟨h₅, htarget⟩,
      ⟨h₆, hinstruction⟩, ⟨h₇, hparams⟩, ⟨h₈, hresponse⟩, trivial⟩

end Keys

end Tendwire.Commands

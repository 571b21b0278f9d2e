import Tendwire.Commands.Envelope

/-!
# Rejected requests

When the error of a request that was not admitted can be put into an envelope.
-/

namespace Tendwire.Commands

open Strings Python Public

variable {F : Type} [FloatText F] (I : Interpreter F)

/-- What `command_envelope_from_payload` passes to `from_error`, if the text is no valid request. -/
def rejectionOf (payload : Text) : Option (Option (CommandRequest F) × Entries F) :=
  match parseCommandRequest I payload with
  | (request, some error) => some (request, error)
  | (some request, none) => (validateRequest I request).map fun error => (some request, error)
  | (none, none) => none

/-- The codes of the errors of parsing and validation. -/
def rejectionCodes : List Status := [.invalidRequest, .rejected, .invalidSelection]

/-- An error as parsing and validation make them. -/
def IsRejection (error : Entries F) : Prop :=
  ∃ code ∈ rejectionCodes, ∃ message details, error = errorValue I code message details

/-! ### The code of an error -/

/-- Later entries of other keys leave an entry alone. -/
lemma get?_sanitizeEntries (T : Tables) {key : Text} (entries : List (Text × Object F)) :
    ∀ m : Entries F, (∀ e ∈ entries, e.1 ≠ key) →
      (sanitizeEntries T m entries).get? key = m.get? key := by
  induction entries with
  | nil => exact fun m _ => rfl
  | cons e entries ih =>
    obtain ⟨k, item⟩ := e
    intro m hne
    have hrest : ∀ e ∈ entries, e.1 ≠ key := fun e he => hne e (List.mem_cons_of_mem _ he)
    rw [sanitizeEntries]
    split
    · split
      · next v _ =>
        rw [ih _ hrest, Entries.get?_set_of_ne v (hne _ List.mem_cons_self).symm]
      · exact ih m hrest
    · exact ih m hrest

/-- The sanitizer keeps the keys of an error and has nothing to change in its code. -/
lemma error_clean : (∀ key ∈ [ofString "code", ofString "message", ofString "details"],
      keepsKey asciiTables key false = true) ∧
    ∀ code ∈ rejectionCodes, isAscii code.text = true ∧
      sanitizeValueText asciiTables code.text = code.text ∧
      sanitizeString asciiTables (ofString "code") code.text = some code.text := by
  decide +kernel

lemma keepsKey_code (T : Tables) : keepsKey T (ofString "code") false = true := by
  rw [keepsKey_ascii T asciiTables (by decide)]
  exact error_clean.1 _ List.mem_cons_self

lemma sanitizeString_code (T : Tables) {code : Status} (h : code ∈ rejectionCodes) :
    sanitizeString T (ofString "code") code.text = some code.text := by
  obtain ⟨hascii, hsame, hkept⟩ := error_clean.2 code h
  exact sanitizeString_public T (by decide) hascii hsame hkept

/-- The code of an error survives the sanitizer. -/
theorem get?_code {code : Status} (h : code ∈ rejectionCodes) (message : Text)
    (details : Entries F) :
    (errorValue I code message details).get? (ofString "code") = some (.str code.text) := by
  have hfield : normalizedField I.toTables (ofString "code") = ofString "code" := by
    rw [normalizedField_ascii I.toTables asciiTables (by decide)]
    decide
  have hvalue : sanitizeValue I.toTables (ofString "code") (Object.str (F := F) code.text) =
      some (.str code.text) := by
    rw [sanitizeValue, hfield, if_neg (by decide), if_neg (by decide), sanitizeString_code I.toTables h]
    rfl
  have hne : ∀ e ∈ [(ofString "message", Object.str message),
      (ofString "details", Object.ofJson (.dict details))], e.1 ≠ ofString "code" := by
    intro e he
    have hkeys : ofString "message" ≠ ofString "code" ∧ ofString "details" ≠ ofString "code" := by
      decide
    rcases List.mem_cons.mp he with rfl | he
    · exact hkeys.1
    · rw [List.mem_singleton.mp he]
      exact hkeys.2
  unfold errorValue sanitizePublicMapping
  rw [sanitizeEntries, if_pos (by exact keepsKey_code I.toTables), hvalue]
  dsimp only
  rw [get?_sanitizeEntries I.toTables _ _ hne]
  rfl

/-! ### The envelope of an error -/

/-- The envelope that `from_error` aims at. -/
def rejectionEnvelope (T : Tables) (code : Status) (action : Text) (requestId : Option Text)
    (dryRun : Bool) (error : Entries F) : CommandEnvelope F where
  ok := false
  status := code
  action := action
  disposition := .noReceipt
  requestId := requestId
  dryRun := dryRun
  result := none
  error := some (sanitizePublicMapping T (Object.ofJsonEntries error))
  warnings := []
  schemaVersion := .two

lemma checkRules_rejection (T : Tables) {code : Status} (hcode : code ∈ rejectionCodes)
    (action : Text) (requestId : Option Text) (dryRun : Bool) (error : Entries F) :
    (rejectionEnvelope T code action requestId dryRun error).checkRules = .ok () := by
  have hmem : liveRejectionStatuses.contains code = true ∧
      dryRunRejectionStatuses.contains code = true ∧ (code != .answerInProgress) = true := by
    have hall : ∀ code ∈ rejectionCodes, liveRejectionStatuses.contains code = true ∧
        dryRunRejectionStatuses.contains code = true ∧ (code != .answerInProgress) = true := by
      decide
    exact hall code hcode
  obtain ⟨hlive, hdry, hprogress⟩ := hmem
  have htuple : (rejectionEnvelope T code action requestId dryRun error).validNoReceipt = true := by
    unfold CommandEnvelope.validNoReceipt
    simp only [rejectionEnvelope, hlive, hdry, hprogress]
    simp
  have hne : (code == Status.answerInProgress) = false := by simpa using hprogress
  unfold CommandEnvelope.checkRules CommandEnvelope.checkDisposition
  rw [htuple]
  simp only [rejectionEnvelope, hne]
  rfl

/-- The arguments of `from_error` are accepted once the dry-run flag is a boolean. -/
lemma construct_errorArgs (T : Tables) {code : Status} (hcode : code ∈ rejectionCodes)
    (action : Text) {requestId : Object F} {id : Option Text}
    (hid : asOptionalText requestId = some id) (dryRun : Bool) (error : Entries F)
    (hlive : mutatingActions.contains action = true → dryRun = false →
      id.any isValidRequestIdText = true) :
    CommandEnvelope.construct T (CommandEnvelope.errorArgs (.str code.text) (.str action) requestId
      (.bool dryRun) error) = .ok (rejectionEnvelope T code action id dryRun error) := by
  have hstatus : Status.ofText? code.text = some code := by
    have hall : ∀ code ∈ rejectionCodes, Status.ofText? code.text = some code := by decide
    exact hall code hcode
  have hdisposition : Disposition.ofText? Disposition.noReceipt.text = some .noReceipt := by decide
  have hrequestId : (rejectionEnvelope T code action id dryRun error).checkRequestId = .ok () := by
    unfold CommandEnvelope.checkRequestId CommandEnvelope.liveMutation CommandEnvelope.mutating
      CommandEnvelope.hasValidRequestId rejectionEnvelope
    dsimp only
    cases hmutating : mutatingActions.contains action with
    | false => rfl
    | true =>
      cases dryRun with
      | true => rfl
      | false =>
        rw [hlive hmutating rfl]
        rfl
  have hrules := checkRules_rejection T hcode action id dryRun error
  unfold CommandEnvelope.construct CommandEnvelope.errorArgs
  simp only [asBool, asText, hid, hstatus, hdisposition, Option.bind_some, required, asTexts,
    List.mapM_nil]
  change ((rejectionEnvelope T code action id dryRun error).checkRequestId >>= fun _ =>
    (rejectionEnvelope T code action id dryRun error).checkRules >>= fun _ =>
      Except.ok (rejectionEnvelope T code action id dryRun error)) = _
  rw [hrequestId, hrules]
  rfl

/-! ### Errors of parsing and validation -/

lemma isRejection_errorValue {code : Status} (h : code ∈ rejectionCodes) (message : Text)
    (details : Entries F) : IsRejection I (errorValue I code message details) :=
  ⟨code, h, message, details, rfl⟩

/-- An error, if there is one, is a rejection. -/
def Rejects (result : Option (Entries F)) : Prop := ∀ error ∈ result, IsRejection I error

omit I in
lemma mem_rejectionCodes : Status.invalidRequest ∈ rejectionCodes ∧ .rejected ∈ rejectionCodes ∧
    .invalidSelection ∈ rejectionCodes := by
  decide

@[simp] lemma rejects_none : Rejects I none := by
  intro error herror
  cases herror

lemma rejects_some {error : Entries F} (h : IsRejection I error) : Rejects I (some error) := by
  intro other hother
  rw [← Option.some.inj hother]
  exact h

@[simp] lemma rejects_invalid (message : Text) (details : Entries F) :
    Rejects I (some (errorValue I .invalidRequest message details)) :=
  rejects_some I (isRejection_errorValue I mem_rejectionCodes.1 message details)

@[simp] lemma rejects_rejected (message : Text) (details : Entries F) :
    Rejects I (some (errorValue I .rejected message details)) :=
  rejects_some I (isRejection_errorValue I mem_rejectionCodes.2.1 message details)

@[simp] lemma rejects_selection (message field : String) :
    Rejects I (some (fieldError I .invalidSelection message field)) :=
  rejects_some I (isRejection_errorValue I mem_rejectionCodes.2.2 _ _)

@[simp] lemma rejects_field (message field : String) :
    Rejects I (some (fieldError I .invalidRequest message field)) :=
  rejects_invalid I _ _

@[simp] lemma rejects_disallowed (name : String) (extra : List Text) :
    Rejects I (some (disallowedError I name extra)) :=
  rejects_invalid I _ _

@[simp] lemma rejects_forbidden (paths : List Text) :
    Rejects I (some (forbiddenError I paths)) :=
  rejects_invalid I _ _

lemma Rejects.or {a b : Option (Entries F)} (ha : Rejects I a) (hb : Rejects I b) :
    Rejects I (a.or b) := by
  cases a with
  | none => exact hb
  | some error => exact ha

lemma rejects_instructionText (text : Option (Json F)) :
    Rejects I (validateInstructionText I text) := by
  unfold validateInstructionText
  split <;> try simp
  next t =>
    cases instructionTextMessage t with
    | none => exact rejects_none I
    | some message => exact rejects_field I message _

lemma rejects_targetShape (target : Option (Entries F)) :
    Rejects I (validateTargetShape I target) := by
  unfold validateTargetShape
  cases target with
  | none => exact rejects_none I
  | some m =>
    dsimp only
    split_ifs <;> simp

lemma rejects_instructionShape (instruction : Option (Entries F)) :
    Rejects I (validateInstructionShape I instruction) := by
  unfold validateInstructionShape
  cases instruction with
  | none => exact rejects_none I
  | some m =>
    dsimp only
    split_ifs
    · simp
    · exact rejects_instructionText I _

lemma rejects_send (r : CommandRequest F) : Rejects I (validateSend I r) := by
  unfold validateSend
  split_ifs <;> simp

lemma rejects_answerPending (r : CommandRequest F) : Rejects I (validateAnswerPending I r) := by
  unfold validateAnswerPending
  split_ifs
  · simp
  · simp
  · cases r.params with
    | none => simp
    | some params =>
      dsimp only
      split_ifs
      · simp
      · cases (sortTexts answerPendingParamFields).find? fun field =>
          !isNonblank (params.get? field) with
        | none => exact rejects_none I
        | some field => exact rejects_invalid I _ _

lemma rejects_selectionForm (selection : Option (Json F)) :
    Rejects I (validateSelection I selection) := by
  unfold validateSelection
  split
  · simp
  · split_ifs
    · simp
    · split
      · split_ifs <;> simp
      · simp
    · simp
    · simp
    · simp

lemma rejects_answerDecision (r : CommandRequest F) : Rejects I (validateAnswerDecision I r) := by
  unfold validateAnswerDecision
  split_ifs
  · simp
  · simp
  · simp
  · cases r.params with
    | none => simp
    | some params =>
      dsimp only
      split_ifs
      · simp
      · simp
      · exact rejects_selectionForm I _

lemma rejects_action (r : CommandRequest F) : Rejects I (validateAction I r) := by
  unfold validateAction
  split_ifs
  · exact rejects_send I r
  · exact rejects_answerPending I r
  · exact rejects_answerDecision I r
  · exact rejects_none I

/-- Every error of validation is a rejection. -/
theorem rejects_request (r : CommandRequest F) : Rejects I (validateRequest I r) := by
  unfold validateRequest
  split_ifs
  · simp
  · simp
  · simp
  · simp
  · simp
  · simp
  · dsimp only
    split_ifs
    · simp
    · exact (rejects_targetShape I _).or I ((rejects_instructionShape I _).or I (rejects_action I r))

lemma rejects_checkData (data : Entries F) : Rejects I (checkData I data) := by
  unfold checkData
  dsimp only
  split_ifs <;> simp

/-- Every error of parsing is a rejection. -/
theorem rejects_parse (payload : Text) : Rejects I (parseCommandRequest I payload).2 := by
  unfold parseCommandRequest
  split
  · simp
  · next data _ =>
    dsimp only
    split_ifs
    · simp
    · simp
    · have hdata := rejects_checkData I data
      split
      · next error herror => exact herror ▸ hdata
      · simp
  · simp

/-! ### From an error to an envelope -/

/-- A rejection without a receipt, which is no live mutation unless its request id is valid. -/
def IsSafeRejection (e : CommandEnvelope F) : Prop :=
  e.ok = false ∧ e.disposition = .noReceipt ∧ (e.liveMutation = true → e.hasValidRequestId = true)

lemma errorCode_eq {code : Status} (h : code ∈ rejectionCodes) (message : Text)
    (details : Entries F) (default : Status) :
    CommandEnvelope.errorCode (errorValue I code message details) default = .str code.text := by
  unfold CommandEnvelope.errorCode
  rw [get?_code I h]
  rfl

/-- An error without a request always gets its envelope. -/
theorem fromError_none {error : Entries F} (h : IsRejection I error) :
    ∃ e, CommandEnvelope.fromError I none error = .ok e ∧ IsSafeRejection e := by
  obtain ⟨code, hcode, message, details, herror⟩ := h
  rw [herror]
  have hlive : mutatingActions.contains [] = true → true = false →
      (none : Option Text).any isValidRequestIdText = true := by
    intro _ hfalse
    cases hfalse
  refine ⟨rejectionEnvelope I.toTables code [] none true (errorValue I code message details), ?_,
    rfl, rfl, ?_⟩
  · unfold CommandEnvelope.fromError
    dsimp only
    rw [errorCode_eq I hcode]
    exact construct_errorArgs I.toTables hcode [] rfl true _ hlive
  · intro hmutation
    cases hmutation

/-- What is kept of a request id. -/
def keptRequestId (r : CommandRequest F) : Option Text :=
  if isValidRequestId r.requestId || (!r.mutating && r.requestId.str?.isSome) then r.requestId.str?
  else none

omit [FloatText F] in
lemma asOptionalText_kept (r : CommandRequest F) :
    asOptionalText (Object.ofJson (if isValidRequestId r.requestId ||
      (!r.mutating && r.requestId.str?.isSome) then r.requestId else .null)) =
      some (keptRequestId r) := by
  unfold keptRequestId
  cases hid : r.requestId with
  | str t =>
    split_ifs <;> rfl
  | _ =>
    rw [if_neg (by simp [isValidRequestId, Json.str?]), if_neg (by simp [isValidRequestId, Json.str?])]
    rfl

omit [FloatText F] in
lemma any_keptRequestId {r : CommandRequest F} (h : isValidRequestId r.requestId = true) :
    (keptRequestId r).any isValidRequestIdText = true := by
  unfold keptRequestId
  rw [h]
  exact h

/-- A request whose dry-run flag is a boolean gets its envelope. -/
theorem fromError_of_isBool {r : CommandRequest F} {error : Entries F} (h : IsRejection I error)
    (hbool : isBool r.dryRun = true) :
    ∃ e, CommandEnvelope.fromError I (some r) error = .ok e ∧ IsSafeRejection e := by
  obtain ⟨code, hcode, message, details, herror⟩ := h
  rw [herror]
  obtain ⟨b, hb⟩ : ∃ b, r.dryRun = .bool b := by
    cases hd : r.dryRun with
    | bool b => exact ⟨b, rfl⟩
    | _ =>
      rw [hd] at hbool
      cases hbool
  -- a mutation without a valid request id becomes a dry run
  obtain ⟨forced, hforced⟩ : ∃ forced,
      (r.mutating && isFalse r.dryRun && !isValidRequestId r.requestId) = forced := ⟨_, rfl⟩
  let dryRun := forced || b
  have hdry : (if r.mutating && isFalse r.dryRun && !isValidRequestId r.requestId then .bool true
      else r.dryRun) = Json.bool (F := F) dryRun := by
    rw [hforced]
    cases forced with
    | true => rfl
    | false => exact hb
  have hlive : mutatingActions.contains r.action = true → dryRun = false →
      (keptRequestId r).any isValidRequestIdText = true := by
    intro hmutating hnot
    obtain ⟨hcond, hlive⟩ := Bool.or_eq_false_iff.mp hnot
    have hmutating' : r.mutating = true := hmutating
    rw [hcond, hb, hlive, hmutating'] at hforced
    exact any_keptRequestId (by simpa [isFalse] using hforced)
  refine ⟨rejectionEnvelope I.toTables code r.action (keptRequestId r) dryRun
    (errorValue I code message details), ?_, rfl, rfl, ?_⟩
  · unfold CommandEnvelope.fromError
    dsimp only
    rw [errorCode_eq I hcode, hdry]
    exact construct_errorArgs I.toTables hcode r.action (asOptionalText_kept r) dryRun _ hlive
  · intro hmutation
    obtain ⟨hmutating, hnot⟩ := Bool.and_eq_true_iff.mp hmutation
    exact hlive hmutating (by simpa [rejectionEnvelope] using hnot)

/-- A request with any other dry-run flag gets an exception. -/
theorem fromError_of_not_isBool {r : CommandRequest F} {error : Entries F}
    (h : IsRejection I error) (hbool : isBool r.dryRun = false) :
    CommandEnvelope.fromError I (some r) error = .error "dry_run must be a boolean" := by
  obtain ⟨code, hcode, message, details, herror⟩ := h
  rw [herror]
  have hfalse : isFalse r.dryRun = false := by
    cases hd : r.dryRun with
    | bool b =>
      rw [hd] at hbool
      cases hbool
    | _ => rfl
  have hasBool : asBool (Object.ofJson r.dryRun) = none := by
    cases hd : r.dryRun with
    | bool b =>
      rw [hd] at hbool
      cases hbool
    | _ => rfl
  have hstatus : Status.ofText? code.text = some code := by
    have hall : ∀ code ∈ rejectionCodes, Status.ofText? code.text = some code := by decide
    exact hall code hcode
  have hdisposition : Disposition.ofText? Disposition.noReceipt.text = some .noReceipt := by decide
  unfold CommandEnvelope.fromError
  dsimp only
  rw [errorCode_eq I hcode, hfalse, Bool.and_false, Bool.false_and, if_neg Bool.false_ne_true]
  unfold CommandEnvelope.construct CommandEnvelope.errorArgs
  rw [asOptionalText_kept, hasBool]
  simp only [asText, hstatus, hdisposition, required, asBool, Option.bind_some]
  rfl

/-! ### When every rejection gets its envelope -/

/-- The request comes back unchecked, and its dry-run flag is no boolean: a forbidden name stands
below the top level only. -/
def uncheckedDryRun (payload : Text) : Bool :=
  match loads (F := F) payload with
  | some (.dict data) =>
    findForbiddenFields I.toTables (ofString "$") (.dict data) ≠ [] &&
      !(Entries.keys data).any (isForbiddenFieldName I.toTables) &&
      (Entries.get? data (ofString "dry_run")).any (!isBool ·)
  | _ => false

lemma isBool_fromDict (data : Entries F) :
    isBool (CommandRequest.fromDict I data).dryRun =
      !(Entries.get? data (ofString "dry_run")).any (!isBool ·) := by
  unfold CommandRequest.fromDict
  dsimp only
  cases Entries.get? data (ofString "dry_run") with
  | none => rfl
  | some v => simp

/-- Parsing with an error: a request comes back only from the unchecked branch. -/
lemma isBool_parse {payload : Text} {r : CommandRequest F} {error : Entries F}
    (h : parseCommandRequest I payload = (some r, some error)) :
    isBool r.dryRun = !uncheckedDryRun I payload := by
  unfold parseCommandRequest at h
  unfold uncheckedDryRun
  split at h
  · cases h
  · next data hloads =>
    rw [hloads]
    dsimp only at h ⊢
    split_ifs at h with hforbidden htop
    · cases h
    · rw [← Option.some.inj (Prod.mk.inj h).1, isBool_fromDict]
      simp [hforbidden, htop]
    · cases hdata : checkData I data with
      | none =>
        rw [hdata] at h
        cases h
      | some e =>
        rw [hdata] at h
        cases h
  · cases h

/-- Parsing without an error: the flag was checked. -/
lemma isBool_parsed {payload : Text} {r : CommandRequest F}
    (h : parseCommandRequest I payload = (some r, none)) :
    isBool r.dryRun = true ∧ uncheckedDryRun I payload = false := by
  unfold parseCommandRequest at h
  unfold uncheckedDryRun
  split at h
  · cases h
  · next data hloads =>
    rw [hloads]
    dsimp only at h ⊢
    split_ifs at h with hforbidden htop
    · cases h
    · cases h
    · cases hdata : checkData I data with
      | some e =>
        rw [hdata] at h
        cases h
      | none =>
        rw [hdata] at h
        cases h
        refine ⟨?_, by simp [not_not.mp hforbidden]⟩
        rw [isBool_fromDict]
        unfold checkData at hdata
        dsimp only at hdata
        split_ifs at hdata with _ _ hbool
        simpa using hbool
  · cases h

/-- Parsing without a request: nothing is left unchecked. -/
lemma uncheckedDryRun_of_none {payload : Text} {error : Option (Entries F)}
    (h : parseCommandRequest I payload = (none, error)) : uncheckedDryRun I payload = false := by
  unfold parseCommandRequest at h
  unfold uncheckedDryRun
  split at h
  · next hloads => rw [hloads]
  · next data hloads =>
    rw [hloads]
    dsimp only at h ⊢
    split_ifs at h with hforbidden htop
    · simp [htop]
    · cases (Prod.mk.inj h).1
    · simp [not_not.mp hforbidden]
  · next v hv hloads =>
    rw [hloads]
    cases v with
    | dict data => exact absurd rfl (hv data)
    | _ => rfl

/-- A rejection is an error of parsing or of validation. -/
lemma isRejection_rejectionOf {payload : Text} {request : Option (CommandRequest F)}
    {error : Entries F} (h : rejectionOf I payload = some (request, error)) :
    IsRejection I error := by
  have hparse := rejects_parse I payload
  unfold rejectionOf at h
  split at h
  · next hpair =>
    rw [hpair] at hparse
    rw [← (Prod.mk.inj (Option.some.inj h)).2]
    exact hparse _ rfl
  · next r _ =>
    obtain ⟨e, he, hpair⟩ := Option.map_eq_some_iff.mp h
    rw [← (Prod.mk.inj hpair).2]
    exact rejects_request I r e he
  · cases h

/-- The dry-run flag of a rejected request. -/
lemma isBool_rejectionOf {payload : Text} {request : Option (CommandRequest F)} {error : Entries F}
    (h : rejectionOf I payload = some (request, error)) :
    request.all (isBool ·.dryRun) = !uncheckedDryRun I payload := by
  unfold rejectionOf at h
  split at h
  · next r e hpair =>
    rw [← (Prod.mk.inj (Option.some.inj h)).1]
    cases r with
    | none =>
      rw [uncheckedDryRun_of_none I hpair]
      rfl
    | some r => exact isBool_parse I hpair
  · next r hpair =>
    obtain ⟨e, he, heq⟩ := Option.map_eq_some_iff.mp h
    obtain ⟨hbool, hunchecked⟩ := isBool_parsed I hpair
    rw [← (Prod.mk.inj heq).1, hunchecked]
    exact hbool
  · cases h

/-- Every rejected text gets an envelope, a rejection without a receipt that is no live mutation
without a valid request id, exactly if its dry-run flag did not stay unchecked. -/
theorem fromError_safe_iff {payload : Text} {request : Option (CommandRequest F)}
    {error : Entries F} (h : rejectionOf I payload = some (request, error)) :
    (∃ e, CommandEnvelope.fromError I request error = .ok e ∧ IsSafeRejection e) ↔
      uncheckedDryRun I payload = false := by
  have herror := isRejection_rejectionOf I h
  have hbool := isBool_rejectionOf I h
  cases request with
  | none =>
    have hunchecked : uncheckedDryRun I payload = false := by simpa using hbool.symm
    exact iff_of_true (fromError_none I herror) hunchecked
  | some r =>
    cases hunchecked : uncheckedDryRun I payload with
    | false =>
      rw [hunchecked] at hbool
      exact iff_of_true (fromError_of_isBool I herror hbool) rfl
    | true =>
      rw [hunchecked] at hbool
      refine iff_of_false ?_ Bool.noConfusion
      rintro ⟨e, he, -⟩
      rw [fromError_of_not_isBool I herror hbool] at he
      cases he

/-- A text that is no JSON gets its envelope. -/
theorem fromError_safe_iff_truncated :
    ∃ request error, rejectionOf asciiInterpreter (ofString "[") = some (request, error) ∧
      ∃ e, CommandEnvelope.fromError asciiInterpreter request error = .ok e ∧
        IsSafeRejection e := by
  have hsome : (rejectionOf asciiInterpreter (ofString "[")).isSome = true := by decide +kernel
  have hchecked : uncheckedDryRun asciiInterpreter (ofString "[") = false := by decide +kernel
  obtain ⟨⟨request, error⟩, h⟩ := Option.isSome_iff_exists.mp hsome
  exact ⟨request, error, h, (fromError_safe_iff asciiInterpreter h).mpr hchecked⟩

def uncheckedPayload : Text :=
  ofString "\x7b\"action\":\"noop\",\"dry_run\":\"yes\",\"target\":\x7b\"token\":1\x7d\x7d"

/-- A forbidden name in the target hides a dry-run flag that is a string. -/
theorem fromError_raises :
    ∃ request error, rejectionOf asciiInterpreter uncheckedPayload = some (request, error) ∧
      CommandEnvelope.fromError asciiInterpreter request error =
        .error "dry_run must be a boolean" := by
  obtain ⟨hsome, hunchecked⟩ : (rejectionOf asciiInterpreter uncheckedPayload).isSome = true ∧
      uncheckedDryRun asciiInterpreter uncheckedPayload = true := by decide +kernel
  obtain ⟨⟨request, error⟩, h⟩ := Option.isSome_iff_exists.mp hsome
  have hbool := isBool_rejectionOf asciiInterpreter h
  rw [hunchecked] at hbool
  refine ⟨request, error, h, ?_⟩
  cases request with
  | none => cases hbool
  | some r =>
    exact fromError_of_not_isBool asciiInterpreter (isRejection_rejectionOf asciiInterpreter h) hbool

end Tendwire.Commands

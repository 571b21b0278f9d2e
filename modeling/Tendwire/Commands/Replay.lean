import Tendwire.Commands.Envelope
import Tendwire.Commands.Rejection
import Tendwire.Commands.Validated
import Tendwire.Public.Ascii
import Tendwire.Public.Resanitized
import Tendwire.Transition.Fallible

/-!
# Replayed envelopes

When a constructed envelope comes back from its dictionary and from its stored text.
-/

namespace Tendwire.Commands

open Strings Python Public Transition

variable {F : Type} [FloatText F] (T : Tables)

namespace CommandEnvelope

/-- The result and the error, as far as they are there. -/
def HasMapping (e : CommandEnvelope F) (m : Entries F) : Prop :=
  e.result = some m ∨ e.error = some m

/-- What the constructor establishes. -/
structure Admitted (e : CommandEnvelope F) : Prop where
  cleaned : ∀ m, e.HasMapping m → CleanedEntries T m ∧ (Entries.keys m).Nodup
  warnings : ∀ w ∈ e.warnings, w ≠ []
  requestId : e.checkRequestId = .ok ()
  rules : e.checkRules = .ok ()

/-- A second pass of the sanitizer changes nothing. -/
structure Settled (e : CommandEnvelope F) : Prop where
  mappings : ∀ m, e.HasMapping m → SettledEntries T m
  warnings : ∀ w ∈ e.warnings, sanitizePublicText T none w = w

/-- No NaN stands in the result or the error. -/
def NanFree (e : CommandEnvelope F) : Prop := ∀ m, e.HasMapping m → NanFreeEntries m

/-- The arguments, once their types are checked. -/
structure TypedArgs (F : Type) where
  ok : Bool
  status : Status
  action : Text
  disposition : Disposition
  requestId : Option Text
  dryRun : Bool
  result : Option (List (Text × Object F))
  error : Option (List (Text × Object F))
  warnings : List Text
  schemaVersion : EnvelopeVersion

/-- The envelope of typed arguments, before the rules. -/
def sanitized (a : TypedArgs F) : CommandEnvelope F where
  ok := a.ok
  status := a.status
  action := a.action
  disposition := a.disposition
  requestId := a.requestId
  dryRun := a.dryRun
  result := a.result.map (sanitizePublicMapping T)
  error := a.error.map (sanitizePublicMapping T)
  warnings := (a.warnings.map (sanitizePublicText T none)).filter (!·.isEmpty)
  schemaVersion := a.schemaVersion

/-- The envelope with the keys of its mappings in order. -/
def sorted (e : CommandEnvelope F) : CommandEnvelope F :=
  { e with
    result := e.result.map fun m => sortEntries (sortKeysEntries m)
    error := e.error.map fun m => sortEntries (sortKeysEntries m) }

omit [FloatText F] in
lemma hasMapping_sorted {e : CommandEnvelope F} {m : Entries F} (h : e.sorted.HasMapping m) :
    ∃ n, e.HasMapping n ∧ m = sortEntries (sortKeysEntries n) := by
  rcases h with h | h
  · obtain ⟨n, hn, hm⟩ := Option.map_eq_some_iff.mp h
    exact ⟨n, .inl hn, hm.symm⟩
  · obtain ⟨n, hn, hm⟩ := Option.map_eq_some_iff.mp h
    exact ⟨n, .inr hn, hm.symm⟩

omit [FloatText F] in
/-- The order of the keys does not matter to a submission. -/
lemma hasSubmission_sorted {e : CommandEnvelope F} (h : e.Admitted T) :
    e.sorted.hasSubmission = e.hasSubmission := by
  unfold hasSubmission sorted
  cases hresult : e.result with
  | none => rfl
  | some m =>
    have hkeys := (h.cleaned m (.inl hresult)).2
    rw [Option.map_some, Option.any_some, Option.any_some, get?_sortEntries hkeys,
      get?_sortEntries hkeys]
    congr 1
    · cases m.get? (ofString "submission_id") with
      | none => rfl
      | some v => cases v <;> rfl
    · cases m.get? (ofString "turn_id") with
      | none => rfl
      | some v => cases v <;> rfl

omit [FloatText F] in
lemma checkRules_sorted {e : CommandEnvelope F} (h : e.Admitted T) :
    e.sorted.checkRules = e.checkRules := by
  have herror : e.sorted.error.isSome = e.error.isSome := Option.isSome_map
  have hdisposition : e.sorted.checkDisposition = e.checkDisposition := rfl
  unfold checkRules
  rw [herror, hdisposition, hasSubmission_sorted T h]
  rfl

omit [FloatText F] in
lemma Admitted.sorted {e : CommandEnvelope F} (h : e.Admitted T) : e.sorted.Admitted T := by
  refine ⟨fun m hm => ?_, h.warnings, h.requestId, (checkRules_sorted T h).trans h.rules⟩
  obtain ⟨n, hn, rfl⟩ := hasMapping_sorted hm
  obtain ⟨hclean, hkeys⟩ := h.cleaned n hn
  exact ⟨(cleanedEntries_sort T).mpr (cleanedEntries_sortKeys T n hclean),
    nodup_keys_sortKeys hkeys⟩

lemma Settled.sorted {e : CommandEnvelope F} (h : e.Settled T) : e.sorted.Settled T := by
  refine ⟨fun m hm => ?_, h.warnings⟩
  obtain ⟨n, hn, rfl⟩ := hasMapping_sorted hm
  exact (settledEntries_sort T).mpr ((settledEntries_sortKeys T n).mpr (h.mappings n hn))

section Noop

variable {key value clean : String}

end Noop

end CommandEnvelope

end Tendwire.Commands

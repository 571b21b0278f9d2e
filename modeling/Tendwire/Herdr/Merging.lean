import Tendwire.Herdr.Ownership
import Tendwire.Turns.ItemAgreement

/-!
# Merging agent rows and pane rows

An agent row takes the identity of the one pane row that it is joined with. The rows whose
ownership is ambiguous stay apart, without a target to send to or to read turns from.
-/

namespace Tendwire

open Json Graph PaneOwnership

def agentScopedBackendTargetKinds : List String := ["agent_id", "agent"]

def sessionScopedTurnTargetKinds : List String := ["codex_session_id", "omp_session_path"]

/-- The agent's target where it is the agent's own, the pane's target otherwise. -/
def compatibleBackendTarget (agentRecord paneRecord : WorkerRecord) : Option BackendTarget :=
  match agentRecord.presentTarget with
  | none => paneRecord.presentTarget
  | some target =>
    if target.kind = "agent_id" ∧ paneRecord.presentTarget.any
        (fun pane => pane.kind == "agent_id" && pane.value != target.value) then
      paneRecord.presentTarget
    else if agentScopedBackendTargetKinds.contains target.kind ∧
        (target.kind ≠ "agent" ∨ target.value = paneRecord.worker.name) then
      some target
    else
      paneRecord.presentTarget

/-- A turn target whose kind and value are both there. -/
def WorkerRecord.presentTurnTarget (record : WorkerRecord) : Option (String × String) :=
  match record.turnTargetKind, record.turnTargetValue with
  | some kind, some value => if kind = "" ∨ value = "" then none else some (kind, value)
  | _, _ => none

def compatibleTurnTarget (agentRecord paneRecord : WorkerRecord) : Option (String × String) :=
  match agentRecord.presentTurnTarget with
  | none => paneRecord.presentTurnTarget
  | some (kind, value) =>
    if sessionScopedTurnTargetKinds.contains kind then
      if paneRecord.agentSessionId.any fun session => session != "" && session != value then
        paneRecord.presentTurnTarget
      else
        match paneRecord.presentTurnTarget with
        | some pane =>
          if sessionScopedTurnTargetKinds.contains pane.1 then some pane else some (kind, value)
        | none => some (kind, value)
    else
      paneRecord.presentTurnTarget

/-- Metadata of the pane that the agent's takes over. -/
def mergedMeta (agentMeta paneMeta : Fields) : Fields :=
  let given (key : String) :=
    ((paneMeta.get? key).bind Value.text?).filter fun text => strip text != ""
  let labelled := match given "label" with
    | some label => agentMeta.set "label" (.text label)
    | none => agentMeta
  ["foreground_cwd", "cwd"].foldl (fun merged key =>
    match given key with
    | some path =>
      if (merged.get? key).any Value.truthy then merged else merged.set key (.text path)
    | none => merged) labelled

namespace ObservationRules

variable (R : ObservationRules) (config : Option ObservationConfig)

def ambiguousAgentRecord (record : WorkerRecord) (observation : Fields) : WorkerRecord where
  worker :=
    match record.presentTarget with
    | some target => R.workerWithBackendTarget record.worker
        (some ⟨target.kind, target.value, false, some "ambiguous_pane_match"⟩)
    | none => record.worker
  privateFingerprint :=
    match config with
    | some c => R.workerBindingPrivateFingerprint c.hostId backendName
        [("ambiguous_pane_ownership", .object observation),
          ("source_private_fingerprint", .text record.privateFingerprint)]
    | none => record.privateFingerprint
  turnTargetKind := none
  turnTargetValue := none
  workspaceId := record.workspaceId
  paneId := record.paneId
  observedWorkspaceId := record.observedWorkspaceId
  observedPaneId := record.observedPaneId
  identitySource := record.identitySource
  terminalId := record.terminalId
  agentSessionId := record.agentSessionId
  paneInfoObserved := false
  unmatchedAgentObservation := false

def mergeAgentPaneRecord (agentRecord paneRecord : WorkerRecord) : WorkerRecord :=
  let own := agentRecord.worker
  let metaFields := mergedMeta own.metaFields paneRecord.worker.metaFields
  let backendTarget := compatibleBackendTarget agentRecord paneRecord
  let spaceId := paneRecord.worker.spaceId
  let worker :=
    if !Value.same (.object metaFields) (.object own.metaFields) || backendTarget ≠ own.backendTarget ||
        spaceId ≠ own.spaceId then
      R.remakeWorker { own with spaceId, metaFields, backendTarget }
    else
      own
  let turnTarget := compatibleTurnTarget agentRecord paneRecord
  let turnTargetKind := turnTarget.map Prod.fst
  let turnTargetValue := turnTarget.map Prod.snd
  if worker.same own && turnTargetKind = agentRecord.turnTargetKind &&
      turnTargetValue = agentRecord.turnTargetValue &&
      paneRecord.workspaceId = agentRecord.workspaceId && paneRecord.paneId = agentRecord.paneId &&
      paneRecord.terminalId = agentRecord.terminalId && agentRecord.paneInfoObserved then
    agentRecord
  else
    { worker
      privateFingerprint := agentRecord.privateFingerprint
      turnTargetKind
      turnTargetValue
      workspaceId := paneRecord.workspaceId
      paneId := paneRecord.paneId
      observedWorkspaceId := paneRecord.observedWorkspaceId
      observedPaneId := paneRecord.observedPaneId
      identitySource := paneRecord.identitySource
      terminalId := paneRecord.terminalId
      agentSessionId := paneRecord.agentSessionId
      paneInfoObserved := true
      unmatchedAgentObservation := false }

variable {R} (agents panes : List (ObservedRow R))

/-- The record that an agent row gives. -/
def agentObservation (a : Fin agents.length) : WorkerRecord :=
  let graph := paneOwnershipGraph agents panes
  let row := agents[a]
  if a ∈ graph.ambiguousAgents then
    R.ambiguousAgentRecord config row.record row.item
  else
    match graph.agentMatches a with
    | [p] => R.mergeAgentPaneRecord row.record panes[p].record
    | _ => row.record

/-- The record that a pane row gives, unless an agent matches it. -/
def paneObservation (p : Fin panes.length) : Option WorkerRecord :=
  let graph := paneOwnershipGraph agents panes
  let row := panes[p]
  if (List.finRange agents.length).any fun a => p ∈ graph.agentMatches a then
    none
  else if p ∈ graph.ambiguousPanes then
    some (R.ambiguousAgentRecord config row.record row.item)
  else
    some row.record

variable (R)

end ObservationRules

/-! ### The graph is exact -/

namespace PaneOwnership

open ObservationRules

variable {R : ObservationRules} (agents panes : List (ObservedRow R))

abbrev rowClaims : Claims (Fin agents.length) (Fin panes.length) OwnershipKey :=
  (keyTable agents panes).claims

/-- The agent row takes the identity of the pane row. -/
def Merged (a : Fin agents.length) (p : Fin panes.length) : Prop :=
  a ∉ (paneOwnershipGraph agents panes).ambiguousAgents ∧
    (paneOwnershipGraph agents panes).agentMatches a = [p]

/-- A record without a turn target, and with no backend target that is sent to. -/
def Disowned (record : WorkerRecord) : Prop :=
  record.turnTargetKind = none ∧ record.turnTargetValue = none ∧
    ∀ target, record.presentTarget = some target →
      target.sendable = false ∧ target.reason = some "ambiguous_pane_match"

variable {agents panes}

lemma mem_ambiguousAgents {a : Fin agents.length} :
    a ∈ (paneOwnershipGraph agents panes).ambiguousAgents ↔
      (rowClaims agents panes).Ambiguous (.inl a) := by
  rw [← KeyTable.mem_ambiguousNodes]
  simp [paneOwnershipGraph]

lemma mem_ambiguousPanes {p : Fin panes.length} :
    p ∈ (paneOwnershipGraph agents panes).ambiguousPanes ↔
      (rowClaims agents panes).Ambiguous (.inr p) := by
  rw [← KeyTable.mem_ambiguousNodes]
  simp [paneOwnershipGraph]

lemma agentMatches_eq_singleton {a : Fin agents.length} {p : Fin panes.length} :
    (paneOwnershipGraph agents panes).agentMatches a = [p] ↔
      (rowClaims agents panes).Matched a p ∧ ∀ p', (rowClaims agents panes).Matched a p' → p' = p := by
  have hmem (p : Fin panes.length) : p ∈ (paneOwnershipGraph agents panes).agentMatches a ↔
      (rowClaims agents panes).Matched a p := KeyTable.mem_agentMatches
  have hnodup : ((paneOwnershipGraph agents panes).agentMatches a).Nodup :=
    KeyTable.agentMatches_nodup
  constructor
  · intro h
    simp only [← hmem, h, List.mem_singleton, true_and]
    exact fun _ => id
  · rintro ⟨hp, huniq⟩
    have hsub : (paneOwnershipGraph agents panes).agentMatches a ⊆ [p] := by
      intro p' hp'
      rw [huniq p' ((hmem p').mp hp')]
      exact List.mem_singleton_self p
    apply List.Perm.eq_singleton
    exact (List.perm_ext_iff_of_nodup hnodup (List.nodup_singleton p)).mpr fun p' =>
      ⟨fun h => hsub h, fun h => (List.mem_singleton.mp h) ▸ (hmem p).mpr hp⟩

lemma merged_iff_paired {a : Fin agents.length} {p : Fin panes.length} :
    Merged agents panes a p ↔ (rowClaims agents panes).Paired a p := by
  rw [Merged, mem_ambiguousAgents, agentMatches_eq_singleton]
  rfl

lemma disowned_ambiguousAgentRecord (config : Option ObservationConfig) (record : WorkerRecord)
    (observation : Fields) : Disowned (R.ambiguousAgentRecord config record observation) := by
  refine ⟨rfl, rfl, ?_⟩
  intro target htarget
  obtain ⟨hsome, hpresent⟩ := Option.filter_eq_some_iff.mp htarget
  unfold ambiguousAgentRecord at hsome
  cases hown : record.presentTarget with
  | some own =>
    rw [hown] at hsome
    dsimp only at hsome
    rw [backendTarget_workerWithBackendTarget] at hsome
    obtain rfl := Option.some.inj hsome
    exact ⟨rfl, rfl⟩
  | none =>
    rw [hown] at hsome
    rw [WorkerRecord.presentTarget, hsome, Option.filter_some, if_pos hpresent] at hown
    cases hown

/-! ### The order of the rows -/

/-- The rows of one list are those of the other, in the order that `σ` says. -/
def Reordered (rows' rows : List (ObservedRow R)) (σ : Fin rows'.length ≃ Fin rows.length) : Prop :=
  ∀ i, rows'[i] = rows[σ i]

section Order

variable {agents' panes' : List (ObservedRow R)} {σ : Fin agents'.length ≃ Fin agents.length}
  {τ : Fin panes'.length ≃ Fin panes.length}

lemma rowClaims_reordered (hagents : Reordered agents' agents σ) (hpanes : Reordered panes' panes τ) :
    rowClaims agents' panes' = (rowClaims agents panes).reindex σ τ := by
  have hagent (i) : agents'.get i = agents.get (σ i) := hagents i
  have hpane (i) : panes'.get i = panes.get (τ i) := hpanes i
  ext x k
  · cases x with
    | inl a =>
      simp [rowClaims, KeyTable.claims, keyTable, Claims.reindex, hagent, -List.get_eq_getElem]
    | inr p =>
      simp [rowClaims, KeyTable.claims, keyTable, Claims.reindex, hpane, -List.get_eq_getElem]
  · cases x with
    | inl a =>
      simp [rowClaims, KeyTable.claims, keyTable, Claims.reindex, hagent, -List.get_eq_getElem]
    | inr p =>
      simp [rowClaims, KeyTable.claims, keyTable, Claims.reindex, hpane, -List.get_eq_getElem]
  · rfl

lemma merged_reordered (hagents : Reordered agents' agents σ) (hpanes : Reordered panes' panes τ)
    (a : Fin agents'.length) (p : Fin panes'.length) :
    Merged agents' panes' a p ↔ Merged agents panes (σ a) (τ p) := by
  rw [merged_iff_paired, merged_iff_paired, rowClaims_reordered hagents hpanes,
    Claims.paired_reindex]

lemma ambiguousAgents_reordered (hagents : Reordered agents' agents σ)
    (hpanes : Reordered panes' panes τ) (a : Fin agents'.length) :
    a ∈ (paneOwnershipGraph agents' panes').ambiguousAgents ↔
      σ a ∈ (paneOwnershipGraph agents panes).ambiguousAgents := by
  rw [mem_ambiguousAgents, mem_ambiguousAgents, rowClaims_reordered hagents hpanes,
    Claims.ambiguous_reindex]
  rfl

lemma ambiguousPanes_reordered (hagents : Reordered agents' agents σ)
    (hpanes : Reordered panes' panes τ) (p : Fin panes'.length) :
    p ∈ (paneOwnershipGraph agents' panes').ambiguousPanes ↔
      τ p ∈ (paneOwnershipGraph agents panes).ambiguousPanes := by
  rw [mem_ambiguousPanes, mem_ambiguousPanes, rowClaims_reordered hagents hpanes,
    Claims.ambiguous_reindex]
  rfl

end Order

/-- An agent row is merged with a pane row exactly when the two are a component of their own and no
other row claims a key of theirs. The ambiguous rows are those that matches lead to from a contested
one; they get no target. None of this depends on the order of the rows. -/
theorem paneOwnershipExact {R : ObservationRules} (config : Option ObservationConfig)
    (agents panes : List (ObservedRow R)) :
    (∀ a p, Merged agents panes a p ↔
      (rowClaims agents panes).component (.inl a) = {.inl a, .inr p} ∧
        (rowClaims agents panes).Unclaimed a p) ∧
    (∀ a, a ∈ (paneOwnershipGraph agents panes).ambiguousAgents ↔
      (rowClaims agents panes).Ambiguous (.inl a)) ∧
    (∀ p, p ∈ (paneOwnershipGraph agents panes).ambiguousPanes ↔
      (rowClaims agents panes).Ambiguous (.inr p)) ∧
    (∀ a ∈ (paneOwnershipGraph agents panes).ambiguousAgents,
      Disowned (agentObservation config agents panes a)) ∧
    (∀ p ∈ (paneOwnershipGraph agents panes).ambiguousPanes,
      ∀ record ∈ paneObservation config agents panes p, Disowned record) ∧
    ∀ (agents' panes' : List (ObservedRow R)) (σ : Fin agents'.length ≃ Fin agents.length)
      (τ : Fin panes'.length ≃ Fin panes.length),
      Reordered agents' agents σ → Reordered panes' panes τ →
      (∀ a p, Merged agents' panes' a p ↔ Merged agents panes (σ a) (τ p)) ∧
      (∀ a, a ∈ (paneOwnershipGraph agents' panes').ambiguousAgents ↔
        σ a ∈ (paneOwnershipGraph agents panes).ambiguousAgents) ∧
      ∀ p, p ∈ (paneOwnershipGraph agents' panes').ambiguousPanes ↔
        τ p ∈ (paneOwnershipGraph agents panes).ambiguousPanes := by
  refine ⟨fun a p => merged_iff_paired.trans Claims.paired_iff, fun _ => mem_ambiguousAgents,
    fun _ => mem_ambiguousPanes, ?_, ?_, ?_⟩
  · intro a ha
    rw [agentObservation, if_pos ha]
    exact disowned_ambiguousAgentRecord config _ _
  · intro p hp record hrecord
    rw [paneObservation] at hrecord
    split at hrecord
    · cases hrecord
    · obtain rfl := Option.some.inj hrecord
      exact disowned_ambiguousAgentRecord config _ _
  · intro agents' panes' σ τ hagents hpanes
    exact ⟨merged_reordered hagents hpanes, ambiguousAgents_reordered hagents hpanes,
      ambiguousPanes_reordered hagents hpanes⟩

/-! ### Agents that share a pane nobody listed -/

/-- Rules that tell the private identities of two agents apart. -/
def plainObservationRules : ObservationRules where
  toTextRules := plainTextRules
  privateStableDigest v := if Value.same v .null then "0" else "1"
  adapterDigest v := match v with
    | .object m => ((Fields.get? m "agent_id").bind Value.text?).getD ""
    | _ => ""
  observationJson _ := ""
  lower_plain _ _ := rfl

def siblingItem (agentId : String) : Fields := [("agent_id", .text agentId), ("pane_id", .text "p1")]

/-- Two agents on one pane. -/
def siblingRows : List (ObservedRow plainObservationRules) :=
  [plainObservationRules.agentRow none (siblingItem "a1"),
    plainObservationRules.agentRow none (siblingItem "a2")]

def firstSibling : Fin siblingRows.length := ⟨0, by decide⟩

def secondSibling : Fin siblingRows.length := ⟨1, by decide⟩

/-- Agents that claim one pane stay sendable, with the pane as turn target, when no pane row
answers. -/
theorem shared_pane_unmarked :
    .paneId "p1" ∈ (keyTable siblingRows []).agentMatchKeys firstSibling ∧
    .paneId "p1" ∈ (keyTable siblingRows []).agentMatchKeys secondSibling ∧
    firstSibling ≠ secondSibling ∧
    firstSibling ∉ (paneOwnershipGraph siblingRows []).ambiguousAgents ∧
    (agentObservation none siblingRows [] firstSibling).turnTargetValue = some "p1" ∧
    (agentObservation none siblingRows [] firstSibling).presentTarget =
      some (privateBackendTarget "agent_id" "a1") := by
  decide +kernel

end PaneOwnership

end Tendwire

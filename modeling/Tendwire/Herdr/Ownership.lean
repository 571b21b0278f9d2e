import Tendwire.Graph.Claims
import Tendwire.Graph.Marking
import Tendwire.Herdr.Records

/-!
# Pane ownership

Agent rows and pane rows claim panes, terminals, sessions, private identities, send tokens and
turn targets. A graph over both lists says which rows match, and marks the rows whose claims
contradict others.
-/

namespace Tendwire

open Json Graph

/-- A key that a row claims, with the value it claims. -/
inductive OwnershipKey where
  | paneId (value : String)
  | terminalId (value : String)
  | agentSession (value : String)
  | privateFingerprint (value : String)
  | backend (kind value : String)
  | backendSendToken (value : String)
  | turn (kind value : String)
  deriving DecidableEq, Repr

def OwnershipKey.isSendToken : OwnershipKey → Bool
  | backendSendToken _ => true
  | _ => false

def BackendTarget.present (target : BackendTarget) : Bool := target.kind != "" && target.value != ""

def WorkerRecord.presentTarget (record : WorkerRecord) : Option BackendTarget :=
  record.worker.backendTarget.filter BackendTarget.present

namespace ObservationRules

variable (R : ObservationRules)

def recordMatchKeys (item : Fields) (record : WorkerRecord) (paneShaped : Bool) :
    List OwnershipKey :=
  let paneIdKeys := if paneShaped then ["pane_id", "paneId", "id"] else ["pane_id", "paneId"]
  let session := eitherText (R.agentSession item) (R.firstText item ["session_id", "sessionId"])
  let present (text : Option String) := (text.filter (· != "")).toList
  (present (R.firstText item paneIdKeys)).map .paneId ++
    (present (R.firstText item ["terminal_id", "terminalId"])).map .terminalId ++
    (present session).map .agentSession ++
    (present (some record.privateFingerprint)).map .privateFingerprint

def recordOwnershipKeys (item : Fields) (record : WorkerRecord) (paneShaped : Bool) :
    List OwnershipKey :=
  let turn := match record.turnTargetKind, record.turnTargetValue with
    | some kind, some value => if kind = "" ∨ value = "" then [] else [.turn kind value]
    | _, _ => []
  R.recordMatchKeys item record paneShaped ++
    record.presentTarget.toList.flatMap
      (fun target => [.backend target.kind target.value, .backendSendToken target.value]) ++ turn

/-! ### The keys of a record are those of its item -/

/-- The fields that turn targets are read from. -/
def turnTargetFields : List String :=
  ["agent", "name", "pane_id", "agent_session", "id", "value", "label"]

lemma isTurnObservationField_of_matches {key k : String} (hkey : key ∈ turnTargetFields)
    (h : R.fieldMatches k key = true) : R.isTurnObservationField k = false := by
  have hplain : ∀ key ∈ turnTargetFields, key.toList.all isPlainNameChar = true ∧
      turnObservationFieldNames.contains
        (removeChar '_' (replaceChar '.' '_' (replaceChar '-' '_' key))) = false := by decide
  obtain ⟨hp, hother⟩ := hplain key hkey
  rw [fieldMatches, beq_iff_eq, R.compactFieldName_plain hp] at h
  rw [isTurnObservationField, h, hother]

lemma turnTargetFromItem_stripped (item : Fields) :
    R.turnTargetFromItem (R.stripTurnObservationFields item) = R.turnTargetFromItem item := by
  have hfirst {keys : List String} (h : keys ⊆ turnTargetFields) :
      R.firstText (R.stripTurnObservationFields item) keys = R.firstText item keys :=
    R.firstText_stripFieldsMapping fun _ hkey _ hm =>
      R.isTurnObservationField_of_matches (h hkey) hm
  have hsession : R.agentSession (R.stripTurnObservationFields item) = R.agentSession item := by
    apply R.nestedText_stripFieldsMapping
    intro key hkey k hm
    have hsub : ["agent_session", "value"] ++ ["id", "value", "name", "label"] ⊆
        turnTargetFields := by decide
    exact R.isTurnObservationField_of_matches (hsub hkey) hm
  unfold turnTargetFromItem
  have hagent : ["agent", "name"] ⊆ turnTargetFields := by decide
  have hpane : ["pane_id"] ⊆ turnTargetFields := by decide
  rw [hfirst hagent, hfirst hpane, hsession]

/-- A turn target is the pane or the session of its item. -/
lemma turnTargetFromItem_cases {item : Fields} {kind value : String}
    (h : R.turnTargetFromItem item = some (kind, value)) :
    value ≠ "" ∧ ((kind = "pane_id" ∧ R.firstText item ["pane_id"] = some value) ∨
      (kind ≠ "pane_id" ∧ R.agentSession item = some value)) := by
  have hpane (h : ((R.firstText item ["pane_id"]).filter (· != "")).map
      (fun pane => ("pane_id", pane)) = some (kind, value)) :
      value ≠ "" ∧ ((kind = "pane_id" ∧ R.firstText item ["pane_id"] = some value) ∨
        (kind ≠ "pane_id" ∧ R.agentSession item = some value)) := by
    obtain ⟨pane, hpane, heq⟩ := Option.map_eq_some_iff.mp h
    obtain ⟨rfl, rfl⟩ := Prod.mk.inj heq
    obtain ⟨htext, hne⟩ := Option.filter_eq_some_iff.mp hpane
    exact ⟨by simpa using hne, .inl ⟨rfl, htext⟩⟩
  unfold turnTargetFromItem at h
  dsimp only at h
  split at h
  · rename_i session hsession
    obtain ⟨htext, hne⟩ := Option.filter_eq_some_iff.mp hsession
    have hne' : session ≠ "" := by simpa using hne
    split at h
    · obtain ⟨rfl, rfl⟩ := Prod.mk.inj (Option.some.inj h)
      exact ⟨hne', .inr ⟨by decide, htext⟩⟩
    · split at h
      · obtain ⟨rfl, rfl⟩ := Prod.mk.inj (Option.some.inj h)
        exact ⟨hne', .inr ⟨by decide, htext⟩⟩
      · exact hpane h
  · exact hpane h

/-- The match key that a turn target gives away. -/
def turnMatchKey (kind value : String) : OwnershipKey :=
  if kind = "pane_id" then .paneId value else .agentSession value

variable {R} {item : Fields} {record : WorkerRecord} {paneShaped : Bool} {value : String}

lemma paneId_mem_recordMatchKeys (h : R.firstText item ["pane_id"] = some value) (hv : value ≠ "") :
    .paneId value ∈ R.recordMatchKeys item record paneShaped := by
  have hfirst (keys : List String) : R.firstText item ("pane_id" :: keys) = some value := by
    rw [firstText, List.findSome?_cons] at h ⊢
    cases hkey : (R.valueForKey item "pane_id").bind R.scalarText with
    | some text => simpa [hkey] using h
    | none => simp [hkey] at h
  simp only [recordMatchKeys, List.mem_append, List.mem_map, OwnershipKey.paneId.injEq,
    exists_eq_right]
  left; left; left
  cases paneShaped <;> simp [hfirst, hv]

lemma agentSession_mem_recordMatchKeys (h : R.agentSession item = some value) (hv : value ≠ "") :
    .agentSession value ∈ R.recordMatchKeys item record paneShaped := by
  simp [recordMatchKeys, h, eitherText, hv]

lemma turnMatchKey_mem_recordMatchKeys {kind : String}
    (h : R.turnTargetFromItem item = some (kind, value)) :
    turnMatchKey kind value ∈ R.recordMatchKeys item record paneShaped := by
  obtain ⟨hv, ⟨hkind, htext⟩ | ⟨hkind, htext⟩⟩ := R.turnTargetFromItem_cases h
  · rw [turnMatchKey, if_pos hkind]
    exact paneId_mem_recordMatchKeys htext hv
  · rw [turnMatchKey, if_neg hkind]
    exact agentSession_mem_recordMatchKeys htext hv

lemma recordMatchKeys_subset :
    R.recordMatchKeys item record paneShaped ⊆ R.recordOwnershipKeys item record paneShaped :=
  fun _ h => List.mem_append_left _ (List.mem_append_left _ h)

/-- A record whose turn target is that of its item. -/
def TurnTargetOf (R : ObservationRules) (item : Fields) (record : WorkerRecord) : Prop :=
  record.turnTargetKind = (R.turnTargetFromItem item).map Prod.fst ∧
    record.turnTargetValue = (R.turnTargetFromItem item).map Prod.snd

/-- What owning a key says about the matching keys and the send token of the row. -/
lemma mem_recordOwnershipKeys {key : OwnershipKey} (hturn : TurnTargetOf R item record)
    (h : key ∈ R.recordOwnershipKeys item record paneShaped) :
    key ∈ R.recordMatchKeys item record paneShaped ∨
    (∃ kind value, (key = .backend kind value ∨ key = .backendSendToken value) ∧
      .backendSendToken value ∈ R.recordOwnershipKeys item record paneShaped) ∨
    ∃ kind value, key = .turn kind value ∧
      turnMatchKey kind value ∈ R.recordMatchKeys item record paneShaped := by
  rcases List.mem_append.mp h with h' | h'
  · rcases List.mem_append.mp h' with h' | h'
    · exact .inl h'
    · obtain ⟨target, htarget, hkey⟩ := List.mem_flatMap.mp h'
      right; left
      refine ⟨target.kind, target.value, by simpa using hkey, ?_⟩
      apply List.mem_append_left
      exact List.mem_append_right _ (List.mem_flatMap.mpr ⟨target, htarget, by simp⟩)
  · right; right
    obtain ⟨hkind, hvalue⟩ := hturn
    rw [hkind, hvalue] at h'
    cases htarget : R.turnTargetFromItem item with
    | none => simp [htarget] at h'
    | some target =>
      obtain ⟨kind, value⟩ := target
      refine ⟨kind, value, ?_, turnMatchKey_mem_recordMatchKeys htarget⟩
      simp only [htarget, Option.map_some] at h'
      split at h'
      · cases h'
      · exact List.mem_singleton.mp h'

/-- The match keys of a row say nothing of targets. -/
lemma not_target_of_mem_recordMatchKeys {key : OwnershipKey}
    (h : key ∈ R.recordMatchKeys item record paneShaped) :
    (∀ kind value, key ≠ .backend kind value ∧ key ≠ .turn kind value) ∧
      ∀ value, key ≠ .backendSendToken value := by
  simp only [recordMatchKeys, List.mem_append, List.mem_map] at h
  rcases h with ((⟨_, _, rfl⟩ | ⟨_, _, rfl⟩) | ⟨_, _, rfl⟩) | ⟨_, _, rfl⟩ <;> simp

/-- Two rows that own a key together match each other or have the same send token. -/
lemma cross_recordOwnershipKeys {item' : Fields} {record' : WorkerRecord} {paneShaped' : Bool}
    {key : OwnershipKey} (hturn : TurnTargetOf R item record)
    (hturn' : TurnTargetOf R item' record')
    (h : key ∈ R.recordOwnershipKeys item record paneShaped)
    (h' : key ∈ R.recordOwnershipKeys item' record' paneShaped') :
    (∃ k ∈ R.recordMatchKeys item record paneShaped,
      k ∈ R.recordMatchKeys item' record' paneShaped') ∨
    ∃ k ∈ R.recordOwnershipKeys item record paneShaped, k.isSendToken = true ∧
      k ∈ R.recordOwnershipKeys item' record' paneShaped' := by
  rcases mem_recordOwnershipKeys hturn h with hm | ⟨kind, value, hkey, htoken⟩ | ⟨kind, value, rfl, hm⟩
  · rcases mem_recordOwnershipKeys hturn' h' with hm' | ⟨kind, value, hkey, -⟩ | ⟨kind, value, hkey, -⟩
    · exact .inl ⟨key, hm, hm'⟩
    · obtain ⟨hne, hne'⟩ := not_target_of_mem_recordMatchKeys hm
      rcases hkey with hkey | hkey
      · exact absurd hkey (hne kind value).1
      · exact absurd hkey (hne' value)
    · exact absurd hkey ((not_target_of_mem_recordMatchKeys hm).1 kind value).2
  · rcases mem_recordOwnershipKeys hturn' h' with
      hm' | ⟨kind', value', hkey', htoken'⟩ | ⟨kind', value', hkey', -⟩
    · obtain ⟨hne, hne'⟩ := not_target_of_mem_recordMatchKeys hm'
      rcases hkey with hkey | hkey
      · exact absurd hkey (hne kind value).1
      · exact absurd hkey (hne' value)
    · have hvalue : value = value' := by
        rcases hkey with rfl | rfl <;> rcases hkey' with hkey' | hkey' <;> cases hkey' <;> rfl
      subst hvalue
      exact .inr ⟨_, htoken, rfl, htoken'⟩
    · rcases hkey with rfl | rfl <;> cases hkey'
  · rcases mem_recordOwnershipKeys hturn' h' with hm' | ⟨kind', value', hkey', -⟩ | ⟨_, _, hkey', hm'⟩
    · exact absurd rfl ((not_target_of_mem_recordMatchKeys hm').1 kind value).2
    · rcases hkey' with hkey' | hkey' <;> cases hkey'
    · cases hkey'
      exact .inl ⟨_, hm, hm'⟩

lemma turnTargetOf_workerRecordFromItem (item : Fields) (config : Option ObservationConfig)
    (paneInfoObserved : Bool) (identitySource : String) :
    TurnTargetOf R item (R.workerRecordFromItem item config paneInfoObserved identitySource) := by
  rw [TurnTargetOf, workerRecordFromItem_turnTargetKind, workerRecordFromItem_turnTargetValue,
    turnTargetFromItem_stripped]
  exact ⟨rfl, rfl⟩

lemma turnTargetOf_agentObservationRecord (item : Fields) (config : Option ObservationConfig) :
    TurnTargetOf R item (R.agentObservationRecord item config) := by
  have h := turnTargetOf_workerRecordFromItem (R := R) item config false "agent.list"
  unfold TurnTargetOf at h ⊢
  unfold agentObservationRecord
  exact h

end ObservationRules

/-- An item of a list and a record with its turn target. -/
structure ObservedRow (R : ObservationRules) where
  item : Fields
  record : WorkerRecord
  turnTarget : ObservationRules.TurnTargetOf R item record

namespace ObservationRules

variable (R : ObservationRules) (config : Option ObservationConfig)

def agentRow (item : Fields) : ObservedRow R where
  item
  record := R.agentObservationRecord item config
  turnTarget := turnTargetOf_agentObservationRecord item config

end ObservationRules

/-! ### The graph -/

namespace PaneOwnership

variable {n m : ℕ}

/-- The rows that claim a key, in the order of their list. -/
def holders {n : ℕ} (keys : Fin n → List OwnershipKey) (key : OwnershipKey) : List (Fin n) :=
  (List.finRange n).filter fun i => key ∈ keys i

/-- The keys that any row claims. -/
def claimedKeys {n : ℕ} (keys : Fin n → List OwnershipKey) : List OwnershipKey :=
  ((List.finRange n).flatMap keys).dedup

/-- The match and ownership keys of the agents and of the panes. An agent and a pane that own a
key together match each other or have the same send token. -/
structure KeyTable (n m : ℕ) where
  agentMatchKeys : Fin n → List OwnershipKey
  agentOwnershipKeys : Fin n → List OwnershipKey
  paneMatchKeys : Fin m → List OwnershipKey
  paneOwnershipKeys : Fin m → List OwnershipKey
  agent_owns : ∀ a, agentMatchKeys a ⊆ agentOwnershipKeys a
  pane_owns : ∀ p, paneMatchKeys p ⊆ paneOwnershipKeys p
  cross : ∀ a p, ∀ key ∈ agentOwnershipKeys a, key ∈ paneOwnershipKeys p →
    (∃ k ∈ agentMatchKeys a, k ∈ paneMatchKeys p) ∨
      ∃ k ∈ agentOwnershipKeys a, k.isSendToken = true ∧ k ∈ paneOwnershipKeys p

abbrev Node (n m : ℕ) := Fin n ⊕ Fin m

/-- Edges in both directions between the first node and the others. -/
def star (nodes : List (Node n m)) : List (Node n m × Node n m) :=
  match nodes with
  | [] => []
  | first :: rest => rest.flatMap fun node => [(first, node), (node, first)]

namespace KeyTable

variable (T : KeyTable n m)

def agentMatches (a : Fin n) : List (Fin m) :=
  ((T.agentMatchKeys a).flatMap (holders T.paneMatchKeys)).dedup

def paneClaimants (p : Fin m) : List (Fin n) := (List.finRange n).filter (p ∈ T.agentMatches ·)

/-- The groups of panes that own a key together. -/
def sharedPanes : List (List (Node n m)) :=
  (((claimedKeys T.paneOwnershipKeys).map (holders T.paneOwnershipKeys)).filter
    (2 ≤ ·.length)).map (List.map .inr)

/-- The panes that own the send token of an agent which does not match them. -/
def sendClashes : List (Fin n × Fin m) :=
  (List.finRange n).flatMap fun a =>
    ((T.agentOwnershipKeys a).filter OwnershipKey.isSendToken).flatMap fun key =>
      ((holders T.paneOwnershipKeys key).filter (· ∉ T.agentMatches a)).map fun p => (a, p)

def matchPairs : List (Fin n × Fin m) :=
  (List.finRange n).flatMap fun a => (T.agentMatches a).map fun p => (a, p)

/-- The groups of agents that own a key together, when one of them matches a pane. -/
def sharedAgents : List (List (Node n m)) :=
  (((claimedKeys T.agentOwnershipKeys).map (holders T.agentOwnershipKeys)).filter fun agents =>
    2 ≤ agents.length ∧ agents.any fun a => !(T.agentMatches a).isEmpty).map (List.map .inl)

def adjacency : List (Node n m × Node n m) :=
  T.sharedPanes.flatMap star ++ (T.sendClashes ++ T.matchPairs).flatMap
    (fun e => [(.inl e.1, .inr e.2), (.inr e.2, .inl e.1)]) ++ T.sharedAgents.flatMap star

def ambiguousSeeds : List (Node n m) :=
  T.sharedPanes.flatten ++ T.sendClashes.flatMap (fun e => [.inl e.1, .inr e.2]) ++
    ((List.finRange n).filter fun a => 2 ≤ (T.agentMatches a).length).flatMap
      (fun a => .inl a :: (T.agentMatches a).map .inr) ++
    T.sharedAgents.flatten ++
    ((List.finRange m).filter fun p => 2 ≤ (T.paneClaimants p).length).flatMap
      (fun p => .inr p :: (T.paneClaimants p).map .inl)

def ambiguousNodes : List (Node n m) := mark T.adjacency T.ambiguousSeeds

/-! ### What the graph marks -/

lemma mem_holders {keys : Fin n → List OwnershipKey} {key : OwnershipKey} {i : Fin n} :
    i ∈ holders keys key ↔ key ∈ keys i := by
  simp [holders]

lemma mem_claimedKeys {keys : Fin n → List OwnershipKey} {key : OwnershipKey} :
    key ∈ claimedKeys keys ↔ ∃ i, key ∈ keys i := by
  simp [claimedKeys]

lemma holders_nodup (keys : Fin n → List OwnershipKey) (key : OwnershipKey) :
    (holders keys key).Nodup := (List.nodup_finRange n).filter _

lemma two_le_length_iff {α : Type} [DecidableEq α] {l : List α} {x : α} (hl : l.Nodup)
    (hx : x ∈ l) : 2 ≤ l.length ↔ ∃ y ∈ l, x ≠ y := by
  rw [← List.toFinset_card_of_nodup hl, Nat.succ_le_iff, Finset.one_lt_card]
  simp only [List.mem_toFinset]
  constructor
  · rintro ⟨a, ha, b, hb, hab⟩
    by_cases hxa : x = a
    · exact ⟨b, hb, hxa ▸ hab⟩
    · exact ⟨a, ha, hxa⟩
  · rintro ⟨y, hy, hxy⟩
    exact ⟨x, hx, y, hy, hxy⟩

lemma mem_star {nodes : List (Node n m)} {x y : Node n m} (h : (x, y) ∈ star nodes) :
    y ∈ nodes := by
  cases nodes with
  | nil => cases h
  | cons first rest =>
    obtain ⟨node, hnode, hedge⟩ := List.mem_flatMap.mp h
    simp only [List.mem_cons, Prod.mk.injEq, List.not_mem_nil, or_false] at hedge
    rcases hedge with ⟨-, rfl⟩ | ⟨-, rfl⟩
    · exact List.mem_cons_of_mem _ hnode
    · exact List.mem_cons_self

/-- The claims that the keys stand for. -/
def claims : Claims (Fin n) (Fin m) OwnershipKey where
  matching := Sum.elim (fun a => {k | k ∈ T.agentMatchKeys a}) fun p => {k | k ∈ T.paneMatchKeys p}
  owned := Sum.elim (fun a => {k | k ∈ T.agentOwnershipKeys a})
    fun p => {k | k ∈ T.paneOwnershipKeys p}
  tie := {k | k.isSendToken = true}
  matching_owned x := by
    cases x with
    | inl a => exact T.agent_owns a
    | inr p => exact T.pane_owns p
  cross a p := by
    rintro ⟨k, ha, hp⟩
    rcases T.cross a p k ha hp with ⟨k', h⟩ | ⟨k', ha', ht, hp'⟩
    · exact .inl ⟨k', h⟩
    · exact .inr ⟨k', ht, ha', hp'⟩

variable {T} {a : Fin n} {p : Fin m} {x y : Node n m}

lemma mem_agentMatches : p ∈ T.agentMatches a ↔ T.claims.Matched a p := by
  simp only [agentMatches, List.mem_dedup, List.mem_flatMap, mem_holders]
  rfl

lemma agentMatches_nodup : (T.agentMatches a).Nodup := List.nodup_dedup _

lemma mem_paneClaimants : a ∈ T.paneClaimants p ↔ T.claims.Matched a p := by
  simp [paneClaimants, mem_agentMatches]

lemma paneClaimants_nodup : (T.paneClaimants p).Nodup := (List.nodup_finRange n).filter _

lemma mem_sharedPanes : x ∈ T.sharedPanes.flatten ↔ ∃ p p' k, x = .inr p ∧ p ≠ p' ∧
    k ∈ T.paneOwnershipKeys p ∧ k ∈ T.paneOwnershipKeys p' := by
  simp only [sharedPanes, List.mem_flatten, List.mem_map, List.mem_filter, decide_eq_true_eq]
  constructor
  · rintro ⟨_, ⟨_, ⟨⟨k, _, rfl⟩, hlen⟩, rfl⟩, hx⟩
    obtain ⟨p, hp, rfl⟩ := List.mem_map.mp hx
    obtain ⟨p', hp', hne⟩ := (two_le_length_iff (holders_nodup _ k) hp).mp hlen
    exact ⟨p, p', k, rfl, hne, mem_holders.mp hp, mem_holders.mp hp'⟩
  · rintro ⟨p, p', k, rfl, hne, hp, hp'⟩
    have hlen := (two_le_length_iff (holders_nodup T.paneOwnershipKeys k)
      (mem_holders.mpr hp)).mpr ⟨p', mem_holders.mpr hp', hne⟩
    exact ⟨_, ⟨_, ⟨⟨k, mem_claimedKeys.mpr ⟨p, hp⟩, rfl⟩, hlen⟩, rfl⟩,
      List.mem_map_of_mem (mem_holders.mpr hp)⟩

lemma mem_sharedAgents : x ∈ T.sharedAgents.flatten ↔ ∃ a a' c p k, x = .inl a ∧ a ≠ a' ∧
    k ∈ T.agentOwnershipKeys a ∧ k ∈ T.agentOwnershipKeys a' ∧ k ∈ T.agentOwnershipKeys c ∧
    T.claims.Matched c p := by
  simp only [sharedAgents, List.mem_flatten, List.mem_map, List.mem_filter, decide_eq_true_eq,
    List.any_eq_true, Bool.not_eq_true', List.isEmpty_eq_false_iff_exists_mem]
  constructor
  · rintro ⟨_, ⟨_, ⟨⟨k, _, rfl⟩, hlen, c, hc, p, hp⟩, rfl⟩, hx⟩
    obtain ⟨a, ha, rfl⟩ := List.mem_map.mp hx
    obtain ⟨a', ha', hne⟩ := (two_le_length_iff (holders_nodup _ k) ha).mp hlen
    exact ⟨a, a', c, p, k, rfl, hne, mem_holders.mp ha, mem_holders.mp ha', mem_holders.mp hc,
      mem_agentMatches.mp hp⟩
  · rintro ⟨a, a', c, p, k, rfl, hne, ha, ha', hc, hp⟩
    have hlen := (two_le_length_iff (holders_nodup T.agentOwnershipKeys k)
      (mem_holders.mpr ha)).mpr ⟨a', mem_holders.mpr ha', hne⟩
    exact ⟨_, ⟨_, ⟨⟨k, mem_claimedKeys.mpr ⟨a, ha⟩, rfl⟩, hlen, c, mem_holders.mpr hc, p,
      mem_agentMatches.mpr hp⟩, rfl⟩, List.mem_map_of_mem (mem_holders.mpr ha)⟩

lemma mem_sendClashes : (a, p) ∈ T.sendClashes ↔ ∃ k, k.isSendToken = true ∧
    k ∈ T.agentOwnershipKeys a ∧ k ∈ T.paneOwnershipKeys p ∧ ¬T.claims.Matched a p := by
  simp only [sendClashes, List.mem_flatMap, List.mem_map, List.mem_filter, List.mem_finRange,
    true_and, mem_holders, decide_eq_true_eq, mem_agentMatches, Prod.mk.injEq]
  constructor
  · rintro ⟨_, k, ⟨ha, hk⟩, _, ⟨hp, hm⟩, rfl, rfl⟩
    exact ⟨k, hk, ha, hp, hm⟩
  · rintro ⟨k, hk, ha, hp, hm⟩
    exact ⟨a, k, ⟨ha, hk⟩, p, ⟨hp, hm⟩, rfl, rfl⟩

lemma mem_matchPairs : (a, p) ∈ T.matchPairs ↔ T.claims.Matched a p := by
  simp [matchPairs, mem_agentMatches]

/-- The seeds are the contested rows. -/
theorem mem_ambiguousSeeds : x ∈ T.ambiguousSeeds ↔ T.claims.Contested x := by
  simp only [ambiguousSeeds, List.mem_append, mem_sharedPanes, mem_sharedAgents, List.mem_flatMap,
    List.mem_filter, List.mem_finRange, true_and, decide_eq_true_eq, Prod.exists, List.mem_cons,
    List.mem_map, List.not_mem_nil, or_false]
  constructor
  · rintro ((((⟨p, p', k, rfl, hne, hp, hp'⟩ | ⟨a, p, hclash, hx⟩) | ⟨a, hlen, hx⟩) |
      ⟨a, a', c, p, k, rfl, hne, ha, ha', hc, hm⟩) | ⟨p, hlen, hx⟩)
    · exact .right hne hp hp'
    · obtain ⟨k, hk, ha, hp, hm⟩ := mem_sendClashes.mp hclash
      rcases hx with rfl | rfl
      · exact .tieLeft hk ha hp hm
      · exact .tieRight hk ha hp hm
    · have hother {p : Fin m} (hp : p ∈ T.agentMatches a) :=
        (two_le_length_iff agentMatches_nodup hp).mp hlen
      rcases hx with rfl | ⟨p, hp, rfl⟩
      · obtain ⟨p, hp⟩ := List.exists_mem_of_length_pos (Nat.lt_of_succ_lt hlen)
        obtain ⟨p', hp', hne⟩ := hother hp
        exact .severalLeft hne (mem_agentMatches.mp hp) (mem_agentMatches.mp hp')
      · obtain ⟨p', hp', hne⟩ := hother hp
        exact .severalRight hne (mem_agentMatches.mp hp) (mem_agentMatches.mp hp')
    · exact .left hne ha ha' hc hm
    · have hother {a : Fin n} (ha : a ∈ T.paneClaimants p) :=
        (two_le_length_iff paneClaimants_nodup ha).mp hlen
      rcases hx with rfl | ⟨a, ha, rfl⟩
      · obtain ⟨a, ha⟩ := List.exists_mem_of_length_pos (Nat.lt_of_succ_lt hlen)
        obtain ⟨a', ha', hne⟩ := hother ha
        exact .claimedRight hne (mem_paneClaimants.mp ha) (mem_paneClaimants.mp ha')
      · obtain ⟨a', ha', hne⟩ := hother ha
        exact .claimedLeft hne (mem_paneClaimants.mp ha) (mem_paneClaimants.mp ha')
  · intro h
    have hseveral {a : Fin n} {p p' : Fin m} (hne : p ≠ p') (hp : T.claims.Matched a p)
        (hp' : T.claims.Matched a p') : 2 ≤ (T.agentMatches a).length :=
      (two_le_length_iff agentMatches_nodup (mem_agentMatches.mpr hp)).mpr
        ⟨p', mem_agentMatches.mpr hp', hne⟩
    have hclaimed {a a' : Fin n} {p : Fin m} (hne : a ≠ a') (ha : T.claims.Matched a p)
        (ha' : T.claims.Matched a' p) : 2 ≤ (T.paneClaimants p).length :=
      (two_le_length_iff paneClaimants_nodup (mem_paneClaimants.mpr ha)).mpr
        ⟨a', mem_paneClaimants.mpr ha', hne⟩
    cases h with
    | @right p p' k hne hp hp' => exact .inl (.inl (.inl (.inl ⟨p, p', k, rfl, hne, hp, hp'⟩)))
    | @tieLeft a p k hk ha hp hm =>
      exact .inl (.inl (.inl (.inr ⟨a, p, mem_sendClashes.mpr ⟨k, hk, ha, hp, hm⟩, .inl rfl⟩)))
    | @tieRight a p k hk ha hp hm =>
      exact .inl (.inl (.inl (.inr ⟨a, p, mem_sendClashes.mpr ⟨k, hk, ha, hp, hm⟩, .inr rfl⟩)))
    | @severalLeft a p p' hne hp hp' =>
      exact .inl (.inl (.inr ⟨a, hseveral hne hp hp', .inl rfl⟩))
    | @severalRight a p p' hne hp hp' =>
      exact .inl (.inl (.inr ⟨a, hseveral hne hp hp', .inr ⟨p, mem_agentMatches.mpr hp, rfl⟩⟩))
    | @claimedLeft a a' p hne ha ha' =>
      exact .inr ⟨p, hclaimed hne ha ha', .inr ⟨a, mem_paneClaimants.mpr ha, rfl⟩⟩
    | @claimedRight a a' p hne ha ha' => exact .inr ⟨p, hclaimed hne ha ha', .inl rfl⟩
    | @left a a' c p k hne ha ha' hc hm =>
      exact .inl (.inr ⟨a, a', c, p, k, rfl, hne, ha, ha', hc, hm⟩)

/-- An edge is a match or leads to a contested row. -/
lemma mem_adjacency (h : (x, y) ∈ T.adjacency) : T.claims.Joined x y ∨ y ∈ T.ambiguousSeeds := by
  simp only [adjacency, List.mem_append, List.mem_flatMap, Prod.exists, List.mem_cons,
    Prod.mk.injEq, List.not_mem_nil, or_false] at h
  rcases h with (⟨nodes, hnodes, hedge⟩ | ⟨a, p, hpair, hedge⟩) | ⟨nodes, hnodes, hedge⟩
  · have hy := List.mem_flatten_of_mem hnodes (mem_star hedge)
    right
    simp only [ambiguousSeeds, List.mem_append]
    exact .inl (.inl (.inl (.inl hy)))
  · rcases hpair with hclash | hmatch
    · right
      simp only [ambiguousSeeds, List.mem_append, List.mem_flatMap]
      refine .inl (.inl (.inl (.inr ⟨(a, p), hclash, ?_⟩)))
      rcases hedge with ⟨-, rfl⟩ | ⟨-, rfl⟩ <;> simp
    · left
      rcases hedge with ⟨rfl, rfl⟩ | ⟨rfl, rfl⟩
      · exact .out (mem_matchPairs.mp hmatch)
      · exact .back (mem_matchPairs.mp hmatch)
  · have hy := List.mem_flatten_of_mem hnodes (mem_star hedge)
    right
    simp only [ambiguousSeeds, List.mem_append]
    exact .inl (.inr hy)

lemma adjacency_of_joined (h : T.claims.Joined x y) : (x, y) ∈ T.adjacency := by
  simp only [adjacency, List.mem_append, List.mem_flatMap, Prod.exists, List.mem_cons,
    Prod.mk.injEq, List.not_mem_nil, or_false]
  cases h with
  | @out a p h => exact .inl (.inr ⟨a, p, .inr (mem_matchPairs.mpr h), .inl ⟨rfl, rfl⟩⟩)
  | @back a p h => exact .inl (.inr ⟨a, p, .inr (mem_matchPairs.mpr h), .inr ⟨rfl, rfl⟩⟩)

/-- The worklist marks the rows that matches lead to from a contested row. -/
theorem mem_ambiguousNodes : x ∈ T.ambiguousNodes ↔ T.claims.Ambiguous x := by
  rw [ambiguousNodes, mem_mark_of_joined (fun _ _ => adjacency_of_joined) fun _ _ => mem_adjacency]
  simp only [mem_ambiguousSeeds]
  rfl

end KeyTable

/-- The keys of the rows of two lists. -/
def keyTable {R : ObservationRules} (agents panes : List (ObservedRow R)) :
    KeyTable agents.length panes.length where
  agentMatchKeys a := R.recordMatchKeys (agents.get a).item (agents.get a).record false
  agentOwnershipKeys a := R.recordOwnershipKeys (agents.get a).item (agents.get a).record false
  paneMatchKeys p := R.recordMatchKeys (panes.get p).item (panes.get p).record true
  paneOwnershipKeys p := R.recordOwnershipKeys (panes.get p).item (panes.get p).record true
  agent_owns _ := ObservationRules.recordMatchKeys_subset
  pane_owns _ := ObservationRules.recordMatchKeys_subset
  cross a p _ ha hp :=
    ObservationRules.cross_recordOwnershipKeys (agents.get a).turnTarget (panes.get p).turnTarget ha
      hp

end PaneOwnership

/-- What `_pane_ownership_graph` returns. -/
structure OwnershipGraph (n m : ℕ) where
  agentMatches : Fin n → List (Fin m)
  ambiguousAgents : List (Fin n)
  ambiguousPanes : List (Fin m)

def paneOwnershipGraph {R : ObservationRules} (agents panes : List (ObservedRow R)) :
    OwnershipGraph agents.length panes.length where
  agentMatches := (PaneOwnership.keyTable agents panes).agentMatches
  ambiguousAgents := (PaneOwnership.keyTable agents panes).ambiguousNodes.filterMap Sum.getLeft?
  ambiguousPanes := (PaneOwnership.keyTable agents panes).ambiguousNodes.filterMap Sum.getRight?

end Tendwire

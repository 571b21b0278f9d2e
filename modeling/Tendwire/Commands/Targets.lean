import Tendwire.Commands.Validated
import Tendwire.Python.Equality

/-!
# Targets and selector proofs

How a target picks workers, and the digest under which a request's target is recognized again. Two
proofs agree exactly if the targets spell the same selector.
-/

namespace Tendwire.Commands

open Strings Python Public

/-! ### Workers -/

section Identity

variable (T : Tables) (sha256 : List UInt8 → String)

/-- `_public_safe_text` of `str(value)`, if there is a value. -/
def publicSafeText (value : Option Text) (default : Text) : Text :=
  let raw := strip (value.getD [])
  if raw = [] ∨ containsForbiddenText T raw = true then default
  else
    let text := sanitizePublicText T none raw
    if text = [] ∨ containsForbiddenText T text = true then default else text

def fingerprintHexChars : ℕ := 24

/-- `stable_fingerprint` of a value without fractions; `none` is the `UnicodeEncodeError` of a lone
surrogate. -/
def stableFingerprint (v : Json Empty) : Option Text :=
  (utf8 (stableJsonDumps T v)).map fun bytes => (ofString (sha256 bytes)).take fingerprintHexChars

/-- `_public_safe_identity` of `str(value)`, if there is a value. -/
def publicSafeIdentity (value : Option Text) (kind : String) : Option Text :=
  let stripped := strip (value.getD (ofString "unknown"))
  let raw := if stripped = [] then ofString "unknown" else stripped
  let text := sanitizePublicText T none raw
  if text = raw ∧ containsForbiddenText T text = false then some (joinWords (words text))
  else
    (stableFingerprint T sha256 (.dict [(ofString "type", textJson kind),
      (ofString "raw_id", .str raw)])).map fun digest => ofString kind ++ ofString "-" ++ digest

/-- What a worker is called. -/
structure Identity where
  id : Text
  name : Text
  spaceId : Option Text

/-- The arguments that name a worker. -/
structure IdentityArgs where
  id : Option Text
  name : Option Text
  spaceId : Option Text

/-- `_optional_public_safe_identity`. -/
def optionalPublicSafeIdentity (value : Option Text) (kind : String) : Option (Option Text) :=
  match value with
  | none => some none
  | some text => (publicSafeIdentity T sha256 (some text) kind).map some

/-- The names that the constructor of `Worker` makes of its arguments. -/
def identityOf (args : IdentityArgs) : Option Identity := do
  let id ← publicSafeIdentity T sha256 args.id "worker"
  let spaceId ← optionalPublicSafeIdentity T sha256 args.spaceId "space"
  return ⟨id, publicSafeText T args.name id, spaceId⟩

/-- The constructor makes the names of some arguments. -/
def IsNamed (i : Identity) : Prop := ∃ args, identityOf T sha256 args = some i

/-- A worker, named as the constructor names it. -/
structure Worker (F : Type) extends Identity where
  status : Text
  fingerprint : Text
  summary : Option Text
  backendTarget : Option (Entries F)
  named : IsNamed T sha256 toIdentity

end Identity

/-! ### Resolution -/

/-- `worker_candidate`. -/
structure Candidate (F : Type) where
  workerId : Text
  name : Text
  spaceId : Option Text
  status : Text
  workerFingerprint : Text
  summary : Option Text
  backendTarget : Option (Entries F)

/-- What `resolve_target` returns. -/
structure Resolution (F : Type) where
  resolved : Option (Candidate F)
  candidates : List (Candidate F)
  status : Status

section Resolution

variable {F : Type} [FloatText F] (I : Interpreter F) {sha256 : List UInt8 → String}

def workerCandidate (includeBackendTarget : Bool) (worker : Worker I.toTables sha256 F) :
    Candidate F where
  workerId := worker.id
  name := worker.name
  spaceId := worker.spaceId
  status := worker.status
  workerFingerprint := worker.fingerprint
  summary := worker.summary.filter (!·.isEmpty)
  backendTarget :=
    if includeBackendTarget then worker.backendTarget.filter (!·.isEmpty) else none

def disallowedWorkerStatuses : List Text := ["closed", "failed", "unknown"].map ofString

/-- The loop over the workers: those that no given name rules out. -/
def identityMatches (target : Entries F) (workers : List (Worker I.toTables sha256 F)) :
    List (Worker I.toTables sha256 F) :=
  let workerId := stringValue I (target.get? (ofString "worker_id"))
  let name := stringValue I (target.get? (ofString "name"))
  let spaceId := optionalString I (target.get? (ofString "space_id"))
  workers.filter fun worker =>
    if workerId ≠ [] ∧ worker.id ≠ workerId then false
    else if name ≠ [] ∧ worker.name ≠ name then false
    else if spaceId ≠ none ∧ worker.spaceId ≠ spaceId then false
    else true

/-- What the fingerprint leaves of the matches; `none` is a fingerprint that rules out all. -/
def fingerprintMatches (target : Entries F) (matched : List (Worker I.toTables sha256 F)) :
    Option (List (Worker I.toTables sha256 F)) :=
  match optionalString I (target.get? (ofString "worker_fingerprint")) with
  | none => some matched
  | some fingerprint =>
    let kept := matched.filter fun worker => worker.fingerprint = fingerprint
    if matched ≠ [] ∧ kept = [] then none else some kept

/-- How many candidates are left, and whether the only one may be used. -/
def resolveCandidates (candidates : List (Worker I.toTables sha256 F))
    (allowDisallowedStatus includeBackendTarget : Bool) : Resolution F :=
  let sanitized := candidates.map (workerCandidate I includeBackendTarget)
  match candidates with
  | [] => ⟨none, [], .notFound⟩
  | [worker] =>
    if !allowDisallowedStatus && disallowedWorkerStatuses.contains worker.status then
      ⟨none, sanitized, .rejected⟩
    else ⟨sanitized.head?, sanitized, .resolved⟩
  | _ => ⟨none, sanitized, .ambiguousTarget⟩

/-- `resolve_target`. -/
def resolveTarget (target : Option (Entries F)) (workers : List (Worker I.toTables sha256 F))
    (allowDisallowedStatus includeBackendTarget : Bool) : Resolution F :=
  match target with
  | none => ⟨none, [], .notFound⟩
  | some target =>
    let matched := identityMatches I target workers
    match fingerprintMatches I target matched with
    | none =>
      ⟨none, matched.map (workerCandidate I false),
        if matched.length = 1 then .staleTarget else .ambiguousTarget⟩
    | some candidates => resolveCandidates I candidates allowDisallowedStatus includeBackendTarget

end Resolution

/-! ### Selector proofs -/

section Proofs

variable {F : Type} [FloatText F] (I : Interpreter F) (sha256 : List UInt8 → String)

def selectorProofDomain : List UInt8 := asciiBytes "tendwire.command-selector-proof.v1"

/-- The selector as the proof spells it. -/
def selectorJson : Option (Entries F) → Json F
  | none => .dict [(ofString "shape", textJson "none")]
  | some target =>
    .dict [(ofString "shape", textJson "target"),
      (ofString "worker_id", .str (stringValue I (target.get? (ofString "worker_id")))),
      (ofString "name", .str (stringValue I (target.get? (ofString "name")))),
      (ofString "space_id", Json.ofOption (optionalString I (target.get? (ofString "space_id"))))]

def selectorPayload (r : CommandRequest F) : Json F :=
  .dict [(ofString "proof_version", .int shortOne), (ofString "action", .str r.action),
    (ofString "selector", selectorJson I r.target)]

/-- `build_selector_proof`; `none` is an exception. -/
def buildSelectorProof (r : CommandRequest F) : Option String :=
  if IsLiveMutation I r then
    (utf8 (dumps (selectorPayload I r))).map fun bytes =>
      "v1:" ++ sha256 (selectorProofDomain ++ 0 :: bytes)
  else none

end Proofs

/-! ### Proofs and selectors -/

section Selectors

variable {F : Type} [FloatText F] (I : Interpreter F) {sha256 : List UInt8 → String}

/-- What a target says of the worker it means. -/
structure Selector where
  workerId : Text
  name : Text
  spaceId : Option Text
deriving DecidableEq

def selectorOf (target : Entries F) : Selector where
  workerId := stringValue I (target.get? (ofString "worker_id"))
  name := stringValue I (target.get? (ofString "name"))
  spaceId := optionalString I (target.get? (ofString "space_id"))

/-- The selector means the worker. -/
def Selector.Selects (s : Selector) (worker : Identity) : Prop :=
  (s.workerId ≠ [] → worker.id = s.workerId) ∧ (s.name ≠ [] → worker.name = s.name) ∧
    (s.spaceId ≠ none → worker.spaceId = s.spaceId)

instance (s : Selector) (worker : Identity) : Decidable (s.Selects worker) :=
  inferInstanceAs (Decidable (_ ∧ _ ∧ _))

/-- The target without its fingerprint. -/
def withoutFingerprint (target : Option (Entries F)) : Option (Entries F) :=
  target.map fun m => m.filter fun e => e.1 ≠ ofString "worker_fingerprint"

omit [FloatText F] in
lemma get?_filter_ne (m : Entries F) {key other : Text} (h : key ≠ other) :
    Entries.get? (m.filter fun e => e.1 ≠ other) key = Entries.get? m key := by
  induction m with
  | nil => rfl
  | cons e m ih =>
    obtain ⟨k, v⟩ := e
    rw [List.filter_cons, Entries.get?_cons]
    split_ifs with hkeep hk hk
    · rw [Entries.get?_cons, if_pos hk]
    · rw [Entries.get?_cons, if_neg hk, ih]
    · rw [← hk] at hkeep
      exact absurd h (by simpa using hkeep)
    · exact ih

omit [FloatText F] in
lemma get?_filter_self (m : Entries F) (key : Text) :
    Entries.get? (m.filter fun e => e.1 ≠ key) key = none := by
  induction m with
  | nil => rfl
  | cons e m ih =>
    obtain ⟨k, v⟩ := e
    rw [List.filter_cons]
    split_ifs with hkeep
    · have hk : key ≠ k := fun heq => by simp [heq] at hkeep
      rw [Entries.get?_cons, if_neg hk, ih]
    · exact ih

lemma selects_iff (s : Selector) (worker : Identity) :
    (if s.workerId ≠ [] ∧ worker.id ≠ s.workerId then false
      else if s.name ≠ [] ∧ worker.name ≠ s.name then false
      else if s.spaceId ≠ none ∧ worker.spaceId ≠ s.spaceId then false
      else true) = decide (s.Selects worker) := by
  unfold Selector.Selects
  split_ifs with hid hname hspace
  · exact (decide_eq_false fun h => hid.2 (h.1 hid.1)).symm
  · exact (decide_eq_false fun h => hname.2 (h.2.1 hname.1)).symm
  · exact (decide_eq_false fun h => hspace.2 (h.2.2 hspace.1)).symm
  · refine (decide_eq_true ⟨fun h => ?_, fun h => ?_, fun h => ?_⟩).symm
    · exact not_not.mp fun hne => hid ⟨h, hne⟩
    · exact not_not.mp fun hne => hname ⟨h, hne⟩
    · exact not_not.mp fun hne => hspace ⟨h, hne⟩

lemma identityMatches_eq (target : Entries F) (workers : List (Worker I.toTables sha256 F)) :
    identityMatches I target workers =
      workers.filter fun worker => (selectorOf I target).Selects worker.toIdentity :=
  List.filter_congr fun worker _ => selects_iff (selectorOf I target) worker.toIdentity

/-- Without a fingerprint, the workers that the selector means decide. -/
theorem resolveTarget_withoutFingerprint (target : Entries F)
    (workers : List (Worker I.toTables sha256 F)) (allow includeTarget : Bool) :
    resolveTarget I (withoutFingerprint (some target)) workers allow includeTarget =
      resolveCandidates I
        (workers.filter fun worker => (selectorOf I target).Selects worker.toIdentity) allow
        includeTarget := by
  have hne : ofString "worker_id" ≠ ofString "worker_fingerprint" ∧
      ofString "name" ≠ ofString "worker_fingerprint" ∧
      ofString "space_id" ≠ ofString "worker_fingerprint" := by decide
  have hselector : selectorOf I (target.filter fun e => e.1 ≠ ofString "worker_fingerprint") =
      selectorOf I target := by
    unfold selectorOf
    rw [get?_filter_ne target hne.1, get?_filter_ne target hne.2.1, get?_filter_ne target hne.2.2]
  unfold resolveTarget withoutFingerprint fingerprintMatches
  dsimp only [Option.map_some]
  rw [identityMatches_eq, hselector, get?_filter_self]
  rfl

omit [FloatText F] in
/-- The candidates are those that are left. -/
lemma candidates_resolveCandidates (candidates : List (Worker I.toTables sha256 F))
    (allow includeTarget : Bool) :
    (resolveCandidates I candidates allow includeTarget).candidates =
      candidates.map (workerCandidate I includeTarget) := by
  unfold resolveCandidates
  dsimp only
  split
  · rfl
  · split_ifs <;> rfl
  · rfl

/-- A worker that one selector means and the other does not tells the targets apart. -/
lemma candidates_ne {a b : Entries F} {worker : Worker I.toTables sha256 F}
    (ha : (selectorOf I a).Selects worker.toIdentity)
    (hb : ¬(selectorOf I b).Selects worker.toIdentity) (allow includeTarget : Bool) :
    (resolveTarget I (withoutFingerprint (some a)) [worker] allow includeTarget).candidates ≠
      (resolveTarget I (withoutFingerprint (some b)) [worker] allow includeTarget).candidates := by
  rw [resolveTarget_withoutFingerprint, resolveTarget_withoutFingerprint,
    candidates_resolveCandidates, candidates_resolveCandidates]
  simp [ha, hb]

omit [FloatText F] in
lemma sortKeys_ofOption (t : Option Text) : sortKeys (Json.ofOption (F := F) t) = Json.ofOption t := by
  cases t <;> rfl

omit [FloatText F] in
lemma ofOption_injective : Function.Injective (Json.ofOption (F := F)) := by
  intro a b h
  cases a with
  | none =>
    cases b with
    | none => rfl
    | some t => cases h
  | some t =>
    cases b with
    | none => cases h
    | some u => rw [Json.str.inj h]

def Selector.entries (s : Selector) : Entries F :=
  [(ofString "shape", textJson "target"), (ofString "worker_id", .str s.workerId),
    (ofString "name", .str s.name), (ofString "space_id", Json.ofOption s.spaceId)]

def noSelector : Entries F := [(ofString "shape", textJson "none")]

lemma selectorJson_eq (target : Option (Entries F)) :
    selectorJson I target = .dict ((target.map (selectorOf I)).elim noSelector Selector.entries) := by
  cases target <;> rfl

omit [FloatText F] in
lemma nodup_keys_entries (s : Selector) : (Entries.keys (s.entries (F := F))).Nodup := by
  change ([ofString "shape", ofString "worker_id", ofString "name", ofString "space_id"]).Nodup
  decide

omit [FloatText F] in
lemma nodup_keys_noSelector : (Entries.keys (noSelector (F := F))).Nodup := by
  change ([ofString "shape"]).Nodup
  decide

omit [FloatText F] in
lemma Selector.entries_injective {s t : Selector}
    (h : sortKeys (.dict (s.entries (F := F))) = sortKeys (.dict t.entries)) : s = t := by
  have hget := get?_of_sortKeys_eq (nodup_keys_entries s) (nodup_keys_entries t) h
  have hid : some (Json.str (F := F) s.workerId) = some (.str t.workerId) :=
    hget (ofString "worker_id")
  have hname : some (Json.str (F := F) s.name) = some (.str t.name) := hget (ofString "name")
  have hspace : some (sortKeys (Json.ofOption (F := F) s.spaceId)) =
      some (sortKeys (Json.ofOption t.spaceId)) := hget (ofString "space_id")
  rw [sortKeys_ofOption, sortKeys_ofOption] at hspace
  cases s
  cases t
  rw [Selector.mk.injEq]
  exact ⟨Json.str.inj (Option.some.inj hid), Json.str.inj (Option.some.inj hname),
    ofOption_injective (Option.some.inj hspace)⟩

omit [FloatText F] in
lemma noSelector_ne (s : Selector) :
    sortKeys (.dict (noSelector (F := F))) ≠ sortKeys (.dict s.entries) := by
  intro h
  have hshape : some (textJson (F := F) "none") = some (textJson "target") :=
    get?_of_sortKeys_eq nodup_keys_noSelector (nodup_keys_entries s) h (ofString "shape")
  exact absurd (Json.str.inj (Option.some.inj hshape)) (by decide)

/-- The text of a selector tells it. -/
lemma selector_of_sortKeys {a b : Option (Entries F)}
    (h : sortKeys (selectorJson I a) = sortKeys (selectorJson I b)) :
    a.map (selectorOf I) = b.map (selectorOf I) := by
  rw [selectorJson_eq, selectorJson_eq] at h
  cases a with
  | none =>
    cases b with
    | none => rfl
    | some b => exact absurd h (noSelector_ne _)
  | some a =>
    cases b with
    | none => exact absurd h.symm (noSelector_ne _)
    | some b => exact congrArg some (Selector.entries_injective h)

omit [FloatText F] in
lemma distinct_entries (s : Selector) : Distinct (.dict (s.entries (F := F))) := by
  refine ⟨nodup_keys_entries s, ?_⟩
  unfold Selector.entries
  cases s.spaceId <;> exact ⟨trivial, trivial, trivial, trivial, trivial⟩

lemma distinct_selectorJson (target : Option (Entries F)) : Distinct (selectorJson I target) := by
  rw [selectorJson_eq]
  cases target with
  | none => exact ⟨nodup_keys_noSelector, trivial, trivial⟩
  | some m => exact distinct_entries _

omit [FloatText F] in
lemma nodup_keys_payload (v : Json F) (action : Text) :
    (Entries.keys [(ofString "proof_version", .int shortOne), (ofString "action", .str action),
      (ofString "selector", v)]).Nodup := by
  change ([ofString "proof_version", ofString "action", ofString "selector"]).Nodup
  decide

/-- The proofs of two requests of one action agree exactly if their selectors do. -/
theorem selectorProof_eq_iff (hsha : Function.Injective sha256) {r s : CommandRequest F}
    {p q : String} (haction : r.action = s.action) (hp : buildSelectorProof I sha256 r = some p)
    (hq : buildSelectorProof I sha256 s = some q) :
    p = q ↔ r.target.map (selectorOf I) = s.target.map (selectorOf I) := by
  unfold buildSelectorProof at hp hq
  split_ifs at hp hq
  obtain ⟨bytes, hbytes, rfl⟩ := Option.map_eq_some_iff.mp hp
  obtain ⟨bytes', hbytes', rfl⟩ := Option.map_eq_some_iff.mp hq
  constructor
  · intro h
    have hmaterial := hsha (append_tag_cancel h)
    rw [List.append_cancel_left_eq] at hmaterial
    rw [(List.cons.inj hmaterial).2] at hbytes
    have hdistinct : ∀ r : CommandRequest F, Distinct (selectorPayload I r) := fun r =>
      ⟨nodup_keys_payload _ _, trivial, trivial, distinct_selectorJson I r.target, trivial⟩
    have hsorted := dumps_injective (hdistinct r) (hdistinct s) (utf8_injective hbytes hbytes')
    have hget := get?_of_sortKeys_eq (nodup_keys_payload _ _) (nodup_keys_payload _ _) hsorted
      (ofString "selector")
    exact selector_of_sortKeys I (Option.some.inj hget)
  · intro h
    have hpayload : selectorPayload I r = selectorPayload I s := by
      unfold selectorPayload
      rw [haction, selectorJson_eq, selectorJson_eq, h]
    rw [hpayload, hbytes'] at hbytes
    rw [Option.some.inj hbytes]

end Selectors

/-! ### Workers of other names -/

section Naming

variable {T : Tables} {sha256 : List UInt8 → String} {F : Type}

/-- A given name is used as it is cleaned, or the id stands in for it. -/
lemma publicSafeText_cases (T : Tables) (value : Option Text) :
    (∀ default, publicSafeText T value default = publicSafeText T value []) ∨
      ∀ default, publicSafeText T value default = default := by
  unfold publicSafeText
  dsimp only
  split_ifs
  · exact .inr fun _ => rfl
  · exact .inr fun _ => rfl
  · exact .inl fun _ => rfl

/-- Two short names are clean as they stand. -/
lemma shortNames_clean : ∀ name ∈ [ofString "a", ofString "b"],
    isAscii name = true ∧ strip name = name ∧ name ≠ [] ∧ joinWords (words name) = name ∧
      containsForbiddenText asciiTables name = false ∧
        sanitizePublicText asciiTables none name = name := by
  decide +kernel

lemma publicSafeText_short (T : Tables) (default : Text) :
    publicSafeText T (some (ofString "a")) default = ofString "a" ∧
      publicSafeText T (some (ofString "b")) default = ofString "b" := by
  have hsame : ∀ name ∈ [ofString "a", ofString "b"],
      publicSafeText T (some name) default = name := by
    intro name hname
    obtain ⟨hascii, hstrip, hne, -, hforbidden, hclean⟩ := shortNames_clean name hname
    rw [← sanitizePublicText_ascii T asciiTables none hascii] at hclean
    rw [← containsForbiddenText_eq T asciiTables] at hforbidden
    unfold publicSafeText
    simp [hstrip, hne, hforbidden, hclean]
  exact ⟨hsame _ (by simp), hsame _ (by simp)⟩

lemma publicSafeIdentity_short (T : Tables) (sha256 : List UInt8 → String) (kind : String) :
    publicSafeIdentity T sha256 (some (ofString "a")) kind = some (ofString "a") ∧
      publicSafeIdentity T sha256 (some (ofString "b")) kind = some (ofString "b") := by
  have hsame : ∀ name ∈ [ofString "a", ofString "b"],
      publicSafeIdentity T sha256 (some name) kind = some name := by
    intro name hname
    obtain ⟨hascii, hstrip, hne, hwords, hforbidden, hclean⟩ := shortNames_clean name hname
    rw [← sanitizePublicText_ascii T asciiTables none hascii] at hclean
    rw [← containsForbiddenText_eq T asciiTables] at hforbidden
    unfold publicSafeIdentity
    simp [hstrip, hne, hforbidden, hclean, hwords]
  exact ⟨hsame _ (by simp), hsame _ (by simp)⟩

/-- The three names are made apart, but for a name that the id stands in for. -/
lemma isNamed_iff {i : Identity} : IsNamed T sha256 i ↔ ∃ id name spaceId,
    publicSafeIdentity T sha256 id "worker" = some i.id ∧ i.name = publicSafeText T name i.id ∧
      optionalPublicSafeIdentity T sha256 spaceId "space" = some i.spaceId := by
  unfold IsNamed identityOf
  constructor
  · rintro ⟨args, h⟩
    obtain ⟨id, hid, h⟩ := Option.bind_eq_some_iff.mp h
    obtain ⟨spaceId, hspace, h⟩ := Option.bind_eq_some_iff.mp h
    rw [← Option.some.inj h]
    exact ⟨args.id, args.name, args.spaceId, hid, rfl, hspace⟩
  · rintro ⟨id, name, spaceId, hid, hname, hspace⟩
    refine ⟨⟨id, name, spaceId⟩, Option.bind_eq_some_iff.mpr ⟨i.id, hid, ?_⟩⟩
    refine Option.bind_eq_some_iff.mpr ⟨i.spaceId, hspace, ?_⟩
    rw [← hname]
    rfl

lemma exists_short_ne (t : Text) : ofString "a" ≠ t ∨ ofString "b" ≠ t := by
  have hne : ofString "a" ≠ ofString "b" := by decide
  by_cases h : ofString "a" = t
  · exact .inr fun hb => hne (h.trans hb.symm)
  · exact .inl h

/-- A worker may have any other name. -/
lemma exists_named_name_ne {i : Identity} (h : IsNamed T sha256 i) (name : Text) :
    ∃ j, IsNamed T sha256 j ∧ j.id = i.id ∧ j.spaceId = i.spaceId ∧ j.name ≠ name := by
  obtain ⟨id, _, spaceId, hid, -, hspace⟩ := isNamed_iff.mp h
  have hshort := publicSafeText_short T i.id
  rcases exists_short_ne name with hne | hne
  · exact ⟨⟨i.id, ofString "a", i.spaceId⟩, isNamed_iff.mpr ⟨id, _, spaceId, hid, hshort.1.symm,
      hspace⟩, rfl, rfl, hne⟩
  · exact ⟨⟨i.id, ofString "b", i.spaceId⟩, isNamed_iff.mpr ⟨id, _, spaceId, hid, hshort.2.symm,
      hspace⟩, rfl, rfl, hne⟩

/-- A worker may be in no space. -/
lemma exists_named_no_space {i : Identity} (h : IsNamed T sha256 i) :
    IsNamed T sha256 ⟨i.id, i.name, none⟩ := by
  obtain ⟨id, name, _, hid, hname, -⟩ := isNamed_iff.mp h
  exact isNamed_iff.mpr ⟨id, name, none, hid, hname, rfl⟩

/-- A worker may be in the space of another. -/
lemma exists_named_space {i k : Identity} (h : IsNamed T sha256 i) (hk : IsNamed T sha256 k) :
    IsNamed T sha256 ⟨i.id, i.name, k.spaceId⟩ := by
  obtain ⟨id, name, _, hid, hname, -⟩ := isNamed_iff.mp h
  obtain ⟨_, _, spaceId, -, -, hspace⟩ := isNamed_iff.mp hk
  exact isNamed_iff.mpr ⟨id, name, spaceId, hid, hname, hspace⟩

/-- A worker may have another id, and keeps its name unless that is the id. -/
lemma exists_named_id_ne {i : Identity} (h : IsNamed T sha256 i) :
    ∃ j, IsNamed T sha256 j ∧ j.id ≠ i.id ∧ j.spaceId = i.spaceId ∧
      (j.name = i.name ∨ i.name = i.id) := by
  obtain ⟨_, name, spaceId, -, hname, hspace⟩ := isNamed_iff.mp h
  obtain ⟨other, hother, hne⟩ : ∃ other, publicSafeIdentity T sha256 (some other) "worker" =
      some other ∧ other ≠ i.id := by
    have hshort := publicSafeIdentity_short T sha256 "worker"
    rcases exists_short_ne i.id with hne | hne
    · exact ⟨_, hshort.1, hne⟩
    · exact ⟨_, hshort.2, hne⟩
  refine ⟨⟨other, publicSafeText T name other, i.spaceId⟩,
    isNamed_iff.mpr ⟨some other, name, spaceId, hother, rfl, hspace⟩, hne, rfl, ?_⟩
  rcases publicSafeText_cases T name with hgiven | hdefault
  · exact .inl ((hgiven other).trans ((hgiven i.id).symm.trans hname.symm))
  · exact .inr (hname.trans (hdefault i.id))

end Naming

/-! ### Selectors of the same workers -/

section Apart

variable {T : Tables} {sha256 : List UInt8 → String} {a b : Selector} {i : Identity}

/-- The first selector repeats the name as the id, and no worker of that name has another one. -/
def RepeatsName (T : Tables) (sha256 : List UInt8 → String) (a b : Selector) : Prop :=
  b.workerId = [] ∧ b.name ≠ [] ∧ a = { b with workerId := b.name } ∧
    ∀ i, IsNamed T sha256 i → i.name = b.name → i.id = b.name

lemma name_eq_of_selects (h : ∀ i, IsNamed T sha256 i → b.Selects i → a.Selects i)
    (hi : IsNamed T sha256 i) (hb : b.Selects i) (hne : a.name ≠ []) : b.name = a.name := by
  have hgiven : b.name ≠ [] := by
    intro hnone
    obtain ⟨j, hj, hid, hspace, hname⟩ := exists_named_name_ne hi a.name
    have hselects : b.Selects j :=
      ⟨fun hn => hid.trans (hb.1 hn), fun hn => absurd hnone hn, fun hn => hspace.trans (hb.2.2 hn)⟩
    exact hname ((h j hj hselects).2.1 hne)
  exact (hb.2.1 hgiven).symm.trans ((h i hi hb).2.1 hne)

lemma spaceId_eq_of_selects (h : ∀ i, IsNamed T sha256 i → b.Selects i → a.Selects i)
    (hi : IsNamed T sha256 i) (hb : b.Selects i) (hne : a.spaceId ≠ none) :
    b.spaceId = a.spaceId := by
  have hgiven : b.spaceId ≠ none := by
    intro hnone
    have hselects : b.Selects ⟨i.id, i.name, none⟩ :=
      ⟨hb.1, hb.2.1, fun hn => absurd hnone hn⟩
    exact hne ((h _ (exists_named_no_space hi) hselects).2.2 hne).symm
  exact (hb.2.2 hgiven).symm.trans ((h i hi hb).2.2 hne)

lemma workerId_eq_of_selects (h : ∀ i, IsNamed T sha256 i → b.Selects i → a.Selects i)
    (hi : IsNamed T sha256 i) (hb : b.Selects i) (hname : a.name = b.name)
    (hspace : a.spaceId = b.spaceId) (hne : a.workerId ≠ []) :
    b.workerId = a.workerId ∨ RepeatsName T sha256 a b := by
  have hid : i.id = a.workerId := (h i hi hb).1 hne
  by_cases hnone : b.workerId = []
  · right
    obtain ⟨j, hj, hother, hjspace, hjname⟩ := exists_named_id_ne hi
    have hdiffers : ¬b.Selects j := fun hselects => hother (((h j hj hselects).1 hne).trans hid.symm)
    have hgiven : b.name ≠ [] ∧ j.name ≠ i.name := by
      constructor
      · intro hn
        exact hdiffers ⟨fun hw => absurd hnone hw, fun hw => absurd hn hw,
          fun hw => hjspace.trans (hb.2.2 hw)⟩
      · intro hn
        exact hdiffers ⟨fun hw => absurd hnone hw, fun hw => hn.trans (hb.2.1 hw),
          fun hw => hjspace.trans (hb.2.2 hw)⟩
    have hsame : i.name = i.id := hjname.resolve_left hgiven.2
    have hrepeat : a.workerId = b.name := hid.symm.trans (hsame.symm.trans (hb.2.1 hgiven.1))
    refine ⟨hnone, hgiven.1, ?_, fun k hk hkname => ?_⟩
    · cases a
      cases b
      simp_all
    · have hselects : b.Selects ⟨k.id, k.name, i.spaceId⟩ :=
        ⟨fun hw => absurd hnone hw, fun _ => hkname, hb.2.2⟩
      exact ((h _ (exists_named_space hk hi) hselects).1 hne).trans hrepeat
  · exact .inl ((hb.1 hnone).symm.trans hid)

/-- Selectors of the same workers, if there are any, are equal or repeat a name. -/
theorem selectors_eq_or_repeat (h : ∀ i, IsNamed T sha256 i → (a.Selects i ↔ b.Selects i))
    (hi : IsNamed T sha256 i) (ha : a.Selects i) :
    a = b ∨ RepeatsName T sha256 a b ∨ RepeatsName T sha256 b a := by
  have hba : ∀ i, IsNamed T sha256 i → b.Selects i → a.Selects i := fun j hj => (h j hj).mpr
  have hab : ∀ i, IsNamed T sha256 i → a.Selects i → b.Selects i := fun j hj => (h j hj).mp
  have hb : b.Selects i := hab i hi ha
  have hname : a.name = b.name := by
    by_cases hn : a.name = []
    · by_cases hm : b.name = []
      · rw [hn, hm]
      · exact name_eq_of_selects hab hi ha hm
    · exact (name_eq_of_selects hba hi hb hn).symm
  have hspace : a.spaceId = b.spaceId := by
    by_cases hn : a.spaceId = none
    · by_cases hm : b.spaceId = none
      · rw [hn, hm]
      · exact spaceId_eq_of_selects hab hi ha hm
    · exact (spaceId_eq_of_selects hba hi hb hn).symm
  have heq : a.workerId = b.workerId → a = b := by
    intro hid
    cases a
    cases b
    simp_all
  by_cases hn : a.workerId = []
  · by_cases hm : b.workerId = []
    · exact .inl (heq (hn.trans hm.symm))
    · rcases workerId_eq_of_selects hab hi ha hname.symm hspace.symm hm with hid | hrepeat
      · exact .inl (heq hid)
      · exact .inr (.inr hrepeat)
  · rcases workerId_eq_of_selects hba hi hb hname hspace hn with hid | hrepeat
    · exact .inl (heq hid.symm)
    · exact .inr (.inl hrepeat)

end Apart

/-! ### What a proof tells -/

section Mirror

variable {F : Type} [FloatText F] (I : Interpreter F) {sha256 : List UInt8 → String}

lemma isLiveMutation_of_proof {r : CommandRequest F} {p : String}
    (h : buildSelectorProof I sha256 r = some p) : IsLiveMutation I r := by
  unfold buildSelectorProof at h
  split_ifs at h with hlive
  exact hlive

/-- A worker of given names, idle and without a summary. -/
def Worker.ofNamed {i : Identity} (h : IsNamed I.toTables sha256 i) :
    Worker I.toTables sha256 F where
  toIdentity := i
  status := ofString "idle"
  fingerprint := ofString "f"
  summary := none
  backendTarget := none
  named := h

/-- Two targets that no list of workers tells apart. -/
def MeansNoOther (sha256 : List UInt8 → String) (m n : Entries F) : Prop :=
  (∀ worker : Worker I.toTables sha256 F, ¬(selectorOf I m).Selects worker.toIdentity ∧
    ¬(selectorOf I n).Selects worker.toIdentity) ∨
  RepeatsName I.toTables sha256 (selectorOf I m) (selectorOf I n) ∨
  RepeatsName I.toTables sha256 (selectorOf I n) (selectorOf I m)

/-- Different selectors are told apart by one worker, or mean no other workers. -/
lemma exists_apart {m n : Entries F} (hne : selectorOf I m ≠ selectorOf I n) :
    (∃ workers : List (Worker I.toTables sha256 F), ∀ allow includeTarget,
      (resolveTarget I (withoutFingerprint (some m)) workers allow includeTarget).candidates ≠
        (resolveTarget I (withoutFingerprint (some n)) workers allow includeTarget).candidates) ∨
      MeansNoOther I sha256 m n := by
  by_cases hsame : ∀ i, IsNamed I.toTables sha256 i →
      ((selectorOf I m).Selects i ↔ (selectorOf I n).Selects i)
  · right
    by_cases hmatched : ∃ i, IsNamed I.toTables sha256 i ∧ (selectorOf I m).Selects i
    · obtain ⟨i, hi, hselects⟩ := hmatched
      exact .inr ((selectors_eq_or_repeat hsame hi hselects).resolve_left hne)
    · refine .inl fun worker => ?_
      have hm : ¬(selectorOf I m).Selects worker.toIdentity :=
        fun h => hmatched ⟨_, worker.named, h⟩
      exact ⟨hm, fun h => hm ((hsame _ worker.named).mpr h)⟩
  · left
    obtain ⟨i, hi⟩ := not_forall.mp hsame
    obtain ⟨hnamed, hdiffer⟩ := Classical.not_imp.mp hi
    refine ⟨[Worker.ofNamed I hnamed], fun allow includeTarget => ?_⟩
    by_cases hm : (selectorOf I m).Selects i
    · have hn : ¬(selectorOf I n).Selects i := fun hn => hdiffer (iff_of_true hm hn)
      exact candidates_ne I hm hn allow includeTarget
    · have hn : (selectorOf I n).Selects i := by
        by_contra hn
        exact hdiffer (iff_of_false hm hn)
      exact (candidates_ne I hn hm allow includeTarget).symm

/-- Selector proofs mirror target resolution: equal proofs resolve alike, and different ones are
told apart by some workers, or by none because the targets mean no other workers. -/
theorem selectorProof_mirrors (hsha : Function.Injective sha256) {r s : CommandRequest F}
    {p q : String} (haction : r.action = s.action) (hp : buildSelectorProof I sha256 r = some p)
    (hq : buildSelectorProof I sha256 s = some q) :
    (p = q → ∀ (workers : List (Worker I.toTables sha256 F)) (allow includeTarget : Bool),
      resolveTarget I (withoutFingerprint r.target) workers allow includeTarget =
        resolveTarget I (withoutFingerprint s.target) workers allow includeTarget) ∧
    (p ≠ q → ∃ m n, r.target = some m ∧ s.target = some n ∧
      ((∃ workers : List (Worker I.toTables sha256 F), ∀ allow includeTarget,
        (resolveTarget I (withoutFingerprint (some m)) workers allow includeTarget).candidates ≠
          (resolveTarget I (withoutFingerprint (some n)) workers allow includeTarget).candidates) ∨
        MeansNoOther I sha256 m n)) := by
  have hr := isLiveMutation_of_proof I hp
  have hs := isLiveMutation_of_proof I hq
  have hnone : r.target.isNone = true ↔ s.target.isNone = true := by
    rw [hr.target_isNone_iff, hs.target_isNone_iff, haction]
  rw [ne_eq, selectorProof_eq_iff I hsha haction hp hq]
  cases hm : r.target with
  | none =>
    rw [hm] at hnone
    have hn : s.target = none := Option.isNone_iff_eq_none.mp (hnone.mp rfl)
    rw [hn]
    exact ⟨fun _ _ _ _ => rfl, fun h => absurd rfl h⟩
  | some m =>
    cases hn : s.target with
    | none =>
      rw [hm, hn] at hnone
      cases hnone.mpr rfl
    | some n =>
      rw [Option.map_some, Option.map_some, Option.some.injEq]
      refine ⟨fun h workers allow includeTarget => ?_, fun h => ⟨m, n, rfl, rfl, exists_apart I h⟩⟩
      rw [resolveTarget_withoutFingerprint, resolveTarget_withoutFingerprint, h]

end Mirror

/-- A live instruction for the worker of the id. -/
def sendRequest (workerId : String) : CommandRequest Empty where
  action := ofString "send_instruction"
  schemaVersion := .int shortOne
  requestId := textJson "r1"
  dryRun := .bool false
  target := some [(ofString "worker_id", textJson workerId)]
  instruction := some [(ofString "text", textJson "go")]
  params := none
  responseSchemaVersion := .int shortTwo

lemma sendRequest_live : ∀ workerId ∈ ["a", "b", " a", " b"],
    IsLiveMutation asciiInterpreter (sendRequest workerId) := by
  intro workerId hid
  have hkey : ∀ key ∈ targetAllowedFields ++ instructionAllowedFields,
      isForbiddenFieldName asciiInterpreter.toTables key = false := by
    intro key hkey
    refine isForbiddenFieldName_allowed _ ?_
    simp only [List.mem_append] at hkey ⊢
    tauto
  have hkeys : KeysAdmitted asciiInterpreter.toTables (.dict (sendRequest workerId).toDict) :=
    keysAdmitted_toDict _ trivial trivial trivial
      ⟨⟨hkey (ofString "worker_id") (by decide), trivial⟩, trivial⟩
      ⟨⟨hkey (ofString "text") (by decide), trivial⟩, trivial⟩ trivial trivial
  -- what is left does not look into the table of forbidden names
  unfold IsLiveMutation validateRequest
  dsimp only
  rw [findForbiddenFields_of_admitted _ _ _ hkeys]
  clear hkeys
  revert workerId
  decide +kernel

/-- The samples' proofs are made, those of ids that no worker has among them. -/
lemma sendRequest_proofs : ∀ workerId ∈ ["a", "b", " a", " b"],
    (buildSelectorProof asciiInterpreter byteText (sendRequest workerId)).isSome = true := by
  intro workerId hid
  rw [buildSelectorProof, if_pos (sendRequest_live workerId hid), Option.isSome_map]
  revert workerId
  decide +kernel

theorem selectorProof_mirrors_send :
    ∃ p q, buildSelectorProof asciiInterpreter byteText (sendRequest "a") = some p ∧
      buildSelectorProof asciiInterpreter byteText (sendRequest "b") = some q ∧
      (p ≠ q → ∃ m n, (sendRequest "a").target = some m ∧ (sendRequest "b").target = some n ∧
        ((∃ workers : List (Worker asciiInterpreter.toTables byteText Empty), ∀ allow includeTarget,
          (resolveTarget asciiInterpreter (withoutFingerprint (some m)) workers allow
              includeTarget).candidates ≠
            (resolveTarget asciiInterpreter (withoutFingerprint (some n)) workers allow
              includeTarget).candidates) ∨
          MeansNoOther asciiInterpreter byteText m n)) := by
  obtain ⟨p, hp⟩ := Option.isSome_iff_exists.mp (sendRequest_proofs "a" (by simp))
  obtain ⟨q, hq⟩ := Option.isSome_iff_exists.mp (sendRequest_proofs "b" (by simp))
  have haction : (sendRequest "a").action = (sendRequest "b").action := rfl
  exact ⟨p, q, hp, hq,
    (selectorProof_mirrors asciiInterpreter byteText_injective haction hp hq).2⟩

lemma exists_head_strip {t : Text} (h : strip t ≠ []) :
    ∃ c u, strip t = c :: u ∧ isSpace c = false := by
  obtain ⟨c, u, hcons⟩ := List.exists_cons_of_ne_nil h
  refine ⟨c, u, hcons, ?_⟩
  have hdrop : (strip t).dropWhile isSpace = strip t := dropWhile_rdropWhile_dropWhile isSpace t
  rw [hcons] at hdrop
  cases hc : isSpace c with
  | false => rfl
  | true =>
    have hle := (List.dropWhile_sublist isSpace (l := u)).length_le
    rw [List.dropWhile_cons_of_pos hc] at hdrop
    rw [hdrop, List.length_cons] at hle
    omega

lemma words_strip_ne_nil {t : Text} (h : strip t ≠ []) : words (strip t) ≠ [] := by
  obtain ⟨c, u, hcons, hc⟩ := exists_head_strip h
  exact words_ne_nil (hcons ▸ List.mem_cons_self) hc

/-- No worker's id begins with whitespace. -/
lemma head_publicSafeIdentity {T : Tables} {sha256 : List UInt8 → String} {value : Option Text}
    {id : Text} (h : publicSafeIdentity T sha256 value "worker" = some id) :
    ∃ c t, id = c :: t ∧ isSpace c = false := by
  unfold publicSafeIdentity at h
  dsimp only at h
  generalize hraw : (if strip (value.getD (ofString "unknown")) = [] then ofString "unknown"
    else strip (value.getD (ofString "unknown"))) = raw at h
  have hwords : words raw ≠ [] := by
    rw [← hraw]
    split_ifs with hblank
    · decide
    · exact words_strip_ne_nil hblank
  split_ifs at h with hclean
  · rw [hclean.1] at h
    obtain ⟨c, t, hid, hc⟩ := joinWords_head hwords fun w hw =>
      ⟨ne_nil_of_mem_words hw, fun d => isSpace_of_mem_words hw⟩
    exact ⟨c, t, (Option.some.inj h).symm.trans hid, hc⟩
  · obtain ⟨digest, -, hid⟩ := Option.map_eq_some_iff.mp h
    exact ⟨codePoint 'w', ofString "orker" ++ ofString "-" ++ digest, hid.symm, by decide⟩

lemma strip_id_ne_nil {T : Tables} {sha256 : List UInt8 → String} {F : Type}
    (worker : Worker T sha256 F) : strip worker.id ≠ [] := by
  obtain ⟨id, _, _, hnamed, -, -⟩ := isNamed_iff.mp worker.named
  obtain ⟨c, u, hcons, hc⟩ := head_publicSafeIdentity hnamed
  unfold strip
  rw [hcons, dropWhile_eq_self_of_head hc]
  intro hnil
  have hall := List.rdropWhile_eq_nil_iff.mp hnil
  rw [hall c List.mem_cons_self] at hc
  cases hc

/-- An id that begins with a space means no worker. -/
lemma not_selects_of_space {target : Entries Empty} {t : Text}
    (hid : (selectorOf asciiInterpreter target).workerId = space :: t)
    (worker : Worker asciiInterpreter.toTables byteText Empty) :
    ¬(selectorOf asciiInterpreter target).Selects worker.toIdentity := by
  intro h
  obtain ⟨id, _, _, hnamed, -, -⟩ := isNamed_iff.mp worker.named
  obtain ⟨c, u, hcons, hc⟩ := head_publicSafeIdentity hnamed
  have hsame := h.1 (by simp [hid])
  rw [hid, hcons] at hsame
  rw [(List.cons.inj hsame).1] at hc
  exact absurd hc (by decide)

/-- Two ids that no worker has: the proofs differ, and nothing else does. -/
theorem selectorProof_spaces :
    ∃ p q, buildSelectorProof asciiInterpreter byteText (sendRequest " a") = some p ∧
      buildSelectorProof asciiInterpreter byteText (sendRequest " b") = some q ∧ p ≠ q ∧
      ∀ (workers : List (Worker asciiInterpreter.toTables byteText Empty)) (allow includeTarget : Bool),
        resolveTarget asciiInterpreter (withoutFingerprint (sendRequest " a").target) workers allow
            includeTarget =
          resolveTarget asciiInterpreter (withoutFingerprint (sendRequest " b").target) workers
            allow includeTarget := by
  obtain ⟨p, hp⟩ := Option.isSome_iff_exists.mp (sendRequest_proofs " a" (by simp))
  obtain ⟨q, hq⟩ := Option.isSome_iff_exists.mp (sendRequest_proofs " b" (by simp))
  have haction : (sendRequest " a").action = (sendRequest " b").action := rfl
  refine ⟨p, q, hp, hq, ?_, fun workers allow includeTarget => ?_⟩
  · rw [ne_eq, selectorProof_eq_iff asciiInterpreter byteText_injective haction hp hq]
    decide +kernel
  · have hnone : ∀ target : Entries Empty, ∀ t : Text,
        (selectorOf asciiInterpreter target).workerId = space :: t →
          (workers.filter fun worker =>
            (selectorOf asciiInterpreter target).Selects worker.toIdentity) = [] := by
      intro target t hid
      exact List.filter_eq_nil_iff.mpr fun worker _ => by simpa using not_selects_of_space hid worker
    have hidA : (selectorOf asciiInterpreter [(ofString "worker_id", textJson " a")]).workerId =
        space :: ofString "a" := by decide
    have hidB : (selectorOf asciiInterpreter [(ofString "worker_id", textJson " b")]).workerId =
        space :: ofString "b" := by decide
    have htarget : ∀ id : String, (sendRequest id).target =
        some [(ofString "worker_id", textJson id)] := fun _ => rfl
    rw [htarget, htarget]
    refine (resolveTarget_withoutFingerprint asciiInterpreter _ workers allow includeTarget).trans
      (Eq.trans ?_ (resolveTarget_withoutFingerprint asciiInterpreter _ workers allow
        includeTarget).symm)
    rw [hnone _ _ hidA, hnone _ _ hidB]

end Tendwire.Commands

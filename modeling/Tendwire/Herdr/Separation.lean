import Tendwire.Herdr.Routes

/-!
# Separating duplicate bindings

Bindings of one host, backend and private fingerprint that differ in what they lead to each get a
fingerprint of their own and are not sent to. One pass is enough unless a binding that stays
already has the fingerprint that another one is given.
-/

namespace Tendwire

open Json List

namespace ObservationRules

variable (R : ObservationRules)

def duplicateWorkerBindingPrivateFingerprint (b : WorkerBinding) : String :=
  R.workerBindingPrivateFingerprint b.hostId b.backend (duplicateIdentityMaterial b)

/-- Another binding of the group leads elsewhere. -/
def needsSeparation (bindings : List WorkerBinding) (b : WorkerBinding) : Bool :=
  bindings.any fun other => other.key = b.key ∧ privateRowKey other ≠ privateRowKey b

def separatedBinding (bindings : List WorkerBinding) (b : WorkerBinding) : WorkerBinding :=
  if needsSeparation bindings b then R.duplicateSeparatedWorkerBinding b else b

lemma separate_eq_map (bindings : List WorkerBinding) :
    R.separateDuplicateWorkerBindings bindings = bindings.map (R.separatedBinding bindings) := rfl

/-- One private fingerprint of a host and a backend leads to one target. -/
def TargetsApart (bindings : List WorkerBinding) : Prop :=
  ∀ b ∈ bindings, ∀ c ∈ bindings, b.key = c.key → privateRowKey b = privateRowKey c

/-- A binding that stays has the fingerprint that a separated one is given, and leads elsewhere. -/
def FingerprintTaken (bindings : List WorkerBinding) : Prop :=
  ∃ b ∈ bindings, ∃ c ∈ bindings, needsSeparation bindings b = true ∧
    needsSeparation bindings c = false ∧
    c.key = (b.hostId, b.backend, R.duplicateWorkerBindingPrivateFingerprint b) ∧
    privateRowKey c ≠ privateRowKey b

/-- The constructor has nothing to fill in. -/
def IsMade (b : WorkerBinding) : Prop := R.makeBinding b = b

end ObservationRules

namespace ProjectionRules

open ObservationRules

variable {R : ProjectionRules} {b c : WorkerBinding} {bindings other : List WorkerBinding}

lemma needsSeparation_eq_true_iff : needsSeparation bindings b = true ↔
    ∃ c ∈ bindings, c.key = b.key ∧ privateRowKey c ≠ privateRowKey b := by
  simp [needsSeparation]

lemma needsSeparation_eq_false_iff : needsSeparation bindings b = false ↔
    ∀ c ∈ bindings, c.key = b.key → privateRowKey c = privateRowKey b := by
  simp [needsSeparation]

/-! ### One binding -/

/-- The digest of a separated binding gives its row away. -/
lemma privateRowKey_of_duplicateFingerprint
    (h : R.duplicateWorkerBindingPrivateFingerprint b =
      R.duplicateWorkerBindingPrivateFingerprint c) : privateRowKey b = privateRowKey c := by
  have hkeys := (R.identity_digest _ _ _ _ _ _ h).2
  have hworker := hkeys "worker_id"
  have hfingerprint := hkeys "worker_fingerprint"
  simp only [duplicateIdentityMaterial, Fields.get?_cons] at hworker hfingerprint
  obtain ⟨hkind, hvalue, hturnKind, hturnValue⟩ := sameTarget_of_duplicateIdentity h
  simp only [privateRowKey, PrivateRowKey.mk.injEq]
  exact ⟨by simpa [Value.text?] using hworker, by simpa [Value.text?] using hfingerprint, hkind,
    hvalue, hturnKind, hturnValue⟩

lemma IsMade.nonempty (h : IsMade R.toObservationRules b) :
    b.hostId ≠ "" ∧ b.workerId ≠ "" ∧ b.backend ≠ "" ∧ b.expiresAt ≠ "" := by
  have hhost := congrArg WorkerBinding.hostId h
  have hworker := congrArg WorkerBinding.workerId h
  have hbackend := congrArg WorkerBinding.backend h
  have hexpires := congrArg WorkerBinding.expiresAt h
  simp only [makeBinding] at hhost hworker hbackend hexpires
  refine ⟨?_, ?_, ?_, ?_⟩
  · rintro hempty
    simp [hempty] at hhost
  · rintro hempty
    simp [hempty] at hworker
  · rintro hempty
    simp [hempty] at hbackend
  · rintro hempty
    simp [hempty, workerBindingActiveExpiresAt] at hexpires

/-- A separated binding keeps its row under the fingerprint of its digest. -/
lemma separated_spec (h : IsMade R.toObservationRules b) :
    (R.duplicateSeparatedWorkerBinding b).key =
        (b.hostId, b.backend, R.duplicateWorkerBindingPrivateFingerprint b) ∧
      privateRowKey (R.duplicateSeparatedWorkerBinding b) = privateRowKey b := by
  obtain ⟨hhost, hworker, hbackend, -⟩ := IsMade.nonempty h
  unfold duplicateSeparatedWorkerBinding
  dsimp only
  split
  · next heq => exact ⟨by rw [WorkerBinding.key, heq.1]; rfl, rfl⟩
  · have hdigest : R.workerBindingPrivateFingerprint b.hostId b.backend
        (duplicateIdentityMaterial b) ≠ "" := workerBindingPrivateFingerprint_ne _ _ _
    constructor
    · simp only [makeBinding, WorkerBinding.key, if_neg hhost, if_neg hbackend, if_neg hdigest]
      rfl
    · simp only [makeBinding, privateRowKey, if_neg hworker]

/-! ### The whole list -/

lemma separate_perm (h : bindings.Perm other) :
    (R.separateDuplicateWorkerBindings bindings).Perm
      (R.separateDuplicateWorkerBindings other) := by
  have hneeds : needsSeparation bindings = needsSeparation other := by
    funext b
    rw [Bool.eq_iff_iff, needsSeparation_eq_true_iff, needsSeparation_eq_true_iff]
    simp only [h.mem_iff]
  have hsame : R.separatedBinding bindings = R.separatedBinding other := by
    funext b
    rw [separatedBinding, separatedBinding, hneeds]
  rw [separate_eq_map, separate_eq_map, hsame]
  exact h.map _

/-- Separation changes nothing exactly where the targets are apart. -/
theorem separate_eq_self_iff :
    R.separateDuplicateWorkerBindings bindings = bindings ↔ TargetsApart bindings := by
  have hfixed : bindings.map (R.separatedBinding bindings) = bindings.map id ↔
      ∀ b ∈ bindings, R.separatedBinding bindings b = b := List.map_inj_left
  rw [List.map_id] at hfixed
  rw [separate_eq_map, hfixed]
  constructor
  · intro hfixed b hb c hc hkey
    by_contra hne
    have hb' := hfixed b hb
    have hc' := hfixed c hc
    rw [separatedBinding, if_pos (needsSeparation_eq_true_iff.mpr
      ⟨c, hc, hkey.symm, fun h => hne h.symm⟩)] at hb'
    rw [separatedBinding, if_pos (needsSeparation_eq_true_iff.mpr ⟨b, hb, hkey, hne⟩)] at hc'
    have hdigest := (duplicateSeparated_spec (R := R) b).1
    have hdigest' := (duplicateSeparated_spec (R := R) c).1
    rw [hb'] at hdigest
    rw [hc'] at hdigest'
    have hfingerprint : b.privateFingerprint = c.privateFingerprint :=
      congrArg (fun key => key.2.2) hkey
    exact hne (privateRowKey_of_duplicateFingerprint
      (hdigest.symm.trans (hfingerprint.trans hdigest')))
  · intro hapart b hb
    have hkeep : needsSeparation bindings b = false :=
      needsSeparation_eq_false_iff.mpr fun c hc hkey => hapart c hc b hb hkey
    rw [separatedBinding, hkeep]
    rfl

/-- After separation the targets are apart unless a fingerprint was taken. -/
theorem targetsApart_separate_iff (h : ∀ b ∈ bindings, IsMade R.toObservationRules b) :
    TargetsApart (R.separateDuplicateWorkerBindings bindings) ↔
      ¬FingerprintTaken R.toObservationRules bindings := by
  rw [separate_eq_map]
  unfold TargetsApart
  simp only [List.forall_mem_map]
  have hrow (b : WorkerBinding) (hb : b ∈ bindings) :
      privateRowKey (R.separatedBinding bindings b) = privateRowKey b := by
    unfold separatedBinding
    split
    · exact (separated_spec (h b hb)).2
    · rfl
  have hmoved (b : WorkerBinding) (hb : b ∈ bindings) (hneeds : needsSeparation bindings b = true) :
      (R.separatedBinding bindings b).key =
        (b.hostId, b.backend, R.duplicateWorkerBindingPrivateFingerprint b) := by
    rw [separatedBinding, if_pos hneeds]
    exact (separated_spec (h b hb)).1
  have hstays (b : WorkerBinding) (hneeds : needsSeparation bindings b = false) :
      R.separatedBinding bindings b = b := by
    rw [separatedBinding, hneeds]
    rfl
  constructor
  · rintro hapart ⟨b, hb, c, hc, hneeds, hkeep, hkey, hne⟩
    have hsame := hapart c hc b hb (by rw [hstays c hkeep, hmoved b hb hneeds, hkey])
    rw [hrow c hc, hrow b hb] at hsame
    exact hne hsame
  · intro hfree b hb c hc hkey
    rw [hrow b hb, hrow c hc]
    by_contra hne
    cases hneeds : needsSeparation bindings b with
    | true =>
      cases hneeds' : needsSeparation bindings c with
      | true =>
        rw [hmoved b hb hneeds, hmoved c hc hneeds'] at hkey
        have hdigest : R.duplicateWorkerBindingPrivateFingerprint b =
            R.duplicateWorkerBindingPrivateFingerprint c := congrArg (fun key => key.2.2) hkey
        exact hne (privateRowKey_of_duplicateFingerprint hdigest)
      | false =>
        rw [hmoved b hb hneeds, hstays c hneeds'] at hkey
        exact hfree ⟨b, hb, c, hc, hneeds, hneeds', hkey.symm, fun h => hne h.symm⟩
    | false =>
      cases hneeds' : needsSeparation bindings c with
      | true =>
        rw [hstays b hneeds, hmoved c hc hneeds'] at hkey
        exact hfree ⟨c, hc, b, hb, hneeds', hneeds, hkey, hne⟩
      | false =>
        rw [hstays b hneeds, hstays c hneeds'] at hkey
        exact hne (needsSeparation_eq_false_iff.mp hneeds' b hb hkey)

/-- Each row keeps its place, a separated one is not sent to, and the order does not matter. One
pass sets the targets apart, and is the last that changes anything, exactly unless a fingerprint
was taken. -/
theorem separation_of_duplicates (R : ProjectionRules) (bindings : List WorkerBinding)
    (h : ∀ b ∈ bindings, IsMade R.toObservationRules b) :
    let separated := R.separateDuplicateWorkerBindings bindings
    separated.length = bindings.length ∧
      (∀ (i : Nat) b, bindings[i]? = some b → ∃ c, separated[i]? = some c ∧
        privateRowKey c = privateRowKey b ∧
        (needsSeparation bindings b = true → c.sendable = false)) ∧
      (∀ other, bindings.Perm other →
        separated.Perm (R.separateDuplicateWorkerBindings other)) ∧
      (TargetsApart separated ↔ ¬FingerprintTaken R.toObservationRules bindings) ∧
      (R.separateDuplicateWorkerBindings separated = separated ↔
        ¬FingerprintTaken R.toObservationRules bindings) := by
  intro separated
  refine ⟨List.length_map _, ?_, fun other hperm => separate_perm hperm,
    targetsApart_separate_iff h, separate_eq_self_iff.trans (targetsApart_separate_iff h)⟩
  intro i b hb
  refine ⟨R.separatedBinding bindings b, ?_, ?_, ?_⟩
  · exact (List.getElem?_map ..).trans (congrArg (Option.map _) hb)
  · unfold separatedBinding
    split
    · exact (separated_spec (h b (List.mem_of_getElem? hb))).2
    · rfl
  · intro hneeds
    rw [separatedBinding, if_pos hneeds]
    exact (duplicateSeparated_spec b).2.1

end ProjectionRules

open ObservationRules ProjectionRules

/-! ### Bindings that stay together -/

def sampleBinding (workerId pane privateFingerprint : String) : WorkerBinding where
  hostId := "host"
  workerId
  workerFingerprint := "worker"
  backend := backendName
  targetKind := "pane_id"
  targetValue := pane
  turnTargetKind := none
  turnTargetValue := none
  sendable := true
  reason := none
  observedAt := "2026-01-01T00:00:00+00:00"
  expiresAt := workerBindingActiveExpiresAt
  privateFingerprint

/-- Two bindings to separate, and one that has the fingerprint the first is given. -/
def takenBindings : List WorkerBinding := [
  sampleBinding "a" "p1" "shared", sampleBinding "b" "p2" "shared",
  sampleBinding "c" "p3" (wordRules.duplicateWorkerBindingPrivateFingerprint
    (sampleBinding "a" "p1" "shared"))]

theorem separation_of_duplicates_pair :
    let bindings := [sampleBinding "a" "p1" "shared", sampleBinding "b" "p2" "shared"]
    TargetsApart (wordProjectionRules.separateDuplicateWorkerBindings bindings) := by
  have hmade : ∀ b ∈ [sampleBinding "a" "p1" "shared", sampleBinding "b" "p2" "shared"],
      IsMade wordProjectionRules.toObservationRules b := by
    intro b hb
    simp only [List.mem_cons, List.not_mem_nil, or_false] at hb
    rcases hb with rfl | rfl <;> rfl
  refine (separation_of_duplicates wordProjectionRules _ hmade).2.2.2.1.mpr ?_
  rintro ⟨b, -, c, hc, -, hkeep, -, -⟩
  simp only [List.mem_cons, List.not_mem_nil, or_false] at hc
  rcases hc with rfl | rfl <;> revert hkeep <;> decide

lemma takenBindings_taken :
    (∀ b ∈ takenBindings, IsMade wordProjectionRules.toObservationRules b) ∧
      FingerprintTaken wordProjectionRules.toObservationRules takenBindings := by
  unfold IsMade FingerprintTaken
  decide +kernel

/-- Bindings of one worker fingerprint stay as they are when their private fingerprints differ, and
a second pass separates what the first one brought together. -/
theorem separation_leaves :
    (∃ b ∈ wordProjectionRules.separateDuplicateWorkerBindings
        [sampleBinding "a" "p1" "one", sampleBinding "a" "p2" "two"],
      ∃ c ∈ wordProjectionRules.separateDuplicateWorkerBindings
        [sampleBinding "a" "p1" "one", sampleBinding "a" "p2" "two"],
      b.workerFingerprint = c.workerFingerprint ∧ b.targetValue ≠ c.targetValue) ∧
      wordProjectionRules.separateDuplicateWorkerBindings
          (wordProjectionRules.separateDuplicateWorkerBindings takenBindings) ≠
        wordProjectionRules.separateDuplicateWorkerBindings takenBindings := by
  constructor
  · decide +kernel
  · obtain ⟨hmade, htaken⟩ := takenBindings_taken
    rw [ne_eq, separate_eq_self_iff, targetsApart_separate_iff hmade, not_not]
    exact htaken

end Tendwire

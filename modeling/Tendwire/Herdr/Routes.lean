import Tendwire.Framing.Pieces
import Tendwire.Herdr.PublicIds

/-!
# Routes of a projection

A binding is the route to one worker. Bindings that share a private identity are separated, so
that a private fingerprint leads to one target, and a send token is sendable once.
-/

namespace Tendwire

open Json List

/-- Two bindings of one send target and one turn target. -/
structure SameTarget (b b' : WorkerBinding) : Prop where
  kind : b.targetKind = b'.targetKind
  value : b.targetValue = b'.targetValue
  turn_kind : b.turnTargetKind = b'.turnTargetKind
  turn_value : b.turnTargetValue = b'.turnTargetValue

lemma SameTarget.symm {b b' : WorkerBinding} (h : SameTarget b b') : SameTarget b' b :=
  ⟨h.kind.symm, h.value.symm, h.turn_kind.symm, h.turn_value.symm⟩

lemma SameTarget.trans {b b' b'' : WorkerBinding} (h : SameTarget b b') (h' : SameTarget b' b'') :
    SameTarget b b'' :=
  ⟨h.kind.trans h'.kind, h.value.trans h'.value, h.turn_kind.trans h'.turn_kind,
    h.turn_value.trans h'.turn_value⟩

/-- Bindings that share no token and whose private fingerprints are digests of a few fields, all of
one host and backend. -/
structure Observed (R : ProjectionRules) (bindings : List WorkerBinding) : Prop where
  tokens : bindings.Pairwise fun b b' =>
    ¬(b.sendable = true ∧ b'.sendable = true ∧ b.targetValue = b'.targetValue)
  scope : ∀ b ∈ bindings, ∀ b' ∈ bindings, b.hostId = b'.hostId ∧ b.backend = b'.backend
  identity : ∀ b ∈ bindings, ∃ hostId backend identity, b.privateFingerprint =
    R.workerBindingPrivateFingerprint hostId backend identity ∧ identity.length ≤ 5

namespace ProjectionRules

variable {R : ProjectionRules} {b b' : WorkerBinding} {bindings : List WorkerBinding}

lemma privateFingerprint_makeBinding (h : b.privateFingerprint ≠ "") :
    (R.makeBinding b).privateFingerprint = b.privateFingerprint := by
  simp only [ObservationRules.makeBinding, if_neg h]

lemma workerBindingPrivateFingerprint_ne (hostId backend : String) (identity : Fields) :
    R.workerBindingPrivateFingerprint hostId backend identity ≠ "" := R.digest_nonempty _

/-- A separated binding is the old one under a digest of all its fields, and is not sent to. -/
lemma duplicateSeparated_spec (b : WorkerBinding) :
    (R.duplicateSeparatedWorkerBinding b).privateFingerprint =
        R.workerBindingPrivateFingerprint b.hostId b.backend
          (ObservationRules.duplicateIdentityMaterial b) ∧
      (R.duplicateSeparatedWorkerBinding b).sendable = false ∧
      SameTarget (R.duplicateSeparatedWorkerBinding b) b := by
  unfold ObservationRules.duplicateSeparatedWorkerBinding
  dsimp only
  split
  · rename_i h
    exact ⟨h.1, h.2.1, rfl, rfl, rfl, rfl⟩
  · refine ⟨?_, rfl, rfl, rfl, rfl, rfl⟩
    exact privateFingerprint_makeBinding (workerBindingPrivateFingerprint_ne _ _ _)

lemma text?_ofText? (text : Option String) : (Value.ofText? text).text? = text := by
  cases text <;> rfl

/-- The digest of a separated binding gives its target away. -/
lemma sameTarget_of_duplicateIdentity {hostId hostId' backend backend' : String}
    (h : R.workerBindingPrivateFingerprint hostId backend
        (ObservationRules.duplicateIdentityMaterial b) =
      R.workerBindingPrivateFingerprint hostId' backend'
        (ObservationRules.duplicateIdentityMaterial b')) : SameTarget b b' := by
  have hkeys := (R.identity_digest _ _ _ _ _ _ h).2
  constructor
  · simpa [ObservationRules.duplicateIdentityMaterial, Fields.get?_cons, Value.text?] using
      hkeys "target_kind"
  · simpa [ObservationRules.duplicateIdentityMaterial, Fields.get?_cons, Value.text?] using
      hkeys "target_value"
  · simpa [ObservationRules.duplicateIdentityMaterial, Fields.get?_cons, text?_ofText?] using
      hkeys "turn_target_kind"
  · simpa [ObservationRules.duplicateIdentityMaterial, Fields.get?_cons, text?_ofText?] using
      hkeys "turn_target_value"

section Rows

variable {hostId observedAt : String} {key : Option Bytes} {rows : List WorkerRecord}
  {record : WorkerRecord}

end Rows

/-! ### The projection of a payload -/

section Payloads

variable {config : ObservationConfig} {observedAt : String} {installation : Option Bytes}
  {records : List WorkerRecord} {stored : List WorkerBinding} {requireContinuity : Bool}

/-- A projection that returns has the property; one that does not lacks continuity. -/
def Projects (property : List Worker → List WorkerBinding → Prop) :
    Except ObservationRules.ProjectionError (List Worker × List WorkerBinding) → Prop
  | .ok (workers, bindings) => property workers bindings
  | .error e => e ≠ .assertion

end Payloads

end ProjectionRules

open ObservationRules

/-! ### An id that a suffix takes -/

/-- A text that no other starts with. -/
def escaped (s : List Char) : List Char := s.flatMap (fun c => ['c', c]) ++ ['e']

lemma escaped_append_inj {s s' r r' : List Char} (h : escaped s ++ r = escaped s' ++ r') :
    s = s' ∧ r = r' := by
  induction s generalizing s' with
  | nil =>
    cases s' with
    | nil => simpa [escaped] using h
    | cons c s' => simp [escaped] at h
  | cons c s ih =>
    cases s' with
    | nil => simp [escaped] at h
    | cons c' s' =>
      simp only [escaped, List.flatMap_cons, List.cons_append, List.nil_append, List.append_assoc,
        List.cons.injEq, true_and] at h
      obtain ⟨rfl, h⟩ := h
      have h' : escaped s ++ r = escaped s' ++ r' := by
        simpa [escaped] using h
      obtain ⟨rfl, rfl⟩ := ih h'
      exact ⟨rfl, rfl⟩

/-- The names of a mapping and its texts, in a way that can be read back. -/
def spelled : Fields → List Char
  | [] => []
  | (key, value) :: m =>
    escaped key.toList ++ (match value.text? with
      | some text => 't' :: escaped text.toList
      | none => ['n']) ++ spelled m

lemma spelled_inj {m n : Fields} (h : spelled m = spelled n) :
    m.length = n.length ∧
      ∀ key, (m.get? key).bind Value.text? = (n.get? key).bind Value.text? := by
  induction m generalizing n with
  | nil =>
    cases n with
    | nil => exact ⟨rfl, fun _ => rfl⟩
    | cons e n => simp [spelled, escaped] at h
  | cons e m ih =>
    obtain ⟨k, v⟩ := e
    cases n with
    | nil => simp [spelled, escaped] at h
    | cons e' n =>
      obtain ⟨k', v'⟩ := e'
      simp only [spelled, List.append_assoc] at h
      obtain ⟨hkey, hrest⟩ := escaped_append_inj h
      obtain rfl := String.toList_inj.mp hkey
      have htail : v.text? = v'.text? ∧ spelled m = spelled n := by
        cases hv : v.text? <;> cases hv' : v'.text? <;> rw [hv, hv'] at hrest
        · exact ⟨rfl, by simpa using hrest⟩
        · simp at hrest
        · simp at hrest
        · simp only [List.cons_append, List.cons.injEq, true_and] at hrest
          obtain ⟨htext, hspelled⟩ := escaped_append_inj hrest
          exact ⟨congrArg some (String.toList_inj.mp htext), hspelled⟩
      obtain ⟨hlength, hget⟩ := ih htail.2
      refine ⟨congrArg (· + 1) hlength, fun key => ?_⟩
      rw [Fields.get?_cons, Fields.get?_cons]
      split
      · exact htail.1
      · exact hget key

/-- A text without whitespace is public, another one is not. -/
def wordRules : ObservationRules where
  toTextRules := { plainTextRules with
    sanitizePublicText := fun text => if text.toList.any isWhitespace then "" else text }
  privateStableDigest v := String.ofList ('d' :: match v with
    | .object fields => spelled (((Fields.get? fields "identity").bind Value.object?).getD [])
    | _ => [])
  adapterDigest _ := "0"
  observationJson v := String.ofList (spelled (v.object?.getD []))
  lower_plain _ _ := rfl

lemma strip_of_word {text : String} (h : ∀ c ∈ text.toList, isWhitespace c = false) :
    strip text = text := by
  have hdrop : text.toList.dropWhile isWhitespace = text.toList := by
    apply List.dropWhile_eq_self_iff.mpr
    intro hlen
    simp [h _ (List.getElem_mem hlen)]
  have hback : text.toList.reverse.dropWhile isWhitespace = text.toList.reverse := by
    apply List.dropWhile_eq_self_iff.mpr
    intro hlen
    have hmem := List.mem_reverse.mp (List.getElem_mem hlen)
    simpa using h _ hmem
  rw [strip, hdrop, hback, List.reverse_reverse, String.ofList_toList]

lemma collapseSpaces_of_word {text : String} (h : ∀ c ∈ text.toList, isWhitespace c = false)
    (hne : text ≠ "") : collapseSpaces text = text := by
  have hlist : text.toList ≠ [] := by
    simpa using hne
  have hpieces := Framing.pieces_of_run h hlist
  rw [Framing.pieces] at hpieces
  rw [collapseSpaces, hpieces]
  simp

/-- The text that an identity is made of. -/
def rawIdentity (text : String) : String :=
  if strip (if text = "" then "unknown" else text) = "" then "unknown"
  else strip (if text = "" then "unknown" else text)

lemma rawIdentity_ne (text : String) : rawIdentity text ≠ "" := by
  unfold rawIdentity
  generalize strip (if text = "" then "unknown" else text) = stripped
  split
  · decide
  · assumption

lemma publicSafeIdentity_eq (R : ObservationRules) (text : String) :
    R.publicSafeIdentity "worker" text =
      if R.sanitizePublicText (rawIdentity text) = rawIdentity text ∧
          R.containsForbiddenPublicText (R.sanitizePublicText (rawIdentity text)) = false then
        collapseSpaces (R.sanitizePublicText (rawIdentity text))
      else
        "worker" ++ "-" ++ R.stableFingerprint
          (.object [("type", .text "worker"), ("raw_id", .text (rawIdentity text))]) := by
  have hraw : (if strip (R.stringValue (some (.text text)) "unknown") = "" then "unknown"
      else strip (R.stringValue (some (.text text)) "unknown")) = rawIdentity text := rfl
  unfold publicSafeIdentity TextRules.publicIdentity
  dsimp only
  rw [hraw]
  simp only [Bool.and_eq_true, decide_eq_true_eq, Bool.not_eq_true']

lemma publicSafeIdentity_wordRules (text : String) :
    wordRules.publicSafeIdentity "worker" text =
      if (rawIdentity text).toList.any isWhitespace then "worker-0"
      else collapseSpaces (rawIdentity text) := by
  have hraw := rawIdentity_ne text
  rw [publicSafeIdentity_eq]
  generalize rawIdentity text = raw at hraw
  have hsanitized : wordRules.sanitizePublicText raw =
      if raw.toList.any isWhitespace then "" else raw := rfl
  by_cases hword : raw.toList.any isWhitespace = true
  · rw [hsanitized, if_pos hword, if_pos hword, if_neg (fun h => hraw h.1.symm)]
    rfl
  · rw [hsanitized, if_neg hword, if_neg hword, if_pos ⟨rfl, rfl⟩]

/-- A word is its own public identity. -/
lemma publicSafeIdentity_of_word {text : String} (h : ∀ c ∈ text.toList, isWhitespace c = false)
    (hne : text ≠ "") : wordRules.publicSafeIdentity "worker" text = text := by
  have hany : text.toList.any isWhitespace = false := by
    simpa using h
  have hraw : rawIdentity text = text := by
    simp [rawIdentity, hne, strip_of_word h]
  rw [publicSafeIdentity_wordRules, hraw, hany, if_neg (by decide), collapseSpaces_of_word h hne]

lemma publicSafeIdentity_stable (text : String) :
    wordRules.publicSafeIdentity "worker" (wordRules.publicSafeIdentity "worker" text) =
      wordRules.publicSafeIdentity "worker" text := by
  have hraw := rawIdentity_ne text
  have hresult := publicSafeIdentity_wordRules text
  generalize rawIdentity text = raw at hraw hresult
  by_cases hword : raw.toList.any isWhitespace = true
  · rw [if_pos hword] at hresult
    rw [hresult]
    have hplain : ("worker-0".toList.any isWhitespace) = false := by decide +kernel
    apply publicSafeIdentity_of_word
    · exact fun c hc => Bool.eq_false_iff.mpr (List.any_eq_false.mp hplain c hc)
    · decide
  · have hplain : ∀ c ∈ raw.toList, isWhitespace c = false := by
      simpa using hword
    rw [if_neg hword, collapseSpaces_of_word hplain hraw] at hresult
    rw [hresult]
    exact publicSafeIdentity_of_word hplain hraw

def wordProjectionRules : ProjectionRules where
  toObservationRules := wordRules
  stableWorkerKey _ _ _ _ := "wsk1_0"
  identity_stable := publicSafeIdentity_stable
  digest_nonempty v h := by
    have hlist := congrArg String.toList h
    simp [wordRules] at hlist
  identity_digest := by
    intro hostId hostId' backend backend' m n h
    apply spelled_inj
    have hlist := congrArg String.toList h
    simpa [ObservationRules.workerBindingPrivateFingerprint, wordRules, Fields.get?_cons,
      Value.object?] using hlist

end Tendwire

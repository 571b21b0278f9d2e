import Tendwire.Turns.ChangeJournal
import Tendwire.Turns.ListTokens

/-!
# Tokens of turn.delta

The checkpoint of a client and the cursor of one frozen batch. Both name the host by its digest.
-/

namespace Tendwire.Tokens

open Strings Python Public

def turnDeltaSchemaVersion : ℤ := 1

structure TurnDeltaWatermarkPosition where
  schemaVersion : ℤ
  projectionSchemaVersion : ℤ
  sequence : ℤ
  storeEpoch : Text
  deriving DecidableEq

structure TurnDeltaCursorPosition where
  schemaVersion : ℤ
  projectionSchemaVersion : ℤ
  mode : DeltaMode
  limit : ℤ
  acceptedSequence : ℤ
  batchHigh : ℤ
  insertionHigh : ℤ
  pageNumber : ℤ
  positionSequence : ℤ
  positionWorkerId : Text
  positionTurnId : Text
  storeEpoch : Text
  expiresAt : ℤ
  deriving DecidableEq

def modeText : DeltaMode → Text
  | .bootstrap => ofString "bootstrap"
  | .changes => ofString "changes"

def modeOf (t : Text) : Option DeltaMode :=
  if t = ofString "bootstrap" then some .bootstrap
  else if t = ofString "changes" then some .changes
  else none

lemma modeOf_eq_some {t : Text} {mode : DeltaMode} : modeOf t = some mode ↔ t = modeText mode := by
  have hne : ofString "changes" ≠ ofString "bootstrap" := by decide
  unfold modeOf
  constructor
  · intro h
    split_ifs at h with hboot hchanges
    · rw [← Option.some.inj h, hboot, modeText]
    · rw [← Option.some.inj h, hchanges, modeText]
  · rintro rfl
    cases mode with
    | bootstrap => exact if_pos rfl
    | changes => rw [modeText, if_neg hne, if_pos rfl]

section

variable {F : Type} [FloatText F] (R : Runtime F)

/-- `_turn_delta_host_digest`. -/
def turnDeltaHostDigest (host : Text) : Except TokenError Text := do
  ensure (host != [] && shortIds [host]) .invalidWatermark
  domainDigest R "tendwire.turn-delta-host.v1" [("host_id", .text host)]

/-! ### Watermarks -/

def turnDeltaWatermarkMaterial (hostDigest : Text) (p : TurnDeltaWatermarkPosition) : Parts :=
  [("host_digest", .text hostDigest),
    ("projection_schema_version", .number p.projectionSchemaVersion),
    ("schema_version", .number p.schemaVersion), ("sequence", .number p.sequence),
    ("store_epoch", .text p.storeEpoch), ("token_version", .number 1)]

def turnDeltaWatermarkParts (hostDigest integrity : Text) (p : TurnDeltaWatermarkPosition) : Parts :=
  [("h", .text integrity), ("p", .number p.projectionSchemaVersion), ("q", .text p.storeEpoch),
    ("s", .number p.sequence), ("v", .number 1), ("x", .number p.schemaVersion),
    ("z", .text hostDigest)]

def turnDeltaWatermarkKeys : List String := ["h", "p", "q", "s", "v", "x", "z"]

def turnDeltaWatermarkIntegrity : String := "tendwire.turn-delta-watermark-integrity.v1"

def TurnDeltaWatermarkPosition.numbers (p : TurnDeltaWatermarkPosition) : List ℤ :=
  [p.schemaVersion, p.projectionSchemaVersion, p.sequence]

/-- `turn_delta_watermark`. -/
def turnDeltaWatermark (host : Text) (p : TurnDeltaWatermarkPosition) : Except TokenError Text := do
  ensure (p.numbers.all (0 ≤ ·)) .invalidWatermark
  ensure (p.schemaVersion == turnDeltaSchemaVersion &&
    p.projectionSchemaVersion == turnDeltaProjectionSchemaVersion && p.storeEpoch != [] &&
    shortIds [p.storeEpoch]) .invalidWatermark
  let hostDigest ← turnDeltaHostDigest R host
  let integrity ← domainDigest R turnDeltaWatermarkIntegrity (turnDeltaWatermarkMaterial hostDigest p)
  tokenOf R "twdelta1." (turnDeltaWatermarkParts hostDigest integrity p)

/-- The digest of the host, the digest of the token and the position that a watermark names. -/
def readTurnDeltaWatermark (m : Entries F) : Option (Text × Text × TurnDeltaWatermarkPosition) := do
  let integrity ← nonEmptyTextAt m "h"
  let storeEpoch ← nonEmptyTextAt m "q"
  let hostDigest ← nonEmptyTextAt m "z"
  let schemaVersion ← numberAt m "x"
  let projectionSchemaVersion ← numberAt m "p"
  let sequence ← numberAt m "s"
  some (hostDigest, integrity, ⟨schemaVersion, projectionSchemaVersion, sequence, storeEpoch⟩)

/-- `decode_turn_delta_watermark`. -/
def decodeTurnDeltaWatermark (token hostId : Text) (schemaVersion projectionSchemaVersion : ℤ) :
    Except TokenError TurnDeltaWatermarkPosition := do
  let body ← decodeToken (F := F) "twdelta1." turnListTokenChars .invalidWatermark token
  ensure (hasKeys body turnDeltaWatermarkKeys) .invalidWatermark
  ensure (equalsNumber 1 (Entries.get? body (ofString "v"))) .invalidWatermark
  let (hostDigest, integrity, p) ← required .invalidWatermark (readTurnDeltaWatermark body)
  ensure (shortIds [p.storeEpoch, hostDigest]) .invalidWatermark
  let expected ← domainDigest R turnDeltaWatermarkIntegrity (turnDeltaWatermarkMaterial hostDigest p)
  let same ← compareDigest integrity expected
  ensure same .invalidWatermark
  let expectedHost ← turnDeltaHostDigest R hostId
  let sameHost ← compareDigest hostDigest expectedHost
  ensure sameHost .crossHostWatermark
  ensure (p.schemaVersion == schemaVersion &&
    p.projectionSchemaVersion == projectionSchemaVersion) .incompatibleSchema
  .ok p

/-! ### Cursors -/

def turnDeltaCursorMaterial (hostDigest : Text) (p : TurnDeltaCursorPosition) : Parts :=
  [("accepted_sequence", .number p.acceptedSequence), ("batch_high", .number p.batchHigh),
    ("expires_at", .number p.expiresAt), ("host_digest", .text hostDigest),
    ("insertion_high", .number p.insertionHigh), ("limit", .number p.limit),
    ("mode", .text (modeText p.mode)), ("position_sequence", .number p.positionSequence),
    ("page_number", .number p.pageNumber), ("position_turn_id", .text p.positionTurnId),
    ("position_worker_id", .text p.positionWorkerId),
    ("projection_schema_version", .number p.projectionSchemaVersion),
    ("schema_version", .number p.schemaVersion), ("store_epoch", .text p.storeEpoch),
    ("token_version", .number 1)]

def turnDeltaCursorParts (hostDigest integrity : Text) (p : TurnDeltaCursorPosition) : Parts :=
  [("a", .number p.acceptedSequence), ("b", .number p.batchHigh), ("e", .number p.expiresAt),
    ("h", .text integrity), ("i", .number p.insertionHigh), ("l", .number p.limit),
    ("m", .text (modeText p.mode)), ("n", .number p.pageNumber),
    ("p", .place p.positionWorkerId p.positionSequence p.positionTurnId), ("q", .text p.storeEpoch),
    ("r", .number p.projectionSchemaVersion), ("v", .number 1), ("x", .number p.schemaVersion),
    ("z", .text hostDigest)]

def turnDeltaCursorKeys : List String :=
  ["a", "b", "e", "h", "i", "l", "m", "n", "p", "q", "r", "v", "x", "z"]

def turnDeltaCursorIntegrity : String := "tendwire.turn-delta-cursor-integrity.v1"

namespace TurnDeltaCursorPosition

def numbers (p : TurnDeltaCursorPosition) : List ℤ :=
  [p.schemaVersion, p.projectionSchemaVersion, p.limit, p.acceptedSequence, p.batchHigh,
    p.insertionHigh, p.pageNumber, p.positionSequence, p.expiresAt]

/-- What the encoder refuses. -/
def malformed (p : TurnDeltaCursorPosition) : Bool :=
  p.schemaVersion != turnDeltaSchemaVersion ||
    p.projectionSchemaVersion != turnDeltaProjectionSchemaVersion ||
    !decide (1 ≤ p.limit ∧ p.limit ≤ turnDeltaMaxLimit) ||
    decide (p.batchHigh < p.acceptedSequence) || decide (p.pageNumber < 1) || p.storeEpoch == [] ||
    p.positionTurnId == [] || (p.mode == .bootstrap && p.positionWorkerId == []) ||
    (p.mode == .changes && decide (p.positionSequence ≤ p.acceptedSequence)) ||
    !shortIds [p.positionWorkerId, p.positionTurnId, p.storeEpoch]

/-- What the decoder refuses for a request, the host apart. -/
def mismatched (p : TurnDeltaCursorPosition) (hostDigest : Text)
    (schemaVersion projectionSchemaVersion limit : ℤ) : Bool :=
  p.schemaVersion != schemaVersion || p.projectionSchemaVersion != projectionSchemaVersion ||
    p.limit != limit || !decide (1 ≤ p.limit ∧ p.limit ≤ turnDeltaMaxLimit) ||
    decide (p.batchHigh < p.acceptedSequence) || decide (p.pageNumber < 1) || p.storeEpoch == [] ||
    (p.mode == .bootstrap && p.positionWorkerId == []) ||
    (p.mode == .changes && decide (p.positionSequence ≤ p.acceptedSequence)) ||
    !shortIds [p.positionWorkerId, p.positionTurnId, p.storeEpoch, hostDigest]

end TurnDeltaCursorPosition

/-- `turn_delta_cursor`. -/
def turnDeltaCursor (host : Text) (p : TurnDeltaCursorPosition) : Except TokenError Text := do
  ensure (p.numbers.all (0 ≤ ·)) .invalidCursor
  ensure (!p.malformed) .invalidCursor
  let hostDigest ← turnDeltaHostDigest R host
  let integrity ← domainDigest R turnDeltaCursorIntegrity (turnDeltaCursorMaterial hostDigest p)
  tokenOf R "twdeltac1." (turnDeltaCursorParts hostDigest integrity p)

/-- `body["p"]` is a list of a worker, some value and a turn. -/
def namesPlace (m : Entries F) : Bool :=
  match Entries.get? m (ofString "p") with
  | some (.list [.str _, _, .str turnId]) => turnId != []
  | _ => false

/-- Sets are asked for values that have a hash. -/
def hashable : Option (Json F) → Bool
  | some (.list _) => false
  | some (.dict _) => false
  | _ => true

/-- The digest of the host, the digest of the token and the position that a cursor names. -/
def readTurnDeltaCursor (m : Entries F) : Option (Text × Text × TurnDeltaCursorPosition) := do
  let (positionWorkerId, positionSequence, positionTurnId) ← placeAt m "p"
  let mode ← (textAt m "m").bind modeOf
  let integrity ← nonEmptyTextAt m "h"
  let storeEpoch ← nonEmptyTextAt m "q"
  let hostDigest ← nonEmptyTextAt m "z"
  let acceptedSequence ← numberAt m "a"
  let batchHigh ← numberAt m "b"
  let expiresAt ← numberAt m "e"
  let insertionHigh ← numberAt m "i"
  let limit ← numberAt m "l"
  let pageNumber ← numberAt m "n"
  let projectionSchemaVersion ← numberAt m "r"
  let schemaVersion ← numberAt m "x"
  some (hostDigest, integrity, ⟨schemaVersion, projectionSchemaVersion, mode, limit,
    acceptedSequence, batchHigh, insertionHigh, pageNumber, positionSequence, positionWorkerId,
    positionTurnId, storeEpoch, expiresAt⟩)

/-- `decode_turn_delta_cursor`. -/
def decodeTurnDeltaCursor (cursor hostId : Text)
    (limit schemaVersion projectionSchemaVersion : ℤ) (now : ℚ) :
    Except TokenError TurnDeltaCursorPosition := do
  let body ← decodeToken (F := F) "twdeltac1." turnListTokenChars .invalidCursor cursor
  ensure (hasKeys body turnDeltaCursorKeys) .invalidCursor
  ensure (equalsNumber 1 (Entries.get? body (ofString "v"))) .invalidCursor
  ensure (!namesPlace body || hashable (Entries.get? body (ofString "m"))) .unhashable
  let (hostDigest, integrity, p) ← required .invalidCursor (readTurnDeltaCursor body)
  let expected ← domainDigest R turnDeltaCursorIntegrity (turnDeltaCursorMaterial hostDigest p)
  let same ← compareDigest integrity expected
  ensure same .invalidCursor
  let expectedHost ← turnDeltaHostDigest R hostId
  let sameHost ← compareDigest hostDigest expectedHost
  ensure (sameHost && !p.mismatched hostDigest schemaVersion projectionSchemaVersion limit)
    .invalidCursor
  ensure (decide (now < p.expiresAt)) .expiredCursor
  .ok p

variable {R} {m : Entries F} {host hostId hostDigest integrity token : Text} {now : ℚ}
  {limit schemaVersion projectionSchemaVersion : ℤ}

lemma hostDigest_spec (h : turnDeltaHostDigest R host = .ok hostDigest) :
    isAscii hostDigest = true ∧ hostDigest ≠ [] ∧ escapedLength hostDigest = 43 ∧
      shortIds [hostDigest] = true := by
  unfold turnDeltaHostDigest at h
  obtain ⟨-, -, hdigest⟩ := Transition.bind_eq_ok.mp h
  obtain ⟨hascii, hlength, hescaped⟩ := digest_spec hdigest
  refine ⟨hascii, List.ne_nil_of_length_eq_add_one hlength, hescaped, ?_⟩
  simp [shortIds, hlength, turnListIdChars]

/-! ### Watermarks come back -/

section

variable {p : TurnDeltaWatermarkPosition}

omit [FloatText F] in
lemma readTurnDeltaWatermark_eq_some :
    readTurnDeltaWatermark m = some (hostDigest, integrity, p) ↔
    p.numbers.all (0 ≤ ·) = true ∧
    [integrity, hostDigest, p.storeEpoch].all (· ≠ []) = true ∧
    ∀ e ∈ turnDeltaWatermarkParts hostDigest integrity p, e.1 ≠ "v" → Holds m e.1 e.2 := by
  unfold readTurnDeltaWatermark
  simp only [Option.bind_eq_bind, Option.bind_eq_some_iff, nonEmptyTextAt_eq_some,
    numberAt_eq_some]
  constructor
  · rintro ⟨h, ⟨hh, hhh⟩, q, ⟨hq, hhq⟩, z, ⟨hz, hhz⟩, x, ⟨hx, hhx⟩, r, ⟨hr, hhr⟩, s, ⟨hs, hhs⟩,
      hlast⟩
    obtain ⟨rfl, rfl, rfl⟩ : z = hostDigest ∧ h = integrity ∧ _ = p := by simpa using hlast
    refine ⟨?_, ?_, ?_⟩
    · simp [TurnDeltaWatermarkPosition.numbers, *]
    · simp [*]
    · simp [turnDeltaWatermarkParts, *]
  · rintro ⟨hnumbers, hids, hparts⟩
    simp only [turnDeltaWatermarkParts, List.forall_mem_cons] at hparts
    simp only [TurnDeltaWatermarkPosition.numbers, List.all_cons, List.all_nil, Bool.and_true,
      Bool.and_eq_true, decide_eq_true_eq] at hnumbers hids
    obtain ⟨hx, hr, hs⟩ := hnumbers
    obtain ⟨hh, hz, hq⟩ := hids
    obtain ⟨hhh, hhr, hhq, hhs, -, hhx, hhz, -⟩ := hparts
    exact ⟨integrity, ⟨hh, hhh (by decide)⟩, p.storeEpoch, ⟨hq, hhq (by decide)⟩, hostDigest,
      ⟨hz, hhz (by decide)⟩, p.schemaVersion, ⟨hx, hhx (by decide)⟩, p.projectionSchemaVersion,
      ⟨hr, hhr (by decide)⟩, p.sequence, ⟨hs, hhs (by decide)⟩, rfl⟩

lemma decodeTurnDeltaWatermark_eq_ok :
    decodeTurnDeltaWatermark R token hostId schemaVersion projectionSchemaVersion = .ok p ↔
      ∃ (m : Entries F) (hostDigest integrity : Text),
        tokenBody "twdelta1." turnListTokenChars token = some m ∧
        hasKeys m turnDeltaWatermarkKeys = true ∧
        equalsNumber 1 (Entries.get? m (ofString "v")) = true ∧
        readTurnDeltaWatermark m = some (hostDigest, integrity, p) ∧
        shortIds [p.storeEpoch, hostDigest] = true ∧
        domainDigest R turnDeltaWatermarkIntegrity (turnDeltaWatermarkMaterial hostDigest p) =
          .ok integrity ∧
        turnDeltaHostDigest R hostId = .ok hostDigest ∧
        p.schemaVersion = schemaVersion ∧ p.projectionSchemaVersion = projectionSchemaVersion := by
  unfold decodeTurnDeltaWatermark decodeToken
  simp only [Transition.bind_eq_ok, required_eq_ok, ensure_eq_ok, Prod.exists, exists_const,
    Except.ok.injEq, Bool.and_eq_true, beq_iff_eq]
  constructor
  · rintro ⟨m, hbody, hkeys, hversion, z, integrity, q, hread, hids, expected, hdigest, same, hsame,
      rfl, expectedHost, hhost, sameHost, hsameHost, rfl, hschema, rfl⟩
    obtain rfl := (compareDigest_eq_true (digest_spec hdigest).1).mp hsame
    obtain rfl := (compareDigest_eq_true (hostDigest_spec hhost).1).mp hsameHost
    exact ⟨m, z, integrity, hbody, hkeys, hversion, hread, hids, hdigest, hhost, hschema⟩
  · rintro ⟨m, z, integrity, hbody, hkeys, hversion, hread, hids, hdigest, hhost, hschema⟩
    exact ⟨m, hbody, hkeys, hversion, z, integrity, p, hread, hids, integrity, hdigest, true,
      (compareDigest_eq_true (digest_spec hdigest).1).mpr rfl, rfl, z, hhost, true,
      (compareDigest_eq_true (hostDigest_spec hhost).1).mpr rfl, rfl, hschema, rfl⟩

lemma turnDeltaWatermark_eq_ok : turnDeltaWatermark R host p = .ok token ↔
    p.numbers.all (0 ≤ ·) = true ∧
      (p.schemaVersion = turnDeltaSchemaVersion ∧
        p.projectionSchemaVersion = turnDeltaProjectionSchemaVersion ∧ p.storeEpoch ≠ [] ∧
        shortIds [p.storeEpoch] = true) ∧
      ∃ hostDigest, turnDeltaHostDigest R host = .ok hostDigest ∧
        ∃ integrity, domainDigest R turnDeltaWatermarkIntegrity
          (turnDeltaWatermarkMaterial hostDigest p) = .ok integrity ∧
        tokenOf R "twdelta1." (turnDeltaWatermarkParts hostDigest integrity p) = .ok token := by
  unfold turnDeltaWatermark
  simp only [Transition.bind_eq_ok, ensure_eq_ok, exists_const, Bool.and_eq_true, beq_iff_eq,
    bne_iff_ne, and_assoc]

/-- The bytes of the text in a watermark. -/
def turnDeltaWatermarkSize (p : TurnDeltaWatermarkPosition) : ℕ :=
  129 + (p.numbers.map digitCount).sum + escapedLength p.storeEpoch

lemma bodyLength_turnDeltaWatermarkParts (hhost : escapedLength hostDigest = 43)
    (h : escapedLength integrity = 43) :
    bodyLength (turnDeltaWatermarkParts hostDigest integrity p) = turnDeltaWatermarkSize p := by
  have hone : digitCount 1 = 1 := by decide
  simp only [bodyLength, turnDeltaWatermarkParts, turnDeltaWatermarkSize,
    TurnDeltaWatermarkPosition.numbers, List.map_cons, List.map_nil, List.sum_cons, List.sum_nil, h,
    hhost, Part.length, hone]
  omega

lemma lettered_turnDeltaWatermarkParts (hostDigest integrity : Text)
    (p : TurnDeltaWatermarkPosition) :
    Lettered ((turnDeltaWatermarkParts hostDigest integrity p).map Prod.fst) := by
  have hkeys : Lettered turnDeltaWatermarkKeys := by decide
  exact hkeys

/-- A watermark comes back exactly while it is short enough. -/
theorem decode_turnDeltaWatermark (h : turnDeltaWatermark R host p = .ok token) :
    decodeTurnDeltaWatermark R token host p.schemaVersion p.projectionSchemaVersion = .ok p ↔
      turnDeltaWatermarkSize p ≤ 1536 := by
  obtain ⟨hnumbers, ⟨-, -, hepoch, hshort⟩, hostDigest, hhost, integrity, hdigest, htoken⟩ :=
    turnDeltaWatermark_eq_ok.mp h
  obtain ⟨-, hhostNe, hhostLength, hhostShort⟩ := hostDigest_spec hhost
  obtain ⟨-, hlength, hescaped⟩ := digest_spec hdigest
  have hne : integrity ≠ [] := List.ne_nil_of_length_eq_add_one hlength
  have hkeys := lettered_turnDeltaWatermarkParts hostDigest integrity p
  obtain ⟨m, hmembers, hholds, hbody⟩ :=
    tokenBody_tokenOf turnListTokenChars hkeys (List.cons_ne_nil _ _) htoken
  rw [bodyLength_turnDeltaWatermarkParts hhostLength hescaped] at hbody
  simp only [list_fits] at hbody
  rw [decodeTurnDeltaWatermark_eq_ok]
  constructor
  · rintro ⟨n, _, _, hn, -⟩
    by_contra hlong
    rw [hbody, if_neg hlong] at hn
    cases hn
  · intro hsize
    rw [if_pos hsize] at hbody
    have hids : shortIds [p.storeEpoch, hostDigest] = true := by
      simp only [shortIds, List.all_cons, List.all_nil, Bool.and_true, Bool.and_eq_true]
        at hshort hhostShort ⊢
      exact ⟨hshort, hhostShort⟩
    refine ⟨m, hostDigest, integrity, hbody, hmembers, ?_, ?_, hids, hdigest, hhost, rfl, rfl⟩
    · exact equalsNumber_of_holds (hholds ("v", .number 1) (by simp [turnDeltaWatermarkParts]))
    · exact readTurnDeltaWatermark_eq_some.mpr
        ⟨hnumbers, by simp [hne, hhostNe, hepoch], fun e he _ => hholds e he⟩

/-- A watermark that is taken is the one that is made for its position exactly if it is written
that way and asked for under the schemas of this version. -/
theorem turnDeltaWatermark_decoded
    (h : decodeTurnDeltaWatermark R token host schemaVersion projectionSchemaVersion = .ok p) :
    turnDeltaWatermark R host p = .ok token ↔ Canonical F "twdelta1." 1 token ∧
      schemaVersion = turnDeltaSchemaVersion ∧
        projectionSchemaVersion = turnDeltaProjectionSchemaVersion := by
  obtain ⟨m, hostDigest, integrity, hbody, hmembers, -, hread, hids, hdigest, hhost, rfl, rfl⟩ :=
    decodeTurnDeltaWatermark_eq_ok.mp h
  obtain ⟨hnumbers, hnonEmpty, hholds⟩ := readTurnDeltaWatermark_eq_some.mp hread
  have hcanonical := tokenOf_iff_canonical (R := R) 1 (k := ⟨1, by decide⟩)
    (lettered_turnDeltaWatermarkParts hostDigest integrity p)
    (by simp [turnDeltaWatermarkParts]) rfl hbody hmembers hholds
  rw [turnDeltaWatermark_eq_ok, ← hcanonical]
  constructor
  · rintro ⟨-, ⟨hschema, hprojection, -⟩, hostDigest', hhost', integrity', hdigest', htoken⟩
    obtain rfl := Except.ok.inj (hhost.symm.trans hhost')
    obtain rfl := Except.ok.inj (hdigest.symm.trans hdigest')
    exact ⟨htoken, hschema, hprojection⟩
  · rintro ⟨htoken, hschema, hprojection⟩
    have hepoch : p.storeEpoch ≠ [] := by simpa using (List.all_eq_true.mp hnonEmpty) p.storeEpoch
    have hshort : shortIds [p.storeEpoch] = true := by
      simp only [shortIds, List.all_cons, List.all_nil, Bool.and_true, Bool.and_eq_true] at hids ⊢
      exact hids.1
    exact ⟨hnumbers, ⟨hschema, hprojection, hepoch, hshort⟩, hostDigest, hhost, integrity, hdigest,
      htoken⟩

end

/-! ### Cursors come back -/

section

variable {p : TurnDeltaCursorPosition}

omit [FloatText F] in
lemma readTurnDeltaCursor_eq_some :
    readTurnDeltaCursor m = some (hostDigest, integrity, p) ↔
    p.numbers.all (0 ≤ ·) = true ∧
    [integrity, hostDigest, p.storeEpoch, p.positionTurnId].all (· ≠ []) = true ∧
    ∀ e ∈ turnDeltaCursorParts hostDigest integrity p, e.1 ≠ "v" → Holds m e.1 e.2 := by
  unfold readTurnDeltaCursor
  constructor
  · intro hread
    obtain ⟨⟨worker, sequence, turn⟩, hplace, hread⟩ := Option.bind_eq_some_iff.mp hread
    obtain ⟨mode, hmode, hread⟩ := Option.bind_eq_some_iff.mp hread
    obtain ⟨h, hh, hread⟩ := Option.bind_eq_some_iff.mp hread
    obtain ⟨q, hq, hread⟩ := Option.bind_eq_some_iff.mp hread
    obtain ⟨z, hz, hread⟩ := Option.bind_eq_some_iff.mp hread
    obtain ⟨a, ha, hread⟩ := Option.bind_eq_some_iff.mp hread
    obtain ⟨b, hb, hread⟩ := Option.bind_eq_some_iff.mp hread
    obtain ⟨e, he, hread⟩ := Option.bind_eq_some_iff.mp hread
    obtain ⟨i, hi, hread⟩ := Option.bind_eq_some_iff.mp hread
    obtain ⟨l, hl, hread⟩ := Option.bind_eq_some_iff.mp hread
    obtain ⟨n, hn, hread⟩ := Option.bind_eq_some_iff.mp hread
    obtain ⟨r, hr, hread⟩ := Option.bind_eq_some_iff.mp hread
    obtain ⟨x, hx, hread⟩ := Option.bind_eq_some_iff.mp hread
    obtain ⟨rfl, rfl, rfl⟩ : z = hostDigest ∧ h = integrity ∧ _ = p := by simpa using hread
    obtain ⟨t, ht, htext⟩ := Option.bind_eq_some_iff.mp hmode
    obtain rfl := modeOf_eq_some.mp htext
    rw [placeAt_eq_some] at hplace
    rw [textAt_eq_some] at ht
    rw [nonEmptyTextAt_eq_some] at hh hq hz
    rw [numberAt_eq_some] at ha hb he hi hl hn hr hx
    refine ⟨?_, ?_, ?_⟩
    · simp [TurnDeltaCursorPosition.numbers, *]
    · simp [*]
    · simp [turnDeltaCursorParts, *]
  · rintro ⟨hnumbers, hids, hparts⟩
    simp only [turnDeltaCursorParts, List.forall_mem_cons] at hparts
    simp only [TurnDeltaCursorPosition.numbers, List.all_cons, List.all_nil, Bool.and_true,
      Bool.and_eq_true, decide_eq_true_eq] at hnumbers hids
    obtain ⟨hx, hr, hl, ha, hb, hi, hn, hsequence, he⟩ := hnumbers
    obtain ⟨hh, hz, hq, hturn⟩ := hids
    obtain ⟨hha, hhb, hhe, hhh, hhi, hhl, hhm, hhn, hhp, hhq, hhr, -, hhx, hhz, -⟩ := hparts
    rw [placeAt_eq_some.mpr ⟨hsequence, hturn, hhp (by decide)⟩,
      textAt_eq_some.mpr (hhm (by decide)), nonEmptyTextAt_eq_some.mpr ⟨hh, hhh (by decide)⟩,
      nonEmptyTextAt_eq_some.mpr ⟨hq, hhq (by decide)⟩,
      nonEmptyTextAt_eq_some.mpr ⟨hz, hhz (by decide)⟩, numberAt_eq_some.mpr ⟨ha, hha (by decide)⟩,
      numberAt_eq_some.mpr ⟨hb, hhb (by decide)⟩, numberAt_eq_some.mpr ⟨he, hhe (by decide)⟩,
      numberAt_eq_some.mpr ⟨hi, hhi (by decide)⟩, numberAt_eq_some.mpr ⟨hl, hhl (by decide)⟩,
      numberAt_eq_some.mpr ⟨hn, hhn (by decide)⟩, numberAt_eq_some.mpr ⟨hr, hhr (by decide)⟩,
      numberAt_eq_some.mpr ⟨hx, hhx (by decide)⟩, Option.bind_some, modeOf_eq_some.mpr rfl]
    rfl

omit [FloatText F] in
/-- A mode that is read has a hash. -/
lemma hashable_mode (h : readTurnDeltaCursor m = some (hostDigest, integrity, p)) :
    hashable (Entries.get? m (ofString "m")) = true := by
  obtain ⟨-, -, hparts⟩ := readTurnDeltaCursor_eq_some.mp h
  obtain ⟨v, hv, hget⟩ :=
    hparts ("m", .text (modeText p.mode)) (by simp [turnDeltaCursorParts]) (by change "m" ≠ "v"; decide)
  obtain rfl := Option.some.inj hv
  rw [hget]
  rfl

lemma decodeTurnDeltaCursor_eq_ok :
    decodeTurnDeltaCursor R token hostId limit schemaVersion projectionSchemaVersion now = .ok p ↔
      ∃ (m : Entries F) (hostDigest integrity : Text),
        tokenBody "twdeltac1." turnListTokenChars token = some m ∧
        hasKeys m turnDeltaCursorKeys = true ∧
        equalsNumber 1 (Entries.get? m (ofString "v")) = true ∧
        readTurnDeltaCursor m = some (hostDigest, integrity, p) ∧
        domainDigest R turnDeltaCursorIntegrity (turnDeltaCursorMaterial hostDigest p) =
          .ok integrity ∧
        turnDeltaHostDigest R hostId = .ok hostDigest ∧
        p.mismatched hostDigest schemaVersion projectionSchemaVersion limit = false ∧
        now < p.expiresAt := by
  unfold decodeTurnDeltaCursor decodeToken
  simp only [Transition.bind_eq_ok, required_eq_ok, ensure_eq_ok, Prod.exists, exists_const,
    Except.ok.injEq, Bool.and_eq_true, Bool.not_eq_true', decide_eq_true_eq]
  constructor
  · rintro ⟨m, hbody, hkeys, hversion, -, z, integrity, q, hread, expected, hdigest, same, hsame,
      rfl, expectedHost, hhost, sameHost, hsameHost, ⟨rfl, hmatch⟩, hlive, rfl⟩
    obtain rfl := (compareDigest_eq_true (digest_spec hdigest).1).mp hsame
    obtain rfl := (compareDigest_eq_true (hostDigest_spec hhost).1).mp hsameHost
    exact ⟨m, z, integrity, hbody, hkeys, hversion, hread, hdigest, hhost, hmatch, hlive⟩
  · rintro ⟨m, z, integrity, hbody, hkeys, hversion, hread, hdigest, hhost, hmatch, hlive⟩
    have hmode : (!namesPlace m || hashable (Entries.get? m (ofString "m"))) = true := by
      rw [hashable_mode hread, Bool.or_true]
    exact ⟨m, hbody, hkeys, hversion, hmode, z, integrity, p, hread, integrity, hdigest, true,
      (compareDigest_eq_true (digest_spec hdigest).1).mpr rfl, rfl, z, hhost, true,
      (compareDigest_eq_true (hostDigest_spec hhost).1).mpr rfl, ⟨rfl, hmatch⟩, hlive, rfl⟩

lemma turnDeltaCursor_eq_ok : turnDeltaCursor R host p = .ok token ↔
    p.numbers.all (0 ≤ ·) = true ∧ p.malformed = false ∧
      ∃ hostDigest, turnDeltaHostDigest R host = .ok hostDigest ∧
        ∃ integrity, domainDigest R turnDeltaCursorIntegrity
          (turnDeltaCursorMaterial hostDigest p) = .ok integrity ∧
        tokenOf R "twdeltac1." (turnDeltaCursorParts hostDigest integrity p) = .ok token := by
  unfold turnDeltaCursor
  simp only [Transition.bind_eq_ok, ensure_eq_ok, exists_const, Bool.not_eq_true']

/-- What is encoded is what is taken under the schemas of this version. -/
lemma malformed_iff (hhost : turnDeltaHostDigest R host = .ok hostDigest) :
    p.malformed = false ↔ (p.mismatched hostDigest p.schemaVersion p.projectionSchemaVersion
      p.limit = false ∧ p.positionTurnId ≠ []) ∧ p.schemaVersion = turnDeltaSchemaVersion ∧
        p.projectionSchemaVersion = turnDeltaProjectionSchemaVersion := by
  obtain ⟨-, -, -, hshort⟩ := hostDigest_spec hhost
  unfold TurnDeltaCursorPosition.malformed TurnDeltaCursorPosition.mismatched
  simp only [shortIds, List.all_cons, List.all_nil, Bool.and_true] at hshort ⊢
  simp only [hshort, Bool.and_true, Bool.or_eq_false_iff, bne_self_eq_false, Bool.not_eq_false',
    decide_eq_false_iff_not, decide_eq_true_eq, beq_eq_false_iff_ne, Bool.and_eq_false_iff,
    bne_eq_false_iff_eq]
  tauto

/-- The bytes of the text in a cursor. -/
def turnDeltaCursorSize (p : TurnDeltaCursorPosition) : ℕ :=
  174 + (modeText p.mode).length + (p.numbers.map digitCount).sum +
    escapedLength p.positionWorkerId + escapedLength p.positionTurnId + escapedLength p.storeEpoch

lemma bodyLength_turnDeltaCursorParts (hhost : escapedLength hostDigest = 43)
    (h : escapedLength integrity = 43) :
    bodyLength (turnDeltaCursorParts hostDigest integrity p) = turnDeltaCursorSize p := by
  have hone : digitCount 1 = 1 := by decide
  have hmode : escapedLength (modeText p.mode) = (modeText p.mode).length := by
    cases p.mode <;> decide
  simp only [bodyLength, turnDeltaCursorParts, turnDeltaCursorSize,
    TurnDeltaCursorPosition.numbers, List.map_cons, List.map_nil, List.sum_cons, List.sum_nil, h,
    hhost, hmode, Part.length, hone]
  ring

lemma lettered_turnDeltaCursorParts (hostDigest integrity : Text)
    (p : TurnDeltaCursorPosition) :
    Lettered ((turnDeltaCursorParts hostDigest integrity p).map Prod.fst) := by
  have hkeys : Lettered turnDeltaCursorKeys := by decide
  exact hkeys

/-- A cursor comes back exactly while it is short enough and has not expired. -/
theorem decode_turnDeltaCursor (h : turnDeltaCursor R host p = .ok token) :
    decodeTurnDeltaCursor R token host p.limit p.schemaVersion p.projectionSchemaVersion now =
      .ok p ↔ turnDeltaCursorSize p ≤ 1536 ∧ now < p.expiresAt := by
  obtain ⟨hnumbers, hformed, hostDigest, hhost, integrity, hdigest, htoken⟩ :=
    turnDeltaCursor_eq_ok.mp h
  obtain ⟨-, hhostNe, hhostLength, -⟩ := hostDigest_spec hhost
  obtain ⟨-, hlength, hescaped⟩ := digest_spec hdigest
  have hne : integrity ≠ [] := List.ne_nil_of_length_eq_add_one hlength
  have hkeys := lettered_turnDeltaCursorParts hostDigest integrity p
  obtain ⟨m, hmembers, hholds, hbody⟩ :=
    tokenBody_tokenOf turnListTokenChars hkeys (List.cons_ne_nil _ _) htoken
  rw [bodyLength_turnDeltaCursorParts hhostLength hescaped] at hbody
  simp only [list_fits] at hbody
  rw [decodeTurnDeltaCursor_eq_ok]
  constructor
  · rintro ⟨n, _, _, hn, -, -, -, -, -, -, hlive⟩
    refine ⟨?_, hlive⟩
    by_contra hlong
    rw [hbody, if_neg hlong] at hn
    cases hn
  · rintro ⟨hsize, hlive⟩
    rw [if_pos hsize] at hbody
    obtain ⟨⟨hmatch, hturn⟩, -⟩ := (malformed_iff hhost).mp hformed
    have hepoch : p.storeEpoch ≠ [] := by
      simp only [TurnDeltaCursorPosition.malformed, Bool.or_eq_false_iff,
        beq_eq_false_iff_ne] at hformed
      tauto
    refine ⟨m, hostDigest, integrity, hbody, hmembers, ?_, ?_, hdigest, hhost, hmatch, hlive⟩
    · exact equalsNumber_of_holds (hholds ("v", .number 1) (by simp [turnDeltaCursorParts]))
    · exact readTurnDeltaCursor_eq_some.mpr
        ⟨hnumbers, by simp [hne, hhostNe, hepoch, hturn], fun e he _ => hholds e he⟩

/-- A cursor that is taken is the one that is made for its position exactly if it is written that
way and asked for under the schemas of this version. -/
theorem turnDeltaCursor_decoded (h : decodeTurnDeltaCursor R token host limit schemaVersion
      projectionSchemaVersion now = .ok p) :
    turnDeltaCursor R host p = .ok token ↔ Canonical F "twdeltac1." 1 token ∧
      schemaVersion = turnDeltaSchemaVersion ∧
        projectionSchemaVersion = turnDeltaProjectionSchemaVersion := by
  obtain ⟨m, hostDigest, integrity, hbody, hmembers, -, hread, hdigest, hhost, hmatch, -⟩ :=
    decodeTurnDeltaCursor_eq_ok.mp h
  obtain ⟨hnumbers, hnonEmpty, hholds⟩ := readTurnDeltaCursor_eq_some.mp hread
  obtain ⟨rfl, rfl, rfl⟩ : p.schemaVersion = schemaVersion ∧
      p.projectionSchemaVersion = projectionSchemaVersion ∧ p.limit = limit := by
    simp only [TurnDeltaCursorPosition.mismatched, Bool.or_eq_false_iff,
      bne_eq_false_iff_eq] at hmatch
    tauto
  have hturn : p.positionTurnId ≠ [] := by
    simpa using (List.all_eq_true.mp hnonEmpty) p.positionTurnId
  have hcanonical := tokenOf_iff_canonical (R := R) 1 (k := ⟨1, by decide⟩)
    (lettered_turnDeltaCursorParts hostDigest integrity p)
    (by simp [turnDeltaCursorParts]) rfl hbody hmembers hholds
  rw [turnDeltaCursor_eq_ok, ← hcanonical]
  constructor
  · rintro ⟨-, hformed, hostDigest', hhost', integrity', hdigest', htoken⟩
    obtain rfl := Except.ok.inj (hhost.symm.trans hhost')
    obtain rfl := Except.ok.inj (hdigest.symm.trans hdigest')
    exact ⟨htoken, ((malformed_iff hhost).mp hformed).2⟩
  · rintro ⟨htoken, hschemas⟩
    have hformed := (malformed_iff hhost).mpr ⟨⟨hmatch, hturn⟩, hschemas⟩
    exact ⟨hnumbers, hformed, hostDigest, hhost, integrity, hdigest, htoken⟩

end

end

end Tendwire.Tokens

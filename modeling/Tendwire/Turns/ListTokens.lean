import Tendwire.Turns.Tokens

/-!
# Tokens of turn.list

The cursor of a page and the watermark of a poll, how they are made and taken.
-/

namespace Tendwire.Tokens

open Strings Python Public

/-- Where a traversal goes on. -/
structure TurnListCursorPosition where
  schemaVersion : ℤ
  limit : ℤ
  sinceSequence : ℤ
  watermark : ℤ
  floorSequence : ℤ
  traversalGeneration : ℤ
  workerId : Text
  listSequence : ℤ
  turnId : Text
  storeEpoch : Text
  expiresAt : ℤ
  deriving DecidableEq

/-- What a poll has seen. -/
structure TurnSincePosition where
  schemaVersion : ℤ
  watermark : ℤ
  storeEpoch : Text
  deriving DecidableEq

/-- `schema in {1, TURN_LIST_SCHEMA_VERSION}`. -/
def listSchema (schemaVersion : ℤ) : Bool :=
  schemaVersion == 1 || schemaVersion == turnListSchemaVersion

/-- `max(map(len, ids)) <= 512`. -/
def shortIds (ids : List Text) : Bool := ids.all fun id => id.length ≤ turnListIdChars

section

variable {F : Type} [FloatText F] (R : Runtime F)

/-! ### Cursors -/

def turnListMaterial (host : Text) (p : TurnListCursorPosition) : Parts :=
  [("expires_at", .number p.expiresAt), ("floor_sequence", .number p.floorSequence),
    ("traversal_generation", .number p.traversalGeneration), ("host_id", .text host),
    ("limit", .number p.limit), ("list_sequence", .number p.listSequence),
    ("schema_version", .number p.schemaVersion), ("since_sequence", .number p.sinceSequence),
    ("store_epoch", .text p.storeEpoch), ("turn_id", .text p.turnId),
    ("watermark", .number p.watermark), ("worker_id", .text p.workerId)]

def turnListParts (host integrity : Text) (p : TurnListCursorPosition) : Parts :=
  [("e", .number p.expiresAt), ("f", .number p.floorSequence),
    ("g", .number p.traversalGeneration), ("h", .text integrity), ("l", .number p.limit),
    ("p", .place p.workerId p.listSequence p.turnId), ("q", .text p.storeEpoch),
    ("s", .number p.sinceSequence), ("v", .number 1), ("w", .number p.watermark),
    ("x", .number p.schemaVersion), ("z", .text host)]

def turnListKeys : List String := ["e", "f", "g", "h", "l", "p", "q", "s", "v", "w", "x", "z"]

def turnListIntegrity : String := "tendwire.turn-list-cursor-integrity.v1"

namespace TurnListCursorPosition

def numbers (p : TurnListCursorPosition) : List ℤ :=
  [p.schemaVersion, p.limit, p.sinceSequence, p.watermark, p.floorSequence,
    p.traversalGeneration, p.listSequence, p.expiresAt]

/-- What the encoder refuses. -/
def malformed (p : TurnListCursorPosition) : Bool :=
  !listSchema p.schemaVersion || !decide (1 ≤ p.limit ∧ p.limit ≤ turnListMaxLimit) ||
    decide (p.watermark < p.sinceSequence) || decide (p.listSequence ≤ p.sinceSequence) ||
    decide (p.watermark < p.listSequence) ||
    (p.watermark != 0 && !decide (1 ≤ p.floorSequence ∧ p.floorSequence ≤ p.watermark)) ||
    decide (p.traversalGeneration < 1) || p.watermark == 0 || p.expiresAt == 0

/-- What the decoder refuses for a request. -/
def mismatched (p : TurnListCursorPosition) (host hostId : Text) (schemaVersion limit : ℤ) : Bool :=
  host != hostId || p.schemaVersion != schemaVersion || p.limit != limit ||
    !listSchema p.schemaVersion || !decide (1 ≤ p.limit ∧ p.limit ≤ turnListMaxLimit) ||
    decide (p.watermark < p.sinceSequence) || p.watermark == 0 ||
    decide (p.listSequence ≤ p.sinceSequence) || decide (p.watermark < p.listSequence) ||
    !decide (1 ≤ p.floorSequence ∧ p.floorSequence ≤ p.watermark) ||
    decide (p.traversalGeneration < 1) ||
    !shortIds [host, p.workerId, p.turnId, p.storeEpoch]

end TurnListCursorPosition

/-- `turn_list_cursor`. -/
def turnListCursor (host : Text) (p : TurnListCursorPosition) : Except TokenError Text := do
  ensure ([host, p.workerId, p.turnId, p.storeEpoch].all (· ≠ []) &&
    shortIds [host, p.workerId, p.turnId, p.storeEpoch]) .invalidCursor
  ensure (p.numbers.all (0 ≤ ·)) .invalidCursor
  ensure (!p.malformed) .invalidCursor
  let integrity ← domainDigest R turnListIntegrity (turnListMaterial host p)
  tokenOf R "twlist1." (turnListParts host integrity p)

/-- The host, the digest and the position that a cursor names. -/
def readTurnListPosition (m : Entries F) : Option (Text × Text × TurnListCursorPosition) := do
  let (workerId, listSequence, turnId) ← placeAt m "p"
  let integrity ← textAt m "h"
  let storeEpoch ← nonEmptyTextAt m "q"
  let host ← nonEmptyTextAt m "z"
  let expiresAt ← numberAt m "e"
  let floorSequence ← numberAt m "f"
  let traversalGeneration ← numberAt m "g"
  let limit ← numberAt m "l"
  let sinceSequence ← numberAt m "s"
  let watermark ← numberAt m "w"
  let schemaVersion ← numberAt m "x"
  if workerId = [] then none
  else some (host, integrity, ⟨schemaVersion, limit, sinceSequence, watermark, floorSequence,
    traversalGeneration, workerId, listSequence, turnId, storeEpoch, expiresAt⟩)

/-- `decode_turn_list_cursor`. -/
def decodeTurnListCursor (cursor hostId : Text) (schemaVersion limit : ℤ) (now : ℚ) :
    Except TokenError TurnListCursorPosition := do
  let body ← decodeToken (F := F) "twlist1." turnListTokenChars .invalidCursor cursor
  ensure (hasKeys body turnListKeys) .invalidCursor
  ensure (equalsNumber 1 (Entries.get? body (ofString "v"))) .invalidCursor
  let (host, integrity, p) ← required .invalidCursor (readTurnListPosition body)
  ensure (!p.mismatched host hostId schemaVersion limit) .invalidCursor
  let expected ← domainDigest R turnListIntegrity (turnListMaterial host p)
  let same ← compareDigest integrity expected
  ensure same .invalidCursor
  ensure (decide (now < p.expiresAt)) .cursorExpired
  .ok p

variable {R} {m : Entries F} {host hostId integrity cursor token : Text} {now : ℚ}
  {p : TurnListCursorPosition} {schemaVersion limit : ℤ}

omit [FloatText F] in
lemma readTurnListPosition_eq_some : readTurnListPosition m = some (host, integrity, p) ↔
    p.numbers.all (0 ≤ ·) = true ∧
    [host, p.workerId, p.turnId, p.storeEpoch].all (· ≠ []) = true ∧
    ∀ e ∈ turnListParts host integrity p, e.1 ≠ "v" → Holds m e.1 e.2 := by
  unfold readTurnListPosition
  constructor
  · intro hread
    obtain ⟨⟨workerId, listSequence, turnId⟩, hplace, hread⟩ := Option.bind_eq_some_iff.mp hread
    obtain ⟨h, hh, hread⟩ := Option.bind_eq_some_iff.mp hread
    obtain ⟨q, hq, hread⟩ := Option.bind_eq_some_iff.mp hread
    obtain ⟨z, hz, hread⟩ := Option.bind_eq_some_iff.mp hread
    obtain ⟨e, he, hread⟩ := Option.bind_eq_some_iff.mp hread
    obtain ⟨f, hf, hread⟩ := Option.bind_eq_some_iff.mp hread
    obtain ⟨g, hg, hread⟩ := Option.bind_eq_some_iff.mp hread
    obtain ⟨l, hl, hread⟩ := Option.bind_eq_some_iff.mp hread
    obtain ⟨s, hs, hread⟩ := Option.bind_eq_some_iff.mp hread
    obtain ⟨w, hw, hread⟩ := Option.bind_eq_some_iff.mp hread
    obtain ⟨x, hx, hread⟩ := Option.bind_eq_some_iff.mp hread
    split at hread
    · cases hread
    next hworker =>
    obtain ⟨rfl, rfl, rfl⟩ : z = host ∧ h = integrity ∧ _ = p := by simpa using hread
    rw [placeAt_eq_some] at hplace
    rw [textAt_eq_some] at hh
    rw [nonEmptyTextAt_eq_some] at hq hz
    rw [numberAt_eq_some] at he hf hg hl hs hw hx
    refine ⟨?_, ?_, ?_⟩
    · simp [TurnListCursorPosition.numbers, *]
    · simp [*]
    · simp [turnListParts, *]
  · rintro ⟨hnumbers, hids, hparts⟩
    simp only [turnListParts, List.forall_mem_cons] at hparts
    simp only [TurnListCursorPosition.numbers, List.all_cons, List.all_nil, Bool.and_true,
      Bool.and_eq_true, decide_eq_true_eq] at hnumbers hids
    obtain ⟨hx, hl, hs, hw, hf, hg, hsequence, he⟩ := hnumbers
    obtain ⟨hhost, hworker, hturn, hepoch⟩ := hids
    obtain ⟨hhe, hhf, hhg, hhh, hhl, hhp, hhq, hhs, -, hhw, hhx, hhz, -⟩ := hparts
    rw [placeAt_eq_some.mpr ⟨hsequence, hturn, hhp (by decide)⟩,
      textAt_eq_some.mpr (hhh (by decide)), nonEmptyTextAt_eq_some.mpr ⟨hepoch, hhq (by decide)⟩,
      nonEmptyTextAt_eq_some.mpr ⟨hhost, hhz (by decide)⟩,
      numberAt_eq_some.mpr ⟨he, hhe (by decide)⟩, numberAt_eq_some.mpr ⟨hf, hhf (by decide)⟩,
      numberAt_eq_some.mpr ⟨hg, hhg (by decide)⟩, numberAt_eq_some.mpr ⟨hl, hhl (by decide)⟩,
      numberAt_eq_some.mpr ⟨hs, hhs (by decide)⟩, numberAt_eq_some.mpr ⟨hw, hhw (by decide)⟩,
      numberAt_eq_some.mpr ⟨hx, hhx (by decide)⟩]
    simp only [Option.bind_eq_bind, Option.bind_some]
    rw [if_neg hworker]

lemma decodeTurnListCursor_eq_ok :
    decodeTurnListCursor R cursor hostId schemaVersion limit now = .ok p ↔
      ∃ (m : Entries F) (integrity : Text),
        tokenBody "twlist1." turnListTokenChars cursor = some m ∧ hasKeys m turnListKeys = true ∧
        equalsNumber 1 (Entries.get? m (ofString "v")) = true ∧
        readTurnListPosition m = some (hostId, integrity, p) ∧
        p.mismatched hostId hostId schemaVersion limit = false ∧
        domainDigest R turnListIntegrity (turnListMaterial hostId p) = .ok integrity ∧
        now < p.expiresAt := by
  unfold decodeTurnListCursor decodeToken
  simp only [Transition.bind_eq_ok, required_eq_ok, ensure_eq_ok, Prod.exists, exists_const,
    Bool.not_eq_true', decide_eq_true_eq, Except.ok.injEq]
  constructor
  · rintro ⟨m, hbody, hkeys, hversion, host, integrity, q, hread, hmatch, expected, hdigest, same,
      hsame, rfl, hlive, rfl⟩
    obtain rfl : host = hostId := by
      simp only [TurnListCursorPosition.mismatched, Bool.or_eq_false_iff] at hmatch
      simpa using hmatch.1.1.1.1.1.1.1.1.1.1.1
    obtain rfl := (compareDigest_eq_true (digest_spec hdigest).1).mp hsame
    exact ⟨m, integrity, hbody, hkeys, hversion, hread, hmatch, hdigest, hlive⟩
  · rintro ⟨m, integrity, hbody, hkeys, hversion, hread, hmatch, hdigest, hlive⟩
    exact ⟨m, hbody, hkeys, hversion, hostId, integrity, p, hread, hmatch, integrity, hdigest, true,
      (compareDigest_eq_true (digest_spec hdigest).1).mpr rfl, rfl, hlive, rfl⟩

lemma turnListCursor_eq_ok : turnListCursor R host p = .ok token ↔
    [host, p.workerId, p.turnId, p.storeEpoch].all (· ≠ []) = true ∧
      shortIds [host, p.workerId, p.turnId, p.storeEpoch] = true ∧
      p.numbers.all (0 ≤ ·) = true ∧ p.malformed = false ∧
      ∃ integrity, domainDigest R turnListIntegrity (turnListMaterial host p) = .ok integrity ∧
        tokenOf R "twlist1." (turnListParts host integrity p) = .ok token := by
  unfold turnListCursor
  simp only [Transition.bind_eq_ok, ensure_eq_ok, exists_const, Bool.not_eq_true', Bool.and_eq_true,
    and_assoc]

/-- What is encoded and what is taken differ in the expiry only. -/
lemma mismatched_iff : p.mismatched host host p.schemaVersion p.limit = false ∧ p.expiresAt ≠ 0 ↔
    shortIds [host, p.workerId, p.turnId, p.storeEpoch] = true ∧ p.malformed = false := by
  unfold TurnListCursorPosition.mismatched TurnListCursorPosition.malformed
  simp only [Bool.or_eq_false_iff, bne_self_eq_false, Bool.not_eq_false', decide_eq_false_iff_not,
    decide_eq_true_eq, beq_eq_false_iff_ne, Bool.and_eq_false_iff, bne_eq_false_iff_eq]
  constructor
  · rintro ⟨h, hexpiry⟩
    refine ⟨by tauto, ?_⟩
    tauto
  · rintro ⟨hids, h⟩
    tauto

/-- The bytes of the text in a cursor. -/
def turnListSize (host : Text) (p : TurnListCursorPosition) : ℕ :=
  119 + (p.numbers.map digitCount).sum + escapedLength host + escapedLength p.workerId +
    escapedLength p.turnId + escapedLength p.storeEpoch

lemma bodyLength_turnListParts (h : escapedLength integrity = 43) :
    bodyLength (turnListParts host integrity p) = turnListSize host p := by
  have hone : digitCount 1 = 1 := by decide
  simp only [bodyLength, turnListParts, turnListSize, TurnListCursorPosition.numbers, List.map_cons,
    List.map_nil, List.sum_cons, List.sum_nil, h, Part.length, hone]
  ring

lemma lettered_turnListParts (host integrity : Text) (p : TurnListCursorPosition) :
    Lettered ((turnListParts host integrity p).map Prod.fst) := by
  have hkeys : Lettered turnListKeys := by decide
  exact hkeys

/-- 2048 characters of base64 are 1536 bytes. -/
lemma list_fits {n : ℕ} : 4 * n ≤ 3 * turnListTokenChars ↔ n ≤ 1536 := by
  unfold turnListTokenChars
  omega

/-- A cursor comes back exactly while it is short enough and has not expired. -/
theorem decode_turnListCursor (h : turnListCursor R host p = .ok token) :
    decodeTurnListCursor R token host p.schemaVersion p.limit now = .ok p ↔
      turnListSize host p ≤ 1536 ∧ now < p.expiresAt := by
  obtain ⟨hids, hshort, hnumbers, hformed, integrity, hdigest, htoken⟩ := turnListCursor_eq_ok.mp h
  have hkeys := lettered_turnListParts host integrity p
  obtain ⟨m, hmembers, hholds, hbody⟩ :=
    tokenBody_tokenOf turnListTokenChars hkeys (List.cons_ne_nil _ _) htoken
  rw [bodyLength_turnListParts (digest_spec hdigest).2.2] at hbody
  simp only [list_fits] at hbody
  rw [decodeTurnListCursor_eq_ok]
  constructor
  · rintro ⟨n, -, hn, -, -, -, -, -, hlive⟩
    refine ⟨?_, hlive⟩
    by_contra hlong
    rw [hbody, if_neg hlong] at hn
    cases hn
  · rintro ⟨hsize, hlive⟩
    rw [if_pos hsize] at hbody
    refine ⟨m, integrity, hbody, hmembers, ?_, ?_, ?_, hdigest, hlive⟩
    · exact equalsNumber_of_holds (hholds ("v", .number 1) (by simp [turnListParts]))
    · exact readTurnListPosition_eq_some.mpr ⟨hnumbers, hids, fun e he _ => hholds e he⟩
    · exact (mismatched_iff.mpr ⟨hshort, hformed⟩).1

/-- A cursor that is taken is the one that is made for its position exactly if it is written that
way and has an expiry. -/
theorem turnListCursor_decoded
    (h : decodeTurnListCursor R token host schemaVersion limit now = .ok p) :
    turnListCursor R host p = .ok token ↔ Canonical F "twlist1." 1 token ∧ p.expiresAt ≠ 0 := by
  obtain ⟨m, integrity, hbody, hmembers, -, hread, hmatch, hdigest, -⟩ :=
    decodeTurnListCursor_eq_ok.mp h
  obtain ⟨hnumbers, hids, hholds⟩ := readTurnListPosition_eq_some.mp hread
  obtain ⟨rfl, rfl⟩ : p.schemaVersion = schemaVersion ∧ p.limit = limit := by
    simp only [TurnListCursorPosition.mismatched, Bool.or_eq_false_iff, bne_eq_false_iff_eq] at hmatch
    exact ⟨hmatch.1.1.1.1.1.1.1.1.1.1.2, hmatch.1.1.1.1.1.1.1.1.1.2⟩
  have hcanonical := tokenOf_iff_canonical (R := R) 1 (k := ⟨1, by decide⟩)
    (lettered_turnListParts host integrity p)
    (by simp [turnListParts]) rfl hbody hmembers hholds
  rw [turnListCursor_eq_ok, ← hcanonical]
  constructor
  · rintro ⟨-, hshort, -, hformed, integrity', hdigest', htoken⟩
    obtain rfl := Except.ok.inj (hdigest.symm.trans hdigest')
    exact ⟨htoken, (mismatched_iff.mpr ⟨hshort, hformed⟩).2⟩
  · rintro ⟨htoken, hexpiry⟩
    obtain ⟨hshort, hformed⟩ := mismatched_iff.mp ⟨hmatch, hexpiry⟩
    exact ⟨hids, hshort, hnumbers, hformed, integrity, hdigest, htoken⟩

end

section

variable {F : Type} [FloatText F] (R : Runtime F)

/-! ### Watermarks -/

def turnSinceMaterial (host : Text) (p : TurnSincePosition) : Parts :=
  [("host_id", .text host), ("schema_version", .number p.schemaVersion),
    ("store_epoch", .text p.storeEpoch), ("watermark", .number p.watermark)]

def turnSinceParts (host integrity : Text) (p : TurnSincePosition) : Parts :=
  [("h", .text integrity), ("q", .text p.storeEpoch), ("v", .number 1), ("w", .number p.watermark),
    ("x", .number p.schemaVersion), ("z", .text host)]

def turnSinceKeys : List String := ["h", "q", "v", "w", "x", "z"]

def turnSinceIntegrity : String := "tendwire.turn-list-since-integrity.v1"

/-- `turn_since_token`. -/
def turnSinceToken (host : Text) (p : TurnSincePosition) : Except TokenError Text := do
  ensure ([p.schemaVersion, p.watermark].all (0 ≤ ·)) .invalidCursor
  ensure ([host, p.storeEpoch].all (· ≠ []) && shortIds [host, p.storeEpoch] &&
    listSchema p.schemaVersion) .invalidCursor
  let integrity ← domainDigest R turnSinceIntegrity (turnSinceMaterial host p)
  tokenOf R "twsince1." (turnSinceParts host integrity p)

/-- The host, the digest and the position that a watermark names. -/
def readTurnSincePosition (m : Entries F) : Option (Text × Text × TurnSincePosition) := do
  let integrity ← textAt m "h"
  let storeEpoch ← nonEmptyTextAt m "q"
  let host ← nonEmptyTextAt m "z"
  let watermark ← numberAt m "w"
  let schemaVersion ← numberAt m "x"
  some (host, integrity, ⟨schemaVersion, watermark, storeEpoch⟩)

/-- `decode_turn_since_token`. -/
def decodeTurnSinceToken (token hostId : Text) (schemaVersion : ℤ) :
    Except TokenError TurnSincePosition := do
  let body ← decodeToken (F := F) "twsince1." turnListTokenChars .invalidCursor token
  ensure (hasKeys body turnSinceKeys) .invalidCursor
  ensure (equalsNumber 1 (Entries.get? body (ofString "v"))) .invalidCursor
  let (host, integrity, p) ← required .invalidCursor (readTurnSincePosition body)
  ensure (!(host != hostId || p.schemaVersion != schemaVersion || !listSchema p.schemaVersion ||
    !shortIds [host, p.storeEpoch])) .invalidCursor
  let expected ← domainDigest R turnSinceIntegrity (turnSinceMaterial host p)
  let same ← compareDigest integrity expected
  ensure same .invalidCursor
  .ok p

variable {R} {m : Entries F} {host hostId integrity token : Text} {p : TurnSincePosition}
  {schemaVersion : ℤ}

omit [FloatText F] in
lemma readTurnSincePosition_eq_some : readTurnSincePosition m = some (host, integrity, p) ↔
    [p.schemaVersion, p.watermark].all (0 ≤ ·) = true ∧
    [host, p.storeEpoch].all (· ≠ []) = true ∧
    ∀ e ∈ turnSinceParts host integrity p, e.1 ≠ "v" → Holds m e.1 e.2 := by
  unfold readTurnSincePosition
  simp only [Option.bind_eq_bind, Option.bind_eq_some_iff, textAt_eq_some, nonEmptyTextAt_eq_some,
    numberAt_eq_some]
  constructor
  · rintro ⟨h, hh, q, ⟨hq, hhq⟩, z, ⟨hz, hhz⟩, w, ⟨hw, hhw⟩, x, ⟨hx, hhx⟩, hlast⟩
    obtain ⟨rfl, rfl, rfl⟩ : z = host ∧ h = integrity ∧ _ = p := by simpa using hlast
    refine ⟨?_, ?_, ?_⟩
    · simp [*]
    · simp [*]
    · simp [turnSinceParts, *]
  · rintro ⟨hnumbers, hids, hparts⟩
    simp only [turnSinceParts, List.forall_mem_cons] at hparts
    simp only [List.all_cons, List.all_nil, Bool.and_true, Bool.and_eq_true, decide_eq_true_eq]
      at hnumbers hids
    obtain ⟨hhh, hhq, -, hhw, hhx, hhz, -⟩ := hparts
    exact ⟨integrity, hhh (by decide), p.storeEpoch, ⟨hids.2, hhq (by decide)⟩, host,
      ⟨hids.1, hhz (by decide)⟩, p.watermark, ⟨hnumbers.2, hhw (by decide)⟩, p.schemaVersion,
      ⟨hnumbers.1, hhx (by decide)⟩, rfl⟩

lemma decodeTurnSinceToken_eq_ok : decodeTurnSinceToken R token hostId schemaVersion = .ok p ↔
    ∃ (m : Entries F) (integrity : Text), tokenBody "twsince1." turnListTokenChars token = some m ∧
      hasKeys m turnSinceKeys = true ∧ equalsNumber 1 (Entries.get? m (ofString "v")) = true ∧
      readTurnSincePosition m = some (hostId, integrity, p) ∧
      (p.schemaVersion = schemaVersion ∧ listSchema p.schemaVersion = true ∧
        shortIds [hostId, p.storeEpoch] = true) ∧
      domainDigest R turnSinceIntegrity (turnSinceMaterial hostId p) = .ok integrity := by
  unfold decodeTurnSinceToken decodeToken
  simp only [Transition.bind_eq_ok, required_eq_ok, ensure_eq_ok, Prod.exists, exists_const,
    Bool.not_eq_true', Except.ok.injEq, Bool.or_eq_false_iff, bne_eq_false_iff_eq,
    Bool.not_eq_false']
  constructor
  · rintro ⟨m, hbody, hkeys, hversion, host, integrity, q, hread, ⟨⟨⟨rfl, hschema⟩, hlisted⟩, hids⟩,
      expected, hdigest, same, hsame, rfl, rfl⟩
    obtain rfl := (compareDigest_eq_true (digest_spec hdigest).1).mp hsame
    exact ⟨m, integrity, hbody, hkeys, hversion, hread, ⟨hschema, hlisted, hids⟩, hdigest⟩
  · rintro ⟨m, integrity, hbody, hkeys, hversion, hread, ⟨hschema, hlisted, hids⟩, hdigest⟩
    exact ⟨m, hbody, hkeys, hversion, hostId, integrity, p, hread, ⟨⟨⟨rfl, hschema⟩, hlisted⟩, hids⟩,
      integrity, hdigest, true, (compareDigest_eq_true (digest_spec hdigest).1).mpr rfl, rfl, rfl⟩

lemma turnSinceToken_eq_ok : turnSinceToken R host p = .ok token ↔
    [p.schemaVersion, p.watermark].all (0 ≤ ·) = true ∧
      ([host, p.storeEpoch].all (· ≠ []) = true ∧ shortIds [host, p.storeEpoch] = true ∧
        listSchema p.schemaVersion = true) ∧
      ∃ integrity, domainDigest R turnSinceIntegrity (turnSinceMaterial host p) = .ok integrity ∧
        tokenOf R "twsince1." (turnSinceParts host integrity p) = .ok token := by
  unfold turnSinceToken
  simp only [Transition.bind_eq_ok, ensure_eq_ok, exists_const, Bool.and_eq_true, and_assoc]

/-- The bytes of the text in a watermark. -/
def turnSinceSize (host : Text) (p : TurnSincePosition) : ℕ :=
  81 + digitCount p.schemaVersion + digitCount p.watermark + escapedLength host +
    escapedLength p.storeEpoch

lemma bodyLength_turnSinceParts (h : escapedLength integrity = 43) :
    bodyLength (turnSinceParts host integrity p) = turnSinceSize host p := by
  have hone : digitCount 1 = 1 := by decide
  simp only [bodyLength, turnSinceParts, turnSinceSize, List.map_cons, List.map_nil, List.sum_cons,
    List.sum_nil, h, Part.length, hone]
  omega

lemma lettered_turnSinceParts (host integrity : Text) (p : TurnSincePosition) :
    Lettered ((turnSinceParts host integrity p).map Prod.fst) := by
  have hkeys : Lettered turnSinceKeys := by decide
  exact hkeys

/-- A watermark comes back exactly while it is short enough. -/
theorem decode_turnSinceToken (h : turnSinceToken R host p = .ok token) :
    decodeTurnSinceToken R token host p.schemaVersion = .ok p ↔ turnSinceSize host p ≤ 1536 := by
  obtain ⟨hnumbers, ⟨hids, hshort, hschema⟩, integrity, hdigest, htoken⟩ :=
    turnSinceToken_eq_ok.mp h
  have hkeys := lettered_turnSinceParts host integrity p
  obtain ⟨m, hmembers, hholds, hbody⟩ :=
    tokenBody_tokenOf turnListTokenChars hkeys (List.cons_ne_nil _ _) htoken
  rw [bodyLength_turnSinceParts (digest_spec hdigest).2.2] at hbody
  simp only [list_fits] at hbody
  rw [decodeTurnSinceToken_eq_ok]
  constructor
  · rintro ⟨n, -, hn, -⟩
    by_contra hlong
    rw [hbody, if_neg hlong] at hn
    cases hn
  · intro hsize
    rw [if_pos hsize] at hbody
    refine ⟨m, integrity, hbody, hmembers, ?_, ?_, ⟨rfl, hschema, hshort⟩, hdigest⟩
    · exact equalsNumber_of_holds (hholds ("v", .number 1) (by simp [turnSinceParts]))
    · exact readTurnSincePosition_eq_some.mpr ⟨hnumbers, hids, fun e he _ => hholds e he⟩

/-- A watermark that is taken is the one that is made for its position exactly if it is written
that way. -/
theorem turnSinceToken_decoded (h : decodeTurnSinceToken R token host schemaVersion = .ok p) :
    turnSinceToken R host p = .ok token ↔ Canonical F "twsince1." 1 token := by
  obtain ⟨m, integrity, hbody, hmembers, -, hread, ⟨-, hschema, hshort⟩, hdigest⟩ :=
    decodeTurnSinceToken_eq_ok.mp h
  obtain ⟨hnumbers, hids, hholds⟩ := readTurnSincePosition_eq_some.mp hread
  have hcanonical := tokenOf_iff_canonical (R := R) 1 (k := ⟨1, by decide⟩)
    (lettered_turnSinceParts host integrity p)
    (by simp [turnSinceParts]) rfl hbody hmembers hholds
  rw [turnSinceToken_eq_ok, ← hcanonical]
  constructor
  · rintro ⟨-, -, integrity', hdigest', htoken⟩
    obtain rfl := Except.ok.inj (hdigest.symm.trans hdigest')
    exact htoken
  · intro htoken
    exact ⟨hnumbers, ⟨hids, hshort, hschema⟩, integrity, hdigest, htoken⟩

end

end Tendwire.Tokens

import Tendwire.Turns.ContentTokens
import Tendwire.Turns.DeltaTokens

/-!
# Encoding and decoding

Which positions come back from their tokens, and which tokens are the ones that are made for their
positions.
-/

namespace Tendwire.Tokens

open Strings Python Public

variable {F : Type} [FloatText F]

/-- A position comes back from its token exactly while the text in the token is short enough, its
expiry is ahead and, for content, it names one of the segments. -/
theorem tokens_comeBack (R : Runtime F) :
    (∀ host p token now, turnListCursor R host p = .ok token →
      (decodeTurnListCursor R token host p.schemaVersion p.limit now = .ok p ↔
        turnListSize host p ≤ 1536 ∧ now < p.expiresAt)) ∧
    (∀ host p token, turnSinceToken R host p = .ok token →
      (decodeTurnSinceToken R token host p.schemaVersion = .ok p ↔ turnSinceSize host p ≤ 1536)) ∧
    (∀ host p token, turnDeltaWatermark R host p = .ok token →
      (decodeTurnDeltaWatermark R token host p.schemaVersion p.projectionSchemaVersion = .ok p ↔
        turnDeltaWatermarkSize p ≤ 1536)) ∧
    (∀ host p token now, turnDeltaCursor R host p = .ok token →
      (decodeTurnDeltaCursor R token host p.limit p.schemaVersion p.projectionSchemaVersion now =
        .ok p ↔ turnDeltaCursorSize p ≤ 1536 ∧ now < p.expiresAt)) ∧
    ∀ revision field index startChar startByte p token count,
      contentCursor R revision field index startChar startByte = .ok token →
      contentPosition R revision field index startChar startByte = .ok p →
      (decodeContentCursor R token revision field count = .ok p ↔
        contentSize p ≤ 768 ∧ index < count) := by
  refine ⟨?_, ?_, ?_, ?_, ?_⟩
  · exact fun host p token now h => decode_turnListCursor h
  · exact fun host p token h => decode_turnSinceToken h
  · exact fun host p token h => decode_turnDeltaWatermark h
  · exact fun host p token now h => decode_turnDeltaCursor h
  · exact fun revision field index startChar startByte p token count h hp => decode_contentCursor h hp

/-- A token that is taken is the one that is made for its position exactly if its text is the one
that is written for its mapping, under the schemas of this version and with an expiry. -/
theorem tokens_made (R : Runtime F) :
    (∀ token host schemaVersion limit now p,
      decodeTurnListCursor R token host schemaVersion limit now = .ok p →
      (turnListCursor R host p = .ok token ↔
        Canonical F "twlist1." 1 token ∧ p.expiresAt ≠ 0)) ∧
    (∀ token host schemaVersion p, decodeTurnSinceToken R token host schemaVersion = .ok p →
      (turnSinceToken R host p = .ok token ↔ Canonical F "twsince1." 1 token)) ∧
    (∀ token host schemaVersion projectionSchemaVersion p,
      decodeTurnDeltaWatermark R token host schemaVersion projectionSchemaVersion = .ok p →
      (turnDeltaWatermark R host p = .ok token ↔ Canonical F "twdelta1." 1 token ∧
        schemaVersion = turnDeltaSchemaVersion ∧
        projectionSchemaVersion = turnDeltaProjectionSchemaVersion)) ∧
    (∀ token host limit schemaVersion projectionSchemaVersion now p,
      decodeTurnDeltaCursor R token host limit schemaVersion projectionSchemaVersion now = .ok p →
      (turnDeltaCursor R host p = .ok token ↔ Canonical F "twdeltac1." 1 token ∧
        schemaVersion = turnDeltaSchemaVersion ∧
        projectionSchemaVersion = turnDeltaProjectionSchemaVersion)) ∧
    ∀ token revision field count p, decodeContentCursor R token revision field count = .ok p →
      (contentCursor R revision field p.index (some p.startChar) (some p.startByte) = .ok token ↔
        Canonical F "twcur1." 2 token) := by
  refine ⟨?_, ?_, ?_, ?_, ?_⟩
  · exact fun token host schemaVersion limit now p h => turnListCursor_decoded h
  · exact fun token host schemaVersion p h => turnSinceToken_decoded h
  · exact fun token host schemaVersion projection p h => turnDeltaWatermark_decoded h
  · exact fun token host limit schemaVersion projection now p h => turnDeltaCursor_decoded h
  · exact fun token revision field count p h => contentCursor_decoded h

/-! ### A sample watermark -/

/-- An interpreter of ASCII with a digest of zeros. -/
def plainRuntime : Runtime Empty := ⟨asciiTables, fun _ => Vector.replicate 32 0⟩

def sampleHost : Text := ofString "host"

def sampleWatermark : TurnDeltaWatermarkPosition where
  schemaVersion := 1
  projectionSchemaVersion := 2
  sequence := 7
  storeEpoch := ofString "epoch"

lemma sampleWatermark_made :
    ∃ token, turnDeltaWatermark plainRuntime sampleHost sampleWatermark = .ok token := by
  have hnumbers : (shortInt 1).isSome = true ∧ (shortInt 2).isSome = true ∧
      (shortInt 7).isSome = true := by decide
  obtain ⟨hone, htwo, hseven⟩ := hnumbers
  have hhost : encodable sampleHost = true := encodable_map_codePoint _
  have hepoch : encodable (ofString "epoch") = true := encodable_map_codePoint _
  obtain ⟨hostDigest, hhostDigest⟩ : ∃ digest,
      turnDeltaHostDigest plainRuntime sampleHost = .ok digest := by
    obtain ⟨digest, hdigest⟩ := exists_domainDigest (R := plainRuntime)
      "tendwire.turn-delta-host.v1" [("host_id", .text sampleHost)]
      (by simp [Part.Writable, hhost])
    exact ⟨digest, Transition.bind_eq_ok.mpr ⟨(), by decide, hdigest⟩⟩
  have hdigest := encodable_of_isAscii (hostDigest_spec hhostDigest).1
  obtain ⟨integrity, hintegrity⟩ := exists_domainDigest (R := plainRuntime)
    turnDeltaWatermarkIntegrity (turnDeltaWatermarkMaterial hostDigest sampleWatermark)
    (by simp [turnDeltaWatermarkMaterial, Part.Writable, sampleWatermark, hone, htwo, hseven, hdigest,
      hepoch])
  have hsealed := encodable_of_isAscii (digest_spec hintegrity).1
  obtain ⟨token, htoken⟩ := exists_tokenOf (R := plainRuntime) "twdelta1."
    (turnDeltaWatermarkParts hostDigest integrity sampleWatermark)
    (by simp [turnDeltaWatermarkParts, Part.Writable, sampleWatermark, hone, htwo, hseven, hdigest,
      hsealed, hepoch])
  exact ⟨token, turnDeltaWatermark_eq_ok.mpr
    ⟨by decide, by decide, hostDigest, hhostDigest, integrity, hintegrity, htoken⟩⟩

theorem tokens_comeBack_sample : ∃ token,
    turnDeltaWatermark plainRuntime sampleHost sampleWatermark = .ok token ∧
      decodeTurnDeltaWatermark plainRuntime token sampleHost 1 2 = .ok sampleWatermark := by
  obtain ⟨token, htoken⟩ := sampleWatermark_made
  refine ⟨token, htoken, ?_⟩
  exact ((tokens_comeBack plainRuntime).2.2.1 _ _ _ htoken).mpr (by decide)

theorem tokens_made_sample : ∃ token,
    decodeTurnDeltaWatermark plainRuntime token sampleHost 1 2 = .ok sampleWatermark ∧
      turnDeltaWatermark plainRuntime sampleHost sampleWatermark = .ok token ∧
      Canonical Empty "twdelta1." 1 token := by
  obtain ⟨token, htoken⟩ := sampleWatermark_made
  have hdecoded := (decode_turnDeltaWatermark htoken).mpr (by decide)
  have hmade := ((tokens_made plainRuntime).2.2.1 _ _ _ _ _ hdecoded).mp htoken
  exact ⟨token, hdecoded, htoken, hmade.1⟩

end Tendwire.Tokens

import Mathlib.Data.List.Sort
import Mathlib.Data.Prod.Lex
import Mathlib.Data.String.Basic
import Tendwire.Herdr.Merging
import Tendwire.Snapshots.Projection

/-!
# The projection of workers

Records become public workers and private bindings. Stored bindings lend their worker ids, the rows
of one id are told apart by suffixes, and a send token is sendable for one worker only.
-/

namespace Tendwire

open Json

/-- Rules whose digests tell identities apart and are public themselves. -/
structure ProjectionRules extends ObservationRules where
  /-- `stable_worker_key` with the installation key, the host, the workspace and the pane. -/
  stableWorkerKey : Bytes → String → String → String → String
  identity_stable : ∀ text : String,
    toObservationRules.publicSafeIdentity "worker"
        (toObservationRules.publicSafeIdentity "worker" text) =
      toObservationRules.publicSafeIdentity "worker" text
  digest_nonempty : ∀ v, privateStableDigest v ≠ ""
  identity_digest : ∀ (hostId hostId' backend backend' : String) (m n : Fields),
    toObservationRules.workerBindingPrivateFingerprint hostId backend m =
      toObservationRules.workerBindingPrivateFingerprint hostId' backend' n →
    m.length = n.length ∧ ∀ key : String,
      (Fields.get? m key).bind Value.text? = (Fields.get? n key).bind Value.text?

def workerBindingActiveExpiresAt : String := "9999-12-31T23:59:59+00:00"

def stableKeyVersion : Nat := 1

/-! ### Worker ids of stored bindings -/

namespace ObservationRules

variable (R : ObservationRules)

end ObservationRules

/-! ### Public ids -/

namespace ObservationRules

variable (R : ObservationRules)

inductive ProjectionError where
  | assertion
  | continuityUnavailable
  | installationKey
  deriving DecidableEq, Repr

end ObservationRules

/-! ### Bindings -/

namespace ObservationRules

variable (R : ObservationRules)

/-- The constructor of a binding fills the fields that are missing. -/
def makeBinding (b : WorkerBinding) : WorkerBinding :=
  let hostId := if b.hostId = "" then "unknown" else b.hostId
  let backend := if b.backend = "" then "unknown" else b.backend
  { b with
    hostId
    workerId := if b.workerId = "" then "unknown" else b.workerId
    backend
    expiresAt := if b.expiresAt = "" then workerBindingActiveExpiresAt else b.expiresAt
    privateFingerprint :=
      if b.privateFingerprint = "" then
        R.workerBindingPrivateFingerprint hostId backend [
          ("target_kind", .text b.targetKind), ("target_value", .text b.targetValue),
          ("turn_target_kind", .ofText? b.turnTargetKind),
          ("turn_target_value", .ofText? b.turnTargetValue)]
      else
        b.privateFingerprint }

/-- What is told apart under one private fingerprint. -/
structure PrivateRowKey where
  workerId : String
  workerFingerprint : String
  targetKind : String
  targetValue : String
  turnTargetKind : Option String
  turnTargetValue : Option String
  deriving DecidableEq, Repr

def privateRowKey (b : WorkerBinding) : PrivateRowKey :=
  ⟨b.workerId, b.workerFingerprint, b.targetKind, b.targetValue, b.turnTargetKind, b.turnTargetValue⟩

def duplicateIdentityMaterial (b : WorkerBinding) : Fields := [
  ("duplicate_backend_target", .bool true),
  ("original_private_fingerprint", .text b.privateFingerprint), ("worker_id", .text b.workerId),
  ("worker_fingerprint", .text b.workerFingerprint), ("target_kind", .text b.targetKind),
  ("target_value", .text b.targetValue), ("turn_target_kind", .ofText? b.turnTargetKind),
  ("turn_target_value", .ofText? b.turnTargetValue), ("host_id", .text b.hostId),
  ("backend", .text b.backend)]

def duplicateSeparatedWorkerBinding (b : WorkerBinding) : WorkerBinding :=
  let privateFingerprint :=
    R.workerBindingPrivateFingerprint b.hostId b.backend (duplicateIdentityMaterial b)
  if b.privateFingerprint = privateFingerprint ∧ b.sendable = false ∧
      b.reason = some "duplicate_backend_target" then
    b
  else
    R.makeBinding { b with
      sendable := false
      reason := some "duplicate_backend_target"
      privateFingerprint }

def separateDuplicateWorkerBindings (bindings : List WorkerBinding) : List WorkerBinding :=
  bindings.map fun b =>
    if bindings.any fun other => other.key = b.key ∧ privateRowKey other ≠ privateRowKey b then
      R.duplicateSeparatedWorkerBinding b
    else
      b

end ObservationRules

namespace ProjectionRules

variable (R : ProjectionRules)

end ProjectionRules

end Tendwire

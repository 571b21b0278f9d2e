import Mathlib.Logic.Function.Basic
import Tendwire.Concurrency.Pool
import Tendwire.Text

/-!
# The installation key

The data directory is a map of three files. Loading a key publishes what is missing of them, and
resetting it removes all three. Every inspection, publication and removal is an operation of its
own, so that concurrent calls interleave between any two of them.
-/

namespace Tendwire

open Concurrency

/-- `installation.key`, `installation.key.sha256` and `installation.key.initialized`. -/
inductive InstallationFile where
  | key
  | marker
  | sentinel
deriving DecidableEq, Repr

/-- A file has an identity, the inode, and a content that never changes. -/
structure DataFile where
  inode : ℕ
  content : Bytes
deriving DecidableEq, Repr

abbrev DataDirectory := InstallationFile → Option DataFile

inductive FileOperation where
  | lstat (name : InstallationFile)
  | openRead (name : InstallationFile)
  /-- Publish complete content unless the entry exists. -/
  | publish (name : InstallationFile) (content : Bytes)
  | unlink (name : InstallationFile)
  | randomBytes (size : ℕ)
deriving DecidableEq, Repr

namespace FileOperation

abbrev Answer : FileOperation → Type
  | lstat _ => Option ℕ
  | openRead _ => Option DataFile
  | publish _ _ => Bool
  | unlink _ => Bool
  | randomBytes _ => Bytes

/-- What the outside contributes to an operation: the inode of a new file, and `secrets.token_bytes`. -/
structure Chance where
  inode : ℕ
  tokenBytes : (size : ℕ) → Vector UInt8 size

def exec (chance : Chance) : (op : FileOperation) → DataDirectory → op.Answer × DataDirectory
  | lstat name, d => ((d name).map DataFile.inode, d)
  | openRead name, d => (d name, d)
  | publish name content, d =>
    if (d name).isSome then (false, d)
    else (true, Function.update d name (some ⟨chance.inode, content⟩))
  | unlink name, d =>
    if (d name).isSome then (true, Function.update d name none) else (false, d)
  | randomBytes size, d => ((chance.tokenBytes size).toList, d)

end FileOperation

abbrev FileProgram (α : Type) := Program FileOperation FileOperation.Answer α

open FileOperation Program

def operate (op : FileOperation) : FileProgram op.Answer := perform op

def lstatAt (name : InstallationFile) : FileProgram (Option ℕ) := operate (.lstat name)

def verifyEntryIdentity (name : InstallationFile) (expected : ℕ) : FileProgram Unit := do
  let current ← lstatAt name
  if current = some expected then pure () else fail

/-- `_verify_identity_entry`. The inspection in the middle only repairs modes. -/
def verifyIdentityEntry (name : InstallationFile) (expected : ℕ) : FileProgram Unit := do
  verifyEntryIdentity name expected
  let _inspected ← lstatAt name
  verifyEntryIdentity name expected

def identityEntry (name : InstallationFile) : FileProgram (Option ℕ) := do
  let inspected ← lstatAt name
  match inspected with
  | none => pure none
  | some _ =>
    let current ← lstatAt name
    match current with
    | none => fail
    | some expected =>
      verifyIdentityEntry name expected
      pure (some expected)

/-- `open_private_file_at`, with what the descriptor reads. -/
def openPrivateFileAt (name : InstallationFile) : FileProgram DataFile := do
  let expected ← lstatAt name
  match expected with
  | none => fail
  | some inode =>
    let opened ← operate (.openRead name)
    match opened with
    | none => fail
    | some file => if file.inode = inode then pure file else fail

def readExactFile (name : InstallationFile) (expectedSize : ℕ) : FileProgram (Bytes × ℕ) := do
  let identity ← identityEntry name
  match identity with
  | none => fail
  | some expected =>
    let file ← openPrivateFileAt name
    if file.inode = expected then
      let content := file.content.take (expectedSize + 1)
      verifyIdentityEntry name expected
      if content.length = expectedSize then pure (content, expected) else fail
    else fail

/-- `_create_or_read_file`: whoever published the entry, its content is read. -/
def createOrReadFile (name : InstallationFile) (content : Bytes) : FileProgram (Bytes × ℕ) := do
  let _created ← operate (.publish name content)
  readExactFile name content.length

def unlinkVerifiedEntry (name : InstallationFile) (expected : ℕ) : FileProgram Unit := do
  verifyEntryIdentity name expected
  let removed ← operate (.unlink name)
  if removed then pure () else fail

/-- `INSTALLATION_KEY_BYTES`. -/
def installationKeyBytes : ℕ := 32

/-- `_INSTALLATION_KEY_SENTINEL_CONTENT`. -/
def sentinelContent : Bytes := [0x31]

/-- What a load has seen of the three files. -/
structure SeenIdentity where
  key : Option ℕ
  marker : Option ℕ
  sentinel : Option ℕ
deriving DecidableEq, Repr

/-- An entry that was not there may be inspected once more. -/
def refreshed (again : Bool) (name : InstallationFile) (seen : Option ℕ) :
    FileProgram (Option ℕ) :=
  if again then identityEntry name else pure seen

/-- Behind a sentinel, both other files must be there. -/
def inspectBehindSentinel (key marker : Option ℕ) : FileProgram SeenIdentity := do
  let (content, identity) ← readExactFile .sentinel sentinelContent.length
  if content = sentinelContent then
    let key ← refreshed key.isNone .key key
    let marker ← refreshed marker.isNone .marker marker
    if key.isNone || marker.isNone then fail else pure ⟨key, marker, some identity⟩
  else fail

/-- Without a sentinel, a marker must have its key. A concurrent creator publishes the key before
its marker, so that a missing key is looked for once more. -/
def inspectWithoutSentinel (key marker : Option ℕ) : FileProgram SeenIdentity := do
  let key ← refreshed (key.isNone && marker.isSome) .key key
  if key.isNone && marker.isSome then fail else pure ⟨key, marker, none⟩

/-- The inspection of a load, up to the decision that there is nothing to fail on. -/
def inspectIdentity : FileProgram SeenIdentity := do
  let key ← identityEntry .key
  let marker ← identityEntry .marker
  let sentinel ← identityEntry .sentinel
  if sentinel.isSome then inspectBehindSentinel key marker else inspectWithoutSentinel key marker

/-- The key, published from fresh random bytes if there was none. -/
def obtainKey (seen : Option ℕ) : FileProgram (Bytes × ℕ) := do
  if seen.isNone then
    let candidate ← operate (.randomBytes installationKeyBytes)
    if candidate.length = installationKeyBytes then createOrReadFile .key candidate else fail
  else readExactFile .key installationKeyBytes

/-- A file whose content is known, published if it was not there. -/
def obtainFile (name : InstallationFile) (seen : Option ℕ) (expected : Bytes) :
    FileProgram (Bytes × ℕ) :=
  if seen.isNone then createOrReadFile name expected else readExactFile name expected.length

/-- A sentinel that was there has been read by the inspection. -/
def obtainSentinel : Option ℕ → FileProgram (Bytes × ℕ)
  | none => createOrReadFile .sentinel sentinelContent
  | some identity => pure (sentinelContent, identity)

section Digest

-- `hashlib.sha256(key).hexdigest().encode("ascii")`
variable (digest : Bytes → Bytes)

def loadOrCreateInstallationKey : FileProgram Bytes := do
  let seen ← inspectIdentity
  let (key, keyIdentity) ← obtainKey seen.key
  let markerExpected := digest key
  let (marker, markerIdentity) ← obtainFile .marker seen.marker markerExpected
  if marker = markerExpected then
    verifyIdentityEntry .key keyIdentity
    verifyIdentityEntry .marker markerIdentity
    let (sentinel, sentinelIdentity) ← obtainSentinel seen.sentinel
    if sentinel = sentinelContent then
      verifyIdentityEntry .key keyIdentity
      verifyIdentityEntry .marker markerIdentity
      verifyIdentityEntry .sentinel sentinelIdentity
      pure key
    else fail
  else fail

def resetInstallationKey (acknowledged : Bool) : FileProgram Unit := do
  if acknowledged then
    let (key, keyIdentity) ← readExactFile .key installationKeyBytes
    let markerExpected := digest key
    let (marker, markerIdentity) ← readExactFile .marker markerExpected.length
    let (sentinel, sentinelIdentity) ← readExactFile .sentinel sentinelContent.length
    if marker = markerExpected ∧ sentinel = sentinelContent then
      verifyIdentityEntry .key keyIdentity
      verifyIdentityEntry .marker markerIdentity
      verifyIdentityEntry .sentinel sentinelIdentity
      -- the sentinel goes last: an interrupted reset never looks like a first start
      unlinkVerifiedEntry .marker markerIdentity
      unlinkVerifiedEntry .key keyIdentity
      unlinkVerifiedEntry .sentinel sentinelIdentity
    else fail
  else fail

end Digest

/-! ### Concurrent calls -/

inductive IdentityCall where
  | load
  | reset (acknowledged : Bool)
deriving DecidableEq, Repr

inductive IdentityAnswer where
  | key (key : Bytes)
  | wasReset
deriving DecidableEq, Repr

def IdentityCall.isLoad : IdentityCall → Bool
  | load => true
  | reset _ => false

/-- Loads run next to loads. A reset is offline: no load runs while it does. -/
def identityWorkshop (digest : Bytes → Bytes) :
    Workshop DataDirectory FileOperation Chance Answer IdentityCall IdentityAnswer where
  exec := FileOperation.exec
  program
    | .load => IdentityAnswer.key <$> loadOrCreateInstallationKey digest
    | .reset acknowledged =>
      (fun _ => IdentityAnswer.wasReset) <$> resetInstallationKey digest acknowledged
  admits running call := running.all fun other => other.isLoad == call.isLoad

end Tendwire

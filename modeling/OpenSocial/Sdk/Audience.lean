/-
This file models the keys of an audience: an epoch key is sealed for every member,
the sealed keys are split into key package sets, and a member opens the key from the
set that holds it.

The random values that are drawn are parameters, and a buffer has room for every set.
-/

import OpenSocial.Library.Packing
import OpenSocial.Sdk.Messages

namespace OpenSocial.Sdk.Messages.Audience

open Library Encoding Extension

/-! ### Values -/

/-- `osp.envelope.key_package_set`. -/
structure KeyPackageSet where
  version : ℤ
  suite : ℤ
  author : Bytes
  audience_id : Bytes
  epoch : ℤ
  keys : List SealedKey

structure KeyPackage where
  set : KeyPackageSet
  bytes : Bytes

structure BuildKeyPackageSetOptions extends AudienceContext where
  epochKey : Bytes
  recipients : List Recipient

def KEY_PACKAGE_VERSION : ℤ := 1

/-- `SUITE.XCHACHA20POLY1305_X25519`. -/
def SEALING_SUITE : ℤ := 1

/-! ### Schema -/

def keyPackageSetType : MessageType where
  fullName := ".osp.envelope.key_package_set"
  fields := [documentField "version" 1 (.scalar .uint32) false exact_uint32,
    documentField "suite" 2 (.enumeration suiteType) false exact_suite,
    documentField "author" 3 (.scalar .bytes) false exact_bytes,
    documentField "audience_id" 4 (.scalar .bytes) false exact_bytes,
    documentField "epoch" 5 (.scalar .uint32) false exact_uint32,
    documentField "keys" 6 (.message 0) true exact_nested]
  sorted := by decide
  small := by decide
  named := by decide
  uninherited := by decide

def audienceSchema : Schema := [sealedKeyType, keyPackageSetType]

def KEY_PACKAGE_SET : ℕ := 1

def keyPackageSetObject (set : KeyPackageSet) : ProtoValue :=
  .plain
    [("version", .integer set.version), ("suite", .integer set.suite), ("author", .bytes set.author),
      ("audience_id", .bytes set.audience_id), ("epoch", .integer set.epoch),
      ("keys", .array (set.keys.map sealedKeyObject))]

def encodeKeyPackageSet (set : KeyPackageSet) : Except MessageError Bytes :=
  ((canonicalize messageCodec.toEncodings audienceSchema messageCodec.levels KEY_PACKAGE_SET
    (keyPackageSetObject set) ".osp.envelope.key_package_set").bind fun members =>
      (written messageCodec audienceSchema KEY_PACKAGE_SET members).mapError thrown).mapError .sdk

section Functions

variable (crypto : Crypto)

/-! ### Key package sets -/

/-- The epoch key sealed for each recipient, the first of whom has this place. -/
def sealAll (options : BuildKeyPackageSetOptions) (drawn : ℕ → Bytes × Bytes) :
    ℕ → List Recipient → Except MessageError (List SealedKey)
  | _, [] => .ok []
  | place, recipient :: others => do
    let first ← sealEpochKey crypto options.toAudienceContext options.epochKey recipient
      (drawn place)
    let rest ← sealAll options drawn (place + 1) others
    .ok (first :: rest)

/-- `makeSet`. -/
def makeSet (context : AudienceContext) (keys : List SealedKey) :
    Except MessageError KeyPackage := do
  let author ← addressToBytes crypto context.author
  let set : KeyPackageSet :=
    { version := KEY_PACKAGE_VERSION
      suite := SEALING_SUITE
      author := author
      audience_id := context.audienceId
      epoch := context.epoch
      keys := keys }
  let bytes ← encodeKeyPackageSet set
  .ok ⟨set, bytes⟩

/-- Whether a set is larger than a limit, which may be infinite. -/
def exceeds (maxBytes : ℕ∞) (package : KeyPackage) : Bool :=
  decide (maxBytes < (package.bytes.length : ℕ∞))

/-- `buildKeyPackageSets`. -/
def buildKeyPackageSets (options : BuildKeyPackageSetOptions) (maxBytes : ℕ∞)
    (drawn : ℕ → Bytes × Bytes) : Except MessageError (List KeyPackage) :=
  if options.recipients = [] then .error (.thrown "no recipients")
  else do
    let keys ← sealAll crypto options drawn 0 options.recipients
    pack (makeSet crypto options.toAudienceContext) (exceeds maxBytes) [] keys

/-- `findSealedKeysFor`. -/
def findSealedKeysFor (set : KeyPackageSet) (recipient : AddressLike) (keyVersion : Option ℤ) :
    Except MessageError (List SealedKey) := do
  let target ← addressToBytes crypto recipient
  .ok (set.keys.filter fun key => decide (key.recipient = target) &&
    (keyVersion.isNone || decide (keyVersion = some key.recipient_key_version)))

/-- The candidates, those of the key version first. -/
def ordered (keyVersion : Option ℤ) (candidates : List SealedKey) : List SealedKey :=
  match keyVersion with
  | none => candidates
  | some version =>
    (candidates.filter fun key => decide (key.recipient_key_version = version)) ++
      candidates.filter fun key => !decide (key.recipient_key_version = version)

/-- The first of some sealed keys that opens; if none does, the last error. -/
def openFirst (context : AudienceContext) (secret : Bytes) :
    MessageError → List SealedKey → Except MessageError Bytes
  | lastError, [] => .error lastError
  | _, key :: others =>
    match openEpochKey crypto context key secret with
    | .ok epochKey => .ok epochKey
    | .error error => openFirst context secret error others

/-- `openEpochKeyFromSet`. -/
def openEpochKeyFromSet (set : KeyPackageSet) (recipient : AddressLike) (secret : Bytes)
    (keyVersion : Option ℤ) : Except MessageError (Option Bytes) := do
  let candidates ← findSealedKeysFor crypto set recipient none
  if candidates.isEmpty then .ok none
  else do
    let epochKey ← openFirst crypto ⟨.bytes set.author, set.audience_id, set.epoch⟩ secret
      (.thrown "no sealed key for the recipient opens with this secret")
      (ordered keyVersion candidates)
    .ok (some epochKey)

end Functions

end OpenSocial.Sdk.Messages.Audience

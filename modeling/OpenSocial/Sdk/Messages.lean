/-
This file models direct messages: the associated data that binds a ciphertext to its
conversation, the sealing of the message key for both participants, and the recovery
of the text by one of them.

The cipher, the key agreement, the hash and Base58 are parameters, and so are the
random values that are drawn. Texts are sequences of code units, as the language has
them.
-/

import OpenSocial.Library.Utf16
import OpenSocial.Sdk.Documents

namespace OpenSocial.Sdk.Messages

open Library.Utf16 Encoding Extension

/-! ### Values -/

inductive AddressLike where
  | text (address : Text)
  | bytes (address : Bytes)
  deriving DecidableEq

structure DirectMessageContext where
  chainId : Text
  contract : Text
  sender : Text
  recipient : Text
  messageId : Bytes
  generation : Text
  deriving DecidableEq

/-- A member a key is sealed for. -/
structure Recipient where
  address : AddressLike
  publicKey : Bytes
  keyVersion : ℤ

/-- `osp.envelope.sealed_key`. -/
structure SealedKey where
  recipient : Bytes
  recipient_key_version : ℤ
  ephemeral_public_key : Bytes
  nonce : Bytes
  ciphertext : Bytes
  deriving DecidableEq

/-- `osp.envelope.direct_message_envelope`. -/
structure MessageEnvelope where
  version : ℤ
  nonce : Bytes
  ciphertext : Bytes
  keys : List SealedKey

/-- What is drawn for a message: its key and nonce, and for each participant the ephemeral secret
and the nonce of the sealed key. -/
structure Drawn where
  key : Bytes
  nonce : Bytes
  seals : ℕ → Bytes × Bytes

/-- An author, an audience and an epoch; the friends audience has no id. -/
structure AudienceContext where
  author : AddressLike
  audienceId : Bytes := []
  epoch : ℤ

/-- The libraries; the cipher and the key agreement may throw, and `lossy` is the text of bytes
that are no UTF-8. -/
structure Crypto where
  sha256 : Bytes → Bytes
  fromBase58 : Text → Option Bytes
  toBase64url : Bytes → Text
  encrypt : (key nonce aad plaintext : Bytes) → Option Bytes
  decrypt : (key nonce aad ciphertext : Bytes) → Option Bytes
  publicKey : Bytes → Bytes
  sharedSecret : (secret other : Bytes) → Option Bytes
  hkdf : (secret salt info : Bytes) → ℕ → Bytes
  lossy : Bytes → Text

/-- What the functions throw. -/
inductive MessageError where
  | thrown (message : String)
  | sdk (error : SdkError)
  deriving DecidableEq

/-! ### Schema -/

def sealedKeyType : MessageType where
  fullName := ".osp.envelope.sealed_key"
  fields := [documentField "recipient" 1 (.scalar .bytes) false exact_bytes,
    documentField "recipient_key_version" 2 (.scalar .uint32) false exact_uint32,
    documentField "ephemeral_public_key" 3 (.scalar .bytes) false exact_bytes,
    documentField "nonce" 4 (.scalar .bytes) false exact_bytes,
    documentField "ciphertext" 5 (.scalar .bytes) false exact_bytes]
  sorted := by decide
  small := by decide
  named := by decide
  uninherited := by decide

def directMessageEnvelopeType : MessageType where
  fullName := ".osp.envelope.direct_message_envelope"
  fields := [documentField "version" 1 (.scalar .uint32) false exact_uint32,
    documentField "nonce" 2 (.scalar .bytes) false exact_bytes,
    documentField "ciphertext" 3 (.scalar .bytes) false exact_bytes,
    documentField "keys" 4 (.message 0) true exact_nested]
  sorted := by decide
  small := by decide
  named := by decide
  uninherited := by decide

def messageSchema : Schema := [sealedKeyType, directMessageEnvelopeType]

def DIRECT_MESSAGE_ENVELOPE : ℕ := 1

/-- The codec of these messages; none of their fields is given as a text. -/
def messageCodec : Runtime :=
  codec
    { sha256 := id
      fromBase58 := fun _ => none
      toBase58 := fun _ => ""
      fromBase64url := fun _ => none
      toBase64url := fun _ => "" }

def sealedKeyObject (key : SealedKey) : ProtoValue :=
  .plain
    [("recipient", .bytes key.recipient),
      ("recipient_key_version", .integer key.recipient_key_version),
      ("ephemeral_public_key", .bytes key.ephemeral_public_key), ("nonce", .bytes key.nonce),
      ("ciphertext", .bytes key.ciphertext)]

def messageObject (envelope : MessageEnvelope) : ProtoValue :=
  .plain
    [("version", .integer envelope.version), ("nonce", .bytes envelope.nonce),
      ("ciphertext", .bytes envelope.ciphertext),
      ("keys", .array (envelope.keys.map sealedKeyObject))]

/-- The bytes, or the number, an object has for a member. -/
def bytesAt (object : ProtoValue) (name : String) : Bytes :=
  match object.member name with
  | .bytes data => data
  | _ => []

def numberAt (object : ProtoValue) (name : String) : ℤ :=
  match object.member name with
  | .integer number => number
  | _ => 0

def sealedKeyOf (object : ProtoValue) : SealedKey where
  recipient := bytesAt object "recipient"
  recipient_key_version := numberAt object "recipient_key_version"
  ephemeral_public_key := bytesAt object "ephemeral_public_key"
  nonce := bytesAt object "nonce"
  ciphertext := bytesAt object "ciphertext"

/-- A decoded object as an envelope. -/
def messageEnvelopeOf (object : ProtoValue) : MessageEnvelope where
  version := numberAt object "version"
  nonce := bytesAt object "nonce"
  ciphertext := bytesAt object "ciphertext"
  keys := (itemsOf (object.member "keys")).map sealedKeyOf

def encodeMessageEnvelope (envelope : MessageEnvelope) : Except MessageError Bytes :=
  (encode messageCodec messageSchema DIRECT_MESSAGE_ENVELOPE (messageObject envelope)
    ".osp.envelope.direct_message_envelope").mapError .sdk

def decodeMessageEnvelope (bytes : Bytes) : Except MessageError MessageEnvelope :=
  ((decode messageCodec messageSchema DIRECT_MESSAGE_ENVELOPE
    "osp.envelope.direct_message_envelope" bytes).map fun members =>
    messageEnvelopeOf (.plain members)).mapError .sdk

/-! ### Associated data -/

section Functions

variable (crypto : Crypto)

/-- A text of the source. -/
def literal (text : String) : Text := text.toList.flatMap charUnits

/-- `/^[1-9]\d*$/`. -/
def isGeneration : Text → Bool
  | first :: rest => 49 ≤ first && first ≤ 57 && rest.all fun digit => 48 ≤ digit && digit ≤ 57
  | [] => false

/-- The members of the bound object, as the source lists them. -/
def boundMembers (c : DirectMessageContext) : List (Text × Text) :=
  [(literal "domain", literal "osp/v1/direct-message"), (literal "chainId", c.chainId),
    (literal "contract", c.contract), (literal "sender", c.sender),
    (literal "recipient", c.recipient), (literal "id", crypto.toBase64url c.messageId),
    (literal "generation", c.generation)]

/-- `canonicalJson` of an object of texts: its members in the order of their keys. -/
def canonicalText (members : List (Text × Text)) : List Char :=
  objectText (members.insertionSort fun first second => first.1 ≤ second.1)

/-- `aad`. -/
def aad (c : DirectMessageContext) : Except MessageError Bytes :=
  if c.messageId.length ≠ 32 ∨ isGeneration c.generation = false then
    .error (.thrown "Invalid message context")
  else .ok (Library.Utf16.bytesOf (canonicalText (boundMembers crypto c)))

def addressToBytes (address : AddressLike) : Except MessageError Bytes :=
  let raw := match address with
    | .text text => crypto.fromBase58 text
    | .bytes bytes => some bytes
  match raw with
  | none => .error (.sdk (.encoding "invalid base58"))
  | some bytes =>
    if bytes.length ≠ LIMITS.addressBytes then
      .error (.sdk (.encoding ("address must be 25 bytes, got " ++ toString bytes.length)))
    else .ok bytes

/-! ### Sealed keys -/

/-- `u32be`. -/
def u32be (value : ℤ) : Except MessageError Bytes :=
  if value < 0 ∨ 0xffffffff < value then
    .error (.sdk (.encoding ("u32be: " ++ toString value ++
      " is not an unsigned 32-bit integer")))
  else .ok (Util.u32be value.toNat)

/-- `author || audience_id || u32be(epoch) || recipient`. -/
def sealAad (context : AudienceContext) (recipient : AddressLike) : Except MessageError Bytes := do
  let author ← addressToBytes crypto context.author
  let epoch ← u32be context.epoch
  let recipient ← addressToBytes crypto recipient
  .ok (author ++ context.audienceId ++ epoch ++ recipient)

def deriveSealKey (shared ephemeral recipient : Bytes) : Bytes :=
  crypto.hkdf shared (ephemeral ++ recipient) (Util.str "osp/v1/seal") LIMITS.keyBytes

/-- Make an error of a library's refusal. -/
def given {Value : Type} (message : String) (value : Option Value) : Except MessageError Value :=
  value.elim (.error (.thrown message)) .ok

def require (holds : Prop) [Decidable holds] (message : String) : Except MessageError Unit :=
  if holds then .ok () else .error (.thrown message)

/-- `sealEpochKey`, with the ephemeral secret and the nonce that are drawn. -/
def sealEpochKey (context : AudienceContext) (epochKey : Bytes) (recipient : Recipient)
    (drawn : Bytes × Bytes) : Except MessageError SealedKey := do
  require (epochKey.length = LIMITS.keyBytes) "epoch key must be 32 bytes"
  require (recipient.publicKey.length = LIMITS.keyBytes) "recipient public key must be 32 bytes"
  require (drawn.1.length = LIMITS.keyBytes) "rng returned the wrong length"
  require (drawn.2.length = LIMITS.nonceBytes) "nonce must be 24 bytes"
  let shared ← given "invalid public key" (crypto.sharedSecret drawn.1 recipient.publicKey)
  let address ← addressToBytes crypto recipient.address
  let aad ← sealAad crypto context (.bytes address)
  let ciphertext ← given "encryption failed" (crypto.encrypt
    (deriveSealKey crypto shared (crypto.publicKey drawn.1) recipient.publicKey) drawn.2 aad
      epochKey)
  .ok
    { recipient := address
      recipient_key_version := recipient.keyVersion
      ephemeral_public_key := crypto.publicKey drawn.1
      nonce := drawn.2
      ciphertext := ciphertext }

/-- `openEpochKey`, with the recipient's secret. -/
def openEpochKey (context : AudienceContext) (key : SealedKey) (secret : Bytes) :
    Except MessageError Bytes := do
  require (secret.length = LIMITS.keyBytes) "recipient secret must be 32 bytes"
  require (key.ephemeral_public_key.length = LIMITS.keyBytes) "invalid ephemeral public key"
  require (key.nonce.length = LIMITS.nonceBytes) "invalid nonce"
  let shared ← given "invalid ephemeral public key"
    (crypto.sharedSecret secret key.ephemeral_public_key)
  let aad ← sealAad crypto context (.bytes key.recipient)
  given "sealed key does not open: wrong recipient key or tampered package" (crypto.decrypt
    (deriveSealKey crypto shared key.ephemeral_public_key (crypto.publicKey secret)) key.nonce aad
      key.ciphertext)

/-! ### Messages -/

/-- Whether one of the participants has this address. -/
def isAmong (address : Text) : List Recipient → Except MessageError Bool
  | [] => .ok false
  | participant :: others => do
    let theirs ← addressToBytes crypto participant.address
    let sought ← addressToBytes crypto (.text address)
    if theirs = sought then .ok true else isAmong address others

/-- Whether all of some addresses are among those of the participants. -/
def areAmong (participants : List Recipient) : List Text → Except MessageError Bool
  | [] => .ok true
  | address :: others => do
    let found ← isAmong crypto address participants
    if found then areAmong participants others else .ok false

/-- A message is an audience of its own, and its epoch is 0. -/
def messageAudience (c : DirectMessageContext) : AudienceContext where
  author := .text c.sender
  audienceId := c.messageId
  epoch := 0

/-- The message key sealed for each participant, the first of whom has this place. -/
def sealAll (c : DirectMessageContext) (drawn : Drawn) :
    ℕ → List Recipient → Except MessageError (List SealedKey)
  | _, [] => .ok []
  | place, participant :: others => do
    let first ← sealEpochKey crypto (messageAudience c) drawn.key participant (drawn.seals place)
    let rest ← sealAll c drawn (place + 1) others
    .ok (first :: rest)

def maxMessageBytes : ℕ := 4096

def UNVERIFIED : String := "Both participants need verified encryption keys"
def TOO_LARGE : String := "Encrypted message is too large"

/-- Whether the participants are the two of the context. -/
def checkParticipants (c : DirectMessageContext) (participants : List Recipient) :
    Except MessageError Unit :=
  if c.sender = c.recipient ∨ participants.length ≠ 2 then .error (.thrown UNVERIFIED)
  else do
    let all ← areAmong crypto participants [c.sender, c.recipient]
    require (all = true) UNVERIFIED

/-- `encryptDirectMessage`: the envelope and its hash. -/
def encryptDirectMessage (c : DirectMessageContext) (text : Text) (participants : List Recipient)
    (drawn : Drawn) : Except MessageError (Bytes × Bytes) := do
  require (¬ (isBlank text = true ∨ 2500 < (utf8 text).length))
    "Messages must contain 1–2500 UTF-8 bytes"
  checkParticipants crypto c participants
  let bound ← aad crypto c
  let ciphertext ← given "encryption failed"
    (crypto.encrypt drawn.key drawn.nonce bound (utf8 text))
  let keys ← sealAll crypto c drawn 0 participants
  let envelope ← encodeMessageEnvelope ⟨1, drawn.nonce, ciphertext, keys⟩
  require (envelope.length ≤ maxMessageBytes) TOO_LARGE
  .ok (envelope, crypto.sha256 envelope)

/-- The key of an envelope that is sealed for an account. -/
def keyFor (envelope : MessageEnvelope) (address : Bytes) : Except MessageError SealedKey :=
  match envelope.keys.find? fun key => key.recipient = address with
  | none => .error (.thrown "No decryption key for this account")
  | some key =>
    if key.recipient_key_version < 1 then .error (.thrown "No decryption key for this account")
    else .ok key

/-- `decryptDirectMessage`. -/
def decryptDirectMessage (c : DirectMessageContext) (envelope expectedHash : Bytes) (account : Text)
    (secretForVersion : ℤ → Except MessageError Bytes) : Except MessageError Text := do
  require (envelope.length ≤ maxMessageBytes ∧ expectedHash.length = 32 ∧
    crypto.sha256 envelope = expectedHash) "Message does not match its on-chain commitment"
  require (account = c.sender ∨ account = c.recipient) "Not a conversation participant"
  let e ← decodeMessageEnvelope envelope
  require (e.version = 1 ∧ e.nonce.length = 24 ∧ e.keys.length = 2) "Unsupported message envelope"
  let address ← addressToBytes crypto (.text account)
  let key ← keyFor e address
  let secret ← secretForVersion key.recipient_key_version
  let epochKey ← openEpochKey crypto (messageAudience c) key secret
  let bound ← aad crypto c
  let plaintext ← given "decryption failed" (crypto.decrypt epochKey e.nonce bound e.ciphertext)
  .ok (utf8Decode crypto.lossy plaintext)

end Functions

end OpenSocial.Sdk.Messages

/-
This file models content envelopes: the associated data that binds a ciphertext to
its place, the encryption of a content document and its recovery.

The cipher and the protobuf coding of the documents are parameters. A content
document is given by its fields with their defaults filled in, the numbers of the
associated data by the numbers the caller has.
-/

import OpenSocial.Library.Wire
import OpenSocial.Sdk.Ids

namespace OpenSocial.Sdk

/-- `osp.envelope.media_item`. -/
structure MediaItem where
  content_hash : Bytes
  mime : String
  size : UInt64
  locations : List String
  wrapped_key : Bytes
  nonce : Bytes
  alt_text : String
  deriving DecidableEq

/-- `osp.envelope.content`: the plaintext of a post. -/
structure Content where
  version : UInt32
  text : String
  mime : String
  media : List MediaItem
  lang : String
  created_at : UInt64
  external_ref : String
  deriving DecidableEq

/-- `osp.envelope.envelope`. -/
structure Envelope where
  version : UInt32
  suite : Int32
  payload : Bytes
  nonce : Bytes
  wrapped_content_key : Bytes
  wrap_nonce : Bytes
  deriving DecidableEq

/-- `osp.envelope.aad`, as it is written. -/
structure Aad where
  protocol_version : ℕ
  chain_id : Bytes
  author : Bytes
  post_id : Bytes
  audience : ℕ
  audience_id : Bytes
  epoch : ℕ
  version_number : ℕ
  deriving DecidableEq, Repr

/-- The inputs of the associated data. -/
structure AadInput where
  chainId : String
  author : String
  postId : Bytes
  audience : ℚ
  audienceId : Bytes
  epoch : ℚ
  versionNumber : ℚ

/-- The cipher, which throws on a key or nonce of another length and on data that was not made with
them, and the protobuf coding of the documents. -/
structure Libraries extends Encodings where
  encrypt : (key nonce aad plaintext : Bytes) → Option Bytes
  decrypt : (key nonce aad ciphertext : Bytes) → Option Bytes
  encodeAad : Aad → Bytes
  encodeContent : Content → Bytes
  decodeContent : Bytes → Option Content
  encodeEnvelope : Envelope → Bytes
  decodeEnvelope : Bytes → Option Envelope

namespace SUITE

def PLAINTEXT : Int32 := 0
def XCHACHA20POLY1305_X25519 : Int32 := 1

end SUITE

namespace AUDIENCE

def EVERYONE : ℚ := 0
def FRIENDS : ℚ := 1
def CUSTOM : ℚ := 2

end AUDIENCE

def ENVELOPE_VERSION : UInt32 := 1

section Envelopes

variable (libraries : Libraries)

/-! ### Associated data -/

/-- The canonical associated data; that of a first version has an empty post id. -/
def buildAad (input : AadInput) : Except SdkError Bytes := do
  if input.versionNumber.den ≠ 1 ∨ input.versionNumber < 1 then
    .error (.envelope "versionNumber must be a positive integer")
  else do
    let postId := if input.versionNumber = 1 then [] else input.postId
    if 1 < input.versionNumber ∧ postId.length ≠ LIMITS.hashBytes then
      .error (.envelope "postId is required for versions after the first")
    else do
      let chain ← chainIdToBytes libraries.toEncodings input.chainId
      let author ← addressToBytes libraries.toEncodings input.author
      let audience ← normalizeUint32 ".osp.envelope.aad.audience" input.audience
      let epoch ← normalizeUint32 ".osp.envelope.aad.epoch" input.epoch
      let version ← normalizeUint32 ".osp.envelope.aad.version_number" input.versionNumber
      .ok (libraries.encodeAad
        { protocol_version := PROTOCOL_VERSION
          chain_id := chain
          author := author
          post_id := postId
          audience := audience
          audience_id := input.audienceId
          epoch := epoch
          version_number := version })

/-- `"osp/v1/wrap" || aad_bytes`. -/
def wrapAad (aad : Bytes) : Bytes := Util.concat [Util.str DOMAIN.WRAP, aad]

/-! ### Encryption -/

def validateLocations (index : ℕ) : List (String × ℕ) → Except SdkError Unit
  | [] => .ok ()
  | (location, place) :: rest =>
    if LIMITS.maxLocationChars < Util.stringLength location then
      .error (.envelope ("media[" ++ toString index ++ "].locations[" ++ toString place ++ "] is " ++
        toString (Util.stringLength location) ++ " chars, above the limit of 256"))
    else validateLocations index rest

def validateMedia : List (MediaItem × ℕ) → Except SdkError Unit
  | [] => .ok ()
  | (item, index) :: rest =>
    if LIMITS.maxLocationsPerRef < item.locations.length then
      .error (.envelope ("media[" ++ toString index ++ "] has " ++
        toString item.locations.length ++ " locations, above the limit of 4"))
    else do
      validateLocations index item.locations.zipIdx
      validateMedia rest

def validateContent (content : Content) : Except SdkError Unit :=
  if LIMITS.maxMediaRefs < content.media.length then
    .error (.envelope ("content has " ++ toString content.media.length ++
      " media refs, above the limit of 8"))
  else validateMedia content.media.zipIdx

def validateEnvelopeSize (bytes : Bytes) : Except SdkError Unit :=
  if LIMITS.maxEnvelopeBytes < bytes.length then
    .error (.envelope ("envelope is " ++ toString bytes.length ++
      " bytes, above the limit of 4096"))
  else .ok ()

def checkLength (bytes : Bytes) (expected : ℕ) (label : String) : Except SdkError Unit :=
  if bytes.length ≠ expected then
    .error (.envelope (label ++ " must be " ++ toString expected ++ " bytes"))
  else .ok ()

/-- What an envelope is made from; the keys and nonces are those drawn for it. -/
structure EncryptContentOptions where
  content : Content
  aad : Option AadInput
  epochKey : Option Bytes
  suite : Option Int32
  contentKey : Bytes
  nonce : Bytes
  wrapNonce : Bytes

/-- A cipher's answer, with the error it throws. -/
def ciphered (text : String) (bytes : Option Bytes) : Except SdkError Bytes :=
  bytes.elim (.error (.envelope text)) .ok

/-- `encryptContent`: the canonical bytes of the envelope. -/
def encryptContent (options : EncryptContentOptions) : Except SdkError Bytes := do
  let suite := options.suite.getD
    (if options.epochKey.isSome then SUITE.XCHACHA20POLY1305_X25519 else SUITE.PLAINTEXT)
  validateContent options.content
  let plaintext := libraries.encodeContent options.content
  if suite = SUITE.PLAINTEXT then
    if options.aad.any fun aad => aad.audience != AUDIENCE.EVERYONE then
      .error (.envelope "suite 0 (plaintext) is only valid for the everyone audience")
    else do
      let bytes := libraries.encodeEnvelope
        { version := ENVELOPE_VERSION
          suite := suite
          payload := plaintext
          nonce := []
          wrapped_content_key := []
          wrap_nonce := [] }
      validateEnvelopeSize bytes
      .ok bytes
  else if suite ≠ SUITE.XCHACHA20POLY1305_X25519 then
    .error (.envelope ("unsupported suite " ++ toString suite.toInt))
  else
    match options.epochKey.filter fun key => key.length = LIMITS.keyBytes with
    | none => .error (.envelope "suite 1 requires a 32-byte epoch key")
    | some epochKey =>
      match options.aad with
      | none => .error (.envelope "suite 1 requires the AAD")
      | some input => do
        let aad ← buildAad libraries input
        checkLength options.contentKey LIMITS.keyBytes "contentKey"
        checkLength options.nonce LIMITS.nonceBytes "nonce"
        checkLength options.wrapNonce LIMITS.nonceBytes "wrapNonce"
        let payload ← ciphered "encryption failed"
          (libraries.encrypt options.contentKey options.nonce aad plaintext)
        let wrapped ← ciphered "encryption failed"
          (libraries.encrypt epochKey options.wrapNonce (wrapAad aad) options.contentKey)
        let bytes := libraries.encodeEnvelope
          { version := ENVELOPE_VERSION
            suite := suite
            payload := payload
            nonce := options.nonce
            wrapped_content_key := wrapped
            wrap_nonce := options.wrapNonce }
        validateEnvelopeSize bytes
        .ok bytes

/-! ### Recovery -/

def decodeEnvelope (bytes : Bytes) : Except SdkError Envelope :=
  (libraries.decodeEnvelope bytes).elim
    (.error (.encoding "cannot decode osp.envelope.envelope")) .ok

def decodeContent (bytes : Bytes) : Except SdkError Content :=
  (libraries.decodeContent bytes).elim
    (.error (.encoding "cannot decode osp.envelope.content")) .ok

/-- The content key of a suite-1 envelope. -/
def unwrapContentKey (envelope : Envelope) (epochKey aad : Bytes) : Except SdkError Bytes :=
  if envelope.suite ≠ SUITE.XCHACHA20POLY1305_X25519 then
    .error (.envelope "envelope is not suite 1")
  else if epochKey.length ≠ LIMITS.keyBytes then
    .error (.envelope "epoch key must be 32 bytes")
  else
    ciphered "content key unwrap failed: wrong epoch key or tampered envelope/AAD"
      (libraries.decrypt epochKey envelope.wrap_nonce (wrapAad aad) envelope.wrapped_content_key)

/-- `decryptContent`: suite 0 needs nothing, suite 1 the associated data and the epoch key. -/
def decryptContent (envelope : Envelope) (aad : Option AadInput) (epochKey : Option Bytes) :
    Except SdkError Content :=
  if envelope.version ≠ ENVELOPE_VERSION then
    .error (.envelope ("unsupported envelope version " ++ toString envelope.version.toNat))
  else if envelope.suite = SUITE.PLAINTEXT then decodeContent libraries envelope.payload
  else if envelope.suite ≠ SUITE.XCHACHA20POLY1305_X25519 then
    .error (.envelope ("unsupported suite " ++ toString envelope.suite.toInt))
  else
    match epochKey, aad with
    | none, _ => .error (.envelope "suite 1 requires the epoch key")
    | some _, none => .error (.envelope "suite 1 requires the AAD")
    | some epochKey, some input => do
      checkLength envelope.nonce LIMITS.nonceBytes "nonce"
        |>.mapError fun _ => .envelope "invalid envelope nonce"
      let aad ← buildAad libraries input
      let contentKey ← unwrapContentKey libraries envelope epochKey aad
      let plaintext ← ciphered "payload authentication failed: tampered envelope or AAD"
        (libraries.decrypt contentKey envelope.nonce aad envelope.payload)
      decodeContent libraries plaintext

end Envelopes

/-! ### The libraries -/

section Instance

open Library.Wire

theorem four_positive : 0 < 4 := by decide

theorem eight_positive : 0 < 8 := by decide

/-- A document coded field by field, each behind its length. -/
def mediaCode : Code MediaItem :=
  (Code.framed.pair (Code.text.pair (Code.text.list.pair (Code.framed.pair (Code.framed.pair
    (Code.text.pair (Code.fixed 8 eight_positive UInt64.toNat UInt64.ofNat
      (fun value => value.toNat_lt) fun _ => UInt64.ofNat_toNat))))))).through
    (fun item => (item.content_hash, item.mime, item.locations, item.wrapped_key, item.nonce,
      item.alt_text, item.size))
    (fun fields => some ⟨fields.1, fields.2.1, fields.2.2.2.2.2.2, fields.2.2.1, fields.2.2.2.1,
      fields.2.2.2.2.1, fields.2.2.2.2.2.1⟩)
    fun _ => rfl

def contentCode : Code Content :=
  ((Code.fixed 4 four_positive UInt32.toNat UInt32.ofNat (fun value => value.toNat_lt)
    fun _ => UInt32.ofNat_toNat).pair (Code.text.pair (Code.text.pair (mediaCode.list.pair
    (Code.text.pair (Code.text.pair (Code.fixed 8 eight_positive UInt64.toNat UInt64.ofNat
      (fun value => value.toNat_lt) fun _ => UInt64.ofNat_toNat))))))).through
    (fun content => (content.version, content.text, content.mime, content.media, content.lang,
      content.external_ref, content.created_at))
    (fun fields => some ⟨fields.1, fields.2.1, fields.2.2.1, fields.2.2.2.1, fields.2.2.2.2.1,
      fields.2.2.2.2.2.2, fields.2.2.2.2.2.1⟩)
    fun _ => rfl

def envelopeCode : Code Envelope :=
  ((Code.fixed 4 four_positive UInt32.toNat UInt32.ofNat (fun value => value.toNat_lt)
    fun _ => UInt32.ofNat_toNat).pair ((Code.fixed 4 four_positive
    (fun value : Int32 => value.toUInt32.toNat) (fun number => (UInt32.ofNat number).toInt32)
    (fun value => value.toUInt32.toNat_lt) fun _ => by rw [UInt32.ofNat_toNat]; rfl).pair
    (Code.framed.pair (Code.framed.pair (Code.framed.pair Code.framed))))).through
    (fun envelope => (envelope.version, envelope.suite, envelope.payload, envelope.nonce,
      envelope.wrapped_content_key, envelope.wrap_nonce))
    (fun fields => some ⟨fields.1, fields.2.1, fields.2.2.1, fields.2.2.2.1, fields.2.2.2.2.1,
      fields.2.2.2.2.2⟩)
    fun _ => rfl

/-- Thirty-two bytes that depend on all the bytes given. -/
def digest (bytes : Bytes) : Bytes :=
  littleEndian 32 (bytes.foldl (fun number byte => (257 * number + byte.toNat + 1) % 2 ^ 256) 7)

/-- Bytes as a text of one character a byte. -/
def oneByOne (bytes : Bytes) : String := String.ofList (bytes.map fun byte => Char.ofNat byte.toNat)

def fromOneByOne (text : String) : Option Bytes :=
  if text.toList.all fun character => character.toNat < 256 then
    some (text.toList.map fun character => UInt8.ofNat character.toNat)
  else none

/-- Libraries whose cipher puts a mark of the key, the nonce and the associated data in front of the
plaintext and refuses what has another mark. -/
def plainLibraries : Libraries where
  sha256 := digest
  fromBase58 := fromOneByOne
  toBase58 := oneByOne
  fromBase64url := fromOneByOne
  toBase64url := oneByOne
  encrypt := fun key nonce aad plaintext =>
    if key.length = LIMITS.keyBytes ∧ nonce.length = LIMITS.nonceBytes then
      some (digest (key ++ nonce ++ aad) ++ plaintext)
    else none
  decrypt := fun key nonce aad ciphertext =>
    if ciphertext.take 32 = digest (key ++ nonce ++ aad) then some (ciphertext.drop 32) else none
  encodeAad := fun aad => Util.concat [Util.u32be aad.protocol_version, aad.chain_id, aad.author,
    aad.post_id, Util.u32be aad.audience, aad.audience_id, Util.u32be aad.epoch,
    Util.u32be aad.version_number]
  encodeContent := contentCode.write
  decodeContent := contentCode.decode
  encodeEnvelope := envelopeCode.write
  decodeEnvelope := envelopeCode.decode

end Instance

end OpenSocial.Sdk

/-
This file models how the web client gets the keys of audience epochs: from its cache,
or from the sealed copies that an indexer serves, which are checked on chain before a
key is used to publish.

The cache is asked through requests, since others may change it whenever a client
waits. What a check on chain finds is the answer of a request, and so is every
answer of the indexer; a check that throws found nothing out.
-/

import OpenSocial.Sdk.Audience
import OpenSocial.Sdk.Json
import OpenSocial.Web.Decrypt

namespace OpenSocial.Web

open Library Sdk

/-! ### Sealed copies -/

/-- The account that resolves keys, with its current encryption key. -/
structure KeyResolverIdentity where
  account : String
  seed : Bytes
  secretKey : Bytes
  publicKey : Bytes
  keyVersion : ℤ

/-- What the key store uses of the libraries; deriving a secret may throw. -/
structure KeyLibraries extends Encodings where
  crypto : Messages.Crypto
  deriveEncryptionSecret : (seed : Bytes) → (keyVersion : ℤ) → Except String Bytes

/-- Outcome of checking on chain where a sealed key came from. -/
inductive KeyProvenance where
  | verified (recipients : List String)
  | rejected (reason : String)
  | unavailable (reason : String)

section Copies

variable (libraries : KeyLibraries) (me : KeyResolverIdentity)

/-- `decode` of a sealed key. -/
def decodeSealedKey (bytes : Bytes) : Option Messages.SealedKey :=
  ((Encoding.decode Messages.messageCodec Messages.Audience.audienceSchema 0
      "osp.envelope.sealed_key" bytes).map
    fun members => Messages.sealedKeyOf (.plain members)).toOption

/-- The secret for a version of the encryption key; 0 is the current one. -/
def secretFor (version : ℤ) : Except String Bytes :=
  if version = 0 ∨ version = me.keyVersion then .ok me.secretKey
  else libraries.deriveEncryptionSecret me.seed version

/-- The epoch of a reference, which is sealed with the key; only an integer can be. -/
def sealingContext (ref : EpochKeyRef) : Option Messages.AudienceContext :=
  if ref.epoch.den = 1 then
    some ⟨.text (Messages.literal ref.author), ref.audienceId, ref.epoch.num⟩
  else none

/-- `openSealedView`: nothing where the copy is not for the account or does not open. -/
def openSealedView (item : SealedKeyView) (ref : EpochKeyRef) : Except String (Option Bytes) :=
  if item.recipient ≠ me.account then .ok none
  else
    match decodeSealedKey (bytesOf libraries.toEncodings item.sealedKey) with
    | none => .ok none
    | some key => do
      let secret ← secretFor libraries me key.recipient_key_version
      .ok ((sealingContext ref).bind fun context =>
        (Messages.openEpochKey libraries.crypto context key secret).toOption)

/-- The sealed copies that open. -/
def openAll (ref : EpochKeyRef) : List SealedKeyView → Except String (List KeyCandidate)
  | [] => .ok []
  | item :: items => do
    let opened ← openSealedView libraries me item ref
    let others ← openAll ref items
    .ok ((opened.map fun key => ⟨key, item⟩).toList ++ others)

end Copies

/-! ### Requests -/

structure MediaAttachment where
  url : String
  mime : String
  size : UInt64
  contentHash : Bytes
  altText : Option String

/-- The arguments of `publications.publish` that the composer gives. -/
structure PublishArgs where
  author : String
  post_id : Bytes
  previous_version : Option Bytes
  sequence : Option String
  audience : ℚ
  epoch : ℕ
  envelope : Bytes
  content_hash : Bytes
  media : List MediaAttachment
  reply_to : Option Bytes
  idempotency_key : Bytes

/-- An identity as the chain records it. -/
structure EncryptionRecord where
  encryption_key : Bytes
  key_version : ℤ

/-- What a client asks of its key store, of the indexer, of the chain and of its random numbers. -/
inductive Request where
  | init
  | trusted (ref : EpochKeyRef)
  | entry (ref : EpochKeyRef)
  | put (ref : EpochKeyRef) (key : Bytes) (recipients : List String)
  | remember (ref : EpochKeyRef) (key : Bytes)
  | forget (ref : EpochKeyRef)
  | missedLately (ref : EpochKeyRef)
  | miss (ref : EpochKeyRef)
  | keys (ref : EpochKeyRef)
  | verify (item : SealedKeyView) (ref : EpochKeyRef)
  | graph
  | audience (account : String)
  | relationship (friend : String)
  | identity (friend : String)
  | authorState (author : String)
  | newEpochKey
  | seals
  | contentKeys
  | distributeKeys (author : String) (epoch : ℕ) (packages : Bytes)
  | publish (args : PublishArgs)

/-- The answers; what may throw answers with its message. -/
@[reducible] def Answer : Request → Type
  | .init => Unit
  | .trusted _ => Option EpochKeyEntry
  | .entry _ => Option EpochKeyEntry
  | .put _ _ _ => Unit
  | .remember _ _ => Unit
  | .forget _ => Unit
  | .missedLately _ => Bool
  | .miss _ => Unit
  | .keys _ => Except String (List SealedKeyView)
  | .verify _ _ => KeyProvenance
  | .graph => Except String (List String)
  | .audience _ => Except String (Option ℕ)
  | .relationship _ => Except String (Option ℕ)
  | .identity _ => Except String (Option EncryptionRecord)
  | .authorState _ => Except String (Option String)
  | .newEpochKey => Bytes
  | .seals => ℕ → Bytes × Bytes
  | .contentKeys => Bytes × Bytes × Bytes
  | .distributeKeys _ _ _ => Except String Json
  | .publish _ => Except String Json

abbrev Exchange := Program.Exchange Request Answer

/-- The exchanges of a run. -/
abbrev Trace := List Exchange

/-- Ask a request for its answer. -/
def ask {Failure : Type} (request : Request) : Program Request Answer Failure (Answer request) :=
  Program.query request .ok

/-! ### Resolving keys -/

section Resolving

variable (libraries : KeyLibraries) (me : KeyResolverIdentity)

/-- `KeyStore.candidates`. -/
def candidates (ref : EpochKeyRef) : Program Request Answer String (List KeyCandidate) :=
  Program.query (.keys ref) fun answer => answer.bind (openAll libraries me ref)

/-- Keep a key that could not be checked, for reading. -/
def rememberCandidate (ref : EpochKeyRef) (candidate : KeyCandidate) :
    Program Request Answer String (Option EpochKeyEntry) := do
  let _ ← ask (.remember ref candidate.key)
  ask (.entry ref)

/-- `KeyStore.adopt`, with a verifier or without. -/
def adopt (verifies : Bool) (ref : EpochKeyRef) (candidate : KeyCandidate) :
    Program Request Answer String (Option EpochKeyEntry) :=
  if verifies then do
    let provenance ← ask (.verify candidate.item ref)
    match provenance with
    | .verified recipients => do
      let _ ← ask (.put ref candidate.key recipients)
      ask (.entry ref)
    | .rejected _ => pure none
    | .unavailable _ => rememberCandidate ref candidate
  else rememberCandidate ref candidate

/-- The first candidate that is adopted. -/
def adoptFirst (verifies : Bool) (ref : EpochKeyRef) :
    List KeyCandidate → Program Request Answer String (Option EpochKeyEntry)
  | [] => do
    let _ ← ask (.miss ref)
    pure none
  | candidate :: others => do
    let adopted ← adopt verifies ref candidate
    match adopted with
    | some entry => pure (some entry)
    | none => adoptFirst verifies ref others

/-- The key of an epoch that is not cached. -/
def resolveMissing (verifies : Bool) (ref : EpochKeyRef) :
    Program Request Answer String (Option EpochKeyEntry) := do
  let missed ← ask (.missedLately ref)
  match missed with
  | true => pure none
  | false => do
    let found ← Program.attempt (candidates libraries me ref)
    match found with
    | .error _ => pure none
    | .ok found => adoptFirst verifies ref found

/-- `KeyStore.resolve`. -/
def resolve (verifies : Bool) (ref : EpochKeyRef) :
    Program Request Answer String (Option EpochKeyEntry) := do
  let _ ← ask .init
  let cached ← ask (.entry ref)
  match cached with
  | some entry => pure (some entry)
  | none => resolveMissing libraries me verifies ref

/-- What `resolveTrusted` answers. -/
structure Resolved where
  entry : Option EpochKeyEntry
  unverifiable : Bool

section Trusted

variable {Failure : Type}

/-- The first candidate that is verified on chain. -/
def verifyFirst (ref : EpochKeyRef) :
    Bool → List KeyCandidate → Program Request Answer Failure Resolved
  | unverifiable, [] => pure ⟨none, unverifiable⟩
  | unverifiable, candidate :: others => do
    let provenance ← ask (.verify candidate.item ref)
    match provenance with
    | .verified recipients => do
      let _ ← ask (.put ref candidate.key recipients)
      let entry ← ask (.entry ref)
      pure ⟨entry, false⟩
    | .rejected _ => verifyFirst ref unverifiable others
    | .unavailable _ => verifyFirst ref true others

/-- A trusted key of an epoch from the sealed copies; without a verifier none is trusted. -/
def verifyCopies (verifies : Bool) (ref : EpochKeyRef) (found : List KeyCandidate) :
    Program Request Answer Failure Resolved :=
  if verifies then verifyFirst ref false found else pure ⟨none, !found.isEmpty⟩

/-- `KeyStore.resolveTrusted`: a lookup that fails is answered like one that finds nothing. -/
def resolveTrusted (verifies : Bool) (ref : EpochKeyRef) :
    Program Request Answer Failure Resolved := do
  let _ ← ask .init
  let cached ← ask (.trusted ref)
  match cached with
  | some entry => pure ⟨some entry, false⟩
  | none => do
    let found ← Program.attempt (candidates libraries me ref)
    match found with
    | .error _ => pure ⟨none, false⟩
    | .ok found => verifyCopies verifies ref found

end Trusted

end Resolving

/-- The key store as a reader uses it. -/
def keyStore (libraries : KeyLibraries) (me : KeyResolverIdentity) (verifies : Bool) :
    KeyStore Request Answer where
  entry ref := ask (.entry ref)
  resolve := resolve libraries me verifies
  candidates := candidates libraries me
  adopt ref candidate := do
    let _ ← adopt verifies ref candidate
    pure ()
  forget ref := ask (.forget ref)

end OpenSocial.Web

/-
This file models the publications contract: versioned posts and replies, their
lifecycle, reactions, audience keys and cross-post outcomes.

A post is stored under an id computed from its author, sequence and first
content; an edit names the version it replaces. Envelopes, media, reactions, key
packages and cross-post outcomes are carried by events only.
-/

import OpenSocial.Common.Actor
import OpenSocial.Library.Machine
import OpenSocial.Library.Store
import OpenSocial.Library.Word

namespace OpenSocial.Publications

open Library Library.Word

/-! ### Limits -/

def PROTOCOL_VERSION : ℕ := 1
def MAX_ENVELOPE_BYTES : ℕ := 4096
def MAX_MEDIA_REFS : ℕ := 8
def MAX_KEY_PACKAGE_BYTES : ℕ := 16384
def MAX_IDEMPOTENCY_KEY_BYTES : ℕ := 32
def MAX_LOCATION_CHARS : ℕ := 256
def MAX_LOCATIONS_PER_MEDIA : ℕ := 4
def MAX_MIME_CHARS : ℕ := 128
def MAX_REASON_CHARS : ℕ := 256
def MAX_ADAPTER_CHARS : ℕ := 64
def MAX_EXTERNAL_REF_CHARS : ℕ := 256
def MAX_AUDIENCE_ID_BYTES : ℕ := 32
def MAX_KEY_REF_BYTES : ℕ := 128
def HASH_LENGTH : ℕ := 32
def FIRST_SEQUENCE : ℕ := 1

/-- Domain separator for post ids. -/
def POST_ID_DOMAIN : String := "osp/v1/post-id"

/-! ### Records -/

/-- `publications.outcome_state`; `partly` stands for the source's state number 1. -/
inductive OutcomeState where
  | succeeded
  | partly
  | unknown
  | failed
  | reconcileRequired
  deriving DecidableEq, Repr

/-- The outcome of a wire value; values out of range are no outcome. -/
def OutcomeState.ofWire : ℤ → Option OutcomeState
  | 0 => some .succeeded
  | 1 => some .partly
  | 2 => some .unknown
  | 3 => some .failed
  | 4 => some .reconcileRequired
  | _ => none

structure MediaRef where
  contentHash : Bytes
  mime : String
  size : ℕ
  locations : List String
  keyRef : Bytes
  deriving DecidableEq, Repr

structure AuthorState where
  nextSequence : ℕ
  lastPublishAt : ℕ
  postCount : ℕ
  deriving DecidableEq, Repr

/-- The contract's objects and maps; `idempotency` holds the post id an author bound a key to. -/
structure State where
  usage : Option Address
  identity : Option Address
  relationships : Option Address
  posts : Store Bytes PostRecord
  authors : Store Bytes AuthorState
  idempotency : Store Bytes Bytes

/-- The `osp.publications.*` events. -/
inductive Event where
  | published (author : Address) (postId contentHash previousVersion : Bytes)
      (versionNumber sequence : ℕ) (audience : AudienceKind) (audienceId : Bytes) (epoch : ℕ)
      (envelope : Bytes) (media : List MediaRef) (replyTo idempotencyKey : Bytes)
      (protocolVersion timestamp : ℕ)
  | lifecycle (author : Address) (postId version : Bytes) (state : LifecycleState)
      (reason : String) (replacementId : Bytes) (timestamp : ℕ)
  | reaction (actor : Address) (postId : Bytes) (postAuthor : Address) (reaction : ℕ)
      (removed : Bool) (timestamp : ℕ)
  | keysDistributed (author : Address) (audienceId : Bytes) (epoch : ℕ) (packages : Bytes)
      (timestamp : ℕ)
  | crossPostOutcome (author : Address) (idempotencyKey : Bytes) (adapter : String)
      (state : OutcomeState) (externalRef : String) (postId manifestHash : Bytes)
      (timestamp : ℕ)
  deriving DecidableEq, Repr

/-! ### Arguments -/

/-- The arguments of the three configuration methods. -/
structure SetContractArguments where
  address : Bytes

/-- The audience is the enum's value on the wire. -/
structure PublishArguments where
  author : Bytes
  postId : Bytes
  previousVersion : Bytes
  sequence : ℕ
  audience : ℤ
  audienceId : Bytes
  epoch : ℕ
  envelope : Bytes
  contentHash : Bytes
  media : List MediaRef
  replyTo : Bytes
  idempotencyKey : Bytes
  device : Bytes

/-- The state is the enum's value on the wire. -/
structure SetLifecycleArguments where
  author : Bytes
  postId : Bytes
  version : Bytes
  state : ℤ
  reason : String
  replacementId : Bytes
  device : Bytes

structure ReactArguments where
  actor : Bytes
  postId : Bytes
  reaction : ℕ
  remove : Bool
  device : Bytes

structure DistributeKeysArguments where
  author : Bytes
  audienceId : Bytes
  epoch : ℕ
  packages : Bytes
  device : Bytes

/-- The state is the enum's value on the wire. -/
structure RecordCrossPostArguments where
  author : Bytes
  idempotencyKey : Bytes
  adapter : String
  state : ℤ
  externalRef : String
  postId : Bytes
  manifestHash : Bytes
  device : Bytes

/-! ### Internal helpers -/

/-- Configured identity contract address, or empty bytes when unset. -/
def identityContract (state : State) : Bytes :=
  state.identity.elim [] Subtype.val

/-- Configured relationships contract address, or empty bytes when unset. -/
def relationshipsContract (state : State) : Bytes :=
  state.relationships.elim [] Subtype.val

/-- Charge one unit of usage; a deployment without a token contract charges nothing. -/
def consume (env : Env) (state : State) (account : Address) : Except Failure Unit :=
  match state.usage with
  | none => pure ()
  | some token => require (env.consume token.val account.val 1) "usage allowance exhausted"

/-- Raw 32-byte SHA-256 digest: the multihash prefix of the hash system call is stripped. -/
def sha256 (host : Host) (data : Bytes) : Except Failure Bytes :=
  let digest := host.hash data
  if digest.length = HASH_LENGTH + 2 ∧ digest[0]? = some 0x12 ∧ digest[1]? = some 0x20 then
    pure (digest.drop 2)
  else do
    require (digest.length == HASH_LENGTH) "unexpected digest length"
    pure digest

/-- The bytes hashed into a post id. -/
def postIdPreimage (host : Host) (author : Bytes) (sequence : ℕ) (contentHash : Bytes) : Bytes :=
  Util.concat [Util.str POST_ID_DOMAIN, host.chainId, Util.u32be PROTOCOL_VERSION, author,
    Util.u64be sequence, contentHash]

/-- The post id of an author's first version. -/
def computePostId (host : Host) (author : Bytes) (sequence : ℕ) (contentHash : Bytes) :
    Except Failure Bytes :=
  sha256 host (postIdPreimage host author sequence contentHash)

/-- Require a bytes field to be exactly 32 bytes. -/
def requireHash (value : Bytes) (what : String) : Except Failure Bytes := do
  require (value != []) (what ++ " is required")
  require (value.length == HASH_LENGTH) (what ++ " must be 32 bytes")
  pure value

/-- Validate an optional hash (empty or 32 bytes). -/
def optionalHash (value : Bytes) (what : String) : Except Failure Bytes :=
  Util.optionalExact value HASH_LENGTH (what ++ " must be empty or 32 bytes")

/-- Validate an optional bounded bytes field. -/
def optionalBytes (value : Bytes) (max : ℕ) (what : String) : Except Failure Bytes := do
  require (value == [] || value.length ≤ max) (what ++ " too large")
  pure value

/-- Validate an optional reference to a post: empty, or a hash. -/
def optionalReference (value : Bytes) (what : String) : Except Failure Bytes :=
  if value = [] then pure [] else requireHash value what

/-- Author sequence state; an unknown author starts at the first sequence. -/
def loadAuthor (state : State) (author : Bytes) : AuthorState :=
  (state.authors.get author).getD ⟨FIRST_SEQUENCE, 0, 0⟩

/-- Key of the (author, idempotency key) map. -/
def idempotencyKeyOf (author key : Bytes) : Bytes :=
  Util.concat [author, key]

/-- `posts.put`. -/
def State.putPost (state : State) (postId : Bytes) (record : PostRecord) : State :=
  { state with posts := state.posts.put postId record }

/-- `authors.put`. -/
def State.putAuthor (state : State) (author : Address) (value : AuthorState) : State :=
  { state with authors := state.authors.put author.val value }

/-- Validate the locations of one media reference. -/
def validateLocations : List String → Except Failure Unit
  | [] => pure ()
  | location :: rest => do
    require (Util.stringLength location ≤ MAX_LOCATION_CHARS) "media location too long"
    validateLocations rest

/-- The media loop of `validateMedia`. -/
def validateMediaRefs : List MediaRef → Except Failure Unit
  | [] => pure ()
  | ref :: rest => do
    let _ ← Util.requireString ref.mime MAX_MIME_CHARS "media mime"
    let _ ← optionalHash ref.contentHash "media content_hash"
    require (ref.locations.length ≤ MAX_LOCATIONS_PER_MEDIA) "too many media locations"
    validateLocations ref.locations
    let _ ← optionalBytes ref.keyRef MAX_KEY_REF_BYTES "media key_ref"
    validateMediaRefs rest

/-- Validate media references (count, mime, content hash, locations, key_ref). -/
def validateMedia (media : List MediaRef) : Except Failure Unit := do
  require (media.length ≤ MAX_MEDIA_REFS) "too many media refs"
  validateMediaRefs media

/-- An envelope is bounded, and content-addressed when present. -/
def requireEnvelope (host : Host) (envelope contentHash : Bytes) : Except Failure Unit :=
  if envelope = [] then pure ()
  else do
    require (envelope.length ≤ MAX_ENVELOPE_BYTES) "envelope too large"
    let digest ← sha256 host envelope
    require (digest == contentHash) "content hash mismatch"

/-- A custom audience names its id, the others have none. -/
def requireAudienceShape (audience : AudienceKind) (audienceId : Bytes) : Except Failure Unit :=
  if audience = .custom then
    require (audienceId != []) "custom audience requires audience_id"
  else
    require (audienceId == []) "audience_id not allowed for this audience"

/-- Validate the audience id of a publication. -/
def requireAudienceId (audience : AudienceKind) (value : Bytes) : Except Failure Bytes := do
  let audienceId ← optionalBytes value MAX_AUDIENCE_ID_BYTES "audience_id"
  requireAudienceShape audience audienceId
  pure audienceId

/-- True when `actor` currently blocks `target` according to the relationships contract. -/
def isBlocked (env : Env) (state : State) (actor target : Bytes) : Except Failure Bool := do
  require (0 < (relationshipsContract state).length) "relationships contract not configured"
  requireSome (env.isBlocked (relationshipsContract state) actor target) "block check failed"

/-- Reserve an idempotency key for the author, reverting on reuse; an empty key does nothing. -/
def reserveIdempotencyKey (author : Address) (key postId : Bytes) (state : State) :
    Except Failure State :=
  if key = [] then pure state
  else do
    require (!state.idempotency.has (idempotencyKeyOf author.val key)) "duplicate idempotency key"
    pure { state with
      idempotency := state.idempotency.put (idempotencyKeyOf author.val key) postId }

/-- The capability a version needs: COMMENT for replies, and for an edit the stored thread
position decides. -/
def requiredCapability (state : State) (postId previousVersion requestedReplyTo : Bytes) :
    Except Failure ℕ :=
  if previousVersion = [] then
    pure (if requestedReplyTo = [] then Capability.PUBLISH else Capability.COMMENT)
  else do
    let existing ← requireSome (state.posts.get postId) "post not found"
    pure (if existing.replyTo = [] then Capability.PUBLISH else Capability.COMMENT)

/-- A reply needs a stored, undeleted target whose author does not block the replier. -/
def requireReplyTarget (env : Env) (author : Address) (parentId : Bytes) (state : State) :
    Except Failure Unit :=
  if parentId = [] then pure ()
  else do
    let parent ← requireSome (state.posts.get parentId) "reply target not found"
    require (parent.state != .deleted) "reply target deleted"
    if parent.author = author then pure ()
    else do
      let blocked ← isBlocked env state parent.author.val author.val
      require (!blocked) "blocked by author"

/-! ### Methods -/

def setTokenContract (host : Host) (env : Env) (args : SetContractArguments) (state : State) :
    Except Failure (State × List Event) := do
  requireAuthority env host.contractId
  let address ← Util.requireAddress args.address "token"
  pure ({ state with usage := some address }, [])

def setIdentityContract (host : Host) (env : Env) (args : SetContractArguments) (state : State) :
    Except Failure (State × List Event) := do
  requireAuthority env host.contractId
  let address ← Util.requireAddress args.address "address"
  pure ({ state with identity := some address }, [])

def setRelationshipsContract (host : Host) (env : Env) (args : SetContractArguments)
    (state : State) : Except Failure (State × List Event) := do
  requireAuthority env host.contractId
  let address ← Util.requireAddress args.address "address"
  pure ({ state with relationships := some address }, [])

/-- The first version of a post. -/
def firstVersion (host : Host) (env : Env) (author : Address) (postId contentHash : Bytes)
    (sequence : ℕ) (audience : AudienceKind) (replyTo idempotencyKey : Bytes) (state : State) :
    Except Failure (State × PostRecord) := do
  require (!state.posts.has postId) "post already exists"
  let authorState := loadAuthor state author.val
  require (sequence == authorState.nextSequence) "sequence mismatch"
  let computed ← computePostId host author.val sequence contentHash
  require (computed == postId) "post id mismatch"
  requireReplyTarget env author replyTo state
  let reserved ← reserveIdempotencyKey author idempotencyKey postId state
  let record : PostRecord :=
    ⟨author, sequence, 1, contentHash, .active, replyTo, audience, env.now, env.now⟩
  pure ((reserved.putPost postId record).putAuthor author
    { nextSequence := wrapAdd 64 authorState.nextSequence 1
      lastPublishAt := env.now
      postCount := wrapAdd 64 authorState.postCount 1 }, record)

/-- A new version of a stored post. -/
def nextVersion (env : Env) (author : Address) (postId contentHash previousVersion : Bytes)
    (audience : AudienceKind) (requestedReplyTo idempotencyKey : Bytes) (state : State) :
    Except Failure (State × PostRecord) := do
  let existing ← requireSome (state.posts.get postId) "post not found"
  require (existing.author == author) "author mismatch"
  require (existing.state != .deleted) "post deleted"
  require (previousVersion == existing.latestVersion) "stale version"
  require (audience == existing.audience) "audience change not allowed"
  require (requestedReplyTo == [] ||
    (existing.replyTo != [] && requestedReplyTo == existing.replyTo)) "reply_to change not allowed"
  let reserved ← reserveIdempotencyKey author idempotencyKey postId state
  let record := { existing with
    versionCount := wrapAdd 32 existing.versionCount 1
    latestVersion := contentHash
    updatedAt := env.now }
  pure (reserved.putPost postId record, record)

/-- The first version of a post, or the next one when a previous version is named. -/
def writeVersion (host : Host) (env : Env) (author : Address)
    (postId contentHash previousVersion : Bytes) (sequence : ℕ) (audience : AudienceKind)
    (replyTo idempotencyKey : Bytes) (state : State) : Except Failure (State × PostRecord) :=
  if previousVersion = [] then
    firstVersion host env author postId contentHash sequence audience replyTo idempotencyKey state
  else
    nextVersion env author postId contentHash previousVersion audience replyTo idempotencyKey state

def publish (host : Host) (env : Env) (args : PublishArguments) (state : State) :
    Except Failure (State × List Event) := do
  let author ← Util.requireAddress args.author "author"
  let postId ← requireHash args.postId "post_id"
  let contentHash ← requireHash args.contentHash "content_hash"
  requireEnvelope host args.envelope contentHash
  let audience ← requireSome (AudienceKind.ofWire args.audience) "unknown audience"
  let audienceId ← requireAudienceId audience args.audienceId
  validateMedia args.media
  let idempotencyKey ← optionalBytes args.idempotencyKey MAX_IDEMPOTENCY_KEY_BYTES
    "idempotency key"
  let requestedReplyTo ← optionalReference args.replyTo "reply_to"
  let capability ← requiredCapability state postId args.previousVersion requestedReplyTo
  let _ ← Actor.requireAuthorized env (identityContract state) author.val args.device capability
  let (after, record) ← writeVersion host env author postId contentHash args.previousVersion
    args.sequence audience requestedReplyTo idempotencyKey state
  consume env after author
  pure (after,
    [.published author postId contentHash args.previousVersion record.versionCount record.sequence
      audience audienceId args.epoch args.envelope args.media record.replyTo idempotencyKey
      PROTOCOL_VERSION env.now])

/-- The replacement a lifecycle state names: required for moved posts, not allowed otherwise. -/
def requireReplacement (state : LifecycleState) (replacementId postId : Bytes) :
    Except Failure Bytes :=
  if state = .migrated ∨ state = .superseded then do
    let replacement ← requireHash replacementId "replacement_id"
    require (replacement != postId) "replacement_id must differ from post_id"
    pure replacement
  else do
    require (replacementId == []) "replacement_id not allowed for this state"
    pure []

def setLifecycle (env : Env) (args : SetLifecycleArguments) (state : State) :
    Except Failure (State × List Event) := do
  let author ← Util.requireAddress args.author "author"
  let postId ← requireHash args.postId "post_id"
  let version ← requireHash args.version "version"
  let target ← requireSome (LifecycleState.ofWire args.state) "unknown lifecycle state"
  let reason ← Util.requireString args.reason MAX_REASON_CHARS "reason"
  let replacementId ← requireReplacement target args.replacementId postId
  let _ ← Actor.requireAuthorized env (identityContract state) author.val args.device
    Capability.PUBLISH
  let record ← requireSome (state.posts.get postId) "post not found"
  require (record.author == author) "author mismatch"
  require (record.latestVersion == version) "version mismatch"
  require (record.state != .deleted) "post deleted"
  pure (state.putPost postId { record with state := target, updatedAt := env.now },
    [.lifecycle author postId version target reason replacementId env.now])

/-- Only an added reaction is charged. -/
def chargeReaction (env : Env) (state : State) (actor : Address) (remove : Bool) :
    Except Failure Unit :=
  if remove then pure () else consume env state actor

def react (env : Env) (args : ReactArguments) (state : State) :
    Except Failure (State × List Event) := do
  let actor ← Util.requireAddress args.actor "actor"
  let postId ← requireHash args.postId "post_id"
  require (args.reaction != 0) "reaction is required"
  let _ ← Actor.requireAuthorized env (identityContract state) actor.val args.device
    Capability.REACT
  let record ← requireSome (state.posts.get postId) "post not found"
  require (record.state != .deleted) "post deleted"
  chargeReaction env state actor args.remove
  pure (state, [.reaction actor postId record.author args.reaction args.remove env.now])

def distributeKeys (env : Env) (args : DistributeKeysArguments) (state : State) :
    Except Failure (State × List Event) := do
  let author ← Util.requireAddress args.author "author"
  let packages ← Util.requireBytes args.packages MAX_KEY_PACKAGE_BYTES "packages"
  let audienceId ← optionalBytes args.audienceId MAX_AUDIENCE_ID_BYTES "audience_id"
  let _ ← Actor.requireAuthorized env (identityContract state) author.val args.device
    Capability.PUBLISH
  pure (state, [.keysDistributed author audienceId args.epoch packages env.now])

/-- An outcome about a post names one of the author's own, and not another than the key is bound
to. -/
def requireOutcomePost (state : State) (author : Address) (postId : Bytes)
    (bound : Option Bytes) : Except Failure Unit :=
  if postId = [] then pure ()
  else do
    let record ← requireSome (state.posts.get postId) "post not found"
    require (record.author == author) "author mismatch"
    require (bound.all fun boundPostId => boundPostId == postId)
      "idempotency key bound to another post"

def recordCrossPost (env : Env) (args : RecordCrossPostArguments) (state : State) :
    Except Failure (State × List Event) := do
  let author ← Util.requireAddress args.author "author"
  let idempotencyKey ← Util.requireBytes args.idempotencyKey MAX_IDEMPOTENCY_KEY_BYTES
    "idempotency_key"
  require (0 < Util.stringLength args.adapter) "adapter is required"
  let adapter ← Util.requireString args.adapter MAX_ADAPTER_CHARS "adapter"
  let externalRef ← Util.requireString args.externalRef MAX_EXTERNAL_REF_CHARS "external_ref"
  let manifestHash ← optionalHash args.manifestHash "manifest_hash"
  let outcome ← requireSome (OutcomeState.ofWire args.state) "unknown outcome state"
  let postId ← optionalReference args.postId "post_id"
  require (outcome != .succeeded || postId != []) "post_id is required for a succeeded outcome"
  let _ ← Actor.requireAuthorized env (identityContract state) author.val args.device
    Capability.PUBLISH
  let bound := (state.idempotency.get (idempotencyKeyOf author.val idempotencyKey)).filter
    fun boundPostId => boundPostId != []
  requireOutcomePost state author postId bound
  require (outcome != .succeeded || bound.isSome) "idempotency key not bound to a post"
  pure (state, [.crossPostOutcome author idempotencyKey adapter outcome externalRef postId
    manifestHash env.now])

/-! ### The contract as a transaction machine -/

/-- One call of a mutating method. -/
inductive Operation where
  | setTokenContract (args : SetContractArguments)
  | setIdentityContract (args : SetContractArguments)
  | setRelationshipsContract (args : SetContractArguments)
  | publish (args : PublishArguments)
  | setLifecycle (args : SetLifecycleArguments)
  | react (args : ReactArguments)
  | distributeKeys (args : DistributeKeysArguments)
  | recordCrossPost (args : RecordCrossPostArguments)

/-- A method call together with the environment it runs in. -/
structure Call where
  env : Env
  operation : Operation

/-- The block time of a call. -/
def Call.time (call : Call) : ℕ := call.env.now

def execute (host : Host) (state : State) (call : Call) : Except Failure (State × List Event) :=
  match call.operation with
  | .setTokenContract args => setTokenContract host call.env args state
  | .setIdentityContract args => setIdentityContract host call.env args state
  | .setRelationshipsContract args => setRelationshipsContract host call.env args state
  | .publish args => publish host call.env args state
  | .setLifecycle args => setLifecycle call.env args state
  | .react args => react call.env args state
  | .distributeKeys args => distributeKeys call.env args state
  | .recordCrossPost args => recordCrossPost call.env args state

def empty : State := ⟨none, none, none, ∅, ∅, ∅⟩

/-- The publications contract from its empty store. -/
def machine (host : Host) : Machine State Call (List Event) Failure := ⟨empty, execute host⟩

/-! ### Read methods -/

def getPost (state : State) (postId : Bytes) : Option PostRecord :=
  if postId = [] then none else state.posts.get postId

def getAuthorState (state : State) (author : Bytes) : AuthorState :=
  if author = [] then ⟨FIRST_SEQUENCE, 0, 0⟩ else loadAuthor state author

def getPostByIdempotencyKey (state : State) (author key : Bytes) : Option Bytes :=
  if author = [] ∨ key = [] then none else state.idempotency.get (idempotencyKeyOf author key)

end OpenSocial.Publications

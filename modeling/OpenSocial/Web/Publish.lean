/-
This file models how the web client plans a publication: who receives the key of a
friends post, whether a key is reused or made, and the operations of the transaction.

The chain and the indexer are asked; what they answer is arbitrary. Times, hex texts
and the operations' JSON are taken as they are given.
-/

import OpenSocial.Web.Keystore

namespace OpenSocial.Web

open Library Sdk

/-! ### Values -/

namespace LIMITS

def attemptIdBytes : ℕ := 16
def idempotencyKeyBytes : ℕ := 16
def maxKeyPackageBytes : ℕ := 16384

end LIMITS

/-- `RELATIONSHIP_STATUS.ACTIVE`. -/
def ACTIVE : ℕ := 2

/-- What planning throws: the composer's own messages, what a library or a request threw, and what
the SDK refuses. -/
inductive PlanFailure where
  | publish (message : String)
  | thrown (message : String)
  | sdk (error : SdkError)
  | sealing (error : Messages.MessageError)

/-- The version of a post that an edit replaces. -/
structure PublishEdit where
  postId : String
  previousVersion : String
  versionNumber : ℚ

structure PublishInput where
  chainId : String
  text : String
  audience : ℚ
  media : List MediaAttachment
  replyTo : Option String
  edit : Option PublishEdit
  attemptId : Bytes
  verifies : Bool
  lang : Option String
  createdAt : Option UInt64

/-- A member the epoch key is sealed for. -/
structure FriendRecipient where
  address : String
  publicKey : Bytes
  keyVersion : ℤ

structure PublishPlan where
  operations : List Json
  postId : Bytes
  contentHash : Bytes
  idempotencyKey : Bytes
  audience : ℚ
  epoch : ℕ
  sequence : String
  versionNumber : ℚ
  envelopeBytes : ℕ
  epochKey : Option Bytes
  recipients : List String
  skipped : List String

/-- What planning a friends post settles: the key to encrypt with, which is new or known, and the
operations that hand it out. -/
structure FriendsKey where
  epoch : ℕ
  epochKey : Bytes
  newKey : Option Bytes
  recipients : List String
  skipped : List String
  operations : List Json

/-! ### Recipients -/

abbrev Planning := Program Request Answer PlanFailure

/-- Ask a request that may throw. -/
def reading {Value : Type} (request : Request) (failure : String → PlanFailure)
    (answers : Answer request → Except String Value) : Planning Value :=
  Program.query request fun answer => (answers answer).mapError failure

def CHAIN_UNREACHABLE : String :=
  "The network could not confirm your friends list, so the post was not sent. Check the RPC " ++
    "endpoints in Settings and try again."

def UNVERIFIED_KEY : String :=
  "This account already has a reading key for the current period, but it could not be verified " ++
    "on the network. Try again when the network is reachable."

/-- The friends with a key, in order, and those without one. -/
structure Collected where
  recipients : List FriendRecipient := []
  skipped : List String := []

/-- A friend with the key the chain records. -/
def keyed (friend : String) (record : Option EncryptionRecord) : Option FriendRecipient :=
  match record with
  | none => none
  | some record =>
    if record.encryption_key.length = Sdk.LIMITS.keyBytes then
      some ⟨friend, record.encryption_key, if record.key_version = 0 then 1 else record.key_version⟩
    else none

/-- A friend joins those with a key or those without one. -/
def Collected.add (collected : Collected) (friend : String) (record : Option EncryptionRecord) :
    Collected :=
  match keyed friend record with
  | some recipient => { collected with recipients := collected.recipients ++ [recipient] }
  | none => { collected with skipped := collected.skipped ++ [friend] }

/-- The candidates that the chain confirms. -/
def confirmFriends (account : String) : Collected → List String → Planning Collected
  | collected, [] => pure collected
  | collected, friend :: others =>
    if friend = account then confirmFriends account collected others
    else do
      let status ← reading (.relationship friend) (fun _ => .publish CHAIN_UNREACHABLE) id
      if status ≠ some ACTIVE then confirmFriends account collected others
      else do
        let record ← reading (.identity friend) (fun _ => .publish CHAIN_UNREACHABLE) id
        confirmFriends account (collected.add friend record) others

/-- `collectRecipients`. -/
def collectRecipients (account : String) : Planning Collected := do
  let friends ← reading .graph (fun error => .publish
    ("Your friends list could not be loaded from the indexer (" ++ error ++
      "). The post was not sent.")) id
  confirmFriends account {} friends.eraseDups

/-! ### The key of a friends post -/

section Planning

variable (libraries : KeyLibraries) (content : Libraries) (me : KeyResolverIdentity)

/-- The reference of a friends epoch. -/
def friendsRef (account : String) (epoch : ℕ) : EpochKeyRef := ⟨account, [], epoch⟩

/-- `currentEpoch`; 0 when never rotated. -/
def currentEpoch (account : String) : Planning ℕ :=
  reading (.audience account) .thrown fun answer => answer.map fun epoch => epoch.getD 0

/-- The operations that distribute some sets. -/
def distribute (account : String) (epoch : ℕ) : List Messages.Audience.KeyPackage → Planning (List Json)
  | [] => pure []
  | package :: others => do
    let first ← reading (.distributeKeys account epoch package.bytes) .thrown id
    let rest ← distribute account epoch others
    pure (first :: rest)

/-- The options a key is sealed with for some recipients. -/
def sealingOptions (epoch : ℕ) (epochKey : Bytes) (toSeal : List FriendRecipient) :
    Messages.Audience.BuildKeyPackageSetOptions where
  author := .text (Messages.literal me.account)
  epoch := epoch
  epochKey := epochKey
  recipients := toSeal.map fun recipient =>
    ⟨.text (Messages.literal recipient.address), recipient.publicKey, recipient.keyVersion⟩

/-- The sealed copies of a key, and the operations that hand them out. -/
def sealFor (epoch : ℕ) (epochKey : Bytes) (toSeal : List FriendRecipient) :
    Planning (List Json) :=
  if toSeal = [] then pure []
  else do
    let drawn ← ask .seals
    let packages ← Program.lift ((Messages.Audience.buildKeyPackageSets libraries.crypto
      (sealingOptions me epoch epochKey toSeal) LIMITS.maxKeyPackageBytes drawn).mapError .sealing)
    distribute me.account epoch packages

/-- `newEpochKey`. -/
def newEpochKey : Planning Bytes :=
  Program.query .newEpochKey fun key =>
    if key.length ≠ Sdk.LIMITS.keyBytes then .error (.thrown "rng returned the wrong length")
    else .ok key

/-- The account itself, which gets every key it makes. -/
def selfRecipient : FriendRecipient := ⟨me.account, me.publicKey, me.keyVersion⟩

/-- The key that is used, whether it is new, and whom it is sealed for. -/
structure KeyChoice where
  epochKey : Bytes
  newKey : Option Bytes
  toSeal : List FriendRecipient

/-- The key of an entry goes to the friends who do not hold it; a new key goes to all. -/
def chooseKey (entry : Option EpochKeyEntry) (collected : Collected) : Planning KeyChoice :=
  match entry with
  | some entry => pure ⟨entry.key, none, collected.recipients.filter fun recipient =>
      !entry.recipients.contains recipient.address⟩
  | none => do
    let key ← newEpochKey
    pure ⟨key, some key, selfRecipient me :: collected.recipients⟩

/-- The friends branch of `buildPublishPlan`. -/
def friendsKey (verifies : Bool) : Planning FriendsKey := do
  let epoch ← currentEpoch me.account
  let existing ← resolveTrusted libraries me verifies (friendsRef me.account epoch)
  if existing.entry.isNone && existing.unverifiable then
    Program.lift (.error (.publish UNVERIFIED_KEY))
  else do
    let collected ← collectRecipients me.account
    let choice ← chooseKey me existing.entry collected
    let operations ← sealFor libraries me epoch choice.epochKey choice.toSeal
    pure
      { epoch := epoch
        epochKey := choice.epochKey
        newKey := choice.newKey
        recipients := (choice.toSeal.map FriendRecipient.address).filter fun address =>
          address != me.account
        skipped := collected.skipped
        operations := operations }

/-! ### Plans -/

/-- `idempotencyKey`. -/
def idempotencyKey (author : String) (attemptId : Bytes) : Except SdkError Bytes := do
  if attemptId.length ≠ LIMITS.attemptIdBytes then
    .error (.encoding "attemptId must be 16 bytes")
  else do
    let author ← addressToBytes libraries.toEncodings author
    .ok ((libraries.sha256 (Util.concat [Util.str "osp/v1/idem", author, attemptId])).take
      LIMITS.idempotencyKeyBytes)

def contentMedia (media : MediaAttachment) : MediaItem where
  content_hash := media.contentHash
  mime := media.mime
  size := media.size
  locations := [media.url]
  wrapped_key := []
  nonce := []
  alt_text := media.altText.getD ""

/-- `buildContent`. -/
def buildContent (input : PublishInput) : Content where
  version := 1
  text := input.text
  mime := "text/plain"
  media := input.media.map contentMedia
  lang := input.lang.getD ""
  created_at := input.createdAt.getD 0
  external_ref := ""

/-- The checks of what was written. -/
def checkContent (input : PublishInput) : Except PlanFailure Unit :=
  if Utf16.isBlank (Messages.literal input.text) then .error (.publish "Write something first.")
  else if Sdk.LIMITS.maxMediaRefs < input.media.length then
    .error (.publish "At most 8 media attachments per post.")
  else .ok ()

/-- The associated data of a plan. -/
def planAad (input : PublishInput) (epoch : ℕ) : AadInput where
  chainId := input.chainId
  author := me.account
  postId := (input.edit.map fun edit => bytesOf libraries.toEncodings edit.postId).getD []
  audience := input.audience
  audienceId := []
  epoch := epoch
  versionNumber := (input.edit.map PublishEdit.versionNumber).getD 1

/-- The envelope of a post, encrypted under a key or plain. -/
def sealContent (input : PublishInput) (epoch : ℕ) (epochKey : Option Bytes)
    (drawn : Bytes × Bytes × Bytes) : Except PlanFailure Bytes := do
  let envelope ← (encryptContent content
    { content := buildContent input
      aad := some (planAad libraries me input epoch)
      epochKey := epochKey
      suite := none
      contentKey := drawn.1
      nonce := drawn.2.1
      wrapNonce := drawn.2.2 }).mapError .sdk
  if Sdk.LIMITS.maxEnvelopeBytes < envelope.length then
    .error (.publish ("This post is " ++ toString envelope.length ++
      " bytes; the limit is 4096. Shorten it or remove attachments."))
  else .ok envelope

/-- The sequence number and the id of a post; an edit keeps the id. -/
def placePost (input : PublishInput) (hash : Bytes) : Planning (String × Bytes) :=
  match input.edit with
  | some edit => pure ("0", bytesOf libraries.toEncodings edit.postId)
  | none => do
    let state ← reading (.authorState me.account) .thrown id
    let sequence := if state.getD "1" = "0" then "1" else state.getD "1"
    let postId ← Program.lift ((Sdk.postId libraries.toEncodings input.chainId me.account sequence
      hash).mapError .sdk)
    pure (sequence, postId)

/-- The version an edit replaces, unless it is empty. -/
def previousVersion (input : PublishInput) : Option Bytes :=
  (input.edit.map fun edit => bytesOf libraries.toEncodings edit.previousVersion).filter
    fun bytes => decide (0 < bytes.length)

/-- The arguments of the publish operation. -/
def publishArgs (input : PublishInput) (key : Bytes) (epoch : ℕ) (envelope : Bytes)
    (place : String × Bytes) : PublishArgs where
  author := me.account
  post_id := place.2
  previous_version := previousVersion libraries input
  sequence := if input.edit.isSome then none else some place.1
  audience := input.audience
  epoch := epoch
  envelope := envelope
  content_hash := contentHash libraries.toEncodings envelope
  media := input.media
  reply_to := (input.replyTo.filter fun text => text != "").map (bytesOf libraries.toEncodings)
  idempotency_key := key

/-- A plan, once its parts are known. -/
def planOf (input : PublishInput) (key : Bytes) (friends : Option FriendsKey) (envelope : Bytes)
    (place : String × Bytes) (publish : Json) : PublishPlan where
  operations := (friends.map FriendsKey.operations).getD [] ++ [publish]
  postId := place.2
  contentHash := contentHash libraries.toEncodings envelope
  idempotencyKey := key
  audience := input.audience
  epoch := (friends.map FriendsKey.epoch).getD 0
  sequence := place.1
  versionNumber := (input.edit.map PublishEdit.versionNumber).getD 1
  envelopeBytes := envelope.length
  epochKey := friends.bind FriendsKey.newKey
  recipients := (friends.map FriendsKey.recipients).getD []
  skipped := (friends.map FriendsKey.skipped).getD []

/-- A plan, once the key is settled. -/
def planWith (input : PublishInput) (key : Bytes) (friends : Option FriendsKey) :
    Planning PublishPlan := do
  let epoch := (friends.map FriendsKey.epoch).getD 0
  let drawn ← ask .contentKeys
  let envelope ← Program.lift (sealContent libraries content me input epoch
    (friends.map FriendsKey.epochKey) drawn)
  let place ← placePost libraries me input (contentHash libraries.toEncodings envelope)
  let publish ← reading (.publish (publishArgs libraries me input key epoch envelope place))
    .thrown id
  pure (planOf libraries input key friends envelope place publish)

/-- `buildPublishPlan`. -/
def buildPublishPlan (input : PublishInput) : Planning PublishPlan := do
  let key ← Program.lift ((idempotencyKey libraries me.account input.attemptId).mapError .sdk)
  let _ ← Program.lift (checkContent input)
  if input.audience = AUDIENCE.FRIENDS then do
    let friends ← friendsKey libraries me input.verifies
    planWith libraries content me input key (some friends)
  else planWith libraries content me input key none

end Planning

end OpenSocial.Web

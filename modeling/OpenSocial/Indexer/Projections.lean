/-
This file models the indexer's projections: every `osp.*` event applied to the
query tables, in the order of the event log.

Each handler of `projections.ts` is one definition under the source's name. An
`INSERT` that updates on conflict is a put, one that does nothing on conflict is
a `putNew`, an `UPDATE` is a `modify` and a `DELETE` a `remove` or a `keep`.
Base58 and the decoding of key packages come from packages outside the
repository and are parameters.
-/

import OpenSocial.Indexer.Db
import OpenSocial.Library.Base58
import OpenSocial.Library.Projection

namespace OpenSocial.Indexer

open Library

/-- What the projections use of other packages: the Base58 text of an address, and the sealed
keys of an encoded key package set, if it decodes. -/
structure Sdk where
  toBase58 : Address → String
  parseKeyPackageSet : Bytes → Option (List SealedKey)

/-- Standard Base58, for logs without key packages. -/
def Sdk.standard : Sdk where
  toBase58 address := Base58.encode address.val
  parseKeyPackageSet := fun _ => none

theorem Sdk.standard_injective : Function.Injective Sdk.standard.toBase58 := fun first second same =>
  Subtype.ext (Base58.encode_inj (first.property.trans second.property.symm) same)

/-! ### Value helpers -/

/-- The event's own timestamp, falling back to the block timestamp for events without one. -/
def timestampOf (log : LogEvent) (own : Option ℕ) : ℕ :=
  own.getD log.blockTimestamp

/-- Canonical (sorted) pair key for relationships; addresses compare by their Base58 text. -/
def pairKey (sdk : Sdk) (x y : Address) : Address × Address :=
  if sdk.toBase58 x < sdk.toBase58 y then (x, y) else (y, x)

def nextNotificationId (db : Database) : ℕ :=
  (db.notifications.map NotificationRow.id).foldr max 0 + 1

structure NotificationInput where
  account : Address
  kind : NotificationKind
  actor : Address
  postId : Option Bytes := none
  communityId : Option Bytes := none
  data : NotificationData

/-- Nobody is notified of what they did themselves. -/
def notify (db : Database) (log : LogEvent) (ts : ℕ) (input : NotificationInput) : Database :=
  if input.account = input.actor then db
  else
    { db with
      notifications := db.notifications ++
        [⟨nextNotificationId db, input.account, input.kind, input.actor, input.postId,
          input.communityId, input.data, ts, log.height, log.txIndex, log.sequence⟩] }

/-! ### A notification writes no other table -/

section Notify

variable (db : Database) (log : LogEvent) (ts : ℕ) (input : NotificationInput)

/-- A notification changes the notifications alone. -/
theorem notify_eq : ∃ rows, notify db log ts input = { db with notifications := rows } := by
  unfold notify
  split
  · exact ⟨db.notifications, rfl⟩
  · exact ⟨_, rfl⟩

/-- Whatever is read of the database besides the notifications is as it was. -/
theorem notify_frame {Read : Type} (read : Database → Read)
    (ignores : ∀ db rows, read { db with notifications := rows } = read db) (db : Database)
    (log : LogEvent) (ts : ℕ) (input : NotificationInput) :
    read (notify db log ts input) = read db := by
  obtain ⟨rows, same⟩ := notify_eq db log ts input
  rw [same, ignores]

end Notify

/-! ### Identity -/

/-- The timestamp field of an identity event. -/
def identityTimestamp : Identity.Event → Option ℕ
  | .registered _ _ _ _ _ _ timestamp => some timestamp
  | .profileUpdated _ _ _ timestamp => some timestamp
  | .keyRotated _ _ _ _ timestamp => some timestamp
  | .deviceAuthorized _ _ _ _ _ _ timestamp => some timestamp
  | .deviceRevoked _ _ timestamp => some timestamp
  | .recoveryPolicyProposed _ _ _ => none
  | .recoveryPolicySet _ _ timestamp => some timestamp
  | .recoveryPolicyCancelled _ timestamp => some timestamp
  | .recoveryProposed _ _ _ _ _ _ timestamp => some timestamp
  | .recoveryCancelled _ timestamp => some timestamp
  | .recovered _ _ _ _ timestamp => some timestamp

/-- `UPDATE identities ... WHERE account = ?`. -/
def updateIdentity (db : Database) (account : Address) (change : IdentityRow → IdentityRow) :
    Database :=
  { db with identities := db.identities.modify account change }

def applyIdentity (db : Database) (log : LogEvent) (data : Identity.Event) : Database :=
  let ts := timestampOf log (identityTimestamp data)
  match data with
  | .registered account encryptionKey keyVersion profileHash profileUri protocolVersion _ =>
    { db with
      identities := db.identities.put account
        ⟨account, encryptionKey, keyVersion, profileHash, profileUri, protocolVersion, 0, ts, ts,
          none, none, none⟩ }
  | .profileUpdated account profileHash profileUri _ =>
    updateIdentity db account fun row =>
      { row with profileHash := profileHash, profileUri := profileUri, updatedAt := ts }
  | .keyRotated account _ encryptionKey keyVersion _ =>
    updateIdentity db account fun row =>
      { row with encryptionKey := encryptionKey, keyVersion := keyVersion, updatedAt := ts }
  | .deviceAuthorized account device capabilities expiresAt label deviceEpoch _ =>
    notify
      { db with
        devices := db.devices.put (account, device)
          ⟨capabilities, expiresAt, deviceEpoch, false, label, ts, ts⟩ }
      log ts
      { account := account, kind := .device, actor := device,
        data := .deviceAuthorized device capabilities expiresAt label }
  | .deviceRevoked account device _ =>
    notify
      { db with
        devices := db.devices.modify (account, device) fun row =>
          { row with revoked := true, updatedAt := ts } }
      log ts { account := account, kind := .device, actor := device, data := .deviceRevoked device }
  | .recoveryPolicyProposed account policy effectiveAt =>
    updateIdentity db account fun row =>
      { row with pendingPolicy := some ⟨policy, effectiveAt⟩, updatedAt := ts }
  | .recoveryPolicySet account policy _ =>
    updateIdentity db account fun row =>
      { row with recoveryPolicy := some policy, pendingPolicy := none, updatedAt := ts }
  | .recoveryPolicyCancelled account _ =>
    updateIdentity db account fun row => { row with pendingPolicy := none, updatedAt := ts }
  | .recoveryProposed account guardian newOwner approvals threshold effectiveAt _ =>
    let pending : PendingRecoveryView := ⟨newOwner, guardian, approvals, threshold, effectiveAt, ts⟩
    notify
      (updateIdentity db account fun row =>
        { row with pendingRecovery := some pending, updatedAt := ts })
      log ts
      { account := account, kind := .recovery, actor := guardian, data := .recoveryProposed pending }
  | .recoveryCancelled account _ =>
    updateIdentity db account fun row => { row with pendingRecovery := none, updatedAt := ts }
  | .recovered account previousOwner newOwner deviceEpoch _ =>
    notify
      (updateIdentity db account fun row =>
        { row with owner := newOwner, deviceEpoch := deviceEpoch, pendingRecovery := none,
                   updatedAt := ts })
      log ts
      { account := account, kind := .recovery, actor := newOwner,
        data := .recoveryExecuted previousOwner newOwner deviceEpoch }

/-- An identity event writes the accounts, the devices and the notifications alone. -/
theorem applyIdentity_eq (db : Database) (log : LogEvent) (data : Identity.Event) :
    ∃ identities devices notifications, applyIdentity db log data =
      { db with identities := identities, devices := devices, notifications := notifications } := by
  cases data with
  | deviceAuthorized account device capabilities expiresAt label deviceEpoch timestamp =>
    obtain ⟨rows, notified⟩ := notify_eq _ log _ _
    exact ⟨_, _, rows, notified⟩
  | deviceRevoked account device timestamp =>
    obtain ⟨rows, notified⟩ := notify_eq _ log _ _
    exact ⟨_, _, rows, notified⟩
  | recoveryProposed account guardian newOwner approvals threshold effectiveAt timestamp =>
    obtain ⟨rows, notified⟩ := notify_eq _ log _ _
    exact ⟨_, _, rows, notified⟩
  | recovered account previousOwner newOwner deviceEpoch timestamp =>
    obtain ⟨rows, notified⟩ := notify_eq _ log _ _
    exact ⟨_, _, rows, notified⟩
  | _ => exact ⟨_, _, _, rfl⟩

/-! ### Relationships -/

/-- The timestamp field of a relationships event. -/
def relationshipsTimestamp : Relationships.Event → ℕ
  | .friendRequested _ _ _ timestamp => timestamp
  | .friendAccepted _ _ _ _ timestamp => timestamp
  | .friendRemoved _ _ _ _ timestamp => timestamp
  | .blocked _ _ _ timestamp => timestamp
  | .unblocked _ _ timestamp => timestamp
  | .followed _ _ timestamp => timestamp
  | .unfollowed _ _ timestamp => timestamp
  | .audienceRotated _ _ _ timestamp => timestamp

def getRelationship (sdk : Sdk) (db : Database) (x y : Address) : Option RelationshipRow :=
  db.relationships.get (pairKey sdk x y)

def upsertRelationship (db : Database) (key : Address × Address) (row : RelationshipRow) :
    Database :=
  { db with relationships := db.relationships.put key row }

/-- Mirrors the contract: a pending or active edge becomes inactive and its nonce advances. -/
def endRelationship (sdk : Sdk) (db : Database) (actor target : Address) (ts : ℕ) : Database :=
  match getRelationship sdk db actor target with
  | none => db
  | some existing =>
    if existing.status = .pending ∨ existing.status = .active then
      upsertRelationship db (pairKey sdk actor target)
        { existing with status := .inactive, nonce := existing.nonce + 1, updatedAt := ts }
    else db

def applyRelationships (sdk : Sdk) (db : Database) (log : LogEvent) (data : Relationships.Event) :
    Database :=
  let ts := timestampOf log (some (relationshipsTimestamp data))
  match data with
  | .friendRequested requester recipient nonce _ =>
    notify
      (upsertRelationship db (pairKey sdk requester recipient)
        ⟨.pending, some requester, nonce, ts, 0, ts⟩)
      log ts
      { account := recipient, kind := .friendRequest, actor := requester,
        data := .friendRequested nonce }
  | .friendAccepted approver requester nonce keyPackageRef _ =>
    let existing := getRelationship sdk db approver requester
    notify
      (upsertRelationship db (pairKey sdk approver requester)
        ⟨.active, some requester, nonce, existing.elim ts RelationshipRow.requestedAt, ts, ts⟩)
      log ts
      { account := requester, kind := .friendAccepted, actor := approver,
        data := .friendAccepted nonce keyPackageRef }
  | .friendRemoved actor peer nonce _ _ =>
    let existing := getRelationship sdk db actor peer
    upsertRelationship db (pairKey sdk actor peer)
      ⟨.inactive, existing.bind RelationshipRow.requester, nonce,
        existing.elim 0 RelationshipRow.requestedAt, existing.elim 0 RelationshipRow.since, ts⟩
  | .blocked actor target _ _ =>
    let ended := endRelationship sdk
      { db with blocksList := db.blocksList.put (actor, target) ⟨ts⟩ } actor target ts
    { ended with follows := (ended.follows.remove (actor, target)).remove (target, actor) }
  | .unblocked actor target _ => { db with blocksList := db.blocksList.remove (actor, target) }
  | .followed follower target _ => { db with follows := db.follows.put (follower, target) ⟨ts⟩ }
  | .unfollowed follower target _ => { db with follows := db.follows.remove (follower, target) }
  | .audienceRotated account newEpoch reason _ =>
    { db with audiences := db.audiences.put (account, newEpoch) ⟨ts, reason, log.height⟩ }

theorem endRelationship_eq (sdk : Sdk) (db : Database) (actor target : Address) (ts : ℕ) :
    ∃ relationships, endRelationship sdk db actor target ts =
      { db with relationships := relationships } := by
  unfold endRelationship
  split
  · exact ⟨_, rfl⟩
  · split
    · exact ⟨_, rfl⟩
    · exact ⟨_, rfl⟩

/-- A relationships event writes the tables of the graph and the notifications alone. -/
theorem applyRelationships_eq (sdk : Sdk) (db : Database) (log : LogEvent)
    (data : Relationships.Event) :
    ∃ relationships blocksList follows audiences notifications,
      applyRelationships sdk db log data =
        { db with relationships := relationships, blocksList := blocksList, follows := follows,
                  audiences := audiences, notifications := notifications } := by
  cases data with
  | friendRequested requester recipient nonce timestamp =>
    obtain ⟨rows, notified⟩ := notify_eq _ log _ _
    exact ⟨_, _, _, _, rows, notified⟩
  | friendAccepted approver requester nonce keyPackageRef timestamp =>
    obtain ⟨rows, notified⟩ := notify_eq _ log _ _
    exact ⟨_, _, _, _, rows, notified⟩
  | blocked actor target newEpoch timestamp =>
    simp only [applyRelationships]
    obtain ⟨rows, ended⟩ := endRelationship_eq sdk
      { db with
        blocksList := db.blocksList.put (actor, target)
          ⟨timestampOf log (some (relationshipsTimestamp (.blocked actor target newEpoch timestamp)))⟩ }
      actor target
      (timestampOf log (some (relationshipsTimestamp (.blocked actor target newEpoch timestamp))))
    rw [ended]
    exact ⟨_, _, _, _, _, rfl⟩
  | _ => exact ⟨_, _, _, _, _, rfl⟩

/-! ### Publications -/

/-- The timestamp field of a publications event. -/
def publicationsTimestamp : Publications.Event → ℕ
  | .published _ _ _ _ _ _ _ _ _ _ _ _ _ _ timestamp => timestamp
  | .lifecycle _ _ _ _ _ _ timestamp => timestamp
  | .reaction _ _ _ _ _ timestamp => timestamp
  | .keysDistributed _ _ _ _ timestamp => timestamp
  | .crossPostOutcome _ _ _ _ _ _ _ timestamp => timestamp

/-- The version number of an event, where zero stands for one. -/
def versionNumberOf (versionNumber : ℕ) : ℕ :=
  if versionNumber = 0 then 1 else versionNumber

/-- The author of the answered post hears of a new reply. -/
def notifyReply (db : Database) (log : LogEvent) (ts : ℕ) (author : Address)
    (postId replyTo : Bytes) : Database :=
  if replyTo = [] then db
  else
    match db.posts.get replyTo with
    | none => db
    | some parent =>
      notify db log ts
        { account := parent.author, kind := .reply, actor := author, postId := some replyTo,
          data := .reply postId }

/-- The index-th sealed key of a key package set; recipients that are no address are skipped. -/
def applySealedKey (log : LogEvent) (ts : ℕ) (author : Address) (audienceId : Bytes) (epoch : ℕ)
    (db : Database) (entry : SealedKey × ℕ) : Database :=
  let (key, index) := entry
  if length : key.recipient.length = 25 then
    let recipient : Address := ⟨key.recipient, length⟩
    notify
      { db with
        keyPackages := db.keyPackages.putNew (log.position, index)
          ⟨author, audienceId, epoch, recipient, key.recipientKeyVersion, key, log.txId, ts⟩ }
      log ts
      { account := recipient, kind := .keys, actor := author, data := .keys audienceId epoch }
  else db

def applyPublications (sdk : Sdk) (db : Database) (log : LogEvent) (data : Publications.Event) :
    Database :=
  let ts := timestampOf log (some (publicationsTimestamp data))
  match data with
  | .published author postId contentHash previousVersion version sequence audience audienceId epoch
      envelope media replyTo idempotencyKey protocolVersion _ =>
    let versionNumber := versionNumberOf version
    let versions := db.postVersions.put (postId, versionNumber)
      ⟨contentHash, previousVersion, envelope, media, log.txId, log.height, ts⟩
    match db.posts.get postId with
    | none =>
      notifyReply
        { db with
          posts := db.posts.put postId
            ⟨author, sequence, versionNumber, contentHash, previousVersion, audience, audienceId,
              epoch, envelope, media, replyTo, idempotencyKey, protocolVersion, .active, "", [], ts,
              ts, log.txId, log.height, log.txIndex, log.sequence⟩
          postVersions := versions }
        log ts author postId replyTo
    | some _ =>
      { db with
        posts := db.posts.modify postId fun row =>
          { row with versionNumber := versionNumber, contentHash := contentHash,
                     previousVersion := previousVersion, epoch := epoch, envelope := envelope,
                     media := media, updatedAt := ts }
        postVersions := versions }
  | .lifecycle _ postId _ state reason replacementId _ =>
    { db with
      posts := db.posts.modify postId fun row =>
        if row.state = .deleted then row
        else { row with state := state, stateReason := reason, replacementId := replacementId,
                        updatedAt := ts } }
  | .reaction actor postId postAuthor reaction removed _ =>
    if removed then { db with reactions := db.reactions.remove (postId, actor, reaction) }
    else
      notify
        { db with
          reactions := db.reactions.put (postId, actor, reaction) ⟨ts, log.height, log.txId⟩ }
        log ts
        { account := postAuthor, kind := .reaction, actor := actor, postId := some postId,
          data := .reaction reaction }
  | .keysDistributed author audienceId epoch packages _ =>
    match sdk.parseKeyPackageSet packages with
    | none => db
    | some keys => keys.zipIdx.foldl (applySealedKey log ts author audienceId epoch) db
  | .crossPostOutcome author idempotencyKey adapter state externalRef postId manifestHash _ =>
    { db with
      crossPosts := db.crossPosts.put (author, idempotencyKey, adapter)
        ⟨state, externalRef, postId, manifestHash, ts, log.height, log.txId⟩ }

theorem notifyReply_eq (db : Database) (log : LogEvent) (ts : ℕ) (author : Address)
    (postId replyTo : Bytes) :
    ∃ rows, notifyReply db log ts author postId replyTo = { db with notifications := rows } := by
  unfold notifyReply
  split
  · exact ⟨_, rfl⟩
  · split
    · exact ⟨_, rfl⟩
    · exact notify_eq db log ts _

theorem applySealedKey_eq (log : LogEvent) (ts : ℕ) (author : Address) (audienceId : Bytes)
    (epoch : ℕ) (db : Database) (entry : SealedKey × ℕ) :
    ∃ keyPackages notifications, applySealedKey log ts author audienceId epoch db entry =
      { db with keyPackages := keyPackages, notifications := notifications } := by
  obtain ⟨key, index⟩ := entry
  by_cases length : key.recipient.length = 25
  · obtain ⟨rows, notified⟩ := notify_eq _ log ts _
    simp only [applySealedKey, dif_pos length]
    exact ⟨_, rows, notified⟩
  · simp only [applySealedKey, dif_neg length]
    exact ⟨_, _, rfl⟩

/-- Key packages write no table of the posts. -/
theorem foldl_applySealedKey_eq (log : LogEvent) (ts : ℕ) (author : Address) (audienceId : Bytes)
    (epoch : ℕ) (db : Database) (entries : List (SealedKey × ℕ)) :
    ∃ keyPackages notifications,
      entries.foldl (applySealedKey log ts author audienceId epoch) db =
        { db with keyPackages := keyPackages, notifications := notifications } := by
  induction entries generalizing db with
  | nil => exact ⟨_, _, rfl⟩
  | cons entry entries inductionHypothesis =>
    obtain ⟨_, _, applied⟩ := applySealedKey_eq log ts author audienceId epoch db entry
    rw [List.foldl_cons, applied]
    obtain ⟨keyPackages, notifications, rest⟩ := inductionHypothesis _
    exact ⟨keyPackages, notifications, rest⟩

/-- A publications event writes the tables of the posts and the notifications alone. -/
theorem applyPublications_eq (sdk : Sdk) (db : Database) (log : LogEvent)
    (data : Publications.Event) :
    ∃ posts postVersions reactions keyPackages crossPosts notifications,
      applyPublications sdk db log data =
        { db with posts := posts, postVersions := postVersions, reactions := reactions,
                  keyPackages := keyPackages, crossPosts := crossPosts,
                  notifications := notifications } := by
  cases data with
  | published author postId contentHash previousVersion version sequence audience audienceId epoch
      envelope media replyTo idempotencyKey protocolVersion timestamp =>
    dsimp only [applyPublications]
    split
    · obtain ⟨rows, notified⟩ := notifyReply_eq _ log _ author postId replyTo
      exact ⟨_, _, _, _, _, rows, notified⟩
    · exact ⟨_, _, _, _, _, _, rfl⟩
  | reaction actor postId postAuthor reaction removed timestamp =>
    dsimp only [applyPublications]
    split
    · exact ⟨_, _, _, _, _, _, rfl⟩
    · obtain ⟨rows, notified⟩ := notify_eq _ log _ _
      exact ⟨_, _, _, _, _, rows, notified⟩
  | keysDistributed author audienceId epoch packages timestamp =>
    dsimp only [applyPublications]
    split
    · exact ⟨_, _, _, _, _, _, rfl⟩
    · obtain ⟨packages, rows, folded⟩ := foldl_applySealedKey_eq log _ author audienceId epoch db _
      exact ⟨_, _, _, packages, _, rows, folded⟩
  | _ => exact ⟨_, _, _, _, _, _, rfl⟩

/-! ### Communities -/

/-- The timestamp field of a communities event. -/
def communitiesTimestamp : Communities.Event → Option ℕ
  | .communityCreated _ _ _ _ _ _ timestamp => some timestamp
  | .roleSet _ _ _ _ _ _ timestamp => some timestamp
  | .policySet _ _ _ _ timestamp => some timestamp
  | .ownerTransferProposed _ _ _ _ => none
  | .ownerTransferCancelled _ timestamp => some timestamp
  | .ownerTransferred _ _ _ timestamp => some timestamp
  | .labelSet _ _ _ _ _ timestamp => some timestamp

/-- `UPDATE communities ... WHERE id = ?`. -/
def updateCommunity (db : Database) (id : Bytes) (change : CommunityRow → CommunityRow) :
    Database :=
  { db with communities := db.communities.modify id change }

/-- The roles table after a role event: role none deletes the row. -/
def setRoleRow (roles : Store (Bytes × Address) RoleRow) (communityId : Bytes) (subject : Address)
    (row : RoleRow) : Store (Bytes × Address) RoleRow :=
  if row.role = .none then roles.remove (communityId, subject)
  else roles.put (communityId, subject) row

/-- The author of a labelled post hears of the label, if the post is known. -/
def notifyLabel (db : Database) (log : LogEvent) (ts : ℕ) (communityId : Bytes) (actor : Address)
    (postId : Bytes) (label reason : String) : Database :=
  match db.posts.get postId with
  | none => db
  | some post =>
    notify db log ts
      { account := post.author, kind := .label, actor := actor, postId := some postId,
        communityId := some communityId, data := .label label reason }

theorem notifyLabel_frame {Read : Type} (read : Database → Read)
    (ignores : ∀ db rows, read { db with notifications := rows } = read db) (db : Database)
    (log : LogEvent) (ts : ℕ) (communityId : Bytes) (actor : Address) (postId : Bytes)
    (label reason : String) :
    read (notifyLabel db log ts communityId actor postId label reason) = read db := by
  unfold notifyLabel
  split
  · rfl
  · exact notify_frame read ignores db log ts _

def applyCommunities (db : Database) (log : LogEvent) (data : Communities.Event) : Database :=
  let ts := timestampOf log (communitiesTimestamp data)
  match data with
  | .communityCreated id owner name policyHash policyUri transferDelayMs _ =>
    { db with
      communities := db.communities.put id
        ⟨owner, name, policyHash, policyUri, transferDelayMs, none, 0, ts, ts⟩ }
  | .roleSet communityId actor subject role scope expiresAt _ =>
    let written :=
      { db with roles := setRoleRow db.roles communityId subject ⟨role, scope, expiresAt, actor, ts⟩ }
    notify (updateCommunity written communityId fun row => { row with updatedAt := ts }) log ts
      { account := subject, kind := .role, actor := actor, communityId := some communityId,
        data := .role role scope expiresAt }
  | .policySet communityId _ policyHash policyUri _ =>
    updateCommunity db communityId fun row =>
      { row with policyHash := policyHash, policyUri := policyUri, updatedAt := ts }
  | .ownerTransferProposed communityId _ newOwner effectiveAt =>
    updateCommunity db communityId fun row =>
      { row with pendingOwner := some newOwner, transferEffectiveAt := effectiveAt,
                 updatedAt := ts }
  | .ownerTransferCancelled communityId _ =>
    updateCommunity db communityId fun row =>
      { row with pendingOwner := none, transferEffectiveAt := 0, updatedAt := ts }
  | .ownerTransferred communityId _ newOwner _ =>
    updateCommunity db communityId fun row =>
      { row with owner := newOwner, pendingOwner := none, transferEffectiveAt := 0,
                 updatedAt := ts }
  | .labelSet communityId actor postId label reason _ =>
    notifyLabel
      { db with
        labels := db.labels.putNew log.position
          ⟨communityId, postId, label, reason, actor, ts, log.txId⟩ }
      log ts communityId actor postId label reason

/-- A communities event writes the tables of the communities and the notifications alone. -/
theorem applyCommunities_eq (db : Database) (log : LogEvent) (data : Communities.Event) :
    ∃ communities roles labels notifications, applyCommunities db log data =
      { db with communities := communities, roles := roles, labels := labels,
                notifications := notifications } := by
  cases data with
  | roleSet communityId actor subject role scope expiresAt timestamp =>
    obtain ⟨rows, notified⟩ := notify_eq _ log _ _
    exact ⟨_, _, _, rows, notified⟩
  | labelSet communityId actor postId label reason timestamp =>
    dsimp only [applyCommunities]
    unfold notifyLabel
    split
    · exact ⟨_, _, _, _, rfl⟩
    · obtain ⟨rows, notified⟩ := notify_eq _ log _ _
      exact ⟨_, _, _, rows, notified⟩
  | _ => exact ⟨_, _, _, _, rfl⟩

/-! ### Registry -/

/-- The timestamp field of a registry event. -/
def registryTimestamp : Registry.Event → Option ℕ
  | .contractProposed _ _ _ _ _ => none
  | .contractActivated _ _ _ timestamp => some timestamp
  | .contractCancelled _ timestamp => some timestamp
  | .contractDeprecated _ _ _ timestamp => some timestamp
  | .adminProposed _ _ => none
  | .adminChanged _ _ timestamp => some timestamp

/-- The row an upsert writes over an existing one: an empty ABI hash keeps the old one. -/
def upsertedRow (existing : Option RegistryRow) (abiHash : Bytes)
    (status : Registry.ContractStatus) (effectiveAt ts : ℕ) : RegistryRow :=
  match existing with
  | none => ⟨abiHash, status, effectiveAt, "", ts⟩
  | some row =>
    { row with abiHash := if abiHash = [] then row.abiHash else abiHash, status := status,
               effectiveAt := effectiveAt, updatedAt := ts }

/-- `upsert`: the row of a contract version, under name, address and version. -/
def upsertEntry (db : Database) (name : String) (address : Address) (version : ℕ)
    (abiHash : Bytes) (status : Registry.ContractStatus) (effectiveAt ts : ℕ) : Database :=
  { db with
    registryEntries := db.registryEntries.put (name, address, version)
      (upsertedRow (db.registryEntries.get (name, address, version)) abiHash status effectiveAt
        ts) }

/-- `DELETE FROM registry_entries WHERE name = ? AND status = 0`. -/
def deleteProposed (db : Database) (name : String) : Database :=
  { db with
    registryEntries := db.registryEntries.keep fun key row =>
      !(key.1 == name && row.status == .proposed) }

def applyRegistry (db : Database) (log : LogEvent) (data : Registry.Event) : Database :=
  let ts := timestampOf log (registryTimestamp data)
  match data with
  | .contractProposed name address version abiHash effectiveAt =>
    upsertEntry db name address version abiHash .proposed effectiveAt ts
  | .contractActivated name address version _ =>
    upsertEntry db name address version [] .active ts ts
  | .contractCancelled name _ =>
    deleteProposed db name
  | .contractDeprecated name address version _ =>
    upsertEntry db name address version [] .deprecated ts ts
  | .adminProposed newAdmin effectiveAt =>
    { db with registryPendingAdmin := some ⟨newAdmin, effectiveAt⟩ }
  | .adminChanged _ newAdmin _ =>
    { db with registryAdmin := some newAdmin, registryPendingAdmin := none }

/-- A registry event writes the tables of the registry alone. -/
theorem applyRegistry_eq (db : Database) (log : LogEvent) (data : Registry.Event) :
    ∃ entries admin pending, applyRegistry db log data =
      { db with registryEntries := entries, registryAdmin := admin,
                registryPendingAdmin := pending } := by
  cases data with
  | _ => exact ⟨_, _, _, rfl⟩

/-! ### Messaging and token -/

def applyMessaging (db : Database) (log : LogEvent) (data : Messaging.Event) : Database :=
  match data with
  | .conversationChanged value _ =>
    { db with
      conversations := db.conversations.put (value.a, value.b) ⟨value, value.updatedAt⟩ }
  | .messageSent value envelope _ =>
    { db with
      directMessages := db.directMessages.putNew (value.sender, value.messageId)
        ⟨value.recipient, value.sequence, value, envelope, log.height, log.txId⟩ }

/-- Who an activity row is about: the event's `actor` or `from`, and its `recipient` or `to`. -/
def tokenParties : Token.Event → Option Address × Option Address
  | .supported actor recipient _ _ _ => (some actor, some recipient)
  | .transfer sender recipient _ _ => (some sender, some recipient)
  | .burn sender _ _ => (some sender, none)
  | .policyChanged _ _ _ _ => (none, none)
  | .accountUpdated _ _ _ => (none, none)

def applyToken (db : Database) (log : LogEvent) (data : Token.Event) : Database :=
  match data with
  | .accountUpdated account value _ =>
    { db with tokenAccounts := db.tokenAccounts.put account value }
  | other =>
    { db with
      tokenActivity := db.tokenActivity.putNew log.position
        ⟨(tokenParties other).1, (tokenParties other).2, other, log.txId⟩ }

/-- A messaging event writes the conversations and the messages alone. -/
theorem applyMessaging_eq (db : Database) (log : LogEvent) (data : Messaging.Event) :
    ∃ conversations directMessages, applyMessaging db log data =
      { db with conversations := conversations, directMessages := directMessages } := by
  cases data with
  | conversationChanged value timestamp => exact ⟨_, _, rfl⟩
  | messageSent value envelope timestamp => exact ⟨_, _, rfl⟩

/-- A token event writes the token accounts and their activity alone. -/
theorem applyToken_eq (db : Database) (log : LogEvent) (data : Token.Event) :
    ∃ tokenAccounts tokenActivity, applyToken db log data =
      { db with tokenAccounts := tokenAccounts, tokenActivity := tokenActivity } := by
  cases data with
  | _ => exact ⟨_, _, rfl⟩

/-! ### Sponsorship -/

/-- The timestamp field of a sponsorship event. -/
def sponsorshipTimestamp : SponsorshipEvent → ℕ
  | .sponsorSet _ _ _ _ timestamp => timestamp
  | .sponsorDeactivated _ timestamp => timestamp
  | .userGrantSet _ _ _ _ timestamp => timestamp
  | .userGrantRevoked _ _ timestamp => timestamp

def applySponsorship (db : Database) (log : LogEvent) (data : SponsorshipEvent) : Database :=
  let ts := timestampOf log (some (sponsorshipTimestamp data))
  match data with
  | .sponsorSet sponsor endpoint policyVersion active _ =>
    { db with
      sponsors := db.sponsors.put sponsor
        ⟨endpoint, policyVersion, active, (db.sponsors.get sponsor).elim ts SponsorRow.registeredAt,
          ts⟩ }
  | .sponsorDeactivated sponsor _ =>
    { db with
      sponsors := db.sponsors.modify sponsor fun row =>
        { row with active := false, updatedAt := ts } }
  | .userGrantSet sponsor user dailyOps expiresAt _ =>
    { db with
      userGrants := db.userGrants.put (sponsor, user) ⟨dailyOps, expiresAt, false, ts⟩ }
  | .userGrantRevoked sponsor user _ =>
    { db with
      userGrants := db.userGrants.modify (sponsor, user) fun row =>
        { row with revoked := true, updatedAt := ts } }

/-- A sponsorship event writes the tables of the sponsors alone. -/
theorem applySponsorship_eq (db : Database) (log : LogEvent) (data : SponsorshipEvent) :
    ∃ sponsors userGrants, applySponsorship db log data =
      { db with sponsors := sponsors, userGrants := userGrants } := by
  cases data with
  | _ => exact ⟨_, _, rfl⟩

/-! ### Dispatch and replay -/

/-- Applies one decoded event to the projections. -/
def applyEvent (sdk : Sdk) (db : Database) (log : LogEvent) : Database :=
  match log.event with
  | .identity data => applyIdentity db log data
  | .relationships data => applyRelationships sdk db log data
  | .publications data => applyPublications sdk db log data
  | .communities data => applyCommunities db log data
  | .registry data => applyRegistry db log data
  | .messaging data => applyMessaging db log data
  | .token data => applyToken db log data
  | .sponsorship data => applySponsorship db log data

/-- The log of a single event is applied by its handler. -/
theorem foldl_applyEvent_singleton (sdk : Sdk) (db : Database) {records : List LogEvent}
    {event : ProtocolEvent} (logs : records.map LogEvent.event = [event]) :
    ∃ log, log.event = event ∧ records.foldl (applyEvent sdk) db = applyEvent sdk db log := by
  obtain ⟨log, rfl, carried⟩ := List.map_eq_singleton_iff.mp logs
  exact ⟨log, carried, rfl⟩

/-- The log of several events is applied one event after another. -/
theorem foldl_applyEvent_cons (sdk : Sdk) (db : Database) {records : List LogEvent}
    {event : ProtocolEvent} {events : List ProtocolEvent}
    (logs : records.map LogEvent.event = event :: events) :
    ∃ (log : LogEvent) (rest : List LogEvent), log.event = event ∧
      rest.map LogEvent.event = events ∧
      records.foldl (applyEvent sdk) db = rest.foldl (applyEvent sdk) (applyEvent sdk db log) := by
  obtain ⟨log, rest, rfl, carried, others⟩ := List.map_eq_cons_iff.mp logs
  exact ⟨log, rest, carried, others, rfl⟩

/-- What every event of a log keeps, the whole log keeps. -/
theorem foldl_applyEvent_keeps (sdk : Sdk) (kept : Database → Prop) {db : Database}
    {records : List LogEvent} (holds : kept db)
    (keeps : ∀ log ∈ records, ∀ db, kept db → kept (applyEvent sdk db log)) :
    kept (records.foldl (applyEvent sdk) db) := by
  induction records generalizing db with
  | nil => exact holds
  | cons log rest inductionHypothesis =>
    exact inductionHypothesis (keeps log List.mem_cons_self db holds)
      fun other member => keeps other (List.mem_cons_of_mem log member)

/-- `replayProjections`: the whole log applied to empty tables. -/
def replayProjections (sdk : Sdk) (records : List LogEvent) : Database :=
  records.foldl (applyEvent sdk) .empty

/-- A log of a list of events, all in the first block. -/
def logOf (events : List ProtocolEvent) : List LogEvent :=
  events.zipIdx.map fun (event, sequence) => ⟨1, 0, 0, sequence, "", event⟩

@[simp] theorem map_event_logOf (events : List ProtocolEvent) :
    (logOf events).map LogEvent.event = events := by
  rw [logOf, List.map_map]
  exact List.zipIdx_map_fst 0 events

end OpenSocial.Indexer

/-
This file models the indexer's query tables and the event log they are computed
from.

A table is a store keyed by its primary key, and a row holds the remaining
columns. A text column that encodes bytes or an address holds those bytes, an
empty text holds nothing, and a JSON column holds the value it is the text of.
The two meta entries of the registry projection are fields of the database.
-/

import OpenSocial.Communities.Contract
import OpenSocial.Identity.Contract
import OpenSocial.Messaging.Contract
import OpenSocial.Publications.Contract
import OpenSocial.Registry.Contract
import OpenSocial.Relationships.Contract
import OpenSocial.Token.Contract

namespace OpenSocial.Indexer

open Library

/-! ### The event log -/

/-- The events of the sponsorship contract. -/
inductive SponsorshipEvent where
  | sponsorSet (sponsor : Address) (endpoint : String) (policyVersion : ℕ) (active : Bool)
      (timestamp : ℕ)
  | sponsorDeactivated (sponsor : Address) (timestamp : ℕ)
  | userGrantSet (sponsor user : Address) (dailyOps expiresAt timestamp : ℕ)
  | userGrantRevoked (sponsor user : Address) (timestamp : ℕ)
  deriving DecidableEq, Repr

/-- A decoded `osp.*` event of one of the contracts. -/
inductive ProtocolEvent where
  | identity (data : Identity.Event)
  | relationships (data : Relationships.Event)
  | publications (data : Publications.Event)
  | communities (data : Communities.Event)
  | registry (data : Registry.Event)
  | messaging (data : Messaging.Event)
  | token (data : Token.Event)
  | sponsorship (data : SponsorshipEvent)
  deriving DecidableEq, Repr

/-- One row of the event log: the event and where in the chain it was emitted. -/
structure LogEvent where
  height : ℕ
  blockTimestamp : ℕ
  txIndex : ℕ
  sequence : ℕ
  txId : String
  event : ProtocolEvent
  deriving DecidableEq, Repr

/-- The canonical position of a log row. -/
def LogEvent.position (log : LogEvent) : ℕ × ℕ × ℕ :=
  (log.height, log.txIndex, log.sequence)

/-! ### Identity rows -/

/-- The JSON of `pending_recovery_json`. -/
structure PendingRecoveryView where
  newOwner : Address
  guardian : Address
  approvals : ℕ
  threshold : ℕ
  effectiveAt : ℕ
  proposedAt : ℕ
  deriving DecidableEq, Repr

structure IdentityRow where
  owner : Address
  encryptionKey : Bytes
  keyVersion : ℕ
  profileHash : Bytes
  profileUri : String
  protocolVersion : ℕ
  deviceEpoch : ℕ
  registeredAt : ℕ
  updatedAt : ℕ
  recoveryPolicy : Option Identity.RecoveryPolicy
  pendingPolicy : Option Identity.PendingPolicy
  pendingRecovery : Option PendingRecoveryView
  deriving DecidableEq, Repr

structure DeviceRow where
  capabilities : ℕ
  expiresAt : ℕ
  deviceEpoch : ℕ
  revoked : Bool
  label : String
  authorizedAt : ℕ
  updatedAt : ℕ
  deriving DecidableEq, Repr

/-! ### Relationship rows -/

/-- An edge without a known requester has none. -/
structure RelationshipRow where
  status : Relationships.RelationshipStatus
  requester : Option Address
  nonce : ℕ
  requestedAt : ℕ
  since : ℕ
  updatedAt : ℕ
  deriving DecidableEq, Repr

/-- The rows of `blocks_list` and `follows`. -/
structure SinceRow where
  since : ℕ
  deriving DecidableEq, Repr

structure AudienceRow where
  since : ℕ
  reason : String
  height : ℕ
  deriving DecidableEq, Repr

/-! ### Publication rows -/

structure PostRow where
  author : Address
  sequence : ℕ
  versionNumber : ℕ
  contentHash : Bytes
  previousVersion : Bytes
  audience : AudienceKind
  audienceId : Bytes
  epoch : ℕ
  envelope : Bytes
  media : List Publications.MediaRef
  replyTo : Bytes
  idempotencyKey : Bytes
  protocolVersion : ℕ
  state : LifecycleState
  stateReason : String
  replacementId : Bytes
  createdAt : ℕ
  updatedAt : ℕ
  txId : String
  blockHeight : ℕ
  txIndex : ℕ
  eventSequence : ℕ
  deriving DecidableEq, Repr

structure PostVersionRow where
  contentHash : Bytes
  previousVersion : Bytes
  envelope : Bytes
  media : List Publications.MediaRef
  txId : String
  blockHeight : ℕ
  timestamp : ℕ
  deriving DecidableEq, Repr

structure ReactionRow where
  timestamp : ℕ
  blockHeight : ℕ
  txId : String
  deriving DecidableEq, Repr

/-- `osp.envelope.sealed_key`. -/
structure SealedKey where
  recipient : Bytes
  recipientKeyVersion : ℕ
  ephemeralPublicKey : Bytes
  nonce : Bytes
  ciphertext : Bytes
  deriving DecidableEq, Repr

structure KeyPackageRow where
  author : Address
  audienceId : Bytes
  epoch : ℕ
  recipient : Address
  recipientKeyVersion : ℕ
  sealedKey : SealedKey
  txId : String
  timestamp : ℕ
  deriving DecidableEq, Repr

structure CrossPostRow where
  state : Publications.OutcomeState
  externalRef : String
  postId : Bytes
  manifestHash : Bytes
  timestamp : ℕ
  blockHeight : ℕ
  txId : String
  deriving DecidableEq, Repr

/-! ### Community rows -/

structure CommunityRow where
  owner : Address
  name : String
  policyHash : Bytes
  policyUri : String
  transferDelayMs : ℕ
  pendingOwner : Option Address
  transferEffectiveAt : ℕ
  createdAt : ℕ
  updatedAt : ℕ
  deriving DecidableEq, Repr

structure RoleRow where
  role : Communities.CommunityRole
  scope : Bytes
  expiresAt : ℕ
  grantedBy : Address
  grantedAt : ℕ
  deriving DecidableEq, Repr

structure LabelRow where
  communityId : Bytes
  postId : Bytes
  label : String
  reason : String
  actor : Address
  timestamp : ℕ
  txId : String
  deriving DecidableEq, Repr

/-! ### Registry, messaging and token rows -/

structure RegistryRow where
  abiHash : Bytes
  status : Registry.ContractStatus
  effectiveAt : ℕ
  notes : String
  updatedAt : ℕ
  deriving DecidableEq, Repr

/-- The JSON of the meta entry `projection.registry.pending_admin`. -/
structure PendingAdminView where
  newAdmin : Address
  effectiveAt : ℕ
  deriving DecidableEq, Repr

structure ConversationRow where
  value : Messaging.ConversationRecord
  updatedAt : ℕ
  deriving DecidableEq, Repr

structure DirectMessageRow where
  recipient : Address
  sequence : ℕ
  value : Messaging.MessageRecord
  envelope : Bytes
  height : ℕ
  txId : String
  deriving DecidableEq, Repr

/-- The data of an activity row is the event itself, which also tells its kind. -/
structure TokenActivityRow where
  actor : Option Address
  recipient : Option Address
  data : Token.Event
  txId : String
  deriving DecidableEq, Repr

/-! ### Sponsorship rows -/

structure SponsorRow where
  endpoint : String
  policyVersion : ℕ
  active : Bool
  registeredAt : ℕ
  updatedAt : ℕ
  deriving DecidableEq, Repr

structure UserGrantRow where
  dailyOps : ℕ
  expiresAt : ℕ
  revoked : Bool
  updatedAt : ℕ
  deriving DecidableEq, Repr

/-! ### Notifications -/

inductive NotificationKind where
  | friendRequest
  | friendAccepted
  | reaction
  | reply
  | keys
  | role
  | label
  | recovery
  | device
  deriving DecidableEq, Repr

/-- The JSON of `data_json`. -/
inductive NotificationData where
  | deviceAuthorized (device : Address) (capabilities expiresAt : ℕ) (label : String)
  | deviceRevoked (device : Address)
  | recoveryProposed (pending : PendingRecoveryView)
  | recoveryExecuted (previousOwner newOwner : Address) (deviceEpoch : ℕ)
  | friendRequested (nonce : ℕ)
  | friendAccepted (nonce : ℕ) (keyPackageRef : Bytes)
  | reply (replyId : Bytes)
  | reaction (reaction : ℕ)
  | keys (audienceId : Bytes) (epoch : ℕ)
  | role (role : Communities.CommunityRole) (scope : Bytes) (expiresAt : ℕ)
  | label (label reason : String)
  deriving DecidableEq, Repr

structure NotificationRow where
  id : ℕ
  account : Address
  kind : NotificationKind
  actor : Address
  postId : Option Bytes
  communityId : Option Bytes
  data : NotificationData
  timestamp : ℕ
  blockHeight : ℕ
  txIndex : ℕ
  sequence : ℕ
  deriving DecidableEq, Repr

/-! ### The database -/

/-- The projection tables, each under its primary key. -/
structure Database where
  identities : Store Address IdentityRow
  devices : Store (Address × Address) DeviceRow
  relationships : Store (Address × Address) RelationshipRow
  blocksList : Store (Address × Address) SinceRow
  follows : Store (Address × Address) SinceRow
  audiences : Store (Address × ℕ) AudienceRow
  posts : Store Bytes PostRow
  postVersions : Store (Bytes × ℕ) PostVersionRow
  reactions : Store (Bytes × Address × ℕ) ReactionRow
  keyPackages : Store ((ℕ × ℕ × ℕ) × ℕ) KeyPackageRow
  crossPosts : Store (Address × Bytes × String) CrossPostRow
  communities : Store Bytes CommunityRow
  roles : Store (Bytes × Address) RoleRow
  labels : Store (ℕ × ℕ × ℕ) LabelRow
  registryEntries : Store (String × Address × ℕ) RegistryRow
  registryAdmin : Option Address
  registryPendingAdmin : Option PendingAdminView
  conversations : Store (Address × Address) ConversationRow
  directMessages : Store (Address × Bytes) DirectMessageRow
  tokenAccounts : Store Bytes Token.AccountState
  tokenActivity : Store (ℕ × ℕ × ℕ) TokenActivityRow
  sponsors : Store Address SponsorRow
  userGrants : Store (Address × Address) UserGrantRow
  notifications : List NotificationRow

/-- The database with every projection table empty. -/
def Database.empty : Database where
  identities := ∅
  devices := ∅
  relationships := ∅
  blocksList := ∅
  follows := ∅
  audiences := ∅
  posts := ∅
  postVersions := ∅
  reactions := ∅
  keyPackages := ∅
  crossPosts := ∅
  communities := ∅
  roles := ∅
  labels := ∅
  registryEntries := ∅
  registryAdmin := none
  registryPendingAdmin := none
  conversations := ∅
  directMessages := ∅
  tokenAccounts := ∅
  tokenActivity := ∅
  sponsors := ∅
  userGrants := ∅
  notifications := []

end OpenSocial.Indexer

/-
This file bounds what a device key can do across the six contracts.

Every method asks one thing of a transaction: the owner key of an account, the
owner key or a device with one capability, some other key, that the caller is a
protocol contract, or nothing at all. `standing` says which, method by method,
and an accepted operation met what its method asks. A transaction signed only by
a device of an account therefore acts for that account within the device's
capabilities, and changes its records otherwise only where a method asks for no
signature: three methods complete what the owner or the guardians started.
-/

import OpenSocial.Communities.Effects
import OpenSocial.Identity.Devices
import OpenSocial.Messaging.Effects
import OpenSocial.Protocol.Joint
import OpenSocial.Publications.Effects
import OpenSocial.Relationships.Effects
import OpenSocial.Token.Effects

namespace OpenSocial.Protocol

open Library

/-! ### What each method asks for -/

/-- What a method asks of the transaction that calls it. -/
inductive Standing where
  | owner (account : Bytes)
  | device (account device : Bytes) (capability : ℕ)
  | key (address : Bytes)
  | contract
  | anyone
  deriving DecidableEq, Repr

/-- The capability for a version of a post: its stored thread position decides. -/
def threadCapability (after : Publications.State) (postId : Bytes) : ℕ :=
  (after.posts.get postId).elim Capability.PUBLISH fun record =>
    if record.replyTo = [] then Capability.PUBLISH else Capability.COMMENT

def identityStanding : Identity.Operation → Standing
  | .register args => .key args.account
  | .updateProfile args => .device args.account args.device Capability.PROFILE
  | .rotateEncryptionKey args => .owner args.account
  | .authorizeDevice args => .owner args.account
  | .revokeDevice args => .owner args.account
  | .setRecoveryPolicy args => .owner args.account
  | .applyRecoveryPolicy _ => .anyone
  | .cancelRecoveryPolicy args => .owner args.account
  | .proposeRecovery args => .key args.guardian
  | .cancelRecovery args => .owner args.account
  | .executeRecovery _ => .anyone

def relationshipsStanding (deployment : Deployment) : Relationships.Operation → Standing
  | .setTokenContract _ => .key deployment.relationships.val
  | .setIdentityContract _ => .key deployment.relationships.val
  | .requestFriend args => .device args.requester args.device Capability.RELATIONSHIPS
  | .acceptFriend args => .device args.approver args.device Capability.RELATIONSHIPS
  | .removeFriend args => .device args.actor args.device Capability.RELATIONSHIPS
  | .block args => .owner args.actor
  | .unblock args => .owner args.actor
  | .follow args => .device args.follower args.device Capability.RELATIONSHIPS
  | .unfollow args => .device args.follower args.device Capability.RELATIONSHIPS
  | .rotateAudience args => .device args.actor args.device Capability.RELATIONSHIPS

def communitiesStanding (deployment : Deployment) : Communities.Operation → Standing
  | .setIdentityContract _ => .key deployment.communities.val
  | .createCommunity args => .owner args.creator
  | .setRole args => .device args.actor args.device Capability.COMMUNITY
  | .setPolicy args => .device args.actor args.device Capability.COMMUNITY
  | .proposeOwnerTransfer args => .owner args.owner
  | .cancelOwnerTransfer args => .owner args.owner
  | .executeOwnerTransfer _ => .anyone
  | .setLabel args => .device args.actor args.device Capability.COMMUNITY

def publicationsStanding (deployment : Deployment) (after : Publications.State) :
    Publications.Operation → Standing
  | .setTokenContract _ => .key deployment.publications.val
  | .setIdentityContract _ => .key deployment.publications.val
  | .setRelationshipsContract _ => .key deployment.publications.val
  | .publish args => .device args.author args.device (threadCapability after args.postId)
  | .setLifecycle args => .device args.author args.device Capability.PUBLISH
  | .react args => .device args.actor args.device Capability.REACT
  | .distributeKeys args => .device args.author args.device Capability.PUBLISH
  | .recordCrossPost args => .device args.author args.device Capability.PUBLISH

def messagingStanding (deployment : Deployment) : Messaging.Operation → Standing
  | .setDependencies _ => .key deployment.messaging.val
  | .requestConversation args => .device args.actor args.device Capability.MESSAGING
  | .acceptConversation args => .device args.actor args.device Capability.MESSAGING
  | .closeConversation args => .device args.actor args.device Capability.MESSAGING
  | .sendMessage args => .device args.sender args.device Capability.MESSAGING

def tokenStanding (deployment : Deployment) : Token.Operation → Standing
  | .init _ => .key deployment.token.val
  | .setRewardPolicy _ => .key deployment.token.val
  | .consume _ => .contract
  | .transfer args => .owner args.sender
  | .burn args => .owner args.sender
  | .support args => .device args.actor args.device Capability.SUPPORT

/-- What an operation that left a state asked for. -/
def standing (deployment : Deployment) (after : State) : Operation → Standing
  | .identity operation => identityStanding operation
  | .relationships operation => relationshipsStanding deployment operation
  | .communities operation => communitiesStanding deployment operation
  | .publications operation => publicationsStanding deployment after.publications operation
  | .messaging operation => messagingStanding deployment operation
  | .token operation => tokenStanding deployment operation

/-- The signatures of a transaction give what a method asks for. -/
def Standing.Met (transaction : Transaction) (state : State) : Standing → Prop
  | .owner account =>
    (resolved transaction state account [] 0).ok = true ∧
      transaction.authority (resolved transaction state account [] 0).signer = true
  | .device account asked capability =>
    (resolved transaction state account asked capability).ok = true ∧
      transaction.authority (resolved transaction state account asked capability).signer = true
  | .key address => transaction.authority address = true
  | .contract => False
  | .anyone => True

/-- No method's capability is empty. -/
theorem capability_ne_zero {deployment : Deployment} {after : State} {operation : Operation}
    {account asked : Bytes} {capability : ℕ}
    (acting : standing deployment after operation = .device account asked capability) :
    capability ≠ 0 := by
  have thread : ∀ publications postId, threadCapability publications postId ≠ 0 := by
    intro publications postId
    unfold threadCapability
    cases publications.posts.get postId with
    | none => decide
    | some record =>
      rw [Option.elim_some]
      split <;> decide
  rintro rfl
  cases operation with
  | identity operation =>
    cases operation <;> simp [standing, identityStanding, Capability.PROFILE] at acting
  | relationships operation =>
    cases operation <;> simp [standing, relationshipsStanding, Capability.RELATIONSHIPS] at acting
  | communities operation =>
    cases operation <;> simp [standing, communitiesStanding, Capability.COMMUNITY] at acting
  | publications operation =>
    cases operation <;>
      simp [standing, publicationsStanding, Capability.PUBLISH, Capability.REACT, thread] at acting
  | messaging operation =>
    cases operation <;> simp [standing, messagingStanding, Capability.MESSAGING] at acting
  | token operation =>
    cases operation <;> simp [standing, tokenStanding, Capability.SUPPORT] at acting

/-! ### Accepted operations met what their methods ask -/

section Meeting

variable {deployment : Deployment} {transaction : Transaction} {state : State}

/-- An account with an identity resolves to its owner. -/
theorem resolved_owner {account : Address} {record : Identity.IdentityRecord}
    (known : state.identity.identities.get account.val = some record) (capability : ℕ) :
    resolved transaction state account.val [] capability = ⟨true, record.owner.val, none⟩ := by
  have present : account.val ≠ [] := fun empty => by
    have length := account.property
    rw [empty] at length
    cases length
  unfold resolved Identity.resolve
  rw [if_neg present]
  simp only [known, true_or, if_true]

/-- An accepted actor check means that the actor resolves to a signer of the transaction. -/
theorem met_of_requireAuthorized {contract : Address}
    {identityContract account asked signer : Bytes} {capability : ℕ}
    (authorized : Actor.requireAuthorized (environment deployment transaction state contract)
      identityContract account asked capability = .ok signer) :
    (Standing.device account asked capability).Met transaction state := by
  obtain ⟨_, answer, found, ok, signed, _⟩ :=
    (Actor.requireAuthorized_eq_ok _ _ _ _ _ _).mp authorized
  have found : (if identityContract = deployment.identity.val then
      some (resolved transaction state account asked capability) else none) = some answer := found
  split at found
  · rw [← Option.some.inj found] at ok signed
    exact ⟨ok, signed⟩
  · cases found

theorem met_identity {operation : Identity.Operation} {after : Identity.State}
    {events : List Identity.Event}
    (effect : Identity.Effect (environment deployment transaction state deployment.identity)
      state.identity operation after events) :
    (identityStanding operation).Met transaction state := by
  have owned : ∀ {account : Address} {record : Identity.IdentityRecord},
      state.identity.identities.get account.val = some record →
      transaction.authority record.owner.val = true →
      (Standing.owner account.val).Met transaction state := by
    intro account record known signed
    show (resolved transaction state account.val [] 0).ok = true ∧
      transaction.authority (resolved transaction state account.val [] 0).signer = true
    rw [resolved_owner known]
    exact ⟨rfl, signed⟩
  cases effect with
  | registered account key keyVersion profileHash profileUri authorized => exact authorized
  | profileUpdated account profileHash profileUri device record ok signed =>
    exact ⟨ok, signed⟩
  | keyRotated account key keyVersion record known authorized => exact owned known authorized
  | deviceAuthorized account device capabilities expiresAt label record known authorized =>
    exact owned known authorized
  | deviceRevoked account device record stored known authorized => exact owned known authorized
  | firstPolicySet account policy record known authorized => exact owned known authorized
  | policyQueued account policy current record known authorized => exact owned known authorized
  | policyApplied => exact trivial
  | policyCancelled account record pending known authorized => exact owned known authorized
  | recoveryProposed account guardian newOwner record policy approved known authorized =>
    exact authorized
  | recoveryCancelled account record pending known authorized => exact owned known authorized
  | recovered => exact trivial

theorem met_relationships {operation : Relationships.Operation} {after : Relationships.State}
    {events : List Relationships.Event}
    (effect : Relationships.Effect (deployment.host deployment.relationships)
      (environment deployment transaction state deployment.relationships) state.relationships
      operation after events) :
    (relationshipsStanding deployment operation).Met transaction state := by
  cases effect with
  | tokenContractSet address authorized => exact authorized
  | identityContractSet address authorized => exact authorized
  | requested requester recipient device signer nonce different authorized =>
    exact met_of_requireAuthorized authorized
  | accepted approver requester device keyPackageRef signer edge different authorized =>
    exact met_of_requireAuthorized authorized
  | removed actor peer device signer edge different authorized =>
    exact met_of_requireAuthorized authorized
  | blockedOther actor target signer different authorized =>
    exact met_of_requireAuthorized authorized
  | blockedFriend actor target signer different authorized =>
    exact met_of_requireAuthorized authorized
  | unblocked actor target signer different authorized =>
    exact met_of_requireAuthorized authorized
  | followed follower target device signer different authorized =>
    exact met_of_requireAuthorized authorized
  | unfollowed follower target device signer different authorized =>
    exact met_of_requireAuthorized authorized
  | audienceRotated actor device signer authorized => exact met_of_requireAuthorized authorized

theorem met_communities {operation : Communities.Operation} {after : Communities.State}
    {events : List Communities.Event}
    (effect : Communities.Effect (deployment.host deployment.communities)
      (environment deployment transaction state deployment.communities) state.communities
      operation after events) :
    (communitiesStanding deployment operation).Met transaction state := by
  cases effect with
  | identityContractSet address authorized => exact authorized
  | created creator id name policyHash policyUri delay signer identified idBound delayBound
      authorized => exact met_of_requireAuthorized authorized
  | roleSet communityId actor subject wire role scope expiresAt device community signer decoded
      future known authorized => exact met_of_requireAuthorized authorized
  | policySet communityId actor policyHash policyUri device community signer known authorized =>
    exact met_of_requireAuthorized authorized
  | transferProposed communityId newOwner community signer different known authorized =>
    exact met_of_requireAuthorized authorized
  | transferCancelled communityId community pending signer known authorized =>
    exact met_of_requireAuthorized authorized
  | transferred => exact trivial
  | labelled communityId actor postId label reason device community signer length known
      authorized => exact met_of_requireAuthorized authorized

/-- The capability of an accepted version is that of the stored thread position. -/
theorem met_publications {operation : Publications.Operation} {after : Publications.State}
    {events : List Publications.Event}
    (effect : Publications.Effect (deployment.host deployment.publications)
      (environment deployment transaction state deployment.publications) state.publications
      operation after events) :
    (publicationsStanding deployment after operation).Met transaction state := by
  cases effect with
  | tokenContractSet address authorized => exact authorized
  | identityContractSet address authorized => exact authorized
  | relationshipsContractSet address authorized => exact authorized
  | firstPublished author args audience signer signed first wellFormed authorized =>
    have met := met_of_requireAuthorized authorized
    unfold publicationsStanding threadCapability Publications.State.putAuthor
      Publications.State.putPost
    simp only [Store.get_put, if_true, Option.elim_some, signed]
    exact met
  | edited author args existing signer signed later wellFormed authorized =>
    have met := met_of_requireAuthorized authorized
    unfold publicationsStanding threadCapability Publications.State.putPost
    simp only [Store.get_put, if_true, Option.elim_some, signed, Publications.editedRecord]
    exact met
  | lifecycleSet author postId wire target reason replacementId device record signer length decoded
      replaced authorized => exact met_of_requireAuthorized authorized
  | reacted actor postId reaction remove device record signer length named authorized =>
    exact met_of_requireAuthorized authorized
  | keysDistributed author audienceId epoch packages device signer present bounded authorized =>
    exact met_of_requireAuthorized authorized
  | crossPostRecorded author key adapter wire outcome externalRef postId manifestHash device signer
      decoded authorized => exact met_of_requireAuthorized authorized

theorem met_messaging {operation : Messaging.Operation} {after : Messaging.State}
    {output : Messaging.Output}
    (effect : Messaging.Effect (deployment.host deployment.messaging)
      (environment deployment transaction state deployment.messaging) state.messaging operation
      after output) :
    (messagingStanding deployment operation).Met transaction state := by
  cases effect with
  | dependenciesSet identity relationships token authorized => exact authorized
  | requested a b device dependencies different configured authorized =>
    obtain ⟨signer, authorized⟩ := authorized
    exact met_of_requireAuthorized authorized
  | accepted a b device dependencies found different configured authorized =>
    obtain ⟨signer, authorized⟩ := authorized
    exact met_of_requireAuthorized authorized
  | closed a b device dependencies found different configured authorized =>
    obtain ⟨signer, authorized⟩ := authorized
    exact met_of_requireAuthorized authorized
  | repeated a b device messageId envelope dependencies existing different configured authorized =>
    obtain ⟨signer, authorized⟩ := authorized
    exact met_of_requireAuthorized authorized
  | sent a b device messageId envelope dependencies found different configured authorized =>
    obtain ⟨signer, authorized⟩ := authorized
    exact met_of_requireAuthorized authorized

/-- No operation of a transaction is a charge: only the protocol's contracts consume credits. -/
theorem consume_refused {args : Token.ConsumeArguments} {after : Token.State}
    {output : Token.Output} :
    Token.consume (environment deployment transaction state deployment.token) args state.token ≠
      .ok (after, output) := by
  intro answer
  have nowhere : ∀ address : Address, [] ≠ address.val := fun address empty => by
    have length := address.property
    rw [← empty] at length
    cases length
  simp only [Token.consume, bind_eq_ok, require_eq_ok, Bool.or_eq_true, beq_iff_eq,
    exists_const] at answer
  obtain ⟨config, _, caller, _⟩ := answer
  rcases caller with (publications | messaging) | relationships
  · exact nowhere _ publications
  · exact nowhere _ messaging
  · exact nowhere _ relationships

theorem met_token {operation : Token.Operation} {after : Token.State} {output : Token.Output}
    (answer : Token.execute (deployment.host deployment.token) state.token
      ⟨environment deployment transaction state deployment.token, operation⟩ =
        .ok (after, output)) :
    (tokenStanding deployment operation).Met transaction state := by
  cases Token.effect_of_accepted answer with
  | initialized identity relationships publications messaging authorized => exact authorized
  | policyChanged rewardAmount dailyCap recipientCap config authorized => exact authorized
  | consumed account units => exact absurd answer consume_refused
  | transferred sender recipient value config signer different configured authorized =>
    exact met_of_requireAuthorized authorized
  | burnt sender value config signer configured authorized =>
    exact met_of_requireAuthorized authorized
  | supported actor id device config post signer configured length authorized =>
    exact met_of_requireAuthorized authorized

/-- Whatever a method asks for, an accepted call of it was given. -/
theorem met_of_execute {after : State} {operation : Operation} {events : List Event}
    (answer : execute deployment transaction state operation = .ok (after, events)) :
    (standing deployment after operation).Met transaction state := by
  cases operation with
  | identity operation =>
    simp only [execute, bind_eq_ok, pure_eq_ok, Prod.exists, Prod.mk.injEq] at answer
    obtain ⟨next, emitted, accepted, rfl, _⟩ := answer
    exact met_identity (Identity.effect_of_accepted accepted)
  | relationships operation =>
    simp only [execute, bind_eq_ok, pure_eq_ok, Prod.exists, Prod.mk.injEq] at answer
    obtain ⟨next, emitted, accepted, charged, charges, charging, rfl, _⟩ := answer
    exact met_relationships (Relationships.effect_of_accepted accepted)
  | communities operation =>
    simp only [execute, bind_eq_ok, pure_eq_ok, Prod.exists, Prod.mk.injEq] at answer
    obtain ⟨next, emitted, accepted, rfl, _⟩ := answer
    exact met_communities (Communities.effect_of_accepted accepted)
  | publications operation =>
    simp only [execute, bind_eq_ok, pure_eq_ok, Prod.exists, Prod.mk.injEq] at answer
    obtain ⟨next, emitted, accepted, charged, charges, charging, rfl, _⟩ := answer
    exact met_publications (Publications.effect_of_accepted accepted)
  | messaging operation =>
    simp only [execute, bind_eq_ok, pure_eq_ok, Prod.exists, Prod.mk.injEq] at answer
    obtain ⟨next, emitted, accepted, charged, charges, charging, rfl, _⟩ := answer
    exact met_messaging (Messaging.effect_of_accepted accepted)
  | token operation =>
    simp only [execute, bind_eq_ok, pure_eq_ok, Prod.exists, Prod.mk.injEq] at answer
    obtain ⟨next, emitted, accepted, rfl, _⟩ := answer
    exact met_token accepted

end Meeting

/-! ### The records of an account -/

/-- Every record of the six contracts that an account made or that is about it. -/
structure Records where
  identity : Option Identity.IdentityRecord
  devices : Bytes → Option Identity.DeviceRecord
  recovery : Option Identity.RecoveryState
  author : Option Publications.AuthorState
  posts : Bytes → Option PostRecord
  keys : Bytes → Option Bytes
  friendships : Bytes → Option Relationships.RelationshipRecord
  blocks : Bytes → Option Relationships.BlockRecord
  follows : Bytes → Option Relationships.FollowRecord
  audience : Option Relationships.AudienceState
  communities : Bytes → Option Communities.CommunityRecord
  rolesHeld : Bytes → Option Communities.RoleRecord
  rolesGranted : Bytes → Option Communities.RoleRecord
  conversations : Bytes → Option Messaging.ConversationRecord
  messages : Bytes → Option Messaging.MessageRecord
  tokens : Option Token.AccountState
  supports : Bytes → Option Token.RewardState
  rewards : Option Token.RewardState

def recordsOf (account : Address) (state : State) : Records where
  identity := state.identity.identities.get account.val
  devices := fun device => state.identity.devices.get (Identity.deviceKey account.val device)
  recovery := state.identity.recovery.get account.val
  author := state.publications.authors.get account.val
  posts := fun postId =>
    (state.publications.posts.get postId).filter fun record => record.author == account
  keys := fun key =>
    state.publications.idempotency.get (Publications.idempotencyKeyOf account.val key)
  friendships := fun other =>
    state.relationships.edges.get (Relationships.pairKey account.val other)
  blocks := fun target =>
    state.relationships.blocks.get (Relationships.directedKey account.val target)
  follows := fun target =>
    state.relationships.follows.get (Relationships.directedKey account.val target)
  audience := state.relationships.audiences.get account.val
  communities := fun id =>
    (state.communities.communities.get id).filter fun community => community.owner == account
  rolesHeld := fun communityId =>
    state.communities.roles.get (Communities.roleKey communityId account.val)
  rolesGranted := fun key =>
    (state.communities.roles.get key).filter fun role => role.grantedBy == account
  conversations := fun other =>
    state.messaging.conversations.get (Messaging.pair account.val other)
  messages := fun messageId =>
    state.messaging.messages.get (Messaging.messageKey account.val messageId)
  tokens := state.token.accounts.get account.val
  supports := fun postId => state.token.supports.get (Util.concat [account.val, postId])
  rewards := state.token.rewards.get account.val

/-- What only the owner key of an account, or its guardians, can ask for. -/
def administers (account : Bytes) : Operation → Bool
  | .relationships (.block args) => args.actor == account
  | .relationships (.unblock args) => args.actor == account
  | .token (.transfer args) => args.sender == account
  | .token (.burn args) => args.sender == account
  | .communities (.createCommunity args) => args.creator == account
  | .communities (.proposeOwnerTransfer args) => args.owner == account
  | .communities (.cancelOwnerTransfer args) => args.owner == account
  | .identity (.rotateEncryptionKey args) => args.account == account
  | .identity (.authorizeDevice args) => args.account == account
  | .identity (.revokeDevice args) => args.account == account
  | .identity (.setRecoveryPolicy args) => args.account == account
  | .identity (.cancelRecoveryPolicy args) => args.account == account
  | .identity (.proposeRecovery args) => args.account == account
  | .identity (.cancelRecovery args) => args.account == account
  | _ => false

/-- An operation that completes, after its delay, what an owner or the guardians started; it asks
for no signature. -/
inductive Completes (now : ℕ) (state : State) : Operation → Prop where
  | policy (account : Address) (pending : Identity.PendingPolicy)
      (queued : (Identity.loadRecovery state.identity account.val).pendingPolicy = some pending)
      (elapsed : pending.effectiveAt ≤ now) :
      Completes now state (.identity (.applyRecoveryPolicy ⟨account.val⟩))
  | recovery (account : Address) (pending : Identity.PendingRecovery)
      (inFlight :
        (Identity.loadRecovery state.identity account.val).pendingRecovery = some pending)
      (reached : pending.effectiveAt ≠ 0) (elapsed : pending.effectiveAt ≤ now) :
      Completes now state (.identity (.executeRecovery ⟨account.val⟩))
  | transfer (communityId : Bytes) (community : Communities.CommunityRecord) (newOwner : Address)
      (known : state.communities.communities.get communityId = some community)
      (proposed : community.pendingOwner = some newOwner)
      (elapsed : community.transferEffectiveAt ≤ now) :
      Completes now state (.communities (.executeOwnerTransfer ⟨communityId⟩))

/-! ### Transactions of a device alone -/

/-- One key signed the transaction and no other. -/
def SignedOnlyBy (device : Address) (transaction : Transaction) : Prop :=
  ∀ account, transaction.authority account = true ↔ account = device.val

/-- All the protocol knows of a key is that it is a device of one account: it owns no account,
speaks for no other and guards no recovery of it. -/
structure DeviceOnly (transaction : Transaction) (account device : Address)
    (stored : Identity.DeviceRecord) (state : State) : Prop where
  stored : state.identity.devices.get (Identity.deviceKey account.val device.val) = some stored
  unowned : ∀ other record, state.identity.identities.get other = some record →
    record.owner ≠ device
  sole : ∀ other,
    Identity.SpeaksFor (transaction.alone []) state.identity other device.val 0 →
      other = account.val
  unguarding : ∀ policy,
    (Identity.loadRecovery state.identity account.val).policy = some policy →
      device.val ∉ policy.guardians

/-! ### What such a transaction can do -/

section Bounding

variable {deployment : Deployment} {transaction : Transaction} {state : State}
  {account device : Address} {stored : Identity.DeviceRecord}

/-- It acts as no owner. -/
theorem not_owner (signed : SignedOnlyBy device transaction)
    (only : DeviceOnly transaction account device stored state) {other : Bytes}
    (met : (Standing.owner other).Met transaction state) : False := by
  obtain ⟨ok, authorized⟩ := met
  have signer := (signed _).mp authorized
  rcases Identity.owner_or_speaksFor ok with ⟨record, known, owner⟩ | speaks
  · refine only.unowned other record known (Subtype.ext ?_)
    exact owner.symm.trans signer
  · have empty : [] = device.val := speaks.signer.symm.trans signer
    have length := device.property
    rw [← empty] at length
    cases length

/-- It acts through a device for its own account only, and the device speaks for that account. -/
theorem own_account (signed : SignedOnlyBy device transaction)
    (only : DeviceOnly transaction account device stored state) {other asked : Bytes}
    {capability : ℕ} (met : (Standing.device other asked capability).Met transaction state) :
    other = account.val ∧ Identity.SpeaksFor (transaction.alone []) state.identity account.val
      device.val capability := by
  obtain ⟨ok, authorized⟩ := met
  have signer := (signed _).mp authorized
  rcases Identity.owner_or_speaksFor ok with ⟨record, known, owner⟩ | speaks
  · exact absurd (Subtype.ext (owner.symm.trans signer)) (only.unowned other record known)
  · obtain rfl : asked = device.val := speaks.signer.symm.trans signer
    obtain rfl := only.sole other speaks.unasked
    exact ⟨rfl, speaks⟩

/-- Only the identity contract's part of an account's records can change with that contract. -/
theorem recordsOf_identity {next : Identity.State}
    (identities : next.identities.get account.val = state.identity.identities.get account.val)
    (devices : next.devices = state.identity.devices)
    (recovery : next.recovery.get account.val = state.identity.recovery.get account.val) :
    recordsOf account { state with identity := next } = recordsOf account state := by
  unfold recordsOf
  simp only [identities, devices, recovery]

/-- A call that asks for the device's own key, as a new account, as a guardian of another account or
as a contract, leaves the records of its account alone. -/
theorem records_of_key (signed : SignedOnlyBy device transaction)
    (only : DeviceOnly transaction account device stored state)
    (apart : Identity.Apart state.identity) {after : State} {operation : Operation}
    {events : List Event} {address : Bytes}
    (answer : execute deployment transaction state operation = .ok (after, events))
    (asked : standing deployment after operation = .key address) :
    recordsOf account after = recordsOf account state := by
  have distinct : account ≠ device := by
    rintro rfl
    have present := only.stored
    rw [apart account] at present
    cases present
  cases operation with
  | identity operation =>
    simp only [execute, bind_eq_ok, pure_eq_ok, Prod.exists, Prod.mk.injEq] at answer
    obtain ⟨next, emitted, accepted, rfl, _⟩ := answer
    have effect := Identity.effect_of_accepted accepted
    cases effect with
    | registered fresh key keyVersion profileHash profileUri authorized =>
      have own : fresh.val = device.val := (signed _).mp authorized
      refine recordsOf_identity ?_ rfl rfl
      rw [Identity.putIdentity_identities, Store.get_put, if_neg]
      exact fun same => distinct (Subtype.ext (same.trans own))
    | recoveryProposed subject guardian newOwner record policy approved known authorized inForce
        listed =>
      have own : guardian.val = device.val := (signed _).mp authorized
      refine recordsOf_identity rfl rfl ?_
      unfold Identity.State.putRecovery
      rw [Store.get_put, if_neg]
      intro same
      obtain rfl : account = subject := Subtype.ext same
      exact only.unguarding policy inForce (own ▸ listed)
    | _ => exact absurd asked (by simp [standing, identityStanding])
  | relationships operation =>
    simp only [execute, bind_eq_ok, pure_eq_ok, Prod.exists, Prod.mk.injEq] at answer
    obtain ⟨next, emitted, accepted, token, charges, charging, rfl, _⟩ := answer
    have effect := Relationships.effect_of_accepted accepted
    cases effect with
    | tokenContractSet =>
      simp only [charge, relationshipsPayer, pure_eq_ok, Prod.mk.injEq] at charging
      rw [← charging.1]
      rfl
    | identityContractSet =>
      simp only [charge, relationshipsPayer, pure_eq_ok, Prod.mk.injEq] at charging
      rw [← charging.1]
      rfl
    | _ => exact absurd asked (by simp [standing, relationshipsStanding])
  | communities operation =>
    simp only [execute, bind_eq_ok, pure_eq_ok, Prod.exists, Prod.mk.injEq] at answer
    obtain ⟨next, emitted, accepted, rfl, _⟩ := answer
    have effect := Communities.effect_of_accepted accepted
    cases effect with
    | identityContractSet => rfl
    | _ => exact absurd asked (by simp [standing, communitiesStanding])
  | publications operation =>
    simp only [execute, bind_eq_ok, pure_eq_ok, Prod.exists, Prod.mk.injEq] at answer
    obtain ⟨next, emitted, accepted, token, charges, charging, rfl, _⟩ := answer
    have effect := Publications.effect_of_accepted accepted
    cases effect with
    | tokenContractSet =>
      simp only [charge, publicationsPayer, pure_eq_ok, Prod.mk.injEq] at charging
      rw [← charging.1]
      rfl
    | identityContractSet =>
      simp only [charge, publicationsPayer, pure_eq_ok, Prod.mk.injEq] at charging
      rw [← charging.1]
      rfl
    | relationshipsContractSet =>
      simp only [charge, publicationsPayer, pure_eq_ok, Prod.mk.injEq] at charging
      rw [← charging.1]
      rfl
    | _ => exact absurd asked (by simp [standing, publicationsStanding])
  | messaging operation =>
    simp only [execute, bind_eq_ok, pure_eq_ok, Prod.exists, Prod.mk.injEq] at answer
    obtain ⟨next, emitted, accepted, token, charges, charging, rfl, _⟩ := answer
    have effect := Messaging.effect_of_accepted accepted
    cases effect with
    | dependenciesSet =>
      simp only [charge, messagingPayer, pure_eq_ok, Prod.mk.injEq] at charging
      rw [← charging.1]
      rfl
    | _ => exact absurd asked (by simp [standing, messagingStanding])
  | token operation =>
    simp only [execute, bind_eq_ok, pure_eq_ok, Prod.exists, Prod.mk.injEq] at answer
    obtain ⟨next, emitted, accepted, rfl, _⟩ := answer
    have effect := Token.effect_of_accepted accepted
    cases effect with
    | initialized => rfl
    | policyChanged => rfl
    | _ => exact absurd asked (by simp [standing, tokenStanding])

/-- A call that asks for no signature completes something whose delay has elapsed. -/
theorem completes_of_anyone {after : State} {operation : Operation} {events : List Event}
    (answer : execute deployment transaction state operation = .ok (after, events))
    (asked : standing deployment after operation = .anyone) :
    Completes transaction.now state operation := by
  cases operation with
  | identity operation =>
    simp only [execute, bind_eq_ok, pure_eq_ok, Prod.exists, Prod.mk.injEq] at answer
    obtain ⟨next, emitted, accepted, rfl, _⟩ := answer
    have effect := Identity.effect_of_accepted accepted
    cases effect with
    | policyApplied subject record pending known queued elapsed =>
      exact .policy subject pending queued elapsed
    | recovered subject record pending known inFlight reached elapsed =>
      exact .recovery subject pending inFlight reached elapsed
    | _ => exact absurd asked (by simp [standing, identityStanding])
  | communities operation =>
    simp only [execute, bind_eq_ok, pure_eq_ok, Prod.exists, Prod.mk.injEq] at answer
    obtain ⟨next, emitted, accepted, rfl, _⟩ := answer
    have effect := Communities.effect_of_accepted accepted
    cases effect with
    | transferred communityId community newOwner known proposed elapsed =>
      exact .transfer communityId community newOwner known proposed elapsed
    | _ => exact absurd asked (by simp [standing, communitiesStanding])
  | relationships operation =>
    cases operation <;> exact absurd asked (by simp [standing, relationshipsStanding])
  | publications operation =>
    cases operation <;> exact absurd asked (by simp [standing, publicationsStanding])
  | messaging operation =>
    cases operation <;> exact absurd asked (by simp [standing, messagingStanding])
  | token operation =>
    cases operation <;> exact absurd asked (by simp [standing, tokenStanding])

/-- What administers an account asks for its owner, or for one of its guardians. -/
theorem standing_of_administers {after : State} {operation : Operation} {subject : Bytes}
    (administering : administers subject operation = true) :
    standing deployment after operation = .owner subject ∨
      ∃ args, operation = .identity (.proposeRecovery args) ∧ args.account = subject := by
  cases operation with
  | identity operation =>
    cases operation with
    | proposeRecovery args => exact .inr ⟨args, rfl, by simpa [administers] using administering⟩
    | _ =>
      refine .inl ?_
      simp_all [administers, standing, identityStanding]
  | relationships operation =>
    refine .inl ?_
    cases operation <;> simp_all [administers, standing, relationshipsStanding]
  | communities operation =>
    refine .inl ?_
    cases operation <;> simp_all [administers, standing, communitiesStanding]
  | publications operation => simp [administers] at administering
  | messaging operation => simp [administers] at administering
  | token operation =>
    refine .inl ?_
    cases operation <;> simp_all [administers, standing, tokenStanding]

/-- It administers nothing of its account. -/
theorem not_administers (signed : SignedOnlyBy device transaction)
    (only : DeviceOnly transaction account device stored state) {after : State}
    {operation : Operation} {events : List Event}
    (answer : execute deployment transaction state operation = .ok (after, events)) :
    administers account.val operation = false := by
  by_contra allowed
  have met := met_of_execute answer
  rcases standing_of_administers (Bool.not_eq_false _ ▸ allowed) with owner | proposing
  · rw [owner] at met
    exact not_owner signed only met
  · obtain ⟨args, rfl, subject⟩ := proposing
    simp only [execute, bind_eq_ok, pure_eq_ok, Prod.exists, Prod.mk.injEq] at answer
    obtain ⟨next, emitted, accepted, rfl, _⟩ := answer
    cases Identity.effect_of_accepted accepted with
    | recoveryProposed other guardian newOwner record policy approved known authorized inForce
        listed =>
      have own : guardian.val = device.val := (signed _).mp authorized
      obtain rfl : other = account := Subtype.ext subject
      exact only.unguarding policy inForce (own ▸ listed)

end Bounding

/-! ### The bound -/

/-- The operation acts for an account by a method of a capability class. -/
def ActsFor (deployment : Deployment) (account : Address) (capability : ℕ)
    (performed : Performed) : Prop :=
  ∃ asked, standing deployment performed.after performed.operation =
    .device account.val asked capability

/-- In every run, whatever a transaction signed only by a device of an account does: it administers
nothing of the account, it acts for the account only by methods of a class the device was granted,
and it changes no record of the account otherwise, unless it completes what the owner or the
guardians started and whose delay has elapsed. -/
theorem device_damage_bounded (deployment : Deployment) (transactions : List Transaction) :
    ∀ entry ∈ (machine deployment).history (machine deployment).initial transactions,
      ∀ performed ∈ entry.output, ∀ (account device : Address) (stored : Identity.DeviceRecord),
        SignedOnlyBy device entry.call →
        DeviceOnly entry.call account device stored performed.before →
        administers account.val performed.operation = false ∧
        (∀ capability, ActsFor deployment account capability performed →
          stored.revoked = false ∧ entry.call.now < stored.expiresAt ∧
            stored.capabilities &&& capability ≠ 0) ∧
        ((∃ capability, ActsFor deployment account capability performed) ∨
          Completes entry.call.now performed.before performed.operation ∨
          recordsOf account performed.after = recordsOf account performed.before) := by
  intro entry member performed done account device stored signed only
  have answer := execute_of_mem entry.accepted done
  have met := met_of_execute answer
  refine ⟨not_administers signed only answer, ?_, ?_⟩
  · intro capability ⟨asked, acting⟩
    rw [acting] at met
    obtain ⟨_, speaks⟩ := own_account signed only met
    obtain ⟨record, present, known, found, valid, current, future, granted⟩ :=
      Identity.stored_of_speaksFor speaks
    obtain rfl : stored = present := Option.some.inj (only.stored.symm.trans found)
    refine ⟨valid, future, granted ?_⟩
    exact capability_ne_zero acting
  · cases asked : standing deployment performed.after performed.operation with
    | owner other =>
      rw [asked] at met
      exact absurd met (not_owner signed only)
    | device other key capability =>
      rw [asked] at met
      obtain ⟨rfl, _⟩ := own_account signed only met
      exact .inl ⟨capability, key, asked⟩
    | key address =>
      have composed := composed_performed deployment transactions entry member performed done
      refine .inr (.inr ?_)
      exact records_of_key signed only (Identity.apart_of_reachable composed.identity) answer asked
    | contract =>
      rw [asked] at met
      exact absurd met id
    | anyone => exact .inr (.inl (completes_of_anyone answer asked))

/-! ### A device alone -/

/-- Six contracts whose hash system call answers one digest. -/
def sampleDeployment : Deployment where
  identity := Address.repeated 11
  relationships := Address.repeated 12
  communities := Address.repeated 13
  publications := Address.repeated 14
  messaging := Address.repeated 15
  token := Address.repeated 16
  chainId := []
  hash := fun _ => List.replicate 32 0

/-- Account 1 authorizes device 2 to publish, and its guardian 3 proposes account 4 as the new
owner. -/
def enrolling : Transaction where
  now := 1
  authority := fun _ => true
  operations :=
    let account := (Address.repeated 1).val
    let guardian := (Address.repeated 3).val
    [.publications (.setIdentityContract ⟨sampleDeployment.identity.val⟩),
      .identity (.register ⟨account, List.replicate 32 7, 1, [], ""⟩),
      .identity (.setRecoveryPolicy ⟨account, some ⟨[guardian], 1, 0⟩⟩),
      .identity (.authorizeDevice ⟨account, (Address.repeated 2).val, 1, 1000, "laptop"⟩),
      .identity (.proposeRecovery ⟨account, guardian, (Address.repeated 4).val⟩)]

/-- A transaction of one operation, signed by device 2 alone. -/
def byDevice (operation : Operation) : Transaction where
  now := 2
  authority := fun account => account == (Address.repeated 2).val
  operations := [operation]

/-- The state the enrolment leaves. -/
def enrolled : State :=
  (machine sampleDeployment).final (machine sampleDeployment).initial [enrolling]

theorem signedOnlyBy_byDevice (operation : Operation) :
    SignedOnlyBy (Address.repeated 2) (byDevice operation) :=
  fun _ => beq_iff_eq

theorem enrolled_identities :
    enrolled.identity.identities = Store.put ∅ (Address.repeated 1).val
      ⟨Address.repeated 1, Address.repeated 1, List.replicate 32 7, 1, [], "", 1, 0, 1, 1⟩ := by
  decide +kernel

/-- In that state device 2 is a device of account 1 and nothing else. -/
theorem deviceOnly_enrolled (operation : Operation) :
    DeviceOnly (byDevice operation) (Address.repeated 1) (Address.repeated 2)
      ⟨Address.repeated 1, Address.repeated 2, 1, 1000, 0, false, "laptop", 1⟩ enrolled where
  stored := by decide +kernel
  unowned := by
    intro other record known
    rw [enrolled_identities, Store.get_put, Store.get_empty] at known
    split at known
    · rw [← Option.some.inj known]
      decide
    · cases known
  sole := by
    intro other speaks
    obtain ⟨record, _, known, _⟩ := Identity.stored_of_speaksFor speaks
    rw [enrolled_identities, Store.get_put, Store.get_empty] at known
    by_contra different
    rw [if_neg different] at known
    cases known
  unguarding := by
    intro policy inForce
    have guardians : ((Identity.loadRecovery enrolled.identity (Address.repeated 1).val).policy.elim
        [] Identity.RecoveryPolicy.guardians) = [(Address.repeated 3).val] := by decide +kernel
    rw [inForce, Option.elim_some] at guardians
    rw [guardians]
    decide

/-- An operation of device 2 that is accepted after the enrolment. -/
theorem performed_byDevice {operation : Operation} {after : State} {events : List Event}
    (answer : execute sampleDeployment (byDevice operation) enrolled operation =
      .ok (after, events)) :
    ∃ entry ∈ (machine sampleDeployment).history (machine sampleDeployment).initial
        [enrolling, byDevice operation],
      entry.call = byDevice operation ∧ ⟨enrolled, operation, after, events⟩ ∈ entry.output := by
  have step : (machine sampleDeployment).step enrolled (byDevice operation) =
      .ok (after, [⟨enrolled, operation, after, events⟩]) := by
    show perform sampleDeployment (byDevice operation) enrolled [operation] = _
    simp only [perform, bind_eq_ok, pure_eq_ok, Prod.exists, Prod.mk.injEq]
    exact ⟨after, events, answer, after, [], ⟨rfl, rfl⟩, rfl, rfl⟩
  refine ⟨⟨enrolled, byDevice operation, after, [⟨enrolled, operation, after, events⟩], step⟩, ?_,
    rfl, List.mem_singleton_self _⟩
  have split := (machine sampleDeployment).history_append (machine sampleDeployment).initial
    [enrolling] [byDevice operation]
  have last := (machine sampleDeployment).history_cons_of_ok step []
  rw [List.singleton_append] at split
  rw [split]
  exact List.mem_append_right _ (last ▸ List.mem_cons_self)

/-- Device 2 publishes a post in the name of account 1. -/
def devicePost : Operation :=
  .publications (.publish
    { author := (Address.repeated 1).val
      postId := List.replicate 32 0
      previousVersion := []
      sequence := 1
      audience := 0
      audienceId := []
      epoch := 0
      envelope := []
      contentHash := List.replicate 32 7
      media := []
      replyTo := []
      idempotencyKey := []
      device := (Address.repeated 2).val })

theorem device_damage_bounded_devicePost :
    ∃ entry ∈ (machine sampleDeployment).history (machine sampleDeployment).initial
        [enrolling, byDevice devicePost],
      ∃ performed ∈ entry.output,
        ActsFor sampleDeployment (Address.repeated 1) Capability.PUBLISH performed ∧
        administers (Address.repeated 1).val performed.operation = false ∧
        1 &&& Capability.PUBLISH ≠ 0 := by
  obtain ⟨⟨after, events⟩, answer⟩ :=
    exists_ok_of_toBool (by decide +kernel :
      (execute sampleDeployment (byDevice devicePost) enrolled devicePost).toBool = true)
  have thread : ((execute sampleDeployment (byDevice devicePost) enrolled devicePost).toOption.map
      fun result => threadCapability result.1.publications (List.replicate 32 0)) =
        some Capability.PUBLISH := by decide +kernel
  rw [answer] at thread
  obtain ⟨entry, member, call, done⟩ := performed_byDevice answer
  have signed := signedOnlyBy_byDevice devicePost
  have only := deviceOnly_enrolled devicePost
  rw [← call] at signed only
  obtain ⟨administration, granted, _⟩ :=
    device_damage_bounded _ _ entry member _ done _ _ _ signed only
  have acting : ActsFor sampleDeployment (Address.repeated 1) Capability.PUBLISH
      ⟨enrolled, devicePost, after, events⟩ := by
    refine ⟨(Address.repeated 2).val, ?_⟩
    rw [← Option.some.inj thread]
    rfl
  exact ⟨entry, member, _, done, acting, administration, (granted _ acting).2.2⟩

/-- A transaction of device 2 completes the recovery the guardian proposed. -/
def completedRecovery : Operation :=
  .identity (.executeRecovery ⟨(Address.repeated 1).val⟩)

/-- Completing a recovery is open to everyone: a transaction signed by a device alone changes the
owner of its account, by a method of no capability class. -/
theorem device_damage_unbounded_completedRecovery :
    ∃ entry ∈ (machine sampleDeployment).history (machine sampleDeployment).initial
        [enrolling, byDevice completedRecovery],
      ∃ performed ∈ entry.output, ∃ stored,
        SignedOnlyBy (Address.repeated 2) entry.call ∧
        DeviceOnly entry.call (Address.repeated 1) (Address.repeated 2) stored performed.before ∧
        (∀ capability, ¬ ActsFor sampleDeployment (Address.repeated 1) capability performed) ∧
        (recordsOf (Address.repeated 1) performed.before).identity.map
          Identity.IdentityRecord.owner = some (Address.repeated 1) ∧
        (recordsOf (Address.repeated 1) performed.after).identity.map
          Identity.IdentityRecord.owner = some (Address.repeated 4) := by
  obtain ⟨⟨after, events⟩, answer⟩ :=
    exists_ok_of_toBool (by decide +kernel : (execute sampleDeployment
      (byDevice completedRecovery) enrolled completedRecovery).toBool = true)
  have owner : ((execute sampleDeployment (byDevice completedRecovery) enrolled
      completedRecovery).toOption.bind fun result =>
        (recordsOf (Address.repeated 1) result.1).identity.map Identity.IdentityRecord.owner) =
          some (Address.repeated 4) := by decide +kernel
  rw [answer] at owner
  obtain ⟨entry, member, call, done⟩ := performed_byDevice answer
  have signed := signedOnlyBy_byDevice completedRecovery
  have only := deviceOnly_enrolled completedRecovery
  rw [← call] at signed only
  refine ⟨entry, member, _, done, _, signed, only, ?_, ?_, owner⟩
  · rintro capability ⟨asked, acting⟩
    cases acting
  · show (recordsOf (Address.repeated 1) enrolled).identity.map Identity.IdentityRecord.owner =
      some (Address.repeated 1)
    decide +kernel

end OpenSocial.Protocol

/-
This file models the communities contract: communities with an owner and a
policy, signed roles with scope and expiry, moderation labels and the
time-locked ownership transfer.

Labels are events only. A role record of the new owner is dropped when an
ownership transfer executes, since the owner role is implicit.
-/

import OpenSocial.Common.Actor
import OpenSocial.Library.Machine
import OpenSocial.Library.Store
import OpenSocial.Library.Word

namespace OpenSocial.Communities

open Library Library.Word

/-! ### Limits -/

def ID_MAX_LENGTH : ℕ := 32
def NAME_MAX_LENGTH : ℕ := 64
def POLICY_HASH_LENGTH : ℕ := 32
def POLICY_URI_MAX_LENGTH : ℕ := 256
def SCOPE_MAX_LENGTH : ℕ := 32
def POST_ID_LENGTH : ℕ := 32
def LABEL_MAX_LENGTH : ℕ := 64
def REASON_MAX_LENGTH : ℕ := 256
def TRANSFER_DELAY_MAX_MS : ℕ := 30 * 24 * 60 * 60 * 1000

def RANK_NONE : ℕ := 0
def RANK_MODERATOR : ℕ := 3
def RANK_ADMIN : ℕ := 4
def RANK_OWNER : ℕ := 5

/-! ### Records -/

/-- `communities.community_role`. -/
inductive CommunityRole where
  | none
  | guest
  | member
  | moderator
  | admin
  | owner
  | banned
  deriving DecidableEq, Repr

/-- The number of a role on the wire. -/
def CommunityRole.toWire : CommunityRole → ℕ
  | .none => 0
  | .guest => 1
  | .member => 2
  | .moderator => 3
  | .admin => 4
  | .owner => 5
  | .banned => 6

/-- The role of a wire value; values out of range are no role. -/
def CommunityRole.ofWire : ℤ → Option CommunityRole
  | 0 => some .none
  | 1 => some .guest
  | 2 => some .member
  | 3 => some .moderator
  | 4 => some .admin
  | 5 => some .owner
  | 6 => some .banned
  | _ => Option.none

structure CommunityRecord where
  id : Bytes
  owner : Address
  name : String
  policyHash : Bytes
  policyUri : String
  transferDelayMs : ℕ
  pendingOwner : Option Address
  transferEffectiveAt : ℕ
  createdAt : ℕ
  updatedAt : ℕ
  deriving DecidableEq, Repr

structure RoleRecord where
  role : CommunityRole
  scope : Bytes
  expiresAt : ℕ
  grantedBy : Address
  grantedAt : ℕ
  deriving DecidableEq, Repr

/-- The contract's object and maps; roles are keyed by community then subject. -/
structure State where
  config : Option Address
  communities : Store Bytes CommunityRecord
  roles : Store Bytes RoleRecord

/-- The `osp.communities.*` events. -/
inductive Event where
  | communityCreated (id : Bytes) (owner : Address) (name : String) (policyHash : Bytes)
      (policyUri : String) (transferDelayMs timestamp : ℕ)
  | roleSet (communityId : Bytes) (actor subject : Address) (role : CommunityRole) (scope : Bytes)
      (expiresAt timestamp : ℕ)
  | policySet (communityId : Bytes) (actor : Address) (policyHash : Bytes) (policyUri : String)
      (timestamp : ℕ)
  | ownerTransferProposed (communityId : Bytes) (owner newOwner : Address) (effectiveAt : ℕ)
  | ownerTransferCancelled (communityId : Bytes) (timestamp : ℕ)
  | ownerTransferred (communityId : Bytes) (previousOwner newOwner : Address) (timestamp : ℕ)
  | labelSet (communityId : Bytes) (actor : Address) (postId : Bytes) (label reason : String)
      (timestamp : ℕ)
  deriving DecidableEq, Repr

/-! ### Arguments -/

structure SetIdentityContractArguments where
  address : Bytes

structure CreateCommunityArguments where
  creator : Bytes
  id : Bytes
  name : String
  policyHash : Bytes
  policyUri : String
  transferDelayMs : ℕ

/-- The role is the enum's value on the wire. -/
structure SetRoleArguments where
  communityId : Bytes
  actor : Bytes
  subject : Bytes
  role : ℤ
  scope : Bytes
  expiresAt : ℕ
  device : Bytes

structure SetPolicyArguments where
  communityId : Bytes
  actor : Bytes
  policyHash : Bytes
  policyUri : String
  device : Bytes

structure ProposeOwnerTransferArguments where
  communityId : Bytes
  owner : Bytes
  newOwner : Bytes

structure CancelOwnerTransferArguments where
  communityId : Bytes
  owner : Bytes

structure ExecuteOwnerTransferArguments where
  communityId : Bytes

structure SetLabelArguments where
  communityId : Bytes
  actor : Bytes
  postId : Bytes
  label : String
  reason : String
  device : Bytes

/-! ### Internal helpers -/

/-- Configured identity contract address, or empty bytes when unset. -/
def identityContract (state : State) : Bytes :=
  state.config.elim [] Subtype.val

/-- Role key: community id || subject. -/
def roleKey (communityId subject : Bytes) : Bytes :=
  Util.concat [communityId, subject]

/-- `communities.put`. -/
def State.putCommunity (state : State) (id : Bytes) (record : CommunityRecord) : State :=
  { state with communities := state.communities.put id record }

/-- `roles.put`. -/
def State.putRole (state : State) (communityId : Bytes) (subject : Address) (record : RoleRecord) :
    State :=
  { state with roles := state.roles.put (roleKey communityId subject.val) record }

/-- `roles.remove`. -/
def State.removeRole (state : State) (communityId : Bytes) (subject : Address) : State :=
  { state with roles := state.roles.remove (roleKey communityId subject.val) }

/-- Load a community or revert. -/
def requireCommunity (state : State) (id : Bytes) : Except Failure CommunityRecord :=
  requireSome (state.communities.get id) "community not found"

/-- Permission rank of a role: banned and none rank 0. -/
def rank (role : CommunityRole) : ℕ :=
  match role with
  | .banned => RANK_NONE
  | .none => RANK_NONE
  | other => other.toWire

/-- Effective role of an account in a community at a time. -/
def effectiveRole (state : State) (community : CommunityRecord) (account : Address) (now : ℕ) :
    CommunityRole :=
  if community.owner = account then .owner
  else
    match state.roles.get (roleKey community.id account.val) with
    | none => .none
    | some record => if record.expiresAt ≠ 0 ∧ record.expiresAt ≤ now then .none else record.role

/-- Effective permission rank of an account in a community. -/
def effectiveRank (state : State) (community : CommunityRecord) (account : Address) (now : ℕ) :
    ℕ :=
  rank (effectiveRole state community account now)

/-- Validate a community id (1..32 bytes). -/
def requireCommunityId (value : Bytes) : Except Failure Bytes :=
  Util.requireBytes value ID_MAX_LENGTH "community id"

/-- Validate an optional policy hash (empty or 32 bytes). -/
def optionalPolicyHash (value : Bytes) : Except Failure Bytes :=
  Util.optionalExact value POLICY_HASH_LENGTH "policy_hash must be empty or 32 bytes"

/-- Validate an optional policy uri. -/
def optionalPolicyUri (value : String) : Except Failure String :=
  Util.requireString value POLICY_URI_MAX_LENGTH "policy_uri"

/-- Validate an optional role scope. -/
def optionalScope (value : Bytes) : Except Failure Bytes := do
  require (value == [] || value.length ≤ SCOPE_MAX_LENGTH) "scope too large"
  pure value

/-! ### Methods -/

def setIdentityContract (host : Host) (env : Env) (args : SetIdentityContractArguments)
    (state : State) : Except Failure (State × List Event) := do
  requireAuthority env host.contractId
  let address ← Util.requireAddress args.address "address"
  pure ({ state with config := some address }, [])

def createCommunity (env : Env) (args : CreateCommunityArguments) (state : State) :
    Except Failure (State × List Event) := do
  let creator ← Util.requireAddress args.creator "creator"
  let id ← requireCommunityId args.id
  let name ← Util.requireString args.name NAME_MAX_LENGTH "name"
  require (0 < Util.stringLength name) "name is required"
  let policyHash ← optionalPolicyHash args.policyHash
  let policyUri ← optionalPolicyUri args.policyUri
  require (args.transferDelayMs ≤ TRANSFER_DELAY_MAX_MS) "transfer_delay_ms too large"
  let _ ← Actor.requireAuthorized env (identityContract state) creator.val [] 0
  require (!state.communities.has id) "community id already exists"
  let record : CommunityRecord :=
    ⟨id, creator, name, policyHash, policyUri, args.transferDelayMs, none, 0, env.now, env.now⟩
  pure (state.putCommunity id record,
    [.communityCreated id creator name policyHash policyUri args.transferDelayMs env.now])

/-- Admins only manage roles strictly below admin, for subjects below admin. -/
def requireManageable (state : State) (community : CommunityRecord) (subject : Address)
    (role : CommunityRole) (actorRank now : ℕ) : Except Failure Unit :=
  if actorRank < RANK_OWNER then do
    require (rank role < RANK_ADMIN) "admin may only set roles below admin"
    require (effectiveRank state community subject now < RANK_ADMIN)
      "admin cannot change an admin's role"
  else
    pure ()

/-- What `set_role` writes: no record for the role none. -/
def writeRole (state : State) (communityId : Bytes) (subject : Address) (record : RoleRecord) :
    State :=
  if record.role = .none then state.removeRole communityId subject
  else state.putRole communityId subject record

def setRole (env : Env) (args : SetRoleArguments) (state : State) :
    Except Failure (State × List Event) := do
  let communityId ← requireCommunityId args.communityId
  let actor ← Util.requireAddress args.actor "actor"
  let subject ← Util.requireAddress args.subject "subject"
  let role ← requireSome (CommunityRole.ofWire args.role) "invalid role"
  let scope ← optionalScope args.scope
  require (args.expiresAt == 0 || env.now < args.expiresAt) "expires_at must be 0 or in the future"
  let community ← requireCommunity state communityId
  let _ ← Actor.requireAuthorized env (identityContract state) actor.val args.device
    Capability.COMMUNITY
  let actorRank := effectiveRank state community actor env.now
  require (RANK_ADMIN ≤ actorRank) "insufficient role"
  require (community.owner != subject) "cannot change owner role"
  require (role != .owner) "use ownership transfer"
  requireManageable state community subject role actorRank env.now
  pure (writeRole state communityId subject ⟨role, scope, args.expiresAt, actor, env.now⟩,
    [.roleSet communityId actor subject role scope args.expiresAt env.now])

def setPolicy (env : Env) (args : SetPolicyArguments) (state : State) :
    Except Failure (State × List Event) := do
  let communityId ← requireCommunityId args.communityId
  let actor ← Util.requireAddress args.actor "actor"
  let policyHash ← optionalPolicyHash args.policyHash
  let policyUri ← optionalPolicyUri args.policyUri
  let community ← requireCommunity state communityId
  let _ ← Actor.requireAuthorized env (identityContract state) actor.val args.device
    Capability.COMMUNITY
  require (RANK_ADMIN ≤ effectiveRank state community actor env.now) "insufficient role"
  pure (state.putCommunity communityId { community with
      policyHash := policyHash, policyUri := policyUri, updatedAt := env.now },
    [.policySet communityId actor policyHash policyUri env.now])

def proposeOwnerTransfer (env : Env) (args : ProposeOwnerTransferArguments) (state : State) :
    Except Failure (State × List Event) := do
  let communityId ← requireCommunityId args.communityId
  let owner ← Util.requireAddress args.owner "owner"
  let newOwner ← Util.requireAddress args.newOwner "new_owner"
  require (owner != newOwner) "new_owner must differ from owner"
  let community ← requireCommunity state communityId
  require (community.owner == owner) "only the owner may propose a transfer"
  let _ ← Actor.requireAuthorized env (identityContract state) owner.val [] 0
  let effectiveAt := wrapAdd 64 env.now community.transferDelayMs
  pure (state.putCommunity communityId { community with
      pendingOwner := some newOwner, transferEffectiveAt := effectiveAt, updatedAt := env.now },
    [.ownerTransferProposed communityId owner newOwner effectiveAt])

def cancelOwnerTransfer (env : Env) (args : CancelOwnerTransferArguments) (state : State) :
    Except Failure (State × List Event) := do
  let communityId ← requireCommunityId args.communityId
  let owner ← Util.requireAddress args.owner "owner"
  let community ← requireCommunity state communityId
  require (community.owner == owner) "only the owner may cancel a transfer"
  let _ ← Actor.requireAuthorized env (identityContract state) owner.val [] 0
  require community.pendingOwner.isSome "no pending transfer"
  pure (state.putCommunity communityId { community with
      pendingOwner := none, transferEffectiveAt := 0, updatedAt := env.now },
    [.ownerTransferCancelled communityId env.now])

/-- Anyone may execute an elapsed transfer; any explicit role of the new owner is dropped. -/
def executeOwnerTransfer (env : Env) (args : ExecuteOwnerTransferArguments) (state : State) :
    Except Failure (State × List Event) := do
  let communityId ← requireCommunityId args.communityId
  let community ← requireCommunity state communityId
  let newOwner ← requireSome community.pendingOwner "no pending transfer"
  require (community.transferEffectiveAt ≤ env.now) "transfer delay not elapsed"
  let transferred := state.putCommunity communityId { community with
    owner := newOwner, pendingOwner := none, transferEffectiveAt := 0, updatedAt := env.now }
  pure (transferred.removeRole communityId newOwner,
    [.ownerTransferred communityId community.owner newOwner env.now])

def setLabel (env : Env) (args : SetLabelArguments) (state : State) :
    Except Failure (State × List Event) := do
  let communityId ← requireCommunityId args.communityId
  let actor ← Util.requireAddress args.actor "actor"
  let postId ← Util.requireBytes args.postId POST_ID_LENGTH "post_id"
  require (postId.length == POST_ID_LENGTH) "post_id must be 32 bytes"
  let label ← Util.requireString args.label LABEL_MAX_LENGTH "label"
  require (0 < Util.stringLength label) "label is required"
  let reason ← Util.requireString args.reason REASON_MAX_LENGTH "reason"
  let community ← requireCommunity state communityId
  let _ ← Actor.requireAuthorized env (identityContract state) actor.val args.device
    Capability.COMMUNITY
  require (RANK_MODERATOR ≤ effectiveRank state community actor env.now) "insufficient role"
  pure (state, [.labelSet communityId actor postId label reason env.now])

/-! ### The contract as a transaction machine -/

/-- One call of a mutating method. -/
inductive Operation where
  | setIdentityContract (args : SetIdentityContractArguments)
  | createCommunity (args : CreateCommunityArguments)
  | setRole (args : SetRoleArguments)
  | setPolicy (args : SetPolicyArguments)
  | proposeOwnerTransfer (args : ProposeOwnerTransferArguments)
  | cancelOwnerTransfer (args : CancelOwnerTransferArguments)
  | executeOwnerTransfer (args : ExecuteOwnerTransferArguments)
  | setLabel (args : SetLabelArguments)

/-- A method call together with the environment it runs in. -/
structure Call where
  env : Env
  operation : Operation

/-- The block time of a call. -/
def Call.time (call : Call) : ℕ := call.env.now

def execute (host : Host) (state : State) (call : Call) : Except Failure (State × List Event) :=
  match call.operation with
  | .setIdentityContract args => setIdentityContract host call.env args state
  | .createCommunity args => createCommunity call.env args state
  | .setRole args => setRole call.env args state
  | .setPolicy args => setPolicy call.env args state
  | .proposeOwnerTransfer args => proposeOwnerTransfer call.env args state
  | .cancelOwnerTransfer args => cancelOwnerTransfer call.env args state
  | .executeOwnerTransfer args => executeOwnerTransfer call.env args state
  | .setLabel args => setLabel call.env args state

def empty : State := ⟨none, ∅, ∅⟩

/-- The communities contract from its empty store. -/
def machine (host : Host) : Machine State Call (List Event) Failure := ⟨empty, execute host⟩

/-! ### Read methods -/

def getCommunity (state : State) (id : Bytes) : Option CommunityRecord :=
  if id = [] then none else state.communities.get id

def getRole (state : State) (communityId subject : Bytes) : Option RoleRecord :=
  if communityId = [] ∨ subject = [] then none else state.roles.get (roleKey communityId subject)

end OpenSocial.Communities

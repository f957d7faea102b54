/-
This file models the relationships contract: mutual friendships, unilateral
follows, blocks and the friends-audience epoch of every account.

An edge is stored under the sorted pair of its two accounts and its nonce
advances on every transition. Ending a friendship or blocking advances the
audience epochs, so that later friends-only content is encrypted under a key the
other party never receives.
-/

import OpenSocial.Common.Actor
import OpenSocial.Library.Machine
import OpenSocial.Library.Store
import OpenSocial.Library.Word

namespace OpenSocial.Relationships

open Library Library.Word

/-! ### Limits and reasons -/

def KEY_PACKAGE_REF_LENGTH : ℕ := 32
def REASON_FRIEND_REMOVED : String := "friend_removed"
def REASON_BLOCKED : String := "blocked"
def REASON_MANUAL : String := "manual"

/-! ### Records -/

/-- `relationships.relationship_status`. -/
inductive RelationshipStatus where
  | none
  | pending
  | active
  | inactive
  deriving DecidableEq, Repr

structure RelationshipRecord where
  a : Address
  b : Address
  status : RelationshipStatus
  requester : Address
  nonce : ℕ
  updatedAt : ℕ
  deriving DecidableEq, Repr

structure AudienceState where
  epoch : ℕ
  updatedAt : ℕ
  deriving DecidableEq, Repr

structure BlockRecord where
  blocked : Bool
  updatedAt : ℕ
  deriving DecidableEq, Repr

structure FollowRecord where
  active : Bool
  updatedAt : ℕ
  deriving DecidableEq, Repr

/-- The contract's objects and maps. Edges are keyed by the sorted pair, blocks and follows by
actor then target. -/
structure State where
  usage : Option Address
  config : Option Address
  edges : Store Bytes RelationshipRecord
  blocks : Store Bytes BlockRecord
  follows : Store Bytes FollowRecord
  audiences : Store Bytes AudienceState

/-- The `osp.relationships.*` events. -/
inductive Event where
  | friendRequested (requester recipient : Address) (nonce timestamp : ℕ)
  | friendAccepted (approver requester : Address) (nonce : ℕ) (keyPackageRef : Bytes)
      (timestamp : ℕ)
  | friendRemoved (actor peer : Address) (nonce newEpoch timestamp : ℕ)
  | blocked (actor target : Address) (newEpoch timestamp : ℕ)
  | unblocked (actor target : Address) (timestamp : ℕ)
  | followed (follower target : Address) (timestamp : ℕ)
  | unfollowed (follower target : Address) (timestamp : ℕ)
  | audienceRotated (account : Address) (newEpoch : ℕ) (reason : String) (timestamp : ℕ)
  deriving DecidableEq, Repr

/-! ### Arguments -/

/-- The arguments of the two configuration methods. -/
structure SetContractArguments where
  address : Bytes

structure RequestFriendArguments where
  requester : Bytes
  recipient : Bytes
  device : Bytes

structure AcceptFriendArguments where
  approver : Bytes
  requester : Bytes
  device : Bytes
  keyPackageRef : Bytes

structure RemoveFriendArguments where
  actor : Bytes
  peer : Bytes
  device : Bytes

/-- The arguments of `block` and `unblock`. -/
structure BlockArguments where
  actor : Bytes
  target : Bytes

/-- The arguments of `follow` and `unfollow`. -/
structure FollowArguments where
  follower : Bytes
  target : Bytes
  device : Bytes

structure RotateAudienceArguments where
  actor : Bytes
  device : Bytes

/-! ### Internal helpers -/

/-- Configured identity contract address, or empty bytes when unset. -/
def identityContract (state : State) : Bytes :=
  state.config.elim [] Subtype.val

/-- Charge one unit of usage; a deployment without a token contract charges nothing. -/
def consume (env : Env) (state : State) (account : Address) : Except Failure Unit :=
  match state.usage with
  | none => pure ()
  | some token => require (env.consume token.val account.val 1) "usage allowance exhausted"

/-- Canonical pair key: the smaller account first. -/
def pairKey (a b : Bytes) : Bytes :=
  if Util.compare a b ≤ 0 then Util.concat [a, b] else Util.concat [b, a]

/-- Directional key of blocks and follows. -/
def directedKey (source target : Bytes) : Bytes :=
  Util.concat [source, target]

/-- `edges.put` under the pair of two accounts. -/
def State.putEdge (state : State) (x y : Address) (record : RelationshipRecord) : State :=
  { state with edges := state.edges.put (pairKey x.val y.val) record }

/-- `blocks.put`. -/
def State.putBlock (state : State) (actor target : Address) (record : BlockRecord) : State :=
  { state with blocks := state.blocks.put (directedKey actor.val target.val) record }

/-- `blocks.remove`. -/
def State.removeBlock (state : State) (actor target : Address) : State :=
  { state with blocks := state.blocks.remove (directedKey actor.val target.val) }

/-- `follows.put`. -/
def State.putFollow (state : State) (follower target : Address) (record : FollowRecord) : State :=
  { state with follows := state.follows.put (directedKey follower.val target.val) record }

/-- `follows.remove`. -/
def State.removeFollow (state : State) (follower target : Address) : State :=
  { state with follows := state.follows.remove (directedKey follower.val target.val) }

/-- `audiences.put`. -/
def State.putAudience (state : State) (account : Address) (audience : AudienceState) : State :=
  { state with audiences := state.audiences.put account.val audience }

/-- True when `actor` currently blocks `target`. -/
def hasBlocked (state : State) (actor target : Bytes) : Bool :=
  (state.blocks.get (directedKey actor target)).elim false BlockRecord.blocked

/-- Revert when either party has blocked the other. -/
def requireNotBlocked (state : State) (actor other : Address) (what : String) :
    Except Failure Unit := do
  require (!hasBlocked state actor.val other.val) (what ++ " is blocked")
  require (!hasBlocked state other.val actor.val) ("blocked by " ++ what)

/-- True when a follow edge follower -> target is active. -/
def isFollowing (state : State) (follower target : Bytes) : Bool :=
  (state.follows.get (directedKey follower target)).elim false FollowRecord.active

/-- Current audience state (epoch 0 when unset). -/
def loadAudience (state : State) (account : Bytes) : AudienceState :=
  (state.audiences.get account).getD ⟨0, 0⟩

/-- Advance the account's friends-audience epoch by one; answers the new epoch. -/
def advanceEpoch (env : Env) (account : Address) (state : State) : Except Failure (State × ℕ) := do
  let audience := loadAudience state account.val
  require (audience.epoch < 2 ^ 32 - 1) "audience epoch exhausted"
  pure (state.putAudience account ⟨audience.epoch + 1, env.now⟩, audience.epoch + 1)

/-- Validate an optional key package reference (empty or 32 bytes). -/
def optionalKeyPackageRef (value : Bytes) : Except Failure Bytes :=
  Util.optionalExact value KEY_PACKAGE_REF_LENGTH "key_package_ref must be empty or 32 bytes"

/-- The nonce of a new request: one more than that of an edge that is neither pending nor
active. -/
def nextNonce (existing : Option RelationshipRecord) : Except Failure ℕ :=
  match existing with
  | none => pure 1
  | some edge => do
    require (edge.status != .pending) "already pending"
    require (edge.status != .active) "already friends"
    pure (wrapAdd 64 edge.nonce 1)

/-! ### Methods -/

def setTokenContract (host : Host) (env : Env) (args : SetContractArguments) (state : State) :
    Except Failure (State × List Event) := do
  requireAuthority env host.contractId
  let address ← Util.requireAddress args.address "token"
  pure ({ state with usage := some address }, [])

def setIdentityContract (host : Host) (env : Env) (args : SetContractArguments) (state : State) :
    Except Failure (State × List Event) := do
  requireAuthority env host.contractId
  let address ← Util.requireAddress args.address "address"
  pure ({ state with config := some address }, [])

def requestFriend (env : Env) (args : RequestFriendArguments) (state : State) :
    Except Failure (State × List Event) := do
  let requester ← Util.requireAddress args.requester "requester"
  let recipient ← Util.requireAddress args.recipient "recipient"
  require (requester != recipient) "cannot friend yourself"
  let _ ← Actor.requireAuthorized env (identityContract state) requester.val args.device
    Capability.RELATIONSHIPS
  let registered ← Actor.existsIdentity env (identityContract state) recipient.val
  require registered "recipient not registered"
  requireNotBlocked state requester recipient "recipient"
  let nonce ← nextNonce (state.edges.get (pairKey requester.val recipient.val))
  let first := if Util.compare requester.val recipient.val < 0 then requester else recipient
  let second := if Util.compare requester.val recipient.val < 0 then recipient else requester
  consume env state requester
  pure (state.putEdge requester recipient ⟨first, second, .pending, requester, nonce, env.now⟩,
    [.friendRequested requester recipient nonce env.now])

def acceptFriend (env : Env) (args : AcceptFriendArguments) (state : State) :
    Except Failure (State × List Event) := do
  let approver ← Util.requireAddress args.approver "approver"
  let requester ← Util.requireAddress args.requester "requester"
  require (approver != requester) "approver and requester must differ"
  let _ ← Actor.requireAuthorized env (identityContract state) approver.val args.device
    Capability.RELATIONSHIPS
  requireNotBlocked state approver requester "requester"
  let keyPackageRef ← optionalKeyPackageRef args.keyPackageRef
  let edge ← requireSome ((state.edges.get (pairKey approver.val requester.val)).filter
    fun edge => edge.status == .pending) "no pending request"
  require (edge.requester == requester) "requester mismatch"
  let nonce := wrapAdd 64 edge.nonce 1
  pure (state.putEdge approver requester { edge with
      status := .active, nonce := nonce, updatedAt := env.now },
    [.friendAccepted approver requester nonce keyPackageRef env.now])

def removeFriend (env : Env) (args : RemoveFriendArguments) (state : State) :
    Except Failure (State × List Event) := do
  let actor ← Util.requireAddress args.actor "actor"
  let peer ← Util.requireAddress args.peer "peer"
  require (actor != peer) "actor and peer must differ"
  let _ ← Actor.requireAuthorized env (identityContract state) actor.val args.device
    Capability.RELATIONSHIPS
  let edge ← requireSome ((state.edges.get (pairKey actor.val peer.val)).filter
    fun edge => edge.status == .active) "not friends"
  let nonce := wrapAdd 64 edge.nonce 1
  let ended := state.putEdge actor peer { edge with
    status := .inactive, nonce := nonce, updatedAt := env.now }
  let (rotated, newEpoch) ← advanceEpoch env actor ended
  let (after, peerEpoch) ← advanceEpoch env peer rotated
  pure (after,
    [.friendRemoved actor peer nonce newEpoch env.now,
      .audienceRotated actor newEpoch REASON_FRIEND_REMOVED env.now,
      .audienceRotated peer peerEpoch REASON_FRIEND_REMOVED env.now])

/-- Whether a block ends an edge: any pending or active friendship. -/
def endsEdge (edge : RelationshipRecord) : Bool :=
  edge.status == .pending || edge.status == .active

/-- What a block does to the edge of the pair. -/
def endEdge (env : Env) (actor target : Address) (state : State) : State :=
  match state.edges.get (pairKey actor.val target.val) with
  | none => state
  | some edge =>
    if endsEdge edge then
      state.putEdge actor target { edge with
        status := .inactive, nonce := wrapAdd 64 edge.nonce 1, updatedAt := env.now }
    else state

/-- A block that ends an active friendship rotates the target's audience too. -/
def rotateTarget (env : Env) (target : Address) (wasActive : Bool) (state : State) :
    Except Failure (State × List Event) :=
  if wasActive then do
    let (after, newEpoch) ← advanceEpoch env target state
    pure (after, [.audienceRotated target newEpoch REASON_BLOCKED env.now])
  else
    pure (state, [])

/-- Block an account. No friend_removed event is emitted: the blocked event stands for it. -/
def block (env : Env) (args : BlockArguments) (state : State) :
    Except Failure (State × List Event) := do
  let actor ← Util.requireAddress args.actor "actor"
  let target ← Util.requireAddress args.target "target"
  require (actor != target) "cannot block yourself"
  let _ ← Actor.requireAuthorized env (identityContract state) actor.val [] 0
  require (!hasBlocked state actor.val target.val) "already blocked"
  let wasActive := (state.edges.get (pairKey actor.val target.val)).elim false
    fun edge => edge.status == .active
  let blocked := endEdge env actor target (state.putBlock actor target ⟨true, env.now⟩)
  let unfollowed := (blocked.removeFollow actor target).removeFollow target actor
  let (rotated, newEpoch) ← advanceEpoch env actor unfollowed
  let (after, events) ← rotateTarget env target wasActive rotated
  pure (after,
    [.blocked actor target newEpoch env.now,
      .audienceRotated actor newEpoch REASON_BLOCKED env.now] ++ events)

def unblock (env : Env) (args : BlockArguments) (state : State) :
    Except Failure (State × List Event) := do
  let actor ← Util.requireAddress args.actor "actor"
  let target ← Util.requireAddress args.target "target"
  require (actor != target) "cannot unblock yourself"
  let _ ← Actor.requireAuthorized env (identityContract state) actor.val [] 0
  require (hasBlocked state actor.val target.val) "not blocked"
  pure (state.removeBlock actor target, [.unblocked actor target env.now])

def follow (env : Env) (args : FollowArguments) (state : State) :
    Except Failure (State × List Event) := do
  let follower ← Util.requireAddress args.follower "follower"
  let target ← Util.requireAddress args.target "target"
  require (follower != target) "cannot follow yourself"
  let _ ← Actor.requireAuthorized env (identityContract state) follower.val args.device
    Capability.RELATIONSHIPS
  let registered ← Actor.existsIdentity env (identityContract state) target.val
  require registered "target not registered"
  requireNotBlocked state follower target "target"
  require (!isFollowing state follower.val target.val) "already following"
  consume env state follower
  pure (state.putFollow follower target ⟨true, env.now⟩, [.followed follower target env.now])

def unfollow (env : Env) (args : FollowArguments) (state : State) :
    Except Failure (State × List Event) := do
  let follower ← Util.requireAddress args.follower "follower"
  let target ← Util.requireAddress args.target "target"
  require (follower != target) "cannot unfollow yourself"
  let _ ← Actor.requireAuthorized env (identityContract state) follower.val args.device
    Capability.RELATIONSHIPS
  require (isFollowing state follower.val target.val) "not following"
  pure (state.removeFollow follower target, [.unfollowed follower target env.now])

def rotateAudience (env : Env) (args : RotateAudienceArguments) (state : State) :
    Except Failure (State × List Event) := do
  let actor ← Util.requireAddress args.actor "actor"
  let _ ← Actor.requireAuthorized env (identityContract state) actor.val args.device
    Capability.RELATIONSHIPS
  let (after, newEpoch) ← advanceEpoch env actor state
  pure (after, [.audienceRotated actor newEpoch REASON_MANUAL env.now])

/-! ### The contract as a transaction machine -/

/-- One call of a mutating method. -/
inductive Operation where
  | setTokenContract (args : SetContractArguments)
  | setIdentityContract (args : SetContractArguments)
  | requestFriend (args : RequestFriendArguments)
  | acceptFriend (args : AcceptFriendArguments)
  | removeFriend (args : RemoveFriendArguments)
  | block (args : BlockArguments)
  | unblock (args : BlockArguments)
  | follow (args : FollowArguments)
  | unfollow (args : FollowArguments)
  | rotateAudience (args : RotateAudienceArguments)

/-- A method call together with the environment it runs in. -/
structure Call where
  env : Env
  operation : Operation

/-- The block time of a call. -/
def Call.time (call : Call) : ℕ := call.env.now

def execute (host : Host) (state : State) (call : Call) : Except Failure (State × List Event) :=
  match call.operation with
  | .setTokenContract args => setTokenContract host call.env args state
  | .setIdentityContract args => setIdentityContract host call.env args state
  | .requestFriend args => requestFriend call.env args state
  | .acceptFriend args => acceptFriend call.env args state
  | .removeFriend args => removeFriend call.env args state
  | .block args => block call.env args state
  | .unblock args => unblock call.env args state
  | .follow args => follow call.env args state
  | .unfollow args => unfollow call.env args state
  | .rotateAudience args => rotateAudience call.env args state

def empty : State := ⟨none, none, ∅, ∅, ∅, ∅⟩

/-- The relationships contract from its empty store. -/
def machine (host : Host) : Machine State Call (List Event) Failure := ⟨empty, execute host⟩

/-! ### Read methods -/

def getRelationship (state : State) (a b : Bytes) : Option RelationshipRecord :=
  if a = [] ∨ b = [] then none else state.edges.get (pairKey a b)

def getAudience (state : State) (account : Bytes) : AudienceState :=
  if account = [] then ⟨0, 0⟩ else loadAudience state account

def isBlocked (state : State) (actor target : Bytes) : Bool :=
  if actor = [] ∨ target = [] then false else hasBlocked state actor target

def getFollow (state : State) (follower target : Bytes) : Option FollowRecord :=
  if follower = [] ∨ target = [] then none else state.follows.get (directedKey follower target)

end OpenSocial.Relationships

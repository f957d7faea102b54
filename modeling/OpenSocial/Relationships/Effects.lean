/-
This file states once what an accepted relationships call can do, one case for
each way a method can succeed.

A rotation of an audience is a pure function of the state; removing a friend and
blocking are compositions of it with the changed edge.
-/

import OpenSocial.Relationships.Contract

namespace OpenSocial.Relationships

open Library Library.Word

/-! ### Pure effects -/

/-- The audience epoch of an account. -/
def epochOf (state : State) (account : Address) : ℕ :=
  (loadAudience state account.val).epoch

/-- The state after rotating an audience. -/
def rotated (state : State) (account : Address) (now : ℕ) : State :=
  state.putAudience account ⟨epochOf state account + 1, now⟩

/-- An edge after any transition: a new status and the next nonce. -/
def moved (edge : RelationshipRecord) (status : RelationshipStatus) (now : ℕ) :
    RelationshipRecord :=
  { edge with status := status, nonce := wrapAdd 64 edge.nonce 1, updatedAt := now }

/-- The state after a block, before any audience rotates. -/
def blockedState (state : State) (actor target : Address) (env : Env) : State :=
  ((endEdge env actor target (state.putBlock actor target ⟨true, env.now⟩)).removeFollow actor
    target).removeFollow target actor

/-- Whether the two accounts are friends. -/
def areFriends (state : State) (x y : Address) : Bool :=
  (state.edges.get (pairKey x.val y.val)).elim false fun edge => edge.status == .active

/-! ### Effects -/

/-- What an accepted call of each method does. -/
inductive Effect (host : Host) (env : Env) (state : State) :
    Operation → State → List Event → Prop where
  | tokenContractSet (address : Address) (authorized : env.authority host.contractId = true) :
      Effect host env state (.setTokenContract ⟨address.val⟩)
        { state with usage := some address } []
  | identityContractSet (address : Address) (authorized : env.authority host.contractId = true) :
      Effect host env state (.setIdentityContract ⟨address.val⟩)
        { state with config := some address } []
  | requested (requester recipient : Address) (device signer : Bytes) (nonce : ℕ)
      (different : requester ≠ recipient)
      (authorized : Actor.requireAuthorized env (identityContract state) requester.val device
        Capability.RELATIONSHIPS = .ok signer)
      (registered :
        Actor.existsIdentity env (identityContract state) recipient.val = .ok true)
      (free : hasBlocked state requester.val recipient.val = false)
      (welcome : hasBlocked state recipient.val requester.val = false)
      (next : nextNonce (state.edges.get (pairKey requester.val recipient.val)) = .ok nonce)
      (charged : consume env state requester = .ok ()) :
      Effect host env state (.requestFriend ⟨requester.val, recipient.val, device⟩)
        (state.putEdge requester recipient
          ⟨if Util.compare requester.val recipient.val < 0 then requester else recipient,
            if Util.compare requester.val recipient.val < 0 then recipient else requester,
            .pending, requester, nonce, env.now⟩)
        [.friendRequested requester recipient nonce env.now]
  | accepted (approver requester : Address) (device keyPackageRef signer : Bytes)
      (edge : RelationshipRecord) (different : approver ≠ requester)
      (authorized : Actor.requireAuthorized env (identityContract state) approver.val device
        Capability.RELATIONSHIPS = .ok signer)
      (free : hasBlocked state approver.val requester.val = false)
      (welcome : hasBlocked state requester.val approver.val = false)
      (known : state.edges.get (pairKey approver.val requester.val) = some edge)
      (pending : edge.status = .pending) (sent : edge.requester = requester) :
      Effect host env state
        (.acceptFriend ⟨approver.val, requester.val, device, keyPackageRef⟩)
        (state.putEdge approver requester (moved edge .active env.now))
        [.friendAccepted approver requester (wrapAdd 64 edge.nonce 1) keyPackageRef env.now]
  | removed (actor peer : Address) (device signer : Bytes) (edge : RelationshipRecord)
      (different : actor ≠ peer)
      (authorized : Actor.requireAuthorized env (identityContract state) actor.val device
        Capability.RELATIONSHIPS = .ok signer)
      (known : state.edges.get (pairKey actor.val peer.val) = some edge)
      (active : edge.status = .active)
      (room : epochOf state actor < 2 ^ 32 - 1) (peerRoom : epochOf state peer < 2 ^ 32 - 1) :
      Effect host env state (.removeFriend ⟨actor.val, peer.val, device⟩)
        (rotated (rotated (state.putEdge actor peer (moved edge .inactive env.now)) actor env.now)
          peer env.now)
        [.friendRemoved actor peer (wrapAdd 64 edge.nonce 1) (epochOf state actor + 1) env.now,
          .audienceRotated actor (epochOf state actor + 1) REASON_FRIEND_REMOVED env.now,
          .audienceRotated peer (epochOf state peer + 1) REASON_FRIEND_REMOVED env.now]
  | blockedOther (actor target : Address) (signer : Bytes) (different : actor ≠ target)
      (authorized :
        Actor.requireAuthorized env (identityContract state) actor.val [] 0 = .ok signer)
      (fresh : hasBlocked state actor.val target.val = false)
      (room : epochOf state actor < 2 ^ 32 - 1) (apart : areFriends state actor target = false) :
      Effect host env state (.block ⟨actor.val, target.val⟩)
        (rotated (blockedState state actor target env) actor env.now)
        [.blocked actor target (epochOf state actor + 1) env.now,
          .audienceRotated actor (epochOf state actor + 1) REASON_BLOCKED env.now]
  | blockedFriend (actor target : Address) (signer : Bytes) (different : actor ≠ target)
      (authorized :
        Actor.requireAuthorized env (identityContract state) actor.val [] 0 = .ok signer)
      (fresh : hasBlocked state actor.val target.val = false)
      (room : epochOf state actor < 2 ^ 32 - 1) (targetRoom : epochOf state target < 2 ^ 32 - 1)
      (friends : areFriends state actor target = true) :
      Effect host env state (.block ⟨actor.val, target.val⟩)
        (rotated (rotated (blockedState state actor target env) actor env.now) target env.now)
        [.blocked actor target (epochOf state actor + 1) env.now,
          .audienceRotated actor (epochOf state actor + 1) REASON_BLOCKED env.now,
          .audienceRotated target (epochOf state target + 1) REASON_BLOCKED env.now]
  | unblocked (actor target : Address) (signer : Bytes) (different : actor ≠ target)
      (authorized :
        Actor.requireAuthorized env (identityContract state) actor.val [] 0 = .ok signer)
      (blocked : hasBlocked state actor.val target.val = true) :
      Effect host env state (.unblock ⟨actor.val, target.val⟩) (state.removeBlock actor target)
        [.unblocked actor target env.now]
  | followed (follower target : Address) (device signer : Bytes) (different : follower ≠ target)
      (authorized : Actor.requireAuthorized env (identityContract state) follower.val device
        Capability.RELATIONSHIPS = .ok signer)
      (registered : Actor.existsIdentity env (identityContract state) target.val = .ok true)
      (free : hasBlocked state follower.val target.val = false)
      (welcome : hasBlocked state target.val follower.val = false)
      (fresh : isFollowing state follower.val target.val = false)
      (charged : consume env state follower = .ok ()) :
      Effect host env state (.follow ⟨follower.val, target.val, device⟩)
        (state.putFollow follower target ⟨true, env.now⟩) [.followed follower target env.now]
  | unfollowed (follower target : Address) (device signer : Bytes) (different : follower ≠ target)
      (authorized : Actor.requireAuthorized env (identityContract state) follower.val device
        Capability.RELATIONSHIPS = .ok signer)
      (following : isFollowing state follower.val target.val = true) :
      Effect host env state (.unfollow ⟨follower.val, target.val, device⟩)
        (state.removeFollow follower target) [.unfollowed follower target env.now]
  | audienceRotated (actor : Address) (device signer : Bytes)
      (authorized : Actor.requireAuthorized env (identityContract state) actor.val device
        Capability.RELATIONSHIPS = .ok signer)
      (room : epochOf state actor < 2 ^ 32 - 1) :
      Effect host env state (.rotateAudience ⟨actor.val, device⟩) (rotated state actor env.now)
        [.audienceRotated actor (epochOf state actor + 1) REASON_MANUAL env.now]

/-! ### Inverting the methods -/

@[simp] theorem requireNotBlocked_eq_ok (state : State) (actor other : Address) (what : String)
    (result : Unit) :
    requireNotBlocked state actor other what = .ok result ↔
      hasBlocked state actor.val other.val = false ∧
        hasBlocked state other.val actor.val = false := by
  simp only [requireNotBlocked, bind_eq_ok, require_eq_ok, exists_const, Bool.not_eq_eq_eq_not,
    Bool.not_true]

@[simp] theorem advanceEpoch_eq_ok (env : Env) (account : Address) (state after : State)
    (epoch : ℕ) :
    advanceEpoch env account state = .ok (after, epoch) ↔
      epochOf state account < 2 ^ 32 - 1 ∧ rotated state account env.now = after ∧
        epochOf state account + 1 = epoch := by
  simp only [advanceEpoch, bind_eq_ok, require_eq_ok, pure_eq_ok, exists_const, decide_eq_true_eq,
    Prod.mk.injEq]
  rfl

theorem epochOf_rotated_other (state : State) {account other : Address} (now : ℕ)
    (different : other ≠ account) :
    epochOf (rotated state account now) other = epochOf state other := by
  have distinct : other.val ≠ account.val := fun same => different (Subtype.ext same)
  unfold epochOf loadAudience rotated State.putAudience
  rw [Store.get_put, if_neg distinct]

theorem epochOf_rotated_self (state : State) (account : Address) (now : ℕ) :
    epochOf (rotated state account now) account = epochOf state account + 1 := by
  unfold rotated State.putAudience
  rw [epochOf, loadAudience, Store.get_put, if_pos rfl, Option.getD_some]

theorem endEdge_audiences (env : Env) (actor target : Address) (state : State) :
    (endEdge env actor target state).audiences = state.audiences := by
  unfold endEdge
  split
  · rfl
  · split <;> rfl

theorem endEdge_blocks (env : Env) (actor target : Address) (state : State) :
    (endEdge env actor target state).blocks = state.blocks := by
  unfold endEdge
  split
  · rfl
  · split <;> rfl

theorem endEdge_follows (env : Env) (actor target : Address) (state : State) :
    (endEdge env actor target state).follows = state.follows := by
  unfold endEdge
  split
  · rfl
  · split <;> rfl

theorem epochOf_blockedState (state : State) (actor target account : Address) (env : Env) :
    epochOf (blockedState state actor target env) account = epochOf state account := by
  have same : (blockedState state actor target env).audiences = state.audiences :=
    endEdge_audiences env actor target (state.putBlock actor target ⟨true, env.now⟩)
  unfold epochOf loadAudience
  rw [same]

/-- Every accepted call has the effect of its method. -/
theorem effect_of_accepted {host : Host} {env : Env} {operation : Operation} {state after : State}
    {events : List Event} (answer : execute host state ⟨env, operation⟩ = .ok (after, events)) :
    Effect host env state operation after events := by
  cases operation with
  | setTokenContract args =>
    obtain ⟨address⟩ := args
    simp only [execute, setTokenContract, bind_eq_ok, pure_eq_ok, requireAuthority_eq_ok,
      Util.requireAddress_eq_ok, exists_const, Prod.mk.injEq] at answer
    obtain ⟨authorized, address, rfl, rfl, rfl⟩ := answer
    exact .tokenContractSet address authorized
  | setIdentityContract args =>
    obtain ⟨address⟩ := args
    simp only [execute, setIdentityContract, bind_eq_ok, pure_eq_ok, requireAuthority_eq_ok,
      Util.requireAddress_eq_ok, exists_const, Prod.mk.injEq] at answer
    obtain ⟨authorized, address, rfl, rfl, rfl⟩ := answer
    exact .identityContractSet address authorized
  | requestFriend args =>
    obtain ⟨requester, recipient, device⟩ := args
    simp only [execute, requestFriend, bind_eq_ok, pure_eq_ok, require_eq_ok,
      requireNotBlocked_eq_ok, Util.requireAddress_eq_ok, exists_const, Prod.mk.injEq,
      bne_iff_ne] at answer
    obtain ⟨requester, rfl, recipient, rfl, different, signer, authorized, registered, exists_eq,
      rfl, ⟨free, welcome⟩, nonce, next, _, charged, rfl, rfl⟩ := answer
    exact .requested requester recipient device signer nonce different authorized exists_eq free
      welcome next charged
  | acceptFriend args =>
    obtain ⟨approver, requester, device, keyPackageRef⟩ := args
    simp only [execute, acceptFriend, optionalKeyPackageRef, bind_eq_ok, pure_eq_ok, require_eq_ok,
      requireSome_eq_ok, requireNotBlocked_eq_ok, Util.requireAddress_eq_ok,
      Util.optionalExact_eq_ok, exists_const, Prod.mk.injEq, bne_iff_ne, beq_iff_eq,
      Option.filter_eq_some_iff] at answer
    obtain ⟨approver, rfl, requester, rfl, different, signer, authorized, ⟨free, welcome⟩,
      keyPackageRef, ⟨rfl, _⟩, edge, ⟨known, pending⟩, sent, rfl, rfl⟩ := answer
    exact .accepted approver requester device keyPackageRef signer edge different authorized free
      welcome known pending sent
  | removeFriend args =>
    obtain ⟨actor, peer, device⟩ := args
    simp only [execute, removeFriend, bind_eq_ok, pure_eq_ok, require_eq_ok, requireSome_eq_ok,
      advanceEpoch_eq_ok, Util.requireAddress_eq_ok, exists_const, Prod.exists, Prod.mk.injEq,
      bne_iff_ne, beq_iff_eq, Option.filter_eq_some_iff] at answer
    obtain ⟨actor, rfl, peer, rfl, different, signer, authorized, edge, ⟨known, active⟩, _, _,
      ⟨room, rfl, rfl⟩, _, _, ⟨peerRoom, rfl, rfl⟩, rfl, rfl⟩ := answer
    rw [epochOf_rotated_other _ env.now (Ne.symm different)] at peerRoom ⊢
    exact .removed actor peer device signer edge different authorized known active room peerRoom
  | block args =>
    obtain ⟨actor, target⟩ := args
    simp only [execute, block, bind_eq_ok, pure_eq_ok, require_eq_ok, advanceEpoch_eq_ok,
      Util.requireAddress_eq_ok, exists_const, Prod.exists, Prod.mk.injEq, bne_iff_ne,
      Bool.not_eq_eq_eq_not, Bool.not_true] at answer
    obtain ⟨actor, rfl, target, rfl, different, signer, authorized, fresh, _, _, ⟨room, rfl, rfl⟩,
      after, events, answer, rfl, rfl⟩ := answer
    have room : epochOf (blockedState state actor target env) actor < 2 ^ 32 - 1 := room
    have epoch : epochOf (blockedState state actor target env) actor = epochOf state actor :=
      epochOf_blockedState state actor target actor env
    have targetEpoch : epochOf (rotated (blockedState state actor target env) actor env.now)
        target = epochOf state target :=
      (epochOf_rotated_other _ env.now (Ne.symm different)).trans
        (epochOf_blockedState state actor target target env)
    rw [epoch] at room
    unfold rotateTarget at answer
    split at answer
    · next friends =>
      simp only [bind_eq_ok, pure_eq_ok, advanceEpoch_eq_ok, Prod.exists, Prod.mk.injEq] at answer
      obtain ⟨_, _, ⟨targetRoom, rfl, rfl⟩, rfl, rfl⟩ := answer
      have targetRoom : epochOf (rotated (blockedState state actor target env) actor env.now)
        target < 2 ^ 32 - 1 := targetRoom
      have effect : Effect host _ _ _ _ _ := .blockedFriend actor target signer different authorized
        fresh room (targetEpoch ▸ targetRoom) friends
      rw [← epoch, ← targetEpoch] at effect
      exact effect
    · next apart =>
      rw [pure_eq_ok, Prod.mk.injEq] at answer
      obtain ⟨rfl, rfl⟩ := answer
      have effect : Effect host _ _ _ _ _ := .blockedOther actor target signer different authorized
        fresh room (Bool.eq_false_of_not_eq_true apart)
      rw [← epoch] at effect
      exact effect
  | unblock args =>
    obtain ⟨actor, target⟩ := args
    simp only [execute, unblock, bind_eq_ok, pure_eq_ok, require_eq_ok, Util.requireAddress_eq_ok,
      exists_const, Prod.mk.injEq, bne_iff_ne] at answer
    obtain ⟨actor, rfl, target, rfl, different, signer, authorized, blocked, rfl, rfl⟩ := answer
    exact .unblocked actor target signer different authorized blocked
  | follow args =>
    obtain ⟨follower, target, device⟩ := args
    simp only [execute, follow, bind_eq_ok, pure_eq_ok, require_eq_ok, requireNotBlocked_eq_ok,
      Util.requireAddress_eq_ok, exists_const, Prod.mk.injEq, bne_iff_ne, Bool.not_eq_eq_eq_not,
      Bool.not_true] at answer
    obtain ⟨follower, rfl, target, rfl, different, signer, authorized, registered, exists_eq, rfl,
      ⟨free, welcome⟩, fresh, _, charged, rfl, rfl⟩ := answer
    exact .followed follower target device signer different authorized exists_eq free welcome fresh
      charged
  | unfollow args =>
    obtain ⟨follower, target, device⟩ := args
    simp only [execute, unfollow, bind_eq_ok, pure_eq_ok, require_eq_ok, Util.requireAddress_eq_ok,
      exists_const, Prod.mk.injEq, bne_iff_ne] at answer
    obtain ⟨follower, rfl, target, rfl, different, signer, authorized, following, rfl, rfl⟩ :=
      answer
    exact .unfollowed follower target device signer different authorized following
  | rotateAudience args =>
    obtain ⟨actor, device⟩ := args
    simp only [execute, rotateAudience, bind_eq_ok, pure_eq_ok, advanceEpoch_eq_ok,
      Util.requireAddress_eq_ok, Prod.exists, Prod.mk.injEq] at answer
    obtain ⟨actor, rfl, signer, authorized, _, _, ⟨room, rfl, rfl⟩, rfl, rfl⟩ := answer
    exact .audienceRotated actor device signer authorized room

/-- The effect of an entry of a history. -/
theorem effect_of_entry {host : Host} (entry : (machine host).Accepted) :
    Effect host entry.call.env entry.before entry.call.operation entry.after entry.output :=
  effect_of_accepted entry.accepted

end OpenSocial.Relationships

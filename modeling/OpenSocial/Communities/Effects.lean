/-
This file states once what an accepted communities call can do, one case for
each way a method can succeed.
-/

import OpenSocial.Communities.Contract

namespace OpenSocial.Communities

open Library Library.Word

/-- What an accepted call of each method does. -/
inductive Effect (host : Host) (env : Env) (state : State) :
    Operation → State → List Event → Prop where
  | identityContractSet (address : Address) (authorized : env.authority host.contractId = true) :
      Effect host env state (.setIdentityContract ⟨address.val⟩)
        { state with config := some address } []
  | created (creator : Address) (id : Bytes) (name : String) (policyHash : Bytes)
      (policyUri : String) (transferDelayMs : ℕ) (signer : Bytes) (identified : id ≠ [])
      (idBound : id.length ≤ ID_MAX_LENGTH) (delayBound : transferDelayMs ≤ TRANSFER_DELAY_MAX_MS)
      (authorized :
        Actor.requireAuthorized env (identityContract state) creator.val [] 0 = .ok signer)
      (fresh : state.communities.get id = none) :
      Effect host env state
        (.createCommunity ⟨creator.val, id, name, policyHash, policyUri, transferDelayMs⟩)
        (state.putCommunity id
          ⟨id, creator, name, policyHash, policyUri, transferDelayMs, none, 0, env.now, env.now⟩)
        [.communityCreated id creator name policyHash policyUri transferDelayMs env.now]
  | roleSet (communityId : Bytes) (actor subject : Address) (wire : ℤ) (role : CommunityRole)
      (scope : Bytes) (expiresAt : ℕ) (device : Bytes) (community : CommunityRecord)
      (signer : Bytes) (decoded : CommunityRole.ofWire wire = some role)
      (future : expiresAt = 0 ∨ env.now < expiresAt)
      (known : state.communities.get communityId = some community)
      (authorized : Actor.requireAuthorized env (identityContract state) actor.val device
        Capability.COMMUNITY = .ok signer)
      (ranked : RANK_ADMIN ≤ effectiveRank state community actor env.now)
      (notOwner : community.owner ≠ subject) (explicit : role ≠ .owner)
      (manageable : effectiveRank state community actor env.now < RANK_OWNER →
        rank role < RANK_ADMIN ∧ effectiveRank state community subject env.now < RANK_ADMIN) :
      Effect host env state
        (.setRole ⟨communityId, actor.val, subject.val, wire, scope, expiresAt, device⟩)
        (writeRole state communityId subject ⟨role, scope, expiresAt, actor, env.now⟩)
        [.roleSet communityId actor subject role scope expiresAt env.now]
  | policySet (communityId : Bytes) (actor : Address) (policyHash : Bytes) (policyUri : String)
      (device : Bytes) (community : CommunityRecord) (signer : Bytes)
      (known : state.communities.get communityId = some community)
      (authorized : Actor.requireAuthorized env (identityContract state) actor.val device
        Capability.COMMUNITY = .ok signer)
      (ranked : RANK_ADMIN ≤ effectiveRank state community actor env.now) :
      Effect host env state
        (.setPolicy ⟨communityId, actor.val, policyHash, policyUri, device⟩)
        (state.putCommunity communityId { community with
          policyHash := policyHash, policyUri := policyUri, updatedAt := env.now })
        [.policySet communityId actor policyHash policyUri env.now]
  | transferProposed (communityId : Bytes) (newOwner : Address) (community : CommunityRecord)
      (signer : Bytes) (different : community.owner ≠ newOwner)
      (known : state.communities.get communityId = some community)
      (authorized :
        Actor.requireAuthorized env (identityContract state) community.owner.val [] 0 =
          .ok signer) :
      Effect host env state
        (.proposeOwnerTransfer ⟨communityId, community.owner.val, newOwner.val⟩)
        (state.putCommunity communityId { community with
          pendingOwner := some newOwner
          transferEffectiveAt := wrapAdd 64 env.now community.transferDelayMs
          updatedAt := env.now })
        [.ownerTransferProposed communityId community.owner newOwner
          (wrapAdd 64 env.now community.transferDelayMs)]
  | transferCancelled (communityId : Bytes) (community : CommunityRecord) (pending : Address)
      (signer : Bytes) (known : state.communities.get communityId = some community)
      (authorized :
        Actor.requireAuthorized env (identityContract state) community.owner.val [] 0 = .ok signer)
      (proposed : community.pendingOwner = some pending) :
      Effect host env state (.cancelOwnerTransfer ⟨communityId, community.owner.val⟩)
        (state.putCommunity communityId { community with
          pendingOwner := none, transferEffectiveAt := 0, updatedAt := env.now })
        [.ownerTransferCancelled communityId env.now]
  | transferred (communityId : Bytes) (community : CommunityRecord) (newOwner : Address)
      (known : state.communities.get communityId = some community)
      (proposed : community.pendingOwner = some newOwner)
      (elapsed : community.transferEffectiveAt ≤ env.now) :
      Effect host env state (.executeOwnerTransfer ⟨communityId⟩)
        ((state.putCommunity communityId { community with
          owner := newOwner, pendingOwner := none, transferEffectiveAt := 0,
          updatedAt := env.now }).removeRole communityId newOwner)
        [.ownerTransferred communityId community.owner newOwner env.now]
  | labelled (communityId : Bytes) (actor : Address) (postId : Bytes) (label reason : String)
      (device : Bytes) (community : CommunityRecord) (signer : Bytes)
      (postIdLength : postId.length = POST_ID_LENGTH)
      (known : state.communities.get communityId = some community)
      (authorized : Actor.requireAuthorized env (identityContract state) actor.val device
        Capability.COMMUNITY = .ok signer)
      (ranked : RANK_MODERATOR ≤ effectiveRank state community actor env.now) :
      Effect host env state
        (.setLabel ⟨communityId, actor.val, postId, label, reason, device⟩) state
        [.labelSet communityId actor postId label reason env.now]

/-! ### Inverting the methods -/

@[simp] theorem requireManageable_eq_ok (state : State) (community : CommunityRecord)
    (subject : Address) (role : CommunityRole) (actorRank now : ℕ) (result : Unit) :
    requireManageable state community subject role actorRank now = .ok result ↔
      (actorRank < RANK_OWNER →
        rank role < RANK_ADMIN ∧ effectiveRank state community subject now < RANK_ADMIN) := by
  unfold requireManageable
  split
  · next below =>
    simp only [bind_eq_ok, require_eq_ok, exists_const, decide_eq_true_eq, below, true_implies]
  · next ranked =>
    simp only [pure_eq_ok, ranked, false_implies]

/-- Every accepted call has the effect of its method. -/
theorem effect_of_accepted {host : Host} {env : Env} {operation : Operation} {state after : State}
    {events : List Event} (answer : execute host state ⟨env, operation⟩ = .ok (after, events)) :
    Effect host env state operation after events := by
  cases operation with
  | setIdentityContract args =>
    obtain ⟨address⟩ := args
    simp only [execute, setIdentityContract, bind_eq_ok, pure_eq_ok, requireAuthority_eq_ok,
      Util.requireAddress_eq_ok, exists_const, Prod.mk.injEq] at answer
    obtain ⟨authorized, address, rfl, rfl, rfl⟩ := answer
    exact .identityContractSet address authorized
  | createCommunity args =>
    obtain ⟨creator, id, name, policyHash, policyUri, transferDelayMs⟩ := args
    simp only [execute, createCommunity, requireCommunityId, optionalPolicyHash, optionalPolicyUri,
      bind_eq_ok, pure_eq_ok, require_eq_ok, Util.requireAddress_eq_ok, Util.requireBytes_eq_ok,
      Util.requireString_eq_ok, Util.optionalExact_eq_ok, exists_const, Prod.mk.injEq,
      decide_eq_true_eq, Bool.not_eq_eq_eq_not, Bool.not_true, Store.has_eq_false] at answer
    obtain ⟨creator, rfl, id, ⟨rfl, identified, idBound⟩, name, ⟨rfl, _⟩, _, policyHash, ⟨rfl, _⟩,
      policyUri, ⟨rfl, _⟩, delayBound, signer, authorized, fresh, rfl, rfl⟩ := answer
    exact .created creator id name policyHash policyUri transferDelayMs signer identified idBound
      delayBound authorized fresh
  | setRole args =>
    obtain ⟨communityId, actor, subject, wire, scope, expiresAt, device⟩ := args
    simp only [execute, setRole, requireCommunityId, optionalScope, requireCommunity, bind_eq_ok,
      pure_eq_ok, require_eq_ok, requireSome_eq_ok, Util.requireAddress_eq_ok,
      Util.requireBytes_eq_ok, requireManageable_eq_ok, exists_const, Prod.mk.injEq,
      decide_eq_true_eq, Bool.or_eq_true, beq_iff_eq, bne_iff_ne] at answer
    obtain ⟨communityId, ⟨rfl, _, _⟩, actor, rfl, subject, rfl, role, decoded, scope, ⟨_, rfl⟩,
      future, community, known, signer, authorized, ranked, notOwner, explicit, manageable, rfl,
      rfl⟩ := answer
    exact .roleSet communityId actor subject wire role scope expiresAt device community signer
      decoded future known authorized ranked notOwner explicit manageable
  | setPolicy args =>
    obtain ⟨communityId, actor, policyHash, policyUri, device⟩ := args
    simp only [execute, setPolicy, requireCommunityId, optionalPolicyHash, optionalPolicyUri,
      requireCommunity, bind_eq_ok, pure_eq_ok, require_eq_ok, requireSome_eq_ok,
      Util.requireAddress_eq_ok, Util.requireBytes_eq_ok, Util.requireString_eq_ok,
      Util.optionalExact_eq_ok, exists_const, Prod.mk.injEq, decide_eq_true_eq] at answer
    obtain ⟨communityId, ⟨rfl, _, _⟩, actor, rfl, policyHash, ⟨rfl, _⟩, policyUri, ⟨rfl, _⟩,
      community, known, signer, authorized, ranked, rfl, rfl⟩ := answer
    exact .policySet communityId actor policyHash policyUri device community signer known
      authorized ranked
  | proposeOwnerTransfer args =>
    obtain ⟨communityId, owner, newOwner⟩ := args
    simp only [execute, proposeOwnerTransfer, requireCommunityId, requireCommunity, bind_eq_ok,
      pure_eq_ok, require_eq_ok, requireSome_eq_ok, Util.requireAddress_eq_ok,
      Util.requireBytes_eq_ok, exists_const, Prod.mk.injEq, beq_iff_eq, bne_iff_ne] at answer
    obtain ⟨communityId, ⟨rfl, _, _⟩, owner, rfl, newOwner, rfl, different, community, known, rfl,
      signer, authorized, rfl, rfl⟩ := answer
    exact .transferProposed communityId newOwner community signer different known authorized
  | cancelOwnerTransfer args =>
    obtain ⟨communityId, owner⟩ := args
    simp only [execute, cancelOwnerTransfer, requireCommunityId, requireCommunity, bind_eq_ok,
      pure_eq_ok, require_eq_ok, requireSome_eq_ok, Util.requireAddress_eq_ok,
      Util.requireBytes_eq_ok, exists_const, Prod.mk.injEq, beq_iff_eq,
      Option.isSome_iff_exists] at answer
    obtain ⟨communityId, ⟨rfl, _, _⟩, owner, rfl, community, known, rfl, signer, authorized,
      ⟨pending, proposed⟩, rfl, rfl⟩ := answer
    exact .transferCancelled communityId community pending signer known authorized proposed
  | executeOwnerTransfer args =>
    obtain ⟨communityId⟩ := args
    simp only [execute, executeOwnerTransfer, requireCommunityId, requireCommunity, bind_eq_ok,
      pure_eq_ok, require_eq_ok, requireSome_eq_ok, Util.requireBytes_eq_ok, exists_const,
      Prod.mk.injEq, decide_eq_true_eq] at answer
    obtain ⟨communityId, ⟨rfl, _, _⟩, community, known, newOwner, proposed, elapsed, rfl, rfl⟩ :=
      answer
    exact .transferred communityId community newOwner known proposed elapsed
  | setLabel args =>
    obtain ⟨communityId, actor, postId, label, reason, device⟩ := args
    simp only [execute, setLabel, requireCommunityId, requireCommunity, bind_eq_ok, pure_eq_ok,
      require_eq_ok, requireSome_eq_ok, Util.requireAddress_eq_ok, Util.requireBytes_eq_ok,
      Util.requireString_eq_ok, exists_const, Prod.mk.injEq, decide_eq_true_eq, beq_iff_eq]
      at answer
    obtain ⟨communityId, ⟨rfl, _, _⟩, actor, rfl, postId, ⟨rfl, _, _⟩, postIdLength, label, ⟨rfl, _⟩,
      _, reason, ⟨rfl, _⟩, community, known, signer, authorized, ranked, rfl, rfl⟩ := answer
    exact .labelled communityId actor postId label reason device community signer postIdLength
      known authorized ranked

/-- The effect of an entry of a history. -/
theorem effect_of_entry {host : Host} (entry : (machine host).Accepted) :
    Effect host entry.call.env entry.before entry.call.operation entry.after entry.output :=
  effect_of_accepted entry.accepted

/-- Writing a role stores no community. -/
@[simp] theorem writeRole_communities (state : State) (communityId : Bytes) (subject : Address)
    (record : RoleRecord) :
    (writeRole state communityId subject record).communities = state.communities := by
  unfold writeRole
  split <;> rfl

theorem roleKey_inj {communityId other : Bytes} {subject account : Address} :
    roleKey communityId subject.val = roleKey other account.val ↔
      communityId = other ∧ subject = account :=
  Util.concat_inj_address

/-- Removing the role of a pair leaves every other record. -/
theorem removeRole_other (state : State) {communityId other : Bytes} {subject account : Address}
    (different : ¬(communityId = other ∧ subject = account)) :
    (state.removeRole communityId subject).roles.get (roleKey other account.val) =
      state.roles.get (roleKey other account.val) := by
  have distinct : roleKey other account.val ≠ roleKey communityId subject.val := fun same =>
    different (roleKey_inj.mp same.symm)
  rw [State.removeRole, Store.get_remove, if_neg distinct]

/-- Writing the role of a pair leaves every other record. -/
theorem writeRole_other {state : State} {communityId other : Bytes} {subject account : Address}
    (record : RoleRecord) (different : ¬(communityId = other ∧ subject = account)) :
    (writeRole state communityId subject record).roles.get (roleKey other account.val) =
      state.roles.get (roleKey other account.val) := by
  have distinct : roleKey other account.val ≠ roleKey communityId subject.val := fun same =>
    different (roleKey_inj.mp same.symm)
  unfold writeRole
  split
  · exact removeRole_other state different
  · rw [State.putRole, Store.get_put, if_neg distinct]

end OpenSocial.Communities

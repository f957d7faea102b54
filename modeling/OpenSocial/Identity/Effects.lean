/-
This file states once what an accepted identity call can do.

`Effect` has one case for each way a method can succeed: the guards that held,
the state it left and the events it emitted. Every later argument about the
contract is a case analysis over `Effect` and never unfolds a method.
-/

import OpenSocial.Identity.Contract

namespace OpenSocial.Identity

open Library Library.Word

/-- What an accepted call of each method does. -/
inductive Effect (env : Env) (state : State) : Operation → State → List Event → Prop where
  | registered (account : Address) (key : Bytes) (keyVersion : ℕ) (profileHash : Bytes)
      (profileUri : String) (authorized : env.authority account.val = true)
      (fresh : state.identities.get account.val = none) (keyLength : key.length = 32) :
      Effect env state (.register ⟨account.val, key, keyVersion, profileHash, profileUri⟩)
        (state.putIdentity account
          ⟨account, account, key, keyVersion, profileHash, profileUri, PROTOCOL_VERSION, 0,
            env.now, env.now⟩)
        [.registered account key keyVersion profileHash profileUri PROTOCOL_VERSION env.now]
  | profileUpdated (account : Address) (profileHash : Bytes) (profileUri : String)
      (device : Bytes) (record : IdentityRecord)
      (resolved : (resolve env state account.val device Capability.PROFILE).ok = true)
      (authorized :
        env.authority (resolve env state account.val device Capability.PROFILE).signer = true)
      (known : state.identities.get account.val = some record) :
      Effect env state (.updateProfile ⟨account.val, profileHash, profileUri, device⟩)
        (state.putIdentity account { record with
          profileHash := profileHash, profileUri := profileUri, updatedAt := env.now })
        [.profileUpdated account profileHash profileUri env.now]
  | keyRotated (account : Address) (key : Bytes) (keyVersion : ℕ) (record : IdentityRecord)
      (known : state.identities.get account.val = some record)
      (authorized : env.authority record.owner.val = true) (keyLength : key.length = 32)
      (increased : record.keyVersion < keyVersion) :
      Effect env state (.rotateEncryptionKey ⟨account.val, key, keyVersion⟩)
        (state.putIdentity account { record with
          encryptionKey := key, keyVersion := keyVersion, updatedAt := env.now })
        [.keyRotated account record.keyVersion key keyVersion env.now]
  | deviceAuthorized (account device : Address) (capabilities expiresAt : ℕ) (label : String)
      (record : IdentityRecord) (known : state.identities.get account.val = some record)
      (authorized : env.authority record.owner.val = true) (different : device ≠ account)
      (granted : capabilities ≠ 0) (bounded : capabilities ≤ MAX_CAPABILITIES)
      (future : env.now < expiresAt)
      (near : expiresAt ≤ wrapAdd 64 env.now MAX_DEVICE_LIFETIME_MS) :
      Effect env state
        (.authorizeDevice ⟨account.val, device.val, capabilities, expiresAt, label⟩)
        (state.putDevice account device
          ⟨account, device, capabilities, expiresAt, record.deviceEpoch, false, label, env.now⟩)
        [.deviceAuthorized account device capabilities expiresAt label record.deviceEpoch env.now]
  | deviceRevoked (account device : Address) (record : IdentityRecord) (stored : DeviceRecord)
      (known : state.identities.get account.val = some record)
      (authorized : env.authority record.owner.val = true)
      (present : state.devices.get (deviceKey account.val device.val) = some stored) :
      Effect env state (.revokeDevice ⟨account.val, device.val⟩)
        (state.putDevice account device { stored with revoked := true })
        [.deviceRevoked account device env.now]
  | firstPolicySet (account : Address) (policy : RecoveryPolicy) (record : IdentityRecord)
      (known : state.identities.get account.val = some record)
      (authorized : env.authority record.owner.val = true)
      (valid : validatePolicy policy account.val = .ok ())
      (unset : (loadRecovery state account.val).policy = none) :
      Effect env state (.setRecoveryPolicy ⟨account.val, some policy⟩)
        (state.putRecovery account { loadRecovery state account.val with
          policy := some policy, pendingPolicy := none })
        [.recoveryPolicySet account policy env.now]
  | policyQueued (account : Address) (policy current : RecoveryPolicy) (record : IdentityRecord)
      (known : state.identities.get account.val = some record)
      (authorized : env.authority record.owner.val = true)
      (valid : validatePolicy policy account.val = .ok ())
      (inForce : (loadRecovery state account.val).policy = some current) :
      Effect env state (.setRecoveryPolicy ⟨account.val, some policy⟩)
        (state.putRecovery account { loadRecovery state account.val with
          pendingPolicy := some ⟨policy, wrapAdd 64 env.now current.delayMs⟩ })
        [.recoveryPolicyProposed account policy (wrapAdd 64 env.now current.delayMs)]
  | policyApplied (account : Address) (record : IdentityRecord) (pending : PendingPolicy)
      (known : state.identities.get account.val = some record)
      (queued : (loadRecovery state account.val).pendingPolicy = some pending)
      (elapsed : pending.effectiveAt ≤ env.now) :
      Effect env state (.applyRecoveryPolicy ⟨account.val⟩)
        (state.putRecovery account ⟨some pending.policy, none, none⟩)
        ((if (loadRecovery state account.val).pendingRecovery.isSome then
          [.recoveryCancelled account env.now] else []) ++
          [.recoveryPolicySet account pending.policy env.now])
  | policyCancelled (account : Address) (record : IdentityRecord) (pending : PendingPolicy)
      (known : state.identities.get account.val = some record)
      (authorized : env.authority record.owner.val = true)
      (queued : (loadRecovery state account.val).pendingPolicy = some pending) :
      Effect env state (.cancelRecoveryPolicy ⟨account.val⟩)
        (state.putRecovery account { loadRecovery state account.val with pendingPolicy := none })
        [.recoveryPolicyCancelled account env.now]
  | recoveryProposed (account guardian newOwner : Address) (record : IdentityRecord)
      (policy : RecoveryPolicy) (approved : PendingRecovery)
      (known : state.identities.get account.val = some record)
      (authorized : env.authority guardian.val = true)
      (inForce : (loadRecovery state account.val).policy = some policy)
      (listed : guardian.val ∈ policy.guardians) (different : newOwner ≠ record.owner)
      (approval : approve env (loadRecovery state account.val).pendingRecovery guardian newOwner =
        .ok approved) :
      Effect env state (.proposeRecovery ⟨account.val, guardian.val, newOwner.val⟩)
        (state.putRecovery account { loadRecovery state account.val with
          pendingRecovery := some (reachThreshold env policy approved) })
        [.recoveryProposed account guardian newOwner
          (reachThreshold env policy approved).approvals.length policy.threshold
          (reachThreshold env policy approved).effectiveAt env.now]
  | recoveryCancelled (account : Address) (record : IdentityRecord) (pending : PendingRecovery)
      (known : state.identities.get account.val = some record)
      (authorized : env.authority record.owner.val = true)
      (inFlight : (loadRecovery state account.val).pendingRecovery = some pending) :
      Effect env state (.cancelRecovery ⟨account.val⟩)
        (state.putRecovery account { loadRecovery state account.val with pendingRecovery := none })
        [.recoveryCancelled account env.now]
  | recovered (account : Address) (record : IdentityRecord) (pending : PendingRecovery)
      (known : state.identities.get account.val = some record)
      (inFlight : (loadRecovery state account.val).pendingRecovery = some pending)
      (reached : pending.effectiveAt ≠ 0) (elapsed : pending.effectiveAt ≤ env.now) :
      Effect env state (.executeRecovery ⟨account.val⟩)
        ((state.putIdentity account { record with
          owner := pending.newOwner, deviceEpoch := wrapAdd 32 record.deviceEpoch 1,
          updatedAt := env.now }).putRecovery account
          { loadRecovery state account.val with pendingRecovery := none, pendingPolicy := none })
        ((if (loadRecovery state account.val).pendingPolicy.isSome then
          [.recoveryPolicyCancelled account env.now] else []) ++
          [.recovered account record.owner pending.newOwner (wrapAdd 32 record.deviceEpoch 1)
            env.now])

theorem contains_eq_true (list : List Bytes) (address : Bytes) :
    contains list address = true ↔ address ∈ list := by
  simp [contains, List.any_eq_true]

/-- Every accepted call has the effect of its method. -/
theorem effect_of_accepted {env : Env} {operation : Operation} {state after : State}
    {events : List Event} (answer : execute state ⟨env, operation⟩ = .ok (after, events)) :
    Effect env state operation after events := by
  cases operation with
  | register args =>
    obtain ⟨account, key, keyVersion, profileHash, profileUri⟩ := args
    simp only [execute, register, requireEncryptionKey, optionalHash, optionalString, bind_eq_ok,
      pure_eq_ok, require_eq_ok, requireAuthority_eq_ok, Util.requireAddress_eq_ok,
      Util.optionalExact_eq_ok, Util.requireString_eq_ok, exists_const, Prod.mk.injEq,
      Bool.not_eq_eq_eq_not, Bool.not_true, Store.has_eq_false, bne_iff_ne, beq_iff_eq,
      decide_eq_true_eq] at answer
    obtain ⟨account, rfl, authorized, fresh, key, ⟨_, keyLength, rfl⟩, _, _, ⟨rfl, _⟩, _,
      ⟨rfl, _⟩, rfl, rfl⟩ := answer
    exact .registered account key keyVersion _ _ authorized fresh keyLength
  | updateProfile args =>
    obtain ⟨account, profileHash, profileUri, device⟩ := args
    simp only [execute, updateProfile, loadIdentity, optionalHash, optionalString, bind_eq_ok,
      pure_eq_ok, require_eq_ok, requireSome_eq_ok, requireAuthority_eq_ok,
      Util.requireAddress_eq_ok, Util.optionalExact_eq_ok, Util.requireString_eq_ok, exists_const,
      Prod.mk.injEq] at answer
    obtain ⟨account, rfl, resolved, authorized, record, known, _, ⟨rfl, _⟩, _, ⟨rfl, _⟩, rfl,
      rfl⟩ := answer
    exact .profileUpdated account _ _ device record resolved authorized known
  | rotateEncryptionKey args =>
    obtain ⟨account, key, keyVersion⟩ := args
    simp only [execute, rotateEncryptionKey, loadIdentity, requireOwner, requireEncryptionKey,
      bind_eq_ok, pure_eq_ok, require_eq_ok, requireSome_eq_ok, requireAuthority_eq_ok,
      Util.requireAddress_eq_ok, exists_const, Prod.mk.injEq, beq_iff_eq,
      decide_eq_true_eq] at answer
    obtain ⟨account, rfl, record, known, authorized, key, ⟨_, keyLength, rfl⟩, increased, rfl,
      rfl⟩ := answer
    exact .keyRotated account key keyVersion record known authorized keyLength increased
  | authorizeDevice args =>
    obtain ⟨account, device, capabilities, expiresAt, label⟩ := args
    simp only [execute, authorizeDevice, loadIdentity, requireOwner, optionalString, bind_eq_ok,
      pure_eq_ok, require_eq_ok, requireSome_eq_ok, requireAuthority_eq_ok,
      Util.requireAddress_eq_ok, Util.requireString_eq_ok, exists_const, Prod.mk.injEq, bne_iff_ne,
      decide_eq_true_eq] at answer
    obtain ⟨account, rfl, record, known, authorized, device, rfl, different, granted, bounded,
      future, near, _, ⟨rfl, _⟩, rfl, rfl⟩ := answer
    exact .deviceAuthorized account device capabilities expiresAt _ record known authorized
      different granted bounded future near
  | revokeDevice args =>
    obtain ⟨account, device⟩ := args
    simp only [execute, revokeDevice, loadIdentity, requireOwner, bind_eq_ok, pure_eq_ok,
      requireSome_eq_ok, requireAuthority_eq_ok, Util.requireAddress_eq_ok, exists_const,
      Prod.mk.injEq] at answer
    obtain ⟨account, rfl, record, known, authorized, device, rfl, stored, present, rfl, rfl⟩ :=
      answer
    exact .deviceRevoked account device record stored known authorized present
  | setRecoveryPolicy args =>
    obtain ⟨account, policy⟩ := args
    simp only [execute, setRecoveryPolicy, loadIdentity, requireOwner, bind_eq_ok,
      requireSome_eq_ok, requireAuthority_eq_ok, Util.requireAddress_eq_ok,
      exists_const] at answer
    obtain ⟨account, rfl, record, known, authorized, policy, rfl, _, valid, answer⟩ := answer
    split at answer
    · next unset =>
      simp only [pure_eq_ok, Prod.mk.injEq] at answer
      obtain ⟨rfl, rfl⟩ := answer
      exact .firstPolicySet account policy record known authorized valid unset
    · next current inForce =>
      simp only [pure_eq_ok, Prod.mk.injEq] at answer
      obtain ⟨rfl, rfl⟩ := answer
      exact .policyQueued account policy current record known authorized valid inForce
  | applyRecoveryPolicy args =>
    obtain ⟨account⟩ := args
    simp only [execute, applyRecoveryPolicy, loadIdentity, bind_eq_ok, pure_eq_ok, require_eq_ok,
      requireSome_eq_ok, Util.requireAddress_eq_ok, exists_const, Prod.mk.injEq,
      decide_eq_true_eq] at answer
    obtain ⟨account, rfl, record, known, pending, queued, elapsed, rfl, rfl⟩ := answer
    exact .policyApplied account record pending known queued elapsed
  | cancelRecoveryPolicy args =>
    obtain ⟨account⟩ := args
    simp only [execute, cancelRecoveryPolicy, loadIdentity, requireOwner, bind_eq_ok, pure_eq_ok,
      require_eq_ok, requireSome_eq_ok, requireAuthority_eq_ok, Util.requireAddress_eq_ok,
      exists_const, Prod.mk.injEq, Option.isSome_iff_exists] at answer
    obtain ⟨account, rfl, record, known, authorized, ⟨pending, queued⟩, rfl, rfl⟩ := answer
    exact .policyCancelled account record pending known authorized queued
  | proposeRecovery args =>
    obtain ⟨account, guardian, newOwner⟩ := args
    simp only [execute, proposeRecovery, loadIdentity, bind_eq_ok, pure_eq_ok, require_eq_ok,
      requireSome_eq_ok, requireAuthority_eq_ok, Util.requireAddress_eq_ok, exists_const,
      Prod.mk.injEq, contains_eq_true, bne_iff_ne] at answer
    obtain ⟨account, rfl, guardian, rfl, authorized, record, known, policy, inForce, listed,
      newOwner, rfl, different, approved, approval, rfl, rfl⟩ := answer
    exact .recoveryProposed account guardian newOwner record policy approved known authorized
      inForce listed different approval
  | cancelRecovery args =>
    obtain ⟨account⟩ := args
    simp only [execute, cancelRecovery, loadIdentity, requireOwner, bind_eq_ok, pure_eq_ok,
      require_eq_ok, requireSome_eq_ok, requireAuthority_eq_ok, Util.requireAddress_eq_ok,
      exists_const, Prod.mk.injEq, Option.isSome_iff_exists] at answer
    obtain ⟨account, rfl, record, known, authorized, ⟨pending, inFlight⟩, rfl, rfl⟩ := answer
    exact .recoveryCancelled account record pending known authorized inFlight
  | executeRecovery args =>
    obtain ⟨account⟩ := args
    simp only [execute, executeRecovery, loadIdentity, bind_eq_ok, pure_eq_ok, require_eq_ok,
      requireSome_eq_ok, Util.requireAddress_eq_ok, exists_const, Prod.mk.injEq, bne_iff_ne,
      decide_eq_true_eq] at answer
    obtain ⟨account, rfl, record, known, pending, inFlight, reached, elapsed, rfl, rfl⟩ := answer
    exact .recovered account record pending known inFlight reached elapsed

/-- The effect of an entry of a history. -/
theorem effect_of_entry (entry : machine.Accepted) :
    Effect entry.call.env entry.before entry.call.operation entry.after entry.output :=
  effect_of_accepted entry.accepted

end OpenSocial.Identity

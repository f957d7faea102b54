/-
This file models the identity contract: registration, encryption keys, device
keys, the time-locked recovery policy and guardian recovery.

Each method of `Identity.ts` is one definition under the source's name. It reads
the environment and its arguments, and either fails or answers the new state and
the events it emitted, in order. Message fields the source treats as nullable
are empty when absent.
-/

import OpenSocial.Common.Actor
import OpenSocial.Library.Machine
import OpenSocial.Library.Store
import OpenSocial.Library.Word

namespace OpenSocial.Identity

open Library Library.Word

/-! ### Limits -/

def PROTOCOL_VERSION : ℕ := 1
def ENCRYPTION_KEY_LENGTH : ℕ := 32
def HASH_LENGTH : ℕ := 32
def MAX_PROFILE_URI_CHARS : ℕ := 512
def MAX_LABEL_CHARS : ℕ := 64
def MAX_CAPABILITIES : ℕ := 255
def DAY_MS : ℕ := 86400000
def MAX_DEVICE_LIFETIME_MS : ℕ := 366 * DAY_MS
def MAX_RECOVERY_DELAY_MS : ℕ := 365 * DAY_MS
def MAX_GUARDIANS : ℕ := 16

/-! ### Records -/

structure IdentityRecord where
  account : Address
  owner : Address
  encryptionKey : Bytes
  keyVersion : ℕ
  profileHash : Bytes
  profileUri : String
  protocolVersion : ℕ
  deviceEpoch : ℕ
  registeredAt : ℕ
  updatedAt : ℕ
  deriving DecidableEq, Repr

structure DeviceRecord where
  account : Address
  device : Address
  capabilities : ℕ
  expiresAt : ℕ
  deviceEpoch : ℕ
  revoked : Bool
  label : String
  authorizedAt : ℕ
  deriving DecidableEq, Repr

structure RecoveryPolicy where
  guardians : List Bytes
  threshold : ℕ
  delayMs : ℕ
  deriving DecidableEq, Repr

structure PendingPolicy where
  policy : RecoveryPolicy
  effectiveAt : ℕ
  deriving DecidableEq, Repr

structure PendingRecovery where
  newOwner : Address
  approvals : List Bytes
  effectiveAt : ℕ
  proposedAt : ℕ
  deriving DecidableEq, Repr

structure RecoveryState where
  policy : Option RecoveryPolicy
  pendingPolicy : Option PendingPolicy
  pendingRecovery : Option PendingRecovery
  deriving DecidableEq, Repr

/-- The contract's three maps; devices are keyed by account then device. -/
structure State where
  identities : Store Bytes IdentityRecord
  devices : Store Bytes DeviceRecord
  recovery : Store Bytes RecoveryState

/-- The `osp.identity.*` events. -/
inductive Event where
  | registered (account : Address) (encryptionKey : Bytes) (keyVersion : ℕ) (profileHash : Bytes)
      (profileUri : String) (protocolVersion timestamp : ℕ)
  | profileUpdated (account : Address) (profileHash : Bytes) (profileUri : String)
      (timestamp : ℕ)
  | keyRotated (account : Address) (previousVersion : ℕ) (encryptionKey : Bytes)
      (keyVersion timestamp : ℕ)
  | deviceAuthorized (account device : Address) (capabilities expiresAt : ℕ) (label : String)
      (deviceEpoch timestamp : ℕ)
  | deviceRevoked (account device : Address) (timestamp : ℕ)
  | recoveryPolicyProposed (account : Address) (policy : RecoveryPolicy) (effectiveAt : ℕ)
  | recoveryPolicySet (account : Address) (policy : RecoveryPolicy) (timestamp : ℕ)
  | recoveryPolicyCancelled (account : Address) (timestamp : ℕ)
  | recoveryProposed (account guardian newOwner : Address)
      (approvals threshold effectiveAt timestamp : ℕ)
  | recoveryCancelled (account : Address) (timestamp : ℕ)
  | recovered (account previousOwner newOwner : Address) (deviceEpoch timestamp : ℕ)
  deriving DecidableEq, Repr

/-! ### Arguments -/

structure RegisterArguments where
  account : Bytes
  encryptionKey : Bytes
  keyVersion : ℕ
  profileHash : Bytes
  profileUri : String

structure UpdateProfileArguments where
  account : Bytes
  profileHash : Bytes
  profileUri : String
  device : Bytes

structure RotateEncryptionKeyArguments where
  account : Bytes
  encryptionKey : Bytes
  keyVersion : ℕ

structure AuthorizeDeviceArguments where
  account : Bytes
  device : Bytes
  capabilities : ℕ
  expiresAt : ℕ
  label : String

structure RevokeDeviceArguments where
  account : Bytes
  device : Bytes

structure SetRecoveryPolicyArguments where
  account : Bytes
  policy : Option RecoveryPolicy

/-- The arguments of the methods that take an account only. -/
structure AccountArguments where
  account : Bytes

structure ProposeRecoveryArguments where
  account : Bytes
  guardian : Bytes
  newOwner : Bytes

/-! ### Internal helpers -/

/-- Storage key of a device record: account || device. -/
def deviceKey (account device : Bytes) : Bytes :=
  Util.concat [account, device]

/-- `identities.put`. -/
def State.putIdentity (state : State) (account : Address) (record : IdentityRecord) : State :=
  { state with identities := state.identities.put account.val record }

/-- `devices.put` under the device key. -/
def State.putDevice (state : State) (account device : Address) (record : DeviceRecord) : State :=
  { state with devices := state.devices.put (deviceKey account.val device.val) record }

/-- `recovery.put`. -/
def State.putRecovery (state : State) (account : Address) (recovery : RecoveryState) : State :=
  { state with recovery := state.recovery.put account.val recovery }

/-- Load an identity record or revert. -/
def loadIdentity (state : State) (account : Bytes) : Except Failure IdentityRecord :=
  requireSome (state.identities.get account) "identity not registered"

/-- Require the current owner's contract_call authority. -/
def requireOwner (env : Env) (record : IdentityRecord) : Except Failure Unit :=
  requireAuthority env record.owner.val

/-- Validate an optional profile hash (empty or 32 bytes). -/
def optionalHash (value : Bytes) (what : String) : Except Failure Bytes :=
  Util.optionalExact value HASH_LENGTH (what ++ " must be empty or 32 bytes")

/-- Validate an optional string (max chars). -/
def optionalString (value : String) (max : ℕ) (what : String) : Except Failure String :=
  Util.requireString value max what

/-- Validate an X25519 public key (exactly 32 bytes). -/
def requireEncryptionKey (value : Bytes) : Except Failure Bytes := do
  require (value != []) "encryption_key is required"
  require (value.length == ENCRYPTION_KEY_LENGTH) "encryption_key must be 32 bytes"
  pure value

/-- True when `list` contains `address`. -/
def contains (list : List Bytes) (address : Bytes) : Bool :=
  list.any fun member => member == address

/-- The guardian loop of `validatePolicy`; `earlier` holds the guardians already checked. -/
def validateGuardians (account : Bytes) : (earlier guardians : List Bytes) → Except Failure Unit
  | _, [] => pure ()
  | earlier, guardian :: rest => do
    let address ← Util.requireAddress guardian "guardian"
    require (address.val != account) "guardian must differ from account"
    require (!contains earlier address.val) "guardians must be distinct"
    validateGuardians account (earlier ++ [address.val]) rest

/-- Validate a recovery policy against the limits (guardians, threshold, delay). -/
def validatePolicy (policy : RecoveryPolicy) (account : Bytes) : Except Failure Unit := do
  require (1 ≤ policy.guardians.length) "at least one guardian is required"
  require (policy.guardians.length ≤ MAX_GUARDIANS) "too many guardians"
  validateGuardians account [] policy.guardians
  require (1 ≤ policy.threshold) "threshold must be >= 1"
  require (policy.threshold ≤ policy.guardians.length) "threshold exceeds guardian count"
  require (policy.delayMs ≤ MAX_RECOVERY_DELAY_MS) "delay_ms too large"

/-- Load the recovery state (an empty state when unset). -/
def loadRecovery (state : State) (account : Bytes) : RecoveryState :=
  (state.recovery.get account).getD ⟨none, none, none⟩

section Frame

variable (state : State) (account device : Address) (identity : IdentityRecord)
  (stored : DeviceRecord) (recovery : RecoveryState)

@[simp] theorem putIdentity_identities :
    (state.putIdentity account identity).identities = state.identities.put account.val identity :=
  rfl

@[simp] theorem putIdentity_devices :
    (state.putIdentity account identity).devices = state.devices := rfl

@[simp] theorem putIdentity_recovery :
    (state.putIdentity account identity).recovery = state.recovery := rfl

@[simp] theorem putDevice_identities :
    (state.putDevice account device stored).identities = state.identities := rfl

@[simp] theorem putDevice_devices :
    (state.putDevice account device stored).devices =
      state.devices.put (deviceKey account.val device.val) stored := rfl

@[simp] theorem putDevice_recovery :
    (state.putDevice account device stored).recovery = state.recovery := rfl

@[simp] theorem putRecovery_identities :
    (state.putRecovery account recovery).identities = state.identities := rfl

@[simp] theorem putRecovery_devices :
    (state.putRecovery account recovery).devices = state.devices := rfl

@[simp] theorem loadRecovery_putIdentity (other : Bytes) :
    loadRecovery (state.putIdentity account identity) other = loadRecovery state other := rfl

@[simp] theorem loadRecovery_putDevice (other : Bytes) :
    loadRecovery (state.putDevice account device stored) other = loadRecovery state other := rfl

@[simp] theorem loadRecovery_putRecovery (other : Bytes) :
    loadRecovery (state.putRecovery account recovery) other =
      if other = account.val then recovery else loadRecovery state other := by
  unfold loadRecovery State.putRecovery
  rw [Store.get_put]
  split <;> rfl

end Frame

/-- Actor resolution (spec 3.2). Never reverts: the answer carries ok and a reason. -/
def resolve (env : Env) (state : State) (account device : Bytes) (capability : ℕ) :
    ResolveActorResult :=
  if account = [] then ⟨false, [], some "unregistered"⟩
  else match state.identities.get account with
    | none => ⟨false, [], some "unregistered"⟩
    | some record =>
      if device = [] ∨ device = account then ⟨true, record.owner.val, none⟩
      else match state.devices.get (deviceKey account device) with
        | none => ⟨false, [], some "unknown device"⟩
        | some stored =>
          if stored.revoked then ⟨false, [], some "device revoked"⟩
          else if stored.deviceEpoch ≠ record.deviceEpoch then
            ⟨false, [], some "device epoch expired"⟩
          else if stored.expiresAt ≤ env.now then ⟨false, [], some "device expired"⟩
          else if capability ≠ 0 ∧ stored.capabilities &&& capability = 0 then
            ⟨false, [], some "capability not granted"⟩
          else ⟨true, device, none⟩

/-! ### Identity and keys -/

def register (env : Env) (args : RegisterArguments) (state : State) :
    Except Failure (State × List Event) := do
  let account ← Util.requireAddress args.account "account"
  requireAuthority env account.val
  require (!state.identities.has account.val) "identity already registered"
  let key ← requireEncryptionKey args.encryptionKey
  require (1 ≤ args.keyVersion) "key_version must be >= 1"
  let profileHash ← optionalHash args.profileHash "profile_hash"
  let profileUri ← optionalString args.profileUri MAX_PROFILE_URI_CHARS "profile_uri"
  let record : IdentityRecord :=
    { account := account, owner := account, encryptionKey := key, keyVersion := args.keyVersion,
      profileHash := profileHash, profileUri := profileUri, protocolVersion := PROTOCOL_VERSION,
      deviceEpoch := 0, registeredAt := env.now, updatedAt := env.now }
  pure (state.putIdentity account record,
    [.registered account key args.keyVersion profileHash profileUri PROTOCOL_VERSION env.now])

def updateProfile (env : Env) (args : UpdateProfileArguments) (state : State) :
    Except Failure (State × List Event) := do
  let account ← Util.requireAddress args.account "account"
  let resolved := resolve env state account.val args.device Capability.PROFILE
  require resolved.ok (resolved.reason.getD "actor not authorized")
  requireAuthority env resolved.signer
  let record ← loadIdentity state account.val
  let profileHash ← optionalHash args.profileHash "profile_hash"
  let profileUri ← optionalString args.profileUri MAX_PROFILE_URI_CHARS "profile_uri"
  let updated := { record with
    profileHash := profileHash, profileUri := profileUri, updatedAt := env.now }
  pure (state.putIdentity account updated,
    [.profileUpdated account profileHash profileUri env.now])

def rotateEncryptionKey (env : Env) (args : RotateEncryptionKeyArguments) (state : State) :
    Except Failure (State × List Event) := do
  let account ← Util.requireAddress args.account "account"
  let record ← loadIdentity state account.val
  requireOwner env record
  let key ← requireEncryptionKey args.encryptionKey
  require (record.keyVersion < args.keyVersion) "key_version must increase"
  let updated := { record with
    encryptionKey := key, keyVersion := args.keyVersion, updatedAt := env.now }
  pure (state.putIdentity account updated,
    [.keyRotated account record.keyVersion key args.keyVersion env.now])

/-! ### Devices -/

def authorizeDevice (env : Env) (args : AuthorizeDeviceArguments) (state : State) :
    Except Failure (State × List Event) := do
  let account ← Util.requireAddress args.account "account"
  let record ← loadIdentity state account.val
  requireOwner env record
  let device ← Util.requireAddress args.device "device"
  require (device != account) "device must differ from account"
  require (args.capabilities != 0) "capabilities must not be empty"
  require (args.capabilities ≤ MAX_CAPABILITIES) "unknown capability bits"
  require (env.now < args.expiresAt) "expires_at must be in the future"
  require (args.expiresAt ≤ wrapAdd 64 env.now MAX_DEVICE_LIFETIME_MS)
    "expires_at too far in the future"
  let label ← optionalString args.label MAX_LABEL_CHARS "label"
  let stored : DeviceRecord :=
    { account := account, device := device, capabilities := args.capabilities,
      expiresAt := args.expiresAt, deviceEpoch := record.deviceEpoch, revoked := false,
      label := label, authorizedAt := env.now }
  pure (state.putDevice account device stored,
    [.deviceAuthorized account device args.capabilities args.expiresAt label record.deviceEpoch
      env.now])

/-- Idempotent: revoking an already revoked device succeeds and emits the event again. -/
def revokeDevice (env : Env) (args : RevokeDeviceArguments) (state : State) :
    Except Failure (State × List Event) := do
  let account ← Util.requireAddress args.account "account"
  let record ← loadIdentity state account.val
  requireOwner env record
  let device ← Util.requireAddress args.device "device"
  let stored ← requireSome (state.devices.get (deviceKey account.val device.val)) "unknown device"
  pure (state.putDevice account device { stored with revoked := true },
    [.deviceRevoked account device env.now])

/-! ### Recovery policy -/

/-- The first policy applies immediately; a later one waits for the current policy's delay. -/
def setRecoveryPolicy (env : Env) (args : SetRecoveryPolicyArguments) (state : State) :
    Except Failure (State × List Event) := do
  let account ← Util.requireAddress args.account "account"
  let record ← loadIdentity state account.val
  requireOwner env record
  let policy ← requireSome args.policy "policy is required"
  validatePolicy policy account.val
  let recovery := loadRecovery state account.val
  match recovery.policy with
  | none =>
    pure (state.putRecovery account { recovery with policy := some policy, pendingPolicy := none },
      [.recoveryPolicySet account policy env.now])
  | some current =>
    let effectiveAt := wrapAdd 64 env.now current.delayMs
    pure (state.putRecovery account
        { recovery with pendingPolicy := some ⟨policy, effectiveAt⟩ },
      [.recoveryPolicyProposed account policy effectiveAt])

/-- Anyone may apply a queued policy; doing so voids any recovery in flight. -/
def applyRecoveryPolicy (env : Env) (args : AccountArguments) (state : State) :
    Except Failure (State × List Event) := do
  let account ← Util.requireAddress args.account "account"
  let _ ← loadIdentity state account.val
  let recovery := loadRecovery state account.val
  let pending ← requireSome recovery.pendingPolicy "no pending recovery policy"
  require (pending.effectiveAt ≤ env.now) "recovery policy delay not elapsed"
  let voided := if recovery.pendingRecovery.isSome then
    [Event.recoveryCancelled account env.now] else []
  pure (state.putRecovery account ⟨some pending.policy, none, none⟩,
    voided ++ [.recoveryPolicySet account pending.policy env.now])

def cancelRecoveryPolicy (env : Env) (args : AccountArguments) (state : State) :
    Except Failure (State × List Event) := do
  let account ← Util.requireAddress args.account "account"
  let record ← loadIdentity state account.val
  requireOwner env record
  let recovery := loadRecovery state account.val
  require recovery.pendingPolicy.isSome "no pending recovery policy"
  pure (state.putRecovery account { recovery with pendingPolicy := none },
    [.recoveryPolicyCancelled account env.now])

/-! ### Guardian recovery -/

/-- The pending recovery before the threshold check: a fresh one, or the current one with
one more approval. -/
def approve (env : Env) (existing : Option PendingRecovery) (guardian newOwner : Address) :
    Except Failure PendingRecovery :=
  match existing with
  | none => pure ⟨newOwner, [guardian.val], 0, env.now⟩
  | some pending =>
    if pending.newOwner ≠ newOwner then pure ⟨newOwner, [guardian.val], 0, env.now⟩
    else do
      require (!contains pending.approvals guardian.val) "already approved"
      pure { pending with approvals := pending.approvals ++ [guardian.val] }

/-- `effectiveAt` is zero until the threshold is reached, then fixed. -/
def reachThreshold (env : Env) (policy : RecoveryPolicy) (pending : PendingRecovery) :
    PendingRecovery :=
  if pending.effectiveAt = 0 ∧ policy.threshold ≤ pending.approvals.length then
    { pending with effectiveAt := wrapAdd 64 env.now policy.delayMs }
  else pending

def proposeRecovery (env : Env) (args : ProposeRecoveryArguments) (state : State) :
    Except Failure (State × List Event) := do
  let account ← Util.requireAddress args.account "account"
  let guardian ← Util.requireAddress args.guardian "guardian"
  requireAuthority env guardian.val
  let record ← loadIdentity state account.val
  let recovery := loadRecovery state account.val
  let policy ← requireSome recovery.policy "no recovery policy"
  require (contains policy.guardians guardian.val) "not a guardian"
  let newOwner ← Util.requireAddress args.newOwner "new_owner"
  require (newOwner != record.owner) "new_owner must differ from current owner"
  let approved ← approve env recovery.pendingRecovery guardian newOwner
  let pending := reachThreshold env policy approved
  pure (state.putRecovery account { recovery with pendingRecovery := some pending },
    [.recoveryProposed account guardian newOwner pending.approvals.length policy.threshold
      pending.effectiveAt env.now])

def cancelRecovery (env : Env) (args : AccountArguments) (state : State) :
    Except Failure (State × List Event) := do
  let account ← Util.requireAddress args.account "account"
  let record ← loadIdentity state account.val
  requireOwner env record
  let recovery := loadRecovery state account.val
  require recovery.pendingRecovery.isSome "no pending recovery"
  pure (state.putRecovery account { recovery with pendingRecovery := none },
    [.recoveryCancelled account env.now])

/-- Anyone may execute a recovery whose delay has elapsed. It voids the previous owner's
queued policy change and starts a new device epoch. -/
def executeRecovery (env : Env) (args : AccountArguments) (state : State) :
    Except Failure (State × List Event) := do
  let account ← Util.requireAddress args.account "account"
  let record ← loadIdentity state account.val
  let recovery := loadRecovery state account.val
  let pending ← requireSome recovery.pendingRecovery "no pending recovery"
  require (pending.effectiveAt != 0) "recovery threshold not reached"
  require (pending.effectiveAt ≤ env.now) "recovery delay not elapsed"
  let updated := { record with
    owner := pending.newOwner, deviceEpoch := wrapAdd 32 record.deviceEpoch 1,
    updatedAt := env.now }
  let voided := if recovery.pendingPolicy.isSome then
    [Event.recoveryPolicyCancelled account env.now] else []
  pure ((state.putIdentity account updated).putRecovery account
      { recovery with pendingRecovery := none, pendingPolicy := none },
    voided ++ [.recovered account record.owner pending.newOwner updated.deviceEpoch env.now])

/-! ### The contract as a transaction machine -/

/-- One call of a mutating method. -/
inductive Operation where
  | register (args : RegisterArguments)
  | updateProfile (args : UpdateProfileArguments)
  | rotateEncryptionKey (args : RotateEncryptionKeyArguments)
  | authorizeDevice (args : AuthorizeDeviceArguments)
  | revokeDevice (args : RevokeDeviceArguments)
  | setRecoveryPolicy (args : SetRecoveryPolicyArguments)
  | applyRecoveryPolicy (args : AccountArguments)
  | cancelRecoveryPolicy (args : AccountArguments)
  | proposeRecovery (args : ProposeRecoveryArguments)
  | cancelRecovery (args : AccountArguments)
  | executeRecovery (args : AccountArguments)

/-- A method call together with the environment it runs in. -/
structure Call where
  env : Env
  operation : Operation

/-- The block time of a call. -/
def Call.time (call : Call) : ℕ := call.env.now

def execute (state : State) (call : Call) : Except Failure (State × List Event) :=
  match call.operation with
  | .register args => register call.env args state
  | .updateProfile args => updateProfile call.env args state
  | .rotateEncryptionKey args => rotateEncryptionKey call.env args state
  | .authorizeDevice args => authorizeDevice call.env args state
  | .revokeDevice args => revokeDevice call.env args state
  | .setRecoveryPolicy args => setRecoveryPolicy call.env args state
  | .applyRecoveryPolicy args => applyRecoveryPolicy call.env args state
  | .cancelRecoveryPolicy args => cancelRecoveryPolicy call.env args state
  | .proposeRecovery args => proposeRecovery call.env args state
  | .cancelRecovery args => cancelRecovery call.env args state
  | .executeRecovery args => executeRecovery call.env args state

def empty : State := ⟨∅, ∅, ∅⟩

/-- The identity contract from its empty store. -/
def machine : Machine State Call (List Event) Failure := ⟨empty, execute⟩

/-! ### Read methods -/

def getIdentity (state : State) (account : Bytes) : Option IdentityRecord :=
  if account = [] then none else state.identities.get account

def getDevice (state : State) (account device : Bytes) : Option DeviceRecord :=
  if account = [] ∨ device = [] then none else state.devices.get (deviceKey account device)

def getRecovery (state : State) (account : Bytes) : Option RecoveryState :=
  if account = [] then none else state.recovery.get account

end OpenSocial.Identity

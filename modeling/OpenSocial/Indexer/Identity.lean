/-
This file shows that the identity projection mirrors the identity contract: the
record of every account, joined with its recovery state, and every device.

The contract keeps the recovery state of an account in a map of its own, and the
projection in columns of the identities table. A recovery or a new policy voids
what is queued, which the events tell one by one.
-/

import OpenSocial.Identity.Recovery
import OpenSocial.Indexer.Projections
import OpenSocial.Library.Mirror

namespace OpenSocial.Indexer

open Library Library.Word Identity

/-! ### What is compared -/

/-- What both hold of a recovery in flight. -/
structure RecoveryView where
  newOwner : Address
  approvals : ℕ
  effectiveAt : ℕ
  deriving DecidableEq, Repr

/-- What both hold of an account. -/
structure AccountView where
  owner : Address
  encryptionKey : Bytes
  keyVersion : ℕ
  profileHash : Bytes
  profileUri : String
  protocolVersion : ℕ
  deviceEpoch : ℕ
  registeredAt : ℕ
  policy : Option RecoveryPolicy
  pendingPolicy : Option PendingPolicy
  pendingRecovery : Option RecoveryView
  deriving DecidableEq, Repr

/-- What both hold of a device. -/
structure DeviceView where
  capabilities : ℕ
  expiresAt : ℕ
  deviceEpoch : ℕ
  revoked : Bool
  label : String
  authorizedAt : ℕ
  deriving DecidableEq, Repr

def RecoveryView.ofRow (row : PendingRecoveryView) : RecoveryView :=
  ⟨row.newOwner, row.approvals, row.effectiveAt⟩

def RecoveryView.ofRecord (pending : PendingRecovery) : RecoveryView :=
  ⟨pending.newOwner, pending.approvals.length, pending.effectiveAt⟩

def AccountView.ofRow (row : IdentityRow) : AccountView :=
  ⟨row.owner, row.encryptionKey, row.keyVersion, row.profileHash, row.profileUri,
    row.protocolVersion, row.deviceEpoch, row.registeredAt, row.recoveryPolicy, row.pendingPolicy,
    row.pendingRecovery.map RecoveryView.ofRow⟩

def AccountView.ofRecord (record : IdentityRecord) (recovery : RecoveryState) : AccountView :=
  ⟨record.owner, record.encryptionKey, record.keyVersion, record.profileHash, record.profileUri,
    record.protocolVersion, record.deviceEpoch, record.registeredAt, recovery.policy,
    recovery.pendingPolicy, recovery.pendingRecovery.map RecoveryView.ofRecord⟩

/-- What the contract holds of an account. -/
def accountView (state : State) (account : Address) : Option AccountView :=
  (state.identities.get account.val).map fun record =>
    AccountView.ofRecord record (loadRecovery state account.val)

/-- Devices are kept under account and device by both. -/
def deviceLink :
    Correspondence (Address × Address) (Address × Address) Bytes DeviceRow DeviceRecord
      DeviceView where
  tableKey := id
  storeKey pair := deviceKey pair.1.val pair.2.val
  aligned first second := by
    rw [deviceKey, deviceKey, Util.concat_addresses_inj, id, id, Prod.ext_iff]
  ofRow row :=
    ⟨row.capabilities, row.expiresAt, row.deviceEpoch, row.revoked, row.label, row.authorizedAt⟩
  ofRecord record :=
    ⟨record.capabilities, record.expiresAt, record.deviceEpoch, record.revoked, record.label,
      record.authorizedAt⟩

/-- The identities table shows every account as the contract has it. -/
def AccountsMirrored (db : Database) (state : State) : Prop :=
  ∀ account, (db.identities.get account).map AccountView.ofRow = accountView state account

/-- An account without an identity has no recovery state. -/
def RecoveryOwned (state : State) : Prop :=
  ∀ account : Address, state.identities.get account.val = none →
    loadRecovery state account.val = ⟨none, none, none⟩

/-! ### Reads after writes -/

section Reads

variable (state : State) (account device other : Address)

theorem accountView_putIdentity (record : IdentityRecord) :
    accountView (state.putIdentity account record) other =
      if other = account then
        some (AccountView.ofRecord record (loadRecovery state account.val))
      else accountView state other := by
  rw [accountView, putIdentity_identities, Store.get_put, loadRecovery_putIdentity]
  by_cases same : other = account
  · rw [if_pos same, if_pos (congrArg Subtype.val same), same, Option.map_some]
  · rw [if_neg same, if_neg fun equal => same (Subtype.ext equal), accountView]

theorem accountView_putRecovery (recovery : RecoveryState) :
    accountView (state.putRecovery account recovery) other =
      if other = account then
        (state.identities.get account.val).map fun record => AccountView.ofRecord record recovery
      else accountView state other := by
  rw [accountView, putRecovery_identities, loadRecovery_putRecovery]
  by_cases same : other = account
  · rw [if_pos same, if_pos (congrArg Subtype.val same), same]
  · rw [if_neg same, if_neg fun equal => same (Subtype.ext equal), accountView]

end Reads

/-! ### One account changes -/

section Account

variable {db next : Database} {state after : State} {account : Address}

/-- One update of the view, made to the row and to the records, keeps the mirror. -/
theorem accounts_modify {record : IdentityRecord} {change : IdentityRow → IdentityRow}
    (update : AccountView → AccountView) (mirrored : AccountsMirrored db state)
    (known : state.identities.get account.val = some record)
    (rows : next.identities = db.identities.modify account change)
    (rowChange : ∀ row, AccountView.ofRow (change row) = update (AccountView.ofRow row))
    (own : accountView after account =
      some (update (AccountView.ofRecord record (loadRecovery state account.val))))
    (others : ∀ other, other ≠ account → accountView after other = accountView state other) :
    AccountsMirrored next after := by
  intro other
  rw [rows, Store.get_modify]
  split
  · next same =>
    have agree := mirrored account
    rw [accountView, known, Option.map_some, Option.map_eq_some_iff] at agree
    obtain ⟨row, found, view⟩ := agree
    rw [same, own, found, Option.map_some, Option.map_some, rowChange, view]
  · next different =>
    rw [others other different]
    exact mirrored other

/-- A new row and a new record that show the same keep the mirror. -/
theorem accounts_put {row : IdentityRow} {record : IdentityRecord}
    (mirrored : AccountsMirrored db state) (rows : next.identities = db.identities.put account row)
    (same : AccountView.ofRow row =
      AccountView.ofRecord record (loadRecovery state account.val)) :
    AccountsMirrored next (state.putIdentity account record) := by
  intro other
  rw [rows, Store.get_put, accountView_putIdentity]
  split
  · rw [Option.map_some, same]
  · exact mirrored other

/-- A change of the identity record that the row makes too keeps the mirror. -/
theorem accounts_putIdentity {record changed : IdentityRecord}
    {change : IdentityRow → IdentityRow} (update : AccountView → AccountView)
    (mirrored : AccountsMirrored db state)
    (known : state.identities.get account.val = some record)
    (rows : next.identities = db.identities.modify account change)
    (rowChange : ∀ row, AccountView.ofRow (change row) = update (AccountView.ofRow row))
    (recordChange : AccountView.ofRecord changed (loadRecovery state account.val) =
      update (AccountView.ofRecord record (loadRecovery state account.val))) :
    AccountsMirrored next (state.putIdentity account changed) := by
  refine accounts_modify update mirrored known rows rowChange ?_ fun other different => ?_
  · rw [accountView_putIdentity, if_pos rfl, recordChange]
  · rw [accountView_putIdentity, if_neg different]

/-- A change of the recovery state that the row makes too keeps the mirror. -/
theorem accounts_putRecovery {record : IdentityRecord} {recovery : RecoveryState}
    {change : IdentityRow → IdentityRow} (update : AccountView → AccountView)
    (mirrored : AccountsMirrored db state)
    (known : state.identities.get account.val = some record)
    (rows : next.identities = db.identities.modify account change)
    (rowChange : ∀ row, AccountView.ofRow (change row) = update (AccountView.ofRow row))
    (recordChange : AccountView.ofRecord record recovery =
      update (AccountView.ofRecord record (loadRecovery state account.val))) :
    AccountsMirrored next (state.putRecovery account recovery) := by
  refine accounts_modify update mirrored known rows rowChange ?_ fun other different => ?_
  · rw [accountView_putRecovery, if_pos rfl, known, Option.map_some, recordChange]
  · rw [accountView_putRecovery, if_neg different]

end Account

/-! ### One call -/

section Step

variable (sdk : Sdk) {env : Env} {operation : Operation} {state after : State}
  {events : List Event} {db : Database} {records : List LogEvent}

/-- Writing an identity gives no account a recovery state. -/
theorem RecoveryOwned.putIdentity (owned : RecoveryOwned state) (account : Address)
    (record : IdentityRecord) : RecoveryOwned (state.putIdentity account record) := by
  intro other absent
  rw [putIdentity_identities, Store.get_put] at absent
  rw [loadRecovery_putIdentity]
  split at absent
  · exact absurd absent (Option.some_ne_none record)
  · exact owned other absent

/-- A recovery state is written for an account with an identity only. -/
theorem RecoveryOwned.putRecovery (owned : RecoveryOwned state) {account : Address}
    {record : IdentityRecord} (known : state.identities.get account.val = some record)
    (recovery : RecoveryState) : RecoveryOwned (state.putRecovery account recovery) := by
  intro other absent
  rw [putRecovery_identities] at absent
  rw [loadRecovery_putRecovery]
  split
  · next same =>
    rw [same, known] at absent
    exact absurd absent (Option.some_ne_none record)
  · exact owned other absent

theorem recoveryOwned_step (effect : Effect env state operation after events)
    (owned : RecoveryOwned state) : RecoveryOwned after := by
  cases effect with
  | registered account key keyVersion profileHash profileUri authorized fresh keyLength =>
    exact owned.putIdentity account _
  | profileUpdated account profileHash profileUri device record resolved authorized known =>
    exact owned.putIdentity account _
  | keyRotated account key keyVersion record known authorized keyLength increased =>
    exact owned.putIdentity account _
  | deviceAuthorized account device capabilities expiresAt label record known authorized different
      granted bounded future near => exact owned
  | deviceRevoked account device record stored known authorized present => exact owned
  | firstPolicySet account policy record known authorized valid unset =>
    exact owned.putRecovery known _
  | policyQueued account policy current record known authorized valid inForce =>
    exact owned.putRecovery known _
  | policyApplied account record pending known queued elapsed => exact owned.putRecovery known _
  | policyCancelled account record pending known authorized queued =>
    exact owned.putRecovery known _
  | recoveryProposed account guardian newOwner record policy approved known authorized inForce
      listed different approval => exact owned.putRecovery known _
  | recoveryCancelled account record pending known authorized inFlight =>
    exact owned.putRecovery known _
  | recovered account record pending known inFlight reached elapsed =>
    exact (owned.putIdentity account _).putRecovery
      ((Store.get_put _ _ _ _).trans (if_pos rfl)) _

/-- A recovery in flight names the owner of the last approval. -/
theorem newOwner_of_approve (policy : RecoveryPolicy) {account guardian newOwner : Address}
    {approved : PendingRecovery}
    (approval : approve env (loadRecovery state account.val).pendingRecovery guardian newOwner =
      .ok approved) : (reachThreshold env policy approved).newOwner = newOwner := by
  rw [← (approve_eq_ok approval).1]
  unfold reachThreshold
  split <;> rfl

/-- A call that voids what is queued tells so first. -/
theorem foldl_voided (db : Database) {queued : Bool} {voiding last : Event}
    (logs : records.map LogEvent.event =
      ((if queued then [voiding] else []) ++ [last]).map .identity) :
    ∃ (prior : Database) (log : LogEvent), log.event = .identity last ∧
      records.foldl (applyEvent sdk) db = applyEvent sdk prior log ∧
      (queued = false ∧ prior = db ∨
        queued = true ∧ ∃ earlier : LogEvent, earlier.event = .identity voiding ∧
          prior = applyEvent sdk db earlier) := by
  cases queued with
  | false =>
    obtain ⟨log, event, applied⟩ := foldl_applyEvent_singleton sdk db logs
    exact ⟨db, log, event, applied, .inl ⟨rfl, rfl⟩⟩
  | true =>
    obtain ⟨earlier, rest, voids, others, first⟩ := foldl_applyEvent_cons sdk db logs
    obtain ⟨log, event, applied⟩ := foldl_applyEvent_singleton sdk _ others
    exact ⟨_, log, event, first.trans applied, .inr ⟨rfl, earlier, voids, rfl⟩⟩

/-- The devices table after the events of a call mirrors what the call stored. -/
theorem devices_step (effect : Effect env state operation after events)
    (logs : records.map LogEvent.event = events.map .identity)
    (mirrors : deviceLink.Mirrors db.devices state.devices) :
    deviceLink.Mirrors (records.foldl (applyEvent sdk) db).devices after.devices := by
  cases effect with
  | deviceAuthorized account device capabilities expiresAt label record known authorized different
      granted bounded future near =>
    obtain ⟨log, event, applied⟩ := foldl_applyEvent_singleton sdk db logs
    rw [applied, applyEvent, event]
    simp only [applyIdentity, notify_frame Database.devices fun _ _ => rfl]
    exact mirrors.put rfl
  | deviceRevoked account device record stored known authorized present =>
    obtain ⟨log, event, applied⟩ := foldl_applyEvent_singleton sdk db logs
    rw [applied, applyEvent, event]
    simp only [applyIdentity, notify_frame Database.devices fun _ _ => rfl]
    exact mirrors.modify (fun view => { view with revoked := true }) present (fun row => rfl) rfl
  | registered account key keyVersion profileHash profileUri authorized fresh keyLength =>
    obtain ⟨log, event, applied⟩ := foldl_applyEvent_singleton sdk db logs
    rw [applied, applyEvent, event]
    exact mirrors
  | profileUpdated account profileHash profileUri device record resolved authorized known =>
    obtain ⟨log, event, applied⟩ := foldl_applyEvent_singleton sdk db logs
    rw [applied, applyEvent, event]
    exact mirrors
  | keyRotated account key keyVersion record known authorized keyLength increased =>
    obtain ⟨log, event, applied⟩ := foldl_applyEvent_singleton sdk db logs
    rw [applied, applyEvent, event]
    exact mirrors
  | firstPolicySet account policy record known authorized valid unset =>
    obtain ⟨log, event, applied⟩ := foldl_applyEvent_singleton sdk db logs
    rw [applied, applyEvent, event]
    exact mirrors
  | policyQueued account policy current record known authorized valid inForce =>
    obtain ⟨log, event, applied⟩ := foldl_applyEvent_singleton sdk db logs
    rw [applied, applyEvent, event]
    exact mirrors
  | policyApplied account record pending known queued elapsed =>
    obtain ⟨prior, log, event, applied, before⟩ := foldl_voided sdk db logs
    rw [applied, applyEvent, event]
    rcases before with ⟨_, rfl⟩ | ⟨_, earlier, voids, rfl⟩
    · exact mirrors
    · rw [applyEvent, voids]
      exact mirrors
  | policyCancelled account record pending known authorized queued =>
    obtain ⟨log, event, applied⟩ := foldl_applyEvent_singleton sdk db logs
    rw [applied, applyEvent, event]
    exact mirrors
  | recoveryProposed account guardian newOwner record policy approved known authorized inForce
      listed different approval =>
    obtain ⟨log, event, applied⟩ := foldl_applyEvent_singleton sdk db logs
    rw [applied, applyEvent, event]
    simp only [applyIdentity, notify_frame Database.devices fun _ _ => rfl]
    exact mirrors
  | recoveryCancelled account record pending known authorized inFlight =>
    obtain ⟨log, event, applied⟩ := foldl_applyEvent_singleton sdk db logs
    rw [applied, applyEvent, event]
    exact mirrors
  | recovered account record pending known inFlight reached elapsed =>
    obtain ⟨prior, log, event, applied, before⟩ := foldl_voided sdk db logs
    rw [applied, applyEvent, event]
    simp only [applyIdentity, notify_frame Database.devices fun _ _ => rfl]
    rcases before with ⟨_, rfl⟩ | ⟨_, earlier, voids, rfl⟩
    · exact mirrors
    · rw [applyEvent, voids]
      exact mirrors

theorem accounts_step (effect : Effect env state operation after events)
    (logs : records.map LogEvent.event = events.map .identity) (owned : RecoveryOwned state)
    (mirrored : AccountsMirrored db state) :
    AccountsMirrored (records.foldl (applyEvent sdk) db) after := by
  cases effect with
  | registered account key keyVersion profileHash profileUri authorized fresh keyLength =>
    obtain ⟨log, event, applied⟩ := foldl_applyEvent_singleton sdk db logs
    rw [applied, applyEvent, event]
    refine accounts_put mirrored rfl ?_
    rw [owned account fresh]
    rfl
  | profileUpdated account profileHash profileUri device record resolved authorized known =>
    obtain ⟨log, event, applied⟩ := foldl_applyEvent_singleton sdk db logs
    rw [applied, applyEvent, event]
    exact accounts_putIdentity
      (fun view => { view with profileHash := profileHash, profileUri := profileUri })
      mirrored known rfl (fun row => rfl) rfl
  | keyRotated account key keyVersion record known authorized keyLength increased =>
    obtain ⟨log, event, applied⟩ := foldl_applyEvent_singleton sdk db logs
    rw [applied, applyEvent, event]
    exact accounts_putIdentity
      (fun view => { view with encryptionKey := key, keyVersion := keyVersion })
      mirrored known rfl (fun row => rfl) rfl
  | deviceAuthorized account device capabilities expiresAt label record known authorized different
      granted bounded future near =>
    obtain ⟨log, event, applied⟩ := foldl_applyEvent_singleton sdk db logs
    rw [applied, applyEvent, event]
    intro other
    simp only [applyIdentity, notify_frame Database.identities fun _ _ => rfl]
    exact mirrored other
  | deviceRevoked account device record stored known authorized present =>
    obtain ⟨log, event, applied⟩ := foldl_applyEvent_singleton sdk db logs
    rw [applied, applyEvent, event]
    intro other
    simp only [applyIdentity, notify_frame Database.identities fun _ _ => rfl]
    exact mirrored other
  | firstPolicySet account policy record known authorized valid unset =>
    obtain ⟨log, event, applied⟩ := foldl_applyEvent_singleton sdk db logs
    rw [applied, applyEvent, event]
    exact accounts_putRecovery
      (fun view => { view with policy := some policy, pendingPolicy := none })
      mirrored known rfl (fun row => rfl) rfl
  | policyQueued account policy current record known authorized valid inForce =>
    obtain ⟨log, event, applied⟩ := foldl_applyEvent_singleton sdk db logs
    rw [applied, applyEvent, event]
    exact accounts_putRecovery
      (fun view => { view with
        pendingPolicy := some ⟨policy, wrapAdd 64 env.now current.delayMs⟩ })
      mirrored known rfl (fun row => rfl) rfl
  | policyApplied account record pending known queued elapsed =>
    obtain ⟨prior, log, event, applied, before⟩ := foldl_voided sdk db logs
    rw [applied, applyEvent, event]
    rcases before with ⟨idle, rfl⟩ | ⟨_, earlier, voids, rfl⟩
    · rw [Option.isSome_eq_false_iff, Option.isNone_iff_eq_none] at idle
      refine accounts_putRecovery
        (fun view => { view with policy := some pending.policy, pendingPolicy := none })
        mirrored known rfl (fun row => rfl) ?_
      rw [AccountView.ofRecord, AccountView.ofRecord, idle]
    · rw [applyEvent, voids]
      exact accounts_putRecovery
        (fun view => { view with
          policy := some pending.policy, pendingPolicy := none, pendingRecovery := none })
        mirrored known (Store.modify_modify _ _ _ _) (fun row => rfl) rfl
  | policyCancelled account record pending known authorized queued =>
    obtain ⟨log, event, applied⟩ := foldl_applyEvent_singleton sdk db logs
    rw [applied, applyEvent, event]
    exact accounts_putRecovery (fun view => { view with pendingPolicy := none })
      mirrored known rfl (fun row => rfl) rfl
  | recoveryProposed account guardian newOwner record policy approved known authorized inForce
      listed different approval =>
    obtain ⟨log, event, applied⟩ := foldl_applyEvent_singleton sdk db logs
    rw [applied, applyEvent, event]
    refine accounts_putRecovery
      (fun view => { view with
        pendingRecovery := some (RecoveryView.ofRecord (reachThreshold env policy approved)) })
      mirrored known (notify_frame Database.identities (fun _ _ => rfl) _ _ _ _)
        (fun row => ?_) rfl
    rw [RecoveryView.ofRecord, newOwner_of_approve policy approval]
    rfl
  | recoveryCancelled account record pending known authorized inFlight =>
    obtain ⟨log, event, applied⟩ := foldl_applyEvent_singleton sdk db logs
    rw [applied, applyEvent, event]
    exact accounts_putRecovery (fun view => { view with pendingRecovery := none })
      mirrored known rfl (fun row => rfl) rfl
  | recovered account record pending known inFlight reached elapsed =>
    obtain ⟨prior, log, event, applied, before⟩ := foldl_voided sdk db logs
    rw [applied, applyEvent, event]
    rcases before with ⟨idle, rfl⟩ | ⟨_, earlier, voids, rfl⟩
    · rw [Option.isSome_eq_false_iff, Option.isNone_iff_eq_none] at idle
      refine accounts_modify
        (fun view => { view with
          owner := pending.newOwner, deviceEpoch := wrapAdd 32 record.deviceEpoch 1,
          pendingRecovery := none })
        mirrored known (notify_frame Database.identities (fun _ _ => rfl) _ _ _ _)
          (fun row => rfl) ?_ fun other different => ?_
      · rw [accountView_putRecovery, if_pos rfl, putIdentity_identities, Store.get_put, if_pos rfl,
          Option.map_some, AccountView.ofRecord, AccountView.ofRecord, idle]
        rfl
      · rw [accountView_putRecovery, if_neg different, accountView_putIdentity, if_neg different]
    · rw [applyEvent, voids]
      refine accounts_modify
        (fun view => { view with
          owner := pending.newOwner, deviceEpoch := wrapAdd 32 record.deviceEpoch 1,
          pendingPolicy := none, pendingRecovery := none })
        mirrored known ((notify_frame Database.identities (fun _ _ => rfl) _ _ _ _).trans
          (Store.modify_modify _ _ _ _))
        (fun row => rfl) ?_ fun other different => ?_
      · rw [accountView_putRecovery, if_pos rfl, putIdentity_identities, Store.get_put, if_pos rfl]
        rfl
      · rw [accountView_putRecovery, if_neg different, accountView_putIdentity, if_neg different]

end Step

end OpenSocial.Indexer

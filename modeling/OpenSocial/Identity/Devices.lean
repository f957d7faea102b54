/-
This file proves that a device key speaks for an account only under an
authorization that the present owner gave and that has lasted since.

Executing a recovery raises the device epoch of the account, so the epoch counts
the recoveries and every device record is of an epoch that is not later. A stored
record of the current epoch that is not revoked is explained by one call: the
owner authorized the device with exactly these capabilities and this expiry, and
no call since touched the device or recovered the account.
-/

import OpenSocial.Identity.Policies

namespace OpenSocial.Identity

open Library Library.Word

/-! ### Recoveries and authorizations in a history -/

/-- Whether an accepted call executes a recovery of an account. -/
def recovers (account : Address) (entry : machine.Accepted) : Bool :=
  match entry.call.operation with
  | .executeRecovery args => args.account == account.val
  | _ => false

/-- How many recoveries of an account a history executed. -/
def recoveries (account : Address) (history : List machine.Accepted) : ℕ :=
  history.countP (recovers account)

/-- Whether an accepted call authorizes or revokes a device of an account, or recovers the
account. -/
def touchesDevice (account device : Address) (entry : machine.Accepted) : Bool :=
  match entry.call.operation with
  | .authorizeDevice args => args.account == account.val && args.device == device.val
  | .revokeDevice args => args.account == account.val && args.device == device.val
  | .executeRecovery args => args.account == account.val
  | _ => false

/-- The owner of an account authorized a device with these capabilities until this time. -/
structure Authorizes (account device owner : Address) (capabilities expiresAt : ℕ)
    (entry : machine.Accepted) : Prop where
  authorizing : ∃ label, entry.call.operation =
    .authorizeDevice ⟨account.val, device.val, capabilities, expiresAt, label⟩
  owned : ownerOf entry.before account.val = some owner
  authorized : entry.call.env.authority owner.val = true

/-- The owner authorized the device with these capabilities until this time, and since then no
call authorized or revoked the device or recovered the account. -/
def AuthorizedSince (account device owner : Address) (capabilities expiresAt : ℕ)
    (history : List machine.Accepted) : Prop :=
  LastsSince (fun _ => Authorizes account device owner capabilities expiresAt)
    (fun entry => touchesDevice account device entry = false) history

section Touching

variable {account device : Address} {entry : machine.Accepted} {history : List machine.Accepted}

theorem recoveries_of_recovers (recovering : recovers account entry = true) :
    recoveries account (history ++ [entry]) = recoveries account history + 1 := by
  rw [recoveries, List.countP_append, List.countP_singleton, recovering, if_pos rfl, recoveries]

theorem recoveries_of_quiet (quiet : recovers account entry = false) :
    recoveries account (history ++ [entry]) = recoveries account history := by
  rw [recoveries, List.countP_append, List.countP_singleton, quiet, if_neg Bool.false_ne_true,
    recoveries, Nat.add_zero]

theorem recoveries_le_concat :
    recoveries account history ≤ recoveries account (history ++ [entry]) := by
  rw [recoveries, recoveries, List.countP_append]
  exact Nat.le_add_right _ _

theorem recovers_of_other (other : entry.call.operation.account ≠ account.val) :
    recovers account entry = false := by
  unfold recovers
  cases operation : entry.call.operation with
  | executeRecovery args => simpa [operation, Operation.account] using other
  | _ => rfl

theorem touchesDevice_of_other (other : entry.call.operation.account ≠ account.val) :
    touchesDevice account device entry = false := by
  unfold touchesDevice
  cases operation : entry.call.operation with
  | authorizeDevice args =>
    rw [operation, Operation.account] at other
    simp [other]
  | revokeDevice args =>
    rw [operation, Operation.account] at other
    simp [other]
  | executeRecovery args => simpa [operation, Operation.account] using other
  | _ => rfl

end Touching

/-! ### The keys in use -/

/-- Identities are stored under addresses, and devices under two of them. -/
structure WellKeyed (state : State) : Prop where
  identities : ∀ key record, state.identities.get key = some record →
    ∃ account : Address, key = account.val
  devices : ∀ key stored, state.devices.get key = some stored →
    ∃ account device : Address, key = deviceKey account.val device.val

theorem deviceKey_inj {account other device second : Address} :
    deviceKey account.val device.val = deviceKey other.val second.val ↔
      account = other ∧ device = second := by
  rw [deviceKey, deviceKey, Util.concat_addresses_inj, Prod.mk.injEq]

theorem wellKeyed_putIdentity {state : State} (keyed : WellKeyed state) (account : Address)
    (record : IdentityRecord) : WellKeyed (state.putIdentity account record) := by
  refine ⟨fun key other stored => ?_, keyed.devices⟩
  rw [putIdentity_identities, Store.get_put] at stored
  split at stored
  · next same => exact ⟨account, same⟩
  · exact keyed.identities key other stored

theorem wellKeyed_putDevice {state : State} (keyed : WellKeyed state) (account device : Address)
    (record : DeviceRecord) : WellKeyed (state.putDevice account device record) := by
  refine ⟨keyed.identities, fun key other stored => ?_⟩
  rw [putDevice_devices, Store.get_put] at stored
  split at stored
  · next same => exact ⟨account, device, same⟩
  · exact keyed.devices key other stored

theorem wellKeyed_putRecovery {state : State} (keyed : WellKeyed state) (account : Address)
    (recovery : RecoveryState) : WellKeyed (state.putRecovery account recovery) :=
  ⟨keyed.identities, keyed.devices⟩

theorem wellKeyed_of_effect {env : Env} {operation : Operation} {state after : State}
    {events : List Event} (effect : Effect env state operation after events)
    (keyed : WellKeyed state) : WellKeyed after := by
  cases effect with
  | registered account => exact wellKeyed_putIdentity keyed account _
  | profileUpdated account => exact wellKeyed_putIdentity keyed account _
  | keyRotated account => exact wellKeyed_putIdentity keyed account _
  | deviceAuthorized account device => exact wellKeyed_putDevice keyed account device _
  | deviceRevoked account device => exact wellKeyed_putDevice keyed account device _
  | recovered account =>
    exact wellKeyed_putRecovery (wellKeyed_putIdentity keyed account _) account _
  | _ => exact wellKeyed_putRecovery keyed _ _

theorem wellKeyed_final (calls : List Call) :
    WellKeyed (machine.final machine.initial calls) := by
  refine machine.invariant_final machine.initial WellKeyed ⟨?_, ?_⟩
    (fun entry keyed => wellKeyed_of_effect (effect_of_entry entry) keyed) calls
  · intro key record stored
    exact absurd ((Store.get_empty key).symm.trans stored) (by simp)
  · intro key stored present
    exact absurd ((Store.get_empty key).symm.trans present) (by simp)

/-- No device record names the account itself. -/
def Apart (state : State) : Prop :=
  ∀ account : Address, state.devices.get (deviceKey account.val account.val) = none

theorem apart_of_effect {env : Env} {operation : Operation} {state after : State}
    {events : List Event} (effect : Effect env state operation after events)
    (apart : Apart state) : Apart after := by
  intro account
  cases effect with
  | deviceAuthorized owner device capabilities expiresAt label record known authorized different =>
    rw [putDevice_devices, Store.get_put, if_neg]
    · exact apart account
    · intro same
      obtain ⟨rfl, rfl⟩ := deviceKey_inj.mp same
      exact different rfl
  | deviceRevoked owner device record stored known authorized present =>
    rw [putDevice_devices, Store.get_put, if_neg]
    · exact apart account
    · intro same
      obtain ⟨rfl, rfl⟩ := deviceKey_inj.mp same
      rw [apart account] at present
      cases present
  | _ => exact apart account

theorem apart_of_reachable {state : State} (reached : machine.Reachable state) : Apart state := by
  obtain ⟨calls, rfl⟩ := reached
  refine machine.invariant_final machine.initial Apart (fun account => Store.get_empty _)
    (fun entry apart => apart_of_effect (effect_of_entry entry) apart) calls

/-! ### What a call leaves alone -/

/-- A call leaves the identity and the devices of every other account. -/
theorem untouched_of_other {env : Env} {operation : Operation} {state after : State}
    {events : List Event} (effect : Effect env state operation after events) {account : Address}
    (other : operation.account ≠ account.val) :
    after.identities.get account.val = state.identities.get account.val ∧
      ∀ device, after.devices.get (deviceKey account.val device) =
        state.devices.get (deviceKey account.val device) := by
  have identity : ∀ (written : Address) (record : IdentityRecord), written.val ≠ account.val →
      (state.putIdentity written record).identities.get account.val =
        state.identities.get account.val := by
    intro written record different
    rw [putIdentity_identities, Store.get_put, if_neg (Ne.symm different)]
  have devices : ∀ (written device : Address) (stored : DeviceRecord),
      written.val ≠ account.val → ∀ asked,
      (state.putDevice written device stored).devices.get (deviceKey account.val asked) =
        state.devices.get (deviceKey account.val asked) := by
    intro written device stored different asked
    rw [putDevice_devices, Store.get_put, if_neg]
    intro same
    exact different (congrArg Subtype.val (Util.concat_address_inj.mp same).1.symm)
  cases effect with
  | registered written => exact ⟨identity written _ other, fun _ => rfl⟩
  | profileUpdated written => exact ⟨identity written _ other, fun _ => rfl⟩
  | keyRotated written => exact ⟨identity written _ other, fun _ => rfl⟩
  | deviceAuthorized written device => exact ⟨rfl, devices written device _ other⟩
  | deviceRevoked written device => exact ⟨rfl, devices written device _ other⟩
  | recovered written => exact ⟨identity written _ other, fun _ => rfl⟩
  | _ => exact ⟨rfl, fun _ => rfl⟩

/-- A call leaves the resolution of every other account. -/
theorem resolve_of_other {env asking : Env} {operation : Operation} {state after : State}
    {events : List Event} (effect : Effect env state operation after events)
    (keyed : WellKeyed state) {account : Bytes} (other : operation.account ≠ account)
    (device : Bytes) (capability : ℕ) :
    resolve asking after account device capability =
      resolve asking state account device capability := by
  by_cases addressed : ∃ address : Address, account = address.val
  · obtain ⟨address, rfl⟩ := addressed
    obtain ⟨identity, devices⟩ := untouched_of_other effect other
    rw [resolve, resolve, identity, devices device]
  · -- Nothing is ever registered under a key that is no address.
    have absent : ∀ {reached : State}, WellKeyed reached →
        reached.identities.get account = none := by
      intro reached keyed
      cases stored : reached.identities.get account with
      | none => rfl
      | some record => exact absurd (keyed.identities account record stored) addressed
    rw [resolve, resolve, absent (wellKeyed_of_effect effect keyed), absent keyed]

/-! ### The device invariant -/

/-- The device epoch stored for an account. -/
def epochOf (state : State) (account : Bytes) : Option ℕ :=
  (state.identities.get account).map fun record => record.deviceEpoch

/-- The device epoch counts the recoveries, and every device record of the current epoch that is not
revoked is the one its owner authorized last. -/
structure DeviceInvariant (account : Address) (history : List machine.Accepted) (state : State) :
    Prop where
  epoch : (epochOf state account.val).getD 0 = recoveries account history
  past : ∀ device : Address, ∀ stored,
    state.devices.get (deviceKey account.val device.val) = some stored →
      stored.deviceEpoch ≤ recoveries account history
  authorized : ∀ device : Address, ∀ stored,
    state.devices.get (deviceKey account.val device.val) = some stored →
      stored.revoked = false → stored.deviceEpoch = recoveries account history →
      ∃ owner, ownerOf state account.val = some owner ∧
        AuthorizedSince account device owner stored.capabilities stored.expiresAt history

/-- A call that leaves the epoch and the devices alone keeps the invariant. -/
theorem deviceInvariant_of_quiet {account : Address} {history : List machine.Accepted}
    {entry : machine.Accepted} (invariant : DeviceInvariant account history entry.before)
    (silent : ∀ device, touchesDevice account device entry = false)
    (quiet : recovers account entry = false)
    (sameEpoch : (epochOf entry.after account.val).getD 0 =
      (epochOf entry.before account.val).getD 0)
    (sameDevices : ∀ device : Address, entry.after.devices.get (deviceKey account.val device.val) =
      entry.before.devices.get (deviceKey account.val device.val)) :
    DeviceInvariant account (history ++ [entry]) entry.after := by
  refine ⟨?_, fun device stored present => ?_, fun device stored present valid current => ?_⟩
  · rw [sameEpoch, recoveries_of_quiet quiet, invariant.epoch]
  · rw [sameDevices device] at present
    rw [recoveries_of_quiet quiet]
    exact invariant.past device stored present
  · rw [sameDevices device] at present
    rw [recoveries_of_quiet quiet] at current
    obtain ⟨owner, owned, lasting⟩ := invariant.authorized device stored present valid current
    refine ⟨owner, ?_, lasting.continues (silent device)⟩
    refine ownerOf_kept (effect_of_entry entry) owned fun executed => ?_
    rw [recovers, executed] at quiet
    simp at quiet

/-- A device record written by its owner keeps the invariant, if it is revoked or of the current
epoch and what its owner has just authorized. -/
theorem deviceInvariant_of_written {account device : Address} {history : List machine.Accepted}
    {entry : machine.Accepted} {written : DeviceRecord} {owner : Address}
    (invariant : DeviceInvariant account history entry.before)
    (after_eq : entry.after = entry.before.putDevice account device written)
    (quiet : recovers account entry = false)
    (others : ∀ other, other ≠ device → touchesDevice account other entry = false)
    (owned : ownerOf entry.before account.val = some owner)
    (past : written.deviceEpoch ≤ recoveries account history)
    (authorizing : written.revoked = false →
      Authorizes account device owner written.capabilities written.expiresAt entry) :
    DeviceInvariant account (history ++ [entry]) entry.after := by
  rw [after_eq]
  have stays : ∀ other : Address, other ≠ device →
      (entry.before.putDevice account device written).devices.get
          (deviceKey account.val other.val) =
        entry.before.devices.get (deviceKey account.val other.val) := by
    intro other different
    rw [putDevice_devices, Store.get_put, if_neg]
    intro same
    exact different (deviceKey_inj.mp same).2
  have placed : (entry.before.putDevice account device written).devices.get
      (deviceKey account.val device.val) = some written := by
    rw [putDevice_devices, Store.get_put, if_pos rfl]
  refine ⟨?_, fun other stored present => ?_, fun other stored present valid current => ?_⟩
  · rw [recoveries_of_quiet quiet, ← invariant.epoch]
    rfl
  · rw [recoveries_of_quiet quiet]
    by_cases same : other = device
    · subst same
      rw [← Option.some.inj (placed.symm.trans present)]
      exact past
    · rw [stays other same] at present
      exact invariant.past other stored present
  · rw [recoveries_of_quiet quiet] at current
    by_cases same : other = device
    · subst same
      have written_eq := Option.some.inj (placed.symm.trans present)
      subst written_eq
      exact ⟨owner, owned, LastsSince.begins (authorizing valid)⟩
    · rw [stays other same] at present
      obtain ⟨current, currentOwned, lasting⟩ :=
        invariant.authorized other stored present valid current
      exact ⟨current, currentOwned, lasting.continues (others other same)⟩

/-- A recovery keeps the invariant: every device record is of an earlier epoch now. -/
theorem deviceInvariant_of_recovers {account : Address} {history : List machine.Accepted}
    {entry : machine.Accepted} (invariant : DeviceInvariant account history entry.before)
    (recovering : recovers account entry = true)
    (nextEpoch : (epochOf entry.after account.val).getD 0 = recoveries account history + 1)
    (sameDevices : entry.after.devices = entry.before.devices) :
    DeviceInvariant account (history ++ [entry]) entry.after := by
  refine ⟨?_, fun device stored present => ?_, fun device stored present valid current => ?_⟩
  · rw [nextEpoch, recoveries_of_recovers recovering]
  · rw [sameDevices] at present
    rw [recoveries_of_recovers recovering]
    exact Nat.le_succ_of_le (invariant.past device stored present)
  · rw [sameDevices] at present
    have past := invariant.past device stored present
    rw [current, recoveries_of_recovers recovering] at past
    exact absurd past (Nat.not_succ_le_self _)

/-- A record written over one with the same epoch leaves every epoch. -/
theorem epochOf_putIdentity_same {state : State} {other : Address} {record updated : IdentityRecord}
    (known : state.identities.get other.val = some record)
    (same : updated.deviceEpoch = record.deviceEpoch) (account : Bytes) :
    epochOf (state.putIdentity other updated) account = epochOf state account := by
  unfold epochOf
  rw [putIdentity_identities, Store.get_put]
  split
  · next at_account => rw [at_account, known, Option.map_some, Option.map_some, same]
  · rfl

/-- Every accepted call keeps the device invariant of every account. -/
theorem deviceInvariant_step {history : List machine.Accepted} (entry : machine.Accepted)
    (account : Address) (few : recoveries account (history ++ [entry]) < 2 ^ 32)
    (invariant : DeviceInvariant account history entry.before) :
    DeviceInvariant account (history ++ [entry]) entry.after := by
  have effect := effect_of_entry entry
  by_cases about : entry.call.operation.account = account.val
  · have quiet := deviceInvariant_of_quiet invariant
    have recovering := deviceInvariant_of_recovers invariant
    generalize operation_eq : entry.call.operation = operation at effect about
    generalize after_eq : entry.after = after at effect quiet recovering ⊢
    generalize output_eq : entry.output = output at effect
    cases effect with
    | registered other key keyVersion profileHash profileUri authorized fresh =>
      obtain rfl : other = account := Subtype.ext about
      refine quiet (fun _ => by rw [touchesDevice, operation_eq]) (by rw [recovers, operation_eq])
        ?_ fun _ => rfl
      rw [epochOf, epochOf, fresh, putIdentity_identities, Store.get_put, if_pos rfl]
      rfl
    | profileUpdated other profileHash profileUri device record resolved authorized known =>
      refine quiet (fun _ => by rw [touchesDevice, operation_eq]) (by rw [recovers, operation_eq])
        ?_ fun _ => rfl
      rw [epochOf_putIdentity_same known ?_ account.val]
      rfl
    | keyRotated other key keyVersion record known =>
      refine quiet (fun _ => by rw [touchesDevice, operation_eq]) (by rw [recovers, operation_eq])
        ?_ fun _ => rfl
      rw [epochOf_putIdentity_same known ?_ account.val]
      rfl
    | deviceAuthorized other device capabilities expiresAt label record known authorized =>
      obtain rfl : other = account := Subtype.ext about
      have owned : ownerOf entry.before other.val = some record.owner := by
        rw [ownerOf, known, Option.map_some]
      rw [← after_eq]
      refine deviceInvariant_of_written invariant after_eq (by rw [recovers, operation_eq]) (fun second different => ?_) owned ?_
        fun _ => ⟨⟨label, operation_eq⟩, owned, authorized⟩
      · rw [touchesDevice, operation_eq]
        simp [Subtype.coe_inj, Ne.symm different]
      · rw [← invariant.epoch, epochOf, known, Option.map_some, Option.getD_some]
    | deviceRevoked other device record stored known authorized present =>
      obtain rfl : other = account := Subtype.ext about
      have owned : ownerOf entry.before other.val = some record.owner := by
        rw [ownerOf, known, Option.map_some]
      rw [← after_eq]
      refine deviceInvariant_of_written invariant after_eq (by rw [recovers, operation_eq]) (fun second different => ?_) owned
        (invariant.past device stored present) fun valid => absurd valid (by simp)
      rw [touchesDevice, operation_eq]
      simp [Subtype.coe_inj, Ne.symm different]
    | recovered other record pending known =>
      obtain rfl : other = account := Subtype.ext about
      have executes : recovers other entry = true := by
        rw [recovers, operation_eq]
        exact beq_self_eq_true other.val
      rw [recoveries_of_recovers executes] at few
      have epoch_eq : record.deviceEpoch = recoveries other history := by
        rw [← invariant.epoch, epochOf, known, Option.map_some, Option.getD_some]
      refine recovering executes ?_ rfl
      rw [epochOf, putRecovery_identities, putIdentity_identities, Store.get_put, if_pos rfl,
        Option.map_some, Option.getD_some, epoch_eq, wrapAdd_of_lt few]
    | _ =>
      exact quiet (fun _ => by rw [touchesDevice, operation_eq]) (by rw [recovers, operation_eq])
        rfl fun _ => rfl
  · obtain ⟨identity, devices⟩ := untouched_of_other effect about
    refine deviceInvariant_of_quiet invariant (fun device => touchesDevice_of_other about)
      (recovers_of_other about) ?_ fun device => devices device.val
    rw [epochOf, identity, epochOf]

/-! ### Along every run -/

/-- After every run with fewer recoveries than the epoch can count, the invariant holds. -/
theorem deviceInvariant_final (calls : List Call) (account : Address)
    (few : recoveries account (machine.history machine.initial calls) < 2 ^ 32) :
    DeviceInvariant account (machine.history machine.initial calls)
      (machine.final machine.initial calls) := by
  refine machine.run_induction machine.initial
    (fun history state => recoveries account history < 2 ^ 32 →
      DeviceInvariant account history state) (fun _ => ⟨rfl, ?_, ?_⟩)
    (fun history entry inductionHypothesis few => ?_) calls few
  · intro device stored present
    exact absurd ((Store.get_empty _).symm.trans present) (by simp)
  · intro device stored present
    exact absurd ((Store.get_empty _).symm.trans present) (by simp)
  · refine deviceInvariant_step entry account few (inductionHypothesis ?_)
    exact lt_of_le_of_lt recoveries_le_concat few

/-- A device resolves as itself for an account other than itself. -/
structure SpeaksFor (env : Env) (state : State) (account device : Bytes) (capability : ℕ) :
    Prop where
  ok : (resolve env state account device capability).ok = true
  signer : (resolve env state account device capability).signer = device
  different : device ≠ account

/-- A device that resolves as itself has a valid record of the account's epoch. -/
theorem stored_of_speaksFor {env : Env} {state : State} {account device : Bytes} {capability : ℕ}
    (speaks : SpeaksFor env state account device capability) :
    ∃ record stored, state.identities.get account = some record ∧
      state.devices.get (deviceKey account device) = some stored ∧ stored.revoked = false ∧
      stored.deviceEpoch = record.deviceEpoch ∧ env.now < stored.expiresAt ∧
      (capability ≠ 0 → stored.capabilities &&& capability ≠ 0) := by
  obtain ⟨ok, signer, different⟩ := speaks
  unfold resolve at ok signer
  by_cases empty : account = []
  · rw [if_pos empty] at ok
    cases ok
  rw [if_neg empty] at ok signer
  cases known : state.identities.get account with
  | none =>
    rw [known] at ok
    cases ok
  | some record =>
    simp only [known] at ok signer
    by_cases own : device = [] ∨ device = account
    · rw [if_pos own] at signer
      rcases own with absent | same
      · have length := record.owner.property
        have speaking : record.owner.val = device := signer
        rw [speaking, absent] at length
        cases length
      · exact absurd same different
    rw [if_neg own] at ok
    cases present : state.devices.get (deviceKey account device) with
    | none =>
      simp only [present] at ok
      cases ok
    | some stored =>
      simp only [present] at ok
      refine ⟨record, stored, rfl, rfl, ?_⟩
      split at ok
      · cases ok
      next valid =>
      split at ok
      · cases ok
      next current =>
      split at ok
      · cases ok
      next future =>
      split at ok
      · cases ok
      next granted =>
      refine ⟨Bool.not_eq_true _ ▸ valid, not_not.mp current, Nat.lt_of_not_le future, ?_⟩
      exact fun asked none => granted ⟨asked, none⟩

/-- An account resolves to its owner, or to a device that speaks for it. -/
theorem owner_or_speaksFor {env : Env} {state : State} {account device : Bytes} {capability : ℕ}
    (ok : (resolve env state account device capability).ok = true) :
    (∃ record, state.identities.get account = some record ∧
      (resolve env state account device capability).signer = record.owner.val) ∨
    SpeaksFor env state account device capability := by
  by_cases own : device = [] ∨ device = account
  · refine .inl ?_
    unfold resolve at ok ⊢
    by_cases empty : account = []
    · rw [if_pos empty] at ok
      cases ok
    rw [if_neg empty] at ok ⊢
    cases known : state.identities.get account with
    | none =>
      rw [known] at ok
      cases ok
    | some record =>
      refine ⟨record, rfl, ?_⟩
      simp only [own, if_true]
  · refine .inr ⟨ok, ?_, fun same => own (.inr same)⟩
    unfold resolve at ok ⊢
    by_cases empty : account = []
    · rw [if_pos empty] at ok
      cases ok
    rw [if_neg empty] at ok ⊢
    cases known : state.identities.get account with
    | none =>
      rw [known] at ok
      cases ok
    | some record =>
      simp only [known, own, if_false] at ok ⊢
      cases present : state.devices.get (deviceKey account device) with
      | none =>
        simp only [present] at ok
        cases ok
      | some stored =>
        simp only [present] at ok ⊢
        split at ok
        · cases ok
        next valid =>
        split at ok
        · cases ok
        next current =>
        split at ok
        · cases ok
        next future =>
        split at ok
        · cases ok
        next granted =>
        rw [if_neg valid, if_neg current, if_neg future, if_neg granted]

/-- A device that speaks for an account with a capability also speaks for it when none is asked. -/
theorem SpeaksFor.unasked {env : Env} {state : State} {account device : Bytes} {capability : ℕ}
    (speaks : SpeaksFor env state account device capability) :
    SpeaksFor env state account device 0 := by
  obtain ⟨record, stored, known, present, valid, current, future, _⟩ := stored_of_speaksFor speaks
  obtain ⟨ok, signer, different⟩ := speaks
  have named : account ≠ [] := by
    rintro rfl
    unfold resolve at ok
    rw [if_pos rfl] at ok
    cases ok
  have foreign : ¬ (device = [] ∨ device = account) := by
    rintro (absent | same)
    · subst absent
      have length := record.owner.property
      unfold resolve at signer
      rw [if_neg named] at signer
      simp only [known, true_or, if_true] at signer
      rw [signer] at length
      cases length
    · exact different same
  have answer : resolve env state account device 0 = ⟨true, device, none⟩ := by
    unfold resolve
    rw [if_neg named]
    simp only [known, foreign, if_false, present, valid, Bool.false_eq_true, current, ne_eq,
      not_true_eq_false, not_le.mpr future, false_and]
  exact ⟨by rw [answer], by rw [answer], different⟩

/-- A device resolves as itself only under an authorization by the present owner that grants the
capability, has not expired and has lasted since, with no recovery after it; and calls about other
accounts never change how an account resolves. -/
theorem device_authority_bounded (calls : List Call)
    (few : ∀ account : Address,
      recoveries account (machine.history machine.initial calls) < 2 ^ 32) :
    (∀ env account device capability,
      SpeaksFor env (machine.final machine.initial calls) account device capability →
        ∃ (address key owner : Address) (capabilities expiresAt : ℕ),
          account = address.val ∧ device = key.val ∧
          ownerOf (machine.final machine.initial calls) account = some owner ∧
          (capability ≠ 0 → capabilities &&& capability ≠ 0) ∧ env.now < expiresAt ∧
          AuthorizedSince address key owner capabilities expiresAt
            (machine.history machine.initial calls)) ∧
    (∀ earlier executed later (account : Address),
      machine.history machine.initial calls = earlier ++ executed :: later →
      executed.call.operation = .executeRecovery ⟨account.val⟩ →
      ∀ env device capability,
        SpeaksFor env (machine.final machine.initial calls) account.val device capability →
        ∃ entry ∈ later, ∃ (key owner : Address) (capabilities expiresAt : ℕ),
          device = key.val ∧ Authorizes account key owner capabilities expiresAt entry) ∧
    ∀ earlier entry later, machine.history machine.initial calls = earlier ++ entry :: later →
      ∀ env account device capability, entry.call.operation.account ≠ account →
        resolve env entry.after account device capability =
          resolve env entry.before account device capability := by
  have bounded : ∀ env account device capability,
      SpeaksFor env (machine.final machine.initial calls) account device capability →
        ∃ (address key owner : Address) (capabilities expiresAt : ℕ),
          account = address.val ∧ device = key.val ∧
          ownerOf (machine.final machine.initial calls) account = some owner ∧
          (capability ≠ 0 → capabilities &&& capability ≠ 0) ∧ env.now < expiresAt ∧
          AuthorizedSince address key owner capabilities expiresAt
            (machine.history machine.initial calls) := by
    intro env account device capability speaks
    obtain ⟨record, stored, known, present, valid, current, future, granted⟩ :=
      stored_of_speaksFor speaks
    have keyed := wellKeyed_final calls
    obtain ⟨address, rfl⟩ := keyed.identities _ record known
    obtain ⟨owning, key, key_eq⟩ := keyed.devices _ stored present
    obtain ⟨_, rfl⟩ := Util.concat_address_inj.mp key_eq
    have invariant := deviceInvariant_final calls address (few address)
    have epoch := invariant.epoch
    rw [epochOf, known, Option.map_some, Option.getD_some, ← current] at epoch
    obtain ⟨owner, owned, lasting⟩ := invariant.authorized key stored present valid epoch
    exact ⟨address, key, owner, stored.capabilities, stored.expiresAt, rfl, rfl, owned, granted,
      future, lasting⟩
  refine ⟨bounded, ?_, ?_⟩
  · intro earlier executed later account split recovering env device capability speaks
    obtain ⟨address, key, owner, capabilities, expiresAt, same, device_eq, _, _, _, lasting⟩ :=
      bounded env account.val device capability speaks
    obtain rfl : account = address := Subtype.ext same
    obtain ⟨older, first, member, authorizing⟩ := lasting.starts_after split
      (by simp [touchesDevice, recovering]) (fun _ starts => by
        obtain ⟨label, operation_eq⟩ := starts.authorizing
        rw [recovering] at operation_eq
        cases operation_eq)
    exact ⟨first, member, key, owner, capabilities, expiresAt, device_eq, authorizing⟩
  · intro earlier entry later split env account device capability other
    obtain ⟨prior, post, _, _, final_eq⟩ := machine.history_split split
    refine resolve_of_other (effect_of_entry entry) ?_ other device capability
    rw [← final_eq]
    exact wellKeyed_final prior

/-- A run in which an owner authorizes a device to publish and react. -/
def authorizedDeviceRun : List Call :=
  let account := Address.repeated 1
  let env := Env.signedBy []
  [⟨env 0, .register ⟨account.val, List.replicate 32 7, 1, [], ""⟩⟩,
    ⟨env 1, .authorizeDevice ⟨account.val, (Address.repeated 2).val, 3, 1000, "laptop"⟩⟩]

theorem device_authority_bounded_authorizedDeviceRun :
    SpeaksFor (Env.signedBy [] 999) (machine.final machine.initial authorizedDeviceRun)
        (Address.repeated 1).val (Address.repeated 2).val Capability.PUBLISH ∧
      ∃ (owner : Address) (capabilities expiresAt : ℕ),
        capabilities &&& Capability.PUBLISH ≠ 0 ∧ 999 < expiresAt ∧
        AuthorizedSince (Address.repeated 1) (Address.repeated 2) owner capabilities expiresAt
          (machine.history machine.initial authorizedDeviceRun) := by
  have few : ∀ account : Address,
      recoveries account (machine.history machine.initial authorizedDeviceRun) < 2 ^ 32 := by
    intro account
    refine lt_of_le_of_lt List.countP_le_length ?_
    exact lt_of_le_of_lt (machine.length_history_le _ authorizedDeviceRun) (by decide)
  have speaks : SpeaksFor (Env.signedBy [] 999) (machine.final machine.initial authorizedDeviceRun)
      (Address.repeated 1).val (Address.repeated 2).val Capability.PUBLISH :=
    ⟨by decide +kernel, by decide +kernel, by decide⟩
  obtain ⟨bounded, _⟩ := device_authority_bounded authorizedDeviceRun few
  obtain ⟨address, key, owner, capabilities, expiresAt, account_eq, device_eq, _, granted, future,
    lasting⟩ := bounded _ _ _ _ speaks
  rw [← Subtype.ext account_eq, ← Subtype.ext device_eq] at lasting
  exact ⟨speaks, owner, capabilities, expiresAt, granted (by decide), future, lasting⟩

end OpenSocial.Identity

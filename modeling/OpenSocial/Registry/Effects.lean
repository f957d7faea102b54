/-
This file states once what an accepted registry call can do, one case for each
way a method can succeed.
-/

import OpenSocial.Registry.Contract

namespace OpenSocial.Registry

open Library Library.Word

/-- What an accepted call of each method does. -/
inductive Effect (host : Host) (env : Env) (state : State) :
    Operation → State → List Event → Prop where
  | initialized (admin : Address) (upgradeDelayMs protocolVersion : ℕ)
      (authorized : env.authority host.contractId = true) (unset : state.config = none)
      (delayBound : upgradeDelayMs ≤ MAX_UPGRADE_DELAY_MS) (versioned : 1 ≤ protocolVersion) :
      Effect host env state (.init ⟨admin.val, upgradeDelayMs, protocolVersion⟩)
        (state.putConfig ⟨admin, upgradeDelayMs, protocolVersion, none, 0⟩) []
  | bootstrapped (config : RegistryConfig) (name : String) (address : Address) (version : ℕ)
      (abiHash : Bytes) (notes : String) (configured : state.config = some config)
      (authorized : env.authority config.admin.val = true) (versioned : 1 ≤ version)
      (first : state.active.get (nameKey name) = none) :
      Effect host env state (.proposeContract ⟨name, address.val, version, abiHash, notes⟩)
        (state.putActive name ⟨name, address, version, abiHash, .active, env.now, notes, env.now⟩)
        [.contractActivated name address version env.now]
  | proposed (config : RegistryConfig) (name : String) (address : Address) (version : ℕ)
      (abiHash : Bytes) (notes : String) (current : ContractEntry)
      (configured : state.config = some config)
      (authorized : env.authority config.admin.val = true)
      (active : state.active.get (nameKey name) = some current)
      (newer : current.version < version) :
      Effect host env state (.proposeContract ⟨name, address.val, version, abiHash, notes⟩)
        (state.putProposed name ⟨name, address, version, abiHash, .proposed,
          wrapAdd 64 env.now config.upgradeDelayMs, notes, env.now⟩)
        [.contractProposed name address version abiHash
          (wrapAdd 64 env.now config.upgradeDelayMs)]
  | applied (config : RegistryConfig) (name : String) (entry : ContractEntry)
      (configured : state.config = some config)
      (queued : state.proposed.get (nameKey name) = some entry)
      (elapsed : entry.effectiveAt ≤ env.now) :
      Effect host env state (.applyContract ⟨name⟩)
        ((state.putActive name
          { entry with status := .active, updatedAt := env.now }).removeProposed name)
        [.contractActivated entry.name entry.address entry.version env.now]
  | cancelled (config : RegistryConfig) (name : String) (entry : ContractEntry)
      (configured : state.config = some config)
      (authorized : env.authority config.admin.val = true)
      (queued : state.proposed.get (nameKey name) = some entry) :
      Effect host env state (.cancelContract ⟨name⟩) (state.removeProposed name)
        [.contractCancelled name env.now]
  | deprecated (config : RegistryConfig) (name notes : String) (entry : ContractEntry)
      (configured : state.config = some config)
      (authorized : env.authority config.admin.val = true)
      (active : state.active.get (nameKey name) = some entry)
      (notYet : entry.status ≠ .deprecated) :
      Effect host env state (.deprecateContract ⟨name, notes⟩)
        (state.putActive name
          { entry with status := .deprecated, notes := notes, updatedAt := env.now })
        [.contractDeprecated name entry.address entry.version env.now]
  | adminProposed (config : RegistryConfig) (newAdmin : Address)
      (configured : state.config = some config)
      (authorized : env.authority config.admin.val = true) (different : newAdmin ≠ config.admin) :
      Effect host env state (.proposeAdmin ⟨newAdmin.val⟩)
        (state.putConfig { config with
          pendingAdmin := some newAdmin
          adminTransferEffectiveAt := wrapAdd 64 env.now config.upgradeDelayMs })
        [.adminProposed newAdmin (wrapAdd 64 env.now config.upgradeDelayMs)]
  | adminCancelled (config : RegistryConfig) (pending : Address)
      (configured : state.config = some config)
      (authorized : env.authority config.admin.val = true)
      (inFlight : config.pendingAdmin = some pending) :
      Effect host env state .cancelAdmin
        (state.putConfig { config with pendingAdmin := none, adminTransferEffectiveAt := 0 }) []
  | adminChanged (config : RegistryConfig) (newAdmin : Address)
      (configured : state.config = some config) (inFlight : config.pendingAdmin = some newAdmin)
      (elapsed : config.adminTransferEffectiveAt ≤ env.now) :
      Effect host env state .executeAdmin
        (state.putConfig { config with
          admin := newAdmin, pendingAdmin := none, adminTransferEffectiveAt := 0 })
        [.adminChanged config.admin newAdmin env.now]

/-! ### Inverting the methods -/

theorem requireName_eq_ok {value result : String} (answer : requireName value = .ok result) :
    value = result := by
  simp only [requireName, bind_eq_ok, require_eq_ok, pure_eq_ok, exists_const] at answer
  exact answer.2.2.2

@[simp] theorem requireAdmin_eq_ok (env : Env) (state : State) (config : RegistryConfig) :
    requireAdmin env state = .ok config ↔
      state.config = some config ∧ env.authority config.admin.val = true := by
  simp only [requireAdmin, loadConfig, bind_eq_ok, requireSome_eq_ok, requireAuthority_eq_ok,
    pure_eq_ok, exists_const]
  constructor
  · rintro ⟨_, configured, authorized, rfl⟩
    exact ⟨configured, authorized⟩
  · rintro ⟨configured, authorized⟩
    exact ⟨config, configured, authorized, rfl⟩

/-- Every accepted call has the effect of its method. -/
theorem effect_of_accepted {host : Host} {env : Env} {operation : Operation} {state after : State}
    {events : List Event} (answer : execute host state ⟨env, operation⟩ = .ok (after, events)) :
    Effect host env state operation after events := by
  cases operation with
  | init args =>
    obtain ⟨admin, upgradeDelayMs, protocolVersion⟩ := args
    simp only [execute, init, bind_eq_ok, pure_eq_ok, require_eq_ok, requireAuthority_eq_ok,
      Util.requireAddress_eq_ok, exists_const, Prod.mk.injEq, Option.isNone_iff_eq_none,
      decide_eq_true_eq] at answer
    obtain ⟨authorized, unset, admin, rfl, delayBound, versioned, rfl, rfl⟩ := answer
    exact .initialized admin upgradeDelayMs protocolVersion authorized unset delayBound versioned
  | proposeContract args =>
    obtain ⟨name, address, version, abiHash, notes⟩ := args
    simp only [execute, proposeContract, optionalAbiHash, optionalNotes, bind_eq_ok,
      require_eq_ok, requireAdmin_eq_ok, Util.requireAddress_eq_ok, Util.optionalExact_eq_ok,
      Util.requireString_eq_ok, exists_const, decide_eq_true_eq] at answer
    obtain ⟨config, ⟨configured, authorized⟩, checkedName, named, address, rfl, versioned, abiHash,
      ⟨rfl, _⟩, notes, ⟨rfl, _⟩, answer⟩ := answer
    have same := requireName_eq_ok named
    subst same
    unfold proposeEntry at answer
    split at answer
    · next first =>
      rw [pure_eq_ok, Prod.mk.injEq] at answer
      obtain ⟨rfl, rfl⟩ := answer
      exact .bootstrapped config name address version abiHash notes configured authorized versioned
        first
    · next current active =>
      simp only [bind_eq_ok, pure_eq_ok, require_eq_ok, exists_const, decide_eq_true_eq,
        Prod.mk.injEq] at answer
      obtain ⟨newer, rfl, rfl⟩ := answer
      exact .proposed config name address version abiHash notes current configured authorized active
        newer
  | applyContract args =>
    obtain ⟨name⟩ := args
    simp only [execute, applyContract, loadConfig, bind_eq_ok, pure_eq_ok, require_eq_ok,
      requireSome_eq_ok, exists_const, decide_eq_true_eq, Prod.mk.injEq] at answer
    obtain ⟨config, configured, checkedName, named, entry, queued, elapsed, rfl, rfl⟩ := answer
    have same := requireName_eq_ok named
    subst same
    exact .applied config name entry configured queued elapsed
  | cancelContract args =>
    obtain ⟨name⟩ := args
    simp only [execute, cancelContract, bind_eq_ok, pure_eq_ok, requireSome_eq_ok,
      requireAdmin_eq_ok, Prod.mk.injEq] at answer
    obtain ⟨config, ⟨configured, authorized⟩, checkedName, named, entry, queued, rfl, rfl⟩ := answer
    have same := requireName_eq_ok named
    subst same
    exact .cancelled config name entry configured authorized queued
  | deprecateContract args =>
    obtain ⟨name, notes⟩ := args
    simp only [execute, deprecateContract, optionalNotes, bind_eq_ok, pure_eq_ok, require_eq_ok,
      requireSome_eq_ok, requireAdmin_eq_ok, Util.requireString_eq_ok, exists_const,
      Prod.mk.injEq, bne_iff_ne] at answer
    obtain ⟨config, ⟨configured, authorized⟩, checkedName, named, notes, ⟨rfl, _⟩, entry, active,
      notYet, rfl, rfl⟩ := answer
    have same := requireName_eq_ok named
    subst same
    exact .deprecated config name notes entry configured authorized active notYet
  | proposeAdmin args =>
    obtain ⟨newAdmin⟩ := args
    simp only [execute, proposeAdmin, bind_eq_ok, pure_eq_ok, require_eq_ok, requireAdmin_eq_ok,
      Util.requireAddress_eq_ok, exists_const, Prod.mk.injEq, bne_iff_ne] at answer
    obtain ⟨config, ⟨configured, authorized⟩, newAdmin, rfl, different, rfl, rfl⟩ := answer
    exact .adminProposed config newAdmin configured authorized different
  | cancelAdmin =>
    simp only [execute, cancelAdmin, bind_eq_ok, pure_eq_ok, require_eq_ok, requireAdmin_eq_ok,
      exists_const, Prod.mk.injEq, Option.isSome_iff_exists] at answer
    obtain ⟨config, ⟨configured, authorized⟩, ⟨pending, inFlight⟩, rfl, rfl⟩ := answer
    exact .adminCancelled config pending configured authorized inFlight
  | executeAdmin =>
    simp only [execute, executeAdmin, loadConfig, bind_eq_ok, pure_eq_ok, require_eq_ok,
      requireSome_eq_ok, exists_const, Prod.mk.injEq, decide_eq_true_eq] at answer
    obtain ⟨config, configured, newAdmin, inFlight, elapsed, rfl, rfl⟩ := answer
    exact .adminChanged config newAdmin configured inFlight elapsed

/-- The effect of an entry of a history. -/
theorem effect_of_entry {host : Host} (entry : (machine host).Accepted) :
    Effect host entry.call.env entry.before entry.call.operation entry.after entry.output :=
  effect_of_accepted entry.accepted

end OpenSocial.Registry

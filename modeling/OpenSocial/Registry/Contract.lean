/-
This file models the registry contract: contract entries under a name, changed
only by published, time-locked proposals, and the time-locked transfer of the
admin key.

The first entry of a name activates at once. After that a proposal waits for the
upgrade delay, a newer one replaces it and restarts the delay, and deprecation
only marks the active entry.
-/

import OpenSocial.Common.Actor
import OpenSocial.Library.Machine
import OpenSocial.Library.Store
import OpenSocial.Library.Word

namespace OpenSocial.Registry

open Library Library.Word

/-! ### Limits -/

def DAY_MS : ℕ := 86400000
def MAX_UPGRADE_DELAY_MS : ℕ := 30 * DAY_MS
def MAX_NAME_CHARS : ℕ := 32
def ABI_HASH_LENGTH : ℕ := 32
def MAX_NOTES_CHARS : ℕ := 256

/-! ### Records -/

/-- `registry.contract_status`. -/
inductive ContractStatus where
  | proposed
  | active
  | deprecated
  deriving DecidableEq, Repr

structure ContractEntry where
  name : String
  address : Address
  version : ℕ
  abiHash : Bytes
  status : ContractStatus
  effectiveAt : ℕ
  notes : String
  updatedAt : ℕ
  deriving DecidableEq, Repr

structure RegistryConfig where
  admin : Address
  upgradeDelayMs : ℕ
  protocolVersion : ℕ
  pendingAdmin : Option Address
  adminTransferEffectiveAt : ℕ
  deriving DecidableEq, Repr

/-- The contract's object and maps; both maps are keyed by the raw name bytes. -/
structure State where
  config : Option RegistryConfig
  active : Store Bytes ContractEntry
  proposed : Store Bytes ContractEntry

/-- The `osp.registry.*` events. -/
inductive Event where
  | contractProposed (name : String) (address : Address) (version : ℕ) (abiHash : Bytes)
      (effectiveAt : ℕ)
  | contractActivated (name : String) (address : Address) (version timestamp : ℕ)
  | contractCancelled (name : String) (timestamp : ℕ)
  | contractDeprecated (name : String) (address : Address) (version timestamp : ℕ)
  | adminProposed (newAdmin : Address) (effectiveAt : ℕ)
  | adminChanged (previousAdmin newAdmin : Address) (timestamp : ℕ)
  deriving DecidableEq, Repr

/-! ### Arguments -/

structure InitArguments where
  admin : Bytes
  upgradeDelayMs : ℕ
  protocolVersion : ℕ

structure ProposeContractArguments where
  name : String
  address : Bytes
  version : ℕ
  abiHash : Bytes
  notes : String

/-- The arguments of the methods that take a name only. -/
structure NameArguments where
  name : String

structure DeprecateContractArguments where
  name : String
  notes : String

structure ProposeAdminArguments where
  newAdmin : Bytes

/-! ### Internal helpers -/

/-- `config.put`. -/
def State.putConfig (state : State) (config : RegistryConfig) : State :=
  { state with config := some config }

/-- Load the configuration or revert when init has not run. -/
def loadConfig (state : State) : Except Failure RegistryConfig :=
  requireSome state.config "not initialized"

/-- Require the current admin's contract_call authority; answers the config. -/
def requireAdmin (env : Env) (state : State) : Except Failure RegistryConfig := do
  let config ← loadConfig state
  requireAuthority env config.admin.val
  pure config

/-- The characters of a contract name: a-z, 0-9, underscore and hyphen. -/
def isNameCharacter (character : Char) : Bool :=
  (0x61 ≤ character.val && character.val ≤ 0x7a) ||
    (0x30 ≤ character.val && character.val ≤ 0x39) || character.val == 0x5f ||
    character.val == 0x2d

/-- Validate a contract name: 1..32 characters of [a-z0-9_-]. -/
def requireName (value : String) : Except Failure String := do
  require (0 < Util.stringLength value) "name is required"
  require (Util.stringLength value ≤ MAX_NAME_CHARS) "name too long"
  require (value.toList.all isNameCharacter) "name must match [a-z0-9_-]"
  pure value

/-- Storage key of a contract entry (both maps): the raw name bytes. -/
def nameKey (name : String) : Bytes :=
  Util.str name

/-- `active.put` under the name. -/
def State.putActive (state : State) (name : String) (entry : ContractEntry) : State :=
  { state with active := state.active.put (nameKey name) entry }

/-- `proposed.put` under the name. -/
def State.putProposed (state : State) (name : String) (entry : ContractEntry) : State :=
  { state with proposed := state.proposed.put (nameKey name) entry }

/-- `proposed.remove`. -/
def State.removeProposed (state : State) (name : String) : State :=
  { state with proposed := state.proposed.remove (nameKey name) }

/-- Validate an optional ABI hash (empty or 32 bytes). -/
def optionalAbiHash (value : Bytes) : Except Failure Bytes :=
  Util.optionalExact value ABI_HASH_LENGTH "abi_hash must be empty or 32 bytes"

/-- Validate optional notes. -/
def optionalNotes (value : String) : Except Failure String :=
  Util.requireString value MAX_NOTES_CHARS "notes"

/-! ### Methods -/

def init (host : Host) (env : Env) (args : InitArguments) (state : State) :
    Except Failure (State × List Event) := do
  requireAuthority env host.contractId
  require state.config.isNone "already initialized"
  let admin ← Util.requireAddress args.admin "admin"
  require (args.upgradeDelayMs ≤ MAX_UPGRADE_DELAY_MS) "upgrade_delay_ms too large"
  require (1 ≤ args.protocolVersion) "protocol_version must be >= 1"
  pure (state.putConfig ⟨admin, args.upgradeDelayMs, args.protocolVersion, none, 0⟩, [])

/-- What `propose_contract` does once its arguments are checked: activate the first entry of a
name, queue any later one. -/
def proposeEntry (env : Env) (config : RegistryConfig) (name : String) (address : Address)
    (version : ℕ) (abiHash : Bytes) (notes : String) (state : State) :
    Except Failure (State × List Event) :=
  match state.active.get (nameKey name) with
  | none =>
    pure (state.putActive name ⟨name, address, version, abiHash, .active, env.now, notes, env.now⟩,
      [.contractActivated name address version env.now])
  | some current => do
    require (current.version < version) "version must be greater than the active version"
    let effectiveAt := wrapAdd 64 env.now config.upgradeDelayMs
    pure (state.putProposed name
        ⟨name, address, version, abiHash, .proposed, effectiveAt, notes, env.now⟩,
      [.contractProposed name address version abiHash effectiveAt])

def proposeContract (env : Env) (args : ProposeContractArguments) (state : State) :
    Except Failure (State × List Event) := do
  let config ← requireAdmin env state
  let name ← requireName args.name
  let address ← Util.requireAddress args.address "address"
  require (1 ≤ args.version) "version must be >= 1"
  let abiHash ← optionalAbiHash args.abiHash
  let notes ← optionalNotes args.notes
  proposeEntry env config name address args.version abiHash notes state

/-- Anyone may apply a proposal once its delay has elapsed. -/
def applyContract (env : Env) (args : NameArguments) (state : State) :
    Except Failure (State × List Event) := do
  let _ ← loadConfig state
  let name ← requireName args.name
  let entry ← requireSome (state.proposed.get (nameKey name)) "no proposed entry for name"
  require (entry.effectiveAt ≤ env.now) "upgrade delay has not elapsed"
  let activated := state.putActive name { entry with status := .active, updatedAt := env.now }
  pure (activated.removeProposed name,
    [.contractActivated entry.name entry.address entry.version env.now])

def cancelContract (env : Env) (args : NameArguments) (state : State) :
    Except Failure (State × List Event) := do
  let _ ← requireAdmin env state
  let name ← requireName args.name
  let _ ← requireSome (state.proposed.get (nameKey name)) "no proposed entry for name"
  pure (state.removeProposed name, [.contractCancelled name env.now])

def deprecateContract (env : Env) (args : DeprecateContractArguments) (state : State) :
    Except Failure (State × List Event) := do
  let _ ← requireAdmin env state
  let name ← requireName args.name
  let notes ← optionalNotes args.notes
  let entry ← requireSome (state.active.get (nameKey name)) "no active entry for name"
  require (entry.status != .deprecated) "contract already deprecated"
  pure (state.putActive name
      { entry with status := .deprecated, notes := notes, updatedAt := env.now },
    [.contractDeprecated name entry.address entry.version env.now])

/-- A newer proposal replaces a pending one and restarts the delay. -/
def proposeAdmin (env : Env) (args : ProposeAdminArguments) (state : State) :
    Except Failure (State × List Event) := do
  let config ← requireAdmin env state
  let newAdmin ← Util.requireAddress args.newAdmin "new_admin"
  require (newAdmin != config.admin) "new_admin must differ from the current admin"
  let effectiveAt := wrapAdd 64 env.now config.upgradeDelayMs
  pure (state.putConfig { config with
      pendingAdmin := some newAdmin, adminTransferEffectiveAt := effectiveAt },
    [.adminProposed newAdmin effectiveAt])

/-- The only admin method that emits no event. -/
def cancelAdmin (env : Env) (state : State) : Except Failure (State × List Event) := do
  let config ← requireAdmin env state
  require config.pendingAdmin.isSome "no pending admin transfer"
  pure (state.putConfig { config with pendingAdmin := none, adminTransferEffectiveAt := 0 }, [])

/-- Anyone may execute the transfer once its delay has elapsed. -/
def executeAdmin (env : Env) (state : State) : Except Failure (State × List Event) := do
  let config ← loadConfig state
  let newAdmin ← requireSome config.pendingAdmin "no pending admin transfer"
  require (config.adminTransferEffectiveAt ≤ env.now) "admin transfer delay has not elapsed"
  pure (state.putConfig { config with
      admin := newAdmin, pendingAdmin := none, adminTransferEffectiveAt := 0 },
    [.adminChanged config.admin newAdmin env.now])

/-! ### The contract as a transaction machine -/

/-- One call of a mutating method. -/
inductive Operation where
  | init (args : InitArguments)
  | proposeContract (args : ProposeContractArguments)
  | applyContract (args : NameArguments)
  | cancelContract (args : NameArguments)
  | deprecateContract (args : DeprecateContractArguments)
  | proposeAdmin (args : ProposeAdminArguments)
  | cancelAdmin
  | executeAdmin

/-- A method call together with the environment it runs in. -/
structure Call where
  env : Env
  operation : Operation

/-- The block time of a call. -/
def Call.time (call : Call) : ℕ := call.env.now

def execute (host : Host) (state : State) (call : Call) : Except Failure (State × List Event) :=
  match call.operation with
  | .init args => init host call.env args state
  | .proposeContract args => proposeContract call.env args state
  | .applyContract args => applyContract call.env args state
  | .cancelContract args => cancelContract call.env args state
  | .deprecateContract args => deprecateContract call.env args state
  | .proposeAdmin args => proposeAdmin call.env args state
  | .cancelAdmin => cancelAdmin call.env state
  | .executeAdmin => executeAdmin call.env state

def empty : State := ⟨none, ∅, ∅⟩

/-- The registry contract from its empty store. -/
def machine (host : Host) : Machine State Call (List Event) Failure := ⟨empty, execute host⟩

/-! ### Read methods -/

def getContract (state : State) (name : String) : Option ContractEntry :=
  if Util.stringLength name = 0 then none else state.active.get (nameKey name)

def getProposedContract (state : State) (name : String) : Option ContractEntry :=
  if Util.stringLength name = 0 then none else state.proposed.get (nameKey name)

def getConfig (state : State) : Option RegistryConfig :=
  state.config

end OpenSocial.Registry

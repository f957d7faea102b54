/-
This file models the extension's vault: what is stored at rest, the unlocked
session in memory and in session storage, and the operations that read and write
them in separate asynchronous steps.

A storage operation takes effect where it is issued, and its caller then waits.
A session in memory is an object: the place it was allocated at stands for a
reference to it, and recording activity changes the object. A blob is identified
with what it seals and the passphrase that opens it.
-/

import OpenSocial.Common.Util
import OpenSocial.Library.Tasks

namespace OpenSocial.Extension

open Library

/-! ### What is stored -/

/-- `VaultMode`. -/
inductive VaultMode where
  | owner
  | device
  deriving DecidableEq, Repr

structure DeviceInfo where
  address : String
  capabilities : ℕ
  expiresAt : String
  authorizedAt : ℕ
  txId : Option String
  label : String
  deriving DecidableEq, Repr

/-- What a blob seals; `mode` and `device` are the members of its metadata. In device mode the seed
slot has the encryption secret. -/
structure VaultSecrets where
  seed : Bytes
  keyVersion : ℕ
  account : String
  deviceSecret : Option Bytes
  deviceAddress : Option String
  mode : Option VaultMode
  device : Option DeviceInfo
  deriving DecidableEq, Repr

structure VaultBlob where
  secrets : VaultSecrets
  passphrase : String
  deriving DecidableEq, Repr

structure VaultRecord where
  account : String
  mode : VaultMode
  keyVersion : ℕ
  blob : VaultBlob
  device : Option DeviceInfo
  createdAt : ℕ
  updatedAt : ℕ
  deriving DecidableEq, Repr

/-- Everything that exists only while unlocked. -/
structure UnlockedSession where
  account : String
  keyVersion : ℕ
  mode : VaultMode
  encryptionSecret : Bytes
  encryptionPublicKey : Bytes
  deviceSecret : Bytes
  deviceAddress : String
  ownerSeed : Option Bytes
  unlockedAt : ℕ
  lastActivity : ℕ
  deriving DecidableEq, Repr

inductive VaultStatus where
  | empty
  | locked
  | unlocked
  deriving DecidableEq, Repr

structure VaultView where
  status : VaultStatus
  account : Option String
  mode : Option VaultMode
  device : Option DeviceInfo
  deviceAuthorized : Bool
  ownerAvailable : Bool
  encryptionPublicKey : Option Bytes
  lastActivity : Option ℕ
  deriving DecidableEq, Repr

/-- The mode the secrets of a record are in: the sealed metadata decides before the record. -/
def VaultRecord.sealedMode (record : VaultRecord) : VaultMode :=
  record.blob.secrets.mode.getD record.mode

/-! ### Keys -/

/-- What the vault uses of the SDK's key functions. -/
structure KeyLibrary where
  account : Bytes → String
  encryptionSecret : Bytes → ℕ → Bytes
  encryptionPublicKey : Bytes → Bytes
  address : Bytes → String
  importIdentity : String → Except String (Bytes × ℕ)

def MIN_PASSPHRASE : ℕ := 8

def seedBytes : ℕ := 32

def checkPassphrase (passphrase : String) : Except String Unit :=
  if Util.stringLength passphrase < MIN_PASSPHRASE then
    .error ("Choose a passphrase of at least " ++ toString MIN_PASSPHRASE ++ " characters.")
  else .ok ()

def lockVault (secrets : VaultSecrets) (passphrase : String) : Except String VaultBlob :=
  if passphrase = "" then .error "passphrase must not be empty"
  else if secrets.seed.length ≠ seedBytes then .error "seed must be 32 bytes"
  else .ok ⟨secrets, passphrase⟩

def unlockVault (blob : VaultBlob) (passphrase : String) : Except String VaultSecrets :=
  if blob.passphrase = passphrase then .ok blob.secrets
  else .error "cannot unlock vault: wrong passphrase or corrupted data"

/-- The session that a record's secrets open. -/
def sessionFromSecrets (keys : KeyLibrary) (record : VaultRecord) (secrets : VaultSecrets)
    (time : ℕ) : Except String UnlockedSession :=
  match secrets.deviceSecret, secrets.deviceAddress with
  | some deviceSecret, some deviceAddress =>
    if keys.address deviceSecret ≠ deviceAddress then
      .error "The vault's device key does not match its address."
    else if secrets.mode.getD record.mode = .device then
      .ok
        { account := secrets.account
          keyVersion := secrets.keyVersion
          mode := .device
          encryptionSecret := secrets.seed
          encryptionPublicKey := keys.encryptionPublicKey secrets.seed
          deviceSecret := deviceSecret
          deviceAddress := deviceAddress
          ownerSeed := none
          unlockedAt := time
          lastActivity := time }
    else if keys.account secrets.seed ≠ secrets.account then
      .error "The vault's seed does not match its account."
    else
      .ok
        { account := keys.account secrets.seed
          keyVersion := secrets.keyVersion
          mode := .owner
          encryptionSecret := keys.encryptionSecret secrets.seed secrets.keyVersion
          encryptionPublicKey :=
            keys.encryptionPublicKey (keys.encryptionSecret secrets.seed secrets.keyVersion)
          deviceSecret := deviceSecret
          deviceAddress := deviceAddress
          ownerSeed := some secrets.seed
          unlockedAt := time
          lastActivity := time }
  | _, _ => .error "The vault has no device key; remove the account and import it again."

/-! ### Requests -/

/-- What an operation asks. `opening` and `closing` mark the calls that enter a session; `closing`
says whether the call dropped the seed. -/
inductive VaultRequest where
  | opening
  | closing (dropsSeed : Bool)
  | now
  | random
  | tick
  | record
  | storeRecord (record : VaultRecord)
  | cached
  | session (reference : ℕ)
  | stored
  | cacheStored (session : UnlockedSession)
  | enter (session : UnlockedSession)
  | clear
  | storeActivity (reference : ℕ) (time : ℕ)

/-- `record` and `stored` answer what is in storage, `cached` a reference, `session` the object. -/
abbrev VaultAnswer : VaultRequest → Type
  | .opening => Unit
  | .closing _ => Unit
  | .now => ℕ
  | .random => Bytes
  | .tick => Unit
  | .record => Option VaultRecord
  | .storeRecord _ => Unit
  | .cached => Option ℕ
  | .session _ => Option UnlockedSession
  | .stored => Option UnlockedSession
  | .cacheStored _ => Unit
  | .enter _ => ℕ
  | .clear => Unit
  | .storeActivity _ _ => Unit

/-- An operation of the vault; its failures are the texts of its errors. -/
abbrev VaultAction (Value : Type) := Program VaultRequest VaultAnswer String Value

/-- Ask for a value. -/
def obtainValue (request : VaultRequest) : VaultAction (VaultAnswer request) :=
  Program.query request .ok

def tick : VaultAction Unit := obtainValue .tick

/-- Issue a storage operation and wait for it. -/
def issue (request : VaultRequest) : VaultAction (VaultAnswer request) := do
  let answer ← obtainValue request
  tick
  pure answer

/-- Wait for another operation, however it ends. -/
def awaiting {Value : Type} (operation : VaultAction Value) : VaultAction Value := do
  match ← Program.attempt operation with
  | .ok value => do
    tick
    pure value
  | .error message => do
    tick
    Program.fail message

/-- A call that may enter a session; whether it dropped the seed is told from its value. -/
def entering {Value : Type} (dropsSeed : Value → Bool) (operation : VaultAction Value) :
    VaultAction Value := do
  obtainValue .opening
  match ← Program.attempt operation with
  | .ok value => do
    obtainValue (.closing (dropsSeed value))
    pure value
  | .error message => do
    obtainValue (.closing false)
    Program.fail message

/-! ### Operations -/

def record : VaultAction (Option VaultRecord) := issue .record

/-- The unlocked session (memory, then session storage), if any. -/
def current : VaultAction (Option ℕ) := do
  match ← obtainValue .cached with
  | some session => pure (some session)
  | none => do
    match ← issue .stored with
    | some stored => do
      obtainValue (.cacheStored stored)
      obtainValue .cached
    | none => obtainValue .cached

/-- What `status` shows of a record and the session. -/
def viewOf (record : VaultRecord) (session : Option UnlockedSession) : VaultView where
  status := if session.isSome then .unlocked else .locked
  account := some record.account
  mode := some record.mode
  device := record.device
  deviceAuthorized := record.device.isSome
  ownerAvailable := (session.bind UnlockedSession.ownerSeed).isSome
  encryptionPublicKey := session.map UnlockedSession.encryptionPublicKey
  lastActivity := session.map UnlockedSession.lastActivity

def status : VaultAction VaultView := do
  match ← awaiting record with
  | none => pure ⟨.empty, none, none, none, false, false, none, none⟩
  | some record => do
    match ← awaiting current with
    | none => pure (viewOf record none)
    | some reference => do
      let session ← obtainValue (.session reference)
      pure (viewOf record session)

def enter (session : UnlockedSession) : VaultAction ℕ := issue (.enter session)

/-- The owner-mode vault of a seed, stored and entered. -/
def storeOwnerVault (keys : KeyLibrary) (seed : Bytes) (keyVersion : ℕ) (passphrase : String) :
    VaultAction ℕ := do
  let deviceSecret ← obtainValue .random
  let secrets : VaultSecrets :=
    { seed := seed
      keyVersion := keyVersion
      account := keys.account seed
      deviceSecret := some deviceSecret
      deviceAddress := some (keys.address deviceSecret)
      mode := some .owner
      device := none }
  let blob ← awaiting (Program.lift (lockVault secrets passphrase))
  let time ← obtainValue .now
  issue (.storeRecord ⟨keys.account seed, .owner, keyVersion, blob, none, time, time⟩)
  awaiting (enter
    { account := keys.account seed
      keyVersion := keyVersion
      mode := .owner
      encryptionSecret := keys.encryptionSecret seed keyVersion
      encryptionPublicKey := keys.encryptionPublicKey (keys.encryptionSecret seed keyVersion)
      deviceSecret := deviceSecret
      deviceAddress := keys.address deviceSecret
      ownerSeed := some seed
      unlockedAt := time
      lastActivity := time })

def ALREADY_HELD : String := "This browser already holds an account. Remove it first."

def NO_ACCOUNT : String := "There is no account in this browser yet."

/-- Generates a new identity locally. -/
def create (keys : KeyLibrary) (passphrase : String) : VaultAction ℕ := do
  Program.lift (checkPassphrase passphrase)
  let existing ← awaiting record
  Program.lift (if existing.isSome then .error ALREADY_HELD else .ok ())
  let seed ← obtainValue .random
  awaiting (storeOwnerVault keys seed 1 passphrase)

/-- Imports the web client's identity file; `import` in the source. -/
def importVault (keys : KeyLibrary) (json passphrase : String) : VaultAction ℕ := do
  Program.lift (checkPassphrase passphrase)
  let existing ← awaiting record
  Program.lift (if existing.isSome then .error ALREADY_HELD else .ok ())
  let imported ← Program.lift (keys.importIdentity json)
  awaiting (storeOwnerVault keys imported.1 imported.2 passphrase)

def unlock (keys : KeyLibrary) (passphrase : String) : VaultAction ℕ := do
  let found ← awaiting record
  let record ← Program.lift (found.elim (.error NO_ACCOUNT) .ok)
  let secrets ← awaiting (Program.lift (unlockVault record.blob passphrase))
  let time ← obtainValue .now
  let session ← Program.lift (sessionFromSecrets keys record secrets time)
  awaiting (enter session)

def lock : VaultAction Unit := issue .clear

def touch : VaultAction Unit := do
  match ← awaiting current with
  | none => pure ()
  | some session => do
    let time ← obtainValue .now
    issue (.storeActivity session time)

/-- Locks when idle for longer than `autoLockMs` (0 disables); answers whether it locked. -/
def checkAutoLock (autoLockMs time : ℕ) : VaultAction Bool := do
  match ← awaiting current with
  | none => pure false
  | some reference => do
    let session ← obtainValue (.session reference)
    if autoLockMs = 0 then pure false
    else if autoLockMs ≤ time - (session.map UnlockedSession.lastActivity).getD 0 then do
      awaiting lock
      pure true
    else pure false

structure DeviceAuthorization where
  passphrase : String
  keepOwnerSeed : Bool
  device : DeviceInfo

/-- The secrets of the vault after the device was authorized. -/
def authorizedSecrets (keys : KeyLibrary) (secrets : VaultSecrets) (input : DeviceAuthorization) :
    VaultSecrets :=
  if input.keepOwnerSeed then { secrets with mode := some .owner, device := some input.device }
  else
    { seed := keys.encryptionSecret secrets.seed secrets.keyVersion
      keyVersion := secrets.keyVersion
      account := secrets.account
      deviceSecret := secrets.deviceSecret
      deviceAddress := secrets.deviceAddress
      mode := some .device
      device := some input.device }

/-- What an authorization requires of the opened secrets. -/
def checkAuthorization (record : VaultRecord) (secrets : VaultSecrets)
    (input : DeviceAuthorization) : Except String Unit :=
  if secrets.mode.getD record.mode ≠ .owner then
    .error ("The identity seed is not in this browser; import the identity file to authorize a " ++
      "device.")
  else if secrets.deviceSecret.isNone ∨ secrets.deviceAddress.isNone then
    .error "The vault has no device key."
  else if secrets.deviceAddress ≠ some input.device.address then
    .error "The authorized device does not match the vault's device key."
  else .ok ()

/-- Records the on-chain device authorization and applies the seed policy: unless `keepOwnerSeed`,
the vault is locked again in device mode without the identity seed. -/
def completeDeviceAuthorization (keys : KeyLibrary) (input : DeviceAuthorization) :
    VaultAction ℕ := do
  let found ← awaiting record
  let record ← Program.lift (found.elim (.error NO_ACCOUNT) .ok)
  let secrets ← awaiting (Program.lift (unlockVault record.blob input.passphrase))
  Program.lift (checkAuthorization record secrets input)
  let time ← obtainValue .now
  let blob ← awaiting (Program.lift
    (lockVault (authorizedSecrets keys secrets input) input.passphrase))
  let next : VaultRecord :=
    { record with
      mode := if input.keepOwnerSeed then .owner else .device
      blob := blob
      device := some input.device
      updatedAt := time }
  issue (.storeRecord next)
  let opened ← awaiting (Program.lift (unlockVault blob input.passphrase))
  let entered ← obtainValue .now
  let session ← Program.lift (sessionFromSecrets keys next opened entered)
  awaiting (enter session)

/-! ### Calls -/

/-- A call of the vault. -/
inductive VaultCall where
  | status
  | current
  | touch
  | checkAutoLock (autoLockMs time : ℕ)
  | lock
  | create (passphrase : String)
  | importVault (json passphrase : String)
  | unlock (passphrase : String)
  | completeDeviceAuthorization (input : DeviceAuthorization)

/-- What a call returns. -/
inductive VaultOutcome where
  | done
  | view (view : VaultView)
  | session (reference : Option ℕ)
  | locked (locked : Bool)

/-- What a call does. -/
def perform (keys : KeyLibrary) : VaultCall → VaultAction VaultOutcome
  | .status => do
    let view ← status
    pure (.view view)
  | .current => do
    let session ← current
    pure (.session session)
  | .touch => do
    touch
    pure .done
  | .checkAutoLock autoLockMs time => do
    let locked ← checkAutoLock autoLockMs time
    pure (.locked locked)
  | .lock => do
    lock
    pure .done
  | .create passphrase => do
    let session ← entering (fun _ => false) (create keys passphrase)
    pure (.session (some session))
  | .importVault json passphrase => do
    let session ← entering (fun _ => false) (importVault keys json passphrase)
    pure (.session (some session))
  | .unlock passphrase => do
    let session ← entering (fun _ => false) (unlock keys passphrase)
    pure (.session (some session))
  | .completeDeviceAuthorization input => do
    let session ← entering (fun _ => !input.keepOwnerSeed) (completeDeviceAuthorization keys input)
    pure (.session (some session))

end OpenSocial.Extension

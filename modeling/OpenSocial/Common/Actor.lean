/-
This file models the environment one call runs in and the shared actor checks
of `common/assembly/actor.ts`.

A contract sees the block time, the accounts that authorized the transaction,
its caller, and the answers of the other contracts it asks. The answers are
fields of the environment, so every result about one contract holds whatever
the others answer, and a joint model instantiates them with the other contracts'
own read methods. An answer is `none` when the system call fails.
-/

import OpenSocial.Common.Util

namespace OpenSocial

/-! ### Messages the contracts exchange -/

/-- `identity.resolve_actor_result`. -/
structure ResolveActorResult where
  ok : Bool
  signer : Bytes
  reason : Option String
  deriving DecidableEq, Repr

/-- `publications.audience_kind`. -/
inductive AudienceKind where
  | everyone
  | friends
  | custom
  deriving DecidableEq, Repr

/-- The audience of a wire value; values out of range are no audience. -/
def AudienceKind.ofWire : ℤ → Option AudienceKind
  | 0 => some .everyone
  | 1 => some .friends
  | 2 => some .custom
  | _ => none

/-- `publications.lifecycle_state`. -/
inductive LifecycleState where
  | active
  | authorHidden
  | deleted
  | unavailable
  | migrated
  | superseded
  deriving DecidableEq, Repr

/-- The lifecycle state of a wire value; values out of range are no state. -/
def LifecycleState.ofWire : ℤ → Option LifecycleState
  | 0 => some .active
  | 1 => some .authorHidden
  | 2 => some .deleted
  | 3 => some .unavailable
  | 4 => some .migrated
  | 5 => some .superseded
  | _ => none

/-- `publications.post_record`; an empty `replyTo` is a top-level post. -/
structure PostRecord where
  author : Address
  sequence : ℕ
  versionCount : ℕ
  latestVersion : Bytes
  state : LifecycleState
  replyTo : Bytes
  audience : AudienceKind
  createdAt : ℕ
  updatedAt : ℕ
  deriving DecidableEq, Repr

/-! ### The environment of a call -/

/-- What is fixed for a deployed contract: its own address, the chain id and the hash
system call, which answers with a multihash. -/
structure Host where
  contractId : Bytes
  chainId : Bytes
  hash : Bytes → Bytes

/-- What one call sees of the chain. -/
structure Env where
  now : ℕ
  authority : Bytes → Bool
  caller : Bytes
  resolveActor : (contract account device : Bytes) → (capability : ℕ) → Option ResolveActorResult
  isBlocked : (contract actor target : Bytes) → Option Bool
  getPost : (contract postId : Bytes) → Option (Option PostRecord)
  consume : (contract account : Bytes) → (units : ℕ) → Bool

/-- An environment in which every account signed, every actor resolves to itself, nobody is
blocked and every lookup of another contract fails. -/
def Env.signedBy (caller : Bytes) (now : ℕ) : Env where
  now := now
  authority := fun _ => true
  caller := caller
  resolveActor := fun _ account _ _ => some ⟨true, account, none⟩
  isBlocked := fun _ _ _ => some false
  getPost := fun _ _ => none
  consume := fun _ _ _ => true

/-- An address of one repeated byte. -/
def Address.repeated (byte : UInt8) : Address :=
  ⟨List.replicate 25 byte, List.length_replicate⟩

/-- `System.requireAuthority`: the account must have authorized this contract call. -/
def requireAuthority (env : Env) (account : Bytes) : Except Failure Unit :=
  if env.authority account then .ok () else .error (.unauthorized account)

@[simp] theorem requireAuthority_eq_ok (env : Env) (account : Bytes) (result : Unit) :
    requireAuthority env account = .ok result ↔ env.authority account = true := by
  unfold requireAuthority
  split
  · next holds => simp [holds]
  · next fails => simp [fails]

theorem sound_requireAuthority (env : Env) (account : Bytes) :
    Sound (requireAuthority env account) fun _ => True := by
  unfold requireAuthority
  split
  · exact Library.Meets.ok trivial
  · exact Library.Meets.error (by simp)

/-! ### Capability bits -/

namespace Capability

def PUBLISH : ℕ := 1
def REACT : ℕ := 2
def COMMENT : ℕ := 4
def RELATIONSHIPS : ℕ := 8
def COMMUNITY : ℕ := 16
def PROFILE : ℕ := 32
def MESSAGING : ℕ := 64
def SUPPORT : ℕ := 128

end Capability

namespace Actor

/-- Resolve and require the signer for (account, device, capability); an empty device is
the account's own key. -/
def requireAuthorized (env : Env) (identityContract account device : Bytes) (capability : ℕ) :
    Except Failure Bytes := do
  require (identityContract != []) "identity contract not configured"
  let answer ← requireSome (env.resolveActor identityContract account device capability)
    "identity resolution failed"
  require answer.ok (answer.reason.getD "actor not authorized")
  requireAuthority env answer.signer
  pure answer.signer

/-- True when the identity contract knows `account`; never checks signatures. -/
def existsIdentity (env : Env) (identityContract account : Bytes) : Except Failure Bool := do
  require (identityContract != []) "identity contract not configured"
  match env.resolveActor identityContract account [] 0 with
  | none => pure false
  | some answer => pure answer.ok

/-- The signer an accepted actor check found. -/
theorem requireAuthorized_eq_ok (env : Env) (identityContract account device : Bytes)
    (capability : ℕ) (signer : Bytes) :
    requireAuthorized env identityContract account device capability = .ok signer ↔
      identityContract ≠ [] ∧ ∃ answer,
        env.resolveActor identityContract account device capability = some answer ∧
          answer.ok = true ∧ env.authority answer.signer = true ∧ answer.signer = signer := by
  simp only [requireAuthorized, bind_eq_ok, require_eq_ok, requireSome_eq_ok,
    requireAuthority_eq_ok, pure_eq_ok, bne_iff_ne, exists_const]

theorem sound_requireAuthorized (env : Env) (identityContract account device : Bytes)
    (capability : ℕ) :
    Sound (requireAuthorized env identityContract account device capability) fun _ => True := by
  refine Library.Meets.seq (sound_require _ _) fun _ _ => ?_
  refine Library.Meets.seq (sound_requireSome _ _) fun _ _ => ?_
  refine Library.Meets.seq (sound_require _ _) fun _ _ => ?_
  refine Library.Meets.seq (sound_requireAuthority _ _) fun _ _ => ?_
  exact Library.Meets.ret trivial

theorem sound_existsIdentity (env : Env) (identityContract account : Bytes) :
    Sound (existsIdentity env identityContract account) fun _ => True := by
  refine Library.Meets.seq (sound_require _ _) fun _ _ => ?_
  split
  · exact Library.Meets.ret trivial
  · exact Library.Meets.ret trivial

end Actor

end OpenSocial

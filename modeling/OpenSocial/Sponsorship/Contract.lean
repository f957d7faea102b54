/-
This file models the sponsorship contract: the discovery records of the sponsors
and their prospective, revocable grants to single users.

Nothing but the authority of the sponsor's own account is asked for. A record is
never removed, only deactivated; a grant is never removed, only revoked; and the
listing of the sponsors is read page by page, in the order of their addresses.
-/

import OpenSocial.Common.Actor
import OpenSocial.Library.Machine
import OpenSocial.Library.Paging
import OpenSocial.Library.Store

namespace OpenSocial.Sponsorship

open Library

/-! ### Limits -/

def MAX_ENDPOINT_LENGTH : ℕ := 256
def MAX_POLICY_URI_LENGTH : ℕ := 256
def MAX_ALLOWED_CALLS : ℕ := 32
def MAX_ENTRY_POINTS_PER_CALL : ℕ := 64
def MAX_BYTES_PER_OP : ℕ := 65536
def MAX_LIST_LIMIT : ℕ := 100

def HTTPS_PREFIX : List Char := "https://".toList
def LOCALHOST : List Char := "http://localhost".toList

/-! ### Records -/

/-- `sponsorship.allowed_call`; no entry points are all of them. -/
structure AllowedCall where
  contractId : Address
  entryPoints : List ℕ
  deriving DecidableEq

structure SponsorRecord where
  sponsor : Address
  endpoint : String
  policyUri : String
  policyVersion : ℕ
  allowed : List AllowedCall
  maxRcPerOp : ℕ
  maxOpsPerUserPerDay : ℕ
  maxBytesPerOp : ℕ
  active : Bool
  registeredAt : ℕ
  updatedAt : ℕ
  deriving DecidableEq

structure UserGrant where
  sponsor : Address
  user : Address
  dailyOps : ℕ
  expiresAt : ℕ
  revoked : Bool
  updatedAt : ℕ
  deriving DecidableEq, Repr

/-- The contract's maps; the sponsors are keyed by their address, the grants by both addresses. -/
structure State where
  sponsors : Store Bytes SponsorRecord
  grants : Store Bytes UserGrant

/-- The `osp.sponsorship.*` events. -/
inductive Event where
  | sponsorSet (sponsor : Address) (endpoint : String) (policyVersion : ℕ) (active : Bool)
      (timestamp : ℕ)
  | sponsorDeactivated (sponsor : Address) (timestamp : ℕ)
  | userGrantSet (sponsor user : Address) (dailyOps expiresAt timestamp : ℕ)
  | userGrantRevoked (sponsor user : Address) (timestamp : ℕ)
  deriving DecidableEq, Repr

/-! ### Arguments -/

structure AllowedCallArguments where
  contractId : Bytes
  entryPoints : List ℕ

structure SetSponsorArguments where
  sponsor : Bytes
  endpoint : String
  policyUri : String
  policyVersion : ℕ
  allowed : List AllowedCallArguments
  maxRcPerOp : ℕ
  maxOpsPerUserPerDay : ℕ
  maxBytesPerOp : ℕ
  active : Bool

structure DeactivateSponsorArguments where
  sponsor : Bytes

structure SetUserGrantArguments where
  sponsor : Bytes
  user : Bytes
  dailyOps : ℕ
  expiresAt : ℕ

structure RevokeUserGrantArguments where
  sponsor : Bytes
  user : Bytes

structure ListSponsorsArguments where
  start : Bytes
  limit : ℕ

/-! ### Internal helpers -/

/-- Grant key: sponsor and user (50 bytes). -/
def grantKey (sponsor user : Bytes) : Bytes :=
  Util.concat [sponsor, user]

/-- Require the sponsor account's contract_call authority on this transaction. -/
def requireSponsorAuthority (env : Env) (sponsor : Address) : Except Failure Unit :=
  requireAuthority env sponsor.val

/-- `http://localhost`, alone or before a port or a path. -/
def isLocalhost (endpoint : List Char) : Bool :=
  LOCALHOST.isPrefixOf endpoint &&
    (endpoint.length == LOCALHOST.length || endpoint[LOCALHOST.length]? == some ':' ||
      endpoint[LOCALHOST.length]? == some '/')

/-- Whether the scheme of an endpoint that is not empty is accepted. -/
def isSecure (endpoint : List Char) : Bool :=
  HTTPS_PREFIX.isPrefixOf endpoint || isLocalhost endpoint

/-- Validate the sponsor API endpoint; it may be empty. -/
def validateEndpoint (value : String) : Except Failure String := do
  let endpoint ← Util.requireString value MAX_ENDPOINT_LENGTH "endpoint"
  if Util.stringLength endpoint = 0 then pure endpoint
  else do
    require (isSecure endpoint.toList) "endpoint must use https"
    pure endpoint

/-- One allowed call: a contract address and a bounded list of entry points. -/
def validateCall (call : AllowedCallArguments) : Except Failure AllowedCall := do
  let contractId ← Util.requireAddress call.contractId "allowed contract_id"
  require (call.entryPoints.length ≤ MAX_ENTRY_POINTS_PER_CALL) "too many entry points"
  pure ⟨contractId, call.entryPoints⟩

/-- Validate the allowed-call list, one entry after the other. -/
def validateAllowed (allowed : List AllowedCallArguments) : Except Failure (List AllowedCall) := do
  require (allowed.length ≤ MAX_ALLOWED_CALLS) "too many allowed calls"
  allowed.mapM validateCall

/-- Load a sponsor record or revert. -/
def requireSponsorRecord (state : State) (sponsor : Address) : Except Failure SponsorRecord :=
  requireSome (state.sponsors.get sponsor.val) "sponsor not registered"

/-- `sponsors.put`. -/
def State.putSponsor (state : State) (sponsor : Address) (record : SponsorRecord) : State :=
  { state with sponsors := state.sponsors.put sponsor.val record }

/-- `grants.put`. -/
def State.putGrant (state : State) (sponsor user : Address) (grant : UserGrant) : State :=
  { state with grants := state.grants.put (grantKey sponsor.val user.val) grant }

/-! ### Methods -/

/-- Registers a sponsor or replaces its record; the time of the registration stays. -/
def setSponsor (env : Env) (args : SetSponsorArguments) (state : State) :
    Except Failure (State × List Event) := do
  let sponsor ← Util.requireAddress args.sponsor "sponsor"
  requireSponsorAuthority env sponsor
  let endpoint ← validateEndpoint args.endpoint
  let policyUri ← Util.requireString args.policyUri MAX_POLICY_URI_LENGTH "policy_uri"
  let allowed ← validateAllowed args.allowed
  require (args.maxBytesPerOp ≤ MAX_BYTES_PER_OP) "max_bytes_per_op too large"
  let registeredAt := (state.sponsors.get sponsor.val).elim env.now SponsorRecord.registeredAt
  pure (state.putSponsor sponsor ⟨sponsor, endpoint, policyUri, args.policyVersion, allowed,
      args.maxRcPerOp, args.maxOpsPerUserPerDay, args.maxBytesPerOp, args.active, registeredAt,
      env.now⟩,
    [.sponsorSet sponsor endpoint args.policyVersion args.active env.now])

def deactivateSponsor (env : Env) (args : DeactivateSponsorArguments) (state : State) :
    Except Failure (State × List Event) := do
  let sponsor ← Util.requireAddress args.sponsor "sponsor"
  requireSponsorAuthority env sponsor
  let record ← requireSponsorRecord state sponsor
  pure (state.putSponsor sponsor { record with active := false, updatedAt := env.now },
    [.sponsorDeactivated sponsor env.now])

def setUserGrant (env : Env) (args : SetUserGrantArguments) (state : State) :
    Except Failure (State × List Event) := do
  let sponsor ← Util.requireAddress args.sponsor "sponsor"
  let user ← Util.requireAddress args.user "user"
  require (sponsor != user) "user must differ from sponsor"
  requireSponsorAuthority env sponsor
  require (1 ≤ args.dailyOps) "daily_ops must be at least 1"
  require (args.expiresAt = 0 ∨ env.now < args.expiresAt) "expires_at must be 0 or in the future"
  let record ← requireSponsorRecord state sponsor
  require record.active "sponsor inactive"
  pure (state.putGrant sponsor user
      ⟨sponsor, user, args.dailyOps, args.expiresAt, false, env.now⟩,
    [.userGrantSet sponsor user args.dailyOps args.expiresAt env.now])

/-- Works for an inactive sponsor too, and for a grant that is revoked already. -/
def revokeUserGrant (env : Env) (args : RevokeUserGrantArguments) (state : State) :
    Except Failure (State × List Event) := do
  let sponsor ← Util.requireAddress args.sponsor "sponsor"
  let user ← Util.requireAddress args.user "user"
  requireSponsorAuthority env sponsor
  let grant ← requireSome (state.grants.get (grantKey sponsor.val user.val)) "grant not found"
  pure (state.putGrant sponsor user { grant with revoked := true, updatedAt := env.now },
    [.userGrantRevoked sponsor user env.now])

/-! ### The contract as a transaction machine -/

/-- One call of a mutating method. -/
inductive Operation where
  | setSponsor (args : SetSponsorArguments)
  | deactivateSponsor (args : DeactivateSponsorArguments)
  | setUserGrant (args : SetUserGrantArguments)
  | revokeUserGrant (args : RevokeUserGrantArguments)

/-- A method call together with the environment it runs in. -/
structure Call where
  env : Env
  operation : Operation

/-- The block time of a call. -/
def Call.time (call : Call) : ℕ := call.env.now

def execute (state : State) (call : Call) : Except Failure (State × List Event) :=
  match call.operation with
  | .setSponsor args => setSponsor call.env args state
  | .deactivateSponsor args => deactivateSponsor call.env args state
  | .setUserGrant args => setUserGrant call.env args state
  | .revokeUserGrant args => revokeUserGrant call.env args state

def empty : State := ⟨∅, ∅⟩

/-- The sponsorship contract from its empty store. -/
def machine : Machine State Call (List Event) Failure := ⟨empty, execute⟩

/-! ### Read methods -/

def getSponsor (state : State) (sponsor : Bytes) : Option SponsorRecord :=
  if sponsor = [] then none else state.sponsors.get sponsor

def getUserGrant (state : State) (sponsor user : Bytes) : Option UserGrant :=
  if sponsor = [] ∨ user = [] then none else state.grants.get (grantKey sponsor user)

theorem numbers_injective : Function.Injective (List.map UInt8.toNat) :=
  List.map_injective_iff.mpr fun _ _ => UInt8.toNat_inj.mp

/-- Keys are ordered byte by byte. -/
def keyRank : Bytes ↪ List ℕ := ⟨List.map UInt8.toNat, numbers_injective⟩

/-- The place of an object among the objects of a map. -/
def placeOf (object : Bytes × SponsorRecord) : List ℕ := keyRank object.1

/-- `getMany`: up to a limit, the objects behind a key, in the order of their keys. -/
def getMany (sponsors : Store Bytes SponsorRecord) (start : Bytes) (limit : ℕ) :
    List (Bytes × SponsorRecord) :=
  Rows.page placeOf (sponsors.rows keyRank) (keyRank start) limit

/-- The number of records a page may hold: 0 is the largest page, and nothing is beyond it. -/
def pageLimit (limit : ℕ) : ℕ :=
  if limit = 0 ∨ MAX_LIST_LIMIT < limit then MAX_LIST_LIMIT else limit

def listSponsors (state : State) (args : ListSponsorsArguments) : List SponsorRecord :=
  (getMany state.sponsors args.start (pageLimit args.limit)).map Prod.snd

end OpenSocial.Sponsorship

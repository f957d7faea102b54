/-
This file states once what an accepted sponsorship call can do, one case for each
method, and what the checks of a sponsor record come to.
-/

import OpenSocial.Sponsorship.Contract

namespace OpenSocial.Sponsorship

open Library

/-! ### Policies -/

/-- What is required of a record's endpoint, policy text and limits. -/
structure Publishable (record : SponsorRecord) : Prop where
  endpointBound : Util.stringLength record.endpoint ≤ MAX_ENDPOINT_LENGTH
  secure : Util.stringLength record.endpoint = 0 ∨ isSecure record.endpoint.toList = true
  policyUriBound : Util.stringLength record.policyUri ≤ MAX_POLICY_URI_LENGTH
  allowedBound : record.allowed.length ≤ MAX_ALLOWED_CALLS
  entryPointsBound : ∀ call ∈ record.allowed, call.entryPoints.length ≤ MAX_ENTRY_POINTS_PER_CALL
  bytesBound : record.maxBytesPerOp ≤ MAX_BYTES_PER_OP

def AllowedCall.toArguments (call : AllowedCall) : AllowedCallArguments :=
  ⟨call.contractId.val, call.entryPoints⟩

/-- The arguments a record is written with. -/
def SponsorRecord.toArguments (record : SponsorRecord) : SetSponsorArguments :=
  ⟨record.sponsor.val, record.endpoint, record.policyUri, record.policyVersion,
    record.allowed.map AllowedCall.toArguments, record.maxRcPerOp, record.maxOpsPerUserPerDay,
    record.maxBytesPerOp, record.active⟩

/-- What an accepted call of each method does. -/
inductive Effect (env : Env) (state : State) : Operation → State → List Event → Prop where
  | sponsorSet (record : SponsorRecord) (authorized : env.authority record.sponsor.val = true)
      (publishable : Publishable record)
      (registered : record.registeredAt =
        (state.sponsors.get record.sponsor.val).elim env.now SponsorRecord.registeredAt)
      (updated : record.updatedAt = env.now) :
      Effect env state (.setSponsor record.toArguments) (state.putSponsor record.sponsor record)
        [.sponsorSet record.sponsor record.endpoint record.policyVersion record.active env.now]
  | sponsorDeactivated (sponsor : Address) (record : SponsorRecord)
      (authorized : env.authority sponsor.val = true)
      (stored : state.sponsors.get sponsor.val = some record) :
      Effect env state (.deactivateSponsor ⟨sponsor.val⟩)
        (state.putSponsor sponsor { record with active := false, updatedAt := env.now })
        [.sponsorDeactivated sponsor env.now]
  | userGrantSet (grant : UserGrant) (record : SponsorRecord)
      (authorized : env.authority grant.sponsor.val = true)
      (different : grant.sponsor ≠ grant.user) (daily : 1 ≤ grant.dailyOps)
      (open_ : grant.expiresAt = 0 ∨ env.now < grant.expiresAt) (standing : grant.revoked = false)
      (updated : grant.updatedAt = env.now)
      (stored : state.sponsors.get grant.sponsor.val = some record)
      (active : record.active = true) :
      Effect env state
        (.setUserGrant ⟨grant.sponsor.val, grant.user.val, grant.dailyOps, grant.expiresAt⟩)
        (state.putGrant grant.sponsor grant.user grant)
        [.userGrantSet grant.sponsor grant.user grant.dailyOps grant.expiresAt env.now]
  | userGrantRevoked (sponsor user : Address) (grant : UserGrant)
      (authorized : env.authority sponsor.val = true)
      (stored : state.grants.get (grantKey sponsor.val user.val) = some grant) :
      Effect env state (.revokeUserGrant ⟨sponsor.val, user.val⟩)
        (state.putGrant sponsor user { grant with revoked := true, updatedAt := env.now })
        [.userGrantRevoked sponsor user env.now]

/-! ### Inverting the checks -/

theorem validateEndpoint_eq_ok {value endpoint : String}
    (answer : validateEndpoint value = .ok endpoint) :
    value = endpoint ∧ Util.stringLength endpoint ≤ MAX_ENDPOINT_LENGTH ∧
      (Util.stringLength endpoint = 0 ∨ isSecure endpoint.toList = true) := by
  unfold validateEndpoint at answer
  rw [bind_eq_ok] at answer
  obtain ⟨text, checked, answer⟩ := answer
  obtain ⟨rfl, bounded⟩ := (Util.requireString_eq_ok _ _ _ _).mp checked
  split at answer
  · next empty =>
    rw [pure_eq_ok] at answer
    rw [← answer]
    exact ⟨rfl, bounded, .inl empty⟩
  · simp only [bind_eq_ok, require_eq_ok, pure_eq_ok, exists_const] at answer
    obtain ⟨secure, rfl⟩ := answer
    exact ⟨rfl, bounded, .inr secure⟩

theorem validateCall_eq_ok {value : AllowedCallArguments} {call : AllowedCall}
    (answer : validateCall value = .ok call) :
    value = call.toArguments ∧ call.entryPoints.length ≤ MAX_ENTRY_POINTS_PER_CALL := by
  obtain ⟨contractId, entryPoints⟩ := value
  simp only [validateCall, bind_eq_ok, require_eq_ok, pure_eq_ok, Util.requireAddress_eq_ok,
    exists_const, decide_eq_true_eq] at answer
  obtain ⟨address, rfl, bounded, rfl⟩ := answer
  exact ⟨rfl, bounded⟩

/-- A list of checked calls is the list that was given. -/
theorem mapM_validateCall_eq_ok {values : List AllowedCallArguments} {calls : List AllowedCall}
    (answer : values.mapM validateCall = .ok calls) :
    values = calls.map AllowedCall.toArguments ∧
      ∀ call ∈ calls, call.entryPoints.length ≤ MAX_ENTRY_POINTS_PER_CALL := by
  induction values generalizing calls with
  | nil =>
    rw [List.mapM_nil, pure_eq_ok] at answer
    rw [← answer]
    exact ⟨rfl, fun call absent => absurd absent List.not_mem_nil⟩
  | cons value values inductionHypothesis =>
    simp only [List.mapM_cons, bind_eq_ok, pure_eq_ok] at answer
    obtain ⟨call, checked, rest, others, rfl⟩ := answer
    obtain ⟨rfl, bounded⟩ := validateCall_eq_ok checked
    obtain ⟨rfl, bounds⟩ := inductionHypothesis others
    exact ⟨rfl, List.forall_mem_cons.mpr ⟨bounded, bounds⟩⟩

theorem validateAllowed_eq_ok {values : List AllowedCallArguments} {calls : List AllowedCall}
    (answer : validateAllowed values = .ok calls) :
    values = calls.map AllowedCall.toArguments ∧ calls.length ≤ MAX_ALLOWED_CALLS ∧
      ∀ call ∈ calls, call.entryPoints.length ≤ MAX_ENTRY_POINTS_PER_CALL := by
  simp only [validateAllowed, bind_eq_ok, require_eq_ok, exists_const, decide_eq_true_eq] at answer
  obtain ⟨few, checked⟩ := answer
  obtain ⟨rfl, bounds⟩ := mapM_validateCall_eq_ok checked
  rw [List.length_map] at few
  exact ⟨rfl, few, bounds⟩

/-- Every accepted call has the effect of its method. -/
theorem effect_of_accepted {env : Env} {operation : Operation} {state after : State}
    {events : List Event} (answer : execute state ⟨env, operation⟩ = .ok (after, events)) :
    Effect env state operation after events := by
  cases operation with
  | setSponsor args =>
    obtain ⟨sponsor, endpoint, policyUri, policyVersion, allowed, maxRcPerOp, maxOpsPerUserPerDay,
      maxBytesPerOp, active⟩ := args
    simp only [execute, setSponsor, requireSponsorAuthority, bind_eq_ok, pure_eq_ok, require_eq_ok,
      requireAuthority_eq_ok, Util.requireAddress_eq_ok, Util.requireString_eq_ok, exists_const,
      Prod.mk.injEq, decide_eq_true_eq] at answer
    obtain ⟨sponsor, rfl, authorized, endpoint, checked, policyUri, ⟨rfl, policyUriBound⟩, calls,
      listed, bytesBound, rfl, rfl⟩ := answer
    obtain ⟨rfl, endpointBound, secure⟩ := validateEndpoint_eq_ok checked
    obtain ⟨rfl, allowedBound, entryPointsBound⟩ := validateAllowed_eq_ok listed
    exact .sponsorSet ⟨sponsor, _, _, policyVersion, calls, maxRcPerOp, maxOpsPerUserPerDay,
      maxBytesPerOp, active, _, env.now⟩ authorized
      ⟨endpointBound, secure, policyUriBound, allowedBound, entryPointsBound, bytesBound⟩ rfl rfl
  | deactivateSponsor args =>
    obtain ⟨sponsor⟩ := args
    simp only [execute, deactivateSponsor, requireSponsorAuthority, requireSponsorRecord,
      bind_eq_ok, pure_eq_ok, requireAuthority_eq_ok, requireSome_eq_ok, Util.requireAddress_eq_ok,
      exists_const, Prod.mk.injEq] at answer
    obtain ⟨sponsor, rfl, authorized, record, stored, rfl, rfl⟩ := answer
    exact .sponsorDeactivated sponsor record authorized stored
  | setUserGrant args =>
    obtain ⟨sponsor, user, dailyOps, expiresAt⟩ := args
    simp only [execute, setUserGrant, requireSponsorAuthority, requireSponsorRecord, bind_eq_ok,
      pure_eq_ok, require_eq_ok, requireAuthority_eq_ok, requireSome_eq_ok,
      Util.requireAddress_eq_ok, exists_const, Prod.mk.injEq, bne_iff_ne, decide_eq_true_eq]
      at answer
    obtain ⟨sponsor, rfl, user, rfl, different, authorized, daily, open_, record, stored, active,
      rfl, rfl⟩ := answer
    exact .userGrantSet ⟨sponsor, user, dailyOps, expiresAt, false, env.now⟩ record authorized
      different daily open_ rfl rfl stored active
  | revokeUserGrant args =>
    obtain ⟨sponsor, user⟩ := args
    simp only [execute, revokeUserGrant, requireSponsorAuthority, bind_eq_ok, pure_eq_ok,
      requireAuthority_eq_ok, requireSome_eq_ok, Util.requireAddress_eq_ok, exists_const,
      Prod.mk.injEq] at answer
    obtain ⟨sponsor, rfl, user, rfl, authorized, grant, stored, rfl, rfl⟩ := answer
    exact .userGrantRevoked sponsor user grant authorized stored

/-- The effect of an entry of a history. -/
theorem effect_of_entry (entry : machine.Accepted) :
    Effect entry.call.env entry.before entry.call.operation entry.after entry.output :=
  effect_of_accepted entry.accepted

end OpenSocial.Sponsorship

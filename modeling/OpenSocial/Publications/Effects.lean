/-
This file states once what an accepted publications call can do, one case for
each way a method can succeed. Publishing has two: a first version and an edit.
-/

import OpenSocial.Publications.Contract

namespace OpenSocial.Publications

open Library Library.Word

/-! ### Pure effects -/

/-- The state after a key was bound to a post; an empty key binds nothing. -/
def bindKey (state : State) (author : Address) (key postId : Bytes) : State :=
  if key = [] then state
  else { state with idempotency := state.idempotency.put (idempotencyKeyOf author.val key) postId }

/-- The author's state after one more post. -/
def countedAuthor (state : State) (author : Address) (now : ℕ) : AuthorState where
  nextSequence := wrapAdd 64 (loadAuthor state author.val).nextSequence 1
  lastPublishAt := now
  postCount := wrapAdd 64 (loadAuthor state author.val).postCount 1

/-- The stored record after an edit. -/
def editedRecord (existing : PostRecord) (contentHash : Bytes) (now : ℕ) : PostRecord :=
  { existing with
    versionCount := wrapAdd 32 existing.versionCount 1
    latestVersion := contentHash
    updatedAt := now }

/-- What every version must satisfy: an envelope that is absent or hashes to the content, and an
audience id exactly for a custom audience. -/
structure WellFormed (host : Host) (args : PublishArguments) (audience : AudienceKind) : Prop where
  idLength : args.postId.length = HASH_LENGTH
  hashLength : args.contentHash.length = HASH_LENGTH
  enveloped : args.envelope = [] ∨ sha256 host args.envelope = .ok args.contentHash
  bounded : args.envelope.length ≤ MAX_ENVELOPE_BYTES
  decoded : AudienceKind.ofWire args.audience = some audience
  audienceNamed : audience = .custom ↔ args.audienceId ≠ []
  mediaValid : validateMedia args.media = .ok ()
  replyShape : args.replyTo = [] ∨ args.replyTo.length = HASH_LENGTH

/-! ### Effects -/

/-- What an accepted call of each method does. -/
inductive Effect (host : Host) (env : Env) (state : State) :
    Operation → State → List Event → Prop where
  | tokenContractSet (address : Address) (authorized : env.authority host.contractId = true) :
      Effect host env state (.setTokenContract ⟨address.val⟩)
        { state with usage := some address } []
  | identityContractSet (address : Address) (authorized : env.authority host.contractId = true) :
      Effect host env state (.setIdentityContract ⟨address.val⟩)
        { state with identity := some address } []
  | relationshipsContractSet (address : Address)
      (authorized : env.authority host.contractId = true) :
      Effect host env state (.setRelationshipsContract ⟨address.val⟩)
        { state with relationships := some address } []
  | firstPublished (author : Address) (args : PublishArguments) (audience : AudienceKind)
      (signer : Bytes) (signed : args.author = author.val) (first : args.previousVersion = [])
      (wellFormed : WellFormed host args audience)
      (authorized : Actor.requireAuthorized env (identityContract state) author.val args.device
        (if args.replyTo = [] then Capability.PUBLISH else Capability.COMMENT) = .ok signer)
      (fresh : state.posts.get args.postId = none)
      (sequenced : args.sequence = (loadAuthor state author.val).nextSequence)
      (computed :
        computePostId host author.val args.sequence args.contentHash = .ok args.postId)
      (target : requireReplyTarget env author args.replyTo state = .ok ())
      (unbound : args.idempotencyKey = [] ∨
        state.idempotency.get (idempotencyKeyOf author.val args.idempotencyKey) = none)
      (charged : consume env state author = .ok ()) :
      Effect host env state (.publish args)
        (((bindKey state author args.idempotencyKey args.postId).putPost args.postId
          ⟨author, args.sequence, 1, args.contentHash, .active, args.replyTo, audience, env.now,
            env.now⟩).putAuthor author (countedAuthor state author env.now))
        [.published author args.postId args.contentHash [] 1 args.sequence audience args.audienceId
          args.epoch args.envelope args.media args.replyTo args.idempotencyKey PROTOCOL_VERSION
          env.now]
  | edited (author : Address) (args : PublishArguments) (existing : PostRecord) (signer : Bytes)
      (signed : args.author = author.val) (later : args.previousVersion ≠ [])
      (wellFormed : WellFormed host args existing.audience)
      (authorized : Actor.requireAuthorized env (identityContract state) author.val args.device
        (if existing.replyTo = [] then Capability.PUBLISH else Capability.COMMENT) = .ok signer)
      (known : state.posts.get args.postId = some existing) (own : existing.author = author)
      (alive : existing.state ≠ .deleted) (current : args.previousVersion = existing.latestVersion)
      (thread : args.replyTo = [] ∨ args.replyTo = existing.replyTo)
      (unbound : args.idempotencyKey = [] ∨
        state.idempotency.get (idempotencyKeyOf author.val args.idempotencyKey) = none)
      (charged : consume env state author = .ok ()) :
      Effect host env state (.publish args)
        ((bindKey state author args.idempotencyKey args.postId).putPost args.postId
          (editedRecord existing args.contentHash env.now))
        [.published author args.postId args.contentHash args.previousVersion
          (wrapAdd 32 existing.versionCount 1) existing.sequence existing.audience args.audienceId
          args.epoch args.envelope args.media existing.replyTo args.idempotencyKey PROTOCOL_VERSION
          env.now]
  | lifecycleSet (author : Address) (postId : Bytes) (wire : ℤ) (target : LifecycleState)
      (reason : String) (replacementId device : Bytes) (record : PostRecord) (signer : Bytes)
      (idLength : postId.length = HASH_LENGTH)
      (decoded : LifecycleState.ofWire wire = some target)
      (replaced : requireReplacement target replacementId postId = .ok replacementId)
      (authorized : Actor.requireAuthorized env (identityContract state) author.val device
        Capability.PUBLISH = .ok signer)
      (known : state.posts.get postId = some record) (own : record.author = author)
      (alive : record.state ≠ .deleted) :
      Effect host env state
        (.setLifecycle
          ⟨author.val, postId, record.latestVersion, wire, reason, replacementId, device⟩)
        (state.putPost postId { record with state := target, updatedAt := env.now })
        [.lifecycle author postId record.latestVersion target reason replacementId env.now]
  | reacted (actor : Address) (postId : Bytes) (reaction : ℕ) (remove : Bool) (device : Bytes)
      (record : PostRecord) (signer : Bytes) (idLength : postId.length = HASH_LENGTH)
      (named : reaction ≠ 0)
      (authorized : Actor.requireAuthorized env (identityContract state) actor.val device
        Capability.REACT = .ok signer)
      (known : state.posts.get postId = some record) (alive : record.state ≠ .deleted)
      (charged : chargeReaction env state actor remove = .ok ()) :
      Effect host env state (.react ⟨actor.val, postId, reaction, remove, device⟩) state
        [.reaction actor postId record.author reaction remove env.now]
  | keysDistributed (author : Address) (audienceId : Bytes) (epoch : ℕ) (packages device : Bytes)
      (signer : Bytes) (present : packages ≠ []) (bounded : packages.length ≤ MAX_KEY_PACKAGE_BYTES)
      (authorized : Actor.requireAuthorized env (identityContract state) author.val device
        Capability.PUBLISH = .ok signer) :
      Effect host env state (.distributeKeys ⟨author.val, audienceId, epoch, packages, device⟩)
        state [.keysDistributed author audienceId epoch packages env.now]
  | crossPostRecorded (author : Address) (idempotencyKey : Bytes) (adapter : String) (wire : ℤ)
      (outcome : OutcomeState) (externalRef : String) (postId manifestHash device signer : Bytes)
      (decoded : OutcomeState.ofWire wire = some outcome)
      (authorized : Actor.requireAuthorized env (identityContract state) author.val device
        Capability.PUBLISH = .ok signer)
      (owned : requireOutcomePost state author postId
        ((state.idempotency.get (idempotencyKeyOf author.val idempotencyKey)).filter
          fun boundPostId => boundPostId != []) = .ok ())
      (succeeded : outcome = .succeeded → postId ≠ [] ∧
        ((state.idempotency.get (idempotencyKeyOf author.val idempotencyKey)).filter
          fun boundPostId => boundPostId != []).isSome = true) :
      Effect host env state
        (.recordCrossPost
          ⟨author.val, idempotencyKey, adapter, wire, externalRef, postId, manifestHash, device⟩)
        state
        [.crossPostOutcome author idempotencyKey adapter outcome externalRef postId manifestHash
          env.now]

/-! ### Inverting the methods -/

@[simp] theorem requireHash_eq_ok (value : Bytes) (what : String) (result : Bytes) :
    requireHash value what = .ok result ↔ value = result ∧ result.length = HASH_LENGTH := by
  simp only [requireHash, bind_eq_ok, require_eq_ok, pure_eq_ok, exists_const, bne_iff_ne,
    beq_iff_eq]
  constructor
  · rintro ⟨_, length, rfl⟩
    exact ⟨rfl, length⟩
  · rintro ⟨rfl, length⟩
    refine ⟨fun empty => ?_, length, rfl⟩
    rw [empty] at length
    exact absurd length (by decide)

@[simp] theorem optionalReference_eq_ok (value : Bytes) (what : String) (result : Bytes) :
    optionalReference value what = .ok result ↔
      value = result ∧ (result = [] ∨ result.length = HASH_LENGTH) := by
  unfold optionalReference
  split
  · next empty =>
    rw [pure_eq_ok, empty]
    constructor
    · rintro rfl
      exact ⟨rfl, .inl rfl⟩
    · exact fun same => same.1
  · next present =>
    rw [requireHash_eq_ok]
    constructor
    · rintro ⟨rfl, length⟩
      exact ⟨rfl, .inr length⟩
    · rintro ⟨rfl, shape⟩
      exact ⟨rfl, shape.resolve_left present⟩

@[simp] theorem optionalBytes_eq_ok (value : Bytes) (max : ℕ) (what : String) (result : Bytes) :
    optionalBytes value max what = .ok result ↔
      value = result ∧ (result = [] ∨ result.length ≤ max) := by
  simp only [optionalBytes, bind_eq_ok, require_eq_ok, pure_eq_ok, exists_const, Bool.or_eq_true,
    beq_iff_eq, decide_eq_true_eq]
  constructor
  · rintro ⟨shape, rfl⟩
    exact ⟨rfl, shape⟩
  · rintro ⟨rfl, shape⟩
    exact ⟨shape, rfl⟩

theorem requireEnvelope_eq_ok {host : Host} {envelope contentHash : Bytes} {result : Unit}
    (answer : requireEnvelope host envelope contentHash = .ok result) :
    (envelope = [] ∨ sha256 host envelope = .ok contentHash) ∧
      envelope.length ≤ MAX_ENVELOPE_BYTES := by
  unfold requireEnvelope at answer
  split at answer
  · next empty =>
    rw [empty]
    exact ⟨.inl rfl, Nat.zero_le _⟩
  · simp only [bind_eq_ok, require_eq_ok, exists_const, decide_eq_true_eq, beq_iff_eq] at answer
    obtain ⟨bounded, digest, digest_eq, rfl⟩ := answer
    exact ⟨.inr digest_eq, bounded⟩

theorem requireAudienceId_eq_ok {audience : AudienceKind} {value result : Bytes}
    (answer : requireAudienceId audience value = .ok result) :
    value = result ∧ (audience = .custom ↔ result ≠ []) := by
  simp only [requireAudienceId, requireAudienceShape, bind_eq_ok, pure_eq_ok,
    optionalBytes_eq_ok] at answer
  obtain ⟨_, ⟨rfl, _⟩, _, shape, rfl⟩ := answer
  refine ⟨rfl, ?_⟩
  split at shape
  · next custom =>
    rw [require_eq_ok, bne_iff_ne] at shape
    exact ⟨fun _ => shape, fun _ => custom⟩
  · next other =>
    rw [require_eq_ok, beq_iff_eq] at shape
    exact ⟨fun custom => absurd custom other, fun named => absurd shape named⟩

theorem reserveIdempotencyKey_eq_ok {author : Address} {key postId : Bytes} {state after : State}
    (answer : reserveIdempotencyKey author key postId state = .ok after) :
    (key = [] ∨ state.idempotency.get (idempotencyKeyOf author.val key) = none) ∧
      after = bindKey state author key postId := by
  unfold reserveIdempotencyKey at answer
  unfold bindKey
  split at answer
  · next empty =>
    rw [pure_eq_ok] at answer
    rw [if_pos empty]
    exact ⟨.inl empty, answer.symm⟩
  · next present =>
    simp only [bind_eq_ok, require_eq_ok, pure_eq_ok, exists_const, Bool.not_eq_eq_eq_not,
      Bool.not_true, Store.has_eq_false] at answer
    rw [if_neg present]
    exact ⟨.inr answer.1, answer.2.symm⟩

theorem bindKey_usage (state : State) (author : Address) (key postId : Bytes) :
    (bindKey state author key postId).usage = state.usage := by
  unfold bindKey
  split <;> rfl

theorem bindKey_posts (state : State) (author : Address) (key postId : Bytes) :
    (bindKey state author key postId).posts = state.posts := by
  unfold bindKey
  split <;> rfl

/-- Charging reads only which token contract is configured. -/
theorem consume_congr {env : Env} {state other : State} {account : Address}
    (same : other.usage = state.usage) : consume env other account = consume env state account := by
  unfold consume
  rw [same]

theorem firstVersion_eq_ok {host : Host} {env : Env} {author : Address}
    {postId contentHash replyTo idempotencyKey : Bytes} {sequence : ℕ} {audience : AudienceKind}
    {state after : State} {record : PostRecord}
    (answer : firstVersion host env author postId contentHash sequence audience replyTo
      idempotencyKey state = .ok (after, record)) :
    state.posts.get postId = none ∧ sequence = (loadAuthor state author.val).nextSequence ∧
      computePostId host author.val sequence contentHash = .ok postId ∧
      requireReplyTarget env author replyTo state = .ok () ∧
      (idempotencyKey = [] ∨
        state.idempotency.get (idempotencyKeyOf author.val idempotencyKey) = none) ∧
      record = ⟨author, sequence, 1, contentHash, .active, replyTo, audience, env.now, env.now⟩ ∧
      after = ((bindKey state author idempotencyKey postId).putPost postId record).putAuthor author
        (countedAuthor state author env.now) := by
  simp only [firstVersion, bind_eq_ok, require_eq_ok, pure_eq_ok, exists_const, Prod.mk.injEq,
    beq_iff_eq, Bool.not_eq_eq_eq_not, Bool.not_true, Store.has_eq_false] at answer
  obtain ⟨fresh, sequenced, _, computed, rfl, _, target, reserved, reservation, rfl, rfl⟩ := answer
  obtain ⟨unbound, rfl⟩ := reserveIdempotencyKey_eq_ok reservation
  exact ⟨fresh, sequenced, computed, target, unbound, rfl, rfl⟩

theorem nextVersion_eq_ok {env : Env} {author : Address}
    {postId contentHash previousVersion requestedReplyTo idempotencyKey : Bytes}
    {audience : AudienceKind} {state after : State} {record : PostRecord}
    (answer : nextVersion env author postId contentHash previousVersion audience requestedReplyTo
      idempotencyKey state = .ok (after, record)) :
    ∃ existing, state.posts.get postId = some existing ∧ existing.author = author ∧
      existing.state ≠ .deleted ∧ previousVersion = existing.latestVersion ∧
      audience = existing.audience ∧
      (requestedReplyTo = [] ∨ requestedReplyTo = existing.replyTo) ∧
      (idempotencyKey = [] ∨
        state.idempotency.get (idempotencyKeyOf author.val idempotencyKey) = none) ∧
      record = editedRecord existing contentHash env.now ∧
      after = (bindKey state author idempotencyKey postId).putPost postId record := by
  simp only [nextVersion, bind_eq_ok, require_eq_ok, requireSome_eq_ok, pure_eq_ok, exists_const,
    Prod.mk.injEq, beq_iff_eq, bne_iff_ne, Bool.or_eq_true, Bool.and_eq_true] at answer
  obtain ⟨existing, known, own, alive, current, sameAudience, thread, reserved, reservation, rfl,
    rfl⟩ := answer
  obtain ⟨unbound, rfl⟩ := reserveIdempotencyKey_eq_ok reservation
  exact ⟨existing, known, own, alive, current, sameAudience,
    thread.imp id fun both => both.2, unbound, rfl, rfl⟩

/-- An accepted publish is a first version or an edit. -/
theorem effect_of_publish {host : Host} {env : Env} {args : PublishArguments}
    {state after : State} {events : List Event}
    (answer : publish host env args state = .ok (after, events)) :
    Effect host env state (.publish args) after events := by
  simp only [publish, bind_eq_ok, requireSome_eq_ok, pure_eq_ok, requireHash_eq_ok,
    optionalBytes_eq_ok, optionalReference_eq_ok, Util.requireAddress_eq_ok, Prod.exists,
    Prod.mk.injEq] at answer
  obtain ⟨author, signed, postId, ⟨rfl, idLength⟩, contentHash, ⟨rfl, hashLength⟩, _, enveloped,
    audience, decoded, audienceId, shaped, _, media, idempotencyKey, ⟨rfl, _⟩, replyTo,
    ⟨rfl, replyShape⟩, capability, required, signer, authorized, written, record, version, _,
    charged, rfl, rfl⟩ := answer
  obtain ⟨enveloped, bounded⟩ := requireEnvelope_eq_ok enveloped
  obtain ⟨rfl, shaped⟩ := requireAudienceId_eq_ok shaped
  unfold writeVersion at version
  unfold requiredCapability at required
  by_cases first : args.previousVersion = []
  · rw [if_pos first] at version required
    rw [pure_eq_ok] at required
    subst required
    obtain ⟨fresh, sequenced, computed, target, unbound, rfl, rfl⟩ := firstVersion_eq_ok version
    have charged : consume env state author = .ok () :=
      (consume_congr (bindKey_usage state author args.idempotencyKey args.postId)).symm.trans
        charged
    rw [first]
    exact .firstPublished author args audience signer signed first
      ⟨idLength, hashLength, enveloped, bounded, decoded, shaped, media, replyShape⟩ authorized
      fresh sequenced computed target unbound charged
  · rw [if_neg first] at version required
    simp only [bind_eq_ok, requireSome_eq_ok, pure_eq_ok] at required
    obtain ⟨stored, stored_eq, rfl⟩ := required
    obtain ⟨existing, known, own, alive, current, rfl, thread, unbound, rfl, rfl⟩ :=
      nextVersion_eq_ok version
    have same : existing = stored := Option.some.inj (known.symm.trans stored_eq)
    subst same
    have charged : consume env state author = .ok () :=
      (consume_congr (bindKey_usage state author args.idempotencyKey args.postId)).symm.trans
        charged
    exact .edited author args existing signer signed first
      ⟨idLength, hashLength, enveloped, bounded, decoded, shaped, media, replyShape⟩ authorized
      known own alive current thread unbound charged

theorem requireReplacement_eq_ok {target : LifecycleState} {replacementId postId result : Bytes}
    (answer : requireReplacement target replacementId postId = .ok result) :
    replacementId = result := by
  unfold requireReplacement at answer
  split at answer
  · simp only [bind_eq_ok, require_eq_ok, pure_eq_ok, requireHash_eq_ok, exists_const] at answer
    obtain ⟨_, ⟨rfl, _⟩, _, rfl⟩ := answer
    rfl
  · simp only [bind_eq_ok, require_eq_ok, pure_eq_ok, exists_const, beq_iff_eq] at answer
    rw [answer.1, answer.2]

/-- Every accepted call has the effect of its method. -/
theorem effect_of_accepted {host : Host} {env : Env} {operation : Operation} {state after : State}
    {events : List Event} (answer : execute host state ⟨env, operation⟩ = .ok (after, events)) :
    Effect host env state operation after events := by
  cases operation with
  | setTokenContract args =>
    obtain ⟨address⟩ := args
    simp only [execute, setTokenContract, bind_eq_ok, pure_eq_ok, requireAuthority_eq_ok,
      Util.requireAddress_eq_ok, exists_const, Prod.mk.injEq] at answer
    obtain ⟨authorized, address, rfl, rfl, rfl⟩ := answer
    exact .tokenContractSet address authorized
  | setIdentityContract args =>
    obtain ⟨address⟩ := args
    simp only [execute, setIdentityContract, bind_eq_ok, pure_eq_ok, requireAuthority_eq_ok,
      Util.requireAddress_eq_ok, exists_const, Prod.mk.injEq] at answer
    obtain ⟨authorized, address, rfl, rfl, rfl⟩ := answer
    exact .identityContractSet address authorized
  | setRelationshipsContract args =>
    obtain ⟨address⟩ := args
    simp only [execute, setRelationshipsContract, bind_eq_ok, pure_eq_ok, requireAuthority_eq_ok,
      Util.requireAddress_eq_ok, exists_const, Prod.mk.injEq] at answer
    obtain ⟨authorized, address, rfl, rfl, rfl⟩ := answer
    exact .relationshipsContractSet address authorized
  | publish args => exact effect_of_publish answer
  | setLifecycle args =>
    obtain ⟨author, postId, version, wire, reason, replacementId, device⟩ := args
    simp only [execute, setLifecycle, bind_eq_ok, require_eq_ok, requireSome_eq_ok, pure_eq_ok,
      requireHash_eq_ok, Util.requireAddress_eq_ok, Util.requireString_eq_ok, exists_const,
      Prod.mk.injEq, beq_iff_eq, bne_iff_ne] at answer
    obtain ⟨author, rfl, postId, ⟨rfl, idLength⟩, version, ⟨rfl, _⟩, target, decoded, reason,
      ⟨rfl, _⟩, replaced, replacement, signer, authorized, record, known, own, rfl, alive, rfl,
      rfl⟩ := answer
    have same := requireReplacement_eq_ok replacement
    subst same
    exact .lifecycleSet author postId wire target reason replacementId device record signer
      idLength decoded replacement authorized known own alive
  | react args =>
    obtain ⟨actor, postId, reaction, remove, device⟩ := args
    simp only [execute, react, bind_eq_ok, require_eq_ok, requireSome_eq_ok, pure_eq_ok,
      requireHash_eq_ok, Util.requireAddress_eq_ok, exists_const, Prod.mk.injEq, bne_iff_ne]
      at answer
    obtain ⟨actor, rfl, postId, ⟨rfl, idLength⟩, named, signer, authorized, record, known, alive,
      _, charged, rfl, rfl⟩ := answer
    exact .reacted actor postId reaction remove device record signer idLength named authorized known
      alive charged
  | distributeKeys args =>
    obtain ⟨author, audienceId, epoch, packages, device⟩ := args
    simp only [execute, distributeKeys, bind_eq_ok, pure_eq_ok, optionalBytes_eq_ok,
      Util.requireAddress_eq_ok, Util.requireBytes_eq_ok, Prod.mk.injEq] at answer
    obtain ⟨author, rfl, packages, ⟨rfl, present, bounded⟩, audienceId, ⟨rfl, _⟩, signer, authorized,
      rfl, rfl⟩ := answer
    exact .keysDistributed author audienceId epoch packages device signer present bounded authorized
  | recordCrossPost args =>
    obtain ⟨author, idempotencyKey, adapter, wire, externalRef, postId, manifestHash, device⟩ := args
    simp only [execute, recordCrossPost, optionalHash, bind_eq_ok, require_eq_ok, requireSome_eq_ok,
      pure_eq_ok, optionalReference_eq_ok, Util.optionalExact_eq_ok, Util.requireAddress_eq_ok,
      Util.requireBytes_eq_ok, Util.requireString_eq_ok, exists_const, Prod.mk.injEq,
      Bool.or_eq_true, bne_iff_ne] at answer
    obtain ⟨author, rfl, idempotencyKey, ⟨rfl, _, _⟩, _, adapter, ⟨rfl, _⟩, externalRef, ⟨rfl, _⟩,
      manifestHash, ⟨rfl, _⟩, outcome, decoded, postId, ⟨rfl, _⟩, named, signer, authorized, _,
      owned, bound, rfl, rfl⟩ := answer
    exact .crossPostRecorded author idempotencyKey adapter wire outcome externalRef postId
      manifestHash device signer decoded authorized owned fun succeeded =>
        ⟨named.resolve_left fun other => other succeeded,
          bound.resolve_left fun other => other succeeded⟩

/-- The effect of an entry of a history. -/
theorem effect_of_entry {host : Host} (entry : (machine host).Accepted) :
    Effect host entry.call.env entry.before entry.call.operation entry.after entry.output :=
  effect_of_accepted entry.accepted

end OpenSocial.Publications

/-
This file models the size rules of drafts and proves that they agree with the
encoder. The length of an envelope depends on the length of its ciphertext only, the
cipher adds a tag to the content, and the length of the content does not depend on
when a draft is confirmed, because a time of those years takes six bytes.
-/

import OpenSocial.Sdk.Documents

namespace OpenSocial.Extension

open Sdk Encoding Library.Wire

def MAX_ENVELOPE_BYTES : ℕ := LIMITS.maxEnvelopeBytes

/-- The tag of a ciphertext, and a content key with one. -/
def TAG_BYTES : ℕ := 16
def WRAPPED_KEY_BYTES : ℕ := LIMITS.keyBytes + TAG_BYTES

def CREATED_AT_PLACEHOLDER : UInt64 := 4398046511103

/-- The content document a draft publishes. -/
def draftContent (text : String) (externalRef : Option String) (createdAt : UInt64) : Content where
  version := 1
  text := text
  mime := "text/plain"
  media := []
  lang := ""
  created_at := createdAt
  external_ref := externalRef.getD ""

def filled (length : ℕ) : Bytes := List.replicate length 1

structure DraftSize where
  bytes : ℕ
  limit : ℕ
  ok : Bool
  deriving DecidableEq, Repr

section Drafts

variable (libraries : Libraries)

/-- `encodeContent` of the SDK, which validates the media limits first. -/
def encodeContent (content : Content) : Except SdkError Bytes := do
  validateContent content
  .ok (libraries.encodeContent content)

/-- The size of the suite-1 envelope the draft would produce. -/
def draftEnvelopeBytes (text : String) (externalRef : Option String) : Except SdkError ℕ := do
  let plaintext ← encodeContent libraries (draftContent text externalRef CREATED_AT_PLACEHOLDER)
  .ok (libraries.encodeEnvelope
    { version := ENVELOPE_VERSION
      suite := SUITE.XCHACHA20POLY1305_X25519
      payload := filled (plaintext.length + TAG_BYTES)
      nonce := filled LIMITS.nonceBytes
      wrapped_content_key := filled WRAPPED_KEY_BYTES
      wrap_nonce := filled LIMITS.nonceBytes }).length

def measureDraft (text : String) (externalRef : Option String) : Except SdkError DraftSize := do
  let bytes ← draftEnvelopeBytes libraries text externalRef
  .ok { bytes := bytes, limit := MAX_ENVELOPE_BYTES, ok := bytes ≤ MAX_ENVELOPE_BYTES }

end Drafts

/-! ### Lengths of envelopes -/

theorem isZero_bytes (data : Bytes) : isZero .bytes data = data.isEmpty := rfl

/-- What is written of bytes is as long as what is written of any others of their length. -/
theorem length_fieldBytes_bytes (field : Field) {first second : Bytes}
    (same : first.length = second.length) :
    (fieldBytes Protobuf.standard field (some ⟨.bytes, first⟩)).length =
      (fieldBytes Protobuf.standard field (some ⟨.bytes, second⟩)).length := by
  unfold fieldBytes
  dsimp only
  rw [isZero_bytes, isZero_bytes]
  have alike : first.isEmpty = second.isEmpty := by
    rw [Bool.eq_iff_iff, List.isEmpty_iff_length_eq_zero, List.isEmpty_iff_length_eq_zero, same]
  rw [alike]
  split
  · rfl
  · rw [List.length_append, List.length_append]
    refine congrArg _ ?_
    show (varint first.length first.length ++ first).length =
      (varint second.length second.length ++ second).length
    rw [List.length_append, List.length_append, same]

/-- What is written of more bytes is not shorter. -/
theorem length_fieldBytes_mono (field : Field) {first second : Bytes}
    (order : first.length ≤ second.length) :
    (fieldBytes Protobuf.standard field (some ⟨.bytes, first⟩)).length ≤
      (fieldBytes Protobuf.standard field (some ⟨.bytes, second⟩)).length := by
  unfold fieldBytes
  dsimp only
  rw [isZero_bytes, isZero_bytes]
  by_cases empty : first.isEmpty = true
  · rw [if_pos empty]
    exact Nat.zero_le _
  · have filled : ¬ second.isEmpty = true := by
      rw [List.isEmpty_iff_length_eq_zero] at empty ⊢
      omega
    rw [if_neg empty, if_neg filled, List.length_append, List.length_append]
    refine Nat.add_le_add_left ?_ _
    show (varint first.length first.length ++ first).length ≤
      (varint second.length second.length ++ second).length
    rw [List.length_append, List.length_append]
    exact Nat.add_le_add (length_varint_mono order order) order

/-- A time of the years in question takes six bytes. -/
theorem length_fieldBytes_time (field : Field) {createdAt : UInt64}
    (after : 2 ^ 35 ≤ createdAt.toNat) (before : createdAt.toNat < 2 ^ 42) :
    (fieldBytes Protobuf.standard field (some ⟨.uint64, createdAt⟩)).length =
      (Protobuf.writeTag Protobuf.standard field.runtime 0).length + 6 := by
  have present : ¬ isZero .uint64 createdAt = true := by
    intro zero
    have none : ((createdAt.toNat : ℕ) : ℤ) = 0 := beq_iff_eq.mp zero
    omega
  unfold fieldBytes
  dsimp only
  rw [if_neg present, List.length_append]
  refine congrArg _ ?_
  show (varint 9 createdAt.toNat).length = 6
  exact length_varint (by decide) (Or.inl (by omega)) (by omega)

/-- Envelopes whose parts are as long as each other's are as long as each other. -/
theorem length_envelope_eq (libraries : Libraries) {first second : Envelope}
    (version : first.version = second.version) (suite : first.suite = second.suite)
    (payload : first.payload.length = second.payload.length)
    (nonce : first.nonce.length = second.nonce.length)
    (wrapped : first.wrapped_content_key.length = second.wrapped_content_key.length)
    (wrapNonce : first.wrap_nonce.length = second.wrap_nonce.length) :
    ((coded libraries).encodeEnvelope first).length =
      ((coded libraries).encodeEnvelope second).length := by
  rw [length_encodeEnvelope, length_encodeEnvelope]
  refine congrArg List.sum ?_
  unfold fieldLengths envelopeGivens envelopeType
  dsimp only [List.zipWith]
  rw [version, suite, length_fieldBytes_bytes _ payload, length_fieldBytes_bytes _ nonce,
    length_fieldBytes_bytes _ wrapped, length_fieldBytes_bytes _ wrapNonce]

/-- The length of a draft's content does not depend on when it is confirmed. -/
theorem length_draftContent (libraries : Libraries) (text : String) (externalRef : Option String)
    {createdAt another : UInt64}
    (after : 2 ^ 35 ≤ createdAt.toNat) (before : createdAt.toNat < 2 ^ 42)
    (since : 2 ^ 35 ≤ another.toNat) (upto : another.toNat < 2 ^ 42) :
    ((coded libraries).encodeContent (draftContent text externalRef createdAt)).length =
      ((coded libraries).encodeContent (draftContent text externalRef another)).length := by
  rw [length_encodeContent _ _ rfl, length_encodeContent _ _ rfl]
  refine congrArg List.sum ?_
  unfold fieldLengths contentGivens contentType draftContent
  dsimp only [List.zipWith]
  rw [length_fieldBytes_time _ after before, length_fieldBytes_time _ since upto]

/-- An envelope in the clear is not longer than one with a longer payload. -/
theorem length_envelope_le (libraries : Libraries) {clear sealing : Envelope}
    (version : clear.version = sealing.version) (suite : clear.suite = SUITE.PLAINTEXT)
    (payload : clear.payload.length ≤ sealing.payload.length)
    (nonce : clear.nonce = []) (wrapped : clear.wrapped_content_key = [])
    (wrapNonce : clear.wrap_nonce = []) :
    ((coded libraries).encodeEnvelope clear).length ≤
      ((coded libraries).encodeEnvelope sealing).length := by
  rw [length_encodeEnvelope, length_encodeEnvelope]
  unfold fieldLengths envelopeGivens envelopeType
  dsimp only [List.zipWith]
  rw [version, suite, nonce, wrapped, wrapNonce]
  refine List.Forall₂.sum_le_sum ?_
  refine .cons le_rfl (.cons (Nat.zero_le _) (.cons (length_fieldBytes_mono _ payload)
    (.cons (Nat.zero_le _) (.cons (Nat.zero_le _) (.cons (Nat.zero_le _) .nil)))))

/-! ### The check and the encoder -/

/-- The cipher takes keys and nonces of their lengths, and what it makes of a plaintext is longer by
the tag. -/
def Tagged (libraries : Libraries) : Prop :=
  ∀ key nonce aad plaintext, key.length = LIMITS.keyBytes → nonce.length = LIMITS.nonceBytes →
    ∃ ciphertext, libraries.encrypt key nonce aad plaintext = some ciphertext ∧
      ciphertext.length = plaintext.length + TAG_BYTES

/-- What a draft is encrypted with as a friends post, and as one for everyone. -/
def friendsOptions (content : Content) (aad : AadInput) (epochKey contentKey nonce wrapNonce : Bytes) :
    EncryptContentOptions where
  content := content
  aad := some aad
  epochKey := some epochKey
  suite := none
  contentKey := contentKey
  nonce := nonce
  wrapNonce := wrapNonce

def everyoneOptions (content : Content) (contentKey nonce wrapNonce : Bytes) :
    EncryptContentOptions where
  content := content
  aad := none
  epochKey := none
  suite := none
  contentKey := contentKey
  nonce := nonce
  wrapNonce := wrapNonce

/-- What is made of an envelope that is checked for its size. -/
theorem validated (bytes : Bytes) :
    ((validateEnvelopeSize bytes).bind fun _ => .ok bytes) =
      if bytes.length ≤ MAX_ENVELOPE_BYTES then .ok bytes
      else .error (.envelope ("envelope is " ++ toString bytes.length ++
        " bytes, above the limit of 4096")) := by
  unfold validateEnvelopeSize
  by_cases fits : bytes.length ≤ MAX_ENVELOPE_BYTES
  · have inside : ¬ LIMITS.maxEnvelopeBytes < bytes.length := Nat.not_lt.mpr fits
    rw [if_pos fits, if_neg inside]
    rfl
  · have outside : LIMITS.maxEnvelopeBytes < bytes.length := Nat.lt_of_not_le fits
    rw [if_neg fits, if_pos outside]
    rfl

theorem checkLength_eq {bytes : Bytes} {expected : ℕ} (same : bytes.length = expected)
    (label : String) : checkLength bytes expected label = .ok () :=
  if_neg (not_not.mpr same)

/-- The envelope of a post for everyone. -/
def clearEnvelope (libraries : Libraries) (content : Content) : Envelope where
  version := ENVELOPE_VERSION
  suite := SUITE.PLAINTEXT
  payload := libraries.encodeContent content
  nonce := []
  wrapped_content_key := []
  wrap_nonce := []

theorem encryptContent_friends {libraries : Libraries} (tagged : Tagged libraries)
    {content : Content} (bare : content.media = []) {aad : AadInput} {aadBytes : Bytes}
    (bound : buildAad libraries aad = .ok aadBytes) {epochKey contentKey nonce wrapNonce : Bytes}
    (epoch : epochKey.length = LIMITS.keyBytes) (key : contentKey.length = LIMITS.keyBytes)
    (fresh : nonce.length = LIMITS.nonceBytes) (drawn : wrapNonce.length = LIMITS.nonceBytes) :
    ∃ envelope : Envelope,
      (envelope.version = ENVELOPE_VERSION ∧ envelope.suite = SUITE.XCHACHA20POLY1305_X25519 ∧
        envelope.payload.length = (libraries.encodeContent content).length + TAG_BYTES ∧
        envelope.nonce.length = LIMITS.nonceBytes ∧
        envelope.wrapped_content_key.length = WRAPPED_KEY_BYTES ∧
        envelope.wrap_nonce.length = LIMITS.nonceBytes) ∧
      encryptContent libraries (friendsOptions content aad epochKey contentKey nonce wrapNonce) =
        if (libraries.encodeEnvelope envelope).length ≤ MAX_ENVELOPE_BYTES then
          .ok (libraries.encodeEnvelope envelope)
        else .error (.envelope ("envelope is " ++
          toString (libraries.encodeEnvelope envelope).length ++
          " bytes, above the limit of 4096")) := by
  obtain ⟨payload, ciphered, long⟩ :=
    tagged contentKey nonce aadBytes (libraries.encodeContent content) key fresh
  obtain ⟨wrapped, covered, size⟩ := tagged epochKey wrapNonce (wrapAad aadBytes) contentKey epoch drawn
  refine ⟨⟨ENVELOPE_VERSION, SUITE.XCHACHA20POLY1305_X25519, payload, nonce, wrapped, wrapNonce⟩,
    ⟨rfl, rfl, long, fresh, ?_, drawn⟩, ?_⟩
  · show wrapped.length = _
    rw [size, key]
    rfl
  · rw [← validated]
    have valid : validateContent content = .ok () := by
      unfold validateContent
      rw [bare]
      rfl
    unfold encryptContent friendsOptions
    dsimp only
    rw [valid]
    have usable : Option.filter (fun key => decide (key.length = LIMITS.keyBytes)) (some epochKey) =
        some epochKey := Option.filter_eq_some_iff.mpr ⟨rfl, decide_eq_true epoch⟩
    have different : ¬ SUITE.XCHACHA20POLY1305_X25519 = SUITE.PLAINTEXT := by decide
    have known : ¬ SUITE.XCHACHA20POLY1305_X25519 ≠ SUITE.XCHACHA20POLY1305_X25519 :=
      not_not.mpr rfl
    dsimp only [Bind.bind, Except.bind, Option.getD, Option.isSome]
    refine Eq.trans (if_neg different) (Eq.trans (if_neg known) ?_)
    rw [usable]
    dsimp only
    rw [bound, checkLength_eq key, checkLength_eq fresh, checkLength_eq drawn]
    dsimp only
    rw [ciphered, covered]
    rfl

/-- The whole of it for a friends post: the envelope is as long as the check says, or refused. -/
theorem encryptContent_everyone (libraries : Libraries) {content : Content}
    (bare : content.media = []) (contentKey nonce wrapNonce : Bytes) :
    encryptContent libraries (everyoneOptions content contentKey nonce wrapNonce) =
      if (libraries.encodeEnvelope (clearEnvelope libraries content)).length ≤
          MAX_ENVELOPE_BYTES then
        .ok (libraries.encodeEnvelope (clearEnvelope libraries content))
      else .error (.envelope ("envelope is " ++
        toString (libraries.encodeEnvelope (clearEnvelope libraries content)).length ++
        " bytes, above the limit of 4096")) := by
  rw [← validated]
  have valid : validateContent content = .ok () := by
    unfold validateContent
    rw [bare]
    rfl
  unfold encryptContent everyoneOptions
  dsimp only
  rw [valid]
  rfl

/-- The size check of a draft and the envelopes it is published in. Whenever it is confirmed within
the years in question, with any keys and nonces, as a friends post it has an envelope of exactly the
size that was measured, which is refused exactly if the check refuses it; and if the check accepts
it, so does the encoder when it is for everyone. -/
theorem measureDraft_exact (libraries : Libraries) (tagged : Tagged libraries) (text : String)
    (externalRef : Option String) :
    ∃ size, measureDraft (coded libraries) text externalRef = .ok size ∧
      ∀ createdAt : UInt64, 2 ^ 35 ≤ createdAt.toNat → createdAt.toNat < 2 ^ 42 →
        (∀ aad aadBytes epochKey contentKey nonce wrapNonce,
          buildAad (coded libraries) aad = .ok aadBytes →
          epochKey.length = LIMITS.keyBytes → contentKey.length = LIMITS.keyBytes →
          nonce.length = LIMITS.nonceBytes → wrapNonce.length = LIMITS.nonceBytes →
          ∃ bytes, bytes.length = size.bytes ∧
            encryptContent (coded libraries) (friendsOptions
                (draftContent text externalRef createdAt) aad epochKey contentKey nonce wrapNonce) =
              if size.ok then .ok bytes
              else .error (.envelope ("envelope is " ++ toString size.bytes ++
                " bytes, above the limit of 4096"))) ∧
        (size.ok = true → ∀ contentKey nonce wrapNonce, ∃ bytes,
          encryptContent (coded libraries) (everyoneOptions
              (draftContent text externalRef createdAt) contentKey nonce wrapNonce) = .ok bytes ∧
            bytes.length ≤ MAX_ENVELOPE_BYTES) := by
  have valid : ∀ createdAt, validateContent (draftContent text externalRef createdAt) = .ok () :=
    fun _ => rfl
  let measured := (coded libraries).encodeEnvelope
    { version := ENVELOPE_VERSION
      suite := SUITE.XCHACHA20POLY1305_X25519
      payload := filled (((coded libraries).encodeContent
        (draftContent text externalRef CREATED_AT_PLACEHOLDER)).length + TAG_BYTES)
      nonce := filled LIMITS.nonceBytes
      wrapped_content_key := filled WRAPPED_KEY_BYTES
      wrap_nonce := filled LIMITS.nonceBytes }
  refine ⟨⟨measured.length, MAX_ENVELOPE_BYTES, measured.length ≤ MAX_ENVELOPE_BYTES⟩, rfl, ?_⟩
  intro createdAt after before
  have placeholder : 2 ^ 35 ≤ CREATED_AT_PLACEHOLDER.toNat ∧
      CREATED_AT_PLACEHOLDER.toNat < 2 ^ 42 := by decide
  have same := length_draftContent libraries text externalRef after before placeholder.1
    placeholder.2
  have long : ∀ length, (filled length).length = length := fun length => List.length_replicate
  have bare : (draftContent text externalRef createdAt).media = [] := rfl
  constructor
  · intro aad aadBytes epochKey contentKey nonce wrapNonce bound epoch key fresh drawn
    have sealing : Tagged (coded libraries) := tagged
    obtain ⟨envelope, ⟨version, suite, payload, plain, wrapped, wrap⟩, result⟩ :=
      encryptContent_friends sealing bare bound epoch key fresh drawn
    have size : ((coded libraries).encodeEnvelope envelope).length = measured.length := by
      refine length_envelope_eq libraries version suite ?_ ?_ ?_ ?_
      · rw [payload, same, long]
      · rw [plain, long]
      · rw [wrapped, long]
      · rw [wrap, long]
    refine ⟨(coded libraries).encodeEnvelope envelope, size, ?_⟩
    rw [result, size]
    by_cases fits : measured.length ≤ MAX_ENVELOPE_BYTES
    · rw [if_pos fits, if_pos (decide_eq_true fits)]
    · rw [if_neg fits, if_neg (fun accepted => fits (of_decide_eq_true accepted))]
  · intro accepted contentKey nonce wrapNonce
    dsimp only at accepted
    rw [decide_eq_true_eq] at accepted
    have fits : measured.length ≤ MAX_ENVELOPE_BYTES := accepted
    have shorter : ((coded libraries).encodeEnvelope (clearEnvelope (coded libraries)
        (draftContent text externalRef createdAt))).length ≤ measured.length := by
      refine length_envelope_le libraries rfl rfl ?_ rfl rfl rfl
      rw [long, ← same]
      exact Nat.le_add_right _ _
    refine ⟨_, ?_, shorter.trans fits⟩
    rw [encryptContent_everyone (coded libraries) bare]
    exact if_pos (shorter.trans fits)

/-- Libraries whose cipher puts a tag of sixteen bytes behind the plaintext. -/
def taggedLibraries : Libraries :=
  { plainLibraries with
    encrypt := fun key nonce aad plaintext =>
      if key.length = LIMITS.keyBytes ∧ nonce.length = LIMITS.nonceBytes then
        some (plaintext ++ (digest (key ++ nonce ++ aad)).take TAG_BYTES)
      else none }

theorem taggedLibraries_tagged : Tagged taggedLibraries := by
  intro key nonce aad plaintext whole fresh
  refine ⟨_, if_pos ⟨whole, fresh⟩, ?_⟩
  have long : (digest (key ++ nonce ++ aad)).length = 32 := length_littleEndian 32 _
  rw [List.length_append, List.length_take, long]
  rfl

def sampleDraftAad : AadInput where
  chainId := "chain"
  author := "one author of 25 letters."
  postId := []
  audience := 1
  audienceId := []
  epoch := 1
  versionNumber := 1

/-- A short draft that is confirmed at the time 2^40. -/
theorem measureDraft_exact_hello :
    ∃ size, measureDraft (coded taggedLibraries) "hello" none = .ok size ∧
      (∃ bytes, bytes.length = size.bytes ∧
        encryptContent (coded taggedLibraries) (friendsOptions
            (draftContent "hello" none 1099511627776) sampleDraftAad (filled 32) (filled 32)
            (filled 24) (filled 24)) =
          if size.ok then .ok bytes
          else .error (.envelope ("envelope is " ++ toString size.bytes ++
            " bytes, above the limit of 4096"))) ∧
      ∃ bytes,
        encryptContent (coded taggedLibraries) (everyoneOptions
            (draftContent "hello" none 1099511627776) (filled 32) (filled 24) (filled 24)) =
          .ok bytes ∧ bytes.length ≤ MAX_ENVELOPE_BYTES := by
  obtain ⟨size, measured, exact⟩ :=
    measureDraft_exact taggedLibraries taggedLibraries_tagged "hello" none
  obtain ⟨friends, everyone⟩ := exact 1099511627776 (by decide) (by decide)
  have bound : ∃ aadBytes, buildAad (coded taggedLibraries) sampleDraftAad = .ok aadBytes :=
    ⟨_, rfl⟩
  obtain ⟨aadBytes, bound⟩ := bound
  have known : measureDraft (coded taggedLibraries) "hello" none = .ok ⟨152, 4096, true⟩ := by
    decide +kernel
  refine ⟨size, measured, ?_, ?_⟩
  · exact friends sampleDraftAad aadBytes (filled 32) (filled 32) (filled 24) (filled 24) bound rfl
      rfl rfl rfl
  · refine everyone ?_ (filled 32) (filled 24) (filled 24)
    rw [known] at measured
    rw [← Except.ok.inj measured]

end OpenSocial.Extension

/-
This file proves that key packages reach everyone they are made for. The sealed keys
are split into sets without losing or moving any; a set with several keys keeps to the
limit, and the first key of the next set would not fit. Whoever has a recipient's
secret opens the epoch key from the set that holds the recipient's key, even if the
set holds more keys sealed for the same address.
-/

import OpenSocial.Sdk.Audience
import OpenSocial.Sdk.DirectMessages

namespace OpenSocial.Sdk.Messages.Audience

open Library Encoding Extension

/-! ### Written sets -/

/-- A set that is encoded. -/
structure Encodable (set : KeyPackageSet) : Prop where
  version : set.version = KEY_PACKAGE_VERSION
  suite : set.suite = SEALING_SUITE
  epoch : 0 ≤ set.epoch ∧ set.epoch ≤ uint32Max
  keys : set.keys ≠ []
  fits : ∀ key ∈ set.keys, VersionFits key

/-- The field of the keys. -/
def setKeysField : Field := documentField "keys" 6 (.message 0) true exact_nested

/-- What a set has for its first five fields. -/
def setGivens (set : KeyPackageSet) : List Given :=
  [some ⟨.uint32, 1⟩, some ⟨.int32, 1⟩, some ⟨.bytes, set.author⟩, some ⟨.bytes, set.audience_id⟩,
    some ⟨.uint32, UInt32.ofInt set.epoch⟩]

def setBytes (set : KeyPackageSet) : Bytes :=
  listedBytes Protobuf.standard audienceSchema 0 (keyPackageSetType.fields.take 5) setKeysField
    (setGivens set) keyGivens set.keys

theorem given_set {set : KeyPackageSet} (encodable : Encodable set) :
    List.Forall₂ (GivenFor (keyPackageSetObject set)) (keyPackageSetType.fields.take 5)
      (setGivens set) := by
  refine .cons ⟨rfl, rfl, ?_⟩ (.cons ⟨rfl, rfl, ?_⟩ (.cons ⟨rfl, rfl, rfl⟩
    (.cons ⟨rfl, rfl, rfl⟩ (.cons ⟨rfl, rfl, ?_⟩ .nil))))
  · exact congrArg ProtoValue.integer encodable.version
  · exact congrArg ProtoValue.integer encodable.suite
  · rw [valueOf_uint32, toNat_ofInt32 encodable.epoch.1 encodable.epoch.2]
    rfl

/-- A set ends with the list of its keys. -/
theorem listed_set {set : KeyPackageSet} (encodable : Encodable set) :
    Listed audienceSchema KEY_PACKAGE_SET (keyPackageSetObject set)
      (keyPackageSetType.fields.take 5) setKeysField 0 (setGivens set) sealedKeyObject keyGivens
      set.keys where
  fields := rfl
  plain := by decide
  lastPlain := rfl
  repeated := rfl
  kind := rfl
  itemPlain := by decide
  has := given_set encodable
  filled := encodable.keys
  member := rfl
  objects := fun _ _ => rfl
  items := fun key member => given_key (encodable.fits key member)

theorem encodeKeyPackageSet_eq {set : KeyPackageSet} (encodable : Encodable set) :
    encodeKeyPackageSet set = .ok (setBytes set) := by
  have accepted : canonicalize messageCodec.toEncodings audienceSchema (99 + 2) KEY_PACKAGE_SET
      (keyPackageSetObject set) ".osp.envelope.key_package_set" = _ :=
    (listed_set encodable).canonicalize _ _
  have whole := (listed_set encodable).written (show messageCodec.levels = 99 + 2 from rfl)
    ⟨99, rfl⟩
  unfold encodeKeyPackageSet
  rw [show messageCodec.levels = 99 + 2 from rfl, accepted]
  show (Except.mapError thrown _).mapError MessageError.sdk = _
  rw [whole]
  rfl

/-! ### Sealed keys -/

/-- The libraries are ideal: what is encrypted is decrypted, what was sealed opens to nothing else,
two secrets agree, and nothing of the right length is refused. -/
structure Ideal (crypto : Crypto) : Prop where
  encrypts : ∀ key nonce aad plaintext, key.length = 32 → nonce.length = 24 →
    ∃ ciphertext, crypto.encrypt key nonce aad plaintext = some ciphertext
  decrypt_encrypt : ∀ key nonce aad plaintext ciphertext,
    crypto.encrypt key nonce aad plaintext = some ciphertext →
      crypto.decrypt key nonce aad ciphertext = some plaintext
  opens_honest : ∀ key nonce aad plaintext ciphertext,
    crypto.encrypt key nonce aad plaintext = some ciphertext →
      ∀ other opened, crypto.decrypt other nonce aad ciphertext = some opened → opened = plaintext
  publicKey_length : ∀ secret, secret.length = 32 → (crypto.publicKey secret).length = 32
  agrees : ∀ first second, first.length = 32 → second.length = 32 →
    ∃ shared, crypto.sharedSecret first (crypto.publicKey second) = some shared ∧
      crypto.sharedSecret second (crypto.publicKey first) = some shared
  hkdf_length : ∀ secret salt info length, (crypto.hkdf secret salt info length).length = length

section Sealing

variable {crypto : Crypto} {context : AudienceContext} {epochKey : Bytes}

/-- A key that is sealed for a recipient. -/
structure SealedFor (crypto : Crypto) (context : AudienceContext) (epochKey : Bytes)
    (recipient : Recipient) (key : SealedKey) : Prop where
  addressed : addressToBytes crypto recipient.address = .ok key.recipient
  version : key.recipient_key_version = recipient.keyVersion
  nonce : key.nonce.length = 24
  agreed : ∃ ephemeral shared bound, ephemeral.length = 32 ∧
    key.ephemeral_public_key = crypto.publicKey ephemeral ∧
    crypto.sharedSecret ephemeral recipient.publicKey = some shared ∧
    sealAad crypto context (.bytes key.recipient) = .ok bound ∧
    crypto.encrypt (deriveSealKey crypto shared key.ephemeral_public_key recipient.publicKey)
      key.nonce bound epochKey = some key.ciphertext

theorem of_require {holds : Prop} [Decidable holds] {message : String} {nothing : Unit}
    (answered : require holds message = .ok nothing) : holds := by
  unfold require at answered
  by_contra fails
  rw [if_neg fails] at answered
  cases answered

theorem sealedFor_of_ok {recipient : Recipient} {drawn : Bytes × Bytes} {key : SealedKey}
    (answered : sealEpochKey crypto context epochKey recipient drawn = .ok key) :
    SealedFor crypto context epochKey recipient key := by
  obtain ⟨_, _, answered⟩ := ok_of_bind answered
  obtain ⟨_, _, answered⟩ := ok_of_bind answered
  obtain ⟨_, secretLength, answered⟩ := ok_of_bind answered
  obtain ⟨_, nonceLength, answered⟩ := ok_of_bind answered
  obtain ⟨shared, agreed, answered⟩ := ok_of_bind answered
  obtain ⟨address, addressed, answered⟩ := ok_of_bind answered
  obtain ⟨bound, isBound, answered⟩ := ok_of_bind answered
  obtain ⟨ciphertext, encrypted, answered⟩ := ok_of_bind answered
  cases answered
  have long := of_require secretLength
  have nonce := of_require nonceLength
  exact ⟨addressed, rfl, nonce, drawn.1, shared, bound, long, rfl, some_of_given agreed, isBound,
    some_of_given encrypted⟩

/-- What is drawn has the lengths that are asked for. -/
def DrawnFits (drawn : ℕ → Bytes × Bytes) : Prop :=
  ∀ place, (drawn place).1.length = 32 ∧ (drawn place).2.length = 24

/-- A recipient with an address, a key of someone, and a key version of 32 bits. -/
structure Sealable (crypto : Crypto) (recipient : Recipient) : Prop where
  address : ∃ bytes, addressToBytes crypto recipient.address = .ok bytes
  held : ∃ secret : Bytes, secret.length = 32 ∧ crypto.publicKey secret = recipient.publicKey
  version : 0 ≤ recipient.keyVersion ∧ recipient.keyVersion ≤ uint32Max

/-- An author with an address, and an epoch of 32 bits. -/
structure ContextFits (crypto : Crypto) (context : AudienceContext) : Prop where
  author : ∃ bytes, addressToBytes crypto context.author = .ok bytes
  epoch : 0 ≤ context.epoch ∧ context.epoch ≤ uint32Max

theorem u32be_eq {value : ℤ} (fits : 0 ≤ value ∧ value ≤ uint32Max) :
    u32be value = .ok (Util.u32be value.toNat) := by
  refine if_neg ?_
  rw [not_or, not_lt, not_lt]
  exact fits

theorem addressToBytes_bytes {address : AddressLike} {bytes : Bytes}
    (found : addressToBytes crypto address = .ok bytes) :
    addressToBytes crypto (.bytes bytes) = .ok bytes :=
  if_neg (not_not.mpr (length_addressToBytes found))

theorem sealAad_eq (fits : ContextFits crypto context) {recipient : AddressLike} {bytes : Bytes}
    (found : addressToBytes crypto recipient = .ok bytes) :
    ∃ bound, sealAad crypto context (.bytes bytes) = .ok bound := by
  obtain ⟨author, read⟩ := fits.author
  refine ⟨author ++ context.audienceId ++ Util.u32be context.epoch.toNat ++ bytes, ?_⟩
  refine (step_ok read _).trans ?_
  refine (step_ok (u32be_eq fits.epoch) _).trans ?_
  exact step_ok (addressToBytes_bytes found) _

/-- For such a recipient a key is sealed. -/
theorem sealEpochKey_answers (ideal : Ideal crypto) (fits : ContextFits crypto context)
    (long : epochKey.length = 32) {recipient : Recipient} (can : Sealable crypto recipient)
    {drawn : Bytes × Bytes} (secretLength : drawn.1.length = 32)
    (nonceLength : drawn.2.length = 24) :
    ∃ key, sealEpochKey crypto context epochKey recipient drawn = .ok key := by
  obtain ⟨address, addressed⟩ := can.address
  obtain ⟨secret, secretLong, own⟩ := can.held
  obtain ⟨shared, agreed, _⟩ := ideal.agrees drawn.1 secret secretLength secretLong
  rw [own] at agreed
  obtain ⟨bound, isBound⟩ := sealAad_eq fits addressed
  have keyLength : (deriveSealKey crypto shared (crypto.publicKey drawn.1)
      recipient.publicKey).length = 32 := ideal.hkdf_length _ _ _ _
  obtain ⟨ciphertext, encrypted⟩ := ideal.encrypts _ drawn.2 bound epochKey keyLength nonceLength
  have publicLength : recipient.publicKey.length = 32 := by
    rw [← own]
    exact ideal.publicKey_length secret secretLong
  refine ⟨⟨address, recipient.keyVersion, crypto.publicKey drawn.1, drawn.2, ciphertext⟩, ?_⟩
  refine (step_ok (require_pos long _) _).trans ?_
  refine (step_ok (require_pos publicLength _) _).trans ?_
  refine (step_ok (require_pos secretLength _) _).trans ?_
  refine (step_ok (require_pos nonceLength _) _).trans ?_
  refine (step_ok (given_some agreed _) _).trans ?_
  refine (step_ok addressed _).trans ?_
  refine (step_ok isBound _).trans ?_
  exact step_ok (given_some encrypted _) _

end Sealing

section Recipients

variable {crypto : Crypto} {options : BuildKeyPackageSetOptions} {drawn : ℕ → Bytes × Bytes}

/-- Each recipient has a sealed key, in the order of the recipients. -/
theorem sealedFor_of_all {place : ℕ} {recipients : List Recipient} {keys : List SealedKey}
    (answered : sealAll crypto options drawn place recipients = .ok keys) :
    List.Forall₂ (SealedFor crypto options.toAudienceContext options.epochKey) recipients keys := by
  induction recipients generalizing place keys with
  | nil =>
    cases answered
    exact .nil
  | cons recipient others inductionHypothesis =>
    unfold sealAll at answered
    obtain ⟨first, head, answered⟩ := ok_of_bind answered
    obtain ⟨rest, behind, answered⟩ := ok_of_bind answered
    cases answered
    exact .cons (sealedFor_of_ok head) (inductionHypothesis behind)

theorem sealAll_answers (ideal : Ideal crypto) (fits : ContextFits crypto options.toAudienceContext)
    (long : options.epochKey.length = 32) (lengths : DrawnFits drawn) {recipients : List Recipient}
    (can : ∀ recipient ∈ recipients, Sealable crypto recipient) (place : ℕ) :
    ∃ keys, sealAll crypto options drawn place recipients = .ok keys := by
  induction recipients generalizing place with
  | nil => exact ⟨[], rfl⟩
  | cons recipient others inductionHypothesis =>
    rw [List.forall_mem_cons] at can
    obtain ⟨first, head⟩ := sealEpochKey_answers ideal fits long can.1 (lengths place).1
      (lengths place).2
    obtain ⟨rest, behind⟩ := inductionHypothesis can.2 (place + 1)
    refine ⟨first :: rest, ?_⟩
    unfold sealAll
    refine (step_ok head _).trans ?_
    exact step_ok behind _

end Recipients

/-! ### Opened keys -/

section Opening

variable {crypto : Crypto} {context : AudienceContext} {epochKey secret : Bytes}

/-- The recipient opens the key that is sealed for them. -/
theorem openEpochKey_own (ideal : Ideal crypto) {recipient : Recipient} {key : SealedKey}
    (isSealed : SealedFor crypto context epochKey recipient key) (long : secret.length = 32)
    (own : crypto.publicKey secret = recipient.publicKey) :
    openEpochKey crypto context key secret = .ok epochKey := by
  obtain ⟨ephemeral, shared, bound, ephemeralLong, isEphemeral, agreed, isBound, encrypted⟩ :=
    isSealed.agreed
  obtain ⟨both, one, other⟩ := ideal.agrees ephemeral secret ephemeralLong long
  rw [own, agreed] at one
  obtain rfl := Option.some.inj one
  rw [← isEphemeral] at other
  have opened := ideal.decrypt_encrypt _ _ _ _ _ encrypted
  rw [← own] at opened
  have ephemeralLength : key.ephemeral_public_key.length = 32 := by
    rw [isEphemeral]
    exact ideal.publicKey_length _ ephemeralLong
  refine (step_ok (require_pos long _) _).trans ?_
  refine (step_ok (require_pos ephemeralLength _) _).trans ?_
  refine (step_ok (require_pos isSealed.nonce _) _).trans ?_
  refine (step_ok (given_some other _) _).trans ?_
  refine (step_ok isBound _).trans ?_
  exact given_some opened _

/-- Whoever opens a sealed key opens the epoch key. -/
theorem opened_of_sealed (ideal : Ideal crypto) {recipient : Recipient} {key : SealedKey}
    (isSealed : SealedFor crypto context epochKey recipient key) {opened : Bytes}
    (answered : openEpochKey crypto context key secret = .ok opened) : opened = epochKey := by
  obtain ⟨ephemeral, shared, bound, ephemeralLong, isEphemeral, agreed, isBound, encrypted⟩ :=
    isSealed.agreed
  obtain ⟨_, _, answered⟩ := ok_of_bind answered
  obtain ⟨_, _, answered⟩ := ok_of_bind answered
  obtain ⟨_, _, answered⟩ := ok_of_bind answered
  obtain ⟨_, _, answered⟩ := ok_of_bind answered
  obtain ⟨other, again, answered⟩ := ok_of_bind answered
  obtain rfl := Except.ok.inj (isBound.symm.trans again)
  exact ideal.opens_honest _ _ _ _ _ encrypted _ _ (some_of_given answered)

/-- The first key that opens is found behind keys that do not. -/
theorem openFirst_eq {keys : List SealedKey}
    (same : ∀ key ∈ keys, ∀ opened, openEpochKey crypto context key secret = .ok opened →
      opened = epochKey)
    (one : ∃ key ∈ keys, openEpochKey crypto context key secret = .ok epochKey)
    (lastError : MessageError) :
    openFirst crypto context secret lastError keys = .ok epochKey := by
  induction keys generalizing lastError with
  | nil =>
    obtain ⟨key, absent, _⟩ := one
    cases absent
  | cons key others inductionHypothesis =>
    rw [List.forall_mem_cons] at same
    unfold openFirst
    cases answered : openEpochKey crypto context key secret with
    | ok opened => exact congrArg Except.ok (same.1 opened answered)
    | error error =>
      refine inductionHypothesis same.2 ?_ error
      obtain ⟨other, member, opens⟩ := one
      rcases List.mem_cons.mp member with rfl | behind
      · rw [answered] at opens
        cases opens
      · exact ⟨other, behind, opens⟩

theorem mem_ordered {keyVersion : Option ℤ} {candidates : List SealedKey} {key : SealedKey} :
    key ∈ ordered keyVersion candidates ↔ key ∈ candidates := by
  cases keyVersion with
  | none => exact Iff.rfl
  | some version =>
    unfold ordered
    dsimp only
    rw [List.mem_append, List.mem_filter, List.mem_filter, ← and_or_left]
    refine and_iff_left ?_
    by_cases same : key.recipient_key_version = version
    · exact .inl (decide_eq_true same)
    · refine .inr ?_
      rw [decide_eq_false same]
      rfl

/-- The context a set is opened in seals as the one it was made in. -/
theorem sealAad_of_set {author : Bytes}
    (read : addressToBytes crypto context.author = .ok author) (recipient : AddressLike) :
    sealAad crypto ⟨.bytes author, context.audienceId, context.epoch⟩ recipient =
      sealAad crypto context recipient := by
  unfold sealAad
  rw [read, addressToBytes_bytes read]

theorem sealedFor_of_set {author : Bytes}
    (read : addressToBytes crypto context.author = .ok author) {recipient : Recipient}
    {key : SealedKey} (isSealed : SealedFor crypto context epochKey recipient key) :
    SealedFor crypto ⟨.bytes author, context.audienceId, context.epoch⟩ epochKey recipient key where
  addressed := isSealed.addressed
  version := isSealed.version
  nonce := isSealed.nonce
  agreed := by
    rw [sealAad_of_set read]
    exact isSealed.agreed

/-- Whoever has a recipient's secret gets the epoch key from the set with the recipient's key. -/
theorem openEpochKeyFromSet_eq (ideal : Ideal crypto) {set : KeyPackageSet}
    (read : addressToBytes crypto context.author = .ok set.author)
    (audience : set.audience_id = context.audienceId) (epoch : set.epoch = context.epoch)
    (all : ∀ key ∈ set.keys, ∃ recipient, SealedFor crypto context epochKey recipient key)
    {recipient : Recipient} {key : SealedKey} (member : key ∈ set.keys)
    (isSealed : SealedFor crypto context epochKey recipient key) (long : secret.length = 32)
    (own : crypto.publicKey secret = recipient.publicKey) (keyVersion : Option ℤ) :
    openEpochKeyFromSet crypto set recipient.address secret keyVersion =
      .ok (some epochKey) := by
  have found : findSealedKeysFor crypto set recipient.address none =
      .ok (set.keys.filter fun other => decide (other.recipient = key.recipient)) := by
    refine (step_ok isSealed.addressed _).trans (congrArg Except.ok ?_)
    refine List.filter_congr fun other _ => ?_
    exact Bool.and_true _
  have candidate : key ∈ set.keys.filter fun other => decide (other.recipient = key.recipient) :=
    List.mem_filter.mpr ⟨member, decide_eq_true rfl⟩
  have filled : (set.keys.filter fun other =>
      decide (other.recipient = key.recipient)).isEmpty = false := by
    rw [List.isEmpty_eq_false_iff]
    exact List.ne_nil_of_mem candidate
  refine (step_ok found _).trans ?_
  rw [if_neg (by rw [filled]; exact Bool.false_ne_true), audience, epoch]
  refine step_ok (openFirst_eq ?_ ?_ _) _
  · intro other among opened answered
    obtain ⟨whose, theirs⟩ := all other (List.mem_filter.mp (mem_ordered.mp among)).1
    exact opened_of_sealed ideal (sealedFor_of_set read theirs) answered
  · exact ⟨key, mem_ordered.mpr candidate,
      openEpochKey_own ideal (sealedFor_of_set read isSealed) long own⟩

end Opening

/-! ### Sets -/

section Sets

variable {crypto : Crypto} {context : AudienceContext}

/-- The set of some keys. -/
def setOf (context : AudienceContext) (author : Bytes) (keys : List SealedKey) : KeyPackageSet where
  version := KEY_PACKAGE_VERSION
  suite := SEALING_SUITE
  author := author
  audience_id := context.audienceId
  epoch := context.epoch
  keys := keys

/-- A package that is made of some keys. -/
structure MadeOf (crypto : Crypto) (context : AudienceContext) (author : Bytes)
    (keys : List SealedKey) (package : KeyPackage) : Prop where
  read : addressToBytes crypto context.author = .ok author
  set : package.set = setOf context author keys
  encoded : encodeKeyPackageSet package.set = .ok package.bytes

theorem madeOf_of_ok {keys : List SealedKey} {package : KeyPackage}
    (answered : makeSet crypto context keys = .ok package) :
    ∃ author, MadeOf crypto context author keys package := by
  obtain ⟨author, read, answered⟩ := ok_of_bind answered
  obtain ⟨bytes, written, answered⟩ := ok_of_bind answered
  cases answered
  exact ⟨author, read, rfl, written⟩

theorem makeSet_answers (fits : ContextFits crypto context) {keys : List SealedKey}
    (filled : keys ≠ []) (versions : ∀ key ∈ keys, VersionFits key) :
    ∃ package, makeSet crypto context keys = .ok package := by
  obtain ⟨author, read⟩ := fits.author
  have encodable : Encodable (setOf context author keys) :=
    ⟨rfl, rfl, fits.epoch, filled, versions⟩
  refine ⟨⟨setOf context author keys, setBytes (setOf context author keys)⟩, ?_⟩
  refine (step_ok read _).trans ?_
  exact step_ok (encodeKeyPackageSet_eq encodable) _

/-- A set that holds one more key is larger than a limit. -/
def ExceedsWith (maxBytes : ℕ∞) (set : KeyPackageSet) (key : SealedKey) : Prop :=
  ∃ bytes, encodeKeyPackageSet { set with keys := set.keys ++ [key] } = .ok bytes ∧
    maxBytes < (bytes.length : ℕ∞)

/-- The first key of the next set would make a set too large. -/
def FullBefore (maxBytes : ℕ∞) (package next : KeyPackage) : Prop :=
  ∀ key ∈ next.set.keys.head?, ExceedsWith maxBytes package.set key

theorem exceedsWith_of_full {maxBytes : ℕ∞} {author : Bytes} {run : List SealedKey}
    {package : KeyPackage} (made : MadeOf crypto context author run package) {key : SealedKey}
    (full : ∃ other, makeSet crypto context (run ++ [key]) = .ok other ∧
      exceeds maxBytes other = true) : ExceedsWith maxBytes package.set key := by
  obtain ⟨other, answered, large⟩ := full
  obtain ⟨again, longer⟩ := madeOf_of_ok answered
  obtain rfl := Except.ok.inj (made.read.symm.trans longer.read)
  have encoded := longer.encoded
  rw [longer.set] at encoded
  refine ⟨other.bytes, ?_, of_decide_eq_true large⟩
  rw [made.set]
  exact encoded

end Sets

/-! ### Split key packages -/

/-- What the sets are relied on for: they hold the sealed keys in their order, each has some, none
with several is larger than the limit or has room for the next key, and every recipient opens the
epoch key from the set with a key that is sealed for them. -/
structure Delivered (crypto : Crypto) (options : BuildKeyPackageSetOptions) (maxBytes : ℕ∞)
    (keys : List SealedKey) (packages : List KeyPackage) : Prop where
  encoded : ∀ package ∈ packages, encodeKeyPackageSet package.set = .ok package.bytes
  filled : ∀ package ∈ packages, package.set.keys ≠ []
  whole : packages.flatMap (fun package => package.set.keys) = keys
  bounded : ∀ package ∈ packages, 1 < package.set.keys.length →
    (package.bytes.length : ℕ∞) ≤ maxBytes
  full : packages.IsChain (FullBefore maxBytes)
  opened : ∀ package ∈ packages, ∀ (place : ℕ) (recipient : Recipient) (key : SealedKey),
    options.recipients[place]? = some recipient → keys[place]? = some key →
      key ∈ package.set.keys → ∀ secret : Bytes, secret.length = 32 →
        crypto.publicKey secret = recipient.publicKey → ∀ keyVersion,
          openEpochKeyFromSet crypto package.set recipient.address secret keyVersion =
            .ok (some options.epochKey)

section Packages

variable {crypto : Crypto} {options : BuildKeyPackageSetOptions} {maxBytes : ℕ∞}
variable {runs : List (List SealedKey)} {keys : List SealedKey} {packages : List KeyPackage}

/-- A packing's runs are the keys of its packages. -/
theorem runs_of_packing
    (packing : Packing (makeSet crypto options.toAudienceContext) (exceeds maxBytes) keys runs
      packages) : runs = packages.map fun package => package.set.keys := by
  have same : List.Forall₂ (fun run package => run = package.set.keys) runs packages := by
    refine packing.made.imp fun run package made => ?_
    obtain ⟨author, isMade⟩ := madeOf_of_ok made
    rw [isMade.set]
    rfl
  rwa [← List.forall₂_eq_eq_eq, List.forall₂_map_right_iff]

theorem delivered_of_packing (ideal : Ideal crypto)
    (sealing : List.Forall₂ (SealedFor crypto options.toAudienceContext options.epochKey)
      options.recipients keys)
    (packing : Packing (makeSet crypto options.toAudienceContext) (exceeds maxBytes) keys runs
      packages) : Delivered crypto options maxBytes keys packages := by
  obtain rfl := runs_of_packing packing
  have made := packing.made
  rw [List.forall₂_map_left_iff, List.forall₂_same] at made
  have isMade : ∀ package ∈ packages, ∃ author,
      MadeOf crypto options.toAudienceContext author package.set.keys package :=
    fun package member => madeOf_of_ok (made package member)
  have filled := packing.filled
  have fits := packing.fits
  have full := packing.full
  rw [List.forall_mem_map] at filled fits
  rw [List.isChain_map] at full
  refine ⟨?_, filled, packing.whole, ?_, ?_, ?_⟩
  · intro package member
    obtain ⟨author, found⟩ := isMade package member
    exact found.encoded
  · intro package member several
    obtain ⟨same, answered, small⟩ := fits package member several
    obtain rfl := Except.ok.inj (answered.symm.trans (made package member))
    exact not_lt.mp (of_decide_eq_false small)
  · refine full.imp_of_mem_imp fun package next member _ isFull key first => ?_
    obtain ⟨author, found⟩ := isMade package member
    exact exceedsWith_of_full found (isFull key first)
  · intro package member place recipient key whose sealedKey holds secret long own keyVersion
    obtain ⟨author, found⟩ := isMade package member
    have all : ∀ other ∈ package.set.keys, ∃ recipient,
        SealedFor crypto options.toAudienceContext options.epochKey recipient other := by
      intro other among
      have whole : other ∈ keys := by
        rw [← packing.whole]
        exact List.mem_flatten.mpr ⟨_, List.mem_map_of_mem member, among⟩
      obtain ⟨recipient, _, isSealed⟩ := sealed_of_mem sealing whole
      exact ⟨recipient, isSealed⟩
    have isSealed : SealedFor crypto options.toAudienceContext options.epochKey recipient key := by
      have each := (List.forall₂_iff_get.mp sealing).2
      obtain ⟨inside, rfl⟩ := List.getElem?_eq_some_iff.mp whose
      obtain ⟨short, rfl⟩ := List.getElem?_eq_some_iff.mp sealedKey
      exact each place inside short
    have read := found.read
    have author_same : package.set.author = author := by rw [found.set]; rfl
    rw [← author_same] at read
    refine openEpochKeyFromSet_eq ideal read ?_ ?_ all holds isSealed long own keyVersion
    · rw [found.set]
      rfl
    · rw [found.set]
      rfl

end Packages

/-- Libraries whose ciphertexts are the plaintext with a tag are ideal. -/
theorem sampleCrypto_ideal : Ideal sampleCrypto where
  encrypts := fun key nonce aad plaintext _ long => ⟨plaintext ++ sampleTag aad, if_pos long⟩
  decrypt_encrypt := sampleCrypto_sound.decrypt_encrypt
  opens_honest := by
    intro key nonce aad plaintext ciphertext encrypted other opened answered
    have own := sampleCrypto_sound.decrypt_encrypt key nonce aad plaintext ciphertext encrypted
    exact Option.some.inj (answered.symm.trans own)
  publicKey_length := fun _ long => long
  agrees := fun first second one other =>
    ⟨List.zipWith (· + ·) first second, rfl, (sampleCrypto_sound.sharedSecret_comm first second one
      other).symm⟩
  hkdf_length := fun _ _ _ _ => List.length_replicate

/-- An epoch key for two recipients, of whom the first is the author. -/
def sampleOptions : BuildKeyPackageSetOptions where
  author := .text (List.replicate 25 97)
  epoch := 3
  epochKey := List.replicate 32 5
  recipients := sampleParticipants

end OpenSocial.Sdk.Messages.Audience

/-
This file proves that the clients and the contract hash the same bytes into a post's
id, and that these bytes name one post only: whatever the length of the chain id, the
parts behind it have fixed lengths. The same holds of the data a sealed key is bound
to, whose audience id stands between parts of fixed lengths.

The clients take a sequence as a number, a big integer or a text and write it through a
view of a buffer; the contract shifts bytes out of machine words.
-/

import OpenSocial.Library.Buffers
import OpenSocial.Publications.Contract
import OpenSocial.Sdk.Ids

namespace OpenSocial.Util

open Library

/-! ### The contracts' byte writers -/

/-- The loop of `Util.concat`. -/
theorem concat_eq_join (parts : List Bytes) : concat parts = Buffers.join parts :=
  (Buffers.join_eq parts).symm

theorem u32be_eq_bigEndian (value : ℕ) : u32be value = Buffers.bigEndian 4 value := by
  have second : value / 2 ^ 8 = value / 256 := rfl
  have third : value / 2 ^ 16 = value / 256 / 256 := by omega
  have fourth : value / 2 ^ 24 = value / 256 / 256 / 256 := by omega
  rw [u32be, second, third, fourth]
  rfl

/-- The loop of `Util.u64be`. -/
theorem u64be_eq_writeDown (value : ℕ) :
    u64be value = Buffers.writeDown 8 (List.replicate 8 0) value := by
  rw [Buffers.writeDown_zeros, u64be, u32be_eq_bigEndian, u32be_eq_bigEndian]
  have high : value / 2 ^ 32 = value / 256 / 256 / 256 / 256 := by omega
  rw [high]
  rfl

@[simp] theorem length_u32be (value : ℕ) : (u32be value).length = 4 := rfl

@[simp] theorem length_u64be (value : ℕ) : (u64be value).length = 8 := rfl

end OpenSocial.Util

namespace OpenSocial.Sdk.PostIds

open Library

/-! ### The clients' byte writers -/

/-- A number, with the text it is shown as; one that is not finite has no value. -/
structure Number where
  value : Option ℚ
  shown : String

/-- `Number.isInteger`, with the integer. -/
def Number.integer (number : Number) : Option ℤ :=
  number.value.bind fun value => if value.den = 1 then some value.num else none

/-- What is given as an integer. -/
inductive Integer where
  | number (given : Number)
  | bigint (value : ℤ)
  | text (digits : String)

def Integer.shown : Integer → String
  | .number given => given.shown
  | .bigint value => toString value
  | .text digits => digits

/-- `toBigInt` of a number, a big integer or a text. -/
def toBigInt (value : Integer) (path : String) : Except SdkError ℤ :=
  match value with
  | .bigint value => .ok value
  | .number given =>
    match given.integer with
    | none => .error (.encoding (path ++ ": expected an integer"))
    | some value => .ok value
  | .text digits => Sdk.toBigInt digits path

/-- Concatenates byte arrays. -/
def concat (parts : List Bytes) : Bytes := Buffers.join parts

/-- Big-endian unsigned 32-bit integer. -/
def u32be (number : Number) : Except SdkError Bytes :=
  let refused := .error (.encoding
    ("u32be: " ++ number.shown ++ " is not an unsigned 32-bit integer"))
  match number.integer with
  | none => refused
  | some value =>
    if value < 0 ∨ 0xffffffff < value then refused else .ok (Buffers.bigEndian 4 value.toNat)

/-- Big-endian unsigned 64-bit integer. -/
def u64be (value : Integer) : Except SdkError Bytes := do
  let number ← toBigInt value "u64be"
  if number < 0 ∨ 0xffffffffffffffff < number then
    .error (.encoding ("u64be: " ++ value.shown ++ " is not an unsigned 64-bit integer"))
  else .ok (Buffers.bigEndian 8 number.toNat)

/-! ### The id of a post -/

/-- Bytes, or a text that stands for them. -/
inductive TextOrBytes where
  | text (encoded : String)
  | bytes (raw : Bytes)

structure PostIdInput where
  chainId : TextOrBytes
  protocolVersion : Option Number
  author : TextOrBytes
  sequence : Integer
  contentHash : Bytes

/-- The version of the protocol, as a number. -/
def currentVersion : Number := ⟨some PROTOCOL_VERSION, "1"⟩

section Identifiers

variable (encodings : Encodings)

/-- The 25 raw bytes of an address. -/
def addressToBytes (address : TextOrBytes) : Except SdkError Bytes :=
  match address with
  | .text encoded => Sdk.addressToBytes encodings encoded
  | .bytes bytes =>
    if bytes.length ≠ LIMITS.addressBytes then
      .error (.encoding ("address must be 25 bytes, got " ++ toString bytes.length))
    else .ok bytes

def chainIdToBytes (chainId : TextOrBytes) : Except SdkError Bytes :=
  match chainId with
  | .text encoded => Sdk.chainIdToBytes encodings encoded
  | .bytes bytes =>
    if bytes.length = 0 then .error (.encoding "chain id must not be empty") else .ok bytes

/-- The bytes that `postId` hashes. -/
def hashed (input : PostIdInput) : Except SdkError Bytes := do
  if input.contentHash.length ≠ LIMITS.hashBytes then
    .error (.encoding "contentHash must be 32 bytes")
  else do
    let number ← toBigInt input.sequence "sequence"
    if number < 1 then
      .error (.encoding
        "sequence is 1-based (spec 2.1); the first publication has sequence 1")
    else do
      let chain ← chainIdToBytes encodings input.chainId
      let version ← u32be (input.protocolVersion.getD currentVersion)
      let author ← addressToBytes encodings input.author
      let sequence ← u64be input.sequence
      .ok (concat [Util.str DOMAIN.POST_ID, chain, version, author, sequence, input.contentHash])

def postId (input : PostIdInput) : Except SdkError Bytes := do
  let bytes ← hashed encodings input
  .ok (encodings.sha256 bytes)

/-! ### What a sealed key is bound to -/

structure AudienceContext where
  author : TextOrBytes
  audienceId : Option Bytes
  epoch : Number

/-- `author || audience_id || u32be(epoch) || recipient` -/
def sealAad (context : AudienceContext) (recipient : TextOrBytes) : Except SdkError Bytes := do
  let author ← addressToBytes encodings context.author
  let epoch ← u32be context.epoch
  let recipient ← addressToBytes encodings recipient
  .ok (concat [author, context.audienceId.getD [], epoch, recipient])

end Identifiers

/-! ### What an input stands for -/

def Integer.value (integer : Integer) : Option ℤ := (toBigInt integer "").toOption

/-- The bytes given, or those its text stands for. -/
def TextOrBytes.value (decode : String → Option Bytes) : TextOrBytes → Option Bytes
  | .text encoded => decode encoded
  | .bytes raw => some raw

/-- An input for the id of this post, in the protocol's version. -/
structure InputOf (encodings : Encodings) (input : PostIdInput) (chainId : Bytes)
    (author : Address) (sequence : ℕ) (contentHash : Bytes) : Prop where
  chainId : input.chainId.value encodings.fromBase64url = some chainId
  version : input.protocolVersion.getD currentVersion = currentVersion
  author : input.author.value encodings.fromBase58 = some author.val
  sequence : input.sequence.value = some (sequence : ℤ)
  contentHash : input.contentHash = contentHash

theorem toBigInt_value {integer : Integer} {value : ℤ} (stands : integer.value = some value)
    (path : String) : toBigInt integer path = .ok value := by
  cases integer with
  | number given =>
    unfold Integer.value toBigInt at stands
    unfold toBigInt
    dsimp only at stands ⊢
    cases integer : given.integer with
    | none =>
      rw [integer] at stands
      exact absurd stands (by simp [Except.toOption])
    | some other =>
      rw [integer] at stands
      exact congrArg Except.ok (Option.some.inj stands)
  | bigint other => exact congrArg Except.ok (Option.some.inj stands)
  | text digits =>
    unfold Integer.value toBigInt Sdk.toBigInt at stands
    unfold toBigInt Sdk.toBigInt
    dsimp only at stands ⊢
    split at stands
    · exact congrArg Except.ok (Option.some.inj stands)
    · exact absurd stands (by simp [Except.toOption])

theorem u64be_value {integer : Integer} {value : ℕ} (stands : integer.value = some (value : ℤ))
    (fits : value < 2 ^ 64) : u64be integer = .ok (Util.u64be value) := by
  unfold u64be
  rw [toBigInt_value stands, Util.u64be_eq_writeDown, Buffers.writeDown_zeros]
  dsimp only [Bind.bind, Except.bind]
  rw [if_neg (by omega), Int.toNat_natCast]

theorem u32be_currentVersion :
    u32be currentVersion = .ok (Util.u32be Publications.PROTOCOL_VERSION) := by
  rfl

theorem addressToBytes_value {encodings : Encodings} {given : TextOrBytes} {address : Address}
    (stands : given.value encodings.fromBase58 = some address.val) :
    addressToBytes encodings given = .ok address.val := by
  cases given with
  | text encoded =>
    unfold addressToBytes Sdk.addressToBytes
    dsimp only
    rw [show encodings.fromBase58 encoded = some address.val from stands]
    exact if_neg (not_not.mpr address.property)
  | bytes raw =>
    cases Option.some.inj stands
    exact if_neg (not_not.mpr address.property)

theorem chainIdToBytes_value {encodings : Encodings} {given : TextOrBytes} {chainId : Bytes}
    (stands : given.value encodings.fromBase64url = some chainId) (present : chainId ≠ []) :
    chainIdToBytes encodings given = .ok chainId := by
  have length : ¬ chainId.length = 0 := mt List.length_eq_zero_iff.mp present
  cases given with
  | text encoded =>
    unfold chainIdToBytes Sdk.chainIdToBytes
    dsimp only
    rw [show encodings.fromBase64url encoded = some chainId from stands]
    exact if_neg length
  | bytes raw =>
    cases Option.some.inj stands
    exact if_neg length

/-! ### The same bytes, of one post only -/

/-- The clients hash the bytes that the contract hashes. -/
theorem hashed_eq {encodings : Encodings} {input : PostIdInput} {host : Host}
    {author : Address} {sequence : ℕ} {contentHash : Bytes}
    (stands : InputOf encodings input host.chainId author sequence contentHash)
    (present : host.chainId ≠ []) (positive : 1 ≤ sequence) (fits : sequence < 2 ^ 64)
    (length : contentHash.length = 32) :
    hashed encodings input =
      .ok (Publications.postIdPreimage host author.val sequence contentHash) := by
  unfold hashed
  rw [if_neg (not_not.mpr (by rw [stands.contentHash]; exact length)),
    toBigInt_value stands.sequence]
  dsimp only [Bind.bind, Except.bind]
  rw [if_neg (by omega), chainIdToBytes_value stands.chainId present]
  dsimp only
  rw [stands.version, u32be_currentVersion, addressToBytes_value stands.author,
    u64be_value stands.sequence fits, stands.contentHash]
  dsimp only
  rw [concat, ← Util.concat_eq_join]
  rfl

/-- The bytes hashed determine the chain, the author, the sequence and the content. -/
theorem postIdPreimage_inj {host other : Host} {author author' : Address}
    {sequence sequence' : ℕ} {contentHash contentHash' : Bytes} (fits : sequence < 2 ^ 64)
    (fits' : sequence' < 2 ^ 64) (length : contentHash.length = 32)
    (length' : contentHash'.length = 32)
    (same : Publications.postIdPreimage host author.val sequence contentHash =
      Publications.postIdPreimage other author'.val sequence' contentHash') :
    host.chainId = other.chainId ∧ author = author' ∧ sequence = sequence' ∧
      contentHash = contentHash' := by
  simp only [Publications.postIdPreimage, Util.concat, List.flatten_cons, List.flatten_nil,
    List.append_nil] at same
  -- Everything behind the chain id has the same length in both.
  have behind := List.append_cancel_left same
  obtain ⟨chainId, behind⟩ := List.append_inj' behind (by
    simp only [List.length_append, Util.length_u32be, Util.length_u64be, author.property,
      author'.property, length, length'])
  have behind := List.append_cancel_left behind
  obtain ⟨authors, behind⟩ := List.append_inj behind (by rw [author.property, author'.property])
  obtain ⟨sequences, contents⟩ := List.append_inj behind rfl
  exact ⟨chainId, Subtype.ext authors, Util.u64be_inj fits fits' sequences, contents⟩

theorem integer_eq {number : Number} {value : ℤ} (integer : number.integer = some value) :
    number.value = some (value : ℚ) := by
  obtain ⟨rational, found, whole⟩ := Option.bind_eq_some_iff.mp integer
  split at whole
  · next den =>
    rw [found, ← Option.some.inj whole, (Rat.den_eq_one_iff rational).mp den]
  · cases whole

theorem u32be_ok {number : Number} {bytes : Bytes} (answer : u32be number = .ok bytes) :
    ∃ value : ℕ, number.integer = some (value : ℤ) ∧ value < 2 ^ 32 ∧
      Buffers.bigEndian 4 value = bytes := by
  unfold u32be at answer
  dsimp only at answer
  split at answer
  · cases answer
  · next value integer =>
    split at answer
    · cases answer
    · next fits =>
      refine ⟨value.toNat, ?_, by omega, Except.ok.inj answer⟩
      rw [integer, Int.toNat_of_nonneg (by omega)]

theorem length_addressToBytes {encodings : Encodings} {given : TextOrBytes} {bytes : Bytes}
    (answer : addressToBytes encodings given = .ok bytes) : bytes.length = 25 := by
  cases given with
  | text encoded =>
    unfold addressToBytes Sdk.addressToBytes at answer
    dsimp only at answer
    split at answer
    · cases answer
    · split at answer
      · cases answer
      · next length =>
        cases answer
        exact not_not.mp length
  | bytes raw =>
    unfold addressToBytes at answer
    dsimp only at answer
    split at answer
    · cases answer
    · next length =>
      cases answer
      exact not_not.mp length

/-- What `sealAad` answers, with the parts it is made of. -/
theorem sealAad_parts {encodings : Encodings} {context : AudienceContext} {recipient : TextOrBytes}
    {bytes : Bytes} (answer : sealAad encodings context recipient = .ok bytes) :
    ∃ (author recipient' : Bytes) (epoch : ℕ),
      addressToBytes encodings context.author = .ok author ∧
      addressToBytes encodings recipient = .ok recipient' ∧ author.length = 25 ∧
      recipient'.length = 25 ∧ context.epoch.integer = some (epoch : ℤ) ∧ epoch < 2 ^ 32 ∧
      bytes = author ++ (context.audienceId.getD [] ++
        (Buffers.bigEndian 4 epoch ++ recipient')) := by
  obtain ⟨author, ofAuthor, answer⟩ := ok_of_bind answer
  obtain ⟨epoch, ofEpoch, answer⟩ := ok_of_bind answer
  obtain ⟨recipient', ofRecipient, answer⟩ := ok_of_bind answer
  obtain ⟨number, integer, small, rfl⟩ := u32be_ok ofEpoch
  refine ⟨author, recipient', number, ofAuthor, ofRecipient, length_addressToBytes ofAuthor,
    length_addressToBytes ofRecipient, integer, small, ?_⟩
  rw [← Except.ok.inj answer, concat, Buffers.join_eq]
  simp only [List.flatten_cons, List.flatten_nil, List.append_nil]

/-- The data bound to a sealed key determines the author, the audience, the epoch and the
recipient. -/
theorem sealAad_inj {encodings : Encodings} {context other : AudienceContext}
    {recipient recipient' : TextOrBytes} {bytes : Bytes}
    (first : sealAad encodings context recipient = .ok bytes)
    (second : sealAad encodings other recipient' = .ok bytes) :
    addressToBytes encodings context.author = addressToBytes encodings other.author ∧
      context.audienceId.getD [] = other.audienceId.getD [] ∧
      context.epoch.value = other.epoch.value ∧
      addressToBytes encodings recipient = addressToBytes encodings recipient' := by
  obtain ⟨author, last, epoch, ofAuthor, ofLast, length, length', integer, small, rfl⟩ :=
    sealAad_parts first
  obtain ⟨author', last', epoch', ofAuthor', ofLast', long, long', integer', small', same⟩ :=
    sealAad_parts second
  obtain ⟨authors, behind⟩ := List.append_inj same (length.trans long.symm)
  obtain ⟨audiences, behind⟩ := List.append_inj' behind (by
    rw [List.length_append, List.length_append, Buffers.length_bigEndian,
      Buffers.length_bigEndian, length', long'])
  obtain ⟨epochs, recipients⟩ := List.append_inj behind (by
    rw [Buffers.length_bigEndian, Buffers.length_bigEndian])
  have alike := Buffers.bigEndian_inj (by omega) (by omega) epochs
  refine ⟨by rw [ofAuthor, ofAuthor', authors], audiences, ?_, by rw [ofLast, ofLast', recipients]⟩
  rw [integer_eq integer, integer_eq integer', alike]

/-- The clients and the contract hash the same bytes into the id of a post, for any input that
stands for it; these bytes determine the chain, the author, the sequence and the content; and what
a sealed key is bound to determines its four parts. -/
theorem postId_unambiguous (encodings : Encodings) :
    (∀ (host : Host) (input : PostIdInput) (author : Address) (sequence : ℕ) (contentHash : Bytes),
      InputOf encodings input host.chainId author sequence contentHash → host.chainId ≠ [] →
      1 ≤ sequence → sequence < 2 ^ 64 → contentHash.length = 32 →
      ∃ bytes, hashed encodings input = .ok bytes ∧
        bytes = Publications.postIdPreimage host author.val sequence contentHash ∧
        postId encodings input = .ok (encodings.sha256 bytes) ∧
        Publications.computePostId host author.val sequence contentHash =
          Publications.sha256 host bytes) ∧
    (∀ (host other : Host) (author author' : Address) (sequence sequence' : ℕ)
      (contentHash contentHash' : Bytes), sequence < 2 ^ 64 → sequence' < 2 ^ 64 →
      contentHash.length = 32 → contentHash'.length = 32 →
      Publications.postIdPreimage host author.val sequence contentHash =
        Publications.postIdPreimage other author'.val sequence' contentHash' →
      host.chainId = other.chainId ∧ author = author' ∧ sequence = sequence' ∧
        contentHash = contentHash') ∧
    (∀ (context other : AudienceContext) (recipient recipient' : TextOrBytes) (bytes : Bytes),
      sealAad encodings context recipient = .ok bytes →
      sealAad encodings other recipient' = .ok bytes →
      addressToBytes encodings context.author = addressToBytes encodings other.author ∧
        context.audienceId.getD [] = other.audienceId.getD [] ∧
        context.epoch.value = other.epoch.value ∧
        addressToBytes encodings recipient = addressToBytes encodings recipient') := by
  refine ⟨?_, ?_, ?_⟩
  · intro host input author sequence contentHash stands present positive fits length
    have bytes := hashed_eq stands present positive fits length
    refine ⟨_, bytes, rfl, ?_, rfl⟩
    rw [postId, bytes]
    rfl
  · intro host other author author' sequence sequence' contentHash contentHash' fits fits' length
      length' same
    exact postIdPreimage_inj fits fits' length length' same
  · intro context other recipient recipient' bytes first second
    exact sealAad_inj first second

/-- Texts that stand for themselves. -/
def plainEncodings : Encodings :=
  ⟨id, fun text => some (Util.str text), fun _ => "", fun text => some (Util.str text), fun _ => ""⟩

/-- The first post of an account on a chain. -/
def firstPost : PostIdInput where
  chainId := .text "c"
  protocolVersion := none
  author := .bytes (List.replicate 25 7)
  sequence := .text "1"
  contentHash := List.replicate 32 9

/-- The chain with this id. -/
def chainHost (chainId : Bytes) : Host := ⟨[], chainId, id⟩

/-- An audience of the account at its third epoch. -/
def thirdEpoch (audienceId : Bytes) : AudienceContext :=
  ⟨.bytes (List.replicate 25 7), some audienceId, ⟨some 3, "3"⟩⟩

/-- The SDK hashes the preimage of the contract; the same post on a chain whose id is one byte
longer has another preimage; and so is a key bound to an audience whose id is one byte longer. -/
theorem postId_unambiguous_firstPost :
    (∃ bytes, hashed plainEncodings firstPost = .ok bytes ∧
      bytes = Publications.postIdPreimage (chainHost [99]) (List.replicate 25 7) 1
        (List.replicate 32 9) ∧
      postId plainEncodings firstPost = .ok (plainEncodings.sha256 bytes)) ∧
    Publications.postIdPreimage (chainHost [99]) (List.replicate 25 7) 1 (List.replicate 32 9) ≠
      Publications.postIdPreimage (chainHost [99, 0]) (List.replicate 25 7) 1
        (List.replicate 32 9) ∧
    sealAad plainEncodings (thirdEpoch [1]) (.bytes (List.replicate 25 8)) ≠
      sealAad plainEncodings (thirdEpoch [1, 0]) (.bytes (List.replicate 25 8)) := by
  obtain ⟨agree, determined, bound⟩ := postId_unambiguous plainEncodings
  obtain ⟨bytes, ofInput, preimage, id, _⟩ := agree (chainHost [99]) firstPost
    ⟨List.replicate 25 7, rfl⟩ 1 (List.replicate 32 9) ⟨by decide, rfl, rfl, by decide, rfl⟩
    (by decide) (by decide) (by decide) rfl
  refine ⟨⟨bytes, ofInput, preimage, id⟩, fun same => ?_, fun same => ?_⟩
  · have chains := (determined (chainHost [99]) (chainHost [99, 0]) ⟨List.replicate 25 7, rfl⟩
      ⟨List.replicate 25 7, rfl⟩ 1 1 (List.replicate 32 9) (List.replicate 32 9) (by decide)
      (by decide) rfl rfl same).1
    exact absurd chains (by decide)
  · have audiences := (bound (thirdEpoch [1]) (thirdEpoch [1, 0]) (.bytes (List.replicate 25 8))
      (.bytes (List.replicate 25 8)) _ rfl (same.symm.trans rfl)).2.1
    exact absurd audiences (by decide)

end OpenSocial.Sdk.PostIds

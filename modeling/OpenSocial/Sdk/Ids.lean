/-
This file models the identifiers the clients compute: addresses and chain ids from
their texts, the integers given as texts, and the id of a post.

The hash and the text encodings of bytes are parameters; a decoder that throws
gives nothing.
-/

import OpenSocial.Common.Util

namespace OpenSocial.Sdk

/-- What the clients use of the hash and encoding libraries. -/
structure Encodings where
  sha256 : Bytes → Bytes
  fromBase58 : String → Option Bytes
  toBase58 : Bytes → String
  fromBase64url : String → Option Bytes
  toBase64url : Bytes → String

/-- What the clients' encoders throw. -/
inductive SdkError where
  | encoding (message : String)
  | envelope (message : String)
  deriving DecidableEq, Repr

def PROTOCOL_VERSION : ℕ := 1

/-- A computation answers when both of its parts do. -/
theorem ok_of_bind {Error Value Result : Type} {first : Except Error Value}
    {rest : Value → Except Error Result} {result : Result}
    (answered : (first >>= rest) = .ok result) :
    ∃ value, first = .ok value ∧ rest value = .ok result := by
  cases first with
  | error error => cases answered
  | ok value => exact ⟨value, rfl, answered⟩

namespace DOMAIN

def POST_ID : String := "osp/v1/post-id"
def WRAP : String := "osp/v1/wrap"

end DOMAIN

namespace LIMITS

def maxEnvelopeBytes : ℕ := 4096
def maxMediaRefs : ℕ := 8
def maxLocationsPerRef : ℕ := 4
def maxLocationChars : ℕ := 256
def addressBytes : ℕ := 25
def hashBytes : ℕ := 32
def keyBytes : ℕ := 32
def nonceBytes : ℕ := 24

end LIMITS

/-- The bytes of a base64url text; an empty or malformed one has none. -/
def bytesOf (encodings : Encodings) (text : String) : Bytes :=
  if text = "" then [] else (encodings.fromBase64url text).getD []

/-! ### Integers -/

/-- The number of some decimal digits; no digits are no number. -/
def digits (text : List Char) : Option ℕ :=
  if text ≠ [] ∧ text.all Char.isDigit then
    some (text.foldl (fun number digit => 10 * number + (digit.toNat - '0'.toNat)) 0)
  else none

theorem digits_repr (number : ℕ) : digits number.repr.toList = some number := by
  rw [Nat.toList_repr, digits, if_pos]
  · exact congrArg some Nat.ofDigitChars_ten_toDigits
  · refine ⟨Nat.toDigits_ne_nil, List.all_eq_true.mpr fun digit member => ?_⟩
    exact Nat.isDigit_of_mem_toDigits (by decide) (by decide) member

/-- `toBigInt` of a text: `-?\d+`. -/
def toBigInt (text path : String) : Except SdkError ℤ :=
  let number : Option ℤ :=
    match text.toList with
    | '-' :: rest => (digits rest).map fun number => -(number : ℤ)
    | rest => (digits rest).map fun number => (number : ℤ)
  match number with
  | some number => .ok number
  | none => .error (.encoding (path ++
      ": expected an integer (number, bigint or decimal string)"))

/-- A `uint32` field of a number that comes from JSON. -/
def normalizeUint32 (path : String) (value : ℚ) : Except SdkError ℕ :=
  if value.den ≠ 1 then .error (.encoding (path ++ ": expected an integer"))
  else if value.num < 0 ∨ 0xffffffff < value.num then
    .error (.encoding (path ++ ": uint32 out of range"))
  else .ok value.num.toNat

/-- `u64be` of a text. -/
def u64be (text : String) : Except SdkError Bytes := do
  let number ← toBigInt text "u64be"
  if number < 0 ∨ 0xffffffffffffffff < number then
    .error (.encoding ("u64be: " ++ text ++ " is not an unsigned 64-bit integer"))
  else .ok (Util.u64be number.toNat)

/-! ### Identifiers -/

section Identifiers

variable (encodings : Encodings)

/-- The 25 raw bytes of an address. -/
def addressToBytes (address : String) : Except SdkError Bytes :=
  match encodings.fromBase58 address with
  | none => .error (.encoding "invalid base58")
  | some bytes =>
    if bytes.length ≠ LIMITS.addressBytes then
      .error (.encoding ("address must be 25 bytes, got " ++ toString bytes.length))
    else .ok bytes

def chainIdToBytes (chainId : String) : Except SdkError Bytes :=
  match encodings.fromBase64url chainId with
  | none => .error (.encoding "invalid base64url")
  | some bytes =>
    if bytes.length = 0 then .error (.encoding "chain id must not be empty") else .ok bytes

def contentHash (envelopeBytes : Bytes) : Bytes := encodings.sha256 envelopeBytes

/-- `postId`: the id of a post, from its author, its place among the author's posts and the hash of
its first envelope. -/
def postId (chainId author sequence : String) (contentHash : Bytes) : Except SdkError Bytes := do
  if contentHash.length ≠ LIMITS.hashBytes then
    .error (.encoding "contentHash must be 32 bytes")
  else do
    let number ← toBigInt sequence "sequence"
    if number < 1 then
      .error (.encoding
        "sequence is 1-based (spec 2.1); the first publication has sequence 1")
    else do
      let chain ← chainIdToBytes encodings chainId
      let address ← addressToBytes encodings author
      let place ← u64be sequence
      .ok (encodings.sha256 (Util.concat [Util.str DOMAIN.POST_ID, chain,
        Util.u32be PROTOCOL_VERSION, address, place, contentHash]))

end Identifiers

end OpenSocial.Sdk

/-
This file models the SDK's errors and its sponsor client: how an HTTP answer is
read, how a discovery document is checked, and how a sponsor's result is compared
with the transaction the user signed.

Everything here is a function of one answer. The signature and hash functions of
the chain library are parameters.
-/

import OpenSocial.Sdk.Json

namespace OpenSocial.Sdk

/-! ### Errors -/

/-- The refusal categories of a sponsor. -/
inductive SponsorErrorCategory where
  | quotaExceeded
  | methodNotAllowed
  | tooLarge
  | chainMismatch
  | invalidSignature
  | invalidTransaction
  | temporarilyUnavailable
  deriving DecidableEq, Repr

def SponsorErrorCategory.text : SponsorErrorCategory → String
  | .quotaExceeded => "quota_exceeded"
  | .methodNotAllowed => "method_not_allowed"
  | .tooLarge => "too_large"
  | .chainMismatch => "chain_mismatch"
  | .invalidSignature => "invalid_signature"
  | .invalidTransaction => "invalid_transaction"
  | .temporarilyUnavailable => "temporarily_unavailable"

/-- `SPONSOR_ERROR_CATEGORIES`. -/
def SPONSOR_ERROR_CATEGORIES : List SponsorErrorCategory :=
  [.quotaExceeded, .methodNotAllowed, .tooLarge, .chainMismatch, .invalidSignature,
    .invalidTransaction, .temporarilyUnavailable]

/-- The category a value names, if it names one. -/
def isCategory : Option Json → Option SponsorErrorCategory
  | some (.string text) => SPONSOR_ERROR_CATEGORIES.find? fun category => category.text == text
  | _ => none

def categoryForStatus (status : ℕ) : SponsorErrorCategory :=
  if status = 429 then .quotaExceeded
  else if status = 413 then .tooLarge
  else if status = 403 then .methodNotAllowed
  else if 500 ≤ status ∨ status = 408 then .temporarilyUnavailable
  else .invalidTransaction

/-- What a submission throws. `other` is an error of the chain library, the network or the signer,
known by its text only. -/
inductive ClientError where
  | sponsor (category : SponsorErrorCategory) (message : String) (status : Option ℕ)
      (endpoint : Option String)
  | outcomeUnknown (transaction receipt : Json)
  | reverted (transaction receipt : Json) (logs : List String)
  | insufficientMana (payer : String) (refusal : Option String)
  | protocol (message : String)
  | payment (message : String)
  | other (message : String)
  deriving DecidableEq

/-- `SponsorError` is what makes a pool move on. -/
def ClientError.isSponsor : ClientError → Bool
  | .sponsor _ _ _ _ => true
  | _ => false

def ClientError.message : ClientError → String
  | .sponsor _ message _ _ => message
  | .outcomeUnknown _ receipt =>
    "transaction outcome unknown: " ++ receipt.displayMember "rpc_error"
  | .reverted _ _ logs =>
    "transaction reverted" ++ (if logs = [] then "" else ": " ++ "; ".intercalate logs)
  | .insufficientMana payer refusal =>
    "Insufficient Mana to submit this transaction (payer " ++ payer ++ ")." ++
      refusal.elim " Configure a funded sponsor or fund the paying account."
        fun reason => " Sponsor declined: " ++ reason
  | .protocol message => message
  | .payment message => message
  | .other message => message

/-! ### HTTP answers -/

/-- The body of an answer, read as JSON. -/
inductive Body where
  | empty
  | malformed
  | json (value : Json)

/-- What a request to a sponsor ends with: no response, a response whose body cannot be read to
its end, or a response. -/
inductive Fetched where
  | unreachable (reason : String)
  | interrupted (reason : String)
  | answered (status : ℕ) (body : Body)

/-- `response.ok`. -/
def isOk (status : ℕ) : Bool := 200 ≤ status && status < 300

/-- What the body holds, if it holds JSON. -/
def Body.payload : Body → Option Json
  | .empty => none
  | .malformed => none
  | .json value => some value

/-- The `error` member of an answer. -/
def errorBody (payload : Option Json) : Option Json :=
  payload.bind fun value => value.truthyMember "error"

/-- The refusal an HTTP error or an error body stands for. -/
def refusal (endpoint : String) (status : ℕ) (error : Option Json) : ClientError :=
  .sponsor
    ((isCategory (error.bind fun value => value.get? "category")).getD (categoryForStatus status))
    ((error.bind fun value => value.get? "message").elim
      ("sponsor responded " ++ toString status)
      fun message => if let .string text := message then text
        else "sponsor responded " ++ toString status)
    (some status) (some endpoint)

/-- How the client reads the answer to a request. -/
def readAnswer (endpoint : String) : Fetched → Except ClientError (Option Json)
  | .unreachable reason =>
    .error (.sponsor .temporarilyUnavailable
      ("sponsor " ++ endpoint ++ " unreachable: " ++ reason) none (some endpoint))
  | .interrupted reason => .error (.other reason)
  | .answered status .malformed =>
    if isOk status then
      .error (.sponsor .temporarilyUnavailable "sponsor returned invalid JSON" (some status)
        (some endpoint))
    else .error (refusal endpoint status none)
  | .answered status body =>
    if !isOk status || (errorBody body.payload).isSome then
      .error (refusal endpoint status (errorBody body.payload))
    else .ok body.payload

/-! ### Discovery -/

/-- What the client takes from the chain library. -/
structure Koilib where
  /-- The id a header and operations hash to, or why it cannot be computed. -/
  transactionId : (header operations : Json) → Except String String
  /-- The address that signed a discovery document, unless recovering it throws. -/
  discoverySigner : (document : Json) → Option String

/-- One sponsor of a pool. -/
structure SponsorClient where
  endpoint : String
  expectedChainId : Option String
  deriving DecidableEq

/-- A discovery document that was accepted, with the sponsor's address. -/
structure SponsorDiscovery where
  sponsor : String
  document : Json

/-- The signature of a document is that of its sponsor. -/
def verifySponsorDiscovery (koilib : Koilib) (document : Json) (sponsor : String) : Bool :=
  match document.get? "signature" with
  | some (.string _) => koilib.discoverySigner document == some sponsor
  | _ => false

/-- The chain a document serves. -/
def servedChain (document : Json) : Option Json :=
  (document.member? "network").bind fun network => network.get? "chainId"

/-- `discover`: the checks on a fetched document. -/
def readDiscovery (koilib : Koilib) (client : SponsorClient) (fetched : Fetched) :
    Except ClientError SponsorDiscovery := do
  let payload ← readAnswer client.endpoint fetched
  match payload.bind fun document => (document.get? "sponsor").map fun sponsor =>
    (document, sponsor) with
  | some (document, .string sponsor) =>
    if !verifySponsorDiscovery koilib document sponsor then
      .error (.sponsor .invalidSignature
        "discovery document signature does not match the sponsor address" none
        (some client.endpoint))
    else if client.expectedChainId.any fun expected =>
        expected != "" && !Json.strictEqual (servedChain document) (some (.string expected)) then
      .error (.sponsor .chainMismatch
        ("sponsor serves chain " ++ (servedChain document).elim "undefined" Json.display) none
        (some client.endpoint))
    else .ok ⟨sponsor, document⟩
  | _ =>
    .error (.sponsor .invalidSignature "malformed discovery document" none (some client.endpoint))

/-! ### Verifying a sponsor's result -/

/-- The transaction id of a header and operations, recomputed without the network. -/
def recomputeTransactionId (koilib : Koilib) (transaction : Json) : Except String String :=
  match transaction.truthyMember "header" with
  | none =>
    .error "incomplete transaction header (chain_id, rc_limit, nonce and payer are required)"
  | some header =>
    if (header.truthyMember "chain_id").isNone || (header.get? "rc_limit").isNone ||
        (header.get? "nonce").isNone || (header.truthyMember "payer").isNone then
      .error "incomplete transaction header (chain_id, rc_limit, nonce and payer are required)"
    else do
      let id ← koilib.transactionId header
        (.array ((transaction.member? "operations").elim [] Json.items))
      if id = "" then .error "could not compute the transaction id" else .ok id

/-- Operations are compared by their canonical JSON. -/
def sameOperations (first second : Json) : Bool :=
  canonicalJson ((first.member? "operations").getD (.array [])) ==
    canonicalJson ((second.member? "operations").getD (.array []))

/-- Why a sponsor's result is not the transaction that was signed. -/
def resultMismatch (koilib : Koilib) (signed transaction receipt : Json) : Option String :=
  let header := (transaction.truthyMember "header").getD .null
  let signedHeader := (signed.member? "header").getD (.object [])
  let userSignatures := (signed.member? "signatures").elim [] Json.items
  let signatures := (transaction.member? "signatures").elim [] Json.items
  if (signed.truthyMember "id").isNone then some "the submitted transaction has no id"
  else if (transaction.truthyMember "header").isNone then some "no transaction header"
  else if !Json.strictEqual (transaction.get? "id") (signed.get? "id") then
    some ("id " ++ transaction.displayMember "id" ++ " != " ++ signed.displayMember "id")
  else if !Json.strictEqual (header.get? "payer") (signedHeader.get? "payer") then
    some "payer changed"
  else if !Json.strictEqual (some ((header.member? "payee").getD (.string "")))
      (some ((signedHeader.member? "payee").getD (.string ""))) then
    some "payee changed"
  else if !Json.strictEqual (header.get? "chain_id") (signedHeader.get? "chain_id") then
    some "chain id changed"
  else if !sameOperations transaction signed then some "operations changed"
  else match recomputeTransactionId koilib transaction with
    | .error reason => some ("header cannot be verified: " ++ reason)
    | .ok recomputed =>
      if !Json.strictEqual (some (.string recomputed)) (signed.get? "id") then
        some "header or operations do not hash to the signed id"
      else if signatures.length < userSignatures.length ||
          !(userSignatures.zip signatures).all fun pair =>
            Json.strictEqual (some pair.1) (some pair.2) then
        some "the user's signatures were altered or dropped"
      else if !receipt.isStructured then some "no receipt"
      else if !Json.strictEqual (receipt.get? "id") (signed.get? "id") then
        some ("receipt id " ++ receipt.displayMember "id" ++ " != " ++ signed.displayMember "id")
      else none

def verifySponsorResult (koilib : Koilib) (signed transaction receipt : Json) (endpoint : String) :
    Except ClientError Unit :=
  match resultMismatch koilib signed transaction receipt with
  | none => .ok ()
  | some reason =>
    .error (.sponsor .invalidTransaction
      ("sponsor returned a different transaction: " ++ reason) none (some endpoint))

/-- `sponsor`: the transaction and receipt an answer to a sponsoring request holds. -/
def readSponsored (koilib : Koilib) (client : SponsorClient) (signed : Json) (fetched : Fetched) :
    Except ClientError (Json × Json) := do
  let payload ← readAnswer client.endpoint fetched
  match payload.bind fun body => (body.truthyMember "transaction").bind fun transaction =>
    (body.truthyMember "receipt").map fun receipt => (transaction, receipt) with
  | some (transaction, receipt) => do
    verifySponsorResult koilib signed transaction receipt client.endpoint
    pure (transaction, receipt)
  | none =>
    .error (.sponsor .invalidTransaction "sponsor returned no transaction/receipt" none
      (some client.endpoint))

/-! ### Receipts -/

/-- The error of the chain library's receipt for a transaction whose outcome it does not know. -/
def rpcError (receipt : Json) : Option Json :=
  receipt.member? "rpc_error"

/-- The receipt reports a revert. -/
def isReverted (receipt : Json) : Bool :=
  (receipt.truthyMember "reverted").isSome

def assertReceiptKnown (transaction receipt : Json) : Except ClientError Unit :=
  if (rpcError receipt).isSome then .error (.outcomeUnknown transaction receipt) else .ok ()

/-- The error of a reverted transaction; logs that are a text cannot be joined. -/
def revertedError (transaction receipt : Json) : ClientError :=
  match receipt.member? "logs" with
  | some (.array logs) => .reverted transaction receipt (logs.map Json.display)
  | some (.string text) =>
    if text = "" then .reverted transaction receipt [] else .other "logs.join is not a function"
  | _ => .reverted transaction receipt []

def assertNotReverted (transaction receipt : Json) : Except ClientError Unit :=
  if isReverted receipt then .error (revertedError transaction receipt) else .ok ()

end OpenSocial.Sdk

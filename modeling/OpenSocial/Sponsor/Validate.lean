/-
This file models what the sponsor service accepts: the actor each method is bound
to, the inspection of operations, and the validation of a signed transaction.

Only the lookup of an identity's owner and the chain library's asynchronous
functions make the service wait; they are requests of the program. The library's
hash and signature functions are parameters.
-/

import OpenSocial.Common.Util
import OpenSocial.Library.Tasks
import OpenSocial.Sdk.Sponsor

namespace OpenSocial.Sponsor

open Library Sdk

/-! ### Refusals -/

def STATUS_FOR_CATEGORY : SponsorErrorCategory → ℕ
  | .quotaExceeded => 429
  | .methodNotAllowed => 403
  | .tooLarge => 413
  | .chainMismatch => 400
  | .invalidSignature => 400
  | .invalidTransaction => 400
  | .temporarilyUnavailable => 503

/-- A typed refusal with the details the server sends along. -/
structure SponsorRefusal where
  category : SponsorErrorCategory
  message : String
  logs : Option (List String) := none
  retryAfterSec : Option ℕ := none
  receipt : Option Json := none
  deriving DecidableEq

def SponsorRefusal.status (refusal : SponsorRefusal) : ℕ :=
  STATUS_FOR_CATEGORY refusal.category

/-! ### Policy -/

/-- The argument that names the acting account of a method; `some none` marks a method anyone may
call, and `none` a method without an entry. -/
def ACTOR_FIELDS (contract method : String) : Option (Option String) :=
  match contract, method with
  | "messaging", "request_conversation" => some (some "actor")
  | "messaging", "accept_conversation" => some (some "actor")
  | "messaging", "close_conversation" => some (some "actor")
  | "messaging", "send_message" => some (some "sender")
  | "token", "support" => some (some "actor")
  | "token", "transfer" => some (some "from")
  | "token", "burn" => some (some "from")
  | "identity", "register" => some (some "account")
  | "identity", "update_profile" => some (some "account")
  | "identity", "rotate_encryption_key" => some (some "account")
  | "identity", "authorize_device" => some (some "account")
  | "identity", "revoke_device" => some (some "account")
  | "identity", "set_recovery_policy" => some (some "account")
  | "identity", "apply_recovery_policy" => some (some "account")
  | "identity", "cancel_recovery_policy" => some (some "account")
  | "identity", "propose_recovery" => some (some "guardian")
  | "identity", "cancel_recovery" => some (some "account")
  | "identity", "execute_recovery" => some none
  | "relationships", "request_friend" => some (some "requester")
  | "relationships", "accept_friend" => some (some "approver")
  | "relationships", "remove_friend" => some (some "actor")
  | "relationships", "block" => some (some "actor")
  | "relationships", "unblock" => some (some "actor")
  | "relationships", "follow" => some (some "follower")
  | "relationships", "unfollow" => some (some "follower")
  | "relationships", "rotate_audience" => some (some "actor")
  | "publications", "publish" => some (some "author")
  | "publications", "set_lifecycle" => some (some "author")
  | "publications", "react" => some (some "actor")
  | "publications", "distribute_keys" => some (some "author")
  | "publications", "record_cross_post" => some (some "author")
  | "communities", "create_community" => some (some "creator")
  | "communities", "set_role" => some (some "actor")
  | "communities", "set_policy" => some (some "actor")
  | "communities", "propose_owner_transfer" => some (some "owner")
  | "communities", "cancel_owner_transfer" => some (some "owner")
  | "communities", "execute_owner_transfer" => some none
  | "communities", "set_label" => some (some "actor")
  | "sponsorship", "set_sponsor" => some (some "sponsor")
  | "sponsorship", "deactivate_sponsor" => some (some "sponsor")
  | "sponsorship", "set_user_grant" => some (some "sponsor")
  | "sponsorship", "revoke_user_grant" => some (some "sponsor")
  | _, _ => none

/-- Methods whose `device` argument is the subject of the call. -/
def DEVICE_IS_SUBJECT : List String :=
  ["identity.authorize_device", "identity.revoke_device"]

def deviceMaySign (contract method : String) : Bool :=
  !DEVICE_IS_SUBJECT.contains (contract ++ "." ++ method)

def ACTOR_FIELD_PRIORITY : List String :=
  ["account", "author", "actor", "requester", "approver", "follower", "creator", "owner", "sponsor",
    "guardian"]

/-- A member that holds a text. -/
def textMember (value : Json) (key : String) : Option String :=
  match value.get? key with
  | some (.string text) => some text
  | _ => none

def actorField (contract method : String) (args : Json) : Option String :=
  (ACTOR_FIELDS contract method).getD
    (ACTOR_FIELD_PRIORITY.find? fun field => (textMember args field).isSome)

structure AllowedMethod where
  contract : String
  address : String
  method : String
  entryPoint : ℕ
  deriving DecidableEq

/-- `Allowlist.lookup`: of two entries for one entry point the later one stands. -/
def lookupAllowed (allowlist : List AllowedMethod) (address : String) (entryPoint : ℕ) :
    Option AllowedMethod :=
  (allowlist.filter fun entry => entry.address == address && entry.entryPoint == entryPoint).getLast?

/-! ### Context -/

/-- An operation as the contracts' schemas decode it. -/
structure DecodedOperation where
  contract : String
  method : String
  entryPoint : ℕ
  args : Json

structure ValidationLimits where
  maxBytesPerOp : ℕ
  maxRcPerOp : ℕ
  maxOpsPerTx : ℕ

/-- What the service takes from the chain library and the contracts' schemas. -/
structure ChainLibrary where
  fromBase58 : String → Option Bytes
  decodeBase64url : String → Option Bytes
  decodeOperation : (contractId : String) → (entryPoint : ℕ) → (args : String) →
    Option DecodedOperation
  /-- The merkle root that `prepareTransaction` puts in a header. -/
  operationMerkleRoot : (header operations : Json) → Except String String
  computeTransactionId : (header : Json) → Except String String
  recoverAddresses : (transaction : Json) → Except String (List String)

structure ValidationContext where
  chain : ChainLibrary
  sponsor : String
  chainId : String
  allowlist : List AllowedMethod
  limits : ValidationLimits
  /-- Whether `ownerOf` is given; the service always gives it. -/
  looksUpOwners : Bool := true

structure ValidatedOperation where
  index : ℕ
  contract : String
  method : String
  entryPoint : ℕ
  contractId : String
  argsBytes : ℕ
  actor : Option String
  operation : Json

structure ValidatedTransaction where
  transaction : Json
  payee : String
  operations : List ValidatedOperation
  signers : List String

/-- `MAX_SIGNATURES`. -/
def MAX_SIGNATURES : ℕ := 8

/-! ### Operations -/

def isRecord : Json → Bool
  | .object _ => true
  | _ => false

/-- A value that is the text of an address. -/
def isAddress (chain : ChainLibrary) : Json → Option String
  | .string text =>
    if text ≠ "" ∧ (chain.fromBase58 text).map List.length = some 25 then some text else none
  | _ => none

/-- Base64url text with at most two padding signs. -/
def isBase64urlText (text : String) : Bool :=
  let reversed := text.toList.reverse
  let padding := reversed.takeWhile fun character => character == '='
  let body := reversed.dropWhile fun character => character == '='
  padding.length ≤ 2 && !body.isEmpty &&
    body.all fun character => character.isAlphanum || character == '_' || character == '-'

def refuse {Value : Type} (category : SponsorErrorCategory) (message : String) :
    Except SponsorRefusal Value :=
  .error { category := category, message := message }

/-- `argsLength`. -/
def argsLength (chain : ChainLibrary) (args : Option Json) (index : ℕ) :
    Except SponsorRefusal ℕ :=
  let malformed := "operation " ++ toString index ++ ": args must be base64url text"
  match args with
  | none => .ok 0
  | some .null => .ok 0
  | some (.string text) =>
    if text = "" then .ok 0
    else if isBase64urlText text then
      (chain.decodeBase64url text).elim (refuse .invalidTransaction malformed)
        fun bytes => .ok bytes.length
    else refuse .invalidTransaction malformed
  | some _ => refuse .invalidTransaction malformed

/-- A number that is an unsigned integer. -/
def unsignedInteger : Json → Option ℕ
  | .number value => if value.den = 1 ∧ 0 ≤ value.num then some value.num.toNat else none
  | _ => none

/-- An actor that is neither the payee nor a signing device. -/
structure PendingOwnerCheck where
  index : ℕ
  contract : String
  method : String
  field : String
  account : String

def actorMismatch (check : PendingOwnerCheck) (payee : String) (device : Option String) :
    SponsorRefusal where
  category := .invalidTransaction
  message := "operation " ++ toString check.index ++ ": " ++ check.contract ++ "." ++ check.method ++
    "." ++ check.field ++ " (" ++ check.account ++ ") must equal the payee " ++ payee ++
    (if device.isSome then " (or the device must)" else " (or the payee must be its current owner)")

/-- The device that signs an operation, where the method lets one sign. -/
def signingDevice (decoded : DecodedOperation) : Option String :=
  if deviceMaySign decoded.contract decoded.method then
    (textMember decoded.args "device").filter fun text => text != "" else none

/-- The actor of a decoded operation, or the check of it that needs the chain. -/
def bindActor (looksUp : Bool) (decoded : DecodedOperation) (payee : String) (index : ℕ) :
    Except SponsorRefusal (Option String × Option PendingOwnerCheck) :=
  match actorField decoded.contract decoded.method decoded.args with
  | none => .ok (none, none)
  | some field =>
    let device := signingDevice decoded
    match (textMember decoded.args field).filter fun text => text != "" with
    | none => refuse .invalidTransaction ("operation " ++ toString index ++ ": " ++
        decoded.contract ++ "." ++ decoded.method ++ "." ++ field ++ " is required")
    | some value =>
      let check : PendingOwnerCheck := ⟨index, decoded.contract, decoded.method, field, value⟩
      if value = payee then .ok (some value, none)
      else if device = some payee then .ok (device, none)
      else if device.isNone && looksUp then .ok (none, some check)
      else .error (actorMismatch check payee device)

/-- One operation: its shape, the allowlist, its size, its arguments and its actor. -/
def inspectOperation (context : ValidationContext) (payee : String) (index : ℕ) (raw : Json) :
    Except SponsorRefusal (ValidatedOperation × Option PendingOwnerCheck) := do
  let operation := "operation " ++ toString index ++ ": "
  let members ← match raw with
    | .object members => .ok members
    | _ => refuse .invalidTransaction (operation ++ "not an object")
  let call ← match members with
    | [("call_contract", .object call)] => .ok (Json.object call)
    | _ => refuse .methodNotAllowed (operation ++ "only call_contract operations are sponsored")
  let contractId ← ((call.get? "contract_id").bind (isAddress context.chain)).elim
    (refuse .invalidTransaction (operation ++ "contract_id is not an address")) .ok
  let entryPoint ← ((call.get? "entry_point").bind unsignedInteger).elim
    (refuse .invalidTransaction (operation ++ "entry_point must be an unsigned integer")) .ok
  let allowed ← (lookupAllowed context.allowlist contractId entryPoint).elim
    (refuse .methodNotAllowed (operation ++ contractId ++ " entry point " ++ toString entryPoint ++
      " is not sponsored")) .ok
  let name := allowed.contract ++ "." ++ allowed.method
  let bytes ← argsLength context.chain (call.get? "args") index
  if context.limits.maxBytesPerOp < bytes then
    refuse .tooLarge (operation ++ name ++ " args are " ++ toString bytes ++ " bytes (limit " ++
      toString context.limits.maxBytesPerOp ++ ")")
  else do
    let args := (textMember call "args").getD ""
    let rebuilt := Json.object [("contract_id", .string contractId),
      ("entry_point", .number entryPoint), ("args", .string args)]
    let decoded ← (context.chain.decodeOperation contractId entryPoint args).elim
      (refuse .invalidTransaction (operation ++ name ++ " arguments do not decode")) .ok
    if decoded.method ≠ allowed.method ∨ decoded.contract ≠ allowed.contract then
      refuse .methodNotAllowed (operation ++ "entry point resolves to " ++ decoded.contract ++ "." ++
        decoded.method)
    else do
      let (actor, pending) ← bindActor context.looksUpOwners decoded payee index
      pure (⟨index, decoded.contract, decoded.method, decoded.entryPoint, contractId, bytes, actor,
        rebuilt⟩, pending)

/-- The operations from this index on. -/
def inspectFrom (context : ValidationContext) (payee : String) (index : ℕ) :
    List Json → Except SponsorRefusal (List ValidatedOperation × List PendingOwnerCheck)
  | [] => .ok ([], [])
  | raw :: rest => do
    let (operation, pending) ← inspectOperation context payee index raw
    let (operations, later) ← inspectFrom context payee (index + 1) rest
    pure (operation :: operations, pending.toList ++ later)

/-- `inspectOperations`. -/
def inspectOperations (context : ValidationContext) (operations : Option Json) (payee : String) :
    Except SponsorRefusal (List ValidatedOperation × List PendingOwnerCheck) :=
  let items := operations.elim [] Json.items
  if items = [] then
    refuse .invalidTransaction "transaction must contain at least one operation"
  else if context.limits.maxOpsPerTx < items.length then
    refuse .tooLarge ("at most " ++ toString context.limits.maxOpsPerTx ++
      " operations per transaction (got " ++ toString items.length ++ ")")
  else inspectFrom context payee 0 items

/-! ### Transactions -/

/-- A decimal text of digits only. -/
def decimalText (text : String) : Option ℕ :=
  if text ≠ "" ∧ text.toList.all Char.isDigit then
    some (text.toList.foldl (fun total digit => total * 10 + (digit.toNat - '0'.toNat)) 0)
  else none

/-- `parseRcLimit`. -/
def parseRcLimit (value : Option Json) : Except SponsorRefusal ℕ :=
  let parsed := value.bind fun value =>
    match value with
    | .string text => decimalText text
    | other => unsignedInteger other
  parsed.elim (refuse .invalidTransaction "header.rc_limit must be an unsigned integer") .ok

/-- A header member that must be a text other than the empty one. -/
def requiredText (header : Json) (key : String) : Except SponsorRefusal String :=
  ((textMember header key).filter fun text => text != "").elim
    (refuse .invalidTransaction ("header." ++ key ++ " is required")) .ok

/-- What a validated header gives: the payee, and the members of the header the service keeps. -/
structure CheckedHeader where
  payee : String
  nonce : String
  operationMerkleRoot : String

def checkHeader (context : ValidationContext) (header : Json) :
    Except SponsorRefusal CheckedHeader := do
  if header.get? "chain_id" ≠ some (.string context.chainId) then
    refuse .chainMismatch ("transaction is for chain " ++
      (header.member? "chain_id").elim "(none)" Json.display ++ "; this sponsor serves " ++
      context.chainId)
  else if header.get? "payer" ≠ some (.string context.sponsor) then
    refuse .invalidTransaction ("header.payer must be the sponsor " ++ context.sponsor)
  else do
    let payee ← ((header.get? "payee").bind (isAddress context.chain)).elim
      (refuse .invalidTransaction "header.payee must be the user's address") .ok
    if payee = context.sponsor then
      refuse .invalidTransaction "header.payee must not be the sponsor"
    else do
      let nonce ← requiredText header "nonce"
      let operationMerkleRoot ← requiredText header "operation_merkle_root"
      pure ⟨payee, nonce, operationMerkleRoot⟩

/-- The header the service signs. -/
def cleanHeader (context : ValidationContext) (rcLimit : Json) (checked : CheckedHeader) : Json :=
  .object [("chain_id", .string context.chainId), ("rc_limit", rcLimit),
    ("nonce", .string checked.nonce),
    ("operation_merkle_root", .string checked.operationMerkleRoot),
    ("payer", .string context.sponsor), ("payee", .string checked.payee)]

/-- The operations the service signs. -/
def rebuiltOperations (operations : List ValidatedOperation) : Json :=
  .array (operations.map fun validated => .object [("call_contract", validated.operation)])

def userSignatures (input : Json) : Except SponsorRefusal (List String) :=
  let texts := ((input.get? "signatures").elim [] Json.items).map fun item =>
    match item with
    | .string text => if text = "" then none else some text
    | _ => none
  if texts = [] ∨ texts.any Option.isNone then
    refuse .invalidSignature "transaction carries no user signature"
  else if MAX_SIGNATURES < texts.length then
    refuse .invalidTransaction ("at most " ++ toString MAX_SIGNATURES ++ " signatures are accepted")
  else .ok (texts.filterMap id)

/-- The transaction the service signs. -/
def rebuiltTransaction (id : String) (header operations : Json) (signatures : List String) : Json :=
  .object [("id", .string id), ("header", header), ("operations", operations),
    ("signatures", .array (signatures.map Json.string))]

/-- An error of the chain library, as the refusal the service makes of it. -/
def orRefuse {Value : Type} (category : SponsorErrorCategory) (prefixed : String)
    (result : Except String Value) : Except SponsorRefusal Value :=
  result.mapError fun message => { category := category, message := prefixed ++ message }

section Programs

variable {Request : Type} {Answer : Request → Type} {Failure : Type}

/-- The owner of an account, asked unless it is known already. -/
def knownOwner (fails : SponsorRefusal → Failure)
    (ownerOf : String → Program Request Answer Failure (Except String (Option String)))
    (owners : List (String × Option String)) (account : String) :
    Program Request Answer Failure (Option String) :=
  match owners.lookup account with
  | some owner => pure owner
  | none => do
    match ← ownerOf account with
    | .ok owner => pure owner
    | .error message => .fail (fails
        { category := .temporarilyUnavailable
          message := "cannot resolve the owner of " ++ account ++ ": " ++ message })

/-- `resolveOwners`: the owner of each pending account, asked once, must be the payee. -/
def resolveOwners (fails : SponsorRefusal → Failure)
    (ownerOf : String → Program Request Answer Failure (Except String (Option String)))
    (payee : String) :
    List PendingOwnerCheck → List (String × Option String) → List ValidatedOperation →
      Program Request Answer Failure (List ValidatedOperation)
  | [], _, operations => pure operations
  | check :: rest, owners, operations => do
    let owner ← knownOwner fails ownerOf owners check.account
    if owner = some payee then
      resolveOwners fails ownerOf payee rest ((check.account, owner) :: owners)
        (operations.modify check.index fun operation =>
          { operation with actor := some check.account })
    else .fail (fails (actorMismatch check payee none))

/-- `validateTransaction`; `wait` is where the chain library answers asynchronously. -/
def validateTransaction (fails : SponsorRefusal → Failure) (wait : Program Request Answer Failure Unit)
    (ownerOf : String → Program Request Answer Failure (Except String (Option String)))
    (context : ValidationContext) (input : Json) :
    Program Request Answer Failure ValidatedTransaction := do
  let run {Value : Type} (result : Except SponsorRefusal Value) :
      Program Request Answer Failure Value := Program.lift (result.mapError fails)
  run (if isRecord input then .ok () else
    refuse .invalidTransaction "transaction must be an object")
  let header ← run (((input.get? "header").filter isRecord).elim
    (refuse .invalidTransaction "transaction.header is required") .ok)
  let checked ← run (checkHeader context header)
  let (operations, pending) ← run (inspectOperations context (input.get? "operations")
    checked.payee)
  let rcLimit ← run (parseRcLimit (header.get? "rc_limit"))
  run (if context.limits.maxRcPerOp * operations.length < rcLimit then
    refuse .tooLarge ("rc_limit " ++ toString rcLimit ++ " exceeds " ++
      toString context.limits.maxRcPerOp ++ " x " ++ toString operations.length ++ " operations")
    else .ok ())
  let clean := cleanHeader context ((header.get? "rc_limit").getD .null) checked
  let rebuilt := rebuiltOperations operations
  wait
  let root ← run (orRefuse .invalidTransaction "transaction cannot be encoded: "
    (context.chain.operationMerkleRoot clean rebuilt))
  run (if root ≠ checked.operationMerkleRoot then
    refuse .invalidSignature "header.operation_merkle_root does not match the operations" else .ok ())
  let expectedId ← run (orRefuse .invalidTransaction "transaction header cannot be encoded: "
    (context.chain.computeTransactionId clean))
  run (if input.get? "id" ≠ some (.string expectedId) then
    refuse .invalidSignature "transaction id does not match its header" else .ok ())
  let signatures ← run (userSignatures input)
  let transaction := rebuiltTransaction expectedId clean rebuilt signatures
  wait
  let signers ← run (orRefuse .invalidSignature "signature cannot be recovered: "
    (context.chain.recoverAddresses transaction))
  run (if !signers.contains checked.payee then
    refuse .invalidSignature ("no signature recovers to the payee " ++ checked.payee)
    else if signers.contains context.sponsor then
      refuse .invalidTransaction "transaction already carries the sponsor signature"
    else .ok ())
  let resolved ← resolveOwners fails ownerOf checked.payee pending [] operations
  pure ⟨transaction, checked.payee, resolved, signers⟩

end Programs

/-! ### What a validated transaction is -/

/-- Everything the validation of a transaction established. -/
inductive Accepted (context : ValidationContext) (input : Json) : ValidatedTransaction → Prop
  | intro {header : Json} {checked : CheckedHeader} {operations resolved : List ValidatedOperation}
      {pending : List PendingOwnerCheck} {rcLimit : ℕ} {expectedId : String}
      {signatures signers : List String}
      (present : (input.get? "header").filter isRecord = some header)
      (headed : checkHeader context header = .ok checked)
      (inspected : inspectOperations context (input.get? "operations") checked.payee =
        .ok (operations, pending))
      (parsed : parseRcLimit (header.get? "rc_limit") = .ok rcLimit)
      (bounded : rcLimit ≤ context.limits.maxRcPerOp * operations.length)
      (root : context.chain.operationMerkleRoot
        (cleanHeader context ((header.get? "rc_limit").getD .null) checked)
        (rebuiltOperations operations) = .ok checked.operationMerkleRoot)
      (hashed : context.chain.computeTransactionId
        (cleanHeader context ((header.get? "rc_limit").getD .null) checked) = .ok expectedId)
      (named : input.get? "id" = some (.string expectedId))
      (signed : userSignatures input = .ok signatures)
      (counted : resolved.length = operations.length) :
      Accepted context input
        ⟨rebuiltTransaction expectedId
          (cleanHeader context ((header.get? "rc_limit").getD .null) checked)
          (rebuiltOperations operations) signatures, checked.payee, resolved, signers⟩

section Accepted

variable {Request : Type} {Answer : Request → Type} {Failure Ghost : Type}
  {protocol : Runtime.Protocol Request Answer Ghost} {ghost : Ghost}

/-- A program that leaves the ghost state as it is. -/
def Still {Value : Type} (protocol : Runtime.Protocol Request Answer Ghost) (ghost : Ghost)
    (program : Program Request Answer Failure Value) : Prop :=
  protocol.Follows (fun _ later => later = ghost) program ghost

theorem orRefuse_eq_ok {Value : Type} {category : SponsorErrorCategory} {prefixed : String}
    {result : Except String Value} {value : Value} :
    orRefuse category prefixed result = .ok value ↔ result = .ok value := by
  cases result with
  | ok other => exact ⟨fun same => congrArg _ (Except.ok.inj same),
      fun same => congrArg _ (Except.ok.inj same)⟩
  | error message =>
    constructor
    · intro impossible
      cases impossible
    · intro impossible
      cases impossible

/-- A check passes exactly where it does not refuse. -/
theorem check_eq_ok {condition : Prop} [Decidable condition] {category : SponsorErrorCategory}
    {message : String} {rest : Except SponsorRefusal Unit} {value : Unit} :
    (if condition then refuse category message else rest) = .ok value ↔
      ¬ condition ∧ rest = .ok value := by
  split
  · next holds =>
    constructor
    · intro impossible
      cases impossible
    · intro both
      exact absurd holds both.1
  · next fails => exact ⟨fun passed => ⟨fails, passed⟩, fun both => both.2⟩

theorem elim_eq_ok {First Value : Type} {found : Option First} {category : SponsorErrorCategory}
    {message : String} {next : First → Except SponsorRefusal Value} {value : Value} :
    found.elim (refuse category message) next = .ok value ↔
      ∃ first, found = some first ∧ next first = .ok value := by
  cases found with
  | none =>
    constructor
    · intro impossible
      cases impossible
    · rintro ⟨first, impossible, _⟩
      cases impossible
  | some first =>
    constructor
    · intro passed
      exact ⟨first, rfl, passed⟩
    · rintro ⟨other, same, passed⟩
      obtain rfl := Option.some.inj same
      exact passed

theorem still_knownOwner {fails : SponsorRefusal → Failure}
    {ownerOf : String → Program Request Answer Failure (Except String (Option String))}
    (asking : ∀ account, Still protocol ghost (ownerOf account))
    (owners : List (String × Option String)) (account : String) :
    Still protocol ghost (knownOwner fails ownerOf owners account) := by
  unfold knownOwner
  cases owners.lookup account with
  | some owner => exact rfl
  | none =>
    refine (asking account).seq (fun failure later same => same) ?_
    rintro (message | owner) later same
    · exact same
    · exact same

/-- Resolving owners asks for owners only and keeps the number of operations. -/
theorem follows_resolveOwners {fails : SponsorRefusal → Failure}
    {ownerOf : String → Program Request Answer Failure (Except String (Option String))}
    (asking : ∀ account, Still protocol ghost (ownerOf account)) (payee : String)
    (pending : List PendingOwnerCheck) (owners : List (String × Option String))
    (operations : List ValidatedOperation) :
    protocol.Follows (fun ending later => later = ghost ∧
        ∀ resolved, ending = .ok resolved → resolved.length = operations.length)
      (resolveOwners fails ownerOf payee pending owners operations) ghost := by
  have failing : ∀ (failure : Failure) (resolved : List ValidatedOperation),
      Except.error failure = Except.ok resolved → resolved.length = operations.length :=
    fun failure resolved impossible => by cases impossible
  induction pending generalizing owners operations with
  | nil =>
    refine ⟨rfl, fun resolved same => ?_⟩
    obtain rfl := Except.ok.inj same
    rfl
  | cons check rest inductionHypothesis =>
    unfold resolveOwners
    refine (still_knownOwner asking owners check.account).seq
      (fun failure later same => ⟨same, failing failure⟩) ?_
    rintro owner later rfl
    split
    · refine (inductionHypothesis _ _ fun failure resolved impossible => ?_).weaken ?_
      · cases impossible
      · rintro ending final ⟨same, counted⟩
        refine ⟨same, fun resolved ended => ?_⟩
        rw [counted resolved ended, List.length_modify]
    · exact ⟨rfl, failing _⟩

/-- Validation waits and asks for owners only, and accepts what it has established. -/
theorem follows_validateTransaction {fails : SponsorRefusal → Failure}
    {wait : Program Request Answer Failure Unit}
    {ownerOf : String → Program Request Answer Failure (Except String (Option String))}
    (waiting : Still protocol ghost wait) (asking : ∀ account, Still protocol ghost (ownerOf account))
    (context : ValidationContext) (input : Json) :
    protocol.Follows (fun ending later => later = ghost ∧
        ∀ accepted, ending = .ok accepted → Accepted context input accepted)
      (validateTransaction fails wait ownerOf context input) ghost := by
  have failing : ∀ (failure : Failure) (accepted : ValidatedTransaction),
      Except.error failure = Except.ok accepted → Accepted context input accepted :=
    fun failure accepted impossible => by cases impossible
  unfold validateTransaction
  dsimp only
  refine .lift_seq (fun failure _ => ⟨rfl, failing failure⟩) fun _ _ => ?_
  refine .lift_seq (fun failure _ => ⟨rfl, failing failure⟩) fun record passed => ?_
  obtain ⟨header, present, same⟩ := elim_eq_ok.mp (mapError_eq_ok.mp passed)
  obtain rfl := Except.ok.inj same
  refine .lift_seq (fun failure _ => ⟨rfl, failing failure⟩) fun checked headed => ?_
  have headed := mapError_eq_ok.mp headed
  refine .lift_seq (fun failure _ => ⟨rfl, failing failure⟩) fun found inspected => ?_
  obtain ⟨operations, pending⟩ := found
  have inspected := mapError_eq_ok.mp inspected
  refine .lift_seq (fun failure _ => ⟨rfl, failing failure⟩) fun rcLimit parsed => ?_
  have parsed := mapError_eq_ok.mp parsed
  refine .lift_seq (fun failure _ => ⟨rfl, failing failure⟩) fun _ bounded => ?_
  have bounded := not_lt.mp (check_eq_ok.mp (mapError_eq_ok.mp bounded)).1
  refine waiting.seq (fun failure later same => ⟨same, failing failure⟩) ?_
  rintro _ later rfl
  refine .lift_seq (fun failure _ => ⟨rfl, failing failure⟩) fun root hashing => ?_
  have hashing := orRefuse_eq_ok.mp (mapError_eq_ok.mp hashing)
  refine .lift_seq (fun failure _ => ⟨rfl, failing failure⟩) fun _ matched => ?_
  obtain rfl := not_not.mp (check_eq_ok.mp (mapError_eq_ok.mp matched)).1
  refine .lift_seq (fun failure _ => ⟨rfl, failing failure⟩) fun expectedId hashed => ?_
  have hashed := orRefuse_eq_ok.mp (mapError_eq_ok.mp hashed)
  refine .lift_seq (fun failure _ => ⟨rfl, failing failure⟩) fun _ named => ?_
  have named := not_not.mp (check_eq_ok.mp (mapError_eq_ok.mp named)).1
  refine .lift_seq (fun failure _ => ⟨rfl, failing failure⟩) fun signatures signed => ?_
  have signed := mapError_eq_ok.mp signed
  refine waiting.seq (fun failure later same => ⟨same, failing failure⟩) ?_
  rintro _ later rfl
  refine .lift_seq (fun failure _ => ⟨rfl, failing failure⟩) fun signers recovered => ?_
  refine .lift_seq (fun failure _ => ⟨rfl, failing failure⟩) fun _ _ => ?_
  refine (follows_resolveOwners asking checked.payee pending [] operations).seq
    (fun failure later ended => ⟨ended.1, failing failure⟩) ?_
  rintro resolved later ⟨rfl, counted⟩
  refine ⟨rfl, fun accepted same => ?_⟩
  obtain rfl := Except.ok.inj same
  exact .intro present headed inspected parsed bounded hashing hashed named signed
    (counted resolved rfl)

end Accepted

end OpenSocial.Sponsor

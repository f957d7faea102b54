/-
This file proves for whom the sponsor service pays.

An accepted transaction holds calls of allowlisted methods only, and every call
that names an actor acts for the payee: the payee is the actor, or signs as the
actor's device, or owns the actor's account. The owners are looked up last, when
a signature has been found to recover to the payee, so a request that the payee
never signed costs no lookup.
-/

import OpenSocial.Sdk.Ids
import OpenSocial.Sponsor.Service

namespace OpenSocial.Sponsor

open Library Sdk

/-! ### What a sponsored operation is -/

/-- The operation that calls an entry point of a contract. -/
def callContract (contractId : String) (entryPoint : ℕ) (args : String) : Json :=
  .object [("contract_id", .string contractId), ("entry_point", .number entryPoint),
    ("args", .string args)]

/-- A call that names an actor acts for the payee: the actor is the payee; or the payee is the
device that signs, which the methods about a device do not have; or no device signs and the payee
owns the actor's account. -/
def ActsFor (payee : String) (owned : String → Prop) (decoded : DecodedOperation) : Prop :=
  ∀ field, actorField decoded.contract decoded.method decoded.args = some field →
    ∃ account, textMember decoded.args field = some account ∧
      (account = payee ∨
        (decoded.contract ++ "." ++ decoded.method ∉ DEVICE_IS_SUBJECT ∧
          textMember decoded.args "device" = some payee) ∨
        ((decoded.contract ++ "." ++ decoded.method ∈ DEVICE_IS_SUBJECT ∨
            ∀ device, textMember decoded.args "device" = some device → device = "") ∧
          owned account))

/-- An operation calls an allowlisted method, and acts for the payee. -/
def Sponsored (context : ValidationContext) (payee : String) (owned : String → Prop)
    (operation : Json) : Prop :=
  ∃ allowed ∈ context.allowlist, ∃ args decoded,
    operation = callContract allowed.address allowed.entryPoint args ∧
      context.chain.decodeOperation allowed.address allowed.entryPoint args = some decoded ∧
      decoded.contract = allowed.contract ∧ decoded.method = allowed.method ∧
      ActsFor payee owned decoded

/-- A lookup answered that the payee owns an account. -/
def OwnedBy (trace : Trace) (payee account : String) : Prop :=
  (⟨.ownerOf account, .ok (some payee)⟩ : Program.Exchange Request Answer) ∈ trace

/-! ### One operation -/

section Operations

variable {context : ValidationContext} {payee : String}

theorem lookupAllowed_eq_some {allowlist : List AllowedMethod} {address : String} {entryPoint : ℕ}
    {allowed : AllowedMethod} (found : lookupAllowed allowlist address entryPoint = some allowed) :
    allowed ∈ allowlist ∧ allowed.address = address ∧ allowed.entryPoint = entryPoint := by
  have member := List.mem_of_getLast? found
  rw [List.mem_filter, Bool.and_eq_true, beq_iff_eq, beq_iff_eq] at member
  exact member

theorem signingDevice_eq_some {decoded : DecodedOperation} {device : String}
    (signs : signingDevice decoded = some device) :
    decoded.contract ++ "." ++ decoded.method ∉ DEVICE_IS_SUBJECT ∧
      textMember decoded.args "device" = some device := by
  unfold signingDevice deviceMaySign at signs
  split at signs
  · next maySign =>
    refine ⟨fun subject => ?_, (Option.filter_eq_some_iff.mp signs).1⟩
    rw [List.contains_iff_mem.mpr subject] at maySign
    cases maySign
  · cases signs

theorem signingDevice_eq_none {decoded : DecodedOperation} (unsigned : signingDevice decoded = none) :
    decoded.contract ++ "." ++ decoded.method ∈ DEVICE_IS_SUBJECT ∨
      ∀ device, textMember decoded.args "device" = some device → device = "" := by
  unfold signingDevice deviceMaySign at unsigned
  split at unsigned
  · refine .inr fun device named => ?_
    rw [named, Option.filter_eq_none_iff] at unsigned
    exact by simpa using unsigned device rfl
  · next subject =>
    rw [Bool.not_eq_true', Bool.not_eq_false, List.contains_iff_mem] at subject
    exact .inl subject

/-- A bound actor acts for the payee, if the payee owns the account that is left to look up. -/
theorem actsFor_of_bindActor {looksUp : Bool} {decoded : DecodedOperation} {index : ℕ}
    {actor : Option String} {pending : Option PendingOwnerCheck}
    (bound : bindActor looksUp decoded payee index = .ok (actor, pending)) {owned : String → Prop}
    (owns : ∀ check ∈ pending, owned check.account) : ActsFor payee owned decoded := by
  intro field named
  unfold bindActor at bound
  rw [named] at bound
  dsimp only at bound
  cases text : (textMember decoded.args field).filter fun text => text != "" with
  | none =>
    rw [text] at bound
    cases bound
  | some account =>
    rw [text] at bound
    dsimp only at bound
    refine ⟨account, (Option.filter_eq_some_iff.mp text).1, ?_⟩
    by_cases own : account = payee
    · exact .inl own
    · rw [if_neg own] at bound
      by_cases signs : signingDevice decoded = some payee
      · exact .inr (.inl (signingDevice_eq_some signs))
      · rw [if_neg signs] at bound
        cases device : signingDevice decoded with
        | some other =>
          rw [device, if_neg (by simp)] at bound
          cases bound
        | none =>
          split at bound
          · cases bound
            exact .inr (.inr ⟨signingDevice_eq_none device, owns _ rfl⟩)
          · cases bound

/-- An inspected operation is a call of an allowlisted method whose actor is bound. -/
theorem inspectOperation_spec {index : ℕ} {raw : Json} {operation : ValidatedOperation}
    {pending : Option PendingOwnerCheck}
    (inspected : inspectOperation context payee index raw = .ok (operation, pending))
    {owned : String → Prop} (owns : ∀ check ∈ pending, owned check.account) :
    Sponsored context payee owned operation.operation := by
  unfold inspectOperation at inspected
  dsimp only at inspected
  split at inspected
  · obtain ⟨members, _, inspected⟩ := ok_of_bind inspected
    split at inspected
    · obtain ⟨call, _, inspected⟩ := ok_of_bind inspected
      obtain ⟨contractId, _, inspected⟩ := ok_of_bind inspected
      obtain ⟨entryPoint, _, inspected⟩ := ok_of_bind inspected
      obtain ⟨allowed, listed, inspected⟩ := ok_of_bind inspected
      obtain ⟨bytes, _, inspected⟩ := ok_of_bind inspected
      split at inspected
      · cases inspected
      · obtain ⟨decoded, decodes, inspected⟩ := ok_of_bind inspected
        split at inspected
        · cases inspected
        · next resolves =>
          obtain ⟨⟨actor, left⟩, bound, inspected⟩ := ok_of_bind inspected
          cases inspected
          obtain ⟨other, found, same⟩ := elim_eq_ok.mp listed
          cases same
          obtain ⟨other, read, same⟩ := elim_eq_ok.mp decodes
          cases same
          obtain ⟨member, rfl, rfl⟩ := lookupAllowed_eq_some found
          rw [not_or, not_not, not_not] at resolves
          exact ⟨allowed, member, _, decoded, rfl, read, resolves.2, resolves.1,
            actsFor_of_bindActor bound owns⟩
    · obtain ⟨_, refused, _⟩ := ok_of_bind inspected
      cases refused
  · obtain ⟨_, refused, _⟩ := ok_of_bind inspected
    cases refused

end Operations

section Inspection

variable {context : ValidationContext} {payee : String} {owned : String → Prop}

theorem inspectFrom_spec {index : ℕ} {items : List Json} {operations : List ValidatedOperation}
    {pending : List PendingOwnerCheck}
    (inspected : inspectFrom context payee index items = .ok (operations, pending))
    (owns : ∀ check ∈ pending, owned check.account) :
    ∀ operation ∈ operations, Sponsored context payee owned operation.operation := by
  induction items generalizing index operations pending with
  | nil =>
    cases inspected
    exact fun operation absent => absurd absent List.not_mem_nil
  | cons raw rest inductionHypothesis =>
    unfold inspectFrom at inspected
    obtain ⟨⟨operation, left⟩, first, inspected⟩ := ok_of_bind inspected
    obtain ⟨⟨others, later⟩, following, inspected⟩ := ok_of_bind inspected
    cases inspected
    intro chosen member
    rcases List.mem_cons.mp member with rfl | behind
    · refine inspectOperation_spec first fun check found => owns check ?_
      exact List.mem_append_left _ (Option.mem_toList.mpr found)
    · refine inductionHypothesis following (fun check found => owns check ?_) chosen behind
      exact List.mem_append_right _ found

/-- Inspected operations call allowlisted methods and act for the payee, if the payee owns every
account that is left to look up. -/
theorem inspectOperations_spec {raw : Option Json} {operations : List ValidatedOperation}
    {pending : List PendingOwnerCheck}
    (inspected : inspectOperations context raw payee = .ok (operations, pending))
    (owns : ∀ check ∈ pending, owned check.account) :
    ∀ operation ∈ operations, Sponsored context payee owned operation.operation := by
  unfold inspectOperations at inspected
  dsimp only at inspected
  split at inspected
  · cases inspected
  · split at inspected
    · cases inspected
    · exact inspectFrom_spec inspected owns

end Inspection

/-! ### The owners -/

section Owners

/-- A request for the owner of an account. -/
def LooksUp (exchange : Program.Exchange Request Answer) : Prop :=
  ∃ account, exchange.1 = .ownerOf account

theorem ensures_knownOwner (owners : List (String × Option String)) (account : String) :
    (knownOwner .refused (fun account => ask (.ownerOf account)) owners account).Ensures
      fun trace result =>
        ∀ owner, result = .ok owner → owners.lookup account = some owner ∨
          (⟨.ownerOf account, .ok owner⟩ : Program.Exchange Request Answer) ∈ trace := by
  unfold knownOwner
  cases known : owners.lookup account with
  | some owner =>
    refine .done fun other same => .inl ?_
    rw [Except.ok.inj same]
  | none =>
    refine .query_seq (fun answer failure impossible => by cases impossible)
      fun answer value same => ?_
    cases same
    cases answer with
    | ok owner =>
      refine .done fun other same => .inr ?_
      rw [Except.ok.inj same]
      exact List.mem_cons_self
    | error message => exact .fail fun owner impossible => by cases impossible

/-- Resolved operations differ from the inspected ones in their actors alone. -/
theorem map_operation_modify (operations : List ValidatedOperation) (index : ℕ) (actor : String) :
    (operations.modify index fun operation => { operation with actor := some actor }).map
        ValidatedOperation.operation =
      operations.map ValidatedOperation.operation := by
  refine List.ext_getElem? fun position => ?_
  rw [List.getElem?_map, List.getElem?_map, List.getElem?_modify]
  cases operations[position]? with
  | none => rfl
  | some operation =>
    rw [Option.map_eq_map, Option.map_some, Option.map_some]
    split <;> rfl

/-- Resolving succeeds only if the payee owns every pending account: it was known to, or a lookup
said so. -/
theorem ensures_resolveOwners (payee : String) (pending : List PendingOwnerCheck)
    (owners : List (String × Option String)) (operations : List ValidatedOperation) :
    (resolveOwners .refused (fun account => ask (.ownerOf account)) payee pending owners
        operations).Ensures fun trace result => ∀ resolved, result = .ok resolved →
      resolved.map ValidatedOperation.operation = operations.map ValidatedOperation.operation ∧
        ∀ check ∈ pending, owners.lookup check.account = some (some payee) ∨
          OwnedBy trace payee check.account := by
  induction pending generalizing owners operations with
  | nil =>
    refine .done fun resolved same => ?_
    cases same
    exact ⟨rfl, fun check absent => absurd absent List.not_mem_nil⟩
  | cons check rest inductionHypothesis =>
    unfold resolveOwners
    refine .seq (ensures_knownOwner owners check.account)
      (fun trace failure _ resolved impossible => by cases impossible) fun first owner told => ?_
    have first_known := told owner rfl
    split
    · next owns =>
      rw [owns] at first_known ⊢
      refine (inductionHypothesis _ _).weaken fun last result finished resolved same => ?_
      obtain ⟨kept, owned⟩ := finished resolved same
      rw [map_operation_modify] at kept
      refine ⟨kept, fun other member => ?_⟩
      have here : owners.lookup check.account = some (some payee) ∨
          OwnedBy (first ++ last) payee check.account :=
        first_known.imp id fun asked => List.mem_append_left _ asked
      rcases List.mem_cons.mp member with rfl | behind
      · exact here
      · rcases owned other behind with known | asked
        · by_cases same : other.account = check.account
          · rw [same]
            exact here
          · rw [List.lookup_cons, beq_eq_false_iff_ne.mpr same] at known
            exact .inl known
        · exact .inr (List.mem_append_right _ asked)
    · exact .fail fun resolved impossible => by cases impossible

end Owners

/-! ### What was signed -/

/-- What the service established of an input before it looked up any owner: the transaction made of
it, its header, its operations, the owners to look up, and the signers, the payee among them. -/
inductive Verified (context : ValidationContext) (input : Json) :
    Json → CheckedHeader → List ValidatedOperation → List PendingOwnerCheck → List String → Prop
  | intro {header : Json} {checked : CheckedHeader} {operations : List ValidatedOperation}
      {pending : List PendingOwnerCheck} {expectedId : String} {signatures signers : List String}
      (present : (input.get? "header").filter isRecord = some header)
      (headed : checkHeader context header = .ok checked)
      (inspected : inspectOperations context (input.get? "operations") checked.payee =
        .ok (operations, pending))
      (root : context.chain.operationMerkleRoot
        (cleanHeader context ((header.get? "rc_limit").getD .null) checked)
        (rebuiltOperations operations) = .ok checked.operationMerkleRoot)
      (hashed : context.chain.computeTransactionId
        (cleanHeader context ((header.get? "rc_limit").getD .null) checked) = .ok expectedId)
      (named : input.get? "id" = some (.string expectedId))
      (signed : userSignatures input = .ok signatures)
      (recovered : context.chain.recoverAddresses (rebuiltTransaction expectedId
        (cleanHeader context ((header.get? "rc_limit").getD .null) checked)
        (rebuiltOperations operations) signatures) = .ok signers)
      (payeeSigned : checked.payee ∈ signers) (unsponsored : context.sponsor ∉ signers) :
      Verified context input
        (rebuiltTransaction expectedId
          (cleanHeader context ((header.get? "rc_limit").getD .null) checked)
          (rebuiltOperations operations) signatures)
        checked operations pending signers

theorem Verified.inspected {context : ValidationContext} {input transaction : Json}
    {checked : CheckedHeader} {operations : List ValidatedOperation}
    {pending : List PendingOwnerCheck} {signers : List String}
    (verified : Verified context input transaction checked operations pending signers) :
    inspectOperations context (input.get? "operations") checked.payee = .ok (operations, pending) := by
  cases verified with
  | intro present headed inspected root hashed named signed recovered payeeSigned unsponsored =>
    exact inspected

/-- Either no owner was looked up, or the lookups came after the two answers of the chain library,
and a signature of the transaction recovers to its payee. -/
def Guarded (context : ValidationContext) (input : Json) (trace : Trace) : Prop :=
  (∀ exchange ∈ trace, ¬ LooksUp exchange) ∨
    ∃ lookups, trace = ⟨.wait, ()⟩ :: ⟨.wait, ()⟩ :: lookups ∧
      ∃ transaction checked operations pending signers,
        Verified context input transaction checked operations pending signers

section Validation

theorem not_looksUp_wait : ¬ LooksUp ⟨.wait, ()⟩ := by
  rintro ⟨account, same⟩
  cases same

theorem guarded_waits (context : ValidationContext) (input : Json) {trace : Trace}
    (waits : trace = [] ∨ trace = [⟨.wait, ()⟩] ∨ trace = [⟨.wait, ()⟩, ⟨.wait, ()⟩]) :
    Guarded context input trace := by
  refine .inl fun exchange member => ?_
  rcases waits with rfl | rfl | rfl
  · cases member
  · rw [List.mem_singleton.mp member]
    exact not_looksUp_wait
  · have same : exchange = ⟨.wait, ()⟩ := by
      rcases List.mem_cons.mp member with first | later
      · exact first
      · exact List.mem_singleton.mp later
    rw [same]
    exact not_looksUp_wait

/-- What a validation establishes, and what it asked for. -/
theorem ensures_validation (context : ValidationContext) (input : Json) :
    (validated context input).Ensures fun trace result => Guarded context input trace ∧
      ∀ accepted : ValidatedTransaction, result = .ok accepted → ∃ checked operations pending,
        Verified context input accepted.transaction checked operations pending accepted.signers ∧
          accepted.payee = checked.payee ∧
          accepted.operations.map ValidatedOperation.operation =
            operations.map ValidatedOperation.operation ∧
          ∀ check ∈ pending, OwnedBy trace checked.payee check.account := by
  have failing : ∀ (trace : Trace) (failure : ServiceFailure)
      (waits : trace = [] ∨ trace = [⟨.wait, ()⟩] ∨ trace = [⟨.wait, ()⟩, ⟨.wait, ()⟩]),
      Guarded context input trace ∧
        ∀ accepted : ValidatedTransaction, Except.error failure = Except.ok accepted →
          ∃ checked operations pending,
            Verified context input accepted.transaction checked operations pending
                accepted.signers ∧
              accepted.payee = checked.payee ∧
              accepted.operations.map ValidatedOperation.operation =
                operations.map ValidatedOperation.operation ∧
              ∀ check ∈ pending, OwnedBy trace checked.payee check.account :=
    fun trace failure waits => ⟨guarded_waits context input waits,
      fun accepted impossible => by cases impossible⟩
  unfold validated validateTransaction
  dsimp only
  refine .lift_seq (fun failure _ => failing _ failure (.inl rfl)) fun _ _ => ?_
  refine .lift_seq (fun failure _ => failing _ failure (.inl rfl)) fun record passed => ?_
  obtain ⟨header, present, same⟩ := elim_eq_ok.mp (mapError_eq_ok.mp passed)
  obtain rfl := Except.ok.inj same
  refine .lift_seq (fun failure _ => failing _ failure (.inl rfl)) fun checked headed => ?_
  have headed := mapError_eq_ok.mp headed
  refine .lift_seq (fun failure _ => failing _ failure (.inl rfl)) fun found inspected => ?_
  obtain ⟨operations, pending⟩ := found
  have inspected := mapError_eq_ok.mp inspected
  refine .lift_seq (fun failure _ => failing _ failure (.inl rfl)) fun rcLimit parsed => ?_
  refine .lift_seq (fun failure _ => failing _ failure (.inl rfl)) fun _ bounded => ?_
  refine .query_seq (fun answer failure impossible => by cases impossible) fun first _ same => ?_
  refine .lift_seq (fun failure _ => failing _ failure (.inr (.inl rfl))) fun root hashing => ?_
  have hashing := orRefuse_eq_ok.mp (mapError_eq_ok.mp hashing)
  refine .lift_seq (fun failure _ => failing _ failure (.inr (.inl rfl))) fun _ matched => ?_
  obtain rfl := not_not.mp (check_eq_ok.mp (mapError_eq_ok.mp matched)).1
  refine .lift_seq (fun failure _ => failing _ failure (.inr (.inl rfl))) fun expectedId hashed => ?_
  have hashed := orRefuse_eq_ok.mp (mapError_eq_ok.mp hashed)
  refine .lift_seq (fun failure _ => failing _ failure (.inr (.inl rfl))) fun _ named => ?_
  have named := not_not.mp (check_eq_ok.mp (mapError_eq_ok.mp named)).1
  refine .lift_seq (fun failure _ => failing _ failure (.inr (.inl rfl))) fun signatures signed => ?_
  have signed := mapError_eq_ok.mp signed
  refine .query_seq (fun answer failure impossible => by cases impossible) fun second _ same => ?_
  refine .lift_seq (fun failure _ => failing _ failure (.inr (.inr rfl))) fun signers recovered => ?_
  have recovered := orRefuse_eq_ok.mp (mapError_eq_ok.mp recovered)
  refine .lift_seq (fun failure _ => failing _ failure (.inr (.inr rfl))) fun _ spared => ?_
  have spared := check_eq_ok.mp (mapError_eq_ok.mp spared)
  have payeeSigned : checked.payee ∈ signers := by
    have found := spared.1
    rw [Bool.not_eq_true', Bool.not_eq_false] at found
    exact List.contains_iff_mem.mp found
  have unsponsored : context.sponsor ∉ signers := by
    intro sponsored
    exact (check_eq_ok.mp spared.2).1 (List.contains_iff_mem.mpr sponsored)
  have verified := Verified.intro present headed inspected hashing hashed named signed recovered
    payeeSigned unsponsored
  refine .seq (ensures_resolveOwners checked.payee pending [] operations) ?_ ?_
  · intro trace failure _
    exact ⟨.inr ⟨trace, rfl, _, _, _, _, _, verified⟩, fun accepted impossible => by cases impossible⟩
  · intro trace resolved finished
    obtain ⟨kept, owned⟩ := finished resolved rfl
    refine .done ⟨.inr ⟨trace ++ [], rfl, _, _, _, _, _, verified⟩, fun accepted same => ?_⟩
    cases same
    refine ⟨checked, operations, pending, verified, rfl, kept, fun check member => ?_⟩
    rcases owned check member with known | asked
    · cases known
    · exact List.mem_cons_of_mem _ (List.mem_cons_of_mem _ (List.mem_append_left _ asked))

end Validation

/-! ### Whom a sponsored transaction serves -/

/-- The transaction to co-sign carries the operations that the payee signed: its id, which the input
names too, is that of a header with their merkle root, and one of its signatures recovers to the
payee. -/
def CarriesSigned (context : ValidationContext) (input : Json) (accepted : ValidatedTransaction) :
    Prop :=
  ∃ id header signatures root,
    accepted.transaction =
        rebuiltTransaction id header (rebuiltOperations accepted.operations) signatures ∧
      input.get? "id" = some (.string id) ∧
      context.chain.computeTransactionId header = .ok id ∧
      header.get? "payee" = some (.string accepted.payee) ∧
      header.get? "operation_merkle_root" = some (.string root) ∧
      context.chain.operationMerkleRoot header (rebuiltOperations accepted.operations) = .ok root ∧
      context.chain.recoverAddresses accepted.transaction = .ok accepted.signers ∧
      accepted.payee ∈ accepted.signers

theorem rebuiltOperations_congr {first second : List ValidatedOperation}
    (same : first.map ValidatedOperation.operation = second.map ValidatedOperation.operation) :
    rebuiltOperations first = rebuiltOperations second := by
  have wrapped : ∀ operations : List ValidatedOperation, rebuiltOperations operations =
      .array ((operations.map ValidatedOperation.operation).map fun operation =>
        .object [("call_contract", operation)]) := by
    intro operations
    rw [List.map_map]
    rfl
  rw [wrapped, wrapped, same]

theorem carriesSigned_of_verified {context : ValidationContext} {input : Json}
    {accepted : ValidatedTransaction} {checked : CheckedHeader}
    {operations : List ValidatedOperation} {pending : List PendingOwnerCheck}
    (verified : Verified context input accepted.transaction checked operations pending
      accepted.signers) (payee : accepted.payee = checked.payee)
    (kept : accepted.operations.map ValidatedOperation.operation =
      operations.map ValidatedOperation.operation) : CarriesSigned context input accepted := by
  obtain ⟨transaction, other, resolved, signers⟩ := accepted
  dsimp only at verified payee kept
  subst payee
  cases verified with
  | intro present headed inspected root hashed named signed recovered payeeSigned unsponsored =>
    rw [← rebuiltOperations_congr kept] at root recovered ⊢
    exact ⟨_, _, _, _, rfl, named, hashed, rfl, rfl, root, recovered, payeeSigned⟩

/-- Every operation of an accepted transaction is a call of an allowlisted method that acts for the
payee, the transaction to co-sign carries exactly the operations the payee signed, and however a
validation ends, it looked up no owner before a signature was found to recover to the payee. -/
theorem sponsored_acts_for_payee (context : ValidationContext) (input : Json) (trace : Trace)
    (result : Except ServiceFailure ValidatedTransaction)
    (runs : Program.Runs (validated context input) trace result) :
    (∀ accepted, result = .ok accepted →
      (∀ operation ∈ accepted.operations, Sponsored context accepted.payee
        (OwnedBy trace accepted.payee) operation.operation) ∧
        CarriesSigned context input accepted) ∧
      Guarded context input trace := by
  obtain ⟨guarded, established⟩ := ensures_validation context input trace result runs
  refine ⟨fun accepted ended => ?_, guarded⟩
  obtain ⟨checked, operations, pending, verified, payee, kept, owned⟩ := established accepted ended
  refine ⟨fun operation member => ?_, carriesSigned_of_verified verified payee kept⟩
  have listed : operation.operation ∈ operations.map ValidatedOperation.operation := by
    rw [← kept]
    exact List.mem_map_of_mem member
  obtain ⟨inspected, found, same⟩ := List.mem_map.mp listed
  rw [← same, payee]
  exact inspectOperations_spec verified.inspected owned inspected found

/-! ### A sample validation -/

section Sample

/-- A chain library that knows three methods: one enrolls a device for the account `alice`, one
follows in the name of `heir`, and one posts in the name of `bob` with the device `heir`. -/
def enrollmentChain : ChainLibrary where
  fromBase58 _ := some (List.replicate 25 0)
  decodeBase64url _ := some []
  decodeOperation _ entryPoint _ :=
    match entryPoint with
    | 1 => some ⟨"identity", "authorize_device", entryPoint,
        .object [("account", .string "alice"), ("device", .string "phone")]⟩
    | 2 => some ⟨"relationships", "follow", entryPoint, .object [("follower", .string "heir")]⟩
    | _ => some ⟨"publications", "publish", entryPoint,
        .object [("author", .string "bob"), ("device", .string "heir")]⟩
  operationMerkleRoot _ _ := .ok "root"
  computeTransactionId _ := .ok "id"
  recoverAddresses _ := .ok ["heir"]

/-- A context that allows the three methods. -/
def enrollmentContext : ValidationContext where
  chain := enrollmentChain
  sponsor := "sponsor"
  chainId := "chain"
  allowlist := [⟨"identity", "contract", "authorize_device", 1⟩,
    ⟨"relationships", "contract", "follow", 2⟩, ⟨"publications", "contract", "publish", 3⟩]
  limits := ⟨6144, 200000000, 4⟩

/-- A call of the sample contract. -/
def enrollmentCall (entryPoint : ℕ) : Json :=
  .object [("call_contract", callContract "contract" entryPoint "")]

/-- A transaction that `heir` signs, who has recovered the account `alice` and is a device of
`bob`. -/
def enrollment : Json :=
  .object [("id", .string "id"),
    ("header", .object [("chain_id", .string "chain"), ("rc_limit", .string "1000"),
      ("nonce", .string "nonce"), ("operation_merkle_root", .string "root"),
      ("payer", .string "sponsor"), ("payee", .string "heir")]),
    ("operations", .array [enrollmentCall 1, enrollmentCall 2, enrollmentCall 3]),
    ("signatures", .array [.string "signature"])]

/-- An environment that answers every lookup with `heir`. -/
def owningHeir (_past : Trace) : (request : Request) → Answer request
  | .now => 0
  | .wait => ()
  | .ownerOf _ => .ok (some "heir")
  | .reserve _ _ _ => .ok (0, ⟨199, 19⟩)
  | .sign _ _ => .ok ["signature", "sponsored"]
  | .send _ _ => .answered (some (.object []))
  | .commit _ _ => ()
  | .release _ => ()
  | .recordRefusal _ _ => ()

/-- The validation of the enrollment. -/
def enrolled : Trace × Except ServiceFailure ValidatedTransaction :=
  Program.exec owningHeir [] (validated enrollmentContext enrollment)

/-- The payee and the operations of an accepted transaction. -/
def paidFor (result : Except ServiceFailure ValidatedTransaction) : Option (String × List Json) :=
  result.toOption.map fun accepted =>
    (accepted.payee, accepted.operations.map ValidatedOperation.operation)

theorem enrolled_paid :
    paidFor enrolled.2 = some ("heir", [callContract "contract" 1 "", callContract "contract" 2 "",
      callContract "contract" 3 ""]) := by decide +kernel

/-- The enrollment is accepted, and its three calls act for the payee: as the owner of the account,
as the actor and as the actor's device. -/
theorem sponsored_acts_for_payee_enrollment :
    ∃ accepted, enrolled.2 = .ok accepted ∧ accepted.operations.length = 3 ∧
      (∀ operation ∈ accepted.operations, Sponsored enrollmentContext accepted.payee
        (OwnedBy enrolled.1 accepted.payee) operation.operation) ∧
      CarriesSigned enrollmentContext enrollment accepted := by
  have paid := enrolled_paid
  have served := (sponsored_acts_for_payee enrollmentContext enrollment _ _
    (Program.runs_exec owningHeir [] _)).1
  cases result : enrolled.2 with
  | error failure =>
    rw [result] at paid
    cases paid
  | ok accepted =>
    rw [result] at paid
    have counted := congrArg List.length (Prod.mk.inj (Option.some.inj paid)).2
    rw [List.length_map] at counted
    exact ⟨accepted, rfl, counted, served accepted result⟩

/-- The accepted enrollment names a device, which is not the payee's, and an account that is not the
payee. -/
theorem enrollment_names_device :
    ¬ ∀ (context : ValidationContext) (input : Json) (trace : Trace)
      (accepted : ValidatedTransaction),
      Program.Runs (validated context input) trace (.ok accepted) →
      ∀ operation ∈ accepted.operations, ∀ contractId entryPoint args decoded field account,
        operation.operation = callContract contractId entryPoint args →
        context.chain.decodeOperation contractId entryPoint args = some decoded →
        actorField decoded.contract decoded.method decoded.args = some field →
        textMember decoded.args field = some account →
        account = accepted.payee ∨
          (decoded.contract ++ "." ++ decoded.method ∉ DEVICE_IS_SUBJECT ∧
            textMember decoded.args "device" = some accepted.payee) ∨
          ((∀ device, textMember decoded.args "device" = some device → device = "") ∧
            OwnedBy trace accepted.payee account) := by
  intro always
  have paid := enrolled_paid
  cases result : enrolled.2 with
  | error failure =>
    rw [result] at paid
    cases paid
  | ok accepted =>
    rw [result] at paid
    obtain ⟨payee, calls⟩ := Prod.mk.inj (Option.some.inj paid)
    have listed : callContract "contract" 1 "" ∈
        accepted.operations.map ValidatedOperation.operation := by
      rw [calls]
      exact List.mem_cons_self
    obtain ⟨operation, member, called⟩ := List.mem_map.mp listed
    have runs : Program.Runs (validated enrollmentContext enrollment) enrolled.1 (.ok accepted) := by
      rw [← result]
      exact Program.runs_exec owningHeir [] _
    have named := always enrollmentContext enrollment _ accepted runs operation member "contract" 1 ""
      _ "account" "alice" called rfl rfl rfl
    rw [payee] at named
    rcases named with own | ⟨subject, device⟩ | ⟨unnamed, owned⟩
    · exact absurd own (by decide)
    · exact absurd device (by decide)
    · exact absurd (unnamed "phone" rfl) (by decide)

end Sample

end OpenSocial.Sponsor

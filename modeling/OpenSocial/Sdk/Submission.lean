/-
This file models `ProtocolClient.submit`: it offers a transaction to one sponsor
after the other and pays for it itself when all refuse.

The client is a program that asks: sponsors over HTTP, the chain's nodes, and the
signers. Whatever they answer, the theorems speak of every run. The answers are told
by the turns of the sponsors, and by the turn of the submission's own payment: who is
handed a signed transaction follows from them, and so does when a second one is
handed out that should not be.
-/

import OpenSocial.Library.Exchange
import OpenSocial.Sdk.Sponsor

namespace OpenSocial.Sdk

open Library

/-! ### Requests and answers -/

/-- What a submission asks of others. Preparing asks the node for Mana and a nonce, of the payee
unless there is another payer. The last two hand a signed transaction over. -/
inductive Request where
  | discover (sponsor : SponsorClient)
  | prepare (operations : List Json) (payee : String) (payer : Option String)
  | sign (signer : String) (transaction : Json)
  | wait (transaction : Json)
  | sponsor (sponsor : SponsorClient) (transaction : Json)
  | sendTransaction (transaction : Json)
  deriving DecidableEq

/-- A discovery is answered from the cache, with a document accepted earlier, or over HTTP. -/
inductive Discovered where
  | cached (discovery : SponsorDiscovery)
  | fetched (answer : Fetched)

/-- Preparing ends with an unsigned transaction, without Mana to pay for it, or with an error. -/
inductive Prepared where
  | transaction (value : Json)
  | insufficientMana
  | failed (message : String)

/-- A node answers a transaction with a receipt, which may be missing, or an error of its own, or
its answer is lost. The chain library returns a receipt beside the members of its own copy of the
transaction. -/
inductive Sent where
  | receipt (transaction : List (String × Json)) (receipt : Option Json)
  | refused (message : String)
  | lost (message : String)

def Answer : Request → Type
  | .discover _ => Discovered
  | .prepare _ _ _ => Prepared
  | .sign _ _ => Except String Json
  | .wait _ => Except String Json
  | .sponsor _ _ => Fetched
  | .sendTransaction _ => Sent

/-- A part of a submission. -/
abbrev Action (Value : Type) := Program Request Answer ClientError Value

/-- One request of a submission, answered. -/
abbrev Step := Program.Exchange Request Answer

/-! ### The client -/

/-- The client's own chain, and what it takes from the chain library and the event decoder. -/
structure ProtocolClient where
  chainId : String
  koilib : Koilib
  decodeReceiptEvents : (receipt : Json) → Except String (List Json)

/-- A sponsor that refused, with why. -/
structure SponsorRefusal where
  endpoint : String
  error : ClientError

/-- The transaction and receipt of a sponsor that accepted. -/
structure Sponsored where
  transaction : Json
  receipt : Json
  sponsorAddress : String

/-- How a round over the sponsors ends, when no error stops it. -/
inductive PoolAttempt where
  | accepted (value : Sponsored) (refusals : List SponsorRefusal)
  | refused (refusals : List SponsorRefusal)

structure SubmitOptions where
  operations : List Json
  signer : String
  sponsors : List SponsorClient
  selfPayFallback : Bool
  waitForReceipt : Bool

structure SubmitResult where
  transaction : Json
  receipt : Json
  events : List Json
  sponsored : Bool
  sponsor : Option String
  refusals : List SponsorRefusal
  block : Option Json

namespace ProtocolClient

variable (client : ProtocolClient)

/-- The sponsor's chain must be the client's own. -/
def readOffer (sponsor : SponsorClient) : Discovered → Except ClientError SponsorDiscovery
  | .cached discovery => checkChain discovery
  | .fetched answer => do checkChain (← readDiscovery client.koilib sponsor answer)
where
  checkChain (discovery : SponsorDiscovery) : Except ClientError SponsorDiscovery :=
    match (servedChain discovery.document).filter Json.truthy with
    | none => .ok discovery
    | some chain =>
      if Json.strictEqual (some chain) (some (.string client.chainId)) then .ok discovery
      else .error (.sponsor .chainMismatch ("sponsor serves chain " ++ chain.display) none
        (some sponsor.endpoint))

/-- A prepared transaction has an id; the Mana error names the last refusal. -/
def readPrepared (payer : String) (refusals : List SponsorRefusal) :
    Prepared → Except ClientError Json
  | .transaction value => .ok value
  | .insufficientMana =>
    .error (.insufficientMana payer (refusals.getLast?.map fun refusal => refusal.error.message))
  | .failed message => .error (.other message)

/-- Only a prepared transaction is signed. -/
def requirePrepared (transaction : Json) : Except ClientError Unit := do
  let _ ← (Json.readable "id" (some transaction)).mapError .other
  if (transaction.truthyMember "id").isSome then .ok ()
  else .error (.protocol "transaction is not prepared")

/-- `sign`. -/
def sign (transaction : Json) (signer : String) : Action Json := do
  Program.lift (requirePrepared transaction)
  Program.query (.sign signer transaction) fun answer => answer.mapError .other

/-- What a broadcast makes of the node's answer. -/
def readSent : Sent → Except ClientError (Json × Json)
  | .receipt transaction answered => do
    let receipt ← (Json.readable "rpc_error" answered).mapError .other
    assertReceiptKnown (.object transaction) receipt
    assertNotReverted (.object transaction) receipt
    pure (.object transaction, receipt)
  | .refused message => .error (.other message)
  | .lost message => .error (.other message)

/-- `broadcast`. -/
def broadcast (transaction : Json) : Action (Json × Json) :=
  Program.query (.sendTransaction transaction) readSent

/-- One sponsor's turn; the result is verified once more after the sponsor client did. -/
def trySponsor (operations : List Json) (signer : String) (sponsor : SponsorClient) :
    Action Sponsored := do
  let discovery ← Program.query (.discover sponsor) (client.readOffer sponsor)
  let prepared ← Program.query (.prepare operations signer (some discovery.sponsor))
    (readPrepared discovery.sponsor [])
  let signed ← sign prepared signer
  let (transaction, receipt) ← Program.query (.sponsor sponsor signed)
    (readSponsored client.koilib sponsor signed)
  Program.lift (verifySponsorResult client.koilib signed transaction receipt sponsor.endpoint)
  pure ⟨transaction, receipt, discovery.sponsor⟩

/-- `SponsorPool.tryEach`: a sponsor error moves on to the next sponsor, any other one propagates. -/
def tryEach (turn : SponsorClient → Action Sponsored) :
    List SponsorRefusal → List SponsorClient → Action PoolAttempt
  | refusals, [] => pure (.refused refusals)
  | refusals, sponsor :: rest => do
    match ← Program.attempt (turn sponsor) with
    | .ok value => pure (.accepted value refusals)
    | .error error =>
      if error.isSponsor then tryEach turn (refusals ++ [⟨sponsor.endpoint, error⟩]) rest
      else Program.fail error

/-- The events of a receipt, or what decoding them throws. -/
def decode (receipt : Json) : Except ClientError (List Json) :=
  (client.decodeReceiptEvents receipt).mapError .other

/-- A receipt a sponsor returned is checked like a node's. -/
def readReceipt (transaction receipt : Json) : Except ClientError (List Json) := do
  assertReceiptKnown transaction receipt
  assertNotReverted transaction receipt
  client.decode receipt

/-- Wait for the block, if asked to and the transaction has an id. -/
def waitFor (waiting : Bool) (transaction : Json) : Action (Option Json) :=
  if waiting then do
    let _ ← Program.lift ((Json.readable "id" (some transaction)).mapError .other)
    if (transaction.truthyMember "id").isSome then
      Program.query (.wait transaction) fun answer => (answer.mapError .other).map some
    else pure none
  else pure none

/-- The submission's own payment. -/
def selfPay (options : SubmitOptions) (refusals : List SponsorRefusal) : Action SubmitResult := do
  let prepared ← Program.query (.prepare options.operations options.signer none)
    (readPrepared options.signer refusals)
  let signed ← sign prepared options.signer
  let (transaction, receipt) ← broadcast signed
  let events ← Program.lift (client.decode receipt)
  let block ← waitFor options.waitForReceipt transaction
  pure ⟨transaction, receipt, events, false, none, refusals, block⟩

/-- `submit`. -/
def submit (options : SubmitOptions) : Action SubmitResult := do
  match ← tryEach (client.trySponsor options.operations options.signer) [] options.sponsors with
  | .accepted value refusals => do
    let events ← Program.lift (client.readReceipt value.transaction value.receipt)
    let block ← waitFor options.waitForReceipt value.transaction
    pure ⟨value.transaction, value.receipt, events, true, some value.sponsorAddress, refusals,
      block⟩
  | .refused refusals =>
    if !options.selfPayFallback && options.sponsors != [] then
      Program.fail ((refusals.getLast?.map SponsorRefusal.error).getD
        (.protocol "every sponsor refused"))
    else client.selfPay options refusals

end ProtocolClient

/-! ### Handing over -/

/-- The request hands a signed transaction to a sponsor or a node. -/
def Request.handsOver : Request → Bool
  | .sponsor _ _ => true
  | .sendTransaction _ => true
  | _ => false

/-- A sponsor's refusal in its own words: an error body under a status that says nothing was
broadcast. -/
def explicitRefusal : Fetched → Bool
  | .answered status (.json value) =>
    status < 500 && status != 408 && (errorBody (some value)).isSome
  | _ => false

/-- The receipt of a transaction that was applied and reverted. -/
def provesRevert (receipt : Json) : Bool :=
  (rpcError receipt).isNone && isReverted receipt

/-- The answer proves that the handed-over transaction was rejected or reverted. -/
def ProtocolClient.provesRejected (client : ProtocolClient) : Step → Bool
  | ⟨.sponsor sponsor signed, answer⟩ =>
    explicitRefusal answer || (readSponsored client.koilib sponsor signed answer).toOption.any
      fun result => provesRevert result.2
  | ⟨.sendTransaction _, .receipt _ receipt⟩ => receipt.any provesRevert
  | ⟨.sendTransaction _, .refused _⟩ => true
  | _ => false

/-- A sponsor that was handed a signed transaction cannot be reached, or answers neither with a
refusal of its own nor with the transaction and its receipt. -/
def ProtocolClient.inconclusive (client : ProtocolClient) : Step → Bool
  | ⟨.sponsor _ _, .unreachable _⟩ => true
  | ⟨.sponsor sponsor signed, .answered status body⟩ =>
    !explicitRefusal (.answered status body) &&
      (readSponsored client.koilib sponsor signed (.answered status body)).toOption.isNone
  | _ => false

/-- The client reads the sponsor's answer as a refusal and moves on. -/
def ProtocolClient.readsAsRefusal (client : ProtocolClient) : Step → Bool
  | ⟨.sponsor sponsor signed, answer⟩ =>
    match readSponsored client.koilib sponsor signed answer with
    | .ok _ => false
    | .error error => error.isSponsor
  | _ => false

/-- After a signed transaction was handed over and its rejection is not proved, none is handed over
again. -/
def ProtocolClient.HandsOutOnce (client : ProtocolClient) (trace : List Step) : Prop :=
  trace.Pairwise fun step later => step.1.handsOver = true →
    client.provesRejected step = false → later.1.handsOver = false

instance (client : ProtocolClient) (trace : List Step) : Decidable (client.HandsOutOnce trace) :=
  inferInstanceAs (Decidable (trace.Pairwise _))

/-- The step handed a transaction over, and its rejection is not proved. -/
def ProtocolClient.unproven (client : ProtocolClient) (step : Step) : Bool :=
  step.1.handsOver && !client.provesRejected step

/-! ### Turns -/

/-- What is answered in one turn: by a sponsor and by those who prepare and sign for it, or, where
the submission pays itself, by the node and the signer. -/
structure TurnAnswers where
  discovered : Discovered
  prepared : Prepared
  signed : Except String Json
  sponsored : Fetched
  sent : Sent

/-- The step was answered so. -/
def TurnAnswers.Gave (turn : TurnAnswers) : Step → Prop
  | ⟨.discover _, answer⟩ => answer = turn.discovered
  | ⟨.prepare _ _ _, answer⟩ => answer = turn.prepared
  | ⟨.sign _ _, answer⟩ => answer = turn.signed
  | ⟨.sponsor _ _, answer⟩ => answer = turn.sponsored
  | ⟨.sendTransaction _, answer⟩ => answer = turn.sent
  | ⟨.wait _, _⟩ => True

/-- A turn begins: with a sponsor's discovery, or with preparing the submission's own payment. -/
def Request.begins : Request → Bool
  | .discover _ => true
  | .prepare _ _ none => true
  | _ => false

/-- The steps were answered in these turns, of which so many have begun before. -/
def Answered (turns : ℕ → TurnAnswers) : ℕ → List Step → Prop
  | _, [] => True
  | begun, step :: rest =>
    (turns (begun + step.1.begins.toNat - 1)).Gave step ∧
      Answered turns (begun + step.1.begins.toNat) rest

/-- The transaction that is signed in a turn, for this payer. -/
def TurnAnswers.signedFor (turn : TurnAnswers) (payer : String) : Except ClientError Json := do
  let prepared ← ProtocolClient.readPrepared payer [] turn.prepared
  ProtocolClient.requirePrepared prepared
  turn.signed.mapError .other

/-- The submission may pay itself, and comes to a signature then. -/
def SubmitOptions.signsItself (options : SubmitOptions) (turns : ℕ → TurnAnswers) : Bool :=
  (options.selfPayFallback || options.sponsors.isEmpty) &&
    ((turns options.sponsors.length).signedFor options.signer).isOk

namespace ProtocolClient

variable (client : ProtocolClient)

/-- The transaction that a sponsor is handed in its turn. -/
def offered (sponsor : SponsorClient) (turn : TurnAnswers) : Except ClientError Json := do
  let discovery ← client.readOffer sponsor turn.discovered
  turn.signedFor discovery.sponsor

/-- A sponsor refuses in its turn, one way or another. -/
def refuses (sponsor : SponsorClient) (turn : TurnAnswers) : Bool :=
  match client.offered sponsor turn with
  | .error error => error.isSponsor
  | .ok signed => client.readsAsRefusal ⟨.sponsor sponsor signed, turn.sponsored⟩

/-- A sponsor is handed a signed transaction in its turn, and answers inconclusively. -/
def leavesUnknown (sponsor : SponsorClient) (turn : TurnAnswers) : Bool :=
  match client.offered sponsor turn with
  | .error _ => false
  | .ok signed => client.inconclusive ⟨.sponsor sponsor signed, turn.sponsored⟩

variable (turns : ℕ → TurnAnswers)

/-- The sponsor at a place refuses. -/
def refusesAt (sponsors : List SponsorClient) (place : ℕ) : Bool :=
  sponsors[place]?.any fun sponsor => client.refuses sponsor (turns place)

def leavesUnknownAt (sponsors : List SponsorClient) (place : ℕ) : Bool :=
  sponsors[place]?.any fun sponsor => client.leavesUnknown sponsor (turns place)

/-- The turn at a place comes to a signature; the one after the last sponsor if `last`. -/
def signsAt (last : Bool) (sponsors : List SponsorClient) (place : ℕ) : Bool :=
  match sponsors[place]? with
  | some sponsor => (client.offered sponsor (turns place)).isOk
  | none => last

/-- Where a sponsor that was handed a signed transaction answers inconclusively, and it and
everyone up to a later place refuse, the turn at that place comes to no signature. -/
def Spared (last : Bool) (sponsors : List SponsorClient) : Prop :=
  ∀ later ≤ sponsors.length, ∀ first < later,
    client.leavesUnknownAt turns sponsors first = true →
      (∀ place < later, client.refusesAt turns sponsors place = true) →
        client.signsAt turns last sponsors later = false

instance (last : Bool) (sponsors : List SponsorClient) :
    Decidable (client.Spared turns last sponsors) :=
  inferInstanceAs (Decidable (∀ later ≤ sponsors.length, ∀ first < later, _))

end ProtocolClient

/-! ### Reading an answer -/

section Reading

variable {client : ProtocolClient}

/-- What a verified answer holds passes the verification again. -/
theorem verify_of_readSponsored {koilib : Koilib} {sponsor : SponsorClient}
    {signed transaction receipt : Json} {answer : Fetched}
    (read : readSponsored koilib sponsor signed answer = .ok (transaction, receipt)) :
    verifySponsorResult koilib signed transaction receipt sponsor.endpoint = .ok () := by
  unfold readSponsored at read
  cases payload : readAnswer sponsor.endpoint answer with
  | error error =>
    rw [payload] at read
    cases read
  | ok payload' =>
    rw [payload] at read
    simp only [bind, Except.bind] at read
    split at read
    · next found =>
      split at read
      · cases read
      · next verified =>
        cases read
        exact verified
    · cases read

theorem isSponsor_of_readAnswer {endpoint : String} {status : ℕ} {body : Body}
    {error : ClientError} (read : readAnswer endpoint (.answered status body) = .error error) :
    error.isSponsor = true := by
  cases body with
  | malformed =>
    simp only [readAnswer] at read
    split at read <;> cases read <;> rfl
  | empty =>
    simp only [readAnswer] at read
    split at read <;> cases read
    rfl
  | json value =>
    simp only [readAnswer] at read
    split at read <;> cases read
    rfl

theorem isSponsor_of_readDiscovery {koilib : Koilib} {sponsor : SponsorClient} {status : ℕ}
    {body : Body} {error : ClientError}
    (read : readDiscovery koilib sponsor (.answered status body) = .error error) :
    error.isSponsor = true := by
  unfold readDiscovery at read
  cases payload : readAnswer sponsor.endpoint (.answered status body) with
  | error refused =>
    rw [payload] at read
    obtain rfl := Except.error.inj read
    exact isSponsor_of_readAnswer payload
  | ok payload' =>
    rw [payload] at read
    simp only [bind, Except.bind] at read
    split at read
    · split at read
      · obtain rfl := Except.error.inj read
        rfl
      · split at read
        · obtain rfl := Except.error.inj read
          rfl
        · cases read
    · obtain rfl := Except.error.inj read
      rfl

/-- Once there is a whole response, everything the client cannot accept is a sponsor error. -/
theorem isSponsor_of_readSponsored {koilib : Koilib} {sponsor : SponsorClient} {signed : Json}
    {status : ℕ} {body : Body} {error : ClientError}
    (read : readSponsored koilib sponsor signed (.answered status body) = .error error) :
    error.isSponsor = true := by
  unfold readSponsored at read
  cases payload : readAnswer sponsor.endpoint (.answered status body) with
  | error refused =>
    rw [payload] at read
    cases read
    exact isSponsor_of_readAnswer payload
  | ok payload' =>
    rw [payload] at read
    simp only [bind, Except.bind] at read
    split at read
    · split at read
      · next mismatch =>
        cases read
        unfold verifySponsorResult at mismatch
        split at mismatch
        · cases mismatch
        · cases mismatch
          rfl
      · cases read
    · cases read
      rfl

/-- An answer is inconclusive when the client reads it as a refusal and it does not prove one. -/
theorem inconclusive_iff (step : Step) :
    client.inconclusive step = true ↔
      client.readsAsRefusal step = true ∧ client.provesRejected step = false := by
  obtain ⟨request, answer⟩ := step
  cases request with
  | sponsor sponsor signed =>
    cases answer with
    | unreachable reason => exact ⟨fun _ => ⟨rfl, rfl⟩, fun _ => rfl⟩
    | interrupted reason =>
      constructor
      · intro impossible
        cases impossible
      · rintro ⟨impossible, _⟩
        cases impossible
    | answered status body =>
      simp only [ProtocolClient.inconclusive, ProtocolClient.readsAsRefusal,
        ProtocolClient.provesRejected]
      cases read : readSponsored client.koilib sponsor signed (.answered status body) with
      | ok result => simp [Except.toOption]
      | error error => simp [Except.toOption, isSponsor_of_readSponsored read]
  | _ =>
    constructor
    · intro impossible
      cases impossible
    · rintro ⟨impossible, _⟩
      cases impossible

end Reading

/-! ### What is handed over -/

section Handings

variable (client : ProtocolClient)

/-- What the turns of some sponsors hand over, with their answers, and after the last of them
`own`. -/
def ProtocolClient.handings (own : List Step) : (ℕ → TurnAnswers) → List SponsorClient → List Step
  | _, [] => own
  | turns, sponsor :: rest =>
    match client.offered sponsor (turns 0) with
    | .error error =>
      if error.isSponsor then handings own (fun place => turns (place + 1)) rest else []
    | .ok signed =>
      let step : Step := ⟨.sponsor sponsor signed, (turns 0).sponsored⟩
      step :: if client.readsAsRefusal step then handings own (fun place => turns (place + 1)) rest
        else []

/-- What a submission hands over that pays itself. -/
def TurnAnswers.broadcast (turn : TurnAnswers) (signer : String) : List Step :=
  match turn.signedFor signer with
  | .error _ => []
  | .ok signed => [⟨.sendTransaction signed, turn.sent⟩]

def handedOver (trace : List Step) : List Step := trace.filter fun step => step.1.handsOver

variable {client} {turns : ℕ → TurnAnswers} {begun : ℕ} {first last trace : List Step}

theorem answered_append : Answered turns begun (first ++ last) ↔
    Answered turns begun first ∧
      Answered turns (begun + first.countP fun step => step.1.begins) last := by
  induction first generalizing begun with
  | nil => exact (iff_of_eq (true_and _)).symm
  | cons step rest inductionHypothesis =>
    have counted : begun + (step :: rest).countP (fun step => step.1.begins) =
        begun + step.1.begins.toNat + rest.countP fun step => step.1.begins := by
      rw [List.countP_cons]
      cases step.1.begins with
      | true => exact (Nat.add_right_comm begun 1 _).symm
      | false => rfl
    rw [counted]
    show _ ∧ Answered turns _ (rest ++ last) ↔ (_ ∧ Answered turns _ rest) ∧ _
    rw [inductionHypothesis, and_assoc]

/-- A turn ended with a refusal. -/
def endsRefused {Value : Type} : Except ClientError Value → Bool
  | .ok _ => false
  | .error error => error.isSponsor

/-- The refusals before only change the text of an error. -/
theorem readPrepared_ok {payer : String} {refusals : List SponsorRefusal} {answer : Prepared}
    {prepared : Json} (read : ProtocolClient.readPrepared payer refusals answer = .ok prepared) :
    ProtocolClient.readPrepared payer [] answer = .ok prepared := by
  cases answer with
  | transaction value => exact read
  | insufficientMana => cases read
  | failed message => cases read

theorem readPrepared_error {payer : String} {refusals : List SponsorRefusal} {answer : Prepared}
    {error : ClientError} (read : ProtocolClient.readPrepared payer refusals answer = .error error) :
    ∃ other, ProtocolClient.readPrepared payer [] answer = .error other := by
  cases answer with
  | transaction value => cases read
  | insufficientMana => exact ⟨_, rfl⟩
  | failed message => exact ⟨_, rfl⟩

/-- How a sponsor's turn goes: what it is offered is handed over, if anything, and the answer is
read. -/
def TurnTaken {Value : Type} (client : ProtocolClient) (sponsor : SponsorClient)
    (turn : TurnAnswers) (trace : List Step) (result : Except ClientError Value) : Prop :=
  match client.offered sponsor turn with
  | .error error => handedOver trace = [] ∧ result = .error error
  | .ok signed =>
    handedOver trace = [⟨.sponsor sponsor signed, turn.sponsored⟩] ∧
      client.readsAsRefusal ⟨.sponsor sponsor signed, turn.sponsored⟩ = endsRefused result

/-- What comes to a signature in a turn that has begun, and what is made of it. -/
theorem ensures_sign_seq {Value : Type} {prepared : Json} {signer : String}
    {next : Json → Action Value} {post : List Step → Except ClientError Value → Prop}
    (unprepared : ∀ error, ProtocolClient.requirePrepared prepared = .error error →
      post [] (.error error))
    (unsigned : ∀ message, ProtocolClient.requirePrepared prepared = .ok () →
      post [⟨.sign signer prepared, .error message⟩] (.error (.other message)))
    (signed : ∀ value, ProtocolClient.requirePrepared prepared = .ok () →
      (next value).Ensures fun trace result =>
        post (⟨.sign signer prepared, .ok value⟩ :: trace) result) :
    (ProtocolClient.sign prepared signer >>= next).Ensures post := by
  unfold ProtocolClient.sign
  cases checked : ProtocolClient.requirePrepared prepared with
  | error error => exact .fail (unprepared error checked)
  | ok ready =>
    refine .query_seq (fun answer error failed => ?_) fun answer value read => ?_
    · cases answer with
      | ok value => cases failed
      | error message =>
        obtain rfl := Except.error.inj failed
        exact unsigned message checked
    · cases answer with
      | error message => cases read
      | ok given =>
        obtain rfl := Except.ok.inj read
        exact signed given checked

section Turn

variable {sponsor : SponsorClient} {offer : Discovered} {discovery : SponsorDiscovery}
  {operations : List Json} {signer : String} {preparing : Prepared} {prepared : Json}

/-- After its discovery a sponsor is offered what is signed for it. -/
theorem offered_of_answered {rest : List Step}
    (discovered : client.readOffer sponsor offer = .ok discovery)
    (answered : Answered turns begun (⟨.discover sponsor, offer⟩ :: rest)) :
    client.offered sponsor (turns begun) = (turns begun).signedFor discovery.sponsor ∧
      Answered turns (begun + 1) rest := by
  obtain ⟨given, answered⟩ := answered
  obtain rfl : offer = (turns begun).discovered := given
  refine ⟨?_, answered⟩
  unfold ProtocolClient.offered
  rw [discovered]
  rfl

/-- After the preparation it is offered what is signed. -/
theorem signed_of_answered {rest : List Step}
    (discovered : client.readOffer sponsor offer = .ok discovery)
    (ready : ProtocolClient.readPrepared discovery.sponsor [] preparing = .ok prepared)
    (answered : Answered turns begun (⟨.discover sponsor, offer⟩ ::
      ⟨.prepare operations signer (some discovery.sponsor), preparing⟩ :: rest)) :
    (client.offered sponsor (turns begun) = do
      ProtocolClient.requirePrepared prepared
      (turns begun).signed.mapError .other) ∧ Answered turns (begun + 1) rest := by
  obtain ⟨offering, given, answered⟩ := offered_of_answered discovered answered
  obtain rfl : preparing = (turns begun).prepared := given
  refine ⟨?_, answered⟩
  rw [offering, TurnAnswers.signedFor, ready]
  rfl

/-- What was signed is handed over, and the turn ends as the sponsor's answer is read. -/
theorem turnTaken_of_answered {Value : Type} {signed : Json} {answer : Fetched}
    {result : Except ClientError Value}
    (discovered : client.readOffer sponsor offer = .ok discovery)
    (ready : ProtocolClient.readPrepared discovery.sponsor [] preparing = .ok prepared)
    (checked : ProtocolClient.requirePrepared prepared = .ok ())
    (answered : Answered turns begun (⟨.discover sponsor, offer⟩ ::
      ⟨.prepare operations signer (some discovery.sponsor), preparing⟩ ::
        ⟨.sign signer prepared, .ok signed⟩ :: [⟨.sponsor sponsor signed, answer⟩]))
    (reading : client.readsAsRefusal ⟨.sponsor sponsor signed, answer⟩ = endsRefused result) :
    TurnTaken client sponsor (turns begun) (⟨.discover sponsor, offer⟩ ::
      ⟨.prepare operations signer (some discovery.sponsor), preparing⟩ ::
        ⟨.sign signer prepared, .ok signed⟩ :: [⟨.sponsor sponsor signed, answer⟩]) result := by
  obtain ⟨offering, given, sponsored, _⟩ := signed_of_answered discovered ready answered
  have same : (.ok signed : Except String Json) = (turns begun).signed := given
  obtain rfl : answer = (turns begun).sponsored := sponsored
  unfold TurnTaken
  rw [offering, checked, ← same]
  exact ⟨rfl, reading⟩

end Turn

theorem ensures_trySponsor (operations : List Json) (signer : String) (sponsor : SponsorClient) :
    (client.trySponsor operations signer sponsor).Ensures fun trace result =>
      ∀ turns begun, Answered turns begun trace →
        TurnTaken client sponsor (turns begun) trace result := by
  refine .query_seq ?_ ?_
  · intro answer error read turns begun ⟨given, _⟩
    obtain rfl : answer = (turns begun).discovered := given
    unfold TurnTaken ProtocolClient.offered
    rw [read]
    exact ⟨rfl, rfl⟩
  intro offer discovery discovered
  refine .query_seq ?_ ?_
  · intro answer error read turns begun answered
    obtain ⟨offering, given, _⟩ := offered_of_answered discovered answered
    obtain rfl : answer = (turns begun).prepared := given
    unfold TurnTaken
    rw [offering, TurnAnswers.signedFor, read]
    exact ⟨rfl, rfl⟩
  intro preparing prepared ready
  refine ensures_sign_seq ?_ ?_ ?_
  · intro error unprepared turns begun answered
    obtain ⟨offering, _⟩ := signed_of_answered discovered ready answered
    unfold TurnTaken
    rw [offering, unprepared]
    exact ⟨rfl, rfl⟩
  · intro message checked turns begun answered
    obtain ⟨offering, given, _⟩ := signed_of_answered discovered ready answered
    have same : (.error message : Except String Json) = (turns begun).signed := given
    unfold TurnTaken
    rw [offering, checked, ← same]
    exact ⟨rfl, rfl⟩
  intro signed checked
  refine .query_seq ?_ ?_
  · intro answer error read turns begun answered
    refine turnTaken_of_answered discovered ready checked answered ?_
    unfold ProtocolClient.readsAsRefusal
    dsimp only
    rw [read]
    rfl
  · intro answer result read
    obtain ⟨transaction, receipt⟩ := result
    refine .lift_seq ?_ fun _ _ => .done fun turns begun answered =>
      turnTaken_of_answered discovered ready checked answered ?_
    · intro error mismatch
      rw [verify_of_readSponsored read] at mismatch
      cases mismatch
    · unfold ProtocolClient.readsAsRefusal
      dsimp only
      rw [read]
      rfl

/-- Every turn of a sponsor begins with its discovery, and no other turn begins in it. -/
theorem ensures_trySponsor_begins (operations : List Json) (signer : String)
    (sponsor : SponsorClient) :
    (client.trySponsor operations signer sponsor).Ensures fun trace _ =>
      trace.countP (fun step => step.1.begins) = 1 := by
  refine .query_seq (fun _ _ _ => rfl) fun _ _ _ => ?_
  refine .query_seq (fun _ _ _ => rfl) fun _ _ _ => ?_
  refine ensures_sign_seq (fun _ _ => rfl) (fun _ _ => rfl) fun _ _ => ?_
  refine .query_seq (fun _ _ _ => rfl) fun _ result _ => ?_
  obtain ⟨transaction, receipt⟩ := result
  exact .lift_seq (fun _ _ => rfl) fun _ _ => .done rfl

theorem handedOver_append : handedOver (first ++ last) = handedOver first ++ handedOver last :=
  List.filter_append ..

/-- What a round over the sponsors hands over; when all refused, every sponsor had its turn. -/
def RoundTaken (client : ProtocolClient) (sponsors : List SponsorClient)
    (turns : ℕ → TurnAnswers) (trace : List Step) : Except ClientError PoolAttempt → Prop
  | .ok (.refused _) => trace.countP (fun step => step.1.begins) = sponsors.length ∧
      ∀ own, client.handings own turns sponsors = handedOver trace ++ own
  | _ => ∀ own, client.handings own turns sponsors = handedOver trace

/-- A sponsor's turn, and the round over the others after a refusal. -/
theorem roundTaken_cons {sponsor : SponsorClient} {rest : List SponsorClient}
    {error : ClientError} {result : Except ClientError PoolAttempt}
    (refusing : error.isSponsor = true)
    (counted : first.countP (fun step => step.1.begins) = 1)
    (taken : TurnTaken client sponsor (turns 0) first (.error error : Except ClientError Sponsored))
    (round : RoundTaken client rest (fun place => turns (place + 1)) last result) :
    RoundTaken client (sponsor :: rest) turns (first ++ last) result := by
  have together : ∀ own, client.handings own turns (sponsor :: rest) =
      handedOver first ++ client.handings own (fun place => turns (place + 1)) rest := by
    intro own
    unfold TurnTaken at taken
    rw [ProtocolClient.handings]
    split at taken
    · obtain ⟨nothing, same⟩ := taken
      obtain rfl := Except.error.inj same
      rw [nothing]
      exact if_pos refusing
    · obtain ⟨handed, reading⟩ := taken
      rw [handed]
      exact congrArg (List.cons _) (if_pos (reading.trans refusing))
  have others : ∀ {tail : List Step → List Step},
      (∀ own, client.handings own (fun place => turns (place + 1)) rest = tail own) →
        ∀ own, client.handings own turns (sponsor :: rest) = handedOver first ++ tail own := by
    intro tail round own
    rw [together, round]
  cases result with
  | error stopped =>
    intro own
    rw [handedOver_append, together, round]
  | ok attempt =>
    cases attempt with
    | accepted value refusals =>
      intro own
      rw [handedOver_append, together, round]
    | refused refusals =>
      refine ⟨?_, fun own => ?_⟩
      · rw [List.countP_append, counted, round.1]
        exact Nat.add_comm ..
      · rw [handedOver_append, together, round.2, List.append_assoc]

/-- A sponsor's turn that ends the round. -/
theorem roundTaken_last {Value : Type} {sponsor : SponsorClient} {rest : List SponsorClient}
    {result : Except ClientError Value} (staying : endsRefused result = false)
    (taken : TurnTaken client sponsor (turns 0) trace result) (own : List Step) :
    client.handings own turns (sponsor :: rest) = handedOver trace := by
  unfold TurnTaken at taken
  rw [ProtocolClient.handings]
  split at taken
  · obtain ⟨nothing, rfl⟩ := taken
    rw [nothing]
    exact if_neg (Bool.eq_false_iff.mp staying)
  · obtain ⟨handed, reading⟩ := taken
    rw [handed]
    exact congrArg (List.cons _) (if_neg (Bool.eq_false_iff.mp (reading.trans staying)))

theorem ensures_tryEach (operations : List Json) (signer : String)
    (refusals : List SponsorRefusal) (sponsors : List SponsorClient) :
    (ProtocolClient.tryEach (client.trySponsor operations signer) refusals sponsors).Ensures
      fun trace result => ∀ turns begun, Answered turns begun trace →
        RoundTaken client sponsors (fun place => turns (begun + place)) trace result := by
  induction sponsors generalizing refusals with
  | nil => exact .done fun turns begun _ => ⟨rfl, fun own => rfl⟩
  | cons sponsor rest inductionHypothesis =>
    have turn : (client.trySponsor operations signer sponsor).Ensures fun trace result =>
        trace.countP (fun step => step.1.begins) = 1 ∧
          ∀ turns begun, Answered turns begun trace →
            TurnTaken client sponsor (turns begun) trace result :=
      fun trace result runs => ⟨ensures_trySponsor_begins operations signer sponsor trace result runs,
        ensures_trySponsor operations signer sponsor trace result runs⟩
    refine .attempt_seq turn ?_
    rintro first ending ⟨counted, taken⟩
    cases ending with
    | ok value =>
      refine .done fun turns begun answered => ?_
      rw [List.append_nil] at answered ⊢
      exact roundTaken_last rfl (taken turns begun answered)
    | error error =>
      show Program.Ensures (if error.isSponsor then _ else _) _
      split
      · next refusing =>
        refine .weaken (inductionHypothesis _) fun last result round turns begun answered => ?_
        obtain ⟨before, after⟩ := answered_append.mp answered
        rw [counted] at after
        have next := round turns (begun + 1) after
        have shifted : (fun place => turns (begun + 1 + place)) =
            fun place => turns (begun + (place + 1)) := by
          funext place
          rw [Nat.add_assoc, Nat.add_comm 1]
        rw [shifted] at next
        exact roundTaken_cons refusing counted (taken turns begun before) next
      · next staying =>
        refine .fail fun turns begun answered => ?_
        rw [List.append_nil] at answered ⊢
        have ends : endsRefused (.error error : Except ClientError Sponsored) = false :=
          Bool.eq_false_iff.mpr staying
        exact roundTaken_last ends (taken turns begun answered)

/-- Waiting for the block hands nothing over, and is part of any turn. -/
theorem ensures_waitFor (waiting : Bool) (transaction : Json) :
    (ProtocolClient.waitFor waiting transaction).Ensures fun trace _ =>
      handedOver trace = [] ∧ ∀ turns begun, Answered turns begun trace := by
  have nothing : handedOver [] = [] ∧ ∀ turns begun, Answered turns begun [] :=
    ⟨rfl, fun _ _ => trivial⟩
  unfold ProtocolClient.waitFor
  split
  · refine .lift_seq (fun _ _ => nothing) fun _ _ => ?_
    split
    · exact .query fun _ => ⟨rfl, fun _ _ => ⟨trivial, trivial⟩⟩
    · exact .done nothing
  · exact .done nothing

/-- A submission that pays itself hands over what it signs. -/
theorem ensures_selfPay (options : SubmitOptions) (refusals : List SponsorRefusal) :
    (client.selfPay options refusals).Ensures fun trace _ => ∀ turns begun,
      Answered turns begun trace → handedOver trace = (turns begun).broadcast options.signer := by
  refine .query_seq ?_ ?_
  · intro answer error read turns begun ⟨given, _⟩
    obtain rfl : answer = (turns begun).prepared := given
    obtain ⟨other, failed⟩ := readPrepared_error read
    unfold TurnAnswers.broadcast TurnAnswers.signedFor
    rw [failed]
    rfl
  intro preparing prepared ready
  have signedFor : ∀ {turns begun} {rest : List Step},
      Answered turns begun (⟨.prepare options.operations options.signer none, preparing⟩ :: rest) →
        ((turns begun).signedFor options.signer = do
          ProtocolClient.requirePrepared prepared
          (turns begun).signed.mapError .other) ∧ Answered turns (begun + 1) rest := by
    intro turns begun rest ⟨given, answered⟩
    obtain rfl : preparing = (turns begun).prepared := given
    refine ⟨?_, answered⟩
    rw [TurnAnswers.signedFor, readPrepared_ok ready]
    rfl
  refine ensures_sign_seq ?_ ?_ ?_
  · intro error unprepared turns begun answered
    obtain ⟨signing, _⟩ := signedFor answered
    unfold TurnAnswers.broadcast
    rw [signing, unprepared]
    rfl
  · intro message checked turns begun answered
    obtain ⟨signing, given, _⟩ := signedFor answered
    have same : (.error message : Except String Json) = (turns begun).signed := given
    unfold TurnAnswers.broadcast
    rw [signing, checked, ← same]
    rfl
  intro signed checked
  have handed : ∀ {turns begun} {answer : Sent} {rest : List Step},
      Answered turns begun (⟨.prepare options.operations options.signer none, preparing⟩ ::
        ⟨.sign options.signer prepared, .ok signed⟩ :: ⟨.sendTransaction signed, answer⟩ :: rest) →
      handedOver rest = [] →
        handedOver (⟨.prepare options.operations options.signer none, preparing⟩ ::
          ⟨.sign options.signer prepared, .ok signed⟩ ::
            ⟨.sendTransaction signed, answer⟩ :: rest) =
          (turns begun).broadcast options.signer := by
    intro turns begun answer rest answered still
    obtain ⟨signing, given, sent, _⟩ := signedFor answered
    have same : (.ok signed : Except String Json) = (turns begun).signed := given
    obtain rfl : answer = (turns begun).sent := sent
    unfold TurnAnswers.broadcast
    rw [signing, checked, ← same]
    exact congrArg (List.cons _) still
  refine .query_seq (fun answer _ _ turns begun answered => handed answered rfl) ?_
  intro answer result _
  refine .lift_seq (fun _ _ turns begun answered => handed answered rfl) fun events _ => ?_
  refine .seq (ensures_waitFor _ _) (fun last _ still turns begun answered =>
    handed answered still.1) ?_
  rintro last block ⟨still, _⟩
  refine .done fun turns begun answered => ?_
  rw [List.append_nil] at answered ⊢
  exact handed answered still

/-- What a submission hands over: what the turns of its sponsors come to, and what it signs for its
own payment. -/
theorem ensures_submit (options : SubmitOptions) :
    (client.submit options).Ensures fun trace _ => ∀ turns, Answered turns 0 trace →
      handedOver trace = client.handings
        (if options.selfPayFallback || options.sponsors.isEmpty then
          (turns options.sponsors.length).broadcast options.signer else []) turns
        options.sponsors := by
  have origin : ∀ turns : ℕ → TurnAnswers, (fun place => turns (0 + place)) = turns := by
    intro turns
    funext place
    rw [Nat.zero_add]
  refine .seq (ensures_tryEach _ _ [] options.sponsors) ?_ ?_
  · intro trace error round turns answered
    have taken := round turns 0 answered
    rw [origin] at taken
    exact (taken _).symm
  intro first attempt round
  cases attempt with
  | accepted value refusals =>
    have taken : ∀ {last : List Step}, handedOver last = [] → ∀ turns,
        Answered turns 0 (first ++ last) → ∀ own,
          handedOver (first ++ last) = client.handings own turns options.sponsors := by
      intro last still turns answered own
      have taken := round turns 0 (answered_append.mp answered).1
      rw [origin] at taken
      rw [handedOver_append, still, List.append_nil]
      exact (taken own).symm
    refine .lift_seq (fun _ _ turns answered => taken rfl turns answered _) fun events _ => ?_
    refine .seq (ensures_waitFor _ _) (fun last _ still turns answered =>
      taken still.1 turns answered _) ?_
    rintro last block ⟨still, _⟩
    refine .done fun turns answered => ?_
    rw [List.append_nil] at answered ⊢
    exact taken still turns answered _
  | refused refusals =>
    show Program.Ensures (if _ then _ else _) _
    split
    · next closed =>
      refine .fail fun turns answered => ?_
      rw [List.append_nil] at answered ⊢
      obtain ⟨_, taken⟩ := round turns 0 answered
      have alone : (options.selfPayFallback || options.sponsors.isEmpty) = false := by
        rw [Bool.and_eq_true, Bool.not_eq_true'] at closed
        rw [closed.1, Bool.false_or, Bool.eq_false_iff, ne_eq, List.isEmpty_iff]
        exact bne_iff_ne.mp closed.2
      rw [alone, ← origin turns, taken]
      exact (List.append_nil _).symm
    · next opened =>
      refine .weaken (ensures_selfPay options refusals) fun last _ paid turns answered => ?_
      obtain ⟨before, after⟩ := answered_append.mp answered
      obtain ⟨counted, taken⟩ := round turns 0 before
      rw [counted, Nat.zero_add] at after
      have pays : (options.selfPayFallback || options.sponsors.isEmpty) = true := by
        rw [Bool.and_eq_true, not_and_or, Bool.not_eq_true', Bool.not_eq_false] at opened
        rcases opened with fallback | empty
        · rw [fallback, Bool.true_or]
        · rw [List.isEmpty_iff.mpr (not_not.mp fun other => empty (bne_iff_ne.mpr other)),
            Bool.or_true]
      rw [origin] at taken
      rw [pays, if_pos rfl, taken, handedOver_append, paid turns _ after]

/-! ### The turns of a run -/

/-- A turn in which nobody was asked. -/
def unasked : TurnAnswers :=
  ⟨.fetched (.unreachable ""), .failed "", .error "", .unreachable "", .lost ""⟩

/-- Some answers of one turn are those of these steps. -/
def InOneTurn (trace : List Step) : Prop :=
  ∃ turn, ∀ turns begun, turns begun = turn → Answered turns begun trace

theorem ensures_trySponsor_turn (operations : List Json) (signer : String)
    (sponsor : SponsorClient) :
    (client.trySponsor operations signer sponsor).Ensures fun trace _ => InOneTurn trace := by
  refine .query_seq (fun discovered _ _ => ?_) fun discovered discovery _ => ?_
  · exact ⟨{ unasked with discovered := discovered }, fun turns begun same =>
      ⟨(congrArg TurnAnswers.discovered same).symm, trivial⟩⟩
  refine .query_seq (fun prepared _ _ => ?_) fun prepared transaction _ => ?_
  · exact ⟨{ unasked with discovered := discovered, prepared := prepared }, fun turns begun same =>
      ⟨(congrArg TurnAnswers.discovered same).symm, (congrArg TurnAnswers.prepared same).symm,
        trivial⟩⟩
  refine ensures_sign_seq (fun _ _ => ?_) (fun message _ => ?_) fun signed _ => ?_
  · exact ⟨{ unasked with discovered := discovered, prepared := prepared }, fun turns begun same =>
      ⟨(congrArg TurnAnswers.discovered same).symm, (congrArg TurnAnswers.prepared same).symm,
        trivial⟩⟩
  · exact ⟨⟨discovered, prepared, .error message, .unreachable "", .lost ""⟩,
      fun turns begun same => ⟨(congrArg TurnAnswers.discovered same).symm,
        (congrArg TurnAnswers.prepared same).symm, (congrArg TurnAnswers.signed same).symm,
        trivial⟩⟩
  have whole : ∀ sponsored : Fetched, InOneTurn [⟨.discover sponsor, discovered⟩,
      ⟨.prepare operations signer (some discovery.sponsor), prepared⟩,
      ⟨.sign signer transaction, .ok signed⟩,
      ⟨.sponsor sponsor signed, sponsored⟩] := fun sponsored =>
    ⟨⟨discovered, prepared, .ok signed, sponsored, .lost ""⟩, fun turns begun same =>
      ⟨(congrArg TurnAnswers.discovered same).symm, (congrArg TurnAnswers.prepared same).symm,
        (congrArg TurnAnswers.signed same).symm, (congrArg TurnAnswers.sponsored same).symm,
        trivial⟩⟩
  refine .query_seq (fun sponsored _ _ => whole sponsored) fun sponsored result _ => ?_
  obtain ⟨transaction, receipt⟩ := result
  exact .lift_seq (fun _ _ => whole sponsored) fun _ _ => .done (whole sponsored)

theorem ensures_selfPay_turn (options : SubmitOptions) (refusals : List SponsorRefusal) :
    (client.selfPay options refusals).Ensures fun trace _ => InOneTurn trace := by
  refine .query_seq (fun prepared _ _ => ?_) fun prepared transaction _ => ?_
  · exact ⟨{ unasked with prepared := prepared }, fun turns begun same =>
      ⟨(congrArg TurnAnswers.prepared same).symm, trivial⟩⟩
  refine ensures_sign_seq (fun _ _ => ?_) (fun message _ => ?_) fun signed _ => ?_
  · exact ⟨{ unasked with prepared := prepared }, fun turns begun same =>
      ⟨(congrArg TurnAnswers.prepared same).symm, trivial⟩⟩
  · exact ⟨{ unasked with prepared := prepared, signed := .error message },
      fun turns begun same => ⟨(congrArg TurnAnswers.prepared same).symm,
        (congrArg TurnAnswers.signed same).symm, trivial⟩⟩
  have whole : ∀ (sent : Sent) (last : List Step), (∀ turns begun, Answered turns begun last) →
      InOneTurn (⟨.prepare options.operations options.signer none, prepared⟩ ::
        ⟨.sign options.signer transaction, .ok signed⟩ :: ⟨.sendTransaction signed, sent⟩ :: last) :=
    fun sent last still =>
      ⟨⟨.fetched (.unreachable ""), prepared, .ok signed, .unreachable "", sent⟩,
        fun turns begun same => ⟨(congrArg TurnAnswers.prepared same).symm,
          (congrArg TurnAnswers.signed same).symm, (congrArg TurnAnswers.sent same).symm,
          still turns _⟩⟩
  refine .query_seq (fun sent _ _ => whole sent [] fun _ _ => trivial) fun sent result _ => ?_
  refine .lift_seq (fun _ _ => whole sent [] fun _ _ => trivial) fun events _ => ?_
  refine .seq (ensures_waitFor _ _) (fun last _ still => whole sent last still.2) ?_
  rintro last block ⟨_, still⟩
  refine .done ?_
  rw [List.append_nil]
  exact whole sent last still

/-- The answers to a round over the sponsors are those of a turn for each of them. -/
theorem ensures_tryEach_turns (operations : List Json) (signer : String)
    (refusals : List SponsorRefusal) (sponsors : List SponsorClient) :
    (ProtocolClient.tryEach (client.trySponsor operations signer) refusals sponsors).Ensures
      fun trace result => (∃ given : ℕ → TurnAnswers, ∀ turns begun,
        (∀ place < sponsors.length, turns (begun + place) = given place) →
          Answered turns begun trace) ∧
        ∀ others, result = .ok (.refused others) →
          trace.countP (fun step => step.1.begins) = sponsors.length := by
  induction sponsors generalizing refusals with
  | nil => exact .done ⟨⟨fun _ => unasked, fun _ _ _ => trivial⟩, fun _ _ => rfl⟩
  | cons sponsor rest inductionHypothesis =>
    have turn : (client.trySponsor operations signer sponsor).Ensures fun trace _ =>
        trace.countP (fun step => step.1.begins) = 1 ∧ InOneTurn trace :=
      fun trace result runs => ⟨ensures_trySponsor_begins operations signer sponsor trace result runs,
        ensures_trySponsor_turn operations signer sponsor trace result runs⟩
    refine .attempt_seq turn ?_
    rintro first ending ⟨counted, turn, taken⟩
    have alone : ∃ given : ℕ → TurnAnswers, ∀ turns begun,
        (∀ place < (sponsor :: rest).length, turns (begun + place) = given place) →
          Answered turns begun (first ++ []) := by
      refine ⟨fun _ => turn, fun turns begun same => ?_⟩
      rw [List.append_nil]
      exact taken turns begun (same 0 (Nat.succ_pos _))
    cases ending with
    | ok value => exact .done ⟨alone, fun _ impossible => (by cases impossible)⟩
    | error error =>
      show Program.Ensures (if error.isSponsor then _ else _) _
      split
      · refine .weaken (inductionHypothesis _) ?_
        rintro last result ⟨⟨given, answered⟩, count⟩
        refine ⟨⟨fun place => place.casesOn turn given, fun turns begun same => ?_⟩,
          fun others refused => ?_⟩
        · refine answered_append.mpr ⟨taken turns begun (same 0 (Nat.succ_pos _)), ?_⟩
          rw [counted]
          refine answered turns (begun + 1) fun place inside => ?_
          rw [Nat.add_assoc, Nat.add_comm 1]
          exact same (place + 1) (Nat.succ_lt_succ inside)
        · rw [List.countP_append, counted, count others refused]
          exact Nat.add_comm ..
      · exact .fail ⟨alone, fun _ impossible => (by cases impossible)⟩

/-- The answers of every run are those of some turns. -/
theorem ensures_submit_turns (options : SubmitOptions) :
    (client.submit options).Ensures fun trace _ => ∃ turns, Answered turns 0 trace := by
  have origin : ∀ {given : ℕ → TurnAnswers} {count : ℕ},
      ∀ place < count, given (0 + place) = given place := by
    intro given count place _
    rw [Nat.zero_add]
  refine .seq (ensures_tryEach_turns _ _ [] options.sponsors) ?_ ?_
  · rintro trace error ⟨⟨given, answered⟩, _⟩
    exact ⟨given, answered given 0 origin⟩
  rintro first attempt ⟨⟨given, answered⟩, counted⟩
  cases attempt with
  | accepted value refusals =>
    have whole : ∀ {last : List Step}, (∀ turns begun, Answered turns begun last) →
        ∃ turns, Answered turns 0 (first ++ last) := fun still =>
      ⟨given, answered_append.mpr ⟨answered given 0 origin, still _ _⟩⟩
    refine .lift_seq (fun _ _ => whole fun _ _ => trivial) fun events _ => ?_
    refine .seq (ensures_waitFor _ _) (fun last _ still => whole still.2) ?_
    rintro last block ⟨_, still⟩
    refine .done ?_
    rw [List.append_nil]
    exact whole still
  | refused refusals =>
    show Program.Ensures (if _ then _ else _) _
    split
    · refine .fail ⟨given, ?_⟩
      rw [List.append_nil]
      exact answered given 0 origin
    · refine .weaken (ensures_selfPay_turn options refusals) ?_
      rintro last _ ⟨turn, paid⟩
      let turns : ℕ → TurnAnswers := fun place =>
        if place < options.sponsors.length then given place else turn
      refine ⟨turns, answered_append.mpr ⟨answered turns 0 fun place inside => ?_, ?_⟩⟩
      · rw [Nat.zero_add]
        exact if_pos inside
      · rw [counted refusals rfl, Nat.zero_add]
        exact paid turns _ (if_neg (lt_irrefl _))

end Handings

/-! ### At most one transaction that was not rejected -/

section Once

variable {client : ProtocolClient} {turns : ℕ → TurnAnswers} {sponsor : SponsorClient}
  {rest sponsors : List SponsorClient} {own : List Step} {last : Bool}

/-- No turn comes to a signature, as long as everyone before refuses. -/
def Unsigned (client : ProtocolClient) (turns : ℕ → TurnAnswers) (last : Bool)
    (sponsors : List SponsorClient) : Prop :=
  ∀ later ≤ sponsors.length, (∀ place < later, client.refusesAt turns sponsors place = true) →
    client.signsAt turns last sponsors later = false

/-- Everyone before a later place refuses, if the first one does, and the others before it. -/
theorem refusesAt_cons (refusing : client.refuses sponsor (turns 0) = true) {later : ℕ}
    (others : ∀ place < later,
      client.refusesAt (fun place => turns (place + 1)) rest place = true) :
    ∀ place < later + 1, client.refusesAt turns (sponsor :: rest) place = true := by
  intro place before
  cases place with
  | zero => exact refusing
  | succ place => exact others place (Nat.lt_of_succ_lt_succ before)

theorem unsigned_cons : Unsigned client turns last (sponsor :: rest) ↔
    (client.offered sponsor (turns 0)).isOk = false ∧ (client.refuses sponsor (turns 0) = true →
      Unsigned client (fun place => turns (place + 1)) last rest) := by
  constructor
  · intro unsigned
    refine ⟨unsigned 0 (Nat.zero_le _) fun _ impossible => absurd impossible (Nat.not_lt_zero _), ?_⟩
    intro refusing later inside others
    exact unsigned (later + 1) (Nat.succ_le_succ inside) (refusesAt_cons refusing others)
  · rintro ⟨first, others⟩ later inside refusing
    cases later with
    | zero => exact first
    | succ later =>
      exact others (refusing 0 (Nat.succ_pos _)) later (Nat.le_of_succ_le_succ inside)
        fun place before => refusing (place + 1) (Nat.succ_lt_succ before)

theorem spared_cons : client.Spared turns last (sponsor :: rest) ↔
    (client.refuses sponsor (turns 0) = true →
      (client.leavesUnknown sponsor (turns 0) = true →
        Unsigned client (fun place => turns (place + 1)) last rest) ∧
      client.Spared (fun place => turns (place + 1)) last rest) := by
  constructor
  · intro spared refusing
    constructor
    · intro unknown later inside others
      exact spared (later + 1) (Nat.succ_le_succ inside) 0 (Nat.succ_pos _) unknown
        (refusesAt_cons refusing others)
    · intro later inside first before unknown others
      exact spared (later + 1) (Nat.succ_le_succ inside) (first + 1) (Nat.succ_lt_succ before)
        unknown (refusesAt_cons refusing others)
  · intro both later inside first before unknown refusing
    cases later with
    | zero => exact absurd before (Nat.not_lt_zero _)
    | succ later =>
      obtain ⟨alone, others⟩ := both (refusing 0 (Nat.succ_pos _))
      have after : ∀ place < later,
          client.refusesAt (fun place => turns (place + 1)) rest place = true :=
        fun place before => refusing (place + 1) (Nat.succ_lt_succ before)
      cases first with
      | zero => exact alone unknown later (Nat.le_of_succ_le_succ inside) after
      | succ first =>
        exact others later (Nat.le_of_succ_le_succ inside) first (Nat.lt_of_succ_lt_succ before)
          unknown after

/-- Nothing is handed over exactly if no turn that is reached comes to a signature. -/
theorem handings_eq_nil (ending : own = [] ↔ last = false) :
    client.handings own turns sponsors = [] ↔ Unsigned client turns last sponsors := by
  induction sponsors generalizing turns with
  | nil =>
    refine ending.trans ⟨fun none later inside _ => ?_, fun unsigned => ?_⟩
    · obtain rfl := Nat.le_zero.mp inside
      exact none
    · exact unsigned 0 le_rfl fun _ impossible => absurd impossible (Nat.not_lt_zero _)
  | cons sponsor rest inductionHypothesis =>
    rw [unsigned_cons, ProtocolClient.handings, ProtocolClient.refuses, ← inductionHypothesis]
    cases client.offered sponsor (turns 0) with
    | error error =>
      cases refusing : error.isSponsor with
      | true => simp [refusing, Except.isOk, Except.toBool]
      | false => simp [refusing, Except.isOk, Except.toBool]
    | ok signed =>
      refine iff_of_false (List.cons_ne_nil _ _) fun both => ?_
      cases both.1

/-- Whatever is handed over was rejected before anything else is, exactly if the inconclusive
answers are spared. -/
theorem pairwise_handings (alone : own.Pairwise fun step _ => client.provesRejected step = true)
    (ending : own = [] ↔ last = false) :
    (client.handings own turns sponsors).Pairwise
        (fun step _ => client.provesRejected step = true) ↔
      client.Spared turns last sponsors := by
  induction sponsors generalizing turns with
  | nil =>
    refine iff_of_true alone fun later inside first before => ?_
    obtain rfl := Nat.le_zero.mp inside
    exact absurd before (Nat.not_lt_zero _)
  | cons sponsor rest inductionHypothesis =>
    rw [spared_cons, ← inductionHypothesis, ProtocolClient.handings, ProtocolClient.refuses,
      ProtocolClient.leavesUnknown, ← handings_eq_nil ending]
    cases client.offered sponsor (turns 0) with
    | error error =>
      cases refusing : error.isSponsor with
      | true => simp [refusing]
      | false => simp [refusing]
    | ok signed =>
      dsimp only
      have reading := @inconclusive_iff client ⟨.sponsor sponsor signed, (turns 0).sponsored⟩
      split
      · next refusing =>
        rw [List.pairwise_cons]
        refine ⟨fun both _ => ⟨fun unknown => ?_, both.2⟩, fun both => ⟨fun later member => ?_,
          (both refusing).2⟩⟩
        · refine List.eq_nil_iff_forall_not_mem.mpr fun later member => ?_
          have proven := both.1 later member
          rw [(reading.mp unknown).2] at proven
          cases proven
        · refine Bool.eq_true_of_not_eq_false fun unproven => ?_
          rw [(both refusing).1 (reading.mpr ⟨refusing, unproven⟩)] at member
          exact absurd member List.not_mem_nil
      · next staying =>
        refine iff_of_true (List.pairwise_singleton ..) fun refusing => ?_
        exact absurd refusing staying

theorem handsOutOnce_iff {trace : List Step} : client.HandsOutOnce trace ↔
    (handedOver trace).Pairwise fun step _ => client.provesRejected step = true := by
  unfold ProtocolClient.HandsOutOnce handedOver
  rw [List.pairwise_filter]
  refine List.Pairwise.iff fun step later => ?_
  cases step.1.handsOver <;> cases later.1.handsOver <;> cases client.provesRejected step <;> simp

/-- Then at most one transaction was handed over whose rejection is not proved. -/
theorem unproven_le_one {trace : List Step} (once : client.HandsOutOnce trace) :
    trace.countP client.unproven ≤ 1 := by
  induction trace with
  | nil => exact Nat.zero_le 1
  | cons step rest inductionHypothesis =>
    obtain ⟨first, once⟩ := List.pairwise_cons.mp once
    by_cases unproven : client.unproven step = true
    · have alone : rest.countP client.unproven = 0 := by
        rw [ProtocolClient.unproven, Bool.and_eq_true, Bool.not_eq_true'] at unproven
        rw [List.countP_eq_zero]
        intro later member
        rw [ProtocolClient.unproven, first later member unproven.1 unproven.2]
        exact Bool.false_ne_true
      rw [List.countP_cons_of_pos unproven, alone]
    · rw [List.countP_cons_of_neg unproven]
      exact inductionHypothesis once

end Once

/-- In every run, answered in whatever turns, at most one transaction is handed out that was not
rejected, and nothing after it, exactly when no turn after an inconclusive answer of a sponsor comes
to a signature. -/
theorem submit_hands_out_once_iff (client : ProtocolClient) (options : SubmitOptions)
    (trace : List Step) (result : Except ClientError SubmitResult)
    (runs : Program.Runs (client.submit options) trace result) :
    (∃ turns, Answered turns 0 trace) ∧ ∀ turns, Answered turns 0 trace →
      ((client.HandsOutOnce trace ∧ trace.countP client.unproven ≤ 1) ↔
        client.Spared turns (options.signsItself turns) options.sponsors) := by
  refine ⟨ensures_submit_turns options trace result runs, fun turns answered => ?_⟩
  have handed := ensures_submit options trace result runs turns answered
  have spared : client.HandsOutOnce trace ↔
      client.Spared turns (options.signsItself turns) options.sponsors := by
    rw [handsOutOnce_iff, handed]
    refine pairwise_handings ?_ ?_
    · unfold TurnAnswers.broadcast
      split
      · split
        · exact .nil
        · exact List.pairwise_singleton ..
      · exact .nil
    · unfold SubmitOptions.signsItself TurnAnswers.broadcast
      cases options.selfPayFallback || options.sponsors.isEmpty with
      | false => exact iff_of_true rfl rfl
      | true =>
        cases (turns options.sponsors.length).signedFor options.signer with
        | error error => exact iff_of_true rfl rfl
        | ok signed => exact iff_of_false (List.cons_ne_nil _ _) (fun impossible => by cases impossible)
  exact ⟨fun both => spared.mp both.1, fun holds =>
    ⟨spared.mpr holds, unproven_le_one (spared.mpr holds)⟩⟩

/-- A client, and a submission of one operation to two sponsors. -/
def sampleClient : ProtocolClient where
  chainId := "chain"
  koilib := ⟨fun _ _ => .ok "tx", fun _ => none⟩
  decodeReceiptEvents := fun _ => .ok []

def twoSponsors : SubmitOptions where
  operations := [.object []]
  signer := "payee"
  sponsors := [⟨"https://one", none⟩, ⟨"https://two", none⟩]
  selfPayFallback := false
  waitForReceipt := false

/-- Everything goes well until the transaction is handed to a sponsor. -/
def sampleTurn (sponsored : Fetched) : TurnAnswers where
  discovered := .cached ⟨"sponsor", .object []⟩
  prepared := .transaction (.object [("id", .string "tx")])
  signed := .ok (.object [("id", .string "tx")])
  sponsored := sponsored
  sent := .lost "not sent"

/-- The answers of such turns. -/
def answering (sponsored : Fetched) : List Step → (request : Request) → Answer request
  | _, .discover _ => (sampleTurn sponsored).discovered
  | _, .prepare _ _ _ => (sampleTurn sponsored).prepared
  | _, .sign _ _ => (sampleTurn sponsored).signed
  | _, .wait _ => .error "not awaited"
  | _, .sponsor _ _ => sponsored
  | _, .sendTransaction _ => (sampleTurn sponsored).sent

theorem answered_answering {Failure Value : Type} (sponsored : Fetched)
    (program : Program Request Answer Failure Value) (past : List Step) (begun : ℕ) :
    Answered (fun _ => sampleTurn sponsored) begun
      (Program.exec (answering sponsored) past program).1 := by
  induction program generalizing past begun with
  | done value => exact trivial
  | fail failure => exact trivial
  | ask request rest inductionHypothesis =>
    refine ⟨?_, inductionHypothesis _ _ _⟩
    cases request with
    | wait transaction => exact trivial
    | _ => exact rfl

/-- A sponsor's refusal over its quota. -/
def quotaRefusal : Fetched :=
  .answered 429 (.json (.object [("error", .object [("category", .string "quota_exceeded"),
    ("message", .string "daily quota used up")])]))

/-- Both sponsors refuse, each after it was handed a transaction. -/
theorem submit_hands_out_once_quotaRefusal :
    (Program.exec (answering quotaRefusal) [] (sampleClient.submit twoSponsors)).1.countP
        (fun step => step.1.handsOver) = 2 ∧
      (Program.exec (answering quotaRefusal) [] (sampleClient.submit twoSponsors)).1.countP
        sampleClient.unproven ≤ 1 := by
  have runs := Program.runs_exec (answering quotaRefusal) [] (sampleClient.submit twoSponsors)
  have answered := answered_answering quotaRefusal (sampleClient.submit twoSponsors) [] 0
  refine ⟨by decide +kernel, ?_⟩
  exact (((submit_hands_out_once_iff _ _ _ _ runs).2 _ answered).mpr (by decide +kernel)).2

/-- The answers of both sponsors time out: the second one is handed a transaction after the first
may have broadcast its own. -/
theorem submit_hands_out_twice :
    ¬ ∀ (client : ProtocolClient) (options : SubmitOptions) (trace : List Step)
      (result : Except ClientError SubmitResult),
      Program.Runs (client.submit options) trace result → client.HandsOutOnce trace := by
  intro always
  have runs := Program.runs_exec (answering (.unreachable "timeout")) []
    (sampleClient.submit twoSponsors)
  have once := always _ _ _ _ runs
  exact absurd once (by decide +kernel)

end OpenSocial.Sdk

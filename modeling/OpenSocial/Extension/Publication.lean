/-
This file models how the extension submits a publication and classifies its
failure: the payment plan, the sponsored or self-paid submission, the error that
carries the attempt, and the mapping of errors to the reconcile event they
deserve.

What precedes the submission (reads, encryption, ids) and the key bookkeeping
after it are single requests here: they hand nothing over, and whatever they
answer is allowed. The errors a run can end with are read off its last answer.
-/

import OpenSocial.Common.Util
import OpenSocial.Sdk.Submission

namespace OpenSocial.Extension

open Library Sdk

/-! ### Texts -/

/-- Whether a text has a phrase in it, both already in one case. -/
def occursIn (phrase : List Char) : List Char → Bool
  | [] => phrase.isEmpty
  | head :: tail => phrase.isPrefixOf (head :: tail) || occursIn phrase tail

/-- A case-insensitive match of a phrase of ASCII letters anywhere in a text. -/
def mentions (phrase text : String) : Bool :=
  occursIn (phrase.toList.map Char.toLower) (text.toList.map Char.toLower)

/-- The alternatives of `TRANSPORT_RE`. -/
def TRANSPORT_RE : List String :=
  ["timeout", "timed out", "deadline", "network", "failed to fetch", "aborted", "ECONNRESET",
    "socket"]

def looksLikeTransport (text : String) : Bool :=
  TRANSPORT_RE.any fun phrase => mentions phrase text

def namesDuplicate (text : String) : Bool :=
  mentions "duplicate idempotency key" text

/-! ### Payment -/

/-- `PaymentPreference`. -/
inductive PaymentPreference where
  | sponsorThenSelf
  | sponsorOnly
  | selfOnly
  deriving DecidableEq, Repr

/-- What pays for a transaction: the keys this browser holds and the configured sponsors. -/
structure PaymentContext where
  client : ProtocolClient
  device : String
  owner : Option String
  payment : PaymentPreference
  sponsorUrls : List String
  sponsors : List SponsorClient

inductive PaymentPlan where
  | sponsored (selfPayFallback : Bool)
  | self (payer : String)
  deriving DecidableEq, Repr

def NO_SPONSOR_MESSAGE : String :=
  "This browser publishes through a sponsor; add one in the options (it holds only a device " ++
    "key, which cannot pay for transactions)."

/-- How a device-signed transaction gets paid. -/
def paymentPlan (ctx : PaymentContext) : Except ClientError PaymentPlan :=
  match ctx.payment with
  | .selfOnly =>
    match ctx.owner with
    | none => .error (.payment ("This browser holds only a device key, which cannot pay for " ++
        "transactions. Choose a sponsored payment in the options, or keep the identity seed in " ++
        "this browser."))
    | some owner => .ok (.self owner)
  | preference =>
    if ctx.sponsorUrls = [] then
      if preference = .sponsorOnly then
        .error (.payment "Sponsored only: add a sponsor in the options.")
      else match ctx.owner with
        | none => .error (.payment NO_SPONSOR_MESSAGE)
        | some owner => .ok (.self owner)
    else .ok (.sponsored (preference == .sponsorThenSelf && ctx.owner.isSome))

/-! ### Submission -/

/-- Self-pay with the owner key as payer and the device key as payee, signed by both. -/
def selfPayWithOwner (ctx : PaymentContext) (operations : List Json) (owner : String) :
    Action SubmitResult := do
  let prepared ← Program.query (.prepare operations ctx.device (some owner))
    (ProtocolClient.readPrepared owner [])
  let signed ← ProtocolClient.sign (← ProtocolClient.sign prepared ctx.device) owner
  let (transaction, receipt) ← ProtocolClient.broadcast signed
  let events ← Program.lift (ctx.client.decode receipt)
  pure ⟨transaction, receipt, events, false, none, [], none⟩

/-- Device-signed operations, following the payment plan; only a sponsor error falls back to the
owner key. -/
def submitOperations (ctx : PaymentContext) (operations : List Json) : Action SubmitResult := do
  match ← Program.lift (paymentPlan ctx) with
  | .self payer => selfPayWithOwner ctx operations payer
  | .sponsored selfPayFallback => do
    match ← Program.attempt (ctx.client.submit
      { operations := operations
        signer := ctx.device
        sponsors := ctx.sponsors
        selfPayFallback := false
        waitForReceipt := false }) with
    | .ok result => pure result
    | .error error =>
      if error.isSponsor && selfPayFallback then
        match ctx.owner with
        | some owner => selfPayWithOwner ctx operations owner
        | none => Program.fail error
      else Program.fail error

/-! ### Publishing -/

/-- What is known about an attempt before the node answers. -/
structure PublishAttempt where
  postId : Bytes
  contentHash : Bytes
  sequence : ℕ
  epoch : ℕ
  versionNumber : ℕ
  transactionId : Option Json
  deriving DecidableEq

/-- A publication ready to be submitted; a friends post under a new epoch key creates one. -/
structure Composed where
  attempt : PublishAttempt
  operations : List Json
  created : Bool

structure PublishOutcome where
  attempt : PublishAttempt
  txId : Json
  sponsored : Bool

/-- What publishing throws: `PublishAttemptError` for a failure of the submission, anything else as
it is. -/
inductive PublishError where
  | plain (error : ClientError)
  | attempt (cause : ClientError) (attempt : PublishAttempt)

/-- The id of the transaction an error is about. -/
def transactionIdOf : ClientError → Option Json
  | .outcomeUnknown transaction _ => transaction.truthyMember "id"
  | .reverted transaction _ _ => transaction.truthyMember "id"
  | _ => none

/-- `publishPost`: what it composes and what storing a new epoch key answers are given. -/
def publishPost (ctx : PaymentContext) (composed : Except String Composed)
    (putKey : Except String Unit) :
    Program Sdk.Request Sdk.Answer PublishError PublishOutcome := do
  let _ ← Program.lift ((paymentPlan ctx).mapError .plain)
  let publication ← Program.lift (composed.mapError fun message => .plain (.other message))
  match ← Program.attempt (submitOperations ctx publication.operations) with
  | .error cause =>
    Program.fail (.attempt cause
      { publication.attempt with transactionId := transactionIdOf cause })
  | .ok result => do
    Program.lift (if publication.created then
      putKey.mapError fun message => .plain (.other message) else .ok ())
    pure ⟨publication.attempt, (result.transaction.member? "id").getD (.string ""),
      result.sponsored⟩

/-! ### Classifying a failure -/

inductive SubmitFailureKind where
  | unknown
  | duplicate
  | failed
  deriving DecidableEq, Repr

structure SubmitFailure where
  kind : SubmitFailureKind
  message : String
  attempt : Option PublishAttempt

/-- The kind and text of a failure; only a failure of the submission itself can be lost on the
way. -/
def classify (error : ClientError) (submitted : Bool) : SubmitFailureKind × String :=
  match error with
  | .outcomeUnknown _ _ => (.unknown, error.message)
  | .reverted _ _ _ =>
    if namesDuplicate error.message then (.duplicate, error.message) else (.failed, error.message)
  | .sponsor category message _ _ =>
    if namesDuplicate message then (.duplicate, message)
    else (.failed, "Sponsor refused (" ++ category.text ++ "): " ++ message)
  | other =>
    if namesDuplicate other.message then (.duplicate, other.message)
    else if submitted && looksLikeTransport other.message then (.unknown, other.message)
    else (.failed, other.message)

def classifySubmitError : PublishError → SubmitFailure
  | .attempt cause attempt =>
    ⟨(classify cause true).1, (classify cause true).2, some attempt⟩
  | .plain error => ⟨(classify error false).1, (classify error false).2, none⟩

/-! ### What the last answer makes a submission throw -/

/-- What a computation throws, if it throws. -/
def thrownBy {Value : Type} : Except ClientError Value → Option ClientError
  | .ok _ => none
  | .error error => some error

theorem eq_error_of_thrownBy {Value : Type} {result : Except ClientError Value}
    {error : ClientError} (thrown : thrownBy result = some error) : result = .error error := by
  cases result with
  | ok value => cases thrown
  | error other => exact congrArg Except.error (Option.some.inj thrown)

theorem eq_ok_of_thrownBy {Value : Type} {result : Except ClientError Value}
    (silent : thrownBy result = none) : ∃ value, result = .ok value := by
  cases result with
  | ok value => exact ⟨value, rfl⟩
  | error other => cases silent

/-- What the client throws when an answer ends the submission; nothing, when the submission
succeeds with it. -/
def thrown (client : ProtocolClient) : Step → Option ClientError
  | ⟨.discover sponsor, answer⟩ => thrownBy (client.readOffer sponsor answer)
  | ⟨.prepare _ payee payer, answer⟩ =>
    thrownBy (ProtocolClient.readPrepared (payer.getD payee) [] answer >>=
      ProtocolClient.requirePrepared)
  | ⟨.sign _ _, .ok signed⟩ => thrownBy (ProtocolClient.requirePrepared signed)
  | ⟨.sign _ _, .error message⟩ => some (.other message)
  | ⟨.wait _, .ok _⟩ => none
  | ⟨.wait _, .error message⟩ => some (.other message)
  | ⟨.sponsor sponsor signed, answer⟩ =>
    thrownBy (readSponsored client.koilib sponsor signed answer >>= fun result =>
      client.readReceipt result.1 result.2)
  | ⟨.sendTransaction _, answer⟩ =>
    thrownBy (ProtocolClient.readSent answer >>= fun result => client.decode result.2)

/-- The run ends with a step that makes the client throw just this, and that handed a transaction
over if it throws nothing. -/
def Concludes (client : ProtocolClient) (trace : List Step) (error : Option ClientError) : Prop :=
  ∃ last, trace.getLast? = some last ∧ thrown client last = error ∧
    (error = none → last.1.handsOver = true)

section Concluding

variable {client : ProtocolClient} {error : Option ClientError}

theorem concludes_append (first : List Step) {last : List Step}
    (concludes : Concludes client last error) : Concludes client (first ++ last) error := by
  obtain ⟨step, found, throwing⟩ := concludes
  refine ⟨step, ?_, throwing⟩
  rw [List.getLast?_append, found, Option.some_or]

theorem concludes_cons (first : Step) {last : List Step}
    (concludes : Concludes client last error) : Concludes client (first :: last) error :=
  concludes_append [first] concludes

theorem concludes_singleton {step : Step} {failure : ClientError}
    (throwing : thrown client step = some failure) : Concludes client [step] (some failure) :=
  ⟨step, rfl, throwing, fun impossible => by cases impossible⟩

/-- A run ends as its last answer makes it end. -/
def Concluded {Value : Type} (client : ProtocolClient) (trace : List Step)
    (result : Except ClientError Value) : Prop :=
  Concludes client trace (thrownBy result)

variable (client) in
/-- Signing right after a step that checks the transaction. -/
theorem ensures_sign_after {step : Step} {transaction : Json} (signer : String)
    (checked : ∀ error, ProtocolClient.requirePrepared transaction = .error error →
      thrown client step = some error) :
    (ProtocolClient.sign transaction signer).Ensures fun trace result =>
      (∀ error, result = .error error → Concludes client (step :: trace) (some error)) ∧
      ∀ value, result = .ok value → trace = [⟨.sign signer transaction, .ok value⟩] := by
  refine .lift_seq ?_ fun _ _ => .query fun answer => ?_
  · intro error unprepared
    refine ⟨fun other same => ?_, fun value impossible => ?_⟩
    · cases same
      exact concludes_singleton (checked error unprepared)
    · cases impossible
  · cases answer with
    | error message =>
      refine ⟨fun other same => ?_, fun value impossible => ?_⟩
      · cases same
        exact concludes_cons step (concludes_singleton rfl)
      · cases impossible
    | ok value =>
      refine ⟨fun other impossible => ?_, fun result same => ?_⟩
      · cases impossible
      · cases same
        rfl

/-- The check after preparing is part of what the preparation can throw. -/
theorem thrown_prepare {operations : List Json} {payee : String} {payer : Option String}
    {prepared : Json} {answer : Sdk.Answer (.prepare operations payee payer)}
    (read : ProtocolClient.readPrepared (payer.getD payee) [] answer = .ok prepared)
    {error : ClientError} (unprepared : ProtocolClient.requirePrepared prepared = .error error) :
    thrown client ⟨.prepare operations payee payer, answer⟩ = some error := by
  show thrownBy (ProtocolClient.readPrepared (payer.getD payee) [] answer >>=
    ProtocolClient.requirePrepared) = _
  rw [read]
  show thrownBy (ProtocolClient.requirePrepared prepared) = _
  rw [unprepared]
  rfl

theorem thrown_prepare_error {operations : List Json} {payee : String} {payer : Option String}
    {answer : Sdk.Answer (.prepare operations payee payer)} {error : ClientError}
    (read : ProtocolClient.readPrepared (payer.getD payee) [] answer = .error error) :
    thrown client ⟨.prepare operations payee payer, answer⟩ = some error := by
  show thrownBy (ProtocolClient.readPrepared (payer.getD payee) [] answer >>=
    ProtocolClient.requirePrepared) = _
  rw [read]
  rfl

/-- Events that cannot be decoded, or the receipt itself, end a submission at its last answer. -/
theorem thrown_sponsor {sponsor : SponsorClient} {signed transaction receipt : Json}
    {answer : Fetched}
    (accepted : readSponsored client.koilib sponsor signed answer = .ok (transaction, receipt)) :
    thrown client ⟨.sponsor sponsor signed, answer⟩ =
      thrownBy (client.readReceipt transaction receipt) := by
  show thrownBy (readSponsored client.koilib sponsor signed answer >>= fun result =>
    client.readReceipt result.1 result.2) = _
  rw [accepted]
  rfl

theorem thrown_sponsor_error {sponsor : SponsorClient} {signed : Json} {answer : Fetched}
    {error : ClientError} (refused : readSponsored client.koilib sponsor signed answer = .error error) :
    thrown client ⟨.sponsor sponsor signed, answer⟩ = some error := by
  show thrownBy (readSponsored client.koilib sponsor signed answer >>= fun result =>
    client.readReceipt result.1 result.2) = _
  rw [refused]
  rfl

/-- A turn ends with what its last answer throws; an accepting sponsor's answer is left to read. -/
theorem ensures_trySponsor_concluded (operations : List Json) (signer : String)
    (sponsor : SponsorClient) :
    (client.trySponsor operations signer sponsor).Ensures fun trace result =>
      (∀ error, result = .error error → Concludes client trace (some error)) ∧
      ∀ value, result = .ok value → ∃ signed answer,
        trace.getLast? = some ⟨.sponsor sponsor signed, answer⟩ ∧
        readSponsored client.koilib sponsor signed answer =
          .ok (value.transaction, value.receipt) := by
  refine .query_seq ?_ ?_
  · intro answer error read
    refine ⟨fun other same => ?_, fun value impossible => ?_⟩
    · cases same
      refine concludes_singleton ?_
      show thrownBy (client.readOffer sponsor answer) = _
      rw [read]
      rfl
    · cases impossible
  intro offer discovery _
  refine .query_seq ?_ ?_
  · intro answer error read
    refine ⟨fun other same => ?_, fun value impossible => ?_⟩
    · cases same
      exact concludes_cons _ (concludes_singleton (thrown_prepare_error read))
    · cases impossible
  intro preparing prepared read
  refine .seq (ensures_sign_after client signer fun error unprepared =>
    thrown_prepare read unprepared) ?_ ?_
  · intro trace error signing
    refine ⟨fun other same => ?_, fun value impossible => ?_⟩
    · cases same
      exact concludes_cons _ (signing.1 error rfl)
    · cases impossible
  intro first signed signing
  obtain rfl := signing.2 signed rfl
  refine .query_seq ?_ ?_
  · intro answer error refused
    refine ⟨fun other same => ?_, fun value impossible => ?_⟩
    · cases same
      exact concludes_append [_, _, _] (concludes_singleton (thrown_sponsor_error refused))
    · cases impossible
  · intro answer result accepted
    obtain ⟨transaction, receipt⟩ := result
    refine .lift_seq ?_ fun _ _ => .done ⟨fun error impossible => ?_, fun value same => ?_⟩
    · intro error mismatch
      rw [verify_of_readSponsored accepted] at mismatch
      cases mismatch
    · cases impossible
    · cases same
      exact ⟨signed, answer, rfl, accepted⟩

/-- A round over the sponsors ends with an error of its last answer, with an answer that is left to
read, or, if there was a sponsor, with the refusal its last answer threw. -/
def PoolConcluded (client : ProtocolClient) (earlier : List SponsorRefusal)
    (sponsors : List SponsorClient) (trace : List Step) :
    Except ClientError PoolAttempt → Prop
  | .error error => Concludes client trace (some error)
  | .ok (.accepted value _) => ∃ sponsor signed answer,
    trace.getLast? = some ⟨.sponsor sponsor signed, answer⟩ ∧
    readSponsored client.koilib sponsor signed answer = .ok (value.transaction, value.receipt)
  | .ok (.refused refusals) =>
    (sponsors = [] ∧ trace = [] ∧ refusals = earlier) ∨
    (sponsors ≠ [] ∧ ∃ last, refusals.getLast? = some last ∧
      Concludes client trace (some last.error))

theorem ensures_tryEach_concluded (operations : List Json) (signer : String)
    (earlier : List SponsorRefusal) (sponsors : List SponsorClient) :
    (ProtocolClient.tryEach (client.trySponsor operations signer) earlier sponsors).Ensures
      (PoolConcluded client earlier sponsors) := by
  induction sponsors generalizing earlier with
  | nil => exact .done (.inl ⟨rfl, rfl, rfl⟩)
  | cons sponsor rest inductionHypothesis =>
    refine .attempt_seq (ensures_trySponsor_concluded operations signer sponsor) ?_
    intro first ending turned
    cases ending with
    | ok value =>
      obtain ⟨signed, answer, found, accepted⟩ := turned.2 value rfl
      refine .done ⟨sponsor, signed, answer, ?_, accepted⟩
      rw [List.append_nil]
      exact found
    | error error =>
      have refused := turned.1 error rfl
      show Program.Ensures (if error.isSponsor then _ else _) _
      split
      · refine .weaken (inductionHypothesis _) fun last result pool => ?_
        cases result with
        | error stopped => exact concludes_append first pool
        | ok attempt =>
          cases attempt with
          | accepted value others =>
            obtain ⟨taker, signed, answer, found, accepted⟩ := pool
            refine ⟨taker, signed, answer, ?_, accepted⟩
            rw [List.getLast?_append, found, Option.some_or]
          | refused others =>
            refine .inr ⟨List.cons_ne_nil _ _, ?_⟩
            rcases pool with ⟨_, rfl, rfl⟩ | ⟨_, final, found, concludes⟩
            · refine ⟨_, List.getLast?_concat, ?_⟩
              rw [List.append_nil]
              exact refused
            · exact ⟨final, found, concludes_append first concludes⟩
      · refine .fail ?_
        rw [List.append_nil]
        exact refused

theorem thrown_sent {signed transaction receipt : Json} {answer : Sent}
    (read : ProtocolClient.readSent answer = .ok (transaction, receipt)) :
    thrown client ⟨.sendTransaction signed, answer⟩ = thrownBy (client.decode receipt) := by
  show thrownBy (ProtocolClient.readSent answer >>= fun result => client.decode result.2) = _
  rw [read]
  rfl

theorem thrown_sent_error {signed : Json} {answer : Sent} {error : ClientError}
    (read : ProtocolClient.readSent answer = .error error) :
    thrown client ⟨.sendTransaction signed, answer⟩ = some error := by
  show thrownBy (ProtocolClient.readSent answer >>= fun result => client.decode result.2) = _
  rw [read]
  rfl

variable (client) in
/-- Decoding the events of a receipt is the last thing that can throw. -/
theorem ensures_decoded {Value : Type} (receipt : Json) {finish : List Json → Action Value}
    (quiet : ∀ events, (finish events).Ensures fun trace result =>
      trace = [] ∧ thrownBy result = none) :
    (Program.lift (client.decode receipt) >>= finish).Ensures fun trace result =>
      trace = [] ∧ thrownBy result = thrownBy (client.decode receipt) := by
  refine .lift_seq ?_ ?_
  · intro error undecoded
    refine ⟨rfl, ?_⟩
    rw [undecoded]
    rfl
  · intro events decoded
    rw [decoded]
    exact quiet events

variable (client) in
/-- Broadcasting and decoding the events end a submission with the node's answer. -/
theorem ensures_broadcast_concluded {Value : Type} (signed : Json)
    {next : Json × Json → Action Value}
    (decodes : ∀ sent, (next sent).Ensures fun trace result =>
      trace = [] ∧ thrownBy result = thrownBy (client.decode sent.2)) :
    (ProtocolClient.broadcast signed >>= next).Ensures (Concluded client) := by
  refine .query_seq ?_ ?_
  · intro answer error read
    exact concludes_singleton (thrown_sent_error read)
  · intro answer sent read
    refine .weaken (decodes sent) fun trace result ended => ?_
    obtain ⟨rfl, same⟩ := ended
    refine ⟨⟨.sendTransaction signed, answer⟩, rfl, ?_, fun _ => rfl⟩
    rw [thrown_sent read, same]

theorem ensures_selfPay_concluded (options : SubmitOptions)
    (still : options.waitForReceipt = false) :
    (client.selfPay options []).Ensures (Concluded client) := by
  unfold ProtocolClient.selfPay ProtocolClient.waitFor
  rw [still]
  refine .query_seq ?_ ?_
  · intro answer error read
    exact concludes_singleton (thrown_prepare_error read)
  intro preparing prepared read
  refine .seq (ensures_sign_after client options.signer fun error unprepared =>
    thrown_prepare read unprepared) ?_ ?_
  · intro trace error signing
    exact signing.1 error rfl
  intro first signed signing
  obtain rfl := signing.2 signed rfl
  refine .weaken (ensures_broadcast_concluded client signed ?_) fun trace result concluded => ?_
  · intro sent
    exact ensures_decoded client sent.2 fun events => .done ⟨rfl, rfl⟩
  · exact concludes_append [_, _] concluded

/-- A submission that does not fall back to its own payment ends as its last answer makes it end. -/
theorem ensures_submit_concluded (options : SubmitOptions)
    (sponsoredOnly : options.selfPayFallback = false) (still : options.waitForReceipt = false) :
    (client.submit options).Ensures (Concluded client) := by
  refine .seq (ensures_tryEach_concluded options.operations options.signer [] options.sponsors)
    (fun _ _ concluded => concluded) ?_
  intro first attempt pool
  cases attempt with
  | accepted value refusals =>
    obtain ⟨sponsor, signed, answer, found, accepted⟩ := pool
    refine .lift_seq ?_ ?_
    · intro error unread
      refine ⟨_, by rw [List.append_nil]; exact found, ?_, fun _ => rfl⟩
      rw [thrown_sponsor accepted, unread]
      rfl
    · intro events read
      unfold ProtocolClient.waitFor
      rw [still]
      refine .done ⟨_, by rw [List.append_nil]; exact found, ?_, fun _ => rfl⟩
      rw [thrown_sponsor accepted, read]
      rfl
  | refused refusals =>
    show Program.Ensures (if _ then _ else _) _
    rcases pool with ⟨empty, rfl, rfl⟩ | ⟨nonempty, last, found, concludes⟩
    · rw [if_neg (by simp [empty])]
      exact ensures_selfPay_concluded options still
    · rw [if_pos (by simp [sponsoredOnly, nonempty])]
      refine .fail ?_
      rw [List.append_nil, found]
      exact concludes

theorem ensures_selfPayWithOwner_concluded (ctx : PaymentContext) (operations : List Json)
    (owner : String) :
    (selfPayWithOwner ctx operations owner).Ensures (Concluded ctx.client) := by
  refine .query_seq ?_ ?_
  · intro answer error read
    exact concludes_singleton (thrown_prepare_error read)
  intro preparing prepared read
  refine .seq (ensures_sign_after ctx.client ctx.device fun error unprepared =>
    thrown_prepare read unprepared) ?_ ?_
  · intro trace error signing
    exact signing.1 error rfl
  intro first once signing
  obtain rfl := signing.2 once rfl
  have checked : ∀ error, ProtocolClient.requirePrepared once = .error error →
      thrown ctx.client ⟨.sign ctx.device prepared, .ok once⟩ = some error := by
    intro error unprepared
    show thrownBy (ProtocolClient.requirePrepared once) = _
    rw [unprepared]
    rfl
  refine .seq (ensures_sign_after ctx.client owner checked) ?_ ?_
  · intro trace error signing
    exact concludes_cons _ (signing.1 error rfl)
  intro second twice signing
  obtain rfl := signing.2 twice rfl
  refine .weaken (ensures_broadcast_concluded ctx.client twice ?_)
    fun trace result concluded => ?_
  · intro sent
    exact ensures_decoded ctx.client sent.2 fun events => .done ⟨rfl, rfl⟩
  · exact concludes_append [_, _, _] concluded

/-- A publication's submission fails before it asks anything, or ends as its last answer makes it
end. -/
theorem ensures_submitOperations_concluded (ctx : PaymentContext) (operations : List Json) :
    (submitOperations ctx operations).Ensures fun trace result =>
      (trace = [] ∧ thrownBy result ≠ none) ∨ Concluded ctx.client trace result := by
  refine .lift_seq (fun error _ => .inl ⟨rfl, by simp [thrownBy]⟩) ?_
  intro plan _
  cases plan with
  | self payer =>
    exact .weaken (ensures_selfPayWithOwner_concluded ctx operations payer)
      fun _ _ concluded => .inr concluded
  | sponsored selfPayFallback =>
    refine .attempt_seq (ensures_submit_concluded _ rfl rfl) ?_
    intro first ending concluded
    cases ending with
    | ok result =>
      refine .done (.inr ?_)
      rw [List.append_nil]
      exact concluded
    | error error =>
      have failing : (Program.fail error : Action SubmitResult).Ensures fun last result =>
          (first ++ last = [] ∧ thrownBy result ≠ none) ∨
            Concluded ctx.client (first ++ last) result := by
        refine .fail (.inr ?_)
        rw [List.append_nil]
        exact concluded
      show Program.Ensures (if _ then _ else _) _
      split
      · cases owned : ctx.owner with
        | none => exact failing
        | some owner =>
          exact .weaken (ensures_selfPayWithOwner_concluded ctx operations owner)
            fun last _ paid => .inr (concludes_append first paid)
      · exact failing

end Concluding

/-! ### A failed Koinos side -/

/-- The error by its class or its text says that the outcome is open. -/
def leavesOpen : ClientError → Bool
  | .outcomeUnknown _ _ => true
  | .reverted transaction receipt logs =>
    namesDuplicate (ClientError.reverted transaction receipt logs).message
  | .sponsor _ message _ _ => namesDuplicate message
  | other => namesDuplicate other.message || looksLikeTransport other.message

theorem classify_submitted (error : ClientError) :
    (classify error true).1 = .failed ↔ leavesOpen error = false := by
  cases error with
  | outcomeUnknown transaction receipt =>
    constructor
    · intro impossible
      cases impossible
    · intro impossible
      cases impossible
  | reverted transaction receipt logs =>
    simp only [classify, leavesOpen]
    split
    · next duplicate => simp [duplicate]
    · next fresh => simp [fresh]
  | sponsor category message status endpoint =>
    simp only [classify, leavesOpen]
    split
    · next duplicate => simp [duplicate]
    · next fresh => simp [fresh]
  | _ =>
    simp only [classify, leavesOpen, Bool.true_and]
    split
    · next duplicate => simp [duplicate]
    · next fresh =>
      split
      · next transport => simp [transport]
      · next plain => simp [fresh, plain]

theorem classify_plain (message : String) :
    (classify (.other message) false).1 = .failed ↔ namesDuplicate message = false := by
  show (if namesDuplicate message then (SubmitFailureKind.duplicate, message)
    else (.failed, message)).1 = _ ↔ _
  by_cases duplicate : namesDuplicate message = true
  · simp [duplicate]
  · simp [duplicate]

/-! ### Answers that leave a publication open -/

/-- A text that names the duplicate key, or looks like an answer that was lost on the way. -/
def openText (text : String) : Bool := namesDuplicate text || looksLikeTransport text

/-- The node does not know the outcome; or the logs of a revert name the duplicate key; or the events
of an applied transaction cannot be decoded, with such a text. -/
inductive ReceiptOpen (client : ProtocolClient) (transaction receipt : Json) : Prop where
  | unknown (unknown : (rpcError receipt).isSome = true)
  | duplicate (known : rpcError receipt = none) (reverted : isReverted receipt = true)
      (text : namesDuplicate (revertedError transaction receipt).message = true)
  | undecoded {message : String} (known : rpcError receipt = none)
      (applied : isReverted receipt = false)
      (undecoded : client.decodeReceiptEvents receipt = .error message)
      (text : openText message = true)

/-- The transaction was applied, and its events can be decoded. -/
structure ReceiptFine (client : ProtocolClient) (receipt : Json) : Prop where
  known : rpcError receipt = none
  applied : isReverted receipt = false
  decoded : ∃ events, client.decodeReceiptEvents receipt = .ok events

/-- An answer that leaves the publication open when it is the last one. Of a sponsor's refusal and
of a failed check only the duplicate's text counts. -/
inductive AnswerOpen (client : ProtocolClient) : Step → Prop where
  | undiscovered {sponsor : SponsorClient} {answer : Discovered} {category : SponsorErrorCategory}
      {message : String} {status : Option ℕ} {endpoint : Option String}
      (refused : client.readOffer sponsor answer = .error (.sponsor category message status endpoint))
      (text : namesDuplicate message = true) : AnswerOpen client ⟨.discover sponsor, answer⟩
  | cut {sponsor : SponsorClient} {reason : String} (text : openText reason = true) :
      AnswerOpen client ⟨.discover sponsor, .fetched (.interrupted reason)⟩
  | unprepared {operations : List Json} {payee : String} {payer : Option String} {message : String}
      (text : openText message = true) :
      AnswerOpen client ⟨.prepare operations payee payer, .failed message⟩
  | poor {operations : List Json} {payee : String} {payer : Option String}
      (text : openText (ClientError.insufficientMana (payer.getD payee) none).message = true) :
      AnswerOpen client ⟨.prepare operations payee payer, .insufficientMana⟩
  | unsigned {signer : String} {transaction : Json} {message : String}
      (text : openText message = true) :
      AnswerOpen client ⟨.sign signer transaction, .error message⟩
  | unawaited {transaction : Json} {message : String} (text : openText message = true) :
      AnswerOpen client ⟨.wait transaction, .error message⟩
  | refused {sponsor : SponsorClient} {signed : Json} {answer : Fetched}
      {category : SponsorErrorCategory} {message : String} {status : Option ℕ}
      {endpoint : Option String}
      (refused : readSponsored client.koilib sponsor signed answer =
        .error (.sponsor category message status endpoint))
      (text : namesDuplicate message = true) : AnswerOpen client ⟨.sponsor sponsor signed, answer⟩
  | interrupted {sponsor : SponsorClient} {signed : Json} {reason : String}
      (text : openText reason = true) :
      AnswerOpen client ⟨.sponsor sponsor signed, .interrupted reason⟩
  | accepted {sponsor : SponsorClient} {signed transaction receipt : Json} {answer : Fetched}
      (verified : readSponsored client.koilib sponsor signed answer = .ok (transaction, receipt))
      (opened : ReceiptOpen client transaction receipt) :
      AnswerOpen client ⟨.sponsor sponsor signed, answer⟩
  | received {signed receipt : Json} {transaction : List (String × Json)}
      (present : receipt ≠ .null) (opened : ReceiptOpen client (.object transaction) receipt) :
      AnswerOpen client ⟨.sendTransaction signed, .receipt transaction (some receipt)⟩
  | rejected {signed : Json} {message : String} (text : openText message = true) :
      AnswerOpen client ⟨.sendTransaction signed, .refused message⟩
  | lost {signed : Json} {message : String} (text : openText message = true) :
      AnswerOpen client ⟨.sendTransaction signed, .lost message⟩

/-- An answer that completes the submission. -/
inductive AnswerComplete (client : ProtocolClient) : Step → Prop where
  | accepted {sponsor : SponsorClient} {signed transaction receipt : Json} {answer : Fetched}
      (verified : readSponsored client.koilib sponsor signed answer = .ok (transaction, receipt))
      (fine : ReceiptFine client receipt) : AnswerComplete client ⟨.sponsor sponsor signed, answer⟩
  | received {signed receipt : Json} {transaction : List (String × Json)}
      (present : receipt ≠ .null) (fine : ReceiptFine client receipt) :
      AnswerComplete client ⟨.sendTransaction signed, .receipt transaction (some receipt)⟩

/-- Storing a new epoch key after the submission succeeds, or fails with a duplicate's text. -/
def KeyKept (composed : Except String Composed) (putKey : Except String Unit) : Prop :=
  ∀ publication message, composed = .ok publication → publication.created = true →
    putKey = .error message → namesDuplicate message = true

/-- The last answer leaves the publication open; or it completes the submission, and storing a new
epoch key does not fail. -/
def LeftOpen (client : ProtocolClient) (composed : Except String Composed)
    (putKey : Except String Unit) (trace : List Step) : Prop :=
  ∃ last, trace.getLast? = some last ∧
    (AnswerOpen client last ∨ AnswerComplete client last ∧ KeyKept composed putKey)

section Open

variable {client : ProtocolClient} {transaction receipt : Json}

theorem leavesOpen_revertedError :
    leavesOpen (revertedError transaction receipt) =
      namesDuplicate (revertedError transaction receipt).message := by
  unfold revertedError
  split
  · rfl
  · split
    · rfl
    · decide
  · rfl

/-- A receipt leaves open what reading it says. -/
theorem readReceipt_open :
    (∃ error, client.readReceipt transaction receipt = .error error ∧ leavesOpen error = true) ↔
      ReceiptOpen client transaction receipt := by
  unfold ProtocolClient.readReceipt assertReceiptKnown assertNotReverted
  cases reported : rpcError receipt with
  | some reason =>
    exact iff_of_true ⟨.outcomeUnknown transaction receipt, rfl, rfl⟩
      (.unknown (by rw [reported]; rfl))
  | none =>
    cases reverted : isReverted receipt with
    | true =>
      constructor
      · rintro ⟨error, same, opened⟩
        obtain rfl := Except.error.inj same
        rw [leavesOpen_revertedError] at opened
        exact .duplicate reported reverted opened
      · rintro (unknown | ⟨_, _, text⟩ | ⟨_, applied, _, _⟩)
        · rw [reported] at unknown
          cases unknown
        · exact ⟨_, rfl, leavesOpen_revertedError.trans text⟩
        · rw [reverted] at applied
          cases applied
    | false =>
      constructor
      · rintro ⟨error, same, opened⟩
        cases decoding : client.decodeReceiptEvents receipt with
        | ok events =>
          rw [ProtocolClient.decode, decoding] at same
          cases same
        | error message =>
          rw [ProtocolClient.decode, decoding] at same
          obtain rfl := Except.error.inj same
          exact .undecoded reported reverted decoding opened
      · rintro (unknown | ⟨_, applied, _⟩ | ⟨_, _, decoding, text⟩)
        · rw [reported] at unknown
          cases unknown
        · rw [reverted] at applied
          cases applied
        · refine ⟨.other _, ?_, text⟩
          rw [ProtocolClient.decode, decoding]
          rfl

theorem readReceipt_fine :
    (∃ events, client.readReceipt transaction receipt = .ok events) ↔
      ReceiptFine client receipt := by
  unfold ProtocolClient.readReceipt assertReceiptKnown assertNotReverted
  cases reported : rpcError receipt with
  | some reason =>
    refine iff_of_false (fun ⟨_, impossible⟩ => ?_) fun fine => ?_
    · cases impossible
    · cases reported.symm.trans fine.known
  | none =>
    cases reverted : isReverted receipt with
    | true =>
      refine iff_of_false (fun ⟨_, impossible⟩ => ?_) fun fine => ?_
      · cases impossible
      · cases reverted.symm.trans fine.applied
    | false =>
      cases decoding : client.decodeReceiptEvents receipt with
      | ok events =>
        refine iff_of_true ⟨events, ?_⟩ ⟨reported, reverted, events, decoding⟩
        rw [ProtocolClient.decode, decoding]
        rfl
      | error message =>
        refine iff_of_false (fun ⟨_, impossible⟩ => ?_) fun ⟨_, _, _, decoded⟩ => ?_
        · rw [ProtocolClient.decode, decoding] at impossible
          cases impossible
        · cases decoding.symm.trans decoded

/-- What a node answers with a receipt is read as the receipt. -/
theorem thrown_receipt {signed : Json} {members : List (String × Json)}
    (present : receipt ≠ .null) :
    thrown client ⟨.sendTransaction signed, .receipt members (some receipt)⟩ =
      thrownBy (client.readReceipt (.object members) receipt) := by
  show thrownBy (ProtocolClient.readSent _ >>= fun result => client.decode result.2) = _
  unfold ProtocolClient.readSent ProtocolClient.readReceipt
  dsimp only
  rw [Json.readable_present present]
  show thrownBy ((assertReceiptKnown _ receipt >>= fun _ => _) >>= _) = _
  cases assertReceiptKnown (.object members) receipt with
  | error error => rfl
  | ok known =>
    show thrownBy ((assertNotReverted _ receipt >>= fun _ => _) >>= _) = _
    cases assertNotReverted (.object members) receipt with
    | error error => rfl
    | ok applied => rfl

/-- A missing receipt cannot be read, and the text of that error says nothing. -/
theorem thrown_absent {signed : Json} {members : List (String × Json)} {answered : Option Json}
    (absent : answered = none ∨ answered = some .null) :
    ∃ error, thrown client ⟨.sendTransaction signed, .receipt members answered⟩ = some error ∧
      leavesOpen error = false := by
  rcases absent with rfl | rfl
  · exact ⟨.other "Cannot read properties of undefined (reading 'rpc_error')", rfl, by decide⟩
  · exact ⟨.other "Cannot read properties of null (reading 'rpc_error')", rfl, by decide⟩

/-- A transaction that is not prepared leaves nothing open. -/
theorem closed_requirePrepared {error : ClientError}
    (unprepared : ProtocolClient.requirePrepared transaction = .error error) :
    leavesOpen error = false := by
  by_cases absent : transaction = .null
  · subst absent
    obtain rfl := Except.error.inj unprepared
    decide
  · unfold ProtocolClient.requirePrepared at unprepared
    rw [Json.readable_present absent] at unprepared
    simp only [Except.mapError, bind, Except.bind] at unprepared
    split at unprepared
    · cases unprepared
    · obtain rfl := Except.error.inj unprepared
      decide

/-- What a sponsor's answer makes the client throw is a refusal, unless the response was cut off. -/
theorem readSponsored_error {koilib : Koilib} {sponsor : SponsorClient} {signed : Json}
    {answer : Fetched} {error : ClientError}
    (read : readSponsored koilib sponsor signed answer = .error error) :
    error.isSponsor = true ∨ ∃ reason, answer = .interrupted reason ∧ error = .other reason := by
  cases answer with
  | unreachable reason =>
    obtain rfl := Except.error.inj read
    exact .inl rfl
  | interrupted reason =>
    obtain rfl := Except.error.inj read
    exact .inr ⟨reason, rfl, rfl⟩
  | answered status body => exact .inl (isSponsor_of_readSponsored read)

theorem readOffer_error {sponsor : SponsorClient} {answer : Discovered} {error : ClientError}
    (read : client.readOffer sponsor answer = .error error) :
    error.isSponsor = true ∨
      ∃ reason, answer = .fetched (.interrupted reason) ∧ error = .other reason := by
  have checked : ∀ discovery, ProtocolClient.readOffer.checkChain client sponsor discovery =
      .error error → error.isSponsor = true := by
    intro discovery mismatch
    unfold ProtocolClient.readOffer.checkChain at mismatch
    split at mismatch
    · cases mismatch
    · split at mismatch
      · cases mismatch
      · obtain rfl := Except.error.inj mismatch
        rfl
  cases answer with
  | cached discovery => exact .inl (checked discovery read)
  | fetched answer =>
    cases discovered : readDiscovery client.koilib sponsor answer with
    | ok discovery =>
      refine .inl (checked discovery ?_)
      unfold ProtocolClient.readOffer at read
      dsimp only at read
      rwa [discovered] at read
    | error other =>
      unfold ProtocolClient.readOffer at read
      dsimp only at read
      rw [discovered] at read
      obtain rfl := Except.error.inj read
      cases answer with
      | unreachable reason =>
        obtain rfl := Except.error.inj discovered
        exact .inl rfl
      | interrupted reason =>
        obtain rfl := Except.error.inj discovered
        exact .inr ⟨reason, rfl, rfl⟩
      | answered status body => exact .inl (isSponsor_of_readDiscovery discovered)

/-- What is thrown for a transaction that is not prepared leaves nothing open. -/
theorem not_open_of_unprepared {error : ClientError}
    (unprepared : thrownBy (ProtocolClient.requirePrepared transaction) = some error) :
    leavesOpen error = false := by
  cases checked : ProtocolClient.requirePrepared transaction with
  | ok ready =>
    rw [checked] at unprepared
    cases unprepared
  | error other =>
    rw [checked] at unprepared
    obtain rfl := Option.some.inj unprepared
    exact closed_requirePrepared checked

theorem openText_of_thrown {message : String} {error : ClientError}
    (throwing : some (ClientError.other message) = some error) (opened : leavesOpen error = true) :
    openText message = true := by
  obtain rfl := Option.some.inj throwing
  exact opened

theorem answerOpen_of_offer {sponsor : SponsorClient} {answer : Discovered} {error : ClientError}
    (throwing : thrown client ⟨.discover sponsor, answer⟩ = some error)
    (opened : leavesOpen error = true) : AnswerOpen client ⟨.discover sponsor, answer⟩ := by
  have throwing : thrownBy (client.readOffer sponsor answer) = some error := throwing
  cases read : client.readOffer sponsor answer with
  | ok discovery =>
    rw [read] at throwing
    cases throwing
  | error other =>
    rw [read] at throwing
    obtain rfl := Option.some.inj throwing
    rcases readOffer_error read with refused | ⟨reason, rfl, rfl⟩
    · cases other with
      | sponsor category message status endpoint => exact .undiscovered read opened
      | _ => cases refused
    · exact .cut opened

theorem answerOpen_of_sponsored {sponsor : SponsorClient} {signed : Json} {answer : Fetched}
    {error : ClientError} (throwing : thrown client ⟨.sponsor sponsor signed, answer⟩ = some error)
    (opened : leavesOpen error = true) : AnswerOpen client ⟨.sponsor sponsor signed, answer⟩ := by
  cases read : readSponsored client.koilib sponsor signed answer with
  | ok result =>
    obtain ⟨transaction, receipt⟩ := result
    rw [thrown_sponsor read] at throwing
    refine .accepted read (readReceipt_open.mp ⟨error, ?_, opened⟩)
    exact eq_error_of_thrownBy throwing
  | error other =>
    rw [thrown_sponsor_error read] at throwing
    obtain rfl := Option.some.inj throwing
    rcases readSponsored_error read with refused | ⟨reason, rfl, rfl⟩
    · cases other with
      | sponsor category message status endpoint => exact .refused read opened
      | _ => cases refused
    · exact .interrupted opened

theorem answerOpen_of_receipt {signed : Json} {members : List (String × Json)}
    {answered : Option Json} {error : ClientError}
    (throwing : thrown client ⟨.sendTransaction signed, .receipt members answered⟩ = some error)
    (opened : leavesOpen error = true) :
    AnswerOpen client ⟨.sendTransaction signed, .receipt members answered⟩ := by
  by_cases absent : answered = none ∨ answered = some .null
  · obtain ⟨other, threw, closed⟩ := @thrown_absent client signed members answered absent
    obtain rfl := Option.some.inj (threw.symm.trans throwing)
    rw [closed] at opened
    cases opened
  · cases answered with
    | none => exact absurd (.inl rfl) absent
    | some receipt =>
      have present : receipt ≠ .null := fun null => absent (.inr (congrArg some null))
      rw [thrown_receipt present] at throwing
      exact .received present (readReceipt_open.mp ⟨error, eq_error_of_thrownBy throwing, opened⟩)

/-- An answer that makes the client throw what leaves the outcome open. -/
theorem answerOpen_of_thrown {step : Step} {error : ClientError}
    (throwing : thrown client step = some error) (opened : leavesOpen error = true) :
    AnswerOpen client step := by
  obtain ⟨request, answer⟩ := step
  cases request with
  | discover sponsor => exact answerOpen_of_offer throwing opened
  | prepare operations payee payer =>
    cases answer with
    | transaction value => exact absurd opened (ne_true_of_eq_false (not_open_of_unprepared throwing))
    | insufficientMana =>
      obtain rfl := Option.some.inj throwing
      exact .poor opened
    | failed message => exact .unprepared (openText_of_thrown throwing opened)
  | sign signer transaction =>
    cases answer with
    | ok signed => exact absurd opened (ne_true_of_eq_false (not_open_of_unprepared throwing))
    | error message => exact .unsigned (openText_of_thrown throwing opened)
  | wait transaction =>
    cases answer with
    | ok block => cases throwing
    | error message => exact .unawaited (openText_of_thrown throwing opened)
  | sponsor sponsor signed => exact answerOpen_of_sponsored throwing opened
  | sendTransaction signed =>
    cases answer with
    | receipt members answered => exact answerOpen_of_receipt throwing opened
    | refused message => exact .rejected (openText_of_thrown throwing opened)
    | lost message => exact .lost (openText_of_thrown throwing opened)

theorem thrown_of_answerOpen {step : Step} (answer : AnswerOpen client step) :
    ∃ error, thrown client step = some error ∧ leavesOpen error = true := by
  cases answer with
  | @undiscovered sponsor answer category message status endpoint refused text =>
    refine ⟨.sponsor category message status endpoint, ?_, text⟩
    show thrownBy (client.readOffer sponsor answer) = _
    rw [refused]
    rfl
  | cut text => exact ⟨_, rfl, text⟩
  | unprepared text => exact ⟨_, rfl, text⟩
  | poor text => exact ⟨_, rfl, text⟩
  | unsigned text => exact ⟨_, rfl, text⟩
  | unawaited text => exact ⟨_, rfl, text⟩
  | refused refused text => exact ⟨_, thrown_sponsor_error refused, text⟩
  | interrupted text => exact ⟨_, rfl, text⟩
  | accepted verified opened =>
    obtain ⟨error, threw, open'⟩ := readReceipt_open.mpr opened
    refine ⟨error, ?_, open'⟩
    rw [thrown_sponsor verified, threw]
    rfl
  | received present opened =>
    obtain ⟨error, threw, open'⟩ := readReceipt_open.mpr opened
    refine ⟨error, ?_, open'⟩
    rw [thrown_receipt present, threw]
    rfl
  | rejected text => exact ⟨_, rfl, text⟩
  | lost text => exact ⟨_, rfl, text⟩

theorem thrown_none_iff {step : Step} :
    thrown client step = none ∧ step.1.handsOver = true ↔ AnswerComplete client step := by
  constructor
  · rintro ⟨silent, handed⟩
    obtain ⟨request, answer⟩ := step
    cases request with
    | sponsor sponsor signed =>
      cases read : readSponsored client.koilib sponsor signed answer with
      | ok result =>
        obtain ⟨transaction, receipt⟩ := result
        rw [thrown_sponsor read] at silent
        exact .accepted read (readReceipt_fine.mp (eq_ok_of_thrownBy silent))
      | error other =>
        rw [thrown_sponsor_error read] at silent
        cases silent
    | sendTransaction signed =>
      cases answer with
      | receipt members answered =>
        by_cases absent : answered = none ∨ answered = some .null
        · obtain ⟨other, threw, _⟩ := @thrown_absent client signed members answered absent
          cases threw.symm.trans silent
        · cases answered with
          | none => exact absurd (.inl rfl) absent
          | some receipt =>
            have present : receipt ≠ .null := fun null => absent (.inr (congrArg some null))
            rw [thrown_receipt present] at silent
            exact .received present (readReceipt_fine.mp (eq_ok_of_thrownBy silent))
      | refused message => cases silent
      | lost message => cases silent
    | _ => cases handed
  · intro complete
    cases complete with
    | accepted verified fine =>
      obtain ⟨events, read⟩ := readReceipt_fine.mpr fine
      refine ⟨?_, rfl⟩
      rw [thrown_sponsor verified, read]
      rfl
    | received present fine =>
      obtain ⟨events, read⟩ := readReceipt_fine.mpr fine
      refine ⟨?_, rfl⟩
      rw [thrown_receipt present, read]
      rfl

/-- The same, by what the last answer makes the client throw. -/
theorem leftOpen_iff {composed : Except String Composed} {putKey : Except String Unit}
    {trace : List Step} :
    LeftOpen client composed putKey trace ↔
      (∃ error, Concludes client trace (some error) ∧ leavesOpen error = true) ∨
        Concludes client trace none ∧ KeyKept composed putKey := by
  constructor
  · rintro ⟨last, found, answer | ⟨complete, kept⟩⟩
    · obtain ⟨error, threw, opened⟩ := thrown_of_answerOpen answer
      exact .inl ⟨error, ⟨last, found, threw, fun impossible => by cases impossible⟩, opened⟩
    · obtain ⟨silent, handed⟩ := thrown_none_iff.mpr complete
      exact .inr ⟨⟨last, found, silent, fun _ => handed⟩, kept⟩
  · rintro (⟨error, ⟨last, found, threw, _⟩, opened⟩ | ⟨⟨last, found, silent, handed⟩, kept⟩)
    · exact ⟨last, found, .inl (answerOpen_of_thrown threw opened)⟩
    · exact ⟨last, found, .inr ⟨thrown_none_iff.mp ⟨silent, handed rfl⟩, kept⟩⟩

end Open

/-- The publication failed, and the extension says so. -/
def markedFailed : Except PublishError PublishOutcome → Bool
  | .ok _ => false
  | .error error => (classifySubmitError error).kind == .failed

theorem concludes_unique {client : ProtocolClient} {trace : List Step}
    {error other : Option ClientError} (concludes : Concludes client trace error)
    (also : Concludes client trace other) : error = other := by
  obtain ⟨last, found, throwing, _⟩ := concludes
  obtain ⟨step, same, thrown, _⟩ := also
  obtain rfl := Option.some.inj (found.symm.trans same)
  exact throwing.symm.trans thrown

theorem markedFailed_attempt (cause : ClientError) (attempt : PublishAttempt) :
    markedFailed (.error (.attempt cause attempt)) = true ↔ ¬ leavesOpen cause = true := by
  rw [Bool.not_eq_true, ← classify_submitted]
  exact beq_iff_eq

theorem markedFailed_plain (message : String) :
    markedFailed (.error (.plain (.other message))) = true ↔ ¬ namesDuplicate message = true := by
  rw [Bool.not_eq_true, ← classify_plain]
  exact beq_iff_eq

/-- A publication that asked something is marked failed unless its last answer leaves it open. -/
theorem ensures_publishPost (ctx : PaymentContext) (composed : Except String Composed)
    (putKey : Except String Unit) :
    (publishPost ctx composed putKey).Ensures fun trace result =>
      trace = [] ∨
        (markedFailed result = true ↔ ¬ LeftOpen ctx.client composed putKey trace) := by
  refine .lift_seq (fun _ _ => .inl rfl) fun _ _ => .lift_seq (fun _ _ => .inl rfl) ?_
  intro publication found
  have ready : composed = .ok publication := by
    cases composed with
    | error message => cases found
    | ok value => exact congrArg Except.ok (Except.ok.inj found)
  refine .attempt_seq (ensures_submitOperations_concluded ctx publication.operations) ?_
  intro first ending ended
  cases ending with
  | error cause =>
    refine .fail ?_
    rw [List.append_nil]
    rcases ended with ⟨unasked, _⟩ | concluded
    · exact .inl unasked
    refine .inr ?_
    rw [markedFailed_attempt, leftOpen_iff]
    refine not_congr ⟨fun opened => .inl ⟨cause, concluded, opened⟩, ?_⟩
    rintro (⟨error, concludes, opened⟩ | ⟨concludes, _⟩)
    · obtain rfl := Option.some.inj (concludes_unique concluded concludes)
      exact opened
    · cases concludes_unique concluded concludes
  | ok result =>
    rcases ended with ⟨_, impossible⟩ | concluded
    · exact absurd rfl impossible
    have completed : ∀ {last : List Step}, last = [] → KeyKept composed putKey →
        LeftOpen ctx.client composed putKey (first ++ last) := by
      rintro _ rfl kept
      rw [List.append_nil]
      exact leftOpen_iff.mpr (.inr ⟨concluded, kept⟩)
    refine .lift_seq ?_ fun _ stored => .done (.inr ?_)
    · intro error unstored
      split at unstored
      · next created =>
        cases putKey with
        | ok stored => cases unstored
        | error message =>
          cases unstored
          refine .inr ?_
          rw [markedFailed_plain]
          refine not_congr ⟨fun duplicate => completed rfl ?_, ?_⟩
          · intro other text same _ failing
            obtain rfl := Except.error.inj failing
            exact duplicate
          · intro left
            rcases leftOpen_iff.mp left with ⟨error, concludes, _⟩ | ⟨_, kept⟩
            · rw [List.append_nil] at concludes
              cases concludes_unique concluded concludes
            · exact kept publication message ready created rfl
      · cases unstored
    · refine iff_of_false Bool.false_ne_true (not_not.mpr (completed rfl ?_))
      intro other text same created failing
      obtain rfl := Except.ok.inj (ready.symm.trans same)
      rw [if_pos created, failing] at stored
      cases stored

/-- A publication marked failed was rejected by whoever was handed it, in every run, exactly when
everyone's answer proves that or the last answer leaves the outcome open. -/
theorem failed_was_rejected_iff (ctx : PaymentContext) (composed : Except String Composed)
    (putKey : Except String Unit) (trace : List Step) (result : Except PublishError PublishOutcome)
    (runs : Program.Runs (publishPost ctx composed putKey) trace result) :
    (markedFailed result = true → ∀ step ∈ trace, ctx.client.unproven step = false) ↔
      ((∀ step ∈ trace, ctx.client.unproven step = false) ∨
        LeftOpen ctx.client composed putKey trace) := by
  rcases ensures_publishPost ctx composed putKey trace result runs with rfl | marked
  · exact iff_of_true (fun _ _ member => absurd member List.not_mem_nil)
      (.inl fun _ member => absurd member List.not_mem_nil)
  · rw [marked]
    by_cases opened : LeftOpen ctx.client composed putKey trace
    · exact iff_of_true (fun closed => absurd opened closed) (.inr opened)
    · exact ⟨fun proven => .inl (proven opened), fun proven _ => proven.resolve_right opened⟩

/-- A browser with a device key only, whose one sponsor takes its posts. -/
def sampleContext : PaymentContext where
  client := sampleClient
  device := "device"
  owner := none
  payment := .sponsorOnly
  sponsorUrls := ["https://one"]
  sponsors := [⟨"https://one", none⟩]

def sampleComposed : Composed :=
  ⟨⟨[1], [2], 1, 0, 1, none⟩, [.object []], false⟩

/-- A run of the sample publication with this answer of its sponsor. -/
def sampleRun (sponsored : Fetched) : List Step × Except PublishError PublishOutcome :=
  Program.exec (answering sponsored) [] (publishPost sampleContext (.ok sampleComposed) (.ok ()))

theorem failed_was_rejected_quotaRefusal :
    markedFailed (sampleRun quotaRefusal).2 = true ∧
      ∀ step ∈ (sampleRun quotaRefusal).1, sampleClient.unproven step = false := by
  have failed : markedFailed (sampleRun quotaRefusal).2 = true := by decide +kernel
  refine ⟨failed, ?_⟩
  exact (failed_was_rejected_iff sampleContext (.ok sampleComposed) (.ok ()) _ _
    (Program.runs_exec (answering quotaRefusal) [] _)).mpr (.inl (by decide +kernel)) failed

/-- The sponsor's answer to a signed publication is lost: it is marked failed all the same. -/
theorem failed_while_it_may_land :
    ¬ ∀ (ctx : PaymentContext) (composed : Except String Composed) (putKey : Except String Unit)
      (trace : List Step) (result : Except PublishError PublishOutcome),
      Program.Runs (publishPost ctx composed putKey) trace result → markedFailed result = true →
        ∀ step ∈ trace, ctx.client.unproven step = false := by
  intro always
  have proven := always sampleContext (.ok sampleComposed) (.ok ()) _ _
    (Program.runs_exec (answering (.unreachable "fetch failed")) [] _) (by decide +kernel)
  exact absurd proven (by decide +kernel)

end OpenSocial.Extension

/-
This file models `SponsorService.sponsor`: validate, reserve, co-sign, broadcast
and settle, and proves when a transaction that may be in flight is neither refused
nor refunded.

A transaction may be in flight once the node accepted it, whether or not the call
that handed it over came back. The answer to that call says which of these
happened; the service sees only its text or its receipt.
-/

import OpenSocial.Sponsor.Quota
import OpenSocial.Sponsor.Validate

namespace OpenSocial.Sponsor

open Library Sdk

/-! ### Requests -/

/-- What a failed call throws: its text, and the JSON value that text is, if it is one. -/
structure SendError where
  message : String
  json : Option Json

/-- What happens to a transaction handed to the provider. -/
inductive SendAnswer where
  /-- The node rejected it or was never reached; the call throws. -/
  | rejected (error : SendError)
  /-- The node accepted it, and the call failed afterwards. -/
  | lost (error : SendError)
  /-- The call returned. Its receipt is the node's, if the node sent one, or the provider's own after
  a timeout. -/
  | answered (receipt : Option Json)

/-- What a sponsoring call asks for. Those made with a reservation name it. -/
inductive Request where
  | now
  | wait
  | ownerOf (account : String)
  | reserve (payee : String) (ops time : ℕ)
  | sign (reservation : ℕ) (transaction : Json)
  | send (reservation : ℕ) (transaction : Json)
  | commit (reservation : ℕ) (reverted : Bool)
  | release (reservation : ℕ)
  | recordRefusal (category : SponsorErrorCategory) (time : ℕ)

abbrev Answer : Request → Type
  | .now => ℕ
  | .wait => Unit
  | .ownerOf _ => Except String (Option String)
  | .reserve _ _ _ => Except QuotaRefusal (ℕ × QuotaRemaining)
  | .sign _ _ => Except String (List String)
  | .send _ _ => SendAnswer
  | .commit _ _ => Unit
  | .release _ => Unit
  | .recordRefusal _ _ => Unit

/-- How a call fails: with a refusal, or with an error the server reports as internal. -/
inductive ServiceFailure where
  | refused (refusal : SponsorRefusal)
  | internal (message : String)
  deriving DecidableEq

abbrev Action (Value : Type) := Program Request Answer ServiceFailure Value

def ask (request : Request) : Action (Answer request) :=
  Program.query request .ok

/-! ### Errors of the provider -/

/-- Whether some end of a text starts as asked. -/
def anywhere (starts : List Char → Bool) : List Char → Bool
  | [] => starts []
  | head :: tail => starts (head :: tail) || anywhere starts tail

/-- The phrases of the pattern of chain rejections. -/
def REJECTION_PHRASES : List String :=
  ["revert", "nonce", "authoriz", "signature", "rc_limit", "rc limit", "resource", "mana", "merkle",
    "duplicate", "already", "invalid", "failed to apply"]

/-- What `.` matches: one UTF-16 unit that ends no line. -/
def matchesDot (character : Char) : Bool :=
  character.toNat < 0x10000 && !([0x0A, 0x0D, 0x2028, 0x2029].contains character.toNat)

/-- `chain.?id` at the start of a text. -/
def startsWithChainId (text : List Char) : Bool :=
  let rest := text.drop "chain".length
  "chain".toList.isPrefixOf text && ("id".toList.isPrefixOf rest ||
    (rest.head?.any matchesDot && "id".toList.isPrefixOf (rest.drop 1)))

def namesRejection (text : String) : Bool :=
  let lower := text.toList.map Char.toLower
  REJECTION_PHRASES.any (fun phrase => anywhere phrase.toList.isPrefixOf lower) ||
    anywhere startsWithChainId lower

/-- `classifySendError`. -/
def classifySendError (error : SendError) : SponsorRefusal :=
  let logs := match error.json.bind fun value => value.get? "logs" with
    | some (.array logs) => some (logs.map Json.display)
    | _ => none
  let text := match error.json.bind fun value => value.get? "error" with
    | some (.string text) => text
    | _ => error.message
  if logs.isSome || namesRejection text then
    { category := .invalidTransaction
      message := "chain rejected the transaction: " ++ text
      logs := logs }
  else { category := .temporarilyUnavailable, message := "rpc failure: " ++ text }

/-! ### The service -/

structure SponsorService where
  /-- The validation context, unless the service has no deployment or no key. -/
  serving : Option ValidationContext
  stateMessage : String
  limits : QuotaLimits

/-- What `POST /v1/sponsor` answers with status 200. -/
structure SponsorResponse where
  transaction : Json
  receipt : Json
  deriving DecidableEq

/-- `refuse`: a refusal is counted and thrown. -/
def refused {Value : Type} (refusal : SponsorRefusal) : Action Value := do
  let time ← ask .now
  ask (.recordRefusal refusal.category time)
  .fail (.refused refusal)

/-- A step whose refusals are counted. -/
def countingRefusals {Value : Type} (program : Action Value) : Action Value := do
  match ← (Program.attempt program : Action (Except ServiceFailure Value)) with
  | .ok value => pure value
  | .error (.refused refusal) => refused refusal
  | .error (.internal message) => .fail (.internal message)

/-- A transaction with other signatures. -/
def withSignatures (transaction : Json) (signatures : List String) : Json :=
  .object [("id", (transaction.get? "id").getD .null),
    ("header", (transaction.get? "header").getD .null),
    ("operations", (transaction.get? "operations").getD .null),
    ("signatures", .array (signatures.map Json.string))]

/-- A receipt that names its transaction. -/
def withId (receipt transaction : Json) : Json :=
  if (receipt.truthyMember "id").isSome then receipt
  else match receipt with
    | .object members => .object ((members.filter fun member => member.1 != "id") ++
        [("id", (transaction.get? "id").getD (.string ""))])
    | other => other

/-- The refusal of a transaction that was executed and reverted. -/
def revertedRefusal (receipt : Json) : ServiceFailure :=
  match receipt.member? "logs" with
  | none => .refused
      { category := .invalidTransaction
        message := "transaction reverted"
        logs := some []
        receipt := some receipt }
  | some (.array items) =>
    let logs := items.map Json.display
    if !items.all Json.convertible then .internal "Cannot convert object to primitive value"
    else .refused
      { category := .invalidTransaction
        message := "transaction reverted" ++ (if logs = [] then "" else ": " ++ "; ".intercalate logs)
        logs := some logs
        receipt := some receipt }
  | some _ => .internal "map is not a function"

/-- The receipt as far as it must be read to commit: it is there, and `Number` takes the resources it
says were used. -/
def readReceipt (receipt : Option Json) : Except ServiceFailure Json := do
  let receipt ← (Json.readable "reverted" receipt).mapError .internal
  if (receipt.member? "rc_used").all Json.convertible then pure receipt
  else .error (.internal "Cannot convert object to primitive value")

/-- What follows the answer of the provider. -/
def concluded (reservation : ℕ) (response : Json) : SendAnswer → Action SponsorResponse
  | .rejected error => do
    ask (.release reservation)
    refused (classifySendError error)
  | .lost error => do
    ask (.release reservation)
    refused (classifySendError error)
  | .answered returned => do
    -- A receipt that cannot be read throws after the `try` of the call: nothing is settled.
    let receipt ← Program.lift (readReceipt returned)
    ask (.commit reservation (isReverted receipt))
    if (rpcError receipt).isSome then pure ⟨response, withId receipt response⟩
    else if isReverted receipt then .fail (revertedRefusal receipt)
    else pure ⟨response, receipt⟩

/-- Co-sign and broadcast under a reservation. -/
def broadcast (reservation : ℕ) (transaction : Json) : Action SponsorResponse := do
  match ← ask (.sign reservation transaction) with
  | .error message => do
    ask (.release reservation)
    refused
      { category := .temporarilyUnavailable
        message := "cannot co-sign the transaction: " ++ message }
  | .ok signatures => do
    let response := withSignatures transaction signatures
    let answer ← ask (.send reservation response)
    concluded reservation response answer

/-- `validateTransaction` with the service's requests. -/
def validated (context : ValidationContext) (input : Json) : Action ValidatedTransaction :=
  validateTransaction .refused (ask .wait) (fun account => ask (.ownerOf account)) context input

/-- `sponsor`. -/
def sponsor (service : SponsorService) (input : Json) : Action SponsorResponse := do
  let context ← Program.lift (service.serving.elim
    (.error (.refused { category := .temporarilyUnavailable, message := service.stateMessage })) .ok)
  let time ← ask .now
  let accepted ← countingRefusals (validated context input)
  match ← ask (.reserve accepted.payee accepted.operations.length time) with
  | .error refusal =>
    refused
      { category := .quotaExceeded
        message := refusal.message
        retryAfterSec := some refusal.retryAfterSec }
  | .ok (reservation, _) => broadcast reservation accepted.transaction

/-! ### Transactions that may be in flight -/

abbrev Trace := List (Program.Exchange Request Answer)

/-- The node accepted the transaction, and it was not reverted as far as anyone knows. -/
def SendAnswer.mayLand : SendAnswer → Bool
  | .rejected _ => false
  | .lost _ => true
  | .answered receipt => receipt.all fun receipt => (rpcError receipt).isSome || !isReverted receipt

/-- The answer of the node to a transaction it accepted was lost, or has no receipt. -/
def SendAnswer.isLost : SendAnswer → Bool
  | .rejected _ => false
  | .lost _ => true
  | .answered receipt => receipt.all fun receipt => receipt == .null

/-- The receipt says of the resources used what is no number and does not convert to one. -/
def SendAnswer.isGarbled : SendAnswer → Bool
  | .answered receipt => receipt.any fun receipt =>
      (receipt.member? "rc_used").any fun used => !used.convertible
  | _ => false

/-- The answer came back with a receipt the service can read. -/
def SendAnswer.Readable (answer : SendAnswer) : Prop :=
  answer.isLost = false ∧ answer.isGarbled = false

theorem mayLand_answered (receipt : Json) : (SendAnswer.answered (some receipt)).mayLand =
    ((rpcError receipt).isSome || !isReverted receipt) := rfl

/-- Nobody was told what became of the transaction. -/
def SendAnswer.unknown : SendAnswer → Bool
  | .rejected _ => false
  | .lost _ => true
  | .answered receipt => receipt.all fun receipt => receipt == .null || (rpcError receipt).isSome

/-- The answer to one exchange of a call, if it handed a transaction over. -/
def sendOf : Program.Exchange Request Answer → Option SendAnswer
  | ⟨.send _ _, answer⟩ => some answer
  | _ => none

/-- What became of the transactions a call handed over. -/
def sends (trace : Trace) : List SendAnswer := trace.filterMap sendOf

/-- A reservation was released. -/
def Released (trace : Trace) : Prop := ∃ exchange ∈ trace, ∃ reservation,
  exchange.1 = .release reservation

/-- A reservation was committed. -/
def Committed (trace : Trace) : Prop := ∃ exchange ∈ trace, ∃ reservation reverted,
  exchange.1 = .commit reservation reverted

/-- A call neither refuses nor refunds what may be in flight: it answers with a response, whose
receipt says so if nobody knows the outcome, and the reservation is committed. -/
structure Spares (trace : Trace) (result : Except ServiceFailure SponsorResponse) : Prop where
  refused : ∀ failure, result = .error failure → ∀ answer ∈ sends trace, answer.mayLand = false
  refunded : Released trace → ∀ answer ∈ sends trace, answer.mayLand = false
  stands : ∀ answer ∈ sends trace, answer.mayLand = true → Committed trace ∧
    ∃ response, result = .ok response ∧
      (answer.unknown = true → (rpcError response.receipt).isSome = true)

/-- The requests that neither hand a transaction over nor settle a reservation. -/
def Request.isQuiet : Request → Bool
  | .send _ _ => false
  | .commit _ _ => false
  | .release _ => false
  | _ => true

/-- Every exchange is quiet. -/
def Quiet (trace : Trace) : Prop := ∀ exchange ∈ trace, exchange.1.isQuiet = true

theorem quiet_nil : Quiet [] := fun _ impossible => absurd impossible List.not_mem_nil

theorem quiet_cons {exchange : Program.Exchange Request Answer} {trace : Trace}
    (first : exchange.1.isQuiet = true) (rest : Quiet trace) : Quiet (exchange :: trace) := by
  intro other member
  rcases List.mem_cons.mp member with rfl | later
  · exact first
  · exact rest other later

theorem quiet_append {first second : Trace} (before : Quiet first) (after : Quiet second) :
    Quiet (first ++ second) := by
  intro exchange member
  rcases List.mem_append.mp member with early | late
  · exact before exchange early
  · exact after exchange late

theorem Quiet.sendOf {exchange : Program.Exchange Request Answer}
    (quiet : exchange.1.isQuiet = true) : sendOf exchange = none := by
  obtain ⟨request, answer⟩ := exchange
  cases request <;> first | rfl | exact Bool.noConfusion quiet

theorem Quiet.sends {trace : Trace} (quiet : Quiet trace) : sends trace = [] := by
  unfold Sponsor.sends
  rw [List.filterMap_eq_nil_iff]
  exact fun exchange member => Quiet.sendOf (quiet exchange member)

theorem Quiet.not_released {trace : Trace} (quiet : Quiet trace) : ¬ Released trace := by
  rintro ⟨exchange, member, reservation, same⟩
  have quietly := quiet exchange member
  rw [same] at quietly
  exact Bool.noConfusion quietly

/-- The exchanges of a call that matter, and how it ended. -/
inductive Outcome (trace : Trace) (result : Except ServiceFailure SponsorResponse) : Prop
  | unsent (none : sends trace = [])
  | failed (answer : SendAnswer) (one : sends trace = [answer])
      (silent : ∀ receipt, answer ≠ .answered receipt) (released : Released trace)
  | unread (receipt : Option Json) (one : sends trace = [.answered receipt])
      (unreadable : ¬ (SendAnswer.answered receipt).Readable) (kept : ¬ Released trace)
      (ended : ∀ response, result ≠ .ok response)
  | answered (receipt : Json) (one : sends trace = [.answered (some receipt)])
      (readable : (SendAnswer.answered (some receipt)).Readable)
      (kept : ¬ Released trace) (committed : Committed trace)
      (lands : (SendAnswer.answered (some receipt)).mayLand = true →
        ∃ response, result = .ok response ∧
          ((rpcError receipt).isSome = true → (rpcError response.receipt).isSome = true))

/-- What is quiet before a call changes nothing about its outcome. -/
theorem Outcome.after_quiet {first last : Trace} {result : Except ServiceFailure SponsorResponse}
    (quiet : Quiet first) (outcome : Outcome last result) : Outcome (first ++ last) result := by
  have sent : sends (first ++ last) = sends last := by
    unfold sends
    rw [List.filterMap_append]
    exact (congrArg (· ++ _) quiet.sends).trans (List.nil_append _)
  have freed : Released (first ++ last) ↔ Released last := by
    constructor
    · rintro ⟨exchange, member, reservation, same⟩
      rcases List.mem_append.mp member with early | late
      · exact absurd ⟨exchange, early, reservation, same⟩ quiet.not_released
      · exact ⟨exchange, late, reservation, same⟩
    · rintro ⟨exchange, member, rest⟩
      exact ⟨exchange, List.mem_append_right _ member, rest⟩
  cases outcome with
  | unsent none => exact .unsent (sent.trans none)
  | failed answer one silent released =>
    exact .failed answer (sent.trans one) silent (freed.mpr released)
  | unread receipt one unreadable kept ended =>
    exact .unread receipt (sent.trans one) unreadable (fun released => kept (freed.mp released)) ended
  | answered receipt one readable kept committed lands =>
    obtain ⟨exchange, member, rest⟩ := committed
    exact .answered receipt (sent.trans one) readable (fun released => kept (freed.mp released))
      ⟨exchange, List.mem_append_right _ member, rest⟩ lands

/-- A call spares what may be in flight exactly where a readable receipt of it came back. -/
theorem Outcome.spares_iff {trace : Trace} {result : Except ServiceFailure SponsorResponse}
    (outcome : Outcome trace result) :
    Spares trace result ↔ ∀ answer ∈ sends trace, answer.mayLand = true → answer.Readable := by
  constructor
  · intro spares answer member landing
    cases outcome with
    | unsent none =>
      rw [none] at member
      exact absurd member List.not_mem_nil
    | failed other one silent released =>
      rw [spares.refunded released _ member] at landing
      cases landing
    | unread receipt one unreadable kept ended =>
      obtain ⟨_, response, same, _⟩ := spares.stands answer member landing
      exact absurd same (ended response)
    | answered receipt one readable kept committed lands =>
      rw [one, List.mem_singleton] at member
      subst member
      exact readable
  · intro found
    cases outcome with
    | unsent none =>
      have nothing : ∀ answer, answer ∉ sends trace := fun answer member =>
        List.not_mem_nil (none ▸ member)
      exact ⟨fun _ _ answer member => absurd member (nothing answer),
        fun _ answer member => absurd member (nothing answer),
        fun answer member => absurd member (nothing answer)⟩
    | failed answer one silent released =>
      have rejected : ∀ other ∈ sends trace, other.mayLand = false := by
        intro other member
        cases other with
        | rejected error => rfl
        | lost error => exact Bool.noConfusion (found _ member rfl).1
        | answered receipt =>
          rw [one, List.mem_singleton] at member
          exact absurd member.symm (silent receipt)
      refine ⟨fun _ _ => rejected, fun _ => rejected, fun other member lands => ?_⟩
      rw [rejected other member] at lands
      exact Bool.noConfusion lands
    | unread receipt one unreadable kept ended =>
      have reverted : ∀ other ∈ sends trace, other.mayLand = false := by
        intro other member
        refine Bool.eq_false_iff.mpr fun landing => ?_
        have readable := found other member landing
        rw [one, List.mem_singleton] at member
        subst member
        exact unreadable readable
      refine ⟨fun _ _ => reverted, fun released => absurd released kept, fun other member lands => ?_⟩
      rw [reverted other member] at lands
      exact Bool.noConfusion lands
    | answered receipt one readable kept committed lands =>
      refine ⟨fun failure ended answer member => ?_, fun released => absurd released kept,
        fun answer member mayLand => ⟨committed, ?_⟩⟩
      · rw [one, List.mem_singleton] at member
        subst member
        by_contra landing
        obtain ⟨response, same, _⟩ := lands (Bool.eq_true_of_not_eq_false landing)
        rw [ended] at same
        cases same
      · rw [one, List.mem_singleton] at member
        subst member
        obtain ⟨response, same, kept⟩ := lands mayLand
        refine ⟨response, same, fun unknown => kept ?_⟩
        have there : (receipt == .null) = false := readable.1
        rwa [SendAnswer.unknown, Option.all_some, there, Bool.false_or] at unknown

/-! ### Runs of a call -/

section Runs

theorem ensures_refused {Value : Type} (refusal : SponsorRefusal) :
    (refused refusal : Action Value).Ensures fun trace result => Quiet trace ∧
      result = .error (.refused refusal) := by
  refine .query_seq (fun answer failure impossible => by cases impossible) fun time _ _ => ?_
  refine .query_seq (fun answer failure impossible => by cases impossible) fun _ _ _ => ?_
  exact .fail ⟨quiet_cons rfl (quiet_cons rfl quiet_nil), rfl⟩

/-- The members of a receipt stay when its id is filled in. -/
theorem lookup_withId {members : List (String × Json)} {key : String} (other : key ≠ "id")
    (id : Json) :
    ((members.filter fun member => member.1 != "id") ++ [("id", id)]).lookup key =
      members.lookup key := by
  induction members with
  | nil =>
    show List.lookup key [("id", id)] = none
    rw [List.lookup_cons, beq_eq_false_iff_ne.mpr other]
    rfl
  | cons member rest inductionHypothesis =>
    obtain ⟨name, value⟩ := member
    by_cases named : name = "id"
    · subst named
      have dropped : (("id", value) :: rest).filter (fun member => member.1 != "id") =
          rest.filter fun member => member.1 != "id" := by
        rw [List.filter_cons]
        rfl
      rw [dropped, inductionHypothesis, List.lookup_cons, beq_eq_false_iff_ne.mpr other]
    · rw [List.filter_cons_of_pos (by exact bne_iff_ne.mpr named), List.cons_append,
        List.lookup_cons, List.lookup_cons, inductionHypothesis]

theorem rpcError_withId (receipt transaction : Json) :
    rpcError (withId receipt transaction) = rpcError receipt := by
  unfold withId
  split
  · rfl
  · cases receipt with
    | object members =>
      unfold rpcError Json.member? Json.get?
      dsimp only
      rw [lookup_withId (by decide)]
    | _ => rfl

/-- What is read of a receipt is the receipt, which came back and can be charged. -/
theorem readable_of_readReceipt {returned : Option Json} {receipt : Json}
    (read : readReceipt returned = .ok receipt) :
    returned = some receipt ∧ (SendAnswer.answered returned).Readable := by
  cases returned with
  | none => cases read
  | some value =>
    by_cases there : value = .null
    · subst there
      cases read
    have found : Json.readable "reverted" (some value) = .ok value := by
      cases value <;> first | rfl | exact absurd rfl there
    unfold readReceipt at read
    rw [found] at read
    change (if _ then _ else _) = _ at read
    split at read
    · next charged =>
      obtain rfl := Except.ok.inj read
      refine ⟨rfl, beq_eq_false_iff_ne.mpr there, ?_⟩
      show (value.member? "rc_used").any (fun used => !used.convertible) = false
      cases used : value.member? "rc_used" with
      | none => rfl
      | some amount =>
        rw [used, Option.all_some] at charged
        rw [Option.any_some, charged, Bool.not_true]
    · cases read

theorem unreadable_of_readReceipt {returned : Option Json} {failure : ServiceFailure}
    (unread : readReceipt returned = .error failure) :
    ¬ (SendAnswer.answered returned).Readable := by
  rintro ⟨there, charged⟩
  cases returned with
  | none => cases there
  | some value =>
    have present : value ≠ .null := beq_eq_false_iff_ne.mp there
    have found : Json.readable "reverted" (some value) = .ok value := by
      cases value <;> first | rfl | exact absurd rfl present
    unfold readReceipt at unread
    rw [found] at unread
    change (if _ then _ else _) = _ at unread
    split at unread
    · cases unread
    · next refused =>
      change (value.member? "rc_used").any (fun used => !used.convertible) = false at charged
      cases used : value.member? "rc_used" with
      | none =>
        rw [used] at refused
        exact refused rfl
      | some amount =>
        rw [used, Option.any_some, Bool.not_eq_false'] at charged
        rw [used, Option.all_some] at refused
        exact refused charged

/-- After the provider's answer: released where the call failed, committed where it came back with a
receipt that can be read, and left open otherwise. -/
theorem ensures_concluded (reservation : ℕ) (response transaction : Json) (answer : SendAnswer) :
    (concluded reservation response answer).Ensures fun trace result =>
      Outcome (⟨.send reservation transaction, answer⟩ :: trace) result := by
  have failing : ∀ error : SendError, (∀ receipt, answer ≠ .answered receipt) →
      Program.Ensures (do
        ask (.release reservation)
        refused (classifySendError error) : Action SponsorResponse) fun trace result =>
          Outcome (⟨.send reservation transaction, answer⟩ :: trace) result := by
    intro error silent
    refine .query_seq (fun answer failure impossible => by cases impossible) fun _ _ _ => ?_
    refine (ensures_refused _).weaken fun trace result ended => ?_
    refine .failed answer ?_ silent
      ⟨_, List.mem_cons_of_mem _ List.mem_cons_self, reservation, rfl⟩
    show answer :: sends trace = [answer]
    rw [ended.1.sends]
  cases answer with
  | rejected error => exact failing error fun receipt impossible => by cases impossible
  | lost error => exact failing error fun receipt impossible => by cases impossible
  | answered returned =>
    refine .lift_seq (fun failure unread => ?_) fun receipt read => ?_
    · refine .unread returned rfl (unreadable_of_readReceipt unread) ?_ fun response impossible => by
        cases impossible
      rintro ⟨exchange, member, other, same⟩
      rw [List.mem_singleton] at member
      subst member
      cases same
    obtain ⟨rfl, readable⟩ := readable_of_readReceipt read
    refine .query_seq (fun answer failure impossible => by cases impossible) fun _ _ _ => ?_
    have committed : Committed [⟨.send reservation transaction, .answered (some receipt)⟩,
        ⟨.commit reservation (isReverted receipt), ()⟩] :=
      ⟨_, List.mem_cons_of_mem _ List.mem_cons_self, reservation, isReverted receipt, rfl⟩
    have kept : ¬ Released [⟨.send reservation transaction, .answered (some receipt)⟩,
        ⟨.commit reservation (isReverted receipt), ()⟩] := by
      rintro ⟨exchange, member, other, same⟩
      rcases List.mem_cons.mp member with rfl | later
      · cases same
      · rw [List.mem_singleton] at later
        subst later
        cases same
    show Program.Ensures (if _ then _ else _) _
    split
    · next unknown =>
      refine .done (.answered receipt rfl readable kept committed (fun _ => ⟨_, rfl, fun found => ?_⟩))
      rw [rpcError_withId]
      exact found
    · next known =>
      show Program.Ensures (if _ then _ else _) _
      split
      · next reverted =>
        refine .fail (.answered receipt rfl readable kept committed (fun lands => ?_))
        rw [mayLand_answered, Bool.eq_false_iff.mpr known, reverted] at lands
        cases lands
      · exact .done (.answered receipt rfl readable kept committed
          (fun _ => ⟨_, rfl, fun found => found⟩))

theorem ensures_broadcast (reservation : ℕ) (transaction : Json) :
    (broadcast reservation transaction).Ensures Outcome := by
  refine .query_seq (fun answer failure impossible => by cases impossible)
    fun answer signed same => ?_
  obtain rfl := Except.ok.inj same
  cases answer with
  | error message =>
    refine .query_seq (fun answer failure impossible => by cases impossible) fun _ _ _ => ?_
    refine (ensures_refused _).weaken fun trace result ended => .unsent ?_
    exact ended.1.sends
  | ok signatures =>
    refine .query_seq (fun answer failure impossible => by cases impossible)
      fun answer sent same => ?_
    obtain rfl := Except.ok.inj same
    refine (ensures_concluded reservation (withSignatures transaction signatures)
      (withSignatures transaction signatures) answer).weaken fun trace result outcome => ?_
    have signing : Quiet [⟨.sign reservation transaction, .ok signatures⟩] :=
      quiet_cons rfl quiet_nil
    exact outcome.after_quiet signing

/-- The protocol of the requests that neither hand over nor settle. -/
def quietly : Runtime.Protocol Request Answer Unit where
  asks _ request := request.isQuiet = true
  gets _ _ _ := True
  next _ _ _ := ()

theorem ensures_quiet {Value : Type} {post : Except ServiceFailure Value → Prop}
    {program : Action Value} (follows : quietly.Follows (fun ending _ => post ending) program ()) :
    program.Ensures fun trace result => Quiet trace ∧ post result := by
  intro trace result runs
  exact follows.asked (fun _ _ => trivial) (fun _ _ => rfl) runs

theorem still_ask {request : Request} (quiet : request.isQuiet = true) :
    Still quietly () (ask request) :=
  ⟨quiet, fun _ _ => rfl⟩

/-- Counting a refusal hands nothing over. -/
theorem ensures_countingRefusals {Value : Type} {accepts : Value → Prop} {program : Action Value}
    (ensures : program.Ensures fun trace result => Quiet trace ∧
      ∀ value, result = .ok value → accepts value) :
    (countingRefusals program).Ensures fun trace result => Quiet trace ∧
      ∀ value, result = .ok value → accepts value := by
  refine .attempt_seq ensures fun first ending met => ?_
  obtain ⟨quiet, accepted⟩ := met
  cases ending with
  | ok value =>
    refine .done ⟨quiet_append quiet quiet_nil, fun other same => ?_⟩
    obtain rfl := Except.ok.inj same
    exact accepted value rfl
  | error failure =>
    cases failure with
    | refused refusal =>
      refine (ensures_refused refusal).weaken fun trace result ended => ?_
      refine ⟨quiet_append quiet ended.1, fun value impossible => ?_⟩
      rw [ended.2] at impossible
      cases impossible
    | internal message =>
      exact .fail ⟨quiet_append quiet quiet_nil, fun value impossible => by cases impossible⟩

theorem ensures_validated (context : ValidationContext) (input : Json) :
    (validated context input).Ensures fun trace result => Quiet trace ∧
      ∀ accepted, result = .ok accepted → Accepted context input accepted := by
  have waiting : Still quietly () (ask .wait) := still_ask rfl
  have asking : ∀ account, Still quietly () (ask (.ownerOf account)) := fun account => still_ask rfl
  have follows : quietly.Follows (fun ending later => later = () ∧
      ∀ accepted, ending = .ok accepted → Accepted context input accepted)
      (validated context input) () :=
    follows_validateTransaction waiting asking context input
  exact ensures_quiet (follows.weaken fun ending later ended => ended.2)

/-- Every run of a sponsoring call hands over at most one transaction. -/
theorem ensures_sponsor (service : SponsorService) (input : Json) :
    (sponsor service input).Ensures Outcome := by
  refine .lift_seq (fun failure _ => .unsent rfl) fun context _ => ?_
  refine .query_seq (fun answer failure impossible => by cases impossible) fun time other same => ?_
  obtain rfl := Except.ok.inj same
  refine .seq (ensures_countingRefusals (ensures_validated context input)) ?_ ?_
  · intro trace failure met
    exact .unsent (quiet_cons rfl met.1).sends
  · intro first accepted met
    have before : Quiet (⟨.now, time⟩ :: first) := quiet_cons rfl met.1
    refine .query_seq (fun answer failure impossible => by cases impossible)
      fun decision _ same => ?_
    obtain rfl := Except.ok.inj same
    have reserving : Quiet (⟨.now, time⟩ :: first ++
        [⟨.reserve accepted.payee accepted.operations.length time, decision⟩]) :=
      quiet_append before (quiet_cons rfl quiet_nil)
    cases decision with
    | error refusal =>
      refine (ensures_refused _).weaken fun trace result ended => ?_
      have whole := quiet_append reserving ended.1
      rw [List.append_assoc] at whole
      exact .unsent whole.sends
    | ok reserved =>
      refine (ensures_broadcast reserved.1 accepted.transaction).weaken
        fun trace result outcome => ?_
      have whole := outcome.after_quiet reserving
      rw [List.append_assoc] at whole
      exact whole

/-- A call refuses or refunds nothing that may be in flight, and answers with a response that says
when the outcome is unknown, exactly where a readable receipt of whatever the node accepted and did
not revert comes back. -/
theorem sponsor_spares_in_flight_iff (service : SponsorService) (input : Json) (trace : Trace)
    (result : Except ServiceFailure SponsorResponse)
    (runs : Program.Runs (sponsor service input) trace result) :
    Spares trace result ↔ ∀ answer ∈ sends trace, answer.mayLand = true → answer.Readable :=
  (ensures_sponsor service input trace result runs).spares_iff

end Runs

/-! ### A sample call -/

section Sample

/-- A chain library for one transaction of one operation. -/
def sampleChain : ChainLibrary where
  fromBase58 _ := some (List.replicate 25 0)
  decodeBase64url _ := some []
  decodeOperation _ entryPoint _ :=
    some ⟨"relationships", "follow", entryPoint, .object [("follower", .string "user")]⟩
  operationMerkleRoot _ _ := .ok "root"
  computeTransactionId _ := .ok "id"
  recoverAddresses _ := .ok ["user"]

/-- A service that sponsors one method. -/
def sampleService : SponsorService where
  serving := some
    { chain := sampleChain
      sponsor := "sponsor"
      chainId := "chain"
      allowlist := [⟨"relationships", "contract", "follow", 1⟩]
      limits := ⟨6144, 200000000, 4⟩ }
  stateMessage := "serving"
  limits := ⟨200, 20, 60⟩

/-- A transaction the service accepts. -/
def sampleTransaction : Json :=
  .object [("id", .string "id"),
    ("header", .object [("chain_id", .string "chain"), ("rc_limit", .string "1000"),
      ("nonce", .string "nonce"), ("operation_merkle_root", .string "root"),
      ("payer", .string "sponsor"), ("payee", .string "user")]),
    ("operations", .array [.object [("call_contract", .object [("contract_id", .string "contract"),
      ("entry_point", .number 1), ("args", .string "")])]]),
    ("signatures", .array [.string "signature"])]

/-- An environment in which the transaction is co-signed and the provider answers like this. -/
def answeringSend (answer : SendAnswer) (_past : Trace) : (request : Request) → Answer request
  | .now => 0
  | .wait => ()
  | .ownerOf _ => .ok none
  | .reserve _ _ _ => .ok (0, ⟨199, 19⟩)
  | .sign _ _ => .ok ["signature", "sponsored"]
  | .send _ _ => answer
  | .commit _ _ => ()
  | .release _ => ()
  | .recordRefusal _ _ => ()

/-- The run of the sample call under that environment. -/
def sampleRun (answer : SendAnswer) : Trace × Except ServiceFailure SponsorResponse :=
  Program.exec (answeringSend answer) [] (sponsor sampleService sampleTransaction)

/-- The node accepted the transaction and the connection dropped before its answer. -/
def dropped : SendAnswer := .lost ⟨"fetch failed", none⟩

/-- The provider's receipt after a timeout. -/
def timeoutReceipt : Json :=
  .object [("rpc_error", .string "rpc failed, context deadline exceeded")]

/-- After a timeout receipt the call answers with it, and the reservation is committed. -/
theorem sponsor_spares_in_flight_timeout :
    Spares (sampleRun (.answered (some timeoutReceipt))).1
      (sampleRun (.answered (some timeoutReceipt))).2 := by
  refine (sponsor_spares_in_flight_iff sampleService sampleTransaction _ _
    (Program.runs_exec (answeringSend (.answered (some timeoutReceipt))) [] _)).mpr
      fun answer member _ => ?_
  have answers : (sends (sampleRun (.answered (some timeoutReceipt))).1).all
      (fun answer => !answer.isLost && !answer.isGarbled) = true := by decide +kernel
  have readable := List.all_eq_true.mp answers _ member
  rw [Bool.and_eq_true, Bool.not_eq_true', Bool.not_eq_true'] at readable
  exact readable

/-- A transaction the node accepted is refused and refunded when the connection drops. -/
theorem refused_in_flight :
    ¬ ∀ (service : SponsorService) (input : Json) (trace : Trace)
      (result : Except ServiceFailure SponsorResponse),
      Program.Runs (sponsor service input) trace result → Spares trace result := by
  intro always
  have spares := always sampleService sampleTransaction _ _
    (Program.runs_exec (answeringSend dropped) [] _)
  have failed : ((sampleRun dropped).2.toBool, (sends (sampleRun dropped).1).any
      SendAnswer.mayLand) = (false, true) := by decide +kernel
  obtain ⟨ended, landed⟩ := Prod.mk.inj failed
  obtain ⟨answer, member, lands⟩ := List.any_eq_true.mp landed
  cases result : (sampleRun dropped).2 with
  | ok response =>
    rw [result] at ended
    cases ended
  | error failure =>
    have refused := spares.refused failure result answer member
    rw [lands] at refused
    cases refused

end Sample

end OpenSocial.Sponsor

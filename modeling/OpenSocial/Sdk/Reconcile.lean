/-
This file models the reconciliation of a cross-post: the record of an attempt,
its pure transition function, the retry plan, and the lookup of a publication by
its idempotency key.

Hexadecimal fields hold the bytes they stand for. The statement of a step says
everything an event can do to the two sides of a record, so what a sequence of
events keeps is derived from it without unfolding the transition again.
-/

import OpenSocial.Common.Util
import OpenSocial.Library.Exchange
import OpenSocial.Library.Sides
import OpenSocial.Sdk.Json

namespace OpenSocial.Sdk

open Library

/-! ### Records -/

/-- The id of a transaction: whatever JSON value the member holds. -/
abbrev TransactionId := Json

/-- `CrossPostState`; `partly` is the source's `partial`. -/
inductive CrossPostState where
  | draft
  | submitting
  | succeeded
  | partly
  | unknown
  | failed
  | reconcileRequired
  deriving DecidableEq, Repr

def CrossPostState.text : CrossPostState → String
  | .draft => "draft"
  | .submitting => "submitting"
  | .succeeded => "succeeded"
  | .partly => "partial"
  | .unknown => "unknown"
  | .failed => "failed"
  | .reconcileRequired => "reconcile_required"

/-- Progress of one side; a Koinos-only attempt requires no host. -/
inductive SideStatus where
  | pending
  | ok
  | failed
  | unknown
  | notRequired
  deriving DecidableEq, Repr

structure CrossPostRecord where
  idempotencyKey : Bytes
  attemptId : Bytes
  hostSite : Option String
  audience : ℕ
  state : CrossPostState
  hostStatus : SideStatus
  koinosStatus : SideStatus
  hostRef : Option String
  koinosTxId : Option TransactionId
  postId : Option Bytes
  lastError : Option String
  updatedAt : ℕ
  deriving DecidableEq

/-- `ReconcileEvent`, with the time it is applied at. -/
inductive ReconcileEvent where
  | retry (time : ℕ)
  | hostSucceeded (hostRef : String) (time : ℕ)
  | hostFailed (error : String) (time : ℕ)
  | koinosSucceeded (txId : TransactionId) (postId : Bytes) (time : ℕ)
  | koinosFailed (error : String) (time : ℕ)
  | koinosUnknown (error : Option String) (time : ℕ)
  | lookupFound (postId : Bytes) (txId : Option TransactionId) (time : ℕ)
  | lookupMissing (time : ℕ)
  deriving DecidableEq

/-- A fresh `draft` record. -/
def newCrossPostRecord (idempotencyKey attemptId : Bytes) (hostSite : Option String)
    (audience now : ℕ) : CrossPostRecord :=
  let host := hostSite.filter fun site => site != ""
  { idempotencyKey := idempotencyKey
    attemptId := attemptId
    hostSite := host
    audience := audience
    state := .draft
    hostStatus := if host.isSome then .pending else .notRequired
    koinosStatus := .pending
    hostRef := none
    koinosTxId := none
    postId := none
    lastError := none
    updatedAt := now }

/-! ### Transitions -/

def deriveState (record : CrossPostRecord) : CrossPostState :=
  let host := record.hostStatus
  let koinos := record.koinosStatus
  let hostDone := host == .ok || host == .notRequired
  if koinos == .unknown then .unknown
  else if hostDone && koinos == .ok then .succeeded
  else if (hostDone && koinos == .failed) || (koinos == .ok && host == .failed) then .partly
  else if host == .failed && koinos == .failed then .failed
  else .submitting

def conflict (record : CrossPostRecord) (time : ℕ) (reason : String) : CrossPostRecord :=
  { record with state := .reconcileRequired, lastError := some reason, updatedAt := time }

def finish (record : CrossPostRecord) (time : ℕ) : CrossPostRecord :=
  { record with state := deriveState record, updatedAt := time }

def hexDigit (value : ℕ) : Char :=
  "0123456789abcdef".toList.getD value '0'

def toHex (bytes : Bytes) : String :=
  String.ofList (bytes.flatMap fun byte =>
    [hexDigit (byte.toNat / 16), hexDigit (byte.toNat % 16)])

/-- A failed side is pending again; the other sides stay. -/
def reopened (status : SideStatus) : SideStatus :=
  if status == .failed then .pending else status

/-- What a Koinos result and a lookup that found the post do alike. -/
def koinosFound (record : CrossPostRecord) (postId : Bytes) (txId : Option TransactionId)
    (lastError : Option String) (time : ℕ) : CrossPostRecord :=
  match record.postId.filter fun known => known != postId with
  | some known =>
    conflict record time ("post id " ++ toHex postId ++ " conflicts with " ++ toHex known)
  | none =>
    finish { record with
      koinosStatus := .ok
      postId := some postId
      koinosTxId := txId <|> record.koinosTxId
      lastError := lastError } time

/-- `transition`. -/
def transition (record : CrossPostRecord) (event : ReconcileEvent) : CrossPostRecord :=
  if record.state = .reconcileRequired then record
  else match event with
    | .retry time =>
      if record.state = .succeeded then record
      else if record.state = .unknown then
        { record with lastError := some "lookup required before retry", updatedAt := time }
      else
        { record with
          hostStatus := reopened record.hostStatus
          koinosStatus := reopened record.koinosStatus
          lastError := none
          state := .submitting
          updatedAt := time }
    | .hostSucceeded hostRef time =>
      if record.hostStatus = .notRequired then
        conflict record time "host result for a Koinos-only attempt"
      else match record.hostRef.filter fun known => known != hostRef with
        | some known =>
          conflict record time ("host ref " ++ hostRef ++ " conflicts with " ++ known)
        | none => finish { record with hostStatus := .ok, hostRef := some hostRef } time
    | .hostFailed error time =>
      if record.hostStatus = .notRequired then
        conflict record time "host result for a Koinos-only attempt"
      else if record.hostStatus = .ok then record
      else finish { record with hostStatus := .failed, lastError := some error } time
    | .koinosSucceeded txId postId time => koinosFound record postId (some txId) none time
    | .lookupFound postId txId time => koinosFound record postId txId record.lastError time
    | .koinosFailed error time =>
      if record.koinosStatus = .ok then record
      else finish { record with koinosStatus := .failed, lastError := some error } time
    | .koinosUnknown error time =>
      if record.koinosStatus = .ok then record
      else finish { record with
        koinosStatus := .unknown
        lastError := error <|> record.lastError } time
    | .lookupMissing time =>
      if record.koinosStatus = .ok then
        conflict record time
          "chain lookup found no post for an idempotency key recorded as succeeded"
      else if record.koinosStatus = .unknown then
        finish { record with
          koinosStatus := .failed
          lastError := some "not found on chain; safe to retry" } time
      else { record with updatedAt := time }

/-- Which sides a retry must publish again. -/
structure RetryPlan where
  koinos : Bool
  host : Bool
  deriving DecidableEq, Repr

/-- `retryPlan`. -/
def retryPlan (record : CrossPostRecord) : RetryPlan where
  koinos := record.postId.isNone && record.koinosStatus != .ok && record.koinosStatus != .unknown
  host := record.hostStatus != .notRequired && record.hostStatus != .ok

/-! ### Lookups -/

/-- What an indexer reports of a post. -/
structure IndexerHit where
  postId : Bytes
  txId : Option TransactionId
  deriving DecidableEq

section Lookup

variable {Request : Type} {Answer : Request → Type} {Failure : Type}

/-- `Reconciler.lookup`: the chain first, then the indexer, which may only add a transaction id to
what the chain found. -/
def lookup (now : Program Request Answer Failure ℕ)
    (getPostByIdempotencyKey : Program Request Answer Failure (Option Bytes))
    (findByIdempotencyKey : Program Request Answer Failure (Option IndexerHit))
    (record : CrossPostRecord) : Program Request Answer Failure CrossPostRecord := do
  let time ← now
  match (← getPostByIdempotencyKey).filter fun found => found != [] with
  | some postId => do
    let hit ← findByIdempotencyKey
    let txId := (hit.filter fun hit => hit.postId == postId).bind IndexerHit.txId
    pure (transition record (.lookupFound postId txId time))
  | none => do
    match ← findByIdempotencyKey with
    | some hit => pure (transition record (.lookupFound hit.postId hit.txId time))
    | none => pure (transition record (.lookupMissing time))

end Lookup

/-! ### What a transition does -/

/-- The post an event reports, with its transaction. -/
def ReconcileEvent.found : ReconcileEvent → Option (Bytes × Option TransactionId)
  | .koinosSucceeded txId postId _ => some (postId, some txId)
  | .lookupFound postId txId _ => some (postId, txId)
  | _ => none

/-- Everything an event can make of a record. -/
inductive Transition (record : CrossPostRecord) (event : ReconcileEvent) : CrossPostRecord → Prop
  | stays : Transition record event record
  | conflicts (time : ℕ) (reason : String) (settled : record.state ≠ .reconcileRequired) :
      Transition record event (conflict record time reason)
  | noted (lastError : Option String) (time : ℕ) (settled : record.state ≠ .reconcileRequired) :
      Transition record event { record with lastError := lastError, updatedAt := time }
  | retried (time : ℕ) (settled : record.state ≠ .reconcileRequired)
      (unfinished : record.state ≠ .succeeded) (known : record.state ≠ .unknown)
      (called : event = .retry time) :
      Transition record event
        { record with
          hostStatus := reopened record.hostStatus
          koinosStatus := reopened record.koinosStatus
          lastError := none
          state := .submitting
          updatedAt := time }
  | hostSucceeded (hostRef : String) (time : ℕ) (settled : record.state ≠ .reconcileRequired)
      (required : record.hostStatus ≠ .notRequired)
      (agrees : ∀ known, record.hostRef = some known → known = hostRef)
      (called : event = .hostSucceeded hostRef time) :
      Transition record event
        (finish { record with hostStatus := .ok, hostRef := some hostRef } time)
  | hostFailed (error : String) (time : ℕ) (settled : record.state ≠ .reconcileRequired)
      (required : record.hostStatus ≠ .notRequired) (unreported : record.hostStatus ≠ .ok)
      (called : event = .hostFailed error time) :
      Transition record event
        (finish { record with hostStatus := .failed, lastError := some error } time)
  | koinosMissed (status : SideStatus) (lastError : Option String) (time : ℕ)
      (settled : record.state ≠ .reconcileRequired) (unfound : record.koinosStatus ≠ .ok)
      (missed : status = .failed ∨ status = .unknown) :
      Transition record event
        (finish { record with koinosStatus := status, lastError := lastError } time)
  | koinosFound (postId : Bytes) (txId : Option TransactionId) (lastError : Option String)
      (time : ℕ) (settled : record.state ≠ .reconcileRequired)
      (reported : event.found = some (postId, txId))
      (agrees : ∀ known, record.postId = some known → known = postId) :
      Transition record event
        (finish { record with
          koinosStatus := .ok
          postId := some postId
          koinosTxId := txId <|> record.koinosTxId
          lastError := lastError } time)

section Transition

variable (record : CrossPostRecord)

/-- What disagrees with nothing known agrees with it. -/
theorem agrees_of_filter {Value : Type} [BEq Value] [LawfulBEq Value]
    {recorded : Option Value} {value : Value}
    (unequal : (recorded.filter fun known => known != value) = none) :
    ∀ known, recorded = some known → known = value := by
  intro known found
  rw [found, Option.filter_eq_none_iff] at unequal
  have same := unequal known rfl
  rw [bne_iff_ne, ne_eq, not_not] at same
  exact same

theorem transition_koinosFound {postId : Bytes} {txId : Option TransactionId}
    {lastError : Option String} {time : ℕ} {event : ReconcileEvent}
    (settled : record.state ≠ .reconcileRequired)
    (reported : event.found = some (postId, txId)) :
    Transition record event (koinosFound record postId txId lastError time) := by
  unfold koinosFound
  split
  · exact .conflicts _ _ settled
  · next agreeing => exact .koinosFound postId txId _ _ settled reported (agrees_of_filter agreeing)

theorem transition_cases (event : ReconcileEvent) :
    Transition record event (transition record event) := by
  unfold transition
  split
  · exact .stays
  next settled =>
  cases event with
  | koinosSucceeded txId postId time => exact transition_koinosFound record settled rfl
  | lookupFound postId txId time => exact transition_koinosFound record settled rfl
  | retry time =>
    dsimp only
    split
    · exact .stays
    · next unfinished =>
      split
      · exact .noted _ _ settled
      · next known => exact .retried time settled unfinished known rfl
  | hostSucceeded hostRef time =>
    dsimp only
    split
    · exact .conflicts _ _ settled
    · next required =>
      split
      · exact .conflicts _ _ settled
      · next agreeing =>
        exact .hostSucceeded hostRef time settled required (agrees_of_filter agreeing) rfl
  | hostFailed error time =>
    dsimp only
    split
    · exact .conflicts _ _ settled
    · next required =>
      split
      · exact .stays
      · next unreported => exact .hostFailed error time settled required unreported rfl
  | koinosFailed error time =>
    dsimp only
    split
    · exact .stays
    · next unfound => exact .koinosMissed _ _ _ settled unfound (.inl rfl)
  | koinosUnknown error time =>
    dsimp only
    split
    · exact .stays
    · next unfound => exact .koinosMissed _ _ _ settled unfound (.inr rfl)
  | lookupMissing time =>
    dsimp only
    split
    · exact .conflicts _ _ settled
    · next unfound =>
      split
      · exact .koinosMissed _ _ _ settled unfound (.inl rfl)
      · exact .noted _ _ settled

theorem reopened_eq_ok (status : SideStatus) : reopened status = .ok ↔ status = .ok := by
  cases status <;> decide

/-- The Koinos side of a record after an event: as it was, or with the post the event reports. -/
inductive KoinosStep (record after : CrossPostRecord) (event : ReconcileEvent) : Prop
  | kept (post : after.postId = record.postId) (txId : after.koinosTxId = record.koinosTxId)
      (status : after.koinosStatus = .ok ↔ record.koinosStatus = .ok)
  | found (postId : Bytes) (txId : Option TransactionId)
      (reported : event.found = some (postId, txId))
      (agrees : ∀ known, record.postId = some known → known = postId)
      (post : after.postId = some postId) (status : after.koinosStatus = .ok)
      (txId : after.koinosTxId = (txId <|> record.koinosTxId))

theorem koinos_step (event : ReconcileEvent) :
    KoinosStep record (transition record event) event := by
  have made := transition_cases record event
  generalize transition record event = after at made ⊢
  cases made with
  | stays => exact .kept rfl rfl Iff.rfl
  | conflicts time reason settled => exact .kept rfl rfl Iff.rfl
  | noted lastError time settled => exact .kept rfl rfl Iff.rfl
  | retried time settled unfinished known called =>
    exact .kept rfl rfl (reopened_eq_ok record.koinosStatus)
  | hostSucceeded hostRef time settled required agrees called => exact .kept rfl rfl Iff.rfl
  | hostFailed error time settled required unreported called => exact .kept rfl rfl Iff.rfl
  | koinosMissed status lastError time settled unfound missed =>
    refine .kept rfl rfl (iff_of_false ?_ unfound)
    rcases missed with rfl | rfl
    · exact SideStatus.noConfusion
    · exact SideStatus.noConfusion
  | koinosFound postId txId lastError time settled reported agrees =>
    exact .found postId txId reported agrees rfl rfl rfl

/-- What a record is about. -/
structure SameAttempt (record after : CrossPostRecord) : Prop where
  idempotencyKey : after.idempotencyKey = record.idempotencyKey
  attemptId : after.attemptId = record.attemptId
  hostSite : after.hostSite = record.hostSite
  audience : after.audience = record.audience

theorem SameAttempt.trans {first second third : CrossPostRecord} (before : SameAttempt first second)
    (after : SameAttempt second third) : SameAttempt first third :=
  ⟨after.1.trans before.1, after.2.trans before.2, after.3.trans before.3, after.4.trans before.4⟩

/-- No event changes what a record is about. -/
theorem sameAttempt_transition (event : ReconcileEvent) :
    SameAttempt record (transition record event) := by
  have made := transition_cases record event
  generalize transition record event = after at made ⊢
  cases made <;> exact ⟨rfl, rfl, rfl, rfl⟩

theorem deriveState_ne_draft : deriveState record ≠ .draft := by
  unfold deriveState
  dsimp only
  split_ifs <;> decide

theorem finish_ne_draft (time : ℕ) : (finish record time).state ≠ .draft :=
  deriveState_ne_draft record

/-- A record that left the draft does not come back to it. -/
theorem transition_ne_draft (event : ReconcileEvent) (left : record.state ≠ .draft) :
    (transition record event).state ≠ .draft := by
  have made := transition_cases record event
  generalize transition record event = after at made ⊢
  cases made with
  | stays => exact left
  | conflicts time reason settled => exact CrossPostState.noConfusion
  | noted lastError time settled => exact left
  | retried time settled unfinished known called => exact CrossPostState.noConfusion
  | hostSucceeded hostRef time settled required agrees called => exact finish_ne_draft _ _
  | hostFailed error time settled required unreported called => exact finish_ne_draft _ _
  | koinosMissed status lastError time settled unfound missed => exact finish_ne_draft _ _
  | koinosFound postId txId lastError time settled reported agrees => exact finish_ne_draft _ _

end Transition

/-! ### What a sequence of events keeps -/

/-- The record after a sequence of events. -/
def transitions (record : CrossPostRecord) (events : List ReconcileEvent) : CrossPostRecord :=
  events.foldl transition record

/-- The results of a Koinos publication, and of a lookup. -/
def ReconcileEvent.settlesKoinos : ReconcileEvent → Bool
  | .koinosSucceeded _ _ _ => true
  | .koinosFailed _ _ => true
  | .lookupFound _ _ _ => true
  | .lookupMissing _ => true
  | _ => false

/-- A record knows the result of each side exactly where that side succeeded, and its state is the
one its sides give. -/
structure Consistent (record : CrossPostRecord) : Prop where
  post : record.postId.isSome ↔ record.koinosStatus = .ok
  host : record.hostRef.isSome ↔ record.hostStatus = .ok
  fresh : record.state = .draft →
    record.koinosStatus = .pending ∧
      (record.hostStatus = .pending ∨ record.hostStatus = .notRequired)
  derived : record.state ≠ .draft → record.state ≠ .reconcileRequired →
    record.state = deriveState record

/-- What later events leave of a record. -/
structure Keeps (record later : CrossPostRecord) : Prop where
  postId : ∀ postId, record.postId = some postId → later.postId = some postId
  hostRef : ∀ hostRef, record.hostRef = some hostRef → later.hostRef = some hostRef
  reconcile : record.state = .reconcileRequired → later = record

section Sequence

variable (record : CrossPostRecord)

theorem deriveState_unknown :
    deriveState record = .unknown ↔ record.koinosStatus = .unknown := by
  unfold deriveState
  cases record.hostStatus <;> cases record.koinosStatus <;> decide

/-- The state depends on the two sides alone. -/
theorem deriveState_congr {first second : CrossPostRecord}
    (host : first.hostStatus = second.hostStatus)
    (koinos : first.koinosStatus = second.koinosStatus) :
    deriveState first = deriveState second := by
  unfold deriveState
  rw [host, koinos]

/-- Once its failed sides are pending again, an attempt that neither succeeded nor waits for a
lookup is being submitted. -/
theorem deriveState_reopened {reopening : CrossPostRecord}
    (host : reopening.hostStatus = reopened record.hostStatus)
    (koinos : reopening.koinosStatus = reopened record.koinosStatus)
    (unfinished : deriveState record ≠ .succeeded) (known : deriveState record ≠ .unknown) :
    deriveState reopening = .submitting := by
  unfold deriveState at unfinished known ⊢
  rw [host, koinos]
  revert unfinished known
  cases record.hostStatus <;> cases record.koinosStatus <;> decide

theorem consistent_newCrossPostRecord (idempotencyKey attemptId : Bytes)
    (hostSite : Option String) (audience now : ℕ) :
    Consistent (newCrossPostRecord idempotencyKey attemptId hostSite audience now) where
  post := iff_of_false Bool.noConfusion SideStatus.noConfusion
  host := by
    refine iff_of_false Bool.noConfusion ?_
    unfold newCrossPostRecord
    dsimp only
    split_ifs <;> decide
  fresh := by
    intro _
    refine ⟨rfl, ?_⟩
    unfold newCrossPostRecord
    dsimp only
    split_ifs
    · exact .inl rfl
    · exact .inr rfl
  derived := fun left => absurd rfl left

variable {record}

/-- A finished record is consistent when what it knows of its sides is. -/
theorem consistent_finish {time : ℕ} (post : record.postId.isSome ↔ record.koinosStatus = .ok)
    (host : record.hostRef.isSome ↔ record.hostStatus = .ok) :
    Consistent (finish record time) where
  post := post
  host := host
  fresh := fun drafted => absurd drafted (finish_ne_draft record time)
  derived := fun _ _ => deriveState_congr rfl rfl

theorem Consistent.retried (consistent : Consistent record) {time : ℕ}
    (settled : record.state ≠ .reconcileRequired) (unfinished : record.state ≠ .succeeded)
    (known : record.state ≠ .unknown) :
    Consistent { record with
      hostStatus := reopened record.hostStatus
      koinosStatus := reopened record.koinosStatus
      lastError := none
      state := .submitting
      updatedAt := time } where
  post := consistent.post.trans (reopened_eq_ok _).symm
  host := consistent.host.trans (reopened_eq_ok _).symm
  fresh := fun drafted => CrossPostState.noConfusion drafted
  derived := by
    intro _ _
    symm
    by_cases drafted : record.state = .draft
    · obtain ⟨koinos, host⟩ := consistent.fresh drafted
      refine deriveState_reopened record rfl rfl ?_ ?_
      · unfold deriveState
        rw [koinos]
        rcases host with host | host <;> rw [host] <;> decide
      · rw [ne_eq, deriveState_unknown, koinos]
        decide
    · have derived := consistent.derived drafted settled
      refine deriveState_reopened record rfl rfl ?_ ?_
      · rw [← derived]
        exact unfinished
      · rw [← derived]
        exact known

/-- Every event keeps a record consistent. -/
theorem Consistent.transition (consistent : Consistent record) (event : ReconcileEvent) :
    Consistent (transition record event) := by
  have made := transition_cases record event
  generalize Sdk.transition record event = after at made ⊢
  cases made with
  | stays => exact consistent
  | conflicts time reason settled =>
    exact ⟨consistent.post, consistent.host, fun drafted => CrossPostState.noConfusion drafted,
      fun _ required => absurd rfl required⟩
  | noted lastError time settled =>
    exact ⟨consistent.post, consistent.host, consistent.fresh, consistent.derived⟩
  | retried time settled unfinished known called =>
    exact consistent.retried settled unfinished known
  | hostSucceeded hostRef time settled required agrees called =>
    exact consistent_finish consistent.post (iff_of_true rfl rfl)
  | hostFailed error time settled required unreported called =>
    refine consistent_finish consistent.post ?_
    exact iff_of_false (fun known => unreported (consistent.host.mp known)) SideStatus.noConfusion
  | koinosMissed status lastError time settled unfound missed =>
    refine consistent_finish ?_ consistent.host
    refine iff_of_false (fun known => unfound (consistent.post.mp known)) ?_
    rcases missed with rfl | rfl
    · exact SideStatus.noConfusion
    · exact SideStatus.noConfusion
  | koinosFound postId txId lastError time settled reported agrees =>
    exact consistent_finish (iff_of_true rfl rfl) consistent.host

theorem Consistent.transitions (consistent : Consistent record) (events : List ReconcileEvent) :
    Consistent (transitions record events) := by
  induction events generalizing record with
  | nil => exact consistent
  | cons event events inductionHypothesis => exact inductionHypothesis (consistent.transition event)

variable (record)

/-- An event takes no fact away and changes none. -/
theorem keeps_transition (event : ReconcileEvent) : Keeps record (transition record event) where
  postId := by
    intro postId known
    cases koinos_step record event with
    | kept post txId status => exact post.trans known
    | found reported txId matched agrees post status txId =>
      rw [post, agrees postId known]
  hostRef := by
    intro hostRef known
    have made := transition_cases record event
    generalize transition record event = after at made ⊢
    cases made with
    | hostSucceeded found time settled required agrees called =>
      exact congrArg some (agrees hostRef known).symm
    | _ => exact known
  reconcile := by
    intro required
    unfold transition
    exact if_pos required

theorem keeps_transitions (events : List ReconcileEvent) :
    Keeps record (transitions record events) := by
  induction events generalizing record with
  | nil => exact ⟨fun _ known => known, fun _ known => known, fun _ => rfl⟩
  | cons event events inductionHypothesis =>
    have step := keeps_transition record event
    have later := inductionHypothesis (transition record event)
    refine ⟨fun postId known => later.postId postId (step.postId postId known),
      fun hostRef known => later.hostRef hostRef (step.hostRef hostRef known), fun required => ?_⟩
    have absorbed := step.reconcile required
    have still : (transition record event).state = .reconcileRequired := by
      rw [absorbed]
      exact required
    exact (later.reconcile still).trans absorbed

/-- Only a result of the publication, or a lookup, resolves an unknown outcome. -/
theorem unknown_of_silent {event : ReconcileEvent} (silent : event.settlesKoinos = false)
    (unknown : record.koinosStatus = .unknown) :
    (transition record event).koinosStatus = .unknown := by
  unfold transition
  split
  · exact unknown
  cases event with
  | retry time =>
    dsimp only
    split_ifs
    · exact unknown
    · exact unknown
    · show reopened record.koinosStatus = .unknown
      rw [unknown]
      rfl
  | hostSucceeded hostRef time =>
    dsimp only
    split
    · exact unknown
    · split
      · exact unknown
      · exact unknown
  | hostFailed error time =>
    dsimp only
    split_ifs
    · exact unknown
    · exact unknown
    · exact unknown
  | koinosUnknown error time =>
    dsimp only
    split_ifs
    · exact unknown
    · rfl
  | koinosSucceeded txId postId time => exact Bool.noConfusion silent
  | koinosFailed error time => exact Bool.noConfusion silent
  | lookupFound postId txId time => exact Bool.noConfusion silent
  | lookupMissing time => exact Bool.noConfusion silent

theorem retryPlan_koinos :
    (retryPlan record).koinos = true ↔
      record.postId = none ∧ record.koinosStatus ≠ .ok ∧ record.koinosStatus ≠ .unknown := by
  unfold retryPlan
  rw [Bool.and_eq_true, Bool.and_eq_true, bne_iff_ne, bne_iff_ne, Option.isNone_iff_eq_none,
    and_assoc]

/-- Whatever events reach a fresh record, in any order: it knows the post exactly when the Koinos
side succeeded and the host's reference exactly when the host side did, later events change
neither, a conflict is final, outside a draft and a conflict its state is the one its sides give,
only a result or a lookup resolves an unknown outcome, and no retry publishes on Koinos while the
outcome is unknown or the post is known. -/
theorem reconciliation_facts_kept (idempotencyKey attemptId : Bytes) (hostSite : Option String)
    (audience now : ℕ) (events : List ReconcileEvent) :
    ∃ record, record =
        transitions (newCrossPostRecord idempotencyKey attemptId hostSite audience now) events ∧
      Consistent record ∧
      (record.state ≠ .draft → record.state ≠ .reconcileRequired →
        (record.state = .unknown ↔ record.koinosStatus = .unknown)) ∧
      (∀ later, Keeps record (transitions record later)) ∧
      (∀ event, record.koinosStatus = .unknown →
        (transition record event).koinosStatus ≠ .unknown → event.settlesKoinos = true) ∧
      (record.postId.isSome ∨ record.koinosStatus = .unknown →
        (retryPlan record).koinos = false) := by
  have consistent := (consistent_newCrossPostRecord idempotencyKey attemptId hostSite audience
    now).transitions events
  refine ⟨_, rfl, consistent, ?_, keeps_transitions _, ?_, ?_⟩
  · intro left settled
    rw [consistent.derived left settled]
    exact deriveState_unknown _
  · intro event unknown resolved
    by_contra silent
    exact resolved (unknown_of_silent _ (Bool.eq_false_iff.mpr silent) unknown)
  · intro known
    rw [← Bool.not_eq_true, retryPlan_koinos]
    rintro ⟨missing, -, settled⟩
    rcases known with found | unknown
    · rw [missing] at found
      exact Bool.noConfusion found
    · exact settled unknown

end Sequence

/-! ### Host results and Koinos results commute -/

/-- The results of a publication on the host. -/
def ReconcileEvent.aboutHost : ReconcileEvent → Bool
  | .hostSucceeded _ _ => true
  | .hostFailed _ _ => true
  | _ => false

/-- The results of a Koinos publication, known or not, and of a lookup. -/
def ReconcileEvent.aboutKoinos : ReconcileEvent → Bool
  | .koinosUnknown _ _ => true
  | event => event.settlesKoinos

/-- What a record knows of the host. -/
structure HostSide where
  status : SideStatus
  ref : Option String

/-- What a record knows of Koinos. -/
structure KoinosSide where
  status : SideStatus
  postId : Option Bytes
  txId : Option TransactionId

def CrossPostRecord.sides (record : CrossPostRecord) :
    Sides CrossPostState HostSide KoinosSide where
  status := record.state
  first := ⟨record.hostStatus, record.hostRef⟩
  second := ⟨record.koinosStatus, record.postId, record.koinosTxId⟩

/-- What a host result tells the host side. -/
def hostMove (event : ReconcileEvent) (side : HostSide) : Move HostSide :=
  match event with
  | .hostSucceeded hostRef _ =>
    if side.status = .notRequired then .contradicts
    else if (side.ref.filter fun known => known != hostRef).isSome then .contradicts
    else .becomes ⟨.ok, some hostRef⟩
  | .hostFailed _ _ =>
    if side.status = .notRequired then .contradicts
    else if side.status = .ok then .keeps
    else .becomes { side with status := .failed }
  | _ => .keeps

/-- What a Koinos result that missed the post tells the Koinos side. -/
def KoinosSide.missed (side : KoinosSide) (status : SideStatus) : Move KoinosSide :=
  if side.status = .ok then .keeps else .becomes { side with status := status }

/-- What a Koinos result that has the post tells the Koinos side. -/
def KoinosSide.found (side : KoinosSide) (postId : Bytes) (txId : Option TransactionId) :
    Move KoinosSide :=
  if (side.postId.filter fun known => known != postId).isSome then .contradicts
  else .becomes ⟨.ok, some postId, txId <|> side.txId⟩

/-- What a Koinos result tells the Koinos side. -/
def koinosMove (event : ReconcileEvent) (side : KoinosSide) : Move KoinosSide :=
  match event with
  | .koinosSucceeded txId postId _ => side.found postId (some txId)
  | .lookupFound postId txId _ => side.found postId txId
  | .koinosFailed _ _ => side.missed .failed
  | .koinosUnknown _ _ => side.missed .unknown
  | .lookupMissing _ =>
    if side.status = .ok then .contradicts
    else if side.status = .unknown then .becomes { side with status := .failed }
    else .keeps
  | _ => .keeps

/-- Two records that know the same of both sides. -/
structure SameSides (left right : CrossPostRecord) : Prop where
  hostStatus : left.hostStatus = right.hostStatus
  koinosStatus : left.koinosStatus = right.koinosStatus
  hostRef : left.hostRef = right.hostRef
  postId : left.postId = right.postId
  koinosTxId : left.koinosTxId = right.koinosTxId

theorem sameSides_of_sides {left right : CrossPostRecord} (same : left.sides = right.sides) :
    SameSides left right where
  hostStatus := congrArg (fun sides => sides.first.status) same
  koinosStatus := congrArg (fun sides => sides.second.status) same
  hostRef := congrArg (fun sides => sides.first.ref) same
  postId := congrArg (fun sides => sides.second.postId) same
  koinosTxId := congrArg (fun sides => sides.second.txId) same

section Commute

variable (record : CrossPostRecord)

/-- The state two sides are in; the other fields of a record do not enter it. -/
def stateOfSides (host : HostSide) (koinos : KoinosSide) : CrossPostState :=
  deriveState { record with hostStatus := host.status, koinosStatus := koinos.status }

theorem stateOfSides_settles (host : HostSide) (koinos : KoinosSide) :
    stateOfSides record host koinos ≠ .reconcileRequired := by
  unfold stateOfSides deriveState
  dsimp only
  split_ifs <;> decide

/-- A host result moves the host side and reads no other. -/
theorem sides_hostResult (template : CrossPostRecord) {event : ReconcileEvent}
    (aboutHost : event.aboutHost = true) :
    (transition record event).sides =
      Sides.moveFirst .reconcileRequired (stateOfSides template) (hostMove event)
        record.sides := by
  unfold transition Sides.moveFirst
  by_cases settled : record.state = .reconcileRequired
  · rw [if_pos settled, if_pos (show record.sides.status = .reconcileRequired from settled)]
  rw [if_neg settled, if_neg (show record.sides.status ≠ .reconcileRequired from settled)]
  cases event with
  | hostSucceeded hostRef time =>
    dsimp only [hostMove, CrossPostRecord.sides]
    by_cases required : record.hostStatus = .notRequired
    · rw [if_pos required, if_pos required]
      rfl
    rw [if_neg required, if_neg required]
    cases record.hostRef.filter fun known => known != hostRef with
    | some known => rfl
    | none => rfl
  | hostFailed error time =>
    dsimp only [hostMove, CrossPostRecord.sides]
    by_cases required : record.hostStatus = .notRequired
    · rw [if_pos required, if_pos required]
      rfl
    rw [if_neg required, if_neg required]
    by_cases reported : record.hostStatus = .ok
    · rw [if_pos reported, if_pos reported]
    · rw [if_neg reported, if_neg reported]
      rfl
  | _ => exact Bool.noConfusion aboutHost

theorem sides_koinosFound (template : CrossPostRecord) (postId : Bytes)
    (txId : Option TransactionId) (lastError : Option String) (time : ℕ)
    {event : ReconcileEvent}
    (moves : koinosMove event record.sides.second = record.sides.second.found postId txId)
    (settled : record.state ≠ .reconcileRequired) :
    (koinosFound record postId txId lastError time).sides =
      Sides.moveSecond .reconcileRequired (stateOfSides template) (koinosMove event)
        record.sides := by
  unfold koinosFound Sides.moveSecond
  rw [if_neg (show record.sides.status ≠ .reconcileRequired from settled), moves]
  dsimp only [KoinosSide.found, CrossPostRecord.sides]
  cases record.postId.filter fun known => known != postId with
  | some known => rfl
  | none => rfl

/-- A Koinos result moves the Koinos side and reads no other. -/
theorem sides_koinosResult (template : CrossPostRecord) {event : ReconcileEvent}
    (aboutKoinos : event.aboutKoinos = true) :
    (transition record event).sides =
      Sides.moveSecond .reconcileRequired (stateOfSides template) (koinosMove event)
        record.sides := by
  unfold transition
  by_cases settled : record.state = .reconcileRequired
  · rw [if_pos settled, Sides.moveSecond,
      if_pos (show record.sides.status = .reconcileRequired from settled)]
  rw [if_neg settled]
  cases event with
  | koinosSucceeded txId postId time =>
    exact sides_koinosFound record template postId (some txId) none time rfl settled
  | lookupFound postId txId time =>
    exact sides_koinosFound record template postId txId record.lastError time rfl settled
  | koinosFailed error time =>
    rw [Sides.moveSecond, if_neg (show record.sides.status ≠ .reconcileRequired from settled)]
    dsimp only [koinosMove, KoinosSide.missed, CrossPostRecord.sides]
    by_cases found : record.koinosStatus = .ok
    · rw [if_pos found, if_pos found]
    · rw [if_neg found, if_neg found]
      rfl
  | koinosUnknown error time =>
    rw [Sides.moveSecond, if_neg (show record.sides.status ≠ .reconcileRequired from settled)]
    dsimp only [koinosMove, KoinosSide.missed, CrossPostRecord.sides]
    by_cases found : record.koinosStatus = .ok
    · rw [if_pos found, if_pos found]
    · rw [if_neg found, if_neg found]
      rfl
  | lookupMissing time =>
    rw [Sides.moveSecond, if_neg (show record.sides.status ≠ .reconcileRequired from settled)]
    dsimp only [koinosMove, CrossPostRecord.sides]
    by_cases found : record.koinosStatus = .ok
    · rw [if_pos found, if_pos found]
      rfl
    rw [if_neg found, if_neg found]
    by_cases unknown : record.koinosStatus = .unknown
    · rw [if_pos unknown, if_pos unknown]
      rfl
    · rw [if_neg unknown, if_neg unknown]
  | _ => exact Bool.noConfusion aboutKoinos

/-- A result of the host and a result of Koinos commute on every record, whatever events led to
it: both orders give the same state, and where it is no conflict both sides know the same. -/
theorem host_koinos_commute {host koinos : ReconcileEvent} (aboutHost : host.aboutHost = true)
    (aboutKoinos : koinos.aboutKoinos = true) :
    (transition (transition record host) koinos).state =
        (transition (transition record koinos) host).state ∧
      ((transition (transition record host) koinos).state ≠ .reconcileRequired →
        SameSides (transition (transition record host) koinos)
          (transition (transition record koinos) host)) := by
  have agree := Sides.move_comm (stateOfSides_settles record) record.sides (hostMove host)
    (koinosMove koinos)
  rw [← sides_hostResult record record aboutHost, ← sides_koinosResult record record aboutKoinos,
    ← sides_koinosResult _ record aboutKoinos, ← sides_hostResult _ record aboutHost] at agree
  obtain ⟨state, known⟩ := agree
  exact ⟨state, fun settled => sameSides_of_sides (known settled)⟩

theorem host_koinos_commute_sample :
    (transition (transition (newCrossPostRecord [1] [2] (some "https://host") 1 0)
        (.hostSucceeded "status" 1)) (.lookupFound [3] none 2)).state =
      (transition (transition (newCrossPostRecord [1] [2] (some "https://host") 1 0)
        (.lookupFound [3] none 2)) (.hostSucceeded "status" 1)).state :=
  (host_koinos_commute (newCrossPostRecord [1] [2] (some "https://host") 1 0) rfl rfl).1

end Commute

end OpenSocial.Sdk

/-
This file keeps a ledger of what was heard of the submissions of each attempt, and
proves that a stored record holds what its attempt heard last.

The ledger is written beside the orchestrator: from the answers to its requests
and from what stands in the storage after them, and from nothing a record says. An
answer counts once it is written down; one that was heard when the operation was
stopped, or that could not be stored, is lost with it.
-/

import OpenSocial.CrossPosts.Runs

namespace OpenSocial.CrossPosts

open Library Sdk Extension

/-! ### What an answer tells -/

/-- How a submission is answered. -/
abbrev Heard := Except PublishError PublishOutcome

/-- The attempt an answer tells of: it was built, encrypted and handed to the client. -/
def told : Heard → Option PublishAttempt
  | .ok outcome => some outcome.attempt
  | .error (.attempt _ attempt) => some attempt
  | .error (.plain _) => none

/-- The transaction an answer leaves open. -/
def leftPending : Heard → Option TransactionId
  | .error (.attempt cause attempt) =>
    if (classifySubmitError (.attempt cause attempt)).kind = .unknown then attempt.transactionId
    else none
  | _ => none

theorem leftPending_attempt {cause : ClientError} {attempt : PublishAttempt} {id : TransactionId}
    (left : leftPending (.error (.attempt cause attempt)) = some id) :
    (classify cause true).1 = .unknown ∧ attempt.transactionId = some id := by
  unfold leftPending at left
  dsimp only at left
  split at left
  · next unknown => exact ⟨unknown, left⟩
  · cases left

/-- The answer tells of a composed publication, and leaves open the transaction of what the
submission threw. -/
structure ToldOf (composed : Except String Composed) (answer : Heard) : Prop where
  attempt : ∀ attempt, told answer = some attempt → ∃ publication, composed = .ok publication ∧
    attempt = { publication.attempt with transactionId := attempt.transactionId }
  pending : ∀ id, leftPending answer = some id → ∃ cause, leavesOpen cause = true ∧
    transactionIdOf cause = some id

theorem toldOf_plain (composed : Except String Composed) (error : ClientError) :
    ToldOf composed (.error (.plain error)) where
  attempt _ impossible := by cases impossible
  pending _ impossible := by cases impossible

/-- Every answer of `publishPost` tells of the publication it composed. -/
theorem told_of_publishPost (ctx : PaymentContext) (composed : Except String Composed)
    (putKey : Except String Unit) :
    (publishPost ctx composed putKey).Ensures fun _ answer => ToldOf composed answer := by
  refine .lift_seq ?_ fun _ _ => .lift_seq ?_ ?_
  · intro failure unpaid
    cases planned : paymentPlan ctx with
    | ok plan =>
      rw [planned] at unpaid
      cases unpaid
    | error error =>
      rw [planned] at unpaid
      cases unpaid
      exact toldOf_plain composed error
  · intro failure uncomposed
    cases composed with
    | ok publication => cases uncomposed
    | error message =>
      cases uncomposed
      exact toldOf_plain _ _
  intro publication found
  have ready : composed = .ok publication := by
    cases composed with
    | error message => cases found
    | ok value => exact congrArg Except.ok (Except.ok.inj found)
  have submits : (submitOperations ctx publication.operations).Ensures fun _ _ => True :=
    fun _ _ _ => trivial
  refine .attempt_seq submits fun first ending _ => ?_
  cases ending with
  | error cause =>
    refine .fail ⟨fun attempt same => ⟨publication, ready, ?_⟩, fun id left => ⟨cause, ?_⟩⟩
    · obtain rfl := Option.some.inj same
      rfl
    · obtain ⟨unknown, named⟩ := leftPending_attempt left
      refine ⟨Bool.eq_true_of_not_eq_false fun closed => ?_, named⟩
      have failed := (classify_submitted cause).mpr closed
      exact SubmitFailureKind.noConfusion (failed.symm.trans unknown)
  | ok result =>
    refine .lift_seq ?_ fun _ _ => .done ⟨fun attempt same => ⟨publication, ready, ?_⟩,
      fun id impossible => ?_⟩
    · intro failure unstored
      split at unstored
      · cases putKey with
        | ok stored => cases unstored
        | error message =>
          cases unstored
          exact toldOf_plain _ _
      · cases unstored
    · obtain rfl := Option.some.inj same
      rfl
    · cases impossible

/-! ### The ledger -/

/-- What was heard of each attempt. -/
structure Ledger where
  /-- The answers that were written down since the attempt was drafted, the last first. -/
  written : Bytes → List Heard
  /-- The answer the running operation has heard and not written down. -/
  heard : Option (Bytes × Heard)
  /-- The file the running operation has loaded. -/
  loaded : List StoredCrossPost

namespace Ledger

def blank : Ledger := ⟨fun _ => [], none, []⟩

variable (ledger : Ledger)

/-- Every answer the attempt can go by. -/
def answers (attemptId : Bytes) : List Heard :=
  ((ledger.heard.filter fun heard => heard.1 == attemptId).map Prod.snd).toList ++
    ledger.written attemptId

/-- The ledger once a file is stored: an attempt that was not there before begins anew. -/
def stored (file : List StoredCrossPost) (attemptId : Bytes) : List Heard :=
  if (recordOf ledger.loaded attemptId).isNone && (recordOf file attemptId).isSome then []
  else ledger.answers attemptId

/-- The ledger after a request was answered, and the storage as it stands then. -/
def note : (request : Request) → Answer request → World → Ledger → Ledger
  | .load, _, after, ledger => { ledger with heard := none, loaded := after.file }
  | .publishKoinos record, answer, _, ledger =>
    { ledger with heard := some (record.attemptId, answer) }
  | .save file, _, after, ledger =>
    if after.file = file then { ledger with written := ledger.stored file, heard := none }
    else ledger
  | _, _, _, ledger => ledger

end Ledger

/-- The last attempt the answers tell of. -/
def lastTold (answers : List Heard) : Option PublishAttempt := answers.findSome? told

/-- The transaction the last answer leaves open. -/
def pendingOf (answers : List Heard) : Option TransactionId := answers.head?.bind leftPending

/-- The orchestrator's world with the ledger beside it. -/
def noted (host : Host) (platform : Platform) : Service Request Answer (World × Ledger) :=
  (world host platform).noting Ledger.note

/-! ### Records that hold what was heard -/

/-- The record has the details of this attempt, and no other pending transaction than this one. -/
structure Tells (attempt : Option PublishAttempt) (pending : Option TransactionId)
    (record : StoredCrossPost) : Prop where
  contentHash : record.contentHash = attempt.map PublishAttempt.contentHash
  epoch : record.epoch = attempt.map PublishAttempt.epoch
  versionNumber : record.versionNumber = attempt.map fun _ => 1
  expectedPostId : record.expectedPostId = attempt.map PublishAttempt.postId
  pending : ∀ id, record.pendingTxId = some id → pending = some id

/-- The record holds what these answers tell. -/
abbrev Holds (answers : List Heard) (record : StoredCrossPost) : Prop :=
  Tells (lastTold answers) (pendingOf answers) record

/-- A record that keeps what was told, and may drop its pending transaction. -/
structure SameTold (record next : StoredCrossPost) : Prop where
  attemptId : next.attemptId = record.attemptId
  contentHash : next.contentHash = record.contentHash
  epoch : next.epoch = record.epoch
  versionNumber : next.versionNumber = record.versionNumber
  expectedPostId : next.expectedPostId = record.expectedPostId
  pending : next.pendingTxId = none ∨ next.pendingTxId = record.pendingTxId

section Records

variable {record next : StoredCrossPost} {attempt : Option PublishAttempt}
  {pending : Option TransactionId} {answers : List Heard}

theorem Tells.kept (tells : Tells attempt pending record) (same : SameTold record next) :
    Tells attempt pending next where
  contentHash := same.contentHash.trans tells.contentHash
  epoch := same.epoch.trans tells.epoch
  versionNumber := same.versionNumber.trans tells.versionNumber
  expectedPostId := same.expectedPostId.trans tells.expectedPostId
  pending id named := by
    rcases same.pending with dropped | unchanged
    · cases dropped.symm.trans named
    · exact tells.pending id (unchanged.symm.trans named)

theorem holds_drafted (input : Draft) (author : Option Address) (key : Bytes)
    (time createdAt : ℕ) : Holds [] (drafted input author key time createdAt) where
  contentHash := rfl
  epoch := rfl
  versionNumber := rfl
  expectedPostId := rfl
  pending _ impossible := by cases impossible

theorem sameTold_merge {current : CrossPostRecord} (named : current.attemptId = record.attemptId) :
    SameTold record (merge record current) :=
  ⟨named, rfl, rfl, rfl, rfl, .inr rfl⟩

theorem sameTold_settle {current : CrossPostRecord} (named : current.attemptId = record.attemptId) :
    SameTold record (settle record current) := by
  unfold settle
  dsimp only
  split
  · exact ⟨named, rfl, rfl, rfl, rfl, .inl rfl⟩
  · exact ⟨named, rfl, rfl, rfl, rfl, .inr rfl⟩

theorem adoptPendingTx_attemptId (current : CrossPostRecord) :
    (adoptPendingTx record current).attemptId = current.attemptId := by
  unfold adoptPendingTx
  split
  · rfl
  · rfl

/-- What an answer puts into a record. -/
def putBy : Heard → Option AttemptFields
  | .ok outcome => some ⟨outcome.attempt, none⟩
  | .error error => failureFields (classifySubmitError error)

/-- An answer is looked up with what it tells, and with the transaction that is still pending. -/
theorem tells_withAttempt (holds : Holds answers record) {error : PublishError}
    (settled : (classifySubmitError error).kind ≠ .unknown) :
    Tells (lastTold (.error error :: answers)) (pendingOf answers)
      (withAttempt record (failureFields (classifySubmitError error))) := by
  cases error with
  | plain cause => exact holds
  | attempt cause attempt =>
    refine ⟨rfl, rfl, rfl, rfl, fun id named => holds.pending id ?_⟩
    have unput : (if (classifySubmitError (.attempt cause attempt)).kind = .unknown
        then attempt.transactionId else none) = none := if_neg settled
    have pending : ((if (classifySubmitError (.attempt cause attempt)).kind = .unknown
        then attempt.transactionId else none) <|> record.pendingTxId) = some id := named
    rw [unput] at pending
    exact pending

/-- The record an attempt leaves has the details of the attempt, and the transaction it puts only. -/
theorem tells_concluded {extra : Option AttemptFields} (current : CrossPostRecord)
    (tells : Tells attempt pending (withAttempt record extra)) :
    Tells attempt (extra.bind AttemptFields.pendingTxId) (concluded record extra current) := by
  unfold concluded
  dsimp only
  split
  · refine ⟨tells.contentHash, tells.epoch, tells.versionNumber, tells.expectedPostId, ?_⟩
    intro id impossible
    cases impossible
  split
  · refine ⟨tells.contentHash, tells.epoch, tells.versionNumber, tells.expectedPostId, ?_⟩
    intro id impossible
    cases impossible
  next put =>
  refine ⟨tells.contentHash, tells.epoch, tells.versionNumber, tells.expectedPostId, ?_⟩
  intro id named
  cases extra with
  | none => exact absurd rfl put
  | some extra =>
    cases extra with
    | mk made own =>
      cases own with
      | none => exact absurd rfl put
      | some own => exact named

theorem concluded_attemptId (record : StoredCrossPost) (extra : Option AttemptFields)
    (current : CrossPostRecord) :
    (concluded record extra current).attemptId = current.attemptId := by
  unfold concluded
  dsimp only
  split
  · rfl
  · split
    · rfl
    · rfl

theorem putBy_pending (answer : Heard) :
    (putBy answer).bind AttemptFields.pendingTxId = leftPending answer := by
  cases answer with
  | ok outcome => rfl
  | error error =>
    cases error with
    | plain cause => rfl
    | attempt cause attempt => rfl

/-- The record an attempt leaves holds what its answer tells. -/
theorem holds_concluded (holds : Holds answers record) (answer : Heard)
    (current : CrossPostRecord) :
    Holds (answer :: answers) (concluded record (putBy answer) current) := by
  have details : Tells (lastTold (answer :: answers)) none
      { withAttempt record (putBy answer) with pendingTxId := none } := by
    have unnamed : ∀ id, (none : Option TransactionId) = some id →
        (none : Option TransactionId) = some id := fun _ => id
    cases answer with
    | ok outcome => exact ⟨rfl, rfl, rfl, rfl, unnamed⟩
    | error error =>
      cases error with
      | plain cause =>
        exact ⟨holds.contentHash, holds.epoch, holds.versionNumber, holds.expectedPostId, unnamed⟩
      | attempt cause attempt => exact ⟨rfl, rfl, rfl, rfl, unnamed⟩
  have given : Tells (lastTold (answer :: answers)) (withAttempt record (putBy answer)).pendingTxId
      (withAttempt record (putBy answer)) :=
    ⟨details.contentHash, details.epoch, details.versionNumber, details.expectedPostId, fun _ => id⟩
  show Tells _ (leftPending answer) _
  rw [← putBy_pending]
  exact tells_concluded current given

end Records

/-! ### The orchestrator keeps its ledger -/

section Discipline

/-- Every stored record holds what was written down of its attempt. -/
def Kept (state : World × Ledger) : Prop :=
  ∀ attemptId record, recordOf state.1.file attemptId = some record →
    Holds (state.2.written attemptId) record

/-- What the orchestrator may ask: it looks up records that hold what was heard, and stores such. -/
def recalls (state : World × Ledger) : Request → Prop
  | .save file => ∀ attemptId record, recordOf file attemptId = some record →
    Holds (state.2.stored file attemptId) record
  | .lookupChain record _ _ => Tells (lastTold (state.2.answers record.attemptId))
    (pendingOf (state.2.written record.attemptId)) record
  | .lookupIndexer _ record => Tells (lastTold (state.2.answers record.attemptId))
    (pendingOf (state.2.written record.attemptId)) record
  | _ => True

/-- Nothing changed in the storage, nor in the ledger. -/
structure Still (state later : World × Ledger) : Prop where
  file : later.1.file = state.1.file
  ledger : later.2 = state.2

/-- An operation holds the file as it is stored, whose attempts it has loaded, and has heard of this
attempt at most. -/
structure Loaded (state : World × Ledger) (file : List StoredCrossPost) (attemptId : Bytes) :
    Prop where
  stands : state.1.file = file
  known : ∀ other, recordOf file other ≠ none → recordOf state.2.loaded other ≠ none
  own : recordOf state.2.loaded attemptId ≠ none
  heard : ∀ other answer, state.2.heard = some (other, answer) → other = attemptId

/-- An operation that has heard nothing yet holds a record with what was written down of it. -/
structure Recalls (state : World × Ledger) (file : List StoredCrossPost)
    (record : StoredCrossPost) : Prop where
  loaded : Loaded state file record.attemptId
  silent : state.2.heard = none
  holds : Holds (state.2.written record.attemptId) record

end Discipline

section Noting

variable {host : Host} {platform : Platform} {state : World × Ledger}
  {file : List StoredCrossPost} {record next : StoredCrossPost} {attemptId : Bytes}

/-- The program asks only what is allowed, and returns as `post` says. -/
abbrev Notes (host : Host) (platform : Platform) {Value : Type}
    (post : Value → World × Ledger → Prop) (program : Action Value) (state : World × Ledger) :
    Prop :=
  (noted host platform).Obeys Kept recalls post program state

theorem Still.trans {later last : World × Ledger} (first : Still state later)
    (second : Still later last) : Still state last :=
  ⟨second.file.trans first.file, second.ledger.trans first.ledger⟩

theorem still_of_drift {later : World × Ledger} (drifts : (noted host platform).drift state later) :
    Still state later :=
  ⟨drifts.1.1, drifts.2⟩

theorem Loaded.still {later : World × Ledger} (loaded : Loaded state file attemptId)
    (still : Still state later) : Loaded later file attemptId where
  stands := still.file.trans loaded.stands
  known := by
    rw [still.ledger]
    exact loaded.known
  own := by
    rw [still.ledger]
    exact loaded.own
  heard := by
    rw [still.ledger]
    exact loaded.heard

theorem Recalls.still {later : World × Ledger} (recalling : Recalls state file record)
    (still : Still state later) : Recalls later file record where
  loaded := recalling.loaded.still still
  silent := (congrArg Ledger.heard still.ledger).trans recalling.silent
  holds := by
    rw [still.ledger]
    exact recalling.holds

/-- A request that neither loads, nor stores, nor publishes. -/
def quiet : Request → Bool
  | .load => false
  | .save _ => false
  | .publishKoinos _ => false
  | _ => true

theorem still_of_served {request : Request} {answer : Answer request} {after : World × Ledger}
    (quiets : quiet request = true)
    (served : (noted host platform).serve state request answer after) : Still state after := by
  have serves : serve host platform state.1 request answer after.1 := served.1
  refine ⟨file_of_served serves fun file saves => ?_, served.2.trans ?_⟩
  · subst saves
    cases quiets
  · cases request with
    | load => cases quiets
    | save file => cases quiets
    | publishKoinos record => cases quiets
    | _ => rfl

/-- A quiet request changes nothing, whatever it is answered. -/
theorem notes_quiet {Value Result : Type} {post : Result → World × Ledger → Prop}
    {request : Request} {read : Answer request → Except CrossPostFailure Value}
    {next : Value → Action Result} (quiets : quiet request = true)
    (asks : ∀ later, Still state later → recalls later request)
    (after : ∀ value later, Still state later → Kept later →
      Notes host platform post (next value) later) :
    Notes host platform post (Program.query request read >>= next) state := by
  refine .query_seq (fun later drifts _ => asks later (still_of_drift drifts)) ?_
  intro later answer last value drifts _ served kept _
  exact after value last ((still_of_drift drifts).trans (still_of_served quiets served)) kept

/-- Something that changes nothing, first in a sequence. -/
theorem notes_still {Value Result : Type} {post : Result → World × Ledger → Prop}
    {first : Action Value} {next : Value → Action Result} (kept : Kept state)
    (before : Notes host platform (fun _ later => Still state later) first state)
    (after : ∀ value later, Still state later → Kept later →
      Notes host platform post (next value) later) :
    Notes host platform post (first >>= next) state :=
  .seq kept before fun value later kept still => after value later still kept

theorem notes_done {Value : Type} {value : Value} :
    Notes host platform (fun _ later => Still state later) (.done value) state :=
  .done fun _ further _ => still_of_drift further

/-- The clock. -/
theorem notes_now {Result : Type} {post : Result → World × Ledger → Prop} {next : ℕ → Action Result}
    (after : ∀ time later, Still state later → Kept later →
      Notes host platform post (next time) later) :
    Notes host platform post (now >>= next) state :=
  notes_quiet rfl (fun _ _ => trivial) after

theorem notes_account {Result : Type} {post : Result → World × Ledger → Prop}
    {next : Option Address → Action Result}
    (after : ∀ signedIn later, Still state later → Kept later →
      Notes host platform post (next signedIn) later) :
    Notes host platform post (account >>= next) state :=
  notes_quiet rfl (fun _ _ => trivial) after

/-- A lookup keeps the attempt, and everything that is stored. -/
theorem notes_lookup {current : CrossPostRecord} {author : Bytes}
    (tells : Tells (lastTold (state.2.answers record.attemptId))
      (pendingOf (state.2.written record.attemptId)) record) :
    Notes host platform
      (fun looked later => Still state later ∧ looked.attemptId = current.attemptId)
      (lookup record current author) state := by
  have asks : ∀ later, Still state later → Tells (lastTold (later.2.answers record.attemptId))
      (pendingOf (later.2.written record.attemptId)) record := by
    intro later still
    rw [still.ledger]
    exact tells
  unfold lookup Sdk.lookup
  refine notes_now fun time started first _ => ?_
  refine notes_quiet rfl (fun later still => asks later (first.trans still)) ?_
  intro found chained second _
  have looking : ∀ later, Still chained later → recalls later (.lookupIndexer author record) :=
    fun later still => asks later ((first.trans second).trans still)
  have ends : ∀ (event : ReconcileEvent) {later : World × Ledger}, Still chained later →
      Notes host platform
        (fun looked later => Still state later ∧ looked.attemptId = current.attemptId)
        (.done (transition current event)) later := by
    intro event later still
    refine .done fun last further _ => ⟨?_, (sameAttempt_transition _ event).attemptId⟩
    exact ((first.trans second).trans still).trans (still_of_drift further)
  split
  · exact notes_quiet rfl looking fun hit later still _ => ends _ still
  · refine notes_quiet rfl looking fun hit later still _ => ?_
    cases hit with
    | some hit => exact ends _ still
    | none => exact ends _ still

/-! ### Loading and storing -/

theorem answers_foreign (ledger : Ledger)
    (foreign : ∀ other answer, ledger.heard = some (other, answer) → other ≠ attemptId) :
    ledger.answers attemptId = ledger.written attemptId := by
  unfold Ledger.answers
  cases heard : ledger.heard with
  | none => rfl
  | some pair =>
    have other : (pair.1 == attemptId) = false := beq_false_of_ne (foreign pair.1 pair.2 heard)
    rw [Option.filter_some, if_neg (Bool.eq_false_iff.mp other)]
    rfl

theorem answers_silent {ledger : Ledger} (silent : ledger.heard = none) :
    ledger.answers attemptId = ledger.written attemptId :=
  answers_foreign ledger fun _ _ heard => absurd (silent.symm.trans heard) (Option.some_ne_none _).symm

theorem answers_heard {ledger : Ledger} {answer : Heard}
    (heard : ledger.heard = some (attemptId, answer)) :
    ledger.answers attemptId = answer :: ledger.written attemptId := by
  unfold Ledger.answers
  rw [heard, Option.filter_some, if_pos (beq_self_eq_true attemptId)]
  rfl

/-- An attempt that was loaded goes on. -/
theorem stored_loaded {ledger : Ledger} (known : recordOf ledger.loaded attemptId ≠ none)
    (file : List StoredCrossPost) : ledger.stored file attemptId = ledger.answers attemptId := by
  unfold Ledger.stored
  rw [Option.isNone_eq_false_iff.mpr (Option.isSome_iff_ne_none.mpr known), Bool.false_and]
  exact if_neg Bool.false_ne_true

theorem notes_load {Result : Type} {post : Result → World × Ledger → Prop}
    {next : List StoredCrossPost → Action Result}
    (after : ∀ later, Kept later → later.2.heard = none → later.2.loaded = later.1.file →
      Notes host platform post (next later.1.file) later) :
    Notes host platform post (load >>= next) state := by
  refine .query_seq (fun _ _ _ => trivial) ?_
  rintro later answer last value drifts _ ⟨⟨same, loads⟩, noting⟩ kept read
  have ledger : last.2 = { later.2 with heard := none, loaded := last.1.file } := noting
  cases answer with
  | error message => cases read
  | ok file =>
    obtain rfl := Except.ok.inj read
    obtain rfl : file = last.1.file := (loads file rfl).trans (congrArg World.file same.symm)
    exact after last kept (congrArg Ledger.heard ledger) (congrArg Ledger.loaded ledger)

/-- Storing a file: every attempt in it goes on or begins anew. -/
theorem notes_save {after : List StoredCrossPost}
    (holds : ∀ attemptId record, recordOf after attemptId = some record →
      Holds (state.2.stored after attemptId) record) :
    Notes host platform
      (fun written later => written = trimmed after ∧ later.1.file = written ∧
        later.2 = { state.2 with written := state.2.stored written, heard := none })
      (save after) state := by
  refine .query_seq ?_ ?_
  · intro later drifts _ attemptId record found
    have whole := recordOf_trimmed after found
    have same : later.2.stored (trimmed after) attemptId = state.2.stored after attemptId := by
      rw [drifts.2]
      unfold Ledger.stored
      rw [found, whole]
    exact same ▸ holds attemptId record whole
  · rintro later answer last value drifts _ ⟨⟨_, _, writes⟩, noting⟩ kept read
    have written : last.1.file = trimmed after := by
      cases answer with
      | error message => cases read
      | ok done => exact writes rfl
    have ledger : last.2 =
        { later.2 with written := later.2.stored (trimmed after), heard := none } :=
      noting.trans (if_pos written)
    refine .done fun final further _ => ⟨rfl, (still_of_drift further).file.trans written, ?_⟩
    rw [further.2, ledger, drifts.2]

/-- An update puts in the record an operation holds, and leaves every other attempt alone. -/
theorem notes_update {post : StoredCrossPost → World × Ledger → Prop}
    {rest : List StoredCrossPost → Action StoredCrossPost} (kept : Kept state)
    (loaded : Loaded state file next.attemptId)
    (holds : Holds (state.2.answers next.attemptId) next)
    (after : ∀ written later, Kept later → Recalls later written next →
      Notes host platform post (rest written) later) :
    Notes host platform post (update file next >>= rest) state := by
  have known : ∀ attemptId, recordOf (replaced file next) attemptId ≠ none →
      recordOf state.2.loaded attemptId ≠ none := by
    intro attemptId found
    rw [recordOf_replaced] at found
    split at found
    · next own => exact own ▸ loaded.own
    · exact loaded.known attemptId found
  have entries : ∀ attemptId record, recordOf (replaced file next) attemptId = some record →
      Holds (state.2.stored (replaced file next) attemptId) record := by
    intro attemptId record found
    rw [stored_loaded (known attemptId (found ▸ Option.some_ne_none record))]
    rw [recordOf_replaced] at found
    split at found
    · next own =>
      subst own
      exact Option.some.inj found ▸ holds
    · next foreign =>
      rw [answers_foreign state.2 fun other answer heard same =>
        foreign ((loaded.heard other answer heard).symm.trans same)]
      exact kept attemptId record (loaded.stands.symm ▸ found)
  refine .seq kept (notes_save entries) fun written later kept' stored => after written later kept' ?_
  obtain ⟨rfl, file, ledger⟩ := stored
  have same : later.2.loaded = state.2.loaded := by rw [ledger]
  have silent : later.2.heard = none := by rw [ledger]
  refine ⟨⟨file, fun other found => ?_, same ▸ loaded.own, fun other answer heard => ?_⟩, silent, ?_⟩
  · obtain ⟨record, found⟩ := Option.ne_none_iff_exists'.mp found
    rw [same]
    exact known other (recordOf_trimmed _ found ▸ Option.some_ne_none record)
  · cases silent.symm.trans heard
  · rw [ledger]
    show Holds (state.2.stored _ _) next
    rw [stored_loaded loaded.own]
    exact holds

/-- Storing a record that keeps what was told. -/
theorem notes_keep {post : StoredCrossPost → World × Ledger → Prop}
    {rest : List StoredCrossPost → Action StoredCrossPost} (kept : Kept state)
    (recalling : Recalls state file record) (same : SameTold record next)
    (after : ∀ written later, Kept later → Recalls later written next →
      Notes host platform post (rest written) later) :
    Notes host platform post (update file next >>= rest) state := by
  refine notes_update kept (same.attemptId.symm ▸ recalling.loaded) ?_ after
  rw [answers_silent recalling.silent, same.attemptId]
  exact recalling.holds.kept same

/-! ### The operations -/

theorem notes_maybeProof (recalling : Recalls state file record) :
    Notes host platform (fun _ _ => True) (maybeProof file record) state := by
  unfold maybeProof
  split
  · refine notes_quiet rfl (fun _ _ => trivial) fun answer later still kept' => ?_
    have recalling' := recalling.still still
    cases answer with
    | ok proof =>
      refine notes_now fun time timed still' kept'' => ?_
      exact notes_keep kept'' (recalling'.still still') ⟨rfl, rfl, rfl, rfl, rfl, .inr rfl⟩
        fun _ _ _ _ => .done fun _ _ _ => trivial
    | error message =>
      exact notes_keep kept' recalling' ⟨rfl, rfl, rfl, rfl, rfl, .inr rfl⟩
        fun _ _ _ _ => .done fun _ _ _ => trivial
  · exact .done fun _ _ _ => trivial

theorem notes_keep_proof (kept : Kept state) (recalling : Recalls state file record)
    (same : SameTold record next) :
    Notes host platform (fun _ _ => True)
      (update file next >>= fun file => maybeProof file next) state :=
  notes_keep kept recalling same fun _ _ _ recalling' => notes_maybeProof recalling'

/-- A record is concluded with what was just heard of its attempt. -/
theorem notes_conclude {answer : Heard} {current : CrossPostRecord} (kept : Kept state)
    (loaded : Loaded state file record.attemptId)
    (heard : state.2.heard = some (record.attemptId, answer))
    (holds : Holds (state.2.written record.attemptId) record)
    (named : current.attemptId = record.attemptId) :
    Notes host platform (fun _ _ => True) (conclude file record (putBy answer) current) state := by
  have attempt : (concluded record (putBy answer) current).attemptId = record.attemptId :=
    (concluded_attemptId record (putBy answer) current).trans named
  refine notes_update kept (attempt.symm ▸ loaded) ?_
    fun _ _ _ recalling' => notes_maybeProof recalling'
  rw [attempt, answers_heard heard]
  exact holds_concluded holds answer current

theorem notes_publish (recalling : Recalls state file record) :
    Notes host platform (fun _ _ => True) (publish file record) state := by
  refine .query_seq (fun _ _ _ => trivial) ?_
  rintro later answer last value drifts _ ⟨served, noting⟩ kept read
  obtain rfl := Except.ok.inj read
  have serves : serve host platform later.1 (.publishKoinos record) answer last.1 := served
  have ledger : last.2 = { later.2 with heard := some (record.attemptId, answer) } := noting
  have recalling' := recalling.still (still_of_drift drifts)
  have loaded : Loaded last file record.attemptId := by
    refine ⟨serves.1.trans recalling'.loaded.stands, ?_, ?_, fun other told heard => ?_⟩
    · rw [ledger]
      exact recalling'.loaded.known
    · rw [ledger]
      exact recalling'.loaded.own
    · rw [ledger] at heard
      exact (Prod.mk.inj (Option.some.inj heard)).1.symm
  have heard : last.2.heard = some (record.attemptId, answer) := congrArg Ledger.heard ledger
  have holds : Holds (last.2.written record.attemptId) record := by
    rw [ledger]
    exact recalling'.holds
  have concludes : ∀ {final : World × Ledger} {current : CrossPostRecord}, Still last final →
      Kept final → current.attemptId = record.attemptId →
      Notes host platform (fun _ _ => True) (conclude file record (putBy answer) current) final := by
    intro final current still kept' named
    refine notes_conclude kept' (loaded.still still) ?_ ?_ named
    · rw [still.ledger]
      exact heard
    · rw [still.ledger]
      exact holds
  cases answer with
  | ok outcome =>
    refine notes_now fun time timed still kept' => ?_
    exact concludes still kept' (sameAttempt_transition _ _).attemptId
  | error error =>
    refine notes_now fun time timed still kept' => ?_
    show (noted host platform).Obeys _ _ _ _ _
    dsimp only
    cases kind : (classifySubmitError error).kind with
    | unknown => exact concludes still kept' (sameAttempt_transition _ _).attemptId
    | failed => exact concludes still kept' (sameAttempt_transition _ _).attemptId
    | duplicate =>
      have settled : (classifySubmitError error).kind ≠ .unknown := kind ▸ SubmitFailureKind.noConfusion
      have own : (withAttempt record (failureFields (classifySubmitError error))).attemptId =
          record.attemptId :=
        congrArg CrossPostRecord.attemptId (withAttempt_base record _)
      refine .seq kept' (notes_lookup ?_) fun looked final kept'' told => ?_
      · rw [own, still.ledger, answers_heard heard]
        exact tells_withAttempt holds settled
      · refine concludes (still.trans told.1) kept'' ?_
        exact (adoptPendingTx_attemptId looked).trans
          (told.2.trans (sameAttempt_transition _ _).attemptId)

/-- Loading the file and finding the attempt's record in it. -/
theorem notes_record {Value : Type} {post : Value → World × Ledger → Prop}
    {next : List StoredCrossPost → StoredCrossPost → Action Value}
    (after : ∀ record later, Kept later → Recalls later later.1.file record →
      Notes host platform post (next later.1.file record) later) :
    Notes host platform post (load >>= fun file => find file attemptId >>= next file) state := by
  refine notes_load fun later kept silent loaded => ?_
  unfold find
  cases found : recordOf later.1.file attemptId with
  | none => trivial
  | some record =>
    obtain rfl := recordOf_attemptId found
    refine after record later kept ⟨⟨rfl, fun other => ?_, ?_, fun other answer heard => ?_⟩, silent,
      kept _ record found⟩
    · rw [loaded]
      exact id
    · rw [loaded, found]
      exact Option.some_ne_none record
    · cases silent.symm.trans heard

theorem notes_requireAuthor {Value : Type} {post : Value → World × Ledger → Prop}
    {message : String} {next : Address → Action Value} (kept : Kept state)
    (after : ∀ author later, Still state later → Kept later →
      Notes host platform post (next author) later) :
    Notes host platform post (requireAuthor record message >>= next) state := by
  refine notes_still kept (notes_account fun signedIn later still _ => ?_) after
  cases signedIn with
  | none => trivial
  | some author =>
    dsimp only
    split
    · exact .done fun last further _ => still.trans (still_of_drift further)
    · trivial

theorem notes_authorOf {Value : Type} {post : Value → World × Ledger → Prop}
    {next : Address → Action Value} (kept : Kept state)
    (after : ∀ author later, Still state later → Kept later →
      Notes host platform post (next author) later) :
    Notes host platform post (authorOf record >>= next) state := by
  refine notes_still kept ?_ after
  unfold authorOf
  cases record.author with
  | some author => exact notes_done
  | none =>
    refine notes_account fun signedIn later still _ => ?_
    cases signedIn with
    | none => trivial
    | some author => exact .done fun last further _ => still.trans (still_of_drift further)

theorem notes_confirm (audience : Option ℕ) :
    Notes host platform (fun _ _ => True) (confirm platform attemptId audience) state := by
  refine notes_record fun record later kept recalling => ?_
  dsimp only
  split
  · trivial
  refine notes_requireAuthor kept fun author signed still kept' => ?_
  refine .lift_seq fun key _ => notes_now fun time timed still' kept'' => ?_
  refine notes_keep kept'' (recalling.still (still.trans still')) ?_
    fun _ _ _ recalling' => notes_publish recalling'
  exact ⟨(sameAttempt_transition _ _).attemptId, rfl, rfl, rfl, rfl, .inr rfl⟩

theorem notes_resume {current : CrossPostRecord} (recalling : Recalls state file record)
    (named : current.attemptId = record.attemptId) :
    Notes host platform (fun _ _ => True) (resume file record current) state := by
  refine notes_now fun time later still kept => ?_
  refine notes_keep kept (recalling.still still)
    (sameTold_merge ((sameAttempt_transition _ _).attemptId.trans named)) ?_
  intro written last _ recalling'
  split
  · split
    · trivial
    · exact notes_publish recalling'
  · exact .done fun _ _ _ => trivial

/-- A record is looked up with what was written down of its attempt. -/
theorem notes_looked {Result : Type} {post : Result → World × Ledger → Prop}
    {current : CrossPostRecord} {author : Bytes} {next : CrossPostRecord → Action Result}
    (kept : Kept state) (recalling : Recalls state file record)
    (after : ∀ looked later, Kept later → Recalls later file record →
      looked.attemptId = current.attemptId → Notes host platform post (next looked) later) :
    Notes host platform post (lookup record current author >>= next) state := by
  refine .seq kept (notes_lookup ?_) fun looked later kept' told =>
    after looked later kept' (recalling.still told.1) told.2
  rw [answers_silent recalling.silent]
  exact recalling.holds

theorem notes_retry :
    Notes host platform (fun _ _ => True) (retry attemptId) state := by
  refine notes_record fun record later kept recalling => ?_
  refine notes_now fun time timed still kept' => ?_
  split
  · trivial
  refine notes_requireAuthor kept' fun author signed still' kept'' => ?_
  have recalling' := recalling.still (still.trans still')
  dsimp only
  split
  · refine notes_looked kept'' recalling' fun looked last kept''' recalling'' named => ?_
    have adopted : (adoptPendingTx record looked).attemptId = record.attemptId :=
      (adoptPendingTx_attemptId looked).trans named
    split
    · exact notes_keep_proof kept''' recalling'' (sameTold_settle adopted)
    · exact notes_resume recalling'' adopted
  · exact notes_resume recalling' rfl

theorem interrupted_attemptId (record : StoredCrossPost) (key : Bytes) (time later : ℕ) :
    (interrupted record key time later).attemptId = record.attemptId := by
  unfold interrupted
  dsimp only
  split
  · exact (sameAttempt_transition _ _).attemptId
  · rfl

theorem notes_reconcile :
    Notes host platform (fun _ _ => True) (reconcile platform attemptId) state := by
  refine notes_record fun record later kept recalling => ?_
  refine notes_authorOf kept fun author signed still kept' => ?_
  refine .lift_seq fun key _ => ?_
  refine notes_now fun time timed still' kept'' => notes_now fun at_ last still'' kept''' => ?_
  dsimp only
  split
  · exact .done fun _ _ _ => trivial
  have recalling' := recalling.still ((still.trans still').trans still'')
  refine notes_looked kept''' recalling' fun looked final kept'''' recalling'' named => ?_
  have adopted : (adoptPendingTx record looked).attemptId = record.attemptId :=
    (adoptPendingTx_attemptId looked).trans
      (named.trans (interrupted_attemptId record key time at_))
  have same : SameTold { record with
      author := some author
      idempotencyKey := (adoptPendingTx record looked).idempotencyKey } (settle _ _) :=
    sameTold_settle adopted
  exact notes_keep_proof kept'''' recalling'' ⟨same.attemptId, same.contentHash, same.epoch,
    same.versionNumber, same.expectedPostId, same.pending⟩

theorem notes_markHost (outcome : HostOutcome) (detail : Option String) :
    Notes host platform (fun _ _ => True) (markHost platform attemptId outcome detail) state := by
  refine notes_record fun record later kept recalling => ?_
  dsimp only
  split
  · trivial
  split
  · trivial
  refine notes_now fun time timed still kept' => .lift_seq fun event _ => ?_
  exact notes_keep_proof kept' (recalling.still still)
    (sameTold_merge (sameAttempt_transition _ _).attemptId)

theorem notes_recordProof :
    Notes host platform (fun _ _ => True) (recordProof attemptId) state := by
  refine notes_record fun record later kept recalling => ?_
  split
  · trivial
  · exact notes_maybeProof recalling

theorem notes_discard :
    Notes host platform (fun _ _ => True) (discard attemptId) state := by
  refine notes_load fun later kept silent loaded => ?_
  cases recordOf later.1.file attemptId with
  | none => exact .done fun _ _ _ => trivial
  | some record =>
    refine notes_now fun time timed still kept' => ?_
    split
    · trivial
    refine .seq kept' (notes_save ?_) fun _ _ _ _ => .done fun _ _ _ => trivial
    intro other stored found
    rw [recordOf_filter later.1.file fun stored => stored != attemptId] at found
    split at found
    · have known : recordOf timed.2.loaded other ≠ none := by
        rw [still.ledger, loaded, found]
        exact Option.some_ne_none stored
      rw [stored_loaded known, still.ledger, answers_silent silent]
      exact kept other stored found
    · cases found

/-- A draft is made of its input, and begins with nothing heard. -/
theorem notes_enqueue (input : Draft) :
    Notes host platform (fun _ _ => True) (enqueue platform input) state := by
  refine notes_load fun later kept silent loaded => ?_
  cases absent : recordOf later.1.file input.attemptId with
  | some existing => exact .done fun _ _ _ => trivial
  | none =>
    have makes : Notes host platform (fun record last => Still later last ∧
        record.attemptId = input.attemptId ∧ Holds [] record) (fresh platform input) later := by
      refine notes_account fun author signed still _ => .lift_seq fun key _ => ?_
      refine notes_now fun time timed still' _ => notes_now fun createdAt last still'' _ => ?_
      refine .done fun final further _ => ⟨?_, rfl, holds_drafted input author key time createdAt⟩
      exact ((still.trans still').trans still'').trans (still_of_drift further)
    refine .seq kept makes fun record last kept' made => ?_
    obtain ⟨still, named, holds⟩ := made
    refine .seq kept' (notes_save ?_) fun _ _ _ _ => .done fun _ _ _ => trivial
    intro other stored found
    have whole := found
    rw [recordOf_replaced] at found
    split at found
    · next own =>
      obtain rfl := Option.some.inj found
      have anew : last.2.stored (replaced later.1.file record) other = [] := by
        unfold Ledger.stored
        rw [still.ledger, loaded, ← own, named, absent, ← named, own, whole]
        rfl
      rw [anew]
      exact holds
    · have known : recordOf last.2.loaded other ≠ none := by
        rw [still.ledger, loaded, found]
        exact Option.some_ne_none stored
      rw [stored_loaded known, still.ledger, answers_silent silent]
      exact kept other stored found

theorem notes_reconcileEach (attemptIds : List Bytes) (kept : Kept state) :
    Notes host platform (fun _ _ => True) (reconcileEach platform attemptIds) state := by
  induction attemptIds generalizing state with
  | nil => exact .done fun _ _ _ => trivial
  | cons attemptId rest inductionHypothesis =>
    exact .attempt_seq kept notes_reconcile fun _ later kept' _ => inductionHypothesis kept'

/-- Every operation asks only what is allowed. -/
theorem notes_perform (operation : Operation) (kept : Kept state) :
    Notes host platform (fun _ _ => True) (perform platform operation) state := by
  have quiet : ∀ {program : Action StoredCrossPost},
      Notes host platform (fun _ _ => True) program state →
      Notes host platform (fun _ _ => True)
        (program >>= fun _ => (Program.done () : Action Unit)) state :=
    fun notes => .seq kept notes fun _ _ _ _ => .done fun _ _ _ => trivial
  cases operation with
  | propose payload => exact quiet (notes_enqueue _)
  | create payload attemptId => exact quiet (notes_enqueue _)
  | confirm attemptId audience => exact quiet (notes_confirm audience)
  | retry attemptId => exact quiet notes_retry
  | reconcile attemptId => exact quiet notes_reconcile
  | markHost attemptId outcome detail => exact quiet (notes_markHost outcome detail)
  | recordProof attemptId => exact quiet notes_recordProof
  | discard attemptId => exact notes_discard
  | sweep =>
    exact notes_load fun later kept' _ _ => notes_now fun time timed still kept'' =>
      notes_reconcileEach _ kept''

/-- Drifting keeps what stands. -/
theorem Kept.still {later : World × Ledger} (kept : Kept state) (still : Still state later) :
    Kept later := by
  intro attemptId record found
  rw [still.file] at found
  rw [still.ledger]
  exact kept attemptId record found

/-- What is allowed keeps the stored records as the ledger has them. -/
theorem kept_of_served {request : Request} {answer : Answer request} {after : World × Ledger}
    (kept : Kept state) (asks : recalls state request)
    (served : (noted host platform).serve state request answer after) : Kept after := by
  by_cases quiets : quiet request = true
  · exact kept.still (still_of_served quiets served)
  obtain ⟨serves, noting⟩ := served
  cases request with
  | load =>
    intro attemptId record found
    rw [noting]
    rw [show after.1 = state.1 from serves.1] at found
    exact kept attemptId record found
  | publishKoinos record =>
    intro attemptId stored found
    rw [noting]
    rw [show after.1.file = state.1.file from serves.1] at found
    exact kept attemptId stored found
  | save file =>
    intro attemptId record found
    rw [noting]
    unfold Ledger.note
    dsimp only
    split
    · next written =>
      rw [written] at found
      exact asks attemptId record found
    · next unwritten =>
      have before : after.1.file = state.1.file := serves.2.1.resolve_left unwritten
      rw [before] at found
      exact kept attemptId record found
  | _ => exact absurd rfl quiets

end Noting

end OpenSocial.CrossPosts

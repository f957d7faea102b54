/-
This file models the extension's cross-post orchestrator: the stored records, the
actions the queue offers, and every operation on an attempt.

An operation is a program that asks: the clock, the signed-in account, the
storage, the chain, the indexer, and the two submissions that can reach the
chain. The optional dependencies are the ones the background passes. Hexadecimal
fields hold the bytes they stand for.
-/

import OpenSocial.Extension.Publication
import OpenSocial.Sdk.Reconcile

namespace OpenSocial.CrossPosts

open Library Sdk Extension

/-! ### Records -/

inductive Adapter where
  | facebook
  | generic
  | sidepanel
  deriving DecidableEq, Repr

def Adapter.text : Adapter → String
  | .facebook => "facebook"
  | .generic => "generic"
  | .sidepanel => "sidepanel"

/-- What recording a proof returned. -/
structure ProofResult where
  manifestHash : Bytes
  txId : TransactionId
  outcome : ℕ
  koinosTxId : TransactionId
  deriving DecidableEq

/-- The proof of a record. -/
structure StoredProof where
  manifestHash : Bytes
  txId : TransactionId
  recordedAt : ℕ
  outcome : ℕ
  deriving DecidableEq

/-- `StoredCrossPost`: content hash, version, sequence, epoch and expected post id are those of the
latest Koinos attempt. -/
structure StoredCrossPost extends CrossPostRecord where
  adapter : Adapter
  author : Option Address
  text : Option String
  url : Option String
  hostSubmitted : Bool
  title : Option String
  createdAt : ℕ
  contentHash : Option Bytes
  versionNumber : Option ℕ
  sequence : Option ℕ
  epoch : Option ℕ
  expectedPostId : Option Bytes
  pendingTxId : Option TransactionId
  proof : Option StoredProof
  proofError : Option String
  deriving DecidableEq

/-- `baseRecord`. -/
def baseRecord (record : StoredCrossPost) : CrossPostRecord := record.toCrossPostRecord

/-- `merge`: a host site is never dropped. -/
def merge (record : StoredCrossPost) (next : CrossPostRecord) : StoredCrossPost :=
  { record with
    toCrossPostRecord := { next with hostSite := next.hostSite <|> record.hostSite } }

/-! ### Queue actions -/

inductive QueueAction where
  | confirm
  | retry
  | reconcile
  | markHostPosted
  | markHostFailed
  | recordProof
  | discard
  deriving DecidableEq, Repr

def STALE_SUBMITTING_MS : ℕ := 2 * 60000

def isStale (record : CrossPostRecord) (now : ℕ) : Bool :=
  record.updatedAt + STALE_SUBMITTING_MS < now

/-- A facebook attempt whose two sides are known, without a proof. -/
def needsProof (record : StoredCrossPost) : Bool :=
  record.adapter == .facebook && record.hostStatus != .notRequired &&
    record.koinosStatus == .ok && (record.postId.filter fun postId => postId != []).isSome &&
    (record.hostStatus == .ok || record.hostStatus == .failed) && record.proof.isNone

/-- The actions `explain` offers. -/
def actions (record : StoredCrossPost) (now : ℕ) : List QueueAction :=
  let proofAction := if needsProof record then [.recordProof] else []
  match record.state with
  | .draft => [.confirm, .discard]
  | .submitting =>
    if record.koinosStatus = .ok ∧ record.hostStatus = .pending then
      [.markHostPosted, .markHostFailed]
    else if record.koinosStatus = .failed ∧ record.hostStatus = .pending then
      [.retry, .markHostPosted, .markHostFailed, .discard]
    else if isStale record.toCrossPostRecord now then [.reconcile]
    else []
  | .succeeded => proofAction
  | .partly => if record.koinosStatus = .ok then proofAction else [.retry, .discard]
  | .unknown => [.reconcile]
  | .failed => [.retry, .discard]
  | .reconcileRequired => [.discard]

/-- A parsed link. -/
structure Url where
  protocol : String
  hostname : String
  deriving DecidableEq

/-- What the extension takes from its platform. -/
structure Platform where
  sha256 : Bytes → Bytes
  sha256_length : ∀ data, (sha256 data).length = 32
  parseUrl : String → Option Url

/-- Why a link cannot be the host reference of a posted report. -/
def hostRefProblem (platform : Platform) (record : StoredCrossPost) (hostRef : Option String) :
    Option String :=
  match hostRef.filter fun ref => ref != "" && Util.stringLength ref ≤ 2048 with
  | none => some "Paste the link to the post on the host site to mark it as posted."
  | some ref =>
    match platform.parseUrl ref with
    | none => some "The host post link is not a valid URL."
    | some url =>
      if url.protocol ≠ "https:" ∧ url.protocol ≠ "http:" then
        some "The host post link must be an http(s) URL."
      else if record.hostSite = some "facebook" ∧ url.hostname ≠ "facebook.com" ∧
          ¬ url.hostname.endsWith ".facebook.com" then
        some "The link must point to facebook.com."
      else none

/-! ### Requests and answers -/

inductive CrossPostFailure where
  | crossPost (message : String)
  | other (message : String)
  deriving DecidableEq

/-- What the orchestrator asks of others. The lookups name the record they are made for; the node
sees the author and the key only. -/
inductive Request where
  | now
  | account
  | load
  | save (file : List StoredCrossPost)
  | publishKoinos (record : StoredCrossPost)
  | lookupChain (record : StoredCrossPost) (author key : Bytes)
  | lookupIndexer (author : Bytes) (record : StoredCrossPost)
  | recordProof (record : StoredCrossPost)
  deriving DecidableEq

def Answer : Request → Type
  | .now => ℕ
  | .account => Except String (Option Address)
  | .load => Except String (List StoredCrossPost)
  | .save _ => Except String Unit
  | .publishKoinos _ => Except PublishError PublishOutcome
  | .lookupChain _ _ _ => Except String (Option Bytes)
  | .lookupIndexer _ _ => Except String (Option IndexerHit)
  | .recordProof _ => Except String ProofResult

/-- A part of an operation. -/
abbrev Action (Value : Type) := Program Request Answer CrossPostFailure Value

/-- Throw a `CrossPostError`. -/
def refuse {Value : Type} (message : String) : Action Value :=
  Program.fail (.crossPost message)

def now : Action ℕ := Program.query .now .ok

def account : Action (Option Address) :=
  Program.query .account fun answer => answer.mapError .other

def load : Action (List StoredCrossPost) :=
  Program.query .load fun answer => answer.mapError .other

/-! ### Keys and files -/

def IDEMPOTENCY_DOMAIN : String := "osp/v1/idem"

def ATTEMPT_ID_BYTES : ℕ := 16

def IDEMPOTENCY_KEY_BYTES : ℕ := 16

/-- The key of an author's attempt. -/
def keyOf (platform : Platform) (author : Address) (attemptId : Bytes) : Bytes :=
  (platform.sha256 (Util.concat [Util.str IDEMPOTENCY_DOMAIN, author.val, attemptId])).take
    IDEMPOTENCY_KEY_BYTES

/-- `idempotencyKey`. -/
def idempotencyKey (platform : Platform) (author : Address) (attemptId : Bytes) :
    Except CrossPostFailure Bytes :=
  if attemptId.length = ATTEMPT_ID_BYTES then .ok (keyOf platform author attemptId)
  else .error (.other ("attemptId must be " ++ toString ATTEMPT_ID_BYTES ++ " bytes"))

def MAX_RECORDS : ℕ := 200

/-- The record of an attempt. -/
def recordOf (file : List StoredCrossPost) (attemptId : Bytes) : Option StoredCrossPost :=
  file.find? fun record => record.attemptId == attemptId

/-- The oldest succeeded records go when a file is too long. -/
def trimmed (file : List StoredCrossPost) : List StoredCrossPost :=
  if MAX_RECORDS < file.length then
    let finished := (file.filter fun record => record.state == .succeeded).mergeSort
      fun first second => first.updatedAt ≤ second.updatedAt
    let drop := (finished.take (file.length - MAX_RECORDS)).map fun record => record.attemptId
    file.filter fun record => !drop.contains record.attemptId
  else file

/-- The record in the place of the attempt's, or first. -/
def replaced (file : List StoredCrossPost) (record : StoredCrossPost) : List StoredCrossPost :=
  match file.findIdx? fun stored => stored.attemptId == record.attemptId with
  | some index => file.set index record
  | none => record :: file

/-- `save`; the file goes on without the records it dropped. -/
def save (file : List StoredCrossPost) : Action (List StoredCrossPost) := do
  Program.query (.save (trimmed file)) fun answer => answer.mapError .other
  pure (trimmed file)

def update (file : List StoredCrossPost) (record : StoredCrossPost) :
    Action (List StoredCrossPost) :=
  save (replaced file record)

/-! ### Lookups and proofs -/

/-- A record whose post id a lookup confirmed to be the expected one takes the pending transaction
id. -/
def adoptPendingTx (stored : StoredCrossPost) (current : CrossPostRecord) : CrossPostRecord :=
  if current.koinosStatus = .ok ∧ current.koinosTxId = none ∧ stored.pendingTxId.isSome ∧
      (stored.expectedPostId.filter fun expected => expected != []).isSome ∧
      current.postId = stored.expectedPostId then
    { current with koinosTxId := stored.pendingTxId }
  else current

/-- The reconciler of a record, looking up `current`. -/
def lookup (record : StoredCrossPost) (current : CrossPostRecord) (author : Bytes) :
    Action CrossPostRecord :=
  Sdk.lookup now
    (Program.query (.lookupChain record author current.idempotencyKey)
      fun answer => answer.mapError .other)
    (Program.query (.lookupIndexer author record) fun answer => answer.mapError .other)
    current

/-- `settle`: a confirmed Koinos side drops the draft text and the pending transaction id. -/
def settle (record : StoredCrossPost) (current : CrossPostRecord) : StoredCrossPost :=
  let next := merge record current
  if next.koinosStatus = .ok then { next with text := none, pendingTxId := none } else next

/-- A record with the proof that was recorded for it. -/
def withProof (record : StoredCrossPost) (proof : ProofResult) (time : ℕ) : StoredCrossPost :=
  { record with
    koinosTxId := record.koinosTxId <|> (some proof.koinosTxId).filter Json.truthy
    proof := some ⟨proof.manifestHash, proof.txId, time, proof.outcome⟩
    proofError := none }

def maybeProof (file : List StoredCrossPost) (record : StoredCrossPost) : Action StoredCrossPost :=
  if needsProof record then do
    match ← Program.query (.recordProof record) .ok with
    | .ok proof => do
      let next := withProof record proof (← now)
      let _ ← update file next
      pure next
    | .error message => do
      let next := { record with proofError := some message }
      let _ ← update file next
      pure next
  else pure record

/-! ### Drafts -/

/-- What a draft is made of. -/
structure Draft where
  attemptId : Bytes
  adapter : Adapter
  hostSite : Option String
  audience : ℕ
  text : String
  url : Option String
  title : Option String
  hostSubmitted : Bool

/-- The record of a draft; a draft made while locked has no author and no key. -/
def drafted (input : Draft) (author : Option Address) (key : Bytes) (time createdAt : ℕ) :
    StoredCrossPost where
  toCrossPostRecord := newCrossPostRecord key input.attemptId input.hostSite input.audience time
  adapter := input.adapter
  author := author
  text := some input.text
  url := input.url.filter fun url => url != ""
  hostSubmitted := input.hostSubmitted
  title := input.title.filter fun title => title != ""
  createdAt := createdAt
  contentHash := none
  versionNumber := none
  sequence := none
  epoch := none
  expectedPostId := none
  pendingTxId := none
  proof := none
  proofError := none

/-- `fresh`. -/
def fresh (platform : Platform) (input : Draft) : Action StoredCrossPost := do
  let author ← account
  let key ← Program.lift (author.elim (.ok []) fun author =>
    idempotencyKey platform author input.attemptId)
  let time ← now
  let createdAt ← now
  pure (drafted input author key time createdAt)

/-- What `propose` and `create` share: an attempt that is known stays as it is. -/
def enqueue (platform : Platform) (input : Draft) : Action StoredCrossPost := do
  let file ← load
  match recordOf file input.attemptId with
  | some existing => pure existing
  | none => do
    let record ← fresh platform input
    let _ ← update file record
    pure record

structure ProposePayload where
  hostSite : Adapter
  text : String
  attemptId : Bytes
  url : String
  submitted : Bool

structure CreatePayload where
  text : String
  audience : ℕ
  adapter : Adapter
  url : Option String
  title : Option String

def propose (platform : Platform) (payload : ProposePayload) : Action StoredCrossPost :=
  enqueue platform
    { attemptId := payload.attemptId
      adapter := payload.hostSite
      hostSite := some payload.hostSite.text
      audience := 0
      text := payload.text
      url := some payload.url
      title := none
      hostSubmitted := payload.submitted }

def create (platform : Platform) (payload : CreatePayload) (attemptId : Bytes) :
    Action StoredCrossPost :=
  enqueue platform
    { attemptId := attemptId
      adapter := payload.adapter
      hostSite := none
      audience := payload.audience
      text := payload.text
      url := payload.url
      title := payload.title
      hostSubmitted := false }

/-! ### Publishing -/

/-- The fields a publication attempt puts into its record; a pending transaction id is put only when
the outcome is unknown. -/
structure AttemptFields where
  attempt : PublishAttempt
  pendingTxId : Option TransactionId

/-- The record with the fields of an attempt, if there are any; a pending id that is not put
stays. -/
def withAttempt (record : StoredCrossPost) : Option AttemptFields → StoredCrossPost
  | none => record
  | some extra =>
    { record with
      contentHash := some extra.attempt.contentHash
      versionNumber := some 1
      sequence := some extra.attempt.sequence
      epoch := some extra.attempt.epoch
      expectedPostId := some extra.attempt.postId
      pendingTxId := extra.pendingTxId <|> record.pendingTxId }

/-- The record an attempt leaves: the draft text goes when the Koinos side is known, the pending
transaction id unless this attempt put it. -/
def concluded (record : StoredCrossPost) (extra : Option AttemptFields)
    (current : CrossPostRecord) : StoredCrossPost :=
  let next := merge (withAttempt record extra) current
  if next.koinosStatus = .ok then { next with text := none, pendingTxId := none }
  else if (extra.bind AttemptFields.pendingTxId).isNone then { next with pendingTxId := none }
  else next

def conclude (file : List StoredCrossPost) (record : StoredCrossPost)
    (extra : Option AttemptFields) (current : CrossPostRecord) : Action StoredCrossPost := do
  let next := concluded record extra current
  let file ← update file next
  maybeProof file next

/-- The fields of a failed attempt. -/
def failureFields (failure : SubmitFailure) : Option AttemptFields :=
  failure.attempt.map fun attempt =>
    ⟨attempt, if failure.kind = .unknown then attempt.transactionId else none⟩

/-- `publish`. -/
def publish (file : List StoredCrossPost) (record : StoredCrossPost) :
    Action StoredCrossPost := do
  let current := baseRecord record
  match ← Program.query (.publishKoinos record) .ok with
  | .ok outcome => do
    let time ← now
    conclude file record (some ⟨outcome.attempt, none⟩)
      (transition current (.koinosSucceeded outcome.txId outcome.attempt.postId time))
  | .error error => do
    let failure := classifySubmitError error
    let extra := failureFields failure
    let time ← now
    match failure.kind with
    | .unknown =>
      conclude file record extra (transition current (.koinosUnknown (some failure.message) time))
    | .duplicate => do
      let known := withAttempt record extra
      let looked ← lookup known (transition current (.koinosFailed failure.message time))
        (record.author.elim [] Subtype.val)
      conclude file record extra (adoptPendingTx known looked)
    | .failed =>
      conclude file record extra (transition current (.koinosFailed failure.message time))

/-! ### Operations on an attempt -/

/-- The attempt's record, or the error that there is none. -/
def find (file : List StoredCrossPost) (attemptId : Bytes) : Action StoredCrossPost :=
  match recordOf file attemptId with
  | some record => pure record
  | none => refuse "Unknown attempt."

/-- The signed-in account, which must be the record's author if it has one. -/
def requireAuthor (record : StoredCrossPost) (message : String) : Action Address := do
  match ← account with
  | none => refuse "Unlock your account first."
  | some signedIn =>
    if record.author.all fun author => author == signedIn then pure signedIn
    else refuse message

def confirm (platform : Platform) (attemptId : Bytes) (audience : Option ℕ) :
    Action StoredCrossPost := do
  let file ← load
  let record ← find file attemptId
  if record.state ≠ .draft then
    refuse ("This attempt is " ++ record.state.text ++ "; use retry or reconcile instead.")
  else do
    let author ← requireAuthor record "This draft belongs to another account."
    let key ← Program.lift (idempotencyKey platform author record.attemptId)
    let prepared : StoredCrossPost :=
      { record with
        author := some author
        audience := audience.getD record.audience
        idempotencyKey := key }
    let current := transition (baseRecord prepared) (.retry (← now))
    let prepared := merge prepared current
    let file ← update file prepared
    publish file prepared

/-- What a retry does once nothing about the Koinos side is unknown. -/
def resume (file : List StoredCrossPost) (record : StoredCrossPost) (current : CrossPostRecord) :
    Action StoredCrossPost := do
  let plan := retryPlan current
  let prepared := merge record (transition current (.retry (← now)))
  let file ← update file prepared
  if plan.koinos then
    if prepared.text.all fun text => text == "" then
      refuse "The draft text is gone; discard this attempt and post again."
    else publish file prepared
  else pure prepared

def retry (attemptId : Bytes) : Action StoredCrossPost := do
  let file ← load
  let record ← find file attemptId
  let time ← now
  if !(actions record time).contains .retry && record.state != .unknown then
    refuse ("Retry is not available while the attempt is " ++ record.state.text ++ ".")
  else do
    let author ← requireAuthor record "This attempt belongs to another account."
    let current := baseRecord record
    if current.koinosStatus = .unknown then do
      let current := adoptPendingTx record (← lookup record current author.val)
      if current.koinosStatus = .ok ∨ current.state = .reconcileRequired then do
        let next := settle record current
        let file ← update file next
        maybeProof file next
      else resume file record current
    else resume file record current

/-- The author whose key is looked up: the record's, or else the signed-in account. -/
def authorOf (record : StoredCrossPost) : Action Address := do
  match record.author with
  | some author => pure author
  | none =>
    match ← account with
    | some signedIn => pure signedIn
    | none => refuse "Unlock your account first."

/-- The record's base with a key; an interrupted submission is unknown. -/
def interrupted (record : StoredCrossPost) (key : Bytes) (time later : ℕ) : CrossPostRecord :=
  let current := { baseRecord record with idempotencyKey := key }
  if current.state = .submitting ∧ isStale current time ∧ current.koinosStatus = .pending then
    transition current (.koinosUnknown (some "interrupted before the node answered") later)
  else current

/-- `reconcile`: looks up, and never publishes. -/
def reconcile (platform : Platform) (attemptId : Bytes) : Action StoredCrossPost := do
  let file ← load
  let record ← find file attemptId
  let author ← authorOf record
  let key ← Program.lift (if record.idempotencyKey = [] then
    idempotencyKey platform author record.attemptId else .ok record.idempotencyKey)
  let time ← now
  let current := interrupted record key time (← now)
  if current.state = .draft then pure record
  else do
    let current := adoptPendingTx record (← lookup record current author.val)
    let next := settle
      { record with author := some author, idempotencyKey := current.idempotencyKey } current
    let file ← update file next
    maybeProof file next

/-- What the user reports of the host side. -/
inductive HostOutcome where
  | posted
  | failed
  deriving DecidableEq, Repr

/-- The event of a report, or the problem with its link. -/
def hostEvent (platform : Platform) (record : StoredCrossPost) (outcome : HostOutcome)
    (detail : Option String) (time : ℕ) : Except CrossPostFailure ReconcileEvent :=
  match outcome with
  | .posted =>
    match hostRefProblem platform record detail with
    | some problem => .error (.crossPost problem)
    | none => .ok (.hostSucceeded (detail.getD "") time)
  | .failed =>
    .ok (.hostFailed ((detail.filter fun text => text != "").getD
      "The host did not publish the post.") time)

def markHost (platform : Platform) (attemptId : Bytes) (outcome : HostOutcome)
    (detail : Option String) : Action StoredCrossPost := do
  let file ← load
  let record ← find file attemptId
  if record.hostStatus = .notRequired then refuse "This attempt has no host side."
  else if record.state = .draft then refuse "Confirm the attempt first."
  else do
    let event ← Program.lift (hostEvent platform record outcome detail (← now))
    let next := merge record (transition (baseRecord record) event)
    let file ← update file next
    maybeProof file next

def recordProof (attemptId : Bytes) : Action StoredCrossPost := do
  let file ← load
  let record ← find file attemptId
  if !needsProof record then refuse "Nothing to record for this attempt."
  else maybeProof file record

def discard (attemptId : Bytes) : Action Unit := do
  let file ← load
  match recordOf file attemptId with
  | none => pure ()
  | some record => do
    let time ← now
    if record.state = .submitting ∧ record.koinosStatus = .pending ∧
        ¬ isStale record.toCrossPostRecord time then
      refuse "Wait for the submission to finish."
    else do
      let _ ← save (file.filter fun stored => stored.attemptId != attemptId)
      pure ()

/-- The attempts a sweep looks up. -/
def sweepTargets (file : List StoredCrossPost) (time : ℕ) : List Bytes :=
  ((file.mergeSort fun first second => second.createdAt ≤ first.createdAt).filter fun record =>
    record.state == .unknown || (record.state == .submitting &&
      isStale record.toCrossPostRecord time && record.koinosStatus == .pending)).map
    fun record => record.attemptId

/-- Reconcile one attempt after the other, whatever becomes of each. -/
def reconcileEach (platform : Platform) : List Bytes → Action Unit
  | [] => pure ()
  | attemptId :: rest => do
    let _ ← (Program.attempt (reconcile platform attemptId) :
      Action (Except CrossPostFailure StoredCrossPost))
    reconcileEach platform rest

def sweep (platform : Platform) : Action Unit := do
  let file ← load
  let time ← now
  reconcileEach platform (sweepTargets file time)

/-! ### The operations -/

/-- What the background calls; a sweep's lookups may also come one by one. -/
inductive Operation where
  | propose (payload : ProposePayload)
  | create (payload : CreatePayload) (attemptId : Bytes)
  | confirm (attemptId : Bytes) (audience : Option ℕ)
  | retry (attemptId : Bytes)
  | reconcile (attemptId : Bytes)
  | markHost (attemptId : Bytes) (outcome : HostOutcome) (detail : Option String)
  | recordProof (attemptId : Bytes)
  | discard (attemptId : Bytes)
  | sweep

/-- The program of an operation, without what it returns. -/
def perform (platform : Platform) : Operation → Action Unit
  | .propose payload => do
    let _ ← propose platform payload
    pure ()
  | .create payload attemptId => do
    let _ ← create platform payload attemptId
    pure ()
  | .confirm attemptId audience => do
    let _ ← confirm platform attemptId audience
    pure ()
  | .retry attemptId => do
    let _ ← retry attemptId
    pure ()
  | .reconcile attemptId => do
    let _ ← reconcile platform attemptId
    pure ()
  | .markHost attemptId outcome detail => do
    let _ ← markHost platform attemptId outcome detail
    pure ()
  | .recordProof attemptId => do
    let _ ← recordProof attemptId
    pure ()
  | .discard attemptId => discard attemptId
  | .sweep => sweep platform

end OpenSocial.CrossPosts

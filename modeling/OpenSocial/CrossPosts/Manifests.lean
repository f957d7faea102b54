/-
This file proves when a proof manifest is about the post it names.

A record describes the last submission its attempt heard of, and a lookup tells of
the post of whichever submission landed. The two are the same publication when
nothing was retried; after a retry they need not be, and then a proof binds the
post of one submission to the content of another. Whenever a lookup that settles
an attempt finds the post of the submission the attempt heard of last, everything
a proof is recorded for is true.
-/

import OpenSocial.CrossPosts.Ledger
import OpenSocial.CrossPosts.Posts

namespace OpenSocial.CrossPosts

open Library Sdk Extension

section Manifests

variable (host : Host) (platform : Platform)

/-! ### What a proof says -/

/-- The content hash, epoch and version number of a record are those of the first version the chain
accepted under this id, in this transaction. -/
structure DescribesVersion (chain : List Inclusion) (record : StoredCrossPost) (postId : Bytes)
    (transactionId : TransactionId) (args : Publications.PublishArguments) : Prop where
  first : FirstVersion host chain postId transactionId args
  contentHash : record.contentHash = some args.contentHash
  epoch : record.epoch = some args.epoch
  versionNumber : record.versionNumber = some 1

/-- A record that is about to be proven says of its post what is true of its first version, and
names the transaction it came in, if it names one. -/
def Truthful (chain : List Inclusion) (record : StoredCrossPost) : Prop :=
  ∃ postId transactionId args, record.postId = some postId ∧
    DescribesVersion host chain record postId transactionId args ∧
    ∀ id, record.koinosTxId = some id → id = transactionId

/-! ### Lookups and submissions -/

/-- What the indexer tells of a post is true: its key is bound to it, and it came in this
transaction. -/
def TruthfulIndexer (world : World) (request : Request) (answer : Answer request) : Prop :=
  NamesBoundPost host platform world request answer ∧
    match request, answer with
    | .lookupIndexer _ _, answer => ∀ hit, answer = .ok (some hit) →
      ∀ id, hit.txId = some id → ∃ args, FirstVersion host world.chain hit.postId id args
    | _, _ => True

/-- A record whose lookup decides what it will be proven with: a facebook attempt that waits for its
Koinos side, and is not in conflict. -/
structure Unsettled (record : StoredCrossPost) : Prop where
  adapter : record.adapter = .facebook
  unknown : record.koinosStatus ≠ .ok
  settled : record.state ≠ .reconcileRequired

/-- The chain included, as the first version of this post, what the last submission that was heard
of had encrypted. -/
def Landed (chain : List Inclusion) (answers : List Heard) (postId : Bytes) : Prop :=
  ∃ attempt transactionId args, lastTold answers = some attempt ∧
    FirstVersion host chain postId transactionId args ∧
    args.contentHash = attempt.contentHash ∧ args.epoch = attempt.epoch

/-- The post of the last submission came in the transaction that was left open, unless the indexer
names the transaction. -/
def LandedPending (chain : List Inclusion) (ledger : Ledger) (attemptId : Bytes)
    (reply : Option IndexerHit) : Prop :=
  ∀ attempt, lastTold (ledger.answers attemptId) = some attempt →
    (∀ hit, reply = some hit → hit.postId = attempt.postId → hit.txId = none) →
    ∀ transactionId args, FirstVersion host chain attempt.postId transactionId args →
    ∀ id, pendingOf (ledger.written attemptId) = some id → id = transactionId

/-- Truthful lookups, and one that may settle an attempt finds the post of the last submission that
was heard of. -/
def FindsLatest (state : World × Ledger) (request : Request) (answer : Answer request) : Prop :=
  TruthfulIndexer host platform state.1 request answer ∧
    match request, answer with
    | .lookupChain record _ _, answer => Unsettled record → ∀ postId, answer = .ok (some postId) →
      Landed host state.1.chain (state.2.answers record.attemptId) postId
    | .lookupIndexer _ record, answer => Unsettled record → ∀ reply, answer = .ok reply →
      (∀ hit, reply = some hit →
        Landed host state.1.chain (state.2.answers record.attemptId) hit.postId) ∧
      LandedPending host state.1.chain state.2 record.attemptId reply
    | _, _ => True

/-- The configurations reached, with the ledger of the run, when every answer meets a condition on
what was included and heard until then. -/
def ReachedNoting
    (meets : World × Ledger → (request : Request) → Answer request → Prop)
    (configuration : Service.Configuration Request Answer (World × Ledger) CrossPostFailure Unit) :
    Prop :=
  ((noted host platform).restrict meets).Reaches (Started platform) (⟨[], []⟩, Ledger.blank)
    configuration

/-- Every run has its ledger. -/
theorem noting_of_reached {meets : World → (request : Request) → Answer request → Prop}
    {configuration : Configuration} (reached : Reached host platform meets configuration) :
    ∃ ledger, ReachedNoting host platform (fun state => meets state.1)
      ((configuration.1, ledger), configuration.2) :=
  Service.reaches_noting Ledger.note Ledger.blank reached

/-! ### What a record makes of it -/

/-- A lookup that may settle its record finds the publication the record describes. -/
def FindsDescribed (world : World) : (request : Request) → Answer request → Prop
  | .lookupChain record _ _, answer => Unsettled record → ∀ postId, answer = .ok (some postId) →
    ∃ transactionId args, DescribesVersion host world.chain record postId transactionId args
  | .lookupIndexer _ record, answer => Unsettled record → ∀ reply, answer = .ok reply →
    (∀ hit, reply = some hit → ∃ transactionId args,
      DescribesVersion host world.chain record hit.postId transactionId args) ∧
    ∀ postId, record.expectedPostId = some postId →
      (∀ hit, reply = some hit → hit.postId = postId → hit.txId = none) →
      ∀ transactionId args, FirstVersion host world.chain postId transactionId args →
      ∀ id, record.pendingTxId = some id → id = transactionId
  | _, _ => True

/-- Truthful lookups that find what their record describes. -/
def FindsRecorded (world : World) (request : Request) (answer : Answer request) : Prop :=
  TruthfulIndexer host platform world request answer ∧ FindsDescribed host world request answer

/-- What such lookups make known. -/
def Described : Knowledge := fun chain record author postId txId =>
  BoundTo host platform chain record author postId txId ∧
  (Unsettled record → ∃ transactionId args,
    DescribesVersion host chain record postId transactionId args ∧
    (txId = none → record.expectedPostId = some postId →
      ∀ id, record.pendingTxId = some id → id = transactionId)) ∧
  ∀ id, txId = some id → ∃ args, FirstVersion host chain postId id args

variable {host platform}

theorem DescribesVersion.grows {chain later : List Inclusion} (grown : chain <+: later)
    {record : StoredCrossPost} {postId : Bytes} {transactionId : TransactionId}
    {args : Publications.PublishArguments}
    (describes : DescribesVersion host chain record postId transactionId args) :
    DescribesVersion host later record postId transactionId args :=
  ⟨describes.first.grows grown, describes.contentHash, describes.epoch, describes.versionNumber⟩

variable (host platform) in
theorem informed_described :
    Informed host platform (Described host platform) (FindsRecorded host platform) where
  lasts chain later record author postId txId grown knows := by
    obtain ⟨bound, describing, naming⟩ := knows
    refine ⟨boundPost_grows grown bound, fun unsettled => ?_, fun id same => ?_⟩
    · obtain ⟨transactionId, args, describes, pending⟩ := describing unsettled
      exact ⟨transactionId, args, describes.grows grown, pending⟩
    · obtain ⟨args, first⟩ := naming id same
      exact ⟨args, first.grows grown⟩
  binds _ _ _ _ _ knows := knows.1
  chain earlier world record author postId hit grown bound chained answered := by
    refine ⟨boundPost_grows grown bound, fun unsettled => ?_, fun id named => ?_⟩
    · obtain ⟨transactionId, args, describes⟩ := chained.2 unsettled postId rfl
      refine ⟨transactionId, args, describes.grows grown, fun unnamed expected => ?_⟩
      refine (answered.2 unsettled hit rfl).2 postId expected (fun found same own => ?_)
        transactionId args (describes.first.grows grown)
      rw [same, Option.filter_some, if_pos (beq_iff_eq.mpr own)] at unnamed
      exact unnamed
    · obtain ⟨found, kept, known⟩ := Option.bind_eq_some_iff.mp named
      obtain ⟨same, own⟩ := Option.filter_eq_some_iff.mp kept
      obtain rfl := beq_iff_eq.mp own
      exact answered.1.2 found (congrArg Except.ok same) id known
  indexer world record author hit answered := by
    refine ⟨answered.1.1 hit rfl author rfl, fun unsettled => ?_, answered.1.2 hit rfl⟩
    obtain ⟨describing, pending⟩ := answered.2 unsettled (some hit) rfl
    obtain ⟨transactionId, args, describes⟩ := describing hit rfl
    refine ⟨transactionId, args, describes, fun unnamed expected => ?_⟩
    refine pending hit.postId expected (fun found same _ => ?_) transactionId args describes.first
    obtain rfl := Option.some.inj same
    exact unnamed

/-- A record that holds what was heard is found by what was heard. -/
theorem describes_of_landed {chain : List Inclusion} {answers : List Heard} {postId : Bytes}
    {record : StoredCrossPost} {pending : Option TransactionId}
    (tells : Tells (lastTold answers) pending record) (landed : Landed host chain answers postId) :
    ∃ transactionId args, DescribesVersion host chain record postId transactionId args := by
  obtain ⟨attempt, transactionId, args, last, first, content, epoch⟩ := landed
  refine ⟨transactionId, args, first, ?_, ?_, ?_⟩
  · rw [tells.contentHash, last, content]
    rfl
  · rw [tells.epoch, last, epoch]
    rfl
  · rw [tells.versionNumber, last]
    rfl

/-- What is looked up with what was heard meets the condition on records. -/
theorem finds_recorded {state : World × Ledger} {request : Request} {answer : Answer request}
    (asks : recalls state request) (finds : FindsLatest host platform state request answer) :
    FindsRecorded host platform state.1 request answer := by
  refine ⟨finds.1, ?_⟩
  have latest := finds.2
  cases request with
  | lookupChain record author key =>
    exact fun unsettled postId found => describes_of_landed asks (latest unsettled postId found)
  | lookupIndexer author record =>
    intro unsettled reply replied
    obtain ⟨landed, pending⟩ := latest unsettled reply replied
    refine ⟨fun hit same => describes_of_landed asks (landed hit same), ?_⟩
    intro postId expected unnamed transactionId args first id named
    obtain ⟨attempt, last, rfl⟩ := Option.map_eq_some_iff.mp (asks.expectedPostId.symm.trans expected)
    exact pending attempt last unnamed transactionId args first id (asks.pending id named)
  | _ => trivial

/-- Such a run is one whose lookups find what the records describe. -/
theorem reached_recorded
    {configuration : Service.Configuration Request Answer (World × Ledger) CrossPostFailure Unit}
    (reached : ReachedNoting host platform (FindsLatest host platform) configuration) :
    Reached host platform (FindsRecorded host platform) (configuration.1.1, configuration.2) := by
  let service := (noted host platform).restrict (FindsLatest host platform)
  have drifts : ∀ state later, Kept state → service.drift state later →
      Kept later ∧ drift state.1 later.1 :=
    fun state later kept drifts => ⟨kept.still (still_of_drift drifts), drifts.1⟩
  have serves : ∀ state request answer after, Kept state → recalls state request →
      service.serve state request answer after → Kept after ∧
        (met host platform (FindsRecorded host platform)).serve state.1 request answer after.1 := by
    intro state request answer after kept asks served
    exact ⟨kept_of_served kept asks served.1, served.1.1, finds_recorded asks served.2⟩
  have obeys : ∀ program, Started platform program → ∀ state, Kept state →
      service.Obeys Kept recalls (fun _ _ => True) program state := by
    rintro program ⟨operation, rfl⟩ state kept
    exact (notes_perform operation kept).restrict _
  have starts : Kept (⟨[], []⟩, Ledger.blank) := by
    intro attemptId record stored
    cases stored
  exact Service.reaches_seen Prod.fst drifts serves obeys starts reached

/-! ### Records whose proof would be true -/

section Records

variable {chain : List Inclusion} {record next stored : StoredCrossPost}
  {looked : CrossPostRecord} {author : Address}

/-- A record whose Koinos side is known has no pending transaction, and until it is proven what a
proof would say of a facebook attempt is true. -/
structure Provable (host : Host) (chain : List Inclusion) (record : StoredCrossPost) : Prop where
  settled : record.koinosStatus = .ok → record.pendingTxId = none
  truthful : record.koinosStatus = .ok → record.adapter = .facebook → record.proof = none →
    Truthful host chain record

theorem provable_of_unknown (unknown : record.koinosStatus ≠ .ok) : Provable host chain record :=
  ⟨fun ok => absurd ok unknown, fun ok => absurd ok unknown⟩

/-- The fields a proof takes from a record, apart from its post and transaction. -/
structure SameDetails (record next : StoredCrossPost) : Prop where
  adapter : next.adapter = record.adapter
  contentHash : next.contentHash = record.contentHash
  epoch : next.epoch = record.epoch
  versionNumber : next.versionNumber = record.versionNumber
  proof : next.proof = record.proof

theorem DescribesVersion.detailed {postId : Bytes} {transactionId : TransactionId}
    {args : Publications.PublishArguments}
    (describes : DescribesVersion host chain record postId transactionId args)
    (same : SameDetails record next) :
    DescribesVersion host chain next postId transactionId args :=
  ⟨describes.first, same.contentHash.trans describes.contentHash,
    same.epoch.trans describes.epoch, same.versionNumber.trans describes.versionNumber⟩

theorem settle_details (record : StoredCrossPost) (current : CrossPostRecord) :
    SameDetails record (settle record current) ∧
      (settle record current).koinosTxId = current.koinosTxId ∧
      ((settle record current).koinosStatus = .ok → (settle record current).pendingTxId = none) := by
  unfold settle
  dsimp only
  split
  · exact ⟨⟨rfl, rfl, rfl, rfl, rfl⟩, rfl, fun _ => rfl⟩
  · next unknown => exact ⟨⟨rfl, rfl, rfl, rfl, rfl⟩, rfl, fun ok => absurd ok unknown⟩

theorem concluded_details (record : StoredCrossPost) (extra : Option AttemptFields)
    (current : CrossPostRecord) :
    SameDetails (withAttempt record extra) (concluded record extra current) ∧
      (concluded record extra current).koinosTxId = current.koinosTxId ∧
      ((concluded record extra current).koinosStatus = .ok →
        (concluded record extra current).pendingTxId = none) := by
  unfold concluded
  dsimp only
  split
  · exact ⟨⟨rfl, rfl, rfl, rfl, rfl⟩, rfl, fun _ => rfl⟩
  · next unknown =>
    split
    · exact ⟨⟨rfl, rfl, rfl, rfl, rfl⟩, rfl, fun ok => absurd ok unknown⟩
    · exact ⟨⟨rfl, rfl, rfl, rfl, rfl⟩, rfl, fun ok => absurd ok unknown⟩

/-- A lookup that settles a record finds it out of conflict. -/
theorem settled_of_looked {known : Knowledge} {current : CrossPostRecord}
    (lookedUp : Looked known chain stored author current looked)
    (unknown : current.koinosStatus ≠ .ok) (found : looked.koinosStatus = .ok) :
    current.state ≠ .reconcileRequired := by
  intro conflicted
  have stays : ∀ event, transition current event = current := fun event => if_pos conflicted
  cases lookedUp with
  | found postId txId time told => exact unknown ((stays _).symm ▸ found)
  | missing time => exact unknown ((stays _).symm ▸ found)

/-- A lookup that settles a record with the post it describes makes a true record. -/
theorem truthful_of_finds (unsettled : Unsettled stored)
    (finds : Finds (Described host platform chain stored author) (baseRecord record) looked)
    (carries : Carries record next looked) (details : SameDetails stored next)
    (adopted : next.koinosTxId = (adoptPendingTx stored looked).koinosTxId)
    (unadopted : record.koinosTxId = none) : Truthful host chain next := by
  obtain ⟨postId, txId, ⟨_, describing, naming⟩, agrees, post, taken⟩ := finds.reported
  obtain ⟨transactionId, args, describes, pending⟩ := describing unsettled
  refine ⟨postId, transactionId, args, carries.post.trans post, describes.detailed details, ?_⟩
  intro id named
  have reported : looked.koinosTxId = txId := by
    rw [taken]
    show (txId <|> record.koinosTxId) = txId
    rw [unadopted]
    cases txId with
    | none => rfl
    | some id => rfl
  rw [adopted] at named
  unfold adoptPendingTx at named
  split at named
  · next adopts =>
    exact pending (reported.symm.trans adopts.2.1) (adopts.2.2.2.2.symm.trans post) id named
  · obtain ⟨others, first⟩ := naming id (reported.symm.trans named)
    exact (first.unique describes.first).1

/-- Finding the post of a true record again keeps it true. -/
theorem truthful_again (truthful : Truthful host chain record)
    (finds : Finds (Described host platform chain stored author) (baseRecord record) looked)
    (carries : Carries record next looked) (details : SameDetails record next)
    (adopted : next.koinosTxId = looked.koinosTxId) : Truthful host chain next := by
  obtain ⟨postId, transactionId, args, named, describes, told⟩ := truthful
  obtain ⟨found, txId, ⟨_, _, naming⟩, agrees, post, taken⟩ := finds.reported
  obtain rfl := agrees postId named
  refine ⟨postId, transactionId, args, carries.post.trans post, describes.detailed details, ?_⟩
  intro id same
  rw [adopted, taken] at same
  cases txId with
  | some reported =>
    obtain rfl := Option.some.inj same
    obtain ⟨others, first⟩ := naming reported rfl
    exact (first.unique describes.first).1
  | none => exact told id same

/-- Whatever leaves the Koinos side and the details as they are keeps the record provable. -/
theorem Provable.continued (provable : Provable host chain record)
    (continues : Continues (baseRecord record) looked)
    (carries : Carries record next looked) (details : SameDetails record next)
    (txId : next.koinosTxId = looked.koinosTxId)
    (pending : next.koinosStatus = .ok → next.pendingTxId = none) :
    Provable host chain next := by
  refine ⟨pending, fun ok facebook unproven => ?_⟩
  obtain ⟨postId, transactionId, args, named, describes, told⟩ := provable.truthful
    (continues.status.mp (carries.status.symm.trans ok)) (details.adapter.symm.trans facebook)
    (details.proof.symm.trans unproven)
  refine ⟨postId, transactionId, args, carries.post.trans (continues.post.trans named),
    describes.detailed details, fun id same => told id ?_⟩
  exact continues.txId.symm.trans (txId.symm.trans same)

/-- Adopting a pending transaction changes nothing of a record that has none. -/
theorem adoptPendingTx_settled (settled : stored.pendingTxId = none) :
    adoptPendingTx stored looked = looked := by
  refine if_neg fun adopts => ?_
  rw [settled] at adopts
  exact absurd adopts.2.2.1 Bool.false_ne_true

/-- An accepted publication is recorded with its own content. -/
theorem provable_accepted (unpublished : record.koinosStatus ≠ .ok) {outcome : PublishOutcome}
    (published : Published host platform chain record author outcome) (time : ℕ) :
    Provable host chain (concluded record (some ⟨outcome.attempt, none⟩)
      (transition (baseRecord record)
        (.koinosSucceeded outcome.txId outcome.attempt.postId time))) := by
  have details := concluded_details record (some ⟨outcome.attempt, none⟩)
    (transition (baseRecord record) (.koinosSucceeded outcome.txId outcome.attempt.postId time))
  have carries := carries_concluded record (some ⟨outcome.attempt, none⟩)
    (transition (baseRecord record) (.koinosSucceeded outcome.txId outcome.attempt.postId time))
  refine ⟨details.2.2, fun ok _ _ => ?_⟩
  rcases advance_of_published record outcome time with continues | finds
  · exact absurd (continues.status.mp (carries.status.symm.trans ok)) unpublished
  obtain ⟨postId, txId, ⟨rfl, rfl⟩, _, post, taken⟩ := finds.reported
  obtain ⟨args, first, publishes⟩ := published
  refine ⟨_, outcome.txId, args, carries.post.trans post, ⟨first, ?_, ?_, ?_⟩, ?_⟩
  · exact details.1.contentHash.trans (congrArg some publishes.contentHash.symm)
  · exact details.1.epoch.trans (congrArg some publishes.epoch.symm)
  · exact details.1.versionNumber
  · intro id named
    rw [details.2.1, taken] at named
    exact (Option.some.inj named).symm

/-- A refused publication is looked up, and what was found is the one the record describes. -/
theorem provable_duplicate (sound : Sound host platform chain record)
    (unpublished : record.koinosStatus ≠ .ok) (extra : Option AttemptFields) {message : String}
    {time : ℕ}
    (lookedUp : Looked (Described host platform) chain (withAttempt record extra) author
      (transition (baseRecord record) (.koinosFailed message time)) looked) :
    Provable host chain
      (concluded record extra (adoptPendingTx (withAttempt record extra) looked)) := by
  have details := concluded_details record extra (adoptPendingTx (withAttempt record extra) looked)
  have carries := (carries_concluded record extra
    (adoptPendingTx (withAttempt record extra) looked)).of_adopted
  refine ⟨details.2.2, fun ok facebook _ => ?_⟩
  have failed : Continues (baseRecord record)
      (transition (baseRecord record) (.koinosFailed message time)) := continues_of_event rfl
  rcases failed.then (advance_of_looked lookedUp) with continues | finds
  · exact absurd (continues.status.mp (carries.status.symm.trans ok)) unpublished
  have unknown : (transition (baseRecord record) (.koinosFailed message time)).koinosStatus ≠ .ok :=
    fun known => unpublished (failed.status.mp known)
  refine truthful_of_finds ⟨details.1.adapter.symm.trans facebook, ?_, fun conflicted => ?_⟩ finds
    carries details.1 details.2.1 (sound.unadopted unpublished)
  · exact (congrArg CrossPostRecord.koinosStatus (withAttempt_base record extra)).trans_ne unpublished
  · have conflict : record.state = .reconcileRequired :=
      (congrArg CrossPostRecord.state (withAttempt_base record extra)).symm.trans conflicted
    have stays : transition (baseRecord record) (.koinosFailed message time) = baseRecord record :=
      if_pos conflict
    exact settled_of_looked lookedUp unknown finds.status
      ((congrArg CrossPostRecord.state stays).trans conflict)

/-- A record that is settled already is found with the post it has. -/
theorem truthful_settled {start : CrossPostRecord} (provable : Provable host chain record)
    (known : record.koinosStatus = .ok) (started : Continues (baseRecord record) start)
    (lookedUp : Looked (Described host platform) chain record author start looked)
    (facebook : (settle record (adoptPendingTx record looked)).adapter = .facebook)
    (unproven : (settle record (adoptPendingTx record looked)).proof = none)
    (ok : (settle record (adoptPendingTx record looked)).koinosStatus = .ok) :
    Truthful host chain (settle record (adoptPendingTx record looked)) := by
  have details := settle_details record (adoptPendingTx record looked)
  have carries := (carries_settle record (adoptPendingTx record looked)).of_adopted
  have same : adoptPendingTx record looked = looked :=
    adoptPendingTx_settled (provable.settled known)
  have adopted := details.2.1.trans (congrArg CrossPostRecord.koinosTxId same)
  rcases started.then (advance_of_looked lookedUp) with continues | finds
  · exact (provable.continued continues carries details.1 adopted details.2.2).truthful ok
      facebook unproven
  · exact truthful_again (provable.truthful known (details.1.adapter.symm.trans facebook)
      (details.1.proof.symm.trans unproven)) finds carries details.1 adopted

theorem provable_settled {start : CrossPostRecord} (sound : Sound host platform chain record)
    (provable : Provable host chain record)
    (starting : start = baseRecord record ∨
      ∃ message time, start = transition (baseRecord record) (.koinosUnknown message time))
    (lookedUp : Looked (Described host platform) chain record author start looked) :
    Provable host chain (settle record (adoptPendingTx record looked)) := by
  have details := settle_details record (adoptPendingTx record looked)
  have carries := (carries_settle record (adoptPendingTx record looked)).of_adopted
  have started : Continues (baseRecord record) start := by
    rcases starting with rfl | ⟨message, time, rfl⟩
    · exact continues_refl _
    · exact continues_of_event rfl
  refine ⟨details.2.2, fun ok facebook unproven => ?_⟩
  by_cases known : record.koinosStatus = .ok
  · exact truthful_settled provable known started lookedUp facebook unproven ok
  rcases started.then (advance_of_looked lookedUp) with continues | finds
  · exact absurd (continues.status.mp (carries.status.symm.trans ok)) known
  have unknown : start.koinosStatus ≠ .ok := fun settled => known (started.status.mp settled)
  refine truthful_of_finds ⟨details.1.adapter.symm.trans facebook, known, fun conflicted => ?_⟩
    finds carries details.1 details.2.1 (sound.unadopted known)
  have stays : start = baseRecord record := by
    rcases starting with rfl | ⟨message, time, rfl⟩
    · rfl
    · exact if_pos conflicted
  exact settled_of_looked lookedUp unknown finds.status
    ((congrArg CrossPostRecord.state stays).trans conflicted)

theorem provable_changed (sound : Sound host platform chain record)
    (provable : Provable host chain record)
    (change : Change host platform (Described host platform) chain record next) :
    Provable host chain next := by
  cases change with
  | confirmed author audience time draft =>
    refine provable_of_unknown fun ok => ?_
    have continues : Continues (baseRecord (confirmed platform record author audience))
        (transition (baseRecord (confirmed platform record author audience)) (.retry time)) :=
      continues_of_event rfl
    exact sound.found.mp (continues.status.mp ok) (sound.drafted draft)
  | resumed author looked time own left lookedUp unfound =>
    refine provable_of_unknown fun ok => unfound ?_
    have continues : Continues looked (transition looked (.retry time)) := continues_of_event rfl
    exact continues.status.mp ok
  | accepted author outcome time own left unpublished published =>
    exact provable_accepted unpublished published time
  | missed extra event left unpublished failing =>
    refine provable_of_unknown fun ok => unpublished ?_
    have continues : Continues (baseRecord record) (transition (baseRecord record) event) :=
      continues_of_event failing
    exact continues.status.mp ((carries_concluded _ _ _).status.symm.trans ok)
  | duplicate author extra message time looked own left unpublished lookedUp =>
    exact provable_duplicate sound unpublished extra lookedUp
  | settled author start looked own left starting lookedUp =>
    exact provable_settled sound provable starting lookedUp
  | reported event left silent =>
    exact provable.continued (continues_of_event silent) (carries_merge _ _)
      ⟨rfl, rfl, rfl, rfl, rfl⟩ rfl
      fun ok => provable.settled ((continues_of_event silent : Continues (baseRecord record)
        (transition (baseRecord record) event)).status.mp ok)
  | proven proof time needed =>
    refine ⟨provable.settled, fun _ _ impossible => ?_⟩
    cases impossible
  | unproven message needed =>
    refine ⟨provable.settled, fun ok facebook unproven => ?_⟩
    obtain ⟨postId, transactionId, args, named, describes, told⟩ :=
      provable.truthful ok facebook unproven
    exact ⟨postId, transactionId, args, named, describes.detailed ⟨rfl, rfl, rfl, rfl, rfl⟩, told⟩

theorem provable_of_derivable
    (derivable : Derivable host platform (Described host platform) chain record) :
    Provable host chain record := by
  induction derivable with
  | drafted input author key time createdAt => exact provable_of_unknown SideStatus.noConfusion
  | changed before change inductionHypothesis =>
    exact provable_changed (sound_of_derivable (informed_described host platform).binds before)
      inductionHypothesis change

end Records

/-! ### Every proof -/

variable (host platform) in
/-- In every run whose indexer tells the truth, and whose lookups that may settle an attempt find,
when they find a post, the one of the last submission that was heard of: whatever record a proof is
about to be recorded for says of its post what is true of the first version the chain accepted. -/
theorem manifest_truthful
    (configuration : Service.Configuration Request Answer (World × Ledger) CrossPostFailure Unit)
    (reached : ReachedNoting host platform (FindsLatest host platform) configuration)
    (program : Action Unit) (running : configuration.2 = some program) (record : StoredCrossPost)
    (asking : Service.pending program = some (.recordProof record)) :
    Truthful host configuration.1.1.chain record := by
  obtain ⟨ordered, asks⟩ :=
    ordered_reached (informed_described host platform) (reached_recorded reached)
  have allows := Service.allowed_of_pending ordered (asks program running) asking
  have needed := allows.2
  simp only [needsProof, Bool.and_eq_true, beq_iff_eq, Option.isNone_iff_eq_none] at needed
  exact (provable_of_derivable allows.1).truthful needed.1.1.1.2 needed.1.1.1.1.1 needed.2

end Manifests

/-! ### The proof of another attempt -/

section Sample

/-- A second attempt is rejected because the first one landed. -/
def duplicateAnswer : PublishError :=
  .attempt (.other "transaction reverted: duplicate idempotency key") (attemptOf 3)

def isProof : Request → Bool
  | .recordProof _ => true
  | _ => false

/-- The lookup found nothing, the first attempt landed late, and the retry's second attempt found its
key taken. -/
def retriedWorld : World :=
  performed Publications.numberingHost samplePlatform duplicateAnswer none (.retry sampleAttempt)
    { performed Publications.numberingHost samplePlatform lostAnswer none (.reconcile sampleAttempt)
        unansweredWorld with chain := landedChain 2 }

/-- The operation in which the user reports the link to the Facebook post. -/
def posted : Operation :=
  .markHost sampleAttempt .posted (some "https://www.facebook.com/post")

/-- A proof is about to be recorded. -/
def provingConfiguration : Configuration :=
  ((Service.play (answering Publications.numberingHost duplicateAnswer none) isProof
      (perform samplePlatform posted) retriedWorld).1,
    some (Service.play (answering Publications.numberingHost duplicateAnswer none) isProof
      (perform samplePlatform posted) retriedWorld).2)

theorem truthful_silent (error : PublishError) (world : World) (request : Request) :
    TruthfulIndexer Publications.numberingHost samplePlatform world request
      (answering Publications.numberingHost error none world request).1 := by
  cases request with
  | lookupIndexer author record =>
    refine ⟨fun hit impossible => ?_, fun hit impossible => ?_⟩
    · cases impossible
    · cases impossible
  | _ => exact ⟨trivial, trivial⟩

theorem reached_proving :
    Reached Publications.numberingHost samplePlatform
      (TruthfulIndexer Publications.numberingHost samplePlatform) provingConfiguration := by
  have missing := reached_performed (truthful_silent lostAnswer) (.reconcile sampleAttempt)
    (reached_unanswered (truthful_silent lostAnswer))
  have landed : Reached Publications.numberingHost samplePlatform
      (TruthfulIndexer Publications.numberingHost samplePlatform)
      ({ performed Publications.numberingHost samplePlatform lostAnswer none
          (.reconcile sampleAttempt) unansweredWorld with chain := landedChain 2 }, none) :=
    missing.tail (.drift ⟨rfl, List.nil_prefix⟩)
  have retried := reached_performed (truthful_silent duplicateAnswer) (.retry sampleAttempt) landed
  exact reached_played (fun world request => ⟨answering_serves _ _ _ _ world request,
    truthful_silent duplicateAnswer world request⟩) posted retried

/-- These answers include nothing in the chain. -/
theorem chain_played (host : Host) (error : PublishError) (hit : Option IndexerHit)
    (stops : Request → Bool) (program : Action Unit) (world : World) :
    (Service.play (answering host error hit) stops program world).1.chain = world.chain := by
  induction program generalizing world with
  | done value => rfl
  | fail failure => rfl
  | ask request rest inductionHypothesis =>
    unfold Service.play
    split
    · rfl
    · refine (inductionHypothesis _ _).trans ?_
      cases request <;> rfl

/-- The first attempt's version on the chain. -/
theorem first_landed :
    FirstVersion Publications.numberingHost (landedChain 2) (attemptOf 2).postId (.string "first")
      (argumentsOf 2) := by
  have executes : ((Publications.machine Publications.numberingHost).step
      (stateOf Publications.numberingHost [⟨.string "setup",
        ⟨Env.signedBy [] 0, .setIdentityContract ⟨(Address.repeated 9).val⟩⟩⟩])
      ⟨Env.signedBy [] 1, .publish (argumentsOf 2)⟩).toBool = true := by decide +kernel
  obtain ⟨result, accepted⟩ := exists_ok_of_toBool executes
  exact ⟨[_], _, [], result, rfl, rfl, rfl, rfl, accepted⟩

/-- A proof is about to bind the post of the first attempt to the content of the second. -/
theorem manifest_of_another_attempt :
    ¬ ∀ (host : Host) (platform : Platform) (configuration : Configuration),
      Reached host platform (TruthfulIndexer host platform) configuration →
        ∀ program record, configuration.2 = some program →
          Service.pending program = some (.recordProof record) →
          Truthful host configuration.1.chain record := by
  intro always
  have details : (recordOf provingConfiguration.1.file sampleAttempt).map (fun record =>
      (record.postId, record.contentHash)) =
        some (some (attemptOf 2).postId, some (attemptOf 3).contentHash) := by decide +kernel
  obtain ⟨record, stored, same⟩ := Option.map_eq_some_iff.mp details
  have asking : (provingConfiguration.2.bind Service.pending) =
      (recordOf provingConfiguration.1.file sampleAttempt).map Request.recordProof := by
    decide +kernel
  rw [stored] at asking
  obtain ⟨postId, transactionId, args, named, describes, _⟩ :=
    always _ _ _ reached_proving _ record rfl asking
  have chain : provingConfiguration.1.chain = landedChain 2 :=
    (chain_played _ _ _ _ _ _).trans (chain_played _ _ _ _ _ _)
  obtain ⟨post, hash⟩ := Prod.mk.inj same
  obtain rfl := Option.some.inj (named.symm.trans post)
  have first := describes.first
  rw [chain] at first
  obtain ⟨_, rfl⟩ := first.unique first_landed
  exact absurd (hash.symm.trans describes.contentHash) (by decide)

/-- The chain finds the submission that was heard of, once it has landed. -/
def chained (landed : Bool) (state : World × Ledger) (attemptId author key : Bytes) :
    Except String (Option Bytes) :=
  let found := Publications.getPostByIdempotencyKey
    (stateOf Publications.numberingHost state.1.chain) author key
  if landed ∧ lastTold (state.2.answers attemptId) = some (attemptOf 2) ∧
      found = some (attemptOf 2).postId then .ok found
  else .error "not asked"

/-- The indexer does not know it yet. -/
def indexed (landed : Bool) (state : World × Ledger) (attemptId : Bytes) :
    Except String (Option IndexerHit) :=
  if landed ∧ lastTold (state.2.answers attemptId) = some (attemptOf 2) ∧
      pendingOf (state.2.written attemptId) = some (.string "first") then .ok none
  else .error "not asked"

/-- The answer to the submission is lost, and once it has landed a lookup finds it. -/
def heeding (landed : Bool) (state : World × Ledger) : (request : Request) → Answer request × World
  | .lookupChain record author key => (chained landed state record.attemptId author key, state.1)
  | .lookupIndexer _ record => (indexed landed state record.attemptId, state.1)
  | request => answering Publications.numberingHost lostAnswer none state.1 request

/-- These answers, with the ledger. -/
def noting (landed : Bool) (state : World × Ledger) (request : Request) :
    Answer request × (World × Ledger) :=
  ((heeding landed state request).1, (heeding landed state request).2,
    Ledger.note request (heeding landed state request).1 (heeding landed state request).2 state.2)

/-- The chain on which the submission has landed, once it has. -/
def Landing (landed : Bool) (state : World × Ledger) : Prop :=
  landed = true → state.1.chain = landedChain 2

theorem landed_first {state : World × Ledger} (landing : Landing true state)
    {answers : List Heard} (last : lastTold answers = some (attemptOf 2)) :
    Landed Publications.numberingHost state.1.chain answers (attemptOf 2).postId := by
  refine ⟨attemptOf 2, .string "first", argumentsOf 2, last, ?_, rfl, rfl⟩
  rw [landing rfl]
  exact first_landed

theorem heeding_serves (landed : Bool) (state : World × Ledger) (request : Request) :
    serve Publications.numberingHost samplePlatform state.1 request (heeding landed state request).1
      (heeding landed state request).2 := by
  cases request with
  | lookupChain record author key =>
    refine ⟨rfl, fun found answered => ?_⟩
    have chains : chained landed state record.attemptId author key = .ok found := answered
    unfold chained at chains
    dsimp only at chains
    split at chains
    · exact (Except.ok.inj chains).symm
    · cases chains
  | lookupIndexer author record => rfl
  | now => exact answering_serves _ _ lostAnswer none state.1 .now
  | account => exact answering_serves _ _ lostAnswer none state.1 .account
  | load => exact answering_serves _ _ lostAnswer none state.1 .load
  | save file => exact answering_serves _ _ lostAnswer none state.1 (.save file)
  | publishKoinos record =>
    exact answering_serves _ _ lostAnswer none state.1 (.publishKoinos record)
  | recordProof record => exact answering_serves _ _ lostAnswer none state.1 (.recordProof record)

theorem heeding_finds {landed : Bool} {state : World × Ledger} (landing : Landing landed state)
    (request : Request) : FindsLatest Publications.numberingHost samplePlatform state request
      (heeding landed state request).1 := by
  cases request with
  | lookupChain record author key =>
    refine ⟨⟨trivial, trivial⟩, fun _ postId answered => ?_⟩
    have chains : chained landed state record.attemptId author key = .ok (some postId) := answered
    unfold chained at chains
    dsimp only at chains
    split at chains
    · next finds =>
      obtain ⟨rfl, last, bound⟩ := finds
      obtain rfl := Option.some.inj (bound.symm.trans (Except.ok.inj chains))
      exact landed_first landing last
    · cases chains
  | lookupIndexer author record =>
    have replies : ∀ reply, indexed landed state record.attemptId = .ok reply → reply = none ∧
        landed = true ∧ lastTold (state.2.answers record.attemptId) = some (attemptOf 2) ∧
        pendingOf (state.2.written record.attemptId) = some (.string "first") := by
      intro reply answered
      unfold indexed at answered
      split at answered
      · next finds => exact ⟨(Except.ok.inj answered).symm, finds⟩
      · cases answered
    refine ⟨⟨fun hit named => ?_, fun hit named => ?_⟩, fun _ reply answered => ?_⟩
    · cases (replies _ named).1
    · cases (replies _ named).1
    obtain ⟨rfl, rfl, last, pending⟩ := replies reply answered
    refine ⟨fun hit impossible => ?_, fun attempt latest _ transactionId args first id named => ?_⟩
    · cases impossible
    · obtain rfl := Option.some.inj (last.symm.trans latest)
      rw [landing rfl] at first
      obtain rfl := (first.unique first_landed).1
      exact Option.some.inj (named.symm.trans pending)
  | _ => exact ⟨⟨trivial, trivial⟩, trivial⟩

theorem noting_serves (landed : Bool) (state : World × Ledger) (request : Request)
    (landing : Landing landed state) :
    Landing landed (noting landed state request).2 ∧
      ((noted Publications.numberingHost samplePlatform).restrict
        (FindsLatest Publications.numberingHost samplePlatform)).serve state request
          (noting landed state request).1 (noting landed state request).2 := by
  have unchanged : (heeding landed state request).2.chain = state.1.chain := by
    cases request <;> rfl
  exact ⟨fun on => unchanged.trans (landing on), ⟨heeding_serves landed state request, rfl⟩,
    heeding_finds landing request⟩

/-- The draft was proposed and confirmed, and the answer was lost. -/
def unheardState : World × Ledger :=
  (Service.play (noting false) (fun _ => false) (perform samplePlatform (.confirm sampleAttempt none))
    (Service.play (noting false) (fun _ => false) (perform samplePlatform (.propose samplePayload))
      (⟨[], []⟩, Ledger.blank)).1).1

/-- The submission landed after all, and was looked up. -/
def foundState : World × Ledger :=
  (Service.play (noting true) (fun _ => false) (perform samplePlatform (.reconcile sampleAttempt))
    ({ unheardState.1 with chain := landedChain 2 }, unheardState.2)).1

/-- Then the user reports the link, and the proof of the attempt is about to be recorded. -/
def provingLanded :
    Service.Configuration Request Answer (World × Ledger) CrossPostFailure Unit :=
  ((Service.play (noting true) isProof (perform samplePlatform posted) foundState).1,
    some (Service.play (noting true) isProof (perform samplePlatform posted) foundState).2)

/-- Playing an operation goes on with such a run. -/
theorem reachedNoting_played {landed : Bool} (stops : Request → Bool) (operation : Operation)
    {state : World × Ledger} (landing : Landing landed state)
    (reached : ReachedNoting Publications.numberingHost samplePlatform
      (FindsLatest Publications.numberingHost samplePlatform) (state, none)) :
    ReachedNoting Publications.numberingHost samplePlatform
      (FindsLatest Publications.numberingHost samplePlatform)
      ((Service.play (noting landed) stops (perform samplePlatform operation) state).1,
        some (Service.play (noting landed) stops (perform samplePlatform operation) state).2) :=
  (reached.tail (.start ⟨operation, rfl⟩)).trans
    (Service.moves_play_kept _ (noting_serves landed) _ _ landing)

/-- These answers include nothing in the chain. -/
theorem chain_noting (landed : Bool) (stops : Request → Bool) (program : Action Unit)
    (state : World × Ledger) :
    (Service.play (noting landed) stops program state).1.1.chain = state.1.chain := by
  induction program generalizing state with
  | done value => rfl
  | fail failure => rfl
  | ask request rest inductionHypothesis =>
    unfold Service.play
    split
    · rfl
    · refine (inductionHypothesis _ _).trans ?_
      cases request <;> rfl

/-- The answer is lost, the submission lands, a lookup finds it, and what is about to be proven is
true. -/
theorem manifest_truthful_lateInclusion :
    ∃ record, provingLanded.2.bind Service.pending = some (.recordProof record) ∧
      Truthful Publications.numberingHost provingLanded.1.1.chain record := by
  have anywhere : ∀ state, Landing false state := fun state impossible => by cases impossible
  have proposed := reachedNoting_played (fun _ => false) (.propose samplePayload)
    (anywhere (⟨[], []⟩, Ledger.blank)) .refl
  have unheard := reachedNoting_played (fun _ => false) (.confirm sampleAttempt none) (anywhere _)
    (proposed.tail .stop)
  have landed : ReachedNoting Publications.numberingHost samplePlatform
      (FindsLatest Publications.numberingHost samplePlatform)
      (({ unheardState.1 with chain := landedChain 2 }, unheardState.2), none) :=
    (unheard.tail .stop).tail (.drift ⟨⟨rfl, List.nil_prefix⟩, rfl⟩)
  have lands : Landing true ({ unheardState.1 with chain := landedChain 2 }, unheardState.2) :=
    fun _ => rfl
  have found := reachedNoting_played (fun _ => false) (.reconcile sampleAttempt) lands landed
  have landing : Landing true foundState := fun _ => chain_noting true _ _ _
  have reached : ReachedNoting Publications.numberingHost samplePlatform
      (FindsLatest Publications.numberingHost samplePlatform) provingLanded :=
    reachedNoting_played isProof posted landing (found.tail .stop)
  have stored : (recordOf provingLanded.1.1.file sampleAttempt).isSome = true := by decide +kernel
  obtain ⟨record, known⟩ := Option.isSome_iff_exists.mp stored
  have asking : (provingLanded.2.bind Service.pending) =
      (recordOf provingLanded.1.1.file sampleAttempt).map Request.recordProof := by
    decide +kernel
  rw [known] at asking
  exact ⟨record, asking, manifest_truthful Publications.numberingHost samplePlatform provingLanded
    reached _ rfl record asking⟩

end Sample

end OpenSocial.CrossPosts

/-
This file proves when a conflicted attempt is left alone.

Nothing is assumed of the answers: the chain, the indexer, the submissions and the
clock say anything, storing may fail, and an operation may be stopped anywhere. A
publication is never asked for a conflicted record. A proof is, when the conflict
reaches a record that already needs one: the user reports another link, or a
lookup contradicts the recorded post. In every run without such a contradiction no
proof is asked for a conflicted record either.
-/

import OpenSocial.CrossPosts.Manifests

namespace OpenSocial.CrossPosts

open Library Sdk Extension

/-! ### Contradictions -/

section Contradictions

variable {record : CrossPostRecord} {event : ReconcileEvent}

theorem contradicts_hostMove {side : HostSide} (contradicts : hostMove event side = .contradicts) :
    side.status = .notRequired ∨ ∃ known hostRef time, side.ref = some known ∧
      event = .hostSucceeded hostRef time ∧ known ≠ hostRef := by
  cases event with
  | hostSucceeded hostRef time =>
    unfold hostMove at contradicts
    dsimp only at contradicts
    split at contradicts
    · next absent => exact .inl absent
    · split at contradicts
      · next disagrees =>
        obtain ⟨known, filtered⟩ := Option.isSome_iff_exists.mp disagrees
        obtain ⟨found, other⟩ := Option.filter_eq_some_iff.mp filtered
        exact .inr ⟨known, hostRef, time, found, rfl, bne_iff_ne.mp other⟩
      · cases contradicts
  | hostFailed error time =>
    unfold hostMove at contradicts
    dsimp only at contradicts
    split at contradicts
    · next absent => exact .inl absent
    · split at contradicts
      · cases contradicts
      · cases contradicts
  | _ => cases contradicts

theorem contradicts_found {side : KoinosSide} {postId : Bytes} {txId : Option TransactionId}
    (contradicts : side.found postId txId = .contradicts) :
    ∃ known, side.postId = some known ∧ known ≠ postId := by
  unfold KoinosSide.found at contradicts
  split at contradicts
  · next disagrees =>
    obtain ⟨known, filtered⟩ := Option.isSome_iff_exists.mp disagrees
    obtain ⟨found, other⟩ := Option.filter_eq_some_iff.mp filtered
    exact ⟨known, found, bne_iff_ne.mp other⟩
  · cases contradicts

theorem missed_ne_contradicts (side : KoinosSide) (status : SideStatus) :
    side.missed status ≠ .contradicts := by
  unfold KoinosSide.missed
  split
  · exact fun same => by cases same
  · exact fun same => by cases same

theorem contradicts_koinosMove {side : KoinosSide}
    (contradicts : koinosMove event side = .contradicts) :
    side.status = .ok ∧ (∃ time, event = .lookupMissing time) ∨
      ∃ known postId txId, side.postId = some known ∧ event.found = some (postId, txId) ∧
        known ≠ postId := by
  cases event with
  | koinosSucceeded txId postId time =>
    obtain ⟨known, found, other⟩ := contradicts_found contradicts
    exact .inr ⟨known, postId, some txId, found, rfl, other⟩
  | lookupFound postId txId time =>
    obtain ⟨known, found, other⟩ := contradicts_found contradicts
    exact .inr ⟨known, postId, txId, found, rfl, other⟩
  | koinosFailed error time => exact absurd contradicts (missed_ne_contradicts side .failed)
  | koinosUnknown error time => exact absurd contradicts (missed_ne_contradicts side .unknown)
  | lookupMissing time =>
    unfold koinosMove at contradicts
    dsimp only at contradicts
    split at contradicts
    · next found => exact .inl ⟨found, time, rfl⟩
    · split at contradicts
      · cases contradicts
      · cases contradicts
  | _ => cases contradicts

/-- A host result leaves a settled record in a conflict only by contradicting the host side. -/
theorem host_contradicted (settled : record.state ≠ .reconcileRequired)
    (aboutHost : event.aboutHost = true)
    (conflicted : (transition record event).state = .reconcileRequired) :
    record.hostStatus = .notRequired ∨ ∃ known hostRef time, record.hostRef = some known ∧
      event = .hostSucceeded hostRef time ∧ known ≠ hostRef := by
  have ends : (transition record event).sides.status = .reconcileRequired := conflicted
  rw [sides_hostResult record record aboutHost] at ends
  exact contradicts_hostMove
    (Sides.contradicts_of_moveFirst (stateOfSides_settles record) settled ends)

/-- A Koinos result leaves a settled record in a conflict only by contradicting the Koinos side. -/
theorem koinos_contradicted (settled : record.state ≠ .reconcileRequired)
    (aboutKoinos : event.aboutKoinos = true)
    (conflicted : (transition record event).state = .reconcileRequired) :
    record.koinosStatus = .ok ∧ (∃ time, event = .lookupMissing time) ∨
      ∃ known postId txId, record.postId = some known ∧ event.found = some (postId, txId) ∧
        known ≠ postId := by
  have ends : (transition record event).sides.status = .reconcileRequired := conflicted
  rw [sides_koinosResult record record aboutKoinos] at ends
  exact contradicts_koinosMove
    (Sides.contradicts_of_moveSecond (stateOfSides_settles record) settled ends)

/-- Nothing about Koinos conflicts with a settled record that knows no post. -/
theorem unfound_settled (consistent : Consistent record) (unfound : record.koinosStatus ≠ .ok)
    (settled : record.state ≠ .reconcileRequired) (aboutKoinos : event.aboutKoinos = true) :
    (transition record event).state ≠ .reconcileRequired := by
  intro conflicted
  rcases koinos_contradicted settled aboutKoinos conflicted with
    ⟨found, _⟩ | ⟨known, postId, txId, stored, _⟩
  · exact unfound found
  · refine unfound (consistent.post.mp ?_)
    rw [stored]
    rfl

theorem retry_settled (settled : record.state ≠ .reconcileRequired) (time : ℕ) :
    (transition record (.retry time)).state ≠ .reconcileRequired := by
  unfold transition
  rw [if_neg settled]
  dsimp only
  split
  · exact settled
  · split
    · exact settled
    · exact CrossPostState.noConfusion

/-- What a record knows of its sides and how far it came. -/
structure SameFacts (record next : CrossPostRecord) : Prop where
  hostStatus : next.hostStatus = record.hostStatus
  koinosStatus : next.koinosStatus = record.koinosStatus
  hostRef : next.hostRef = record.hostRef
  postId : next.postId = record.postId

theorem finish_settled (record : CrossPostRecord) (time : ℕ) :
    (finish record time).state ≠ .reconcileRequired :=
  stateOfSides_settles record ⟨record.hostStatus, record.hostRef⟩
    ⟨record.koinosStatus, record.postId, record.koinosTxId⟩

/-- What ends in a conflict leaves both sides as they were. -/
theorem conflict_keeps (conflicted : (transition record event).state = .reconcileRequired) :
    SameFacts record (transition record event) := by
  have made := transition_cases record event
  generalize transition record event = after at made conflicted ⊢
  cases made with
  | stays => exact ⟨rfl, rfl, rfl, rfl⟩
  | conflicts time reason settled => exact ⟨rfl, rfl, rfl, rfl⟩
  | noted lastError time settled => exact ⟨rfl, rfl, rfl, rfl⟩
  | retried time settled unfinished known called => cases conflicted
  | hostSucceeded hostRef time settled required agrees called =>
    exact absurd conflicted (finish_settled _ _)
  | hostFailed error time settled required unreported called =>
    exact absurd conflicted (finish_settled _ _)
  | koinosMissed status lastError time settled unfound missed =>
    exact absurd conflicted (finish_settled _ _)
  | koinosFound postId txId lastError time settled reported agrees =>
    exact absurd conflicted (finish_settled _ _)

theorem consistent_same {next : CrossPostRecord} (consistent : Consistent record)
    (state : next.state = record.state) (same : SameFacts record next) : Consistent next where
  post := by
    rw [same.postId, same.koinosStatus]
    exact consistent.post
  host := by
    rw [same.hostRef, same.hostStatus]
    exact consistent.host
  fresh := by
    rw [state, same.koinosStatus, same.hostStatus]
    exact consistent.fresh
  derived := by
    rw [state, deriveState_congr same.hostStatus same.koinosStatus]
    exact consistent.derived

end Contradictions

/-! ### Records a proof may be asked for -/

section Records

variable {record next : StoredCrossPost} {current : CrossPostRecord}

/-- A record whose state is the one its sides give, and that is not conflicted while it needs a
proof. -/
structure Tidy (record : StoredCrossPost) : Prop where
  consistent : Consistent (baseRecord record)
  settled : needsProof record = true → record.state ≠ .reconcileRequired

/-- The record has this state and these sides, and the adapter and the proof it had. -/
structure Stands (record next : StoredCrossPost) (current : CrossPostRecord) : Prop where
  attemptId : next.attemptId = current.attemptId
  state : next.state = current.state
  facts : SameFacts current (baseRecord next)
  adapter : next.adapter = record.adapter
  proof : next.proof = record.proof

theorem stands_merge (record : StoredCrossPost) (current : CrossPostRecord) :
    Stands record (merge record current) current :=
  ⟨rfl, rfl, ⟨rfl, rfl, rfl, rfl⟩, rfl, rfl⟩

theorem stands_settle (record : StoredCrossPost) (current : CrossPostRecord) :
    Stands record (settle record current) current := by
  unfold settle
  dsimp only
  split <;> exact ⟨rfl, rfl, ⟨rfl, rfl, rfl, rfl⟩, rfl, rfl⟩

theorem stands_concluded (record : StoredCrossPost) (extra : Option AttemptFields)
    (current : CrossPostRecord) : Stands record (concluded record extra current) current := by
  have adapter : (withAttempt record extra).adapter = record.adapter := by
    cases extra <;> rfl
  have proof : (withAttempt record extra).proof = record.proof := by
    cases extra <;> rfl
  unfold concluded
  dsimp only
  split
  · exact ⟨rfl, rfl, ⟨rfl, rfl, rfl, rfl⟩, adapter, proof⟩
  · split <;> exact ⟨rfl, rfl, ⟨rfl, rfl, rfl, rfl⟩, adapter, proof⟩

theorem Stands.of_adopted {stored : StoredCrossPost}
    (stands : Stands record next (adoptPendingTx stored current)) :
    Stands record next current := by
  unfold adoptPendingTx at stands
  split at stands
  · obtain ⟨attemptId, state, ⟨host, koinos, ref, post⟩, adapter, proof⟩ := stands
    exact ⟨attemptId, state, ⟨host, koinos, ref, post⟩, adapter, proof⟩
  · exact stands

theorem tidy_of_settled (stands : Stands record next current) (consistent : Consistent current)
    (settled : current.state ≠ .reconcileRequired) : Tidy next where
  consistent := consistent_same consistent stands.state stands.facts
  settled _ := by
    rw [stands.state]
    exact settled

/-- Whether a proof is needed depends on the sides, the adapter and the proof. -/
theorem needsProof_same (stands : Stands record next current)
    (same : SameFacts (baseRecord record) current) : needsProof next = needsProof record := by
  have host : next.hostStatus = record.hostStatus := stands.facts.hostStatus.trans same.hostStatus
  have koinos : next.koinosStatus = record.koinosStatus :=
    stands.facts.koinosStatus.trans same.koinosStatus
  have post : next.postId = record.postId := stands.facts.postId.trans same.postId
  unfold needsProof
  rw [stands.adapter, stands.proof, host, koinos, post]

theorem tidy_of_unneeded (stands : Stands record next current) (consistent : Consistent current)
    (same : SameFacts (baseRecord record) current) (unneeded : needsProof record = false) :
    Tidy next where
  consistent := consistent_same consistent stands.state stands.facts
  settled needed := by
    rw [needsProof_same stands same, unneeded] at needed
    exact Bool.noConfusion needed

/-- A record follows another one of its attempt, in whose conflict it stays. -/
structure Succeeds (record next : StoredCrossPost) : Prop where
  attemptId : next.attemptId = record.attemptId
  absorbs : record.state = .reconcileRequired → next.state = .reconcileRequired

theorem succeeds_changed {event : ReconcileEvent}
    (stands : Stands record next (transition (baseRecord record) event)) :
    Succeeds record next where
  attemptId := stands.attemptId.trans (sameAttempt_transition _ event).attemptId
  absorbs conflicted := by
    rw [stands.state, (keeps_transition (baseRecord record) event).reconcile conflicted]
    exact conflicted

/-- A change of a tidy record that does not end in a conflict where the record needs a proof. -/
theorem tidy_changed {event : ReconcileEvent} (tidy : Tidy record)
    (stands : Stands record next (transition (baseRecord record) event))
    (agrees : needsProof record = true →
      (transition (baseRecord record) event).state ≠ .reconcileRequired) : Tidy next := by
  have consistent := tidy.consistent.transition event
  by_cases conflicted : (transition (baseRecord record) event).state = .reconcileRequired
  · refine tidy_of_unneeded stands consistent (conflict_keeps conflicted) ?_
    exact Bool.eq_false_iff.mpr fun needed => agrees needed conflicted
  · exact tidy_of_settled stands consistent conflicted

theorem tidy_drafted (input : Draft) (author : Option Address) (key : Bytes)
    (time createdAt : ℕ) : Tidy (drafted input author key time createdAt) :=
  tidy_of_settled ⟨rfl, rfl, ⟨rfl, rfl, rfl, rfl⟩, rfl, rfl⟩
    (consistent_newCrossPostRecord key input.attemptId input.hostSite input.audience time)
    CrossPostState.noConfusion

theorem tidy_withProof (tidy : Tidy record) (proof : ProofResult) (time : ℕ) :
    Tidy (withProof record proof time) where
  consistent := consistent_same tidy.consistent rfl ⟨rfl, rfl, rfl, rfl⟩
  settled needed := by
    have proven : needsProof (withProof record proof time) = false := Bool.and_false _
    rw [proven] at needed
    exact Bool.noConfusion needed

theorem tidy_unproven (tidy : Tidy record) (message : String) :
    Tidy { record with proofError := some message } :=
  ⟨consistent_same tidy.consistent rfl ⟨rfl, rfl, rfl, rfl⟩, tidy.settled⟩

end Records

/-! ### Storage under any answers -/

/-- The stored file, and whether the last lookup on the chain named a post. -/
structure Storage where
  file : List StoredCrossPost
  named : Bool

/-- The answer names a post. -/
def namesPost (answer : Except String (Option Bytes)) : Bool :=
  match answer with
  | .ok found => (found.filter fun postId => postId != []).isSome
  | .error _ => false

/-- How the storage answers: it returns the file as it is stored, and storing may fail after it
wrote. Everyone else answers anything. -/
def answers (storage : Storage) : (request : Request) → Answer request → Storage → Prop
  | .load, answer, after => after = storage ∧ ∀ file, answer = .ok file → file = storage.file
  | .save file, answer, after => after.named = storage.named ∧
    (after.file = file ∨ after.file = storage.file) ∧ (answer = .ok () → after.file = file)
  | .lookupChain _ _ _, answer, after => after = { storage with named := namesPost answer }
  | .now, _, after => after = storage
  | .account, _, after => after = storage
  | .publishKoinos _, _, after => after = storage
  | .lookupIndexer _ _, _, after => after = storage
  | .recordProof _, _, after => after = storage

/-- Only the orchestrator writes its storage. -/
def anyAnswers : Service Request Answer Storage where
  drift storage later := later = storage
  serve := answers
  drift_refl _ := rfl
  drift_trans _ _ _ first second := second.trans first

/-- A lookup for a record that needs a proof finds its post: on the chain, or, when the chain names
none, at the indexer. -/
def Confirms (storage : Storage) : (request : Request) → Answer request → Prop
  | .lookupChain record _ _, answer => needsProof record = true → ∀ postId,
    answer = .ok (some postId) → postId ≠ [] → record.postId = some postId
  | .lookupIndexer _ record, answer => needsProof record = true → storage.named = false →
    ∀ hit, answer = .ok hit → ∃ found, hit = some found ∧ record.postId = some found.postId
  | _, _ => True

/-- A record that needs a proof is marked as posted with the link it has. -/
def SameLink (platform : Platform) (file : List StoredCrossPost) : Operation → Prop
  | .markHost attemptId .posted detail => ∀ record, recordOf file attemptId = some record →
    needsProof record = true → hostRefProblem platform record detail = none →
      ∀ known, record.hostRef = some known → known = detail.getD ""
  | _ => True

/-- The background starts operations; with a condition on the stored file. -/
def StartsOn (platform : Platform) (condition : List StoredCrossPost → Operation → Prop)
    (storage : Storage) (program : Action Unit) : Prop :=
  ∃ operation, program = perform platform operation ∧ condition storage.file operation

/-! ### What the operations ask -/

/-- Every stored record is tidy. -/
def AllTidy (file : List StoredCrossPost) : Prop :=
  ∀ attemptId record, recordOf file attemptId = some record → Tidy record

/-- Every record in the storage is tidy. -/
def Storage.Tidy (storage : Storage) : Prop := AllTidy storage.file

/-- An attempt that is conflicted and stays is still conflicted. -/
def Absorbs (file after : List StoredCrossPost) : Prop :=
  ∀ attemptId record next, recordOf file attemptId = some record →
    record.state = .reconcileRequired → recordOf after attemptId = some next →
      next.state = .reconcileRequired

/-- What may be asked: no chain write for a conflicted record, and no end of a conflict. -/
def calm (storage : Storage) : Request → Prop
  | .save file => AllTidy file ∧ Absorbs storage.file file
  | .publishKoinos record => record.state ≠ .reconcileRequired
  | .recordProof record => record.state ≠ .reconcileRequired
  | _ => True

section Asking

variable {platform : Platform} {storage : Storage} {file : List StoredCrossPost}
  {record next : StoredCrossPost} {Value : Type} {post : Value → Storage → Prop}

/-- The program asks only what is calm while every lookup confirms what is proven. -/
abbrev Calm (post : Value → Storage → Prop) (program : Action Value) (storage : Storage) : Prop :=
  (anyAnswers.restrict Confirms).Obeys Storage.Tidy calm post program storage

/-- Nothing is said of what a part returns. -/
abbrev Whatever {Value : Type} : Value → Storage → Prop := fun _ _ => True

theorem calm_now {next : ℕ → Action Value}
    (after : ∀ time, Calm post (next time) storage) : Calm post (now >>= next) storage := by
  refine .query_seq (fun _ _ _ => trivial) ?_
  intro later time last value drifts _ served _ read
  obtain rfl : later = storage := drifts
  obtain rfl : last = later := served.1
  exact after value

theorem calm_account {next : Option Address → Action Value}
    (after : ∀ signedIn, Calm post (next signedIn) storage) :
    Calm post (account >>= next) storage := by
  refine .query_seq (fun _ _ _ => trivial) ?_
  intro later answer last value drifts _ served _ read
  obtain rfl : later = storage := drifts
  obtain rfl : last = later := served.1
  exact after value

theorem calm_load {next : List StoredCrossPost → Action Value}
    (after : storage.Tidy → Calm post (next storage.file) storage) :
    Calm post (load >>= next) storage := by
  refine .query_seq (fun _ _ _ => trivial) ?_
  intro later answer last value drifts tidy served _ read
  obtain rfl : later = storage := drifts
  obtain ⟨rfl, loaded⟩ := served.1
  cases answer with
  | error message => cases read
  | ok file =>
    obtain rfl := Except.ok.inj read
    rw [loaded file rfl]
    exact after tidy

/-- An operation holds the file as it is stored, and a tidy record that stands in it unless it was
dropped. -/
structure Held (storage : Storage) (file : List StoredCrossPost) (record : StoredCrossPost) :
    Prop where
  loaded : storage.file = file
  stored : ∀ other, recordOf file record.attemptId = some other → other = record
  tidy : Tidy record

theorem calm_save {after : List StoredCrossPost} (tidy : AllTidy after)
    (absorbs : Absorbs storage.file after) :
    Calm (fun written later => later.file = written ∧ ∀ attemptId record,
        recordOf written attemptId = some record → recordOf after attemptId = some record)
      (save after) storage := by
  refine .query_seq ?_ ?_
  · intro later drifts _
    rw [show later = storage from drifts]
    refine ⟨fun attemptId record found => ?_, fun attemptId record next before required found => ?_⟩
    · exact tidy attemptId record (recordOf_trimmed after found)
    · exact absorbs attemptId record next before required (recordOf_trimmed after found)
  · intro later answer last value _ _ served _ read
    obtain ⟨⟨_, _, written⟩, _⟩ := served
    have stored : answer = .ok () := by
      cases answer with
      | error message => cases read
      | ok done => rfl
    refine .done fun final further _ => ⟨?_, fun attemptId record => recordOf_trimmed after⟩
    rw [show final = last from further]
    exact written stored

/-- Storing a tidy record that follows the one that is held. -/
theorem calm_update {rest : List StoredCrossPost → Action Value} (kept : storage.Tidy)
    (held : Held storage file record) (one : Tidy next) (follows : Succeeds record next)
    (after : ∀ file later, later.Tidy → Held later file next → Calm post (rest file) later) :
    Calm post (update file next >>= rest) storage := by
  refine .seq kept (calm_save ?_ ?_) fun written later still told => ?_
  · intro attemptId other found
    rw [recordOf_replaced] at found
    split at found
    · obtain rfl := Option.some.inj found
      exact one
    · refine kept attemptId other ?_
      rw [held.loaded]
      exact found
  · intro attemptId before other found required written
    rw [held.loaded] at found
    rw [recordOf_replaced] at written
    split at written
    · next same =>
      obtain rfl := Option.some.inj written
      rw [← same, follows.attemptId] at found
      obtain rfl := held.stored before found
      exact follows.absorbs required
    · obtain rfl := Option.some.inj (found.symm.trans written)
      exact required
  · refine after written later still ⟨told.1, fun other found => ?_, one⟩
    have put := told.2 _ _ found
    rw [recordOf_replaced, if_pos rfl] at put
    exact (Option.some.inj put).symm

theorem calm_maybeProof (held : Held storage file record) :
    Calm Whatever (maybeProof file record) storage := by
  unfold maybeProof
  split
  · next needed =>
    refine .query_seq (fun _ _ _ => held.tidy.settled needed) ?_
    intro later answer last value drifts _ served kept read
    obtain rfl := Except.ok.inj read
    have same : last.file = storage.file := by
      rw [show last = later from served.1, show later = storage from drifts]
    have held' : Held last file record := ⟨same.trans held.loaded, held.stored, held.tidy⟩
    cases answer with
    | ok proof =>
      refine calm_now fun time => ?_
      exact calm_update kept held' (tidy_withProof held.tidy proof time) ⟨rfl, id⟩
        fun _ _ _ _ => .done fun _ _ _ => trivial
    | error message =>
      exact calm_update kept held' (tidy_unproven held.tidy message) ⟨rfl, id⟩
        fun _ _ _ _ => .done fun _ _ _ => trivial
  · exact .done fun _ _ _ => trivial

/-- Storing a tidy record, and then its proof. -/
theorem calm_update_proof (kept : storage.Tidy) (held : Held storage file record)
    (one : Tidy next) (follows : Succeeds record next) :
    Calm Whatever (update file next >>= fun file => maybeProof file next) storage :=
  calm_update kept held one follows fun _ _ _ stored => calm_maybeProof stored

/-- How a lookup ends: with the recorded post, or with anything where no proof is needed. -/
inductive Answered (record : StoredCrossPost) (current : CrossPostRecord) :
    CrossPostRecord → Prop
  | found (postId : Bytes) (txId : Option TransactionId) (time : ℕ)
      (confirmed : needsProof record = true → record.postId = some postId) :
      Answered record current (transition current (.lookupFound postId txId time))
  | missing (time : ℕ) (unneeded : needsProof record = false) :
      Answered record current (transition current (.lookupMissing time))

theorem calm_lookup {current : CrossPostRecord} {author : Bytes} :
    Calm (fun looked later => later.file = storage.file ∧ Answered record current looked)
      (lookup record current author) storage := by
  unfold lookup Sdk.lookup
  refine calm_now fun time => .query_seq (fun _ _ _ => trivial) ?_
  intro asked answer answered found drifts _ served kept read
  obtain ⟨same, confirms⟩ := served
  have named : answered.named = namesPost answer := congrArg Storage.named same
  obtain rfl : asked = storage := drifts
  have file : answered.file = asked.file := by
    rw [show answered = { asked with named := namesPost answer } from same]
  cases answer with
  | error message => cases read
  | ok reply =>
    obtain rfl := Except.ok.inj read
    unfold namesPost at named
    dsimp only at named
    cases present : reply.filter fun found => found != [] with
    | some postId =>
      refine .query_seq (fun _ _ _ => trivial) ?_
      intro indexing indexed last hit drifts' _ served' _ _
      obtain rfl : indexing = answered := drifts'
      obtain rfl : last = indexing := served'.1
      refine .done fun final further _ => ⟨?_, .found postId _ time fun needed => ?_⟩
      · rw [show final = last from further]
        exact file
      · obtain ⟨rfl, nonempty⟩ := Option.filter_eq_some_iff.mp present
        exact confirms needed postId rfl (bne_iff_ne.mp nonempty)
    | none =>
      rw [present] at named
      refine .query_seq (fun _ _ _ => trivial) ?_
      intro indexing indexed last hit drifts' _ served' _ read'
      obtain rfl : indexing = answered := drifts'
      obtain ⟨same', confirms'⟩ := served'
      obtain rfl : last = indexing := same'
      cases indexed with
      | error message => cases read'
      | ok indexed =>
        obtain rfl := Except.ok.inj read'
        cases indexed with
        | none =>
          refine .done fun final further _ => ⟨?_, .missing time ?_⟩
          · rw [show final = last from further]
            exact file
          · refine Bool.eq_false_iff.mpr fun needed => ?_
            obtain ⟨found, impossible, _⟩ := confirms' needed named none rfl
            cases impossible
        | some hit =>
          refine .done fun final further _ => ⟨?_, .found hit.postId _ time fun needed => ?_⟩
          · rw [show final = last from further]
            exact file
          · obtain ⟨found, same, stored⟩ := confirms' needed named (some hit) rfl
            obtain rfl := Option.some.inj same
            exact stored

theorem Answered.eq_transition {current looked : CrossPostRecord}
    (answered : Answered record current looked) : ∃ event, looked = transition current event ∧
      event.aboutKoinos = true ∧ (needsProof record = true → ∃ postId txId,
        event.found = some (postId, txId) ∧ record.postId = some postId) := by
  cases answered with
  | found postId txId time confirmed =>
    exact ⟨_, rfl, rfl, fun needed => ⟨postId, txId, rfl, confirmed needed⟩⟩
  | missing time unneeded =>
    refine ⟨_, rfl, rfl, fun needed => ?_⟩
    rw [unneeded] at needed
    exact Bool.noConfusion needed

theorem Answered.settled {current looked : CrossPostRecord}
    (answered : Answered record current looked) (consistent : Consistent current)
    (unfound : current.koinosStatus ≠ .ok) (settled : current.state ≠ .reconcileRequired) :
    Consistent looked ∧ looked.state ≠ .reconcileRequired := by
  obtain ⟨event, rfl, aboutKoinos, _⟩ := answered.eq_transition
  exact ⟨consistent.transition event, unfound_settled consistent unfound settled aboutKoinos⟩

end Asking

/-! ### The operations -/

section Operations

variable {platform : Platform} {storage : Storage} {file : List StoredCrossPost}
  {record : StoredCrossPost}

theorem Held.later {later : Storage} (held : Held storage file record)
    (same : later.file = storage.file) : Held later file record :=
  ⟨same.trans held.loaded, held.stored, held.tidy⟩

/-- A record that is in no conflict may be followed by any record of its attempt. -/
theorem succeeds_settled {next : StoredCrossPost} (same : next.attemptId = record.attemptId)
    (settled : record.state ≠ .reconcileRequired) : Succeeds record next :=
  ⟨same, fun conflicted => absurd conflicted settled⟩

theorem calm_concluded {event : ReconcileEvent} (kept : storage.Tidy)
    (held : Held storage file record) (unpublished : record.koinosStatus ≠ .ok)
    (settled : record.state ≠ .reconcileRequired) (aboutKoinos : event.aboutKoinos = true)
    (extra : Option AttemptFields) :
    Calm Whatever (conclude file record extra (transition (baseRecord record) event)) storage := by
  have stands := stands_concluded record extra (transition (baseRecord record) event)
  refine calm_update_proof kept held (tidy_of_settled stands ?_ ?_) (succeeds_changed stands)
  · exact held.tidy.consistent.transition event
  · exact unfound_settled held.tidy.consistent unpublished settled aboutKoinos

/-- A failed submission does not find the post. -/
theorem unfound_of_silent {current : CrossPostRecord} {event : ReconcileEvent}
    (unfound : current.koinosStatus ≠ .ok) (silent : event.found = none) :
    (transition current event).koinosStatus ≠ .ok := by
  cases koinos_step current event with
  | kept post txId status => exact fun found => unfound (status.mp found)
  | found postId txId reported =>
    exact absurd (silent.symm.trans reported) (Option.some_ne_none _).symm

theorem calm_publish (held : Held storage file record)
    (unpublished : record.koinosStatus ≠ .ok) (settled : record.state ≠ .reconcileRequired) :
    Calm Whatever (publish file record) storage := by
  refine .query_seq (fun _ _ _ => settled) ?_
  intro later answer last value drifts _ served kept read
  obtain rfl := Except.ok.inj read
  have same : last.file = storage.file := by
    rw [show last = later from served.1, show later = storage from drifts]
  have held' := held.later same
  cases answer with
  | ok outcome =>
    exact calm_now fun time => calm_concluded kept held' unpublished settled rfl _
  | error error =>
    refine calm_now fun time => ?_
    dsimp only
    cases (classifySubmitError error).kind with
    | unknown => exact calm_concluded kept held' unpublished settled rfl _
    | failed => exact calm_concluded kept held' unpublished settled rfl _
    | duplicate =>
      refine .seq kept calm_lookup fun looked final still told => ?_
      have consistent := held.tidy.consistent
      obtain ⟨event, same', _⟩ := told.2.eq_transition
      obtain ⟨found, calm⟩ := told.2.settled (consistent.transition _)
        (unfound_of_silent unpublished rfl) (unfound_settled consistent unpublished settled rfl)
      have stands := (stands_concluded record (failureFields (classifySubmitError error))
        (adoptPendingTx (withAttempt record (failureFields (classifySubmitError error)))
          looked)).of_adopted
      refine calm_update_proof still (held'.later told.1) (tidy_of_settled stands found calm)
        (succeeds_settled (stands.attemptId.trans ?_) settled)
      rw [same', (sameAttempt_transition _ event).attemptId]
      exact (sameAttempt_transition (baseRecord record) _).attemptId

/-- Loading the file and finding the attempt's record in it. -/
theorem calm_record {Value : Type} {post : Value → Storage → Prop} {attemptId : Bytes}
    {next : List StoredCrossPost → StoredCrossPost → Action Value}
    (after : ∀ record, storage.Tidy → Held storage storage.file record →
      recordOf storage.file attemptId = some record →
      Calm post (next storage.file record) storage) :
    Calm post (load >>= fun file => find file attemptId >>= next file) storage := by
  refine calm_load fun tidy => ?_
  unfold find
  cases found : recordOf storage.file attemptId with
  | none => trivial
  | some record =>
    refine after record tidy ⟨rfl, fun other stored => ?_, tidy attemptId record found⟩ found
    rw [recordOf_attemptId found, found] at stored
    exact (Option.some.inj stored).symm

theorem calm_requireAuthor {Value : Type} {post : Value → Storage → Prop} {message : String}
    {next : Address → Action Value} (kept : storage.Tidy)
    (after : ∀ author, Calm post (next author) storage) :
    Calm post (requireAuthor record message >>= next) storage := by
  have signed : Calm (fun _ later => later = storage) (requireAuthor record message) storage := by
    refine calm_account fun signedIn => ?_
    cases signedIn with
    | none => trivial
    | some author =>
      dsimp only
      split
      · exact .done fun _ further _ => further
      · trivial
  refine .seq kept signed fun author later _ same => ?_
  rw [same]
  exact after author

/-- Submitting a draft for the first time; what was loaded differs from it in the fields that the
confirmation filled in. -/
theorem calm_submit {prepared : StoredCrossPost} (kept : storage.Tidy)
    (held : Held storage file record) (one : Tidy prepared)
    (same : prepared.attemptId = record.attemptId) (draft : prepared.state = .draft)
    (settled : record.state ≠ .reconcileRequired) (time : ℕ) :
    Calm Whatever
      (update file (merge prepared (transition (baseRecord prepared) (.retry time))) >>=
        fun file => publish file
          (merge prepared (transition (baseRecord prepared) (.retry time)))) storage := by
  have calm : (transition (baseRecord prepared) (.retry time)).state ≠ .reconcileRequired := by
    refine retry_settled ?_ time
    intro conflicted
    cases draft.symm.trans conflicted
  have stands := stands_merge prepared (transition (baseRecord prepared) (.retry time))
  refine calm_update kept held
    (tidy_of_settled stands (one.consistent.transition (.retry time)) calm)
    (succeeds_settled ((succeeds_changed stands).attemptId.trans same) settled)
    fun file later still stored => ?_
  refine calm_publish stored ?_ calm
  have pending : prepared.koinosStatus = .pending := (one.consistent.fresh draft).1
  refine unfound_of_silent (fun ok => ?_) rfl
  exact SideStatus.noConfusion (pending.symm.trans ok)

theorem calm_confirm (attemptId : Bytes) (audience : Option ℕ) :
    Calm Whatever (confirm platform attemptId audience) storage := by
  refine calm_record fun record kept held _ => ?_
  dsimp only
  split
  · trivial
  next draft =>
  rw [not_not] at draft
  refine calm_requireAuthor kept fun author => .lift_seq fun key _ => calm_now fun time => ?_
  have prepared : Tidy { record with
      author := some author
      audience := audience.getD record.audience
      idempotencyKey := key } :=
    ⟨consistent_same held.tidy.consistent rfl ⟨rfl, rfl, rfl, rfl⟩, held.tidy.settled⟩
  have settled : record.state ≠ .reconcileRequired := by
    intro conflicted
    cases draft.symm.trans conflicted
  exact calm_submit kept held prepared rfl draft settled time

theorem calm_resume {current : CrossPostRecord} (kept : storage.Tidy)
    (held : Held storage file record) (consistent : Consistent current)
    (same : current.attemptId = record.attemptId)
    (settled : record.state ≠ .reconcileRequired) (calm : current.state ≠ .reconcileRequired) :
    Calm Whatever (resume file record current) storage := by
  refine calm_now fun time => ?_
  have retried := retry_settled calm time
  have stands := stands_merge record (transition current (.retry time))
  have one := tidy_of_settled stands (consistent.transition (.retry time)) retried
  have follows : Succeeds record (merge record (transition current (.retry time))) := by
    refine succeeds_settled (stands.attemptId.trans ?_) settled
    exact (sameAttempt_transition current _).attemptId.trans same
  refine calm_update kept held one follows fun file later still stored => ?_
  split
  · next planned =>
    split
    · trivial
    obtain ⟨_, unfound, _⟩ := (retryPlan_koinos current).mp planned
    exact calm_publish stored (unfound_of_silent unfound rfl) retried
  · exact .done fun _ _ _ => trivial

theorem calm_retry (attemptId : Bytes) : Calm Whatever (retry attemptId) storage := by
  refine calm_record fun record kept held _ => calm_now fun time => ?_
  split
  · trivial
  next available =>
  have settled : record.state ≠ .reconcileRequired := by
    intro conflicted
    refine available ?_
    simp [actions, conflicted]
  refine calm_requireAuthor kept fun author => ?_
  dsimp only
  split
  · next unknown =>
    refine .seq kept calm_lookup fun looked later still told => ?_
    obtain ⟨event, same, _⟩ := told.2.eq_transition
    obtain ⟨consistent, calm⟩ := told.2.settled held.tidy.consistent
      (fun found => SideStatus.noConfusion (unknown.symm.trans found)) settled
    have attempt : looked.attemptId = record.attemptId := by
      rw [same]
      exact (sameAttempt_transition (baseRecord record) event).attemptId
    split
    · have stands := (stands_settle record (adoptPendingTx record looked)).of_adopted
      exact calm_update_proof still (held.later told.1) (tidy_of_settled stands consistent calm)
        (succeeds_settled (stands.attemptId.trans attempt) settled)
    · refine calm_resume still (held.later told.1) ?_ ?_ settled ?_
      · unfold adoptPendingTx
        split
        · exact consistent_same consistent rfl ⟨rfl, rfl, rfl, rfl⟩
        · exact consistent
      · unfold adoptPendingTx
        split
        · exact attempt
        · exact attempt
      · unfold adoptPendingTx
        split
        · exact calm
        · exact calm
  · exact calm_resume kept held held.tidy.consistent rfl settled settled

theorem calm_authorOf {Value : Type} {post : Value → Storage → Prop}
    {next : Address → Action Value} (kept : storage.Tidy)
    (after : ∀ author, Calm post (next author) storage) :
    Calm post (authorOf record >>= next) storage := by
  have signed : Calm (fun _ later => later = storage) (authorOf record) storage := by
    unfold authorOf
    cases record.author with
    | some author => exact .done fun _ further _ => further
    | none =>
      refine calm_account fun signedIn => ?_
      cases signedIn with
      | none => trivial
      | some author => exact .done fun _ further _ => further
  refine .seq kept signed fun author later _ same => ?_
  rw [same]
  exact after author

/-- An interrupted submission is a record without its post; any other is looked up as it is. -/
theorem interrupted_cases (one : Tidy record) (key : Bytes) (time later : ℕ) :
    (interrupted record key time later).attemptId = record.attemptId ∧
    Consistent (interrupted record key time later) ∧
    (interrupted record key time later = { baseRecord record with idempotencyKey := key } ∨
      record.state ≠ .reconcileRequired ∧
        (interrupted record key time later).koinosStatus ≠ .ok ∧
        (interrupted record key time later).state ≠ .reconcileRequired) := by
  have base : Consistent { baseRecord record with idempotencyKey := key } :=
    consistent_same one.consistent rfl ⟨rfl, rfl, rfl, rfl⟩
  unfold interrupted
  dsimp only
  split
  · next stale =>
    have unfound : record.koinosStatus ≠ .ok := by
      intro found
      exact SideStatus.noConfusion (stale.2.2.symm.trans found)
    have settled : record.state ≠ .reconcileRequired := by
      intro conflicted
      exact CrossPostState.noConfusion (stale.1.symm.trans conflicted)
    exact ⟨(sameAttempt_transition _ _).attemptId, base.transition _, .inr ⟨settled,
      unfound_of_silent unfound rfl, unfound_settled base unfound settled rfl⟩⟩
  · exact ⟨rfl, base, .inl rfl⟩

/-- What a lookup for an interrupted or another record leaves. -/
theorem tidy_reconciled {key : Bytes} {time later : ℕ} {looked : CrossPostRecord}
    {next : StoredCrossPost} (one : Tidy record)
    (answered : Answered record (interrupted record key time later) looked)
    (stands : Stands record next looked) : Tidy next ∧ Succeeds record next := by
  obtain ⟨attempt, base, same | ⟨settled, unfound, calm⟩⟩ := interrupted_cases one key time later
  · obtain ⟨event, rfl, aboutKoinos, confirms⟩ := answered.eq_transition
    rw [same] at stands base
    have follows : Succeeds record next := by
      refine ⟨stands.attemptId.trans (sameAttempt_transition _ event).attemptId,
        fun conflicted => ?_⟩
      have absorbed := (keeps_transition { baseRecord record with idempotencyKey := key }
        event).reconcile conflicted
      rw [stands.state, absorbed]
      exact conflicted
    refine ⟨?_, follows⟩
    by_cases conflicted : (transition { baseRecord record with idempotencyKey := key }
        event).state = .reconcileRequired
    · obtain ⟨host, koinos, ref, post⟩ := conflict_keeps conflicted
      refine tidy_of_unneeded stands (base.transition event) ⟨host, koinos, ref, post⟩ ?_
      refine Bool.eq_false_iff.mpr fun needed => ?_
      obtain ⟨postId, txId, reported, stored⟩ := confirms needed
      have settled : { baseRecord record with idempotencyKey := key }.state ≠
          .reconcileRequired := one.settled needed
      rcases koinos_contradicted settled aboutKoinos conflicted with
        ⟨_, time, rfl⟩ | ⟨known, other, txId, found, told, disagrees⟩
      · cases reported
      · obtain ⟨rfl, _⟩ := Prod.mk.inj (Option.some.inj (reported.symm.trans told))
        exact disagrees (Option.some.inj (found.symm.trans stored))
    · exact tidy_of_settled stands (base.transition event) conflicted
  · -- an interrupted submission knows no post, so the lookup contradicts nothing
    obtain ⟨consistent, found⟩ := answered.settled base unfound calm
    obtain ⟨event, rfl, _⟩ := answered.eq_transition
    refine ⟨tidy_of_settled stands consistent found, succeeds_settled ?_ settled⟩
    exact (stands.attemptId.trans (sameAttempt_transition _ event).attemptId).trans attempt

theorem calm_reconcile (attemptId : Bytes) :
    Calm Whatever (reconcile platform attemptId) storage := by
  refine calm_record fun record kept held _ => calm_authorOf kept fun author =>
    .lift_seq fun key _ => calm_now fun time => calm_now fun later => ?_
  dsimp only
  split
  · exact .done fun _ _ _ => trivial
  refine .seq kept calm_lookup fun looked last still told => ?_
  have stands : Stands record (settle { record with
      author := some author
      idempotencyKey := (adoptPendingTx record looked).idempotencyKey }
      (adoptPendingTx record looked)) looked := by
    obtain ⟨attempt, state, facts, adapter, proof⟩ := (stands_settle { record with
      author := some author
      idempotencyKey := (adoptPendingTx record looked).idempotencyKey }
      (adoptPendingTx record looked)).of_adopted
    exact ⟨attempt, state, facts, adapter, proof⟩
  obtain ⟨one, follows⟩ := tidy_reconciled held.tidy told.2 stands
  exact calm_update_proof still (held.later told.1) one follows

theorem calm_markHost (attemptId : Bytes) (outcome : HostOutcome) (detail : Option String)
    (same : SameLink platform storage.file (.markHost attemptId outcome detail)) :
    Calm Whatever (markHost platform attemptId outcome detail) storage := by
  refine calm_record fun record kept held found => ?_
  dsimp only
  split
  · trivial
  next required =>
  split
  · trivial
  refine calm_now fun time => .lift_seq fun event made => ?_
  have stands := stands_merge record (transition (baseRecord record) event)
  refine calm_update_proof kept held (tidy_changed held.tidy stands fun needed => ?_)
    (succeeds_changed stands)
  have settled := held.tidy.settled needed
  intro conflicted
  cases outcome with
  | posted =>
    unfold hostEvent at made
    dsimp only at made
    split at made
    · cases made
    next valid =>
    obtain rfl := Except.ok.inj made
    rcases host_contradicted settled rfl conflicted with
      absent | ⟨known, hostRef, time, stored, reported, disagrees⟩
    · exact required absent
    · obtain ⟨rfl, _⟩ := ReconcileEvent.hostSucceeded.inj reported
      exact disagrees (same record found needed valid known stored)
  | failed =>
    obtain rfl := Except.ok.inj made
    rcases host_contradicted settled rfl conflicted with
      absent | ⟨known, hostRef, time, stored, reported, disagrees⟩
    · exact required absent
    · cases reported

theorem calm_recordProof (attemptId : Bytes) :
    Calm Whatever (recordProof attemptId) storage := by
  refine calm_record fun record _ held _ => ?_
  split
  · trivial
  · exact calm_maybeProof held

theorem calm_discard (attemptId : Bytes) :
    Calm (fun _ _ => True) (discard attemptId) storage := by
  refine calm_load fun tidy => ?_
  cases recordOf storage.file attemptId with
  | none => exact .done fun _ _ _ => trivial
  | some record =>
    refine calm_now fun time => ?_
    split
    · trivial
    have kept_of : ∀ other stored, recordOf
        (storage.file.filter fun stored => stored.attemptId != attemptId) other = some stored →
        recordOf storage.file other = some stored := by
      intro other stored found
      rw [recordOf_filter storage.file fun stored => stored != attemptId] at found
      split at found
      · exact found
      · cases found
    refine .seq tidy (calm_save ?_ ?_) fun _ _ _ _ => .done fun _ _ _ => trivial
    · exact fun other stored found => tidy other stored (kept_of other stored found)
    · intro other before next found required written
      obtain rfl := Option.some.inj (found.symm.trans (kept_of other next written))
      exact required

theorem calm_enqueue (input : Draft) : Calm Whatever (enqueue platform input) storage := by
  refine calm_load fun tidy => ?_
  cases absent : recordOf storage.file input.attemptId with
  | some existing => exact .done fun _ _ _ => trivial
  | none =>
    have made : Calm (fun record later => later = storage ∧ record.attemptId = input.attemptId ∧
        Tidy record) (fresh platform input) storage := by
      refine calm_account fun author => .lift_seq fun key _ => calm_now fun time =>
        calm_now fun createdAt => ?_
      exact .done fun _ further _ => ⟨further, rfl, tidy_drafted input author key time createdAt⟩
    refine .seq tidy made fun record later _ told => ?_
    obtain ⟨rfl, named, one⟩ := told
    -- no record of the attempt is stored, so the draft follows itself
    have held : Held later later.file record := by
      refine ⟨rfl, fun other stored => ?_, one⟩
      rw [named, absent] at stored
      cases stored
    exact calm_update tidy held one ⟨rfl, id⟩ fun _ _ _ _ => .done fun _ _ _ => trivial

theorem calm_reconcileEach (attemptIds : List Bytes) (kept : storage.Tidy) :
    Calm (fun _ _ => True) (reconcileEach platform attemptIds) storage := by
  induction attemptIds generalizing storage with
  | nil => exact .done fun _ _ _ => trivial
  | cons attemptId rest inductionHypothesis =>
    exact .attempt_seq kept (calm_reconcile attemptId)
      fun _ later still _ => inductionHypothesis still

/-- Every operation asks only what is calm. -/
theorem calm_perform (operation : Operation) (kept : storage.Tidy)
    (same : SameLink platform storage.file operation) :
    Calm (fun _ _ => True) (perform platform operation) storage := by
  have quiet : ∀ {program : Action StoredCrossPost}, Calm Whatever program storage →
      Calm (fun _ _ => True) (program >>= fun _ => (Program.done () : Action Unit)) storage :=
    fun asks => .seq kept asks fun _ _ _ _ => .done fun _ _ _ => trivial
  cases operation with
  | propose payload => exact quiet (calm_enqueue _)
  | create payload attemptId => exact quiet (calm_enqueue _)
  | confirm attemptId audience => exact quiet (calm_confirm attemptId audience)
  | retry attemptId => exact quiet (calm_retry attemptId)
  | reconcile attemptId => exact quiet (calm_reconcile attemptId)
  | markHost attemptId outcome detail => exact quiet (calm_markHost attemptId outcome detail same)
  | recordProof attemptId => exact quiet (calm_recordProof attemptId)
  | discard attemptId => exact calm_discard attemptId
  | sweep =>
    exact calm_load fun tidy => calm_now fun time => calm_reconcileEach _ tidy

end Operations

/-! ### Every run -/

/-- A configuration of the orchestrator and its storage. -/
abbrev Running := Service.Configuration Request Answer Storage CrossPostFailure Unit

/-- A publication or a proof of this record is about to be asked for. -/
def AboutToWrite (configuration : Running) (record : StoredCrossPost) : Prop :=
  ∃ program, configuration.2 = some program ∧
    (Service.pending program = some (.publishKoinos record) ∨
      Service.pending program = some (.recordProof record))

section Runs

variable (platform : Platform) (configuration : Running)

/-- What is stored stays tidy, and no conflict ends. -/
theorem tidy_served {storage after : Storage} {request : Request} {answer : Answer request}
    (tidy : storage.Tidy) (asks : calm storage request)
    (served : answers storage request answer after) :
    after.Tidy ∧ Absorbs storage.file after.file := by
  have same : Absorbs storage.file storage.file := by
    intro attemptId record next before required found
    obtain rfl := Option.some.inj (before.symm.trans found)
    exact required
  cases request with
  | save file =>
    unfold Storage.Tidy
    rcases served.2.1 with written | kept
    · rw [written]
      exact asks
    · rw [kept]
      exact ⟨tidy, same⟩
  | load =>
    rw [show after = storage from served.1]
    exact ⟨tidy, same⟩
  | lookupChain record author key =>
    rw [show after = { storage with named := namesPost answer } from served]
    exact ⟨tidy, same⟩
  | now =>
    rw [show after = storage from served]
    exact ⟨tidy, same⟩
  | account =>
    rw [show after = storage from served]
    exact ⟨tidy, same⟩
  | publishKoinos record =>
    rw [show after = storage from served]
    exact ⟨tidy, same⟩
  | lookupIndexer author record =>
    rw [show after = storage from served]
    exact ⟨tidy, same⟩
  | recordProof record =>
    rw [show after = storage from served]
    exact ⟨tidy, same⟩

/-- Every such run keeps its file tidy and asks only what is calm. -/
theorem calm_reached {platform : Platform} {configuration : Running}
    (reached : (anyAnswers.restrict Confirms).Admits (StartsOn platform (SameLink platform))
      ⟨[], false⟩ configuration) :
    configuration.1.Tidy ∧ ∀ program, configuration.2 = some program →
      Calm (fun _ _ => True) program configuration.1 := by
  refine Service.invariant_admitted ?_ ?_ ?_ ?_ reached
  · intro storage later kept drifts
    rw [show later = storage from drifts]
    exact kept
  · exact fun storage request answer after kept asks served => (tidy_served kept asks served.1).1
  · rintro program storage ⟨operation, rfl, same⟩ kept
    exact calm_perform operation kept same
  · intro attemptId record stored
    cases stored

/-- In every run from an empty storage, whatever the answers, in which a record that needs a proof
is only marked as posted with the link it has and only looked up with its own post as the answer:
neither a publication nor a proof is asked for a conflicted record, and no move ends the conflict of
an attempt that stays. -/
theorem conflicts_left_alone
    (reached : (anyAnswers.restrict Confirms).Admits (StartsOn platform (SameLink platform))
      ⟨[], false⟩ configuration) :
    (∀ record, AboutToWrite configuration record → record.state ≠ .reconcileRequired) ∧
    ∀ next, (anyAnswers.restrict Confirms).Move (fun _ => True) configuration next →
      Absorbs configuration.1.file next.1.file := by
  obtain ⟨tidy, asks⟩ := calm_reached reached
  refine ⟨?_, fun next move => ?_⟩
  · rintro record ⟨program, running, publishing | proving⟩
    · have allows : calm configuration.1 (.publishKoinos record) :=
        Service.allowed_of_pending tidy (asks program running) publishing
      exact allows
    · have allows : calm configuration.1 (.recordProof record) :=
        Service.allowed_of_pending tidy (asks program running) proving
      exact allows
  · have same : Absorbs configuration.1.file configuration.1.file := by
      intro attemptId record after before required found
      obtain rfl := Option.some.inj (before.symm.trans found)
      exact required
    cases move with
    | drift drifts =>
      rw [show _ = _ from drifts]
      exact same
    | start one => exact same
    | stop => exact same
    | @answer storage after request answer rest served =>
      have allows : calm storage request := Service.allowed_of_pending tidy (asks _ rfl) rfl
      exact (tidy_served tidy allows served.1).2

end Runs

section Sample

/-- Every submission is accepted, lookups fail and no proof is recorded. -/
def failingProofs (storage : Storage) : (request : Request) → Answer request × Storage
  | .now => ((0 : ℕ), storage)
  | .account => (.ok (some (Address.repeated 1)), storage)
  | .load => (.ok storage.file, storage)
  | .save file => (.ok (), { storage with file := file })
  | .publishKoinos _ => (.ok ⟨attemptOf 2, .string "first", false⟩, storage)
  | .lookupChain _ _ _ => (.error "offline", { storage with named := false })
  | .lookupIndexer _ _ => (.error "offline", storage)
  | .recordProof _ => (.error "not recorded", storage)

theorem failingProofs_serves (storage : Storage) (request : Request) :
    (anyAnswers.restrict Confirms).serve storage request (failingProofs storage request).1
      (failingProofs storage request).2 := by
  cases request with
  | load => exact ⟨⟨rfl, fun file same => (Except.ok.inj same).symm⟩, trivial⟩
  | save file => exact ⟨⟨rfl, .inl rfl, fun _ => rfl⟩, trivial⟩
  | lookupChain record author key =>
    refine ⟨rfl, fun _ postId impossible => ?_⟩
    cases impossible
  | lookupIndexer author record =>
    refine ⟨rfl, fun _ _ hit impossible => ?_⟩
    cases impossible
  | _ => exact ⟨rfl, trivial⟩

/-- The storage after these operations. -/
def operated (operations : List Operation) : Storage :=
  operations.foldl (fun storage operation =>
    (Service.play failingProofs (fun _ => false) (perform samplePlatform operation) storage).1)
    ⟨[], false⟩

/-- The configuration that is about to record a proof in the last operation. -/
def provingAfter (operations : List Operation) (last : Operation) : Running :=
  let played := Service.play failingProofs isProof (perform samplePlatform last)
    (operated operations)
  (played.1, some played.2)

theorem admits_operated {service : Service Request Answer Storage}
    {condition : List StoredCrossPost → Operation → Prop}
    (serving : ∀ storage request, service.serve storage request (failingProofs storage request).1
      (failingProofs storage request).2) (operations : List Operation)
    (allowed : ∀ storage, ∀ operation ∈ operations, condition storage operation) :
    service.Admits (StartsOn samplePlatform condition) ⟨[], false⟩
      (operated operations, none) := by
  induction operations using List.reverseRecOn with
  | nil => exact .refl
  | append_singleton operations operation inductionHypothesis =>
    have before := inductionHypothesis fun storage one member =>
      allowed storage one (List.mem_append_left _ member)
    have last := allowed (operated operations).file operation
      (List.mem_append_right _ (List.mem_singleton_self _))
    have played : service.Admits (StartsOn samplePlatform condition) ⟨[], false⟩
        ((Service.play failingProofs (fun _ => false) (perform samplePlatform operation)
            (operated operations)).1,
          some (Service.play failingProofs (fun _ => false) (perform samplePlatform operation)
            (operated operations)).2) :=
      Service.admits_play _ serving _ _ (before.start ⟨operation, rfl, last⟩)
    unfold operated at played ⊢
    rw [List.foldl_append]
    exact played.stop

theorem admits_provingAfter {service : Service Request Answer Storage}
    {condition : List StoredCrossPost → Operation → Prop} {operations : List Operation}
    (last : Operation)
    (serving : ∀ storage request, service.serve storage request (failingProofs storage request).1
      (failingProofs storage request).2)
    (before : service.Admits (StartsOn samplePlatform condition) ⟨[], false⟩
      (operated operations, none))
    (allowed : condition (operated operations).file last) :
    service.Admits (StartsOn samplePlatform condition) ⟨[], false⟩
      (provingAfter operations last) :=
  Service.admits_play _ serving _ _ (before.start ⟨last, rfl, allowed⟩)

/-- A draft from Facebook is confirmed and accepted. -/
def publishedOperations : List Operation :=
  [.propose samplePayload, .confirm sampleAttempt none]

/-- The user reports another link. -/
def postedElsewhere : Operation :=
  .markHost sampleAttempt .posted (some "https://www.facebook.com/another")

theorem conflicts_left_alone_accepted :
    ∃ record, AboutToWrite (provingAfter publishedOperations posted) record ∧
      record.state ≠ .reconcileRequired := by
  have before : (anyAnswers.restrict Confirms).Admits
      (StartsOn samplePlatform (SameLink samplePlatform)) ⟨[], false⟩
      (operated publishedOperations, none) := by
    refine admits_operated failingProofs_serves _ fun storage operation member => ?_
    simp only [publishedOperations, List.mem_cons, List.not_mem_nil, or_false] at member
    rcases member with rfl | rfl <;> trivial
  have unreported : ((recordOf (operated publishedOperations).file sampleAttempt).map needsProof) =
      some false := by decide +kernel
  have reached := admits_provingAfter posted failingProofs_serves before (by
    intro record stored needed
    rw [stored] at unreported
    exact absurd (needed.symm.trans (Option.some.inj unreported)) Bool.noConfusion)
  have stored : (recordOf (provingAfter publishedOperations posted).1.file
      sampleAttempt).isSome = true := by decide +kernel
  obtain ⟨record, found⟩ := Option.isSome_iff_exists.mp stored
  have asking : (provingAfter publishedOperations posted).2.bind Service.pending =
      (recordOf (provingAfter publishedOperations posted).1.file sampleAttempt).map
        Request.recordProof := by decide +kernel
  rw [found] at asking
  have writes : AboutToWrite (provingAfter publishedOperations posted) record :=
    ⟨_, rfl, .inr asking⟩
  exact ⟨record, writes, (conflicts_left_alone samplePlatform _ reached).1 record writes⟩

/-- The proof of an accepted attempt was not recorded, and the user reports another link: a proof
is about to be asked for the conflicted record. -/
theorem proof_of_conflict :
    ¬ ∀ (platform : Platform) (configuration : Running),
      anyAnswers.Admits (StartsOn platform fun _ _ => True) ⟨[], false⟩ configuration →
        ∀ record, AboutToWrite configuration record → record.state ≠ .reconcileRequired := by
  intro always
  have serving : ∀ storage request, anyAnswers.serve storage request
      (failingProofs storage request).1 (failingProofs storage request).2 :=
    fun storage request => (failingProofs_serves storage request).1
  have reached := admits_provingAfter postedElsewhere serving
    (admits_operated serving (publishedOperations ++ [posted]) fun _ _ _ => trivial) trivial
  have conflicted : (recordOf (provingAfter (publishedOperations ++ [posted])
      postedElsewhere).1.file sampleAttempt).map (fun record => record.state) =
        some .reconcileRequired := by decide +kernel
  obtain ⟨record, stored, state⟩ := Option.map_eq_some_iff.mp conflicted
  have asking : (provingAfter (publishedOperations ++ [posted]) postedElsewhere).2.bind
      Service.pending = (recordOf (provingAfter (publishedOperations ++ [posted])
        postedElsewhere).1.file sampleAttempt).map Request.recordProof := by decide +kernel
  rw [stored] at asking
  exact always _ _ reached record ⟨_, rfl, .inr asking⟩ state

end Sample

end OpenSocial.CrossPosts

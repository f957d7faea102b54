/-
This file says everything the orchestrator makes of a record, and what every
record it makes has in common.

A change is what one update of the file does to one record, with what the answers
before it told: that a publication was accepted, or what a lookup found. What a
lookup may tell is a parameter, so the same changes serve a world whose indexer is
trusted and one where it is not. Records that come from a draft by changes are the
only ones that are stored, published or proven.
-/

import OpenSocial.CrossPosts.World

namespace OpenSocial.CrossPosts

open Library Sdk Extension

/-! ### Changes -/

/-- What is known, on some chain, of a post and a transaction that a lookup for a record found. -/
abbrev Knowledge := List Inclusion → StoredCrossPost → Address → Bytes → Option TransactionId → Prop

section Changes

variable (host : Host) (platform : Platform) (known : Knowledge) (chain : List Inclusion)

/-- How a lookup ends: it reports a post it knows of, or none. -/
inductive Looked (record : StoredCrossPost) (author : Address) (current : CrossPostRecord) :
    CrossPostRecord → Prop
  | found (postId : Bytes) (txId : Option TransactionId) (time : ℕ)
      (told : known chain record author postId txId) :
      Looked record author current (transition current (.lookupFound postId txId time))
  | missing (time : ℕ) : Looked record author current (transition current (.lookupMissing time))

/-- The chain has accepted the publication an outcome reports. -/
def Published (record : StoredCrossPost) (author : Address) (outcome : PublishOutcome) : Prop :=
  ∃ args, FirstVersion host chain outcome.attempt.postId outcome.txId args ∧
    Publishes platform author record.attemptId outcome.attempt args

/-- The record a confirmation makes of a draft before it publishes. -/
def confirmed (record : StoredCrossPost) (author : Address) (audience : ℕ) : StoredCrossPost :=
  { record with
    author := some author
    audience := audience
    idempotencyKey := keyOf platform author record.attemptId }

/-- One update of the file, as it changes one record. -/
inductive Change (record : StoredCrossPost) : StoredCrossPost → Prop
  | confirmed (author : Address) (audience time : ℕ) (draft : record.state = .draft) :
      Change record (merge (confirmed platform record author audience)
        (transition (baseRecord (confirmed platform record author audience)) (.retry time)))
  | resumed (author : Address) (looked : CrossPostRecord) (time : ℕ)
      (own : record.author = some author) (left : record.state ≠ .draft)
      (lookedUp : looked = baseRecord record ∨
        Looked known chain record author (baseRecord record) looked)
      (unfound : looked.koinosStatus ≠ .ok) :
      Change record (merge record (transition looked (.retry time)))
  | accepted (author : Address) (outcome : PublishOutcome) (time : ℕ)
      (own : record.author = some author) (left : record.state ≠ .draft)
      (unpublished : record.koinosStatus ≠ .ok)
      (published : Published host platform chain record author outcome) :
      Change record (concluded record (some ⟨outcome.attempt, none⟩)
        (transition (baseRecord record)
          (.koinosSucceeded outcome.txId outcome.attempt.postId time)))
  | missed (extra : Option AttemptFields) (event : ReconcileEvent)
      (left : record.state ≠ .draft) (unpublished : record.koinosStatus ≠ .ok)
      (failing : event.found = none) :
      Change record (concluded record extra (transition (baseRecord record) event))
  | duplicate (author : Address) (extra : Option AttemptFields) (message : String) (time : ℕ)
      (looked : CrossPostRecord) (own : record.author = some author)
      (left : record.state ≠ .draft) (unpublished : record.koinosStatus ≠ .ok)
      (lookedUp : Looked known chain (withAttempt record extra) author
        (transition (baseRecord record) (.koinosFailed message time)) looked) :
      Change record (concluded record extra (adoptPendingTx (withAttempt record extra) looked))
  | settled (author : Address) (start looked : CrossPostRecord) (own : record.author = some author)
      (left : record.state ≠ .draft)
      (starting : start = baseRecord record ∨
        ∃ message time, start = transition (baseRecord record) (.koinosUnknown message time))
      (lookedUp : Looked known chain record author start looked) :
      Change record (settle record (adoptPendingTx record looked))
  | reported (event : ReconcileEvent) (left : record.state ≠ .draft)
      (host : event.found = none) :
      Change record (merge record (transition (baseRecord record) event))
  | proven (proof : ProofResult) (time : ℕ) (needed : needsProof record = true) :
      Change record (withProof record proof time)
  | unproven (message : String) (needed : needsProof record = true) :
      Change record { record with proofError := some message }

/-- The records that come from a draft by changes. -/
inductive Derivable : StoredCrossPost → Prop
  | drafted (input : Draft) (author : Option Address) (key : Bytes) (time createdAt : ℕ) :
      Derivable (drafted input author key time createdAt)
  | changed {record next : StoredCrossPost} (before : Derivable record)
      (change : Change host platform known chain record next) : Derivable next

end Changes

/-! ### The Koinos side across changes -/

/-- The Koinos side stays as it is. -/
structure Continues (record current : CrossPostRecord) : Prop where
  same : SameAttempt record current
  left : record.state ≠ .draft → current.state ≠ .draft
  post : current.postId = record.postId
  txId : current.koinosTxId = record.koinosTxId
  status : current.koinosStatus = .ok ↔ record.koinosStatus = .ok

/-- The Koinos side has a post that was told of. -/
structure Finds (told : Bytes → Option TransactionId → Prop) (record current : CrossPostRecord) :
    Prop where
  same : SameAttempt record current
  left : record.state ≠ .draft → current.state ≠ .draft
  status : current.koinosStatus = .ok
  reported : ∃ postId txId, told postId txId ∧
    (∀ earlier, record.postId = some earlier → earlier = postId) ∧
    current.postId = some postId ∧ current.koinosTxId = (txId <|> record.koinosTxId)

section Advance

variable {told : Bytes → Option TransactionId → Prop} {record current : CrossPostRecord}

theorem continues_refl (record : CrossPostRecord) : Continues record record :=
  ⟨⟨rfl, rfl, rfl, rfl⟩, id, rfl, rfl, Iff.rfl⟩

theorem continues_of_event {event : ReconcileEvent} (silent : event.found = none) :
    Continues record (transition record event) := by
  cases koinos_step record event with
  | kept post txId status =>
    exact ⟨sameAttempt_transition record event, transition_ne_draft record event, post, txId,
      status⟩
  | found postId txId reported agrees post status adopted =>
    exact absurd (silent.symm.trans reported) (Option.some_ne_none _).symm

theorem advance_of_event {event : ReconcileEvent} {postId : Bytes} {txId : Option TransactionId}
    (reports : event.found = some (postId, txId)) (known : told postId txId) :
    Continues record (transition record event) ∨ Finds told record (transition record event) := by
  cases koinos_step record event with
  | kept post txId status =>
    exact .inl ⟨sameAttempt_transition record event, transition_ne_draft record event, post, txId,
      status⟩
  | found postId' txId' reported agrees post status adopted =>
    obtain ⟨rfl, rfl⟩ := Prod.mk.inj (Option.some.inj (reports.symm.trans reported))
    exact .inr ⟨sameAttempt_transition record event, transition_ne_draft record event, status,
      postId, txId, known, agrees, post, adopted⟩

/-- What follows on a Koinos side that stays as it is. -/
theorem Continues.then_continues {start : CrossPostRecord} (first : Continues record start)
    (second : Continues start current) : Continues record current :=
  ⟨first.same.trans second.same, fun left => second.left (first.left left),
    second.post.trans first.post, second.txId.trans first.txId, second.status.trans first.status⟩

theorem Continues.then_finds {start : CrossPostRecord} (first : Continues record start)
    (second : Finds told start current) : Finds told record current := by
  obtain ⟨postId, txId, known, agrees, post, adopted⟩ := second.reported
  refine ⟨first.same.trans second.same, fun left => second.left (first.left left), second.status,
    postId, txId, known, ?_, post, ?_⟩
  · intro earlier stored
    exact agrees earlier (first.post.trans stored)
  · rw [adopted, first.txId]

theorem Continues.then {start : CrossPostRecord} (first : Continues record start)
    (second : Continues start current ∨ Finds told start current) :
    Continues record current ∨ Finds told record current :=
  second.imp first.then_continues first.then_finds

theorem advance_of_looked {known : Knowledge} {chain : List Inclusion} {stored : StoredCrossPost}
    {author : Address} {looked : CrossPostRecord}
    (lookedUp : Looked known chain stored author record looked) :
    Continues record looked ∨ Finds (known chain stored author) record looked := by
  cases lookedUp with
  | found postId txId time told => exact advance_of_event rfl told
  | missing time => exact .inl (continues_of_event rfl)

/-- An accepted publication reports its own post and transaction. -/
theorem advance_of_published (record : StoredCrossPost) (outcome : PublishOutcome) (time : ℕ) :
    let published := transition (baseRecord record)
      (.koinosSucceeded outcome.txId outcome.attempt.postId time)
    Continues (baseRecord record) published ∨
      Finds (fun postId txId => postId = outcome.attempt.postId ∧ txId = some outcome.txId)
        (baseRecord record) published :=
  advance_of_event rfl ⟨rfl, rfl⟩

end Advance

/-! ### Sound records -/

section Sound

variable (host : Host) (platform : Platform)

/-- A record that left the draft has its author's key, a post id is there exactly when the Koinos
side is known, and the chain has bound the key to it. -/
structure Sound (chain : List Inclusion) (record : StoredCrossPost) : Prop where
  keyed : record.state ≠ .draft → ∃ author, record.author = some author ∧
    record.idempotencyKey = keyOf platform author record.attemptId
  drafted : record.state = .draft → record.postId = none
  found : record.koinosStatus = .ok ↔ record.postId ≠ none
  unadopted : record.koinosStatus ≠ .ok → record.koinosTxId = none
  bound : ∀ author postId, record.author = some author → record.postId = some postId →
    Publications.boundPost (stateOf host chain) author (keyOf platform author record.attemptId) =
      some postId

/-- The record has the Koinos side, the author and the attempt that are given. -/
structure Carries (record next : StoredCrossPost) (current : CrossPostRecord) : Prop where
  idempotencyKey : next.idempotencyKey = current.idempotencyKey
  attemptId : next.attemptId = current.attemptId
  state : next.state = current.state
  status : next.koinosStatus = current.koinosStatus
  post : next.postId = current.postId
  txId : current.koinosStatus ≠ .ok → next.koinosTxId = current.koinosTxId
  author : next.author = record.author

variable {host platform} {chain : List Inclusion} {record next : StoredCrossPost}
  {current : CrossPostRecord}

theorem Sound.continued (sound : Sound host platform chain record)
    (carries : Carries record next current) (continues : Continues (baseRecord record) current)
    (left : record.state ≠ .draft) : Sound host platform chain next where
  keyed _ := by
    obtain ⟨author, own, key⟩ := sound.keyed left
    refine ⟨author, carries.author.trans own, ?_⟩
    rw [carries.idempotencyKey, carries.attemptId, continues.same.idempotencyKey,
      continues.same.attemptId]
    exact key
  drafted drafted := absurd (carries.state.symm.trans drafted) (continues.left left)
  found := by
    rw [carries.status, carries.post, continues.status, continues.post]
    exact sound.found
  unadopted unknown := by
    rw [carries.status] at unknown
    rw [carries.txId unknown, continues.txId]
    exact sound.unadopted fun ok => unknown (continues.status.mpr ok)
  bound author postId own stored := by
    rw [carries.attemptId, continues.same.attemptId]
    exact sound.bound author postId (carries.author.symm.trans own)
      (continues.post.symm.trans (carries.post.symm.trans stored))

theorem Sound.finding {author : Address} {told : Bytes → Option TransactionId → Prop}
    (sound : Sound host platform chain record) (carries : Carries record next current)
    (finds : Finds told (baseRecord record) current) (left : record.state ≠ .draft)
    (own : record.author = some author)
    (binds : ∀ postId txId, told postId txId →
      Publications.boundPost (stateOf host chain) author
        (keyOf platform author record.attemptId) = some postId) :
    Sound host platform chain next := by
  obtain ⟨postId, txId, known, agrees, post, adopted⟩ := finds.reported
  refine ⟨fun _ => ?_, fun drafted => ?_, ?_, fun unknown => ?_, fun other found own' stored => ?_⟩
  · obtain ⟨author, own, key⟩ := sound.keyed left
    refine ⟨author, carries.author.trans own, ?_⟩
    rw [carries.idempotencyKey, carries.attemptId, finds.same.idempotencyKey,
      finds.same.attemptId]
    exact key
  · exact absurd (carries.state.symm.trans drafted) (finds.left left)
  · rw [carries.status, carries.post, post]
    exact iff_of_true finds.status (Option.some_ne_none postId)
  · exact absurd (carries.status.trans finds.status) unknown
  · obtain rfl := Option.some.inj ((carries.author.trans own).symm.trans own')
    obtain rfl := Option.some.inj ((carries.post.trans post).symm.trans stored)
    rw [carries.attemptId, finds.same.attemptId]
    exact binds _ txId known

/-- What is known binds the key of the attempt. -/
def Binds (host : Host) (platform : Platform) (known : Knowledge) : Prop :=
  ∀ chain record author postId txId, known chain record author postId txId →
    Publications.boundPost (stateOf host chain) author
      (keyOf platform author record.attemptId) = some postId

theorem Carries.of_adopted {stored : StoredCrossPost}
    (carries : Carries record next (adoptPendingTx stored current)) :
    Carries record next current := by
  unfold adoptPendingTx at carries
  split at carries
  · next adopts =>
    exact ⟨carries.1, carries.2, carries.3, carries.4, carries.5,
      fun unknown => absurd adopts.1 unknown, carries.7⟩
  · exact carries

theorem carries_merge (record : StoredCrossPost) (current : CrossPostRecord) :
    Carries record (merge record current) current :=
  ⟨rfl, rfl, rfl, rfl, rfl, fun _ => rfl, rfl⟩

theorem carries_settle (record : StoredCrossPost) (current : CrossPostRecord) :
    Carries record (settle record current) current := by
  unfold settle
  dsimp only
  split <;> exact ⟨rfl, rfl, rfl, rfl, rfl, fun _ => rfl, rfl⟩

theorem withAttempt_author (record : StoredCrossPost) (extra : Option AttemptFields) :
    (withAttempt record extra).author = record.author := by
  cases extra <;> rfl

theorem withAttempt_base (record : StoredCrossPost) (extra : Option AttemptFields) :
    (withAttempt record extra).toCrossPostRecord = record.toCrossPostRecord := by
  cases extra <;> rfl

theorem carries_concluded (record : StoredCrossPost) (extra : Option AttemptFields)
    (current : CrossPostRecord) : Carries record (concluded record extra current) current := by
  have author := withAttempt_author record extra
  unfold concluded
  dsimp only
  split
  · exact ⟨rfl, rfl, rfl, rfl, rfl, fun _ => rfl, author⟩
  · split <;> exact ⟨rfl, rfl, rfl, rfl, rfl, fun _ => rfl, author⟩

theorem Sound.advanced {author : Address} {told : Bytes → Option TransactionId → Prop}
    (sound : Sound host platform chain record) (carries : Carries record next current)
    (advance : Continues (baseRecord record) current ∨ Finds told (baseRecord record) current)
    (left : record.state ≠ .draft) (own : record.author = some author)
    (binds : ∀ postId txId, told postId txId →
      Publications.boundPost (stateOf host chain) author
        (keyOf platform author record.attemptId) = some postId) :
    Sound host platform chain next := by
  rcases advance with continues | finds
  · exact sound.continued carries continues left
  · exact sound.finding carries finds left own binds

/-- A published attempt bound its key. -/
theorem Published.bound {author : Address} {outcome : PublishOutcome}
    (published : Published host platform chain record author outcome) :
    Publications.boundPost (stateOf host chain) author
      (keyOf platform author record.attemptId) = some outcome.attempt.postId := by
  obtain ⟨args, first, publishes⟩ := published
  exact first.bound publishes.authored publishes.idempotencyKey (keyOf_ne_nil platform author _)

theorem sound_changed {known : Knowledge} (binds : Binds host platform known)
    (sound : Sound host platform chain record)
    (change : Change host platform known chain record next) :
    Sound host platform chain next := by
  cases change with
  | confirmed author audience time draft =>
    have none := sound.drafted draft
    have continues : Continues (baseRecord (confirmed platform record author audience))
        (transition (baseRecord (confirmed platform record author audience)) (.retry time)) :=
      continues_of_event rfl
    have post : (merge (confirmed platform record author audience)
        (transition (baseRecord (confirmed platform record author audience)) (.retry time))).postId =
        .none := continues.post.trans none
    refine ⟨fun _ => ⟨author, rfl, ?_⟩, fun _ => post, ?_, fun unknown => ?_, fun _ _ _ stored => ?_⟩
    · exact continues.same.idempotencyKey.trans
        (congrArg (keyOf platform author) continues.same.attemptId.symm)
    · rw [post]
      refine iff_of_false (fun ok => ?_) fun absent => absent rfl
      exact sound.found.mp (continues.status.mp ok) none
    · refine continues.txId.trans (sound.unadopted fun ok => unknown (continues.status.mpr ok))
    · rw [post] at stored
      cases stored
  | resumed author looked time own left lookedUp unfound =>
    have continues : Continues (baseRecord record) looked := by
      rcases lookedUp with rfl | lookedUp
      · exact continues_refl _
      · exact (advance_of_looked lookedUp).resolve_right fun finds => unfound finds.status
    exact sound.continued (carries_merge _ _)
      (continues.then_continues (continues_of_event rfl)) left
  | accepted author outcome time own left unpublished published =>
    refine sound.advanced (carries_concluded _ _ _) (advance_of_published record outcome time) left
      own fun postId txId told => ?_
    obtain ⟨rfl, _⟩ := told
    exact published.bound
  | missed extra event left unpublished failing =>
    exact sound.continued (carries_concluded _ _ _) (continues_of_event failing) left
  | duplicate author extra message time looked own left unpublished lookedUp =>
    refine sound.advanced (carries_concluded _ _ _).of_adopted
      ((continues_of_event rfl).then (advance_of_looked lookedUp)) left own fun postId txId told => ?_
    have bound := binds _ _ _ _ _ told
    rw [withAttempt_base] at bound
    exact bound
  | settled author start looked own left starting lookedUp =>
    have continues : Continues (baseRecord record) start := by
      rcases starting with rfl | ⟨message, time, rfl⟩
      · exact continues_refl _
      · exact continues_of_event rfl
    exact sound.advanced (carries_settle _ _).of_adopted
      (continues.then (advance_of_looked lookedUp)) left own fun postId txId told =>
        binds _ _ _ _ _ told
  | reported event left silent =>
    exact sound.continued (carries_merge _ _) (continues_of_event silent) left
  | proven proof time needed =>
    have ok : record.koinosStatus = .ok := by
      simp only [needsProof, Bool.and_eq_true, beq_iff_eq] at needed
      exact needed.1.1.1.2
    exact ⟨sound.keyed, sound.drafted, sound.found, fun unknown => absurd ok unknown, sound.bound⟩
  | unproven message needed =>
    exact ⟨sound.keyed, sound.drafted, sound.found, sound.unadopted, sound.bound⟩

theorem sound_of_derivable {known : Knowledge} (binds : Binds host platform known)
    (derivable : Derivable host platform known chain record) :
    Sound host platform chain record := by
  induction derivable with
  | drafted input author key time createdAt =>
    refine ⟨fun left => absurd rfl left, fun _ => rfl, ?_, fun _ => rfl, fun _ _ _ stored => ?_⟩
    · exact iff_of_false SideStatus.noConfusion fun absent => absent rfl
    · cases stored
  | changed before change inductionHypothesis => exact sound_changed binds inductionHypothesis change

end Sound

/-! ### Changes on a growing chain -/

section Growing

variable {host : Host} {platform : Platform} {known : Knowledge} {chain later : List Inclusion}
  {record next : StoredCrossPost}

/-- What is known stays known as the chain grows. -/
def Lasts (known : Knowledge) : Prop :=
  ∀ chain later record author postId txId, chain <+: later →
    known chain record author postId txId → known later record author postId txId

theorem Looked.grows {author : Address} {current looked : CrossPostRecord} (lasts : Lasts known)
    (grown : chain <+: later) (lookedUp : Looked known chain record author current looked) :
    Looked known later record author current looked := by
  cases lookedUp with
  | found postId txId time told => exact .found postId txId time (lasts _ _ _ _ _ _ grown told)
  | missing time => exact .missing time

theorem Published.grows {author : Address} {outcome : PublishOutcome} (grown : chain <+: later)
    (published : Published host platform chain record author outcome) :
    Published host platform later record author outcome := by
  obtain ⟨args, first, publishes⟩ := published
  exact ⟨args, first.grows grown, publishes⟩

theorem Change.grows (lasts : Lasts known) (grown : chain <+: later)
    (change : Change host platform known chain record next) :
    Change host platform known later record next := by
  cases change with
  | confirmed author audience time draft => exact .confirmed author audience time draft
  | resumed author looked time own left lookedUp unfound =>
    exact .resumed author looked time own left (lookedUp.imp_right (Looked.grows lasts grown))
      unfound
  | accepted author outcome time own left unpublished published =>
    exact .accepted author outcome time own left unpublished (published.grows grown)
  | missed extra event left unpublished failing => exact .missed extra event left unpublished failing
  | duplicate author extra message time looked own left unpublished lookedUp =>
    exact .duplicate author extra message time looked own left unpublished
      (lookedUp.grows lasts grown)
  | settled author start looked own left starting lookedUp =>
    exact .settled author start looked own left starting (lookedUp.grows lasts grown)
  | reported event left silent => exact .reported event left silent
  | proven proof time needed => exact .proven proof time needed
  | unproven message needed => exact .unproven message needed

theorem Derivable.grows (lasts : Lasts known) (grown : chain <+: later)
    (derivable : Derivable host platform known chain record) :
    Derivable host platform known later record := by
  induction derivable with
  | drafted input author key time createdAt => exact .drafted input author key time createdAt
  | changed before change inductionHypothesis =>
    exact .changed inductionHypothesis (change.grows lasts grown)

/-- A change is about one attempt, and keeps its post. -/
structure Keeps (record next : StoredCrossPost) : Prop where
  attemptId : next.attemptId = record.attemptId
  post : ∀ postId, record.postId = some postId → next.postId = some postId

theorem keeps_of_advance {told : Bytes → Option TransactionId → Prop}
    {current : CrossPostRecord} (carries : Carries record next current)
    (advance : Continues (baseRecord record) current ∨ Finds told (baseRecord record) current) :
    Keeps record next := by
  rcases advance with continues | finds
  · refine ⟨carries.attemptId.trans continues.same.attemptId, fun postId stored => ?_⟩
    exact carries.post.trans (continues.post.trans stored)
  · obtain ⟨found, txId, _, agrees, post, _⟩ := finds.reported
    refine ⟨carries.attemptId.trans finds.same.attemptId, fun postId stored => ?_⟩
    rw [agrees postId stored]
    exact carries.post.trans post

theorem keeps_of_continues {current : CrossPostRecord} (carries : Carries record next current)
    (continues : Continues (baseRecord record) current) : Keeps record next :=
  keeps_of_advance carries
    (.inl continues : _ ∨ Finds (fun _ _ => False) (baseRecord record) current)

theorem keeps_of_change (change : Change host platform known chain record next) :
    Keeps record next := by
  cases change with
  | confirmed author audience time draft =>
    have continues : Continues (baseRecord (confirmed platform record author audience))
        (transition (baseRecord (confirmed platform record author audience)) (.retry time)) :=
      continues_of_event rfl
    exact ⟨continues.same.attemptId, fun postId stored => continues.post.trans stored⟩
  | resumed author looked time own left lookedUp unfound =>
    have continues : Continues (baseRecord record) looked := by
      rcases lookedUp with rfl | lookedUp
      · exact continues_refl _
      · exact (advance_of_looked lookedUp).resolve_right fun finds => unfound finds.status
    exact keeps_of_continues (carries_merge _ _)
      (continues.then_continues (continues_of_event rfl))
  | accepted author outcome time own left unpublished published =>
    exact keeps_of_advance (carries_concluded _ _ _) (advance_of_published record outcome time)
  | missed extra event left unpublished failing =>
    exact keeps_of_continues (carries_concluded _ _ _) (continues_of_event failing)
  | duplicate author extra message time looked own left unpublished lookedUp =>
    exact keeps_of_advance (carries_concluded _ _ _).of_adopted
      ((continues_of_event rfl).then (advance_of_looked lookedUp))
  | settled author start looked own left starting lookedUp =>
    have continues : Continues (baseRecord record) start := by
      rcases starting with rfl | ⟨message, time, rfl⟩
      · exact continues_refl _
      · exact continues_of_event rfl
    exact keeps_of_advance (carries_settle _ _).of_adopted
      (continues.then (advance_of_looked lookedUp))
  | reported event left silent =>
    exact keeps_of_continues (carries_merge _ _) (continues_of_event silent)
  | proven proof time needed => exact ⟨rfl, fun _ => id⟩
  | unproven message needed => exact ⟨rfl, fun _ => id⟩

end Growing

end OpenSocial.CrossPosts

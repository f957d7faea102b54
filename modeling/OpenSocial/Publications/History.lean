/-
This file shows what a run of the publications contract does to one post.

The ghost of the arguments is the list of a post's versions: the accepted
publishes for its id, in order. A stored post is the first of them, changed by
the others and by lifecycle calls; who wrote it, where it stands in a thread and
for whom it was published never change, and a deleted post never changes at all.
Its version count is the number of its versions as a machine word.
-/

import OpenSocial.Publications.Effects

namespace OpenSocial.Publications

open Library Library.Word

/-! ### Versions -/

/-- The arguments of a publish for a post. -/
def publishOf (postId : Bytes) : Operation → Option PublishArguments
  | .publish args => if args.postId = postId then some args else none
  | _ => none

theorem publishOf_publish (postId : Bytes) (args : PublishArguments) :
    publishOf postId (.publish args) = if args.postId = postId then some args else none := rfl

section Versions

variable {host : Host}

/-- The versions of a post: the accepted publishes for its id, in order. -/
def versionsOf (postId : Bytes) (history : List (machine host).Accepted) : List PublishArguments :=
  history.filterMap fun entry => publishOf postId entry.call.operation

theorem versionsOf_concat (postId : Bytes) (history : List (machine host).Accepted)
    (entry : (machine host).Accepted) :
    versionsOf postId (history ++ [entry]) =
      versionsOf postId history ++ (publishOf postId entry.call.operation).toList :=
  Machine.filterMap_concat _ history entry

end Versions

/-! ### One post, one call -/

/-- What an accepted call does to one post: nothing, a first version, an edit, or another
lifecycle state. -/
inductive PostStep (host : Host) (env : Env) (state after : State) (postId : Bytes)
    (operation : Operation) : Prop
  | kept (other : publishOf postId operation = none)
      (same : after.posts.get postId = state.posts.get postId)
  | created (author : Address) (args : PublishArguments) (audience : AudienceKind)
      (called : operation = .publish args) (named : args.postId = postId)
      (signed : args.author = author.val) (first : args.previousVersion = [])
      (decoded : AudienceKind.ofWire args.audience = some audience)
      (fresh : state.posts.get postId = none)
      (computed : computePostId host author.val args.sequence args.contentHash = .ok postId)
      (target : requireReplyTarget env author args.replyTo state = .ok ())
      (stored : after.posts.get postId = some
        ⟨author, args.sequence, 1, args.contentHash, .active, args.replyTo, audience, env.now,
          env.now⟩)
  | edited (args : PublishArguments) (existing : PostRecord) (called : operation = .publish args)
      (named : args.postId = postId) (later : args.previousVersion ≠ [])
      (signed : args.author = existing.author.val)
      (known : state.posts.get postId = some existing) (alive : existing.state ≠ .deleted)
      (current : args.previousVersion = existing.latestVersion)
      (stored : after.posts.get postId = some (editedRecord existing args.contentHash env.now))
  | moved (args : SetLifecycleArguments) (record : PostRecord) (target : LifecycleState)
      (called : operation = .setLifecycle args) (named : args.postId = postId)
      (current : args.version = record.latestVersion)
      (known : state.posts.get postId = some record) (alive : record.state ≠ .deleted)
      (stored : after.posts.get postId = some
        { record with state := target, updatedAt := env.now })

section Step

variable {host : Host} {env : Env} {operation : Operation} {state after : State}
  {events : List Event}

theorem post_step (effect : Effect host env state operation after events) (postId : Bytes) :
    PostStep host env state after postId operation := by
  cases effect with
  | tokenContractSet address authorized => exact .kept rfl rfl
  | identityContractSet address authorized => exact .kept rfl rfl
  | relationshipsContractSet address authorized => exact .kept rfl rfl
  | firstPublished author args audience signer signed first wellFormed authorized fresh sequenced
      computed target unbound charged =>
    have written : ∀ record, (((bindKey state author args.idempotencyKey args.postId).putPost
        args.postId record).putAuthor author (countedAuthor state author env.now)).posts =
        state.posts.put args.postId record := by
      intro record
      show (bindKey state author args.idempotencyKey args.postId).posts.put args.postId record = _
      rw [bindKey_posts]
    by_cases named : args.postId = postId
    · subst named
      refine .created author args audience rfl rfl signed first wellFormed.decoded fresh computed
        target ?_
      rw [written, Store.get_put, if_pos rfl]
    · refine .kept (if_neg named) ?_
      rw [written, Store.get_put, if_neg (Ne.symm named)]
  | edited author args existing signer signed later wellFormed authorized known own alive current
      thread unbound charged =>
    have written : ∀ record, ((bindKey state author args.idempotencyKey args.postId).putPost
        args.postId record).posts = state.posts.put args.postId record := by
      intro record
      show (bindKey state author args.idempotencyKey args.postId).posts.put args.postId record = _
      rw [bindKey_posts]
    by_cases named : args.postId = postId
    · subst named
      refine .edited args existing rfl rfl later (by rw [signed, own]) known alive current ?_
      rw [written, Store.get_put, if_pos rfl]
    · refine .kept (if_neg named) ?_
      rw [written, Store.get_put, if_neg (Ne.symm named)]
  | lifecycleSet author other wire target reason replacementId device record signer idLength decoded
      replaced authorized known own alive =>
    by_cases named : other = postId
    · subst named
      refine .moved _ record target rfl rfl rfl known alive ?_
      exact (Store.get_put _ _ _ _).trans (if_pos rfl)
    · refine .kept rfl ?_
      exact (Store.get_put _ _ _ _).trans (if_neg (Ne.symm named))
  | reacted actor other reaction remove device record signer idLength named authorized known alive
      charged => exact .kept rfl rfl
  | keysDistributed author audienceId epoch packages device signer present bounded authorized =>
    exact .kept rfl rfl
  | crossPostRecorded author idempotencyKey adapter wire outcome externalRef other manifestHash
      device signer decoded authorized owned succeeded => exact .kept rfl rfl

/-- A reply names a stored post that is not deleted. -/
theorem target_of_reply {author : Address} {parentId : Bytes}
    (target : requireReplyTarget env author parentId state = .ok ()) :
    parentId = [] ∨ ∃ parent, state.posts.get parentId = some parent ∧ parent.state ≠ .deleted := by
  unfold requireReplyTarget at target
  split at target
  · next top => exact .inl top
  · simp only [bind_eq_ok, requireSome_eq_ok, require_eq_ok, exists_const, bne_iff_ne] at target
    obtain ⟨parent, known, alive, _⟩ := target
    exact .inr ⟨parent, known, alive⟩

end Step

/-! ### A post and its versions -/

/-- What a stored post and its versions have in common: the first version made it, every later one
names the one before it, and the count is that of the versions as a machine word. -/
structure VersionsTracked (host : Host) (postId : Bytes) (record : PostRecord)
    (versions : List PublishArguments) : Prop where
  counted : record.versionCount = versions.length % 2 ^ 32
  made : ∃ first, versions.head? = some first ∧ first.previousVersion = [] ∧
    first.sequence = record.sequence ∧ first.replyTo = record.replyTo ∧
    AudienceKind.ofWire first.audience = some record.audience ∧
    computePostId host record.author.val record.sequence first.contentHash = .ok postId
  latest : ∃ last, versions.getLast? = some last ∧ last.contentHash = record.latestVersion
  signed : ∀ version ∈ versions, version.author = record.author.val
  chained : versions.IsChain fun earlier later => later.previousVersion = earlier.contentHash

/-- A stored post tracks its versions; a post that is not stored has none. -/
def PostTracked {host : Host} (postId : Bytes) (history : List (machine host).Accepted)
    (state : State) : Prop :=
  match state.posts.get postId with
  | none => versionsOf postId history = []
  | some record => VersionsTracked host postId record (versionsOf postId history)

section Tracked

variable {host : Host} {postId : Bytes} {history : List (machine host).Accepted} {state : State}

theorem PostTracked.of_none (tracked : PostTracked postId history state)
    (absent : state.posts.get postId = none) : versionsOf postId history = [] := by
  rw [PostTracked, absent] at tracked
  exact tracked

theorem PostTracked.of_some (tracked : PostTracked postId history state) {record : PostRecord}
    (known : state.posts.get postId = some record) :
    VersionsTracked host postId record (versionsOf postId history) := by
  rw [PostTracked, known] at tracked
  exact tracked

/-- An edit adds a version. -/
theorem VersionsTracked.edited {existing : PostRecord} {versions : List PublishArguments}
    (tracked : VersionsTracked host postId existing versions) {args : PublishArguments} (now : ℕ)
    (signed : args.author = existing.author.val)
    (current : args.previousVersion = existing.latestVersion) :
    VersionsTracked host postId (editedRecord existing args.contentHash now)
      (versions ++ [args]) where
  counted := by
    rw [editedRecord, tracked.counted, List.length_append, List.length_singleton, wrapAdd]
    exact Nat.mod_add_mod _ _ _
  made := by
    obtain ⟨first, head, rest⟩ := tracked.made
    exact ⟨first, by rw [List.head?_append, head, Option.some_or], rest⟩
  latest := ⟨args, List.getLast?_concat, rfl⟩
  signed := by
    intro version member
    rcases List.mem_append.mp member with old | new
    · exact tracked.signed version old
    · rw [List.mem_singleton.mp new]
      exact signed
  chained := by
    obtain ⟨last, final, hash⟩ := tracked.latest
    refine tracked.chained.append (List.isChain_singleton args) ?_
    intro before member after member'
    rw [final, Option.mem_some_iff] at member
    rw [List.head?_singleton, Option.mem_some_iff] at member'
    rw [← member, ← member', current, hash]

/-- The versions do not see the lifecycle. -/
theorem VersionsTracked.moved {record : PostRecord} {versions : List PublishArguments}
    (tracked : VersionsTracked host postId record versions) (target : LifecycleState) (now : ℕ) :
    VersionsTracked host postId { record with state := target, updatedAt := now } versions :=
  ⟨tracked.counted, tracked.made, tracked.latest, tracked.signed, tracked.chained⟩

theorem postTracked_step (entry : (machine host).Accepted)
    (tracked : PostTracked postId history entry.before) :
    PostTracked postId (history ++ [entry]) entry.after := by
  unfold PostTracked
  rw [versionsOf_concat]
  cases post_step (effect_of_entry entry) postId with
  | kept other same =>
    rw [same, other, Option.toList_none, List.append_nil]
    exact tracked
  | created author args audience called named signed first decoded fresh computed target stored =>
    rw [stored, called, publishOf_publish, if_pos named, Option.toList_some,
      tracked.of_none fresh, List.nil_append]
    exact
      { counted := rfl
        made := ⟨args, rfl, first, rfl, rfl, decoded, computed⟩
        latest := ⟨args, rfl, rfl⟩
        signed := fun version member => by rw [List.mem_singleton.mp member, signed]
        chained := List.isChain_singleton args }
  | edited args existing called named later signed known alive current stored =>
    rw [stored, called, publishOf_publish, if_pos named, Option.toList_some]
    exact (tracked.of_some known).edited entry.call.env.now signed current
  | moved args record target called named current known alive stored =>
    have other : publishOf postId entry.call.operation = none := by
      rw [called]
      rfl
    rw [stored, other, Option.toList_none, List.append_nil]
    exact (tracked.of_some known).moved target entry.call.env.now

/-- Every post of every run tracks its versions. -/
theorem postTracked_run (host : Host) (postId : Bytes) (calls : List Call) :
    PostTracked postId ((machine host).history empty calls) ((machine host).final empty calls) :=
  (machine host).run_induction empty (PostTracked postId) rfl
    (fun _ entry tracked => postTracked_step entry tracked) calls

end Tracked

/-! ### A post edited again and again -/

/-- A host whose hash is the same digest for everything. -/
def constantHost : Host := ⟨[], [], fun _ => List.replicate 32 7⟩

/-- The arguments of a version of one post by one author, with the same content every time. -/
def sameVersion (previousVersion : Bytes) : PublishArguments where
  author := (Address.repeated 1).val
  postId := List.replicate 32 7
  previousVersion := previousVersion
  sequence := 1
  audience := 0
  audienceId := []
  epoch := 0
  envelope := []
  contentHash := List.replicate 32 5
  media := []
  replyTo := []
  idempotencyKey := []
  device := []

/-- The author publishes a post and edits it a number of times. -/
def editRun (edits : ℕ) : List Call :=
  [⟨Env.signedBy [] 0, .setIdentityContract ⟨(Address.repeated 9).val⟩⟩,
    ⟨Env.signedBy [] 1, .publish (sameVersion [])⟩] ++
    List.replicate edits ⟨Env.signedBy [] 2, .publish (sameVersion (List.replicate 32 5))⟩

/-- The post can be edited with the same content. -/
structure Editable (state : State) (record : PostRecord) : Prop where
  identity : state.identity = some (Address.repeated 9)
  uncharged : state.usage = none
  known : state.posts.get (List.replicate 32 7) = some record
  author : record.author = Address.repeated 1
  active : record.state = .active
  latest : record.latestVersion = List.replicate 32 5
  audience : record.audience = .everyone
  thread : record.replyTo = []

/-- Another version with the same content is accepted. -/
theorem edit_accepted {state : State} {record : PostRecord} (editable : Editable state record) :
    execute constantHost state
        ⟨Env.signedBy [] 2, .publish (sameVersion (List.replicate 32 5))⟩ =
      .ok (state.putPost (List.replicate 32 7) (editedRecord record (List.replicate 32 5) 2),
        [.published (Address.repeated 1) (List.replicate 32 7) (List.replicate 32 5)
          (List.replicate 32 5) (wrapAdd 32 record.versionCount 1) record.sequence .everyone [] 0
          [] [] [] [] PROTOCOL_VERSION 2]) := by
  obtain ⟨identity, uncharged, known, author, active, latest, audience, thread⟩ := editable
  obtain ⟨usage, identity', relationships, posts, authors, idempotency⟩ := state
  obtain ⟨author', sequence, count, latest', state', replyTo, audience', created, updated⟩ := record
  simp only at identity uncharged known author active latest audience thread
  subst identity uncharged author active latest audience thread
  have capability : requiredCapability ⟨none, some (Address.repeated 9), relationships, posts,
      authors, idempotency⟩ (List.replicate 32 7) (List.replicate 32 5) [] =
      .ok Capability.PUBLISH := by
    unfold requiredCapability
    rw [known]
    rfl
  have written : writeVersion constantHost (Env.signedBy [] 2) (Address.repeated 1)
      (List.replicate 32 7) (List.replicate 32 5) (List.replicate 32 5) 1 .everyone [] []
      ⟨none, some (Address.repeated 9), relationships, posts, authors, idempotency⟩ =
      .ok (State.putPost ⟨none, some (Address.repeated 9), relationships, posts, authors,
        idempotency⟩ (List.replicate 32 7) (editedRecord ⟨Address.repeated 1, sequence, count, List.replicate 32 5, .active, [], .everyone, created, updated⟩ (List.replicate 32 5) 2),
        editedRecord ⟨Address.repeated 1, sequence, count, List.replicate 32 5, .active, [], .everyone, created, updated⟩ (List.replicate 32 5) 2) := by
    unfold writeVersion nextVersion
    rw [known]
    rfl
  simp only [execute, publish, sameVersion, bind_eq_ok]
  exact ⟨Address.repeated 1, rfl, _, rfl, _, rfl, (), rfl, .everyone, rfl, [], rfl, (), rfl, [], rfl,
    [], rfl, _, capability, _, rfl, _, written, (), rfl, rfl⟩

theorem Editable.edited {state : State} {record : PostRecord} (editable : Editable state record) :
    Editable (state.putPost (List.replicate 32 7) (editedRecord record (List.replicate 32 5) 2))
      (editedRecord record (List.replicate 32 5) 2) :=
  ⟨editable.identity, editable.uncharged, (Store.get_put _ _ _ _).trans (if_pos rfl),
    editable.author, editable.active, rfl, editable.audience, editable.thread⟩

/-- Every edit of the run is accepted and is a version. -/
theorem editRun_versions (edits : ℕ) :
    (∃ record, Editable ((machine constantHost).final empty (editRun edits)) record) ∧
      (versionsOf (List.replicate 32 7)
        ((machine constantHost).history empty (editRun edits))).length = edits + 1 := by
  induction edits with
  | zero =>
    refine ⟨⟨⟨Address.repeated 1, 1, 1, List.replicate 32 5, .active, [], .everyone, 1, 1⟩, ?_⟩,
      by decide +kernel⟩
    exact ⟨by decide +kernel, by decide +kernel, by decide +kernel, rfl, rfl, rfl, rfl, rfl⟩
  | succ edits inductionHypothesis =>
    obtain ⟨⟨record, editable⟩, counted⟩ := inductionHypothesis
    have longer : editRun (edits + 1) = editRun edits ++
        [⟨Env.signedBy [] 2, .publish (sameVersion (List.replicate 32 5))⟩] := by
      rw [editRun, List.replicate_succ', ← List.append_assoc, ← editRun]
    have accepted : (machine constantHost).step
        ((machine constantHost).final empty (editRun edits))
        ⟨Env.signedBy [] 2, .publish (sameVersion (List.replicate 32 5))⟩ = .ok (_, _) :=
      edit_accepted editable
    have final := (machine constantHost).final_concat_of_ok accepted
    have history := (machine constantHost).history_concat_of_ok accepted
    rw [longer]
    refine ⟨⟨_, final ▸ editable.edited⟩, ?_⟩
    rw [history, versionsOf_concat, List.length_append, counted]
    rfl

/-- With as many versions as the machine word has values the count of the post is zero. -/
theorem editRun_miscounted (edits : ℕ) (full : edits + 1 = 2 ^ 32) :
    (versionsOf (List.replicate 32 7)
        ((machine constantHost).history empty (editRun edits))).length = 2 ^ 32 ∧
      ∃ record, ((machine constantHost).final empty (editRun edits)).posts.get
          (List.replicate 32 7) = some record ∧
        record.versionCount = 0 := by
  obtain ⟨⟨record, editable⟩, counted⟩ := editRun_versions edits
  have tracked := postTracked_run constantHost (List.replicate 32 7) (editRun edits)
  have count := (tracked.of_some editable.known).counted
  rw [counted, full, Nat.mod_self] at count
  exact ⟨counted.trans full, record, editable.known, count⟩

end OpenSocial.Publications

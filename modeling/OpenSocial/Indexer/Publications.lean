/-
This file compares the publications projection with the publications contract.

The reactions table holds exactly the reactions that were not taken back. A post
and its versions agree exactly while the post has fewer versions than a machine
word counts: the contract's count then starts again at zero, which the
projection reads as one.
-/

import OpenSocial.Indexer.Projections
import OpenSocial.Library.Mirror
import OpenSocial.Publications.History

namespace OpenSocial.Indexer

open Library Library.Word Publications

/-! ### What is compared -/

/-- Posts are kept under their id by both, and a row shows everything a record holds. -/
def postLink : Correspondence Bytes Bytes Bytes PostRow PostRecord PostRecord where
  tableKey := id
  storeKey := id
  aligned := Correspondence.aligned_id
  ofRow row :=
    ⟨row.author, row.sequence, row.versionNumber, row.contentHash, row.state, row.replyTo,
      row.audience, row.createdAt, row.updatedAt⟩
  ofRecord := id

/-- What is compared of a version. -/
structure VersionView where
  contentHash : Bytes
  previousVersion : Bytes
  envelope : Bytes
  media : List MediaRef
  deriving DecidableEq, Repr

def VersionView.ofRow (row : PostVersionRow) : VersionView :=
  ⟨row.contentHash, row.previousVersion, row.envelope, row.media⟩

def VersionView.ofArguments (args : PublishArguments) : VersionView :=
  ⟨args.contentHash, args.previousVersion, args.envelope, args.media⟩

/-- The version rows of a post are its versions, numbered from one in order. -/
structure VersionsListed (db : Database) (postId : Bytes) (versions : List PublishArguments) :
    Prop where
  unnumbered : db.postVersions.get (postId, 0) = none
  numbered : ∀ index, (db.postVersions.get (postId, index + 1)).map VersionView.ofRow =
    versions[index]?.map VersionView.ofArguments

/-- The post and its versions are shown as the contract has them. -/
structure PostRefined {host : Host} (history : List (machine host).Accepted) (db : Database)
    (state : State) (postId : Bytes) : Prop where
  post : postLink.Agrees db.posts state.posts postId
  versions : VersionsListed db postId (versionsOf postId history)

/-! ### Reactions -/

/-- Whether a reaction of an actor to a post was taken back, for a call that is about it. -/
def reactionOf (postId : Bytes) (actor : Address) (reaction : ℕ) : Operation → Option Bool
  | .react args =>
    if args.postId = postId ∧ args.actor = actor.val ∧ args.reaction = reaction then
      some args.remove
    else none
  | _ => none

/-- The accepted calls about a reaction, in order. -/
def reactionsOf {host : Host} (postId : Bytes) (actor : Address) (reaction : ℕ)
    (history : List (machine host).Accepted) : List Bool :=
  history.filterMap fun entry => reactionOf postId actor reaction entry.call.operation

theorem reactionsOf_concat {host : Host} (postId : Bytes) (actor : Address) (reaction : ℕ)
    (history : List (machine host).Accepted) (entry : (machine host).Accepted) :
    reactionsOf postId actor reaction (history ++ [entry]) =
      reactionsOf postId actor reaction history ++
        (reactionOf postId actor reaction entry.call.operation).toList :=
  Machine.filterMap_concat _ history entry

/-- A row stands for a reaction whose last event was not a removal. -/
def ReactionShown {host : Host} (history : List (machine host).Accepted) (db : Database)
    (postId : Bytes) (actor : Address) (reaction : ℕ) : Prop :=
  (db.reactions.get (postId, actor, reaction)).isSome = true ↔
    (reactionsOf postId actor reaction history).getLast? = some false

/-! ### The handlers -/

section Handlers

variable (sdk : Sdk) {db : Database} (log : LogEvent) (author : Address)
  {postId : Bytes} (contentHash previousVersion : Bytes) (version sequence : ℕ)
  (audience : AudienceKind) (audienceId : Bytes) (epoch : ℕ) (envelope : Bytes)
  (media : List MediaRef) (replyTo idempotencyKey : Bytes) (protocolVersion timestamp : ℕ)

/-- The published event of an unknown post writes the post and its version. -/
theorem applyPublished_new (absent : db.posts.get postId = none) :
    ∃ post row notifications,
      applyPublications sdk db log (.published author postId contentHash previousVersion version
          sequence audience audienceId epoch envelope media replyTo idempotencyKey protocolVersion
          timestamp) =
        { db with
          posts := db.posts.put postId post
          postVersions := db.postVersions.put (postId, versionNumberOf version) row
          notifications := notifications } ∧
      postLink.ofRow post =
        ⟨author, sequence, versionNumberOf version, contentHash, .active, replyTo, audience,
          timestamp, timestamp⟩ ∧
      VersionView.ofRow row = ⟨contentHash, previousVersion, envelope, media⟩ := by
  simp only [applyPublications, absent]
  obtain ⟨rows, notified⟩ := notifyReply_eq _ log _ author postId replyTo
  exact ⟨_, _, rows, notified, rfl, rfl⟩

/-- The published event of a known post changes the post and writes its version. -/
theorem applyPublished_known {old : PostRow} (known : db.posts.get postId = some old) :
    ∃ change row,
      applyPublications sdk db log (.published author postId contentHash previousVersion version
          sequence audience audienceId epoch envelope media replyTo idempotencyKey protocolVersion
          timestamp) =
        { db with
          posts := db.posts.modify postId change
          postVersions := db.postVersions.put (postId, versionNumberOf version) row } ∧
      (∀ old, postLink.ofRow (change old) =
        { postLink.ofRow old with
          versionCount := versionNumberOf version
          latestVersion := contentHash
          updatedAt := timestamp }) ∧
      VersionView.ofRow row = ⟨contentHash, previousVersion, envelope, media⟩ := by
  simp only [applyPublications, known]
  exact ⟨_, _, rfl, fun old => rfl, rfl⟩

/-- The published event of one post leaves the rows of the others. -/
theorem applyPublished_other {other : Bytes} (different : other ≠ postId) :
    (applyPublications sdk db log (.published author postId contentHash previousVersion version
        sequence audience audienceId epoch envelope media replyTo idempotencyKey protocolVersion
        timestamp)).posts.get other = db.posts.get other ∧
      ∀ number, (applyPublications sdk db log (.published author postId contentHash previousVersion
          version sequence audience audienceId epoch envelope media replyTo idempotencyKey
          protocolVersion timestamp)).postVersions.get (other, number) =
        db.postVersions.get (other, number) := by
  have distinct : ∀ number written : ℕ, (other, number) ≠ (postId, written) :=
    fun number written same => different (Prod.mk.inj same).1
  cases known : db.posts.get postId with
  | none =>
    obtain ⟨post, row, rows, applied, _⟩ := applyPublished_new sdk log author contentHash
      previousVersion version sequence audience audienceId epoch envelope media replyTo
      idempotencyKey protocolVersion timestamp known
    rw [applied]
    refine ⟨?_, fun number => ?_⟩
    · rw [Store.get_put, if_neg different]
    · rw [Store.get_put, if_neg (distinct number _)]
  | some old =>
    obtain ⟨change, row, applied, _⟩ := applyPublished_known sdk log author contentHash
      previousVersion version sequence audience audienceId epoch envelope media replyTo
      idempotencyKey protocolVersion timestamp known
    rw [applied]
    refine ⟨?_, fun number => ?_⟩
    · rw [Store.get_modify, if_neg different]
    · rw [Store.get_put, if_neg (distinct number _)]

/-- Publishing writes one version row, and no reaction. -/
theorem applyPublished_versions :
    (∃ row, (applyPublications sdk db log (.published author postId contentHash previousVersion
        version sequence audience audienceId epoch envelope media replyTo idempotencyKey
        protocolVersion timestamp)).postVersions =
      db.postVersions.put (postId, versionNumberOf version) row) ∧
      (applyPublications sdk db log (.published author postId contentHash previousVersion version
        sequence audience audienceId epoch envelope media replyTo idempotencyKey protocolVersion
        timestamp)).reactions = db.reactions := by
  cases known : db.posts.get postId with
  | none =>
    obtain ⟨post, row, rows, applied, _⟩ := applyPublished_new sdk log author contentHash
      previousVersion version sequence audience audienceId epoch envelope media replyTo
      idempotencyKey protocolVersion timestamp known
    rw [applied]
    exact ⟨⟨row, rfl⟩, rfl⟩
  | some old =>
    obtain ⟨change, row, applied, _⟩ := applyPublished_known sdk log author contentHash
      previousVersion version sequence audience audienceId epoch envelope media replyTo
      idempotencyKey protocolVersion timestamp known
    rw [applied]
    exact ⟨⟨row, rfl⟩, rfl⟩

/-- A reaction event writes the reactions and the notifications alone. -/
theorem applyReaction_eq (db : Database) (actor : Address) (postId : Bytes) (postAuthor : Address)
    (reaction : ℕ) (removed : Bool) (timestamp : ℕ) :
    ∃ reactions notifications,
      applyPublications sdk db log (.reaction actor postId postAuthor reaction removed timestamp) =
        { db with reactions := reactions, notifications := notifications } := by
  simp only [applyPublications]
  split
  · exact ⟨_, _, rfl⟩
  · obtain ⟨rows, notified⟩ := notify_eq _ log _ _
    exact ⟨_, rows, notified⟩

/-- A key package event writes the key packages and the notifications alone. -/
theorem applyKeys_eq (db : Database) (author : Address) (audienceId : Bytes) (epoch : ℕ)
    (packages : Bytes) (timestamp : ℕ) :
    ∃ keyPackages notifications,
      applyPublications sdk db log (.keysDistributed author audienceId epoch packages timestamp) =
        { db with keyPackages := keyPackages, notifications := notifications } := by
  simp only [applyPublications]
  split
  · exact ⟨_, _, rfl⟩
  · exact foldl_applySealedKey_eq log _ author audienceId epoch db _

end Handlers

theorem versionNumberOf_lt {version : ℕ} (bounded : version < 2 ^ 32) :
    versionNumberOf version < 2 ^ 32 := by
  unfold versionNumberOf
  split
  · decide
  · exact bounded

theorem versionNumberOf_succ (version : ℕ) : versionNumberOf (version + 1) = version + 1 := by
  rw [versionNumberOf, if_neg (Nat.succ_ne_zero version)]

/-! ### One post, one call -/

/-- What is known of the rows of a post: no row has a number beyond the machine word, and as long as
the versions fit into it, the rows are those of the contract. -/
structure RowsTracked (versions : List PublishArguments) (db : Database) (state : State)
    (postId : Bytes) : Prop where
  bounded : ∀ number row, db.postVersions.get (postId, number) = some row → number < 2 ^ 32
  post : versions.length < 2 ^ 32 → postLink.Agrees db.posts state.posts postId
  listed : versions.length < 2 ^ 32 → VersionsListed db postId versions

section Step

variable (sdk : Sdk) {host : Host} {env : Env} {operation : Operation} {state after : State}
  {events : List Event} {db next : Database} {records : List LogEvent} {postId : Bytes}
  {versions : List PublishArguments}

/-- The next version of a post gets the next row. -/
theorem VersionsListed.concat (listed : VersionsListed db postId versions) {args : PublishArguments}
    {row : PostVersionRow}
    (written : next.postVersions = db.postVersions.put (postId, versions.length + 1) row)
    (shown : VersionView.ofRow row = VersionView.ofArguments args) :
    VersionsListed next postId (versions ++ [args]) where
  unnumbered := by
    rw [written, Store.get_put, if_neg fun same => absurd (Prod.mk.inj same).2 (by simp)]
    exact listed.unnumbered
  numbered index := by
    rw [written, Store.get_put]
    by_cases last : index = versions.length
    · rw [if_pos (by rw [last]), last, List.getElem?_concat_length, Option.map_some,
        Option.map_some, shown]
    · rw [if_neg fun same => last (Nat.succ.inj (Prod.mk.inj same).2), listed.numbered index]
      rcases Nat.lt_or_gt_of_ne last with before | beyond
      · rw [List.getElem?_append_left before]
      · rw [List.getElem?_eq_none beyond.le, List.getElem?_eq_none]
        rw [List.length_append, List.length_singleton]
        exact beyond

/-- What happens to a post depends on its rows and its record alone. -/
theorem RowsTracked.congr (tracked : RowsTracked versions db state postId)
    (post : next.posts.get postId = db.posts.get postId)
    (rows : ∀ number, next.postVersions.get (postId, number) = db.postVersions.get (postId, number))
    (stored : after.posts.get postId = state.posts.get postId) :
    RowsTracked versions next after postId where
  bounded number row present := tracked.bounded number row ((rows number).symm.trans present)
  post fits := by
    have agree : (db.posts.get postId).map postLink.ofRow =
      (state.posts.get postId).map postLink.ofRecord := tracked.post fits
    rw [← post, ← stored] at agree
    exact agree
  listed fits :=
    { unnumbered := (rows 0).trans (tracked.listed fits).unnumbered
      numbered := fun index => by
        rw [rows]
        exact (tracked.listed fits).numbered index }

/-- A version row with a machine word for its number keeps the bound. -/
theorem RowsTracked.bounded_put (tracked : RowsTracked versions db state postId) {written : ℕ}
    {row : PostVersionRow} (fits : written < 2 ^ 32)
    (rows : next.postVersions = db.postVersions.put (postId, written) row) (number : ℕ)
    (found : PostVersionRow) (present : next.postVersions.get (postId, number) = some found) :
    number < 2 ^ 32 := by
  rw [rows, Store.get_put] at present
  split at present
  · next same =>
    rw [(Prod.mk.inj same).2]
    exact fits
  · exact tracked.bounded number found present

/-- A call that publishes nothing and writes no row of the posts. -/
theorem rowsTracked_idle (tracked : RowsTracked versions db state postId)
    (posts : next.posts = db.posts) (rows : next.postVersions = db.postVersions)
    (stored : after.posts = state.posts) : RowsTracked versions next after postId :=
  tracked.congr (by rw [posts]) (fun number => by rw [rows]) (by rw [stored])

/-- The first version of a post makes its row and its version row. -/
theorem rowsTracked_created (tracked : RowsTracked [] db state postId)
    (fresh : state.posts.get postId = none) (author : Address) (args : PublishArguments)
    (named : args.postId = postId) (first : args.previousVersion = []) (audience : AudienceKind)
    (now : ℕ) (log : LogEvent)
    (stored : after.posts = state.posts.put postId
      ⟨author, args.sequence, 1, args.contentHash, .active, args.replyTo, audience, now, now⟩) :
    RowsTracked [args]
      (applyPublications sdk db log (.published author args.postId args.contentHash [] 1
        args.sequence audience args.audienceId args.epoch args.envelope args.media args.replyTo
        args.idempotencyKey PROTOCOL_VERSION now)) after postId := by
  subst named
  have small : ([] : List PublishArguments).length < 2 ^ 32 := by decide
  have absent : db.posts.get args.postId = none := by
    have agree : (db.posts.get args.postId).map postLink.ofRow =
      (state.posts.get args.postId).map postLink.ofRecord := tracked.post small
    rw [fresh, Option.map_none, Option.map_eq_none_iff] at agree
    exact agree
  obtain ⟨post, row, rows, applied, shown, version⟩ := applyPublished_new sdk log author
    args.contentHash [] 1 args.sequence audience args.audienceId args.epoch args.envelope args.media
    args.replyTo args.idempotencyKey PROTOCOL_VERSION now absent
  rw [applied]
  refine ⟨tracked.bounded_put (by decide) rfl, fun _ => ?_, fun _ => ?_⟩
  · rw [stored]
    show postLink.Agrees (db.posts.put (postLink.tableKey args.postId) post)
      (state.posts.put (postLink.storeKey args.postId) _) args.postId
    exact Correspondence.agrees_put shown
  · refine (tracked.listed small).concat rfl ?_
    rw [version, VersionView.ofArguments, first]

/-- An edit of a post changes its row and makes a version row, as long as the count fits. -/
theorem rowsTracked_edited (tracked : RowsTracked versions db state postId)
    {existing : PostRecord} (known : state.posts.get postId = some existing)
    (counted : existing.versionCount = versions.length % 2 ^ 32) (author : Address)
    (args : PublishArguments) (named : args.postId = postId) (now : ℕ) (log : LogEvent)
    (stored : after.posts =
      state.posts.put postId (editedRecord existing args.contentHash now)) :
    RowsTracked (versions ++ [args])
      (applyPublications sdk db log (.published author args.postId args.contentHash
        args.previousVersion (wrapAdd 32 existing.versionCount 1) existing.sequence existing.audience
        args.audienceId args.epoch args.envelope args.media existing.replyTo args.idempotencyKey
        PROTOCOL_VERSION now)) after postId := by
  subst named
  have word : wrapAdd 32 existing.versionCount 1 < 2 ^ 32 := Nat.mod_lt _ (Nat.two_pow_pos 32)
  have bounded : ∀ number row, (applyPublications sdk db log (.published author args.postId
      args.contentHash args.previousVersion (wrapAdd 32 existing.versionCount 1) existing.sequence
      existing.audience args.audienceId args.epoch args.envelope args.media existing.replyTo
      args.idempotencyKey PROTOCOL_VERSION now)).postVersions.get (args.postId, number) = some row →
      number < 2 ^ 32 := by
    obtain ⟨⟨row, rows⟩, _⟩ := applyPublished_versions sdk log author args.contentHash
      args.previousVersion (wrapAdd 32 existing.versionCount 1) existing.sequence existing.audience
      args.audienceId args.epoch args.envelope args.media existing.replyTo args.idempotencyKey
      PROTOCOL_VERSION now
    exact tracked.bounded_put (versionNumberOf_lt word) rows
  by_cases fits : versions.length + 1 < 2 ^ 32
  · have next : versionNumberOf (wrapAdd 32 existing.versionCount 1) = versions.length + 1 := by
      rw [counted, Nat.mod_eq_of_lt (Nat.lt_of_succ_lt fits), wrapAdd_of_lt fits,
        versionNumberOf_succ]
    have word : wrapAdd 32 existing.versionCount 1 = versions.length + 1 := by
      rw [counted, Nat.mod_eq_of_lt (Nat.lt_of_succ_lt fits), wrapAdd_of_lt fits]
    have agree : (db.posts.get args.postId).map postLink.ofRow =
      (state.posts.get args.postId).map postLink.ofRecord :=
        tracked.post (Nat.lt_of_succ_lt fits)
    rw [known, Option.map_some, Option.map_eq_some_iff] at agree
    obtain ⟨old, present, view⟩ := agree
    obtain ⟨change, row, applied, shown, version⟩ := applyPublished_known sdk log author
      args.contentHash args.previousVersion (wrapAdd 32 existing.versionCount 1) existing.sequence
      existing.audience args.audienceId args.epoch args.envelope args.media existing.replyTo
      args.idempotencyKey PROTOCOL_VERSION now present
    refine ⟨bounded, fun _ => ?_, fun _ => ?_⟩
    · rw [applied, stored]
      refine Correspondence.agrees_modify (fun record => { record with
          versionCount := versions.length + 1
          latestVersion := args.contentHash
          updatedAt := now }) (tracked.post (Nat.lt_of_succ_lt fits)) known (fun old => ?_) ?_
      · rw [shown, next]
      · rw [editedRecord, word]
        rfl
    · rw [applied]
      refine (tracked.listed (Nat.lt_of_succ_lt fits)).concat ?_ version
      rw [next]
  · have outgrown : ¬(versions ++ [args]).length < 2 ^ 32 := by
      rw [List.length_append, List.length_singleton]
      exact fits
    exact ⟨bounded, fun small => absurd small outgrown, fun small => absurd small outgrown⟩

/-- A lifecycle event moves the row as the contract moves the record. -/
theorem rowsTracked_moved {record : PostRecord}
    (agree : postLink.Agrees db.posts state.posts postId)
    (known : state.posts.get postId = some record) (alive : record.state ≠ .deleted)
    (target : LifecycleState) (reason : String) (replacementId : Bytes) (now : ℕ) (log : LogEvent) :
    postLink.Agrees
      (applyPublications sdk db log (.lifecycle record.author postId record.latestVersion target
        reason replacementId now)).posts
      (state.posts.put postId { record with state := target, updatedAt := now }) postId := by
  have agree : (db.posts.get postId).map postLink.ofRow =
    (state.posts.get postId).map postLink.ofRecord := agree
  rw [known, Option.map_some, Option.map_eq_some_iff] at agree
  obtain ⟨row, present, view⟩ := agree
  have visible : row.state ≠ .deleted := by
    have same : row.state = record.state := congrArg PostRecord.state view
    rw [same]
    exact alive
  show ((db.posts.modify postId _).get postId).map postLink.ofRow =
    ((state.posts.put postId _).get postId).map postLink.ofRecord
  rw [Store.get_modify, Store.get_put, if_pos rfl, if_pos rfl, present, Option.map_some,
    Option.map_some, Option.map_some, if_neg visible]
  have view : postLink.ofRow row = record := view
  rw [← view]
  rfl

theorem rowsTracked_step (effect : Effect host env state operation after events)
    (logs : records.map LogEvent.event = events.map .publications)
    (unstored : state.posts.get postId = none → versions = [])
    (counted : ∀ record, state.posts.get postId = some record →
      record.versionCount = versions.length % 2 ^ 32)
    (tracked : RowsTracked versions db state postId) :
    RowsTracked (versions ++ (publishOf postId operation).toList)
      (records.foldl (applyEvent sdk) db) after postId := by
  cases effect with
  | firstPublished author args audience signer signed first wellFormed authorized fresh sequenced
      computed target unbound charged =>
    obtain ⟨log, event, applied⟩ := foldl_applyEvent_singleton sdk db logs
    rw [applied, applyEvent, event, publishOf_publish]
    by_cases named : args.postId = postId
    · rw [if_pos named, Option.toList_some]
      rw [named] at fresh
      obtain rfl := unstored fresh
      refine rowsTracked_created sdk tracked fresh author args named first audience env.now log ?_
      show (bindKey state author args.idempotencyKey args.postId).posts.put args.postId _ = _
      rw [bindKey_posts, named]
    · rw [if_neg named, Option.toList_none, List.append_nil]
      obtain ⟨posts, rows⟩ := applyPublished_other sdk log author args.contentHash [] 1 args.sequence
        audience args.audienceId args.epoch args.envelope args.media args.replyTo
        args.idempotencyKey PROTOCOL_VERSION env.now (Ne.symm named)
      refine tracked.congr posts rows ?_
      show ((bindKey state author args.idempotencyKey args.postId).posts.put args.postId _).get
        postId = _
      rw [bindKey_posts, Store.get_put, if_neg (Ne.symm named)]
  | edited author args existing signer signed later wellFormed authorized known own alive current
      thread unbound charged =>
    obtain ⟨log, event, applied⟩ := foldl_applyEvent_singleton sdk db logs
    rw [applied, applyEvent, event, publishOf_publish]
    by_cases named : args.postId = postId
    · rw [if_pos named, Option.toList_some]
      rw [named] at known
      refine rowsTracked_edited sdk tracked known (counted existing known) author args named env.now
        log ?_
      show (bindKey state author args.idempotencyKey args.postId).posts.put args.postId _ = _
      rw [bindKey_posts, named]
    · rw [if_neg named, Option.toList_none, List.append_nil]
      obtain ⟨posts, rows⟩ := applyPublished_other sdk log author args.contentHash
        args.previousVersion (wrapAdd 32 existing.versionCount 1) existing.sequence existing.audience
        args.audienceId args.epoch args.envelope args.media existing.replyTo args.idempotencyKey
        PROTOCOL_VERSION env.now (Ne.symm named)
      refine tracked.congr posts rows ?_
      show ((bindKey state author args.idempotencyKey args.postId).posts.put args.postId _).get
        postId = _
      rw [bindKey_posts, Store.get_put, if_neg (Ne.symm named)]
  | lifecycleSet author other wire target reason replacementId device record signer idLength decoded
      replaced authorized known own alive =>
    obtain ⟨log, event, applied⟩ := foldl_applyEvent_singleton sdk db logs
    rw [applied, applyEvent, event]
    show RowsTracked (versions ++ []) _ _ postId
    rw [List.append_nil]
    by_cases named : other = postId
    · subst named
      refine ⟨tracked.bounded, fun fits => ?_, fun fits => ?_⟩
      · exact rowsTracked_moved sdk (tracked.post fits) known alive target reason replacementId env.now
          log
      · exact ⟨(tracked.listed fits).unnumbered, (tracked.listed fits).numbered⟩
    · refine tracked.congr ?_ (fun number => rfl) ?_
      · exact (Store.get_modify _ _ _ _).trans (if_neg (Ne.symm named))
      · exact (Store.get_put _ _ _ _).trans (if_neg (Ne.symm named))
  | tokenContractSet address authorized =>
    rw [List.map_eq_nil_iff.mp logs]
    show RowsTracked (versions ++ []) _ _ postId
    rw [List.append_nil]
    exact rowsTracked_idle tracked rfl rfl rfl
  | identityContractSet address authorized =>
    rw [List.map_eq_nil_iff.mp logs]
    show RowsTracked (versions ++ []) _ _ postId
    rw [List.append_nil]
    exact rowsTracked_idle tracked rfl rfl rfl
  | relationshipsContractSet address authorized =>
    rw [List.map_eq_nil_iff.mp logs]
    show RowsTracked (versions ++ []) _ _ postId
    rw [List.append_nil]
    exact rowsTracked_idle tracked rfl rfl rfl
  | reacted actor other reaction remove device record signer idLength named authorized known alive
      charged =>
    obtain ⟨log, event, applied⟩ := foldl_applyEvent_singleton sdk db logs
    rw [applied, applyEvent, event]
    obtain ⟨_, _, written⟩ := applyReaction_eq sdk log db actor other record.author reaction remove
      env.now
    show RowsTracked (versions ++ []) (applyPublications sdk db log _) _ postId
    rw [List.append_nil, written]
    exact rowsTracked_idle tracked rfl rfl rfl
  | keysDistributed author audienceId epoch packages device signer present bounded authorized =>
    obtain ⟨log, event, applied⟩ := foldl_applyEvent_singleton sdk db logs
    rw [applied, applyEvent, event]
    obtain ⟨_, _, written⟩ := applyKeys_eq sdk log db author audienceId epoch packages env.now
    show RowsTracked (versions ++ []) (applyPublications sdk db log _) _ postId
    rw [List.append_nil, written]
    exact rowsTracked_idle tracked rfl rfl rfl
  | crossPostRecorded author idempotencyKey adapter wire outcome externalRef other manifestHash
      device signer decoded authorized owned succeeded =>
    obtain ⟨log, event, applied⟩ := foldl_applyEvent_singleton sdk db logs
    rw [applied, applyEvent, event]
    show RowsTracked (versions ++ []) _ _ postId
    rw [List.append_nil]
    exact rowsTracked_idle tracked rfl rfl rfl

/-- A reaction event writes or deletes the row of its reaction, and leaves the others. -/
theorem applyReaction_reactions (db : Database) (log : LogEvent) (actor : Address)
    (postId : Bytes) (postAuthor : Address) (reaction : ℕ) (removed : Bool) (timestamp : ℕ)
    (key : Bytes × Address × ℕ) :
    ((applyPublications sdk db log
        (.reaction actor postId postAuthor reaction removed timestamp)).reactions.get key).isSome =
      if key = (postId, actor, reaction) then !removed else (db.reactions.get key).isSome := by
  simp only [applyPublications]
  cases removed with
  | true =>
    rw [if_pos rfl]
    show ((db.reactions.remove (postId, actor, reaction)).get key).isSome = _
    rw [Store.get_remove]
    split
    · rfl
    · rfl
  | false =>
    rw [if_neg (by decide), notify_frame Database.reactions fun _ _ => rfl, Store.get_put]
    split
    · rfl
    · rfl

/-- What a call says about a reaction, its row shows. -/
theorem reactions_step (effect : Effect host env state operation after events)
    (logs : records.map LogEvent.event = events.map .publications) (actor : Address) (reaction : ℕ) :
    ((records.foldl (applyEvent sdk) db).reactions.get (postId, actor, reaction)).isSome =
      (reactionOf postId actor reaction operation).elim
        (db.reactions.get (postId, actor, reaction)).isSome fun removed => !removed := by
  cases effect with
  | firstPublished author args audience signer signed first wellFormed authorized fresh sequenced
      computed target unbound charged =>
    obtain ⟨log, event, applied⟩ := foldl_applyEvent_singleton sdk db logs
    rw [applied, applyEvent, event]
    obtain ⟨_, kept⟩ := applyPublished_versions sdk log author args.contentHash [] 1 args.sequence
      audience args.audienceId args.epoch args.envelope args.media args.replyTo args.idempotencyKey
      PROTOCOL_VERSION env.now
    exact congrArg (fun rows => (Store.get rows (postId, actor, reaction)).isSome) kept
  | edited author args existing signer signed later wellFormed authorized known own alive current
      thread unbound charged =>
    obtain ⟨log, event, applied⟩ := foldl_applyEvent_singleton sdk db logs
    rw [applied, applyEvent, event]
    obtain ⟨_, kept⟩ := applyPublished_versions sdk log author args.contentHash
      args.previousVersion (wrapAdd 32 existing.versionCount 1) existing.sequence existing.audience
      args.audienceId args.epoch args.envelope args.media existing.replyTo args.idempotencyKey
      PROTOCOL_VERSION env.now
    exact congrArg (fun rows => (Store.get rows (postId, actor, reaction)).isSome) kept
  | lifecycleSet author other wire target reason replacementId device record signer idLength decoded
      replaced authorized known own alive =>
    obtain ⟨log, event, applied⟩ := foldl_applyEvent_singleton sdk db logs
    rw [applied, applyEvent, event]
    rfl
  | tokenContractSet address authorized =>
    rw [List.map_eq_nil_iff.mp logs]
    rfl
  | identityContractSet address authorized =>
    rw [List.map_eq_nil_iff.mp logs]
    rfl
  | relationshipsContractSet address authorized =>
    rw [List.map_eq_nil_iff.mp logs]
    rfl
  | reacted other id kind remove device record signer idLength named authorized known alive
      charged =>
    obtain ⟨log, event, applied⟩ := foldl_applyEvent_singleton sdk db logs
    rw [applied, applyEvent, event]
    show ((applyPublications sdk db log _).reactions.get (postId, actor, reaction)).isSome = _
    rw [applyReaction_reactions, reactionOf]
    by_cases same : (postId, actor, reaction) = (id, other, kind)
    · rw [Prod.mk.injEq, Prod.mk.injEq] at same
      obtain ⟨rfl, rfl, rfl⟩ := same
      rw [if_pos rfl, if_pos ⟨rfl, rfl, rfl⟩, Option.elim_some]
    · have different : ¬(id = postId ∧ other.val = actor.val ∧ kind = reaction) := by
        rintro ⟨rfl, equal, rfl⟩
        exact same (by rw [Subtype.ext equal])
      rw [if_neg same, if_neg different, Option.elim_none]
  | keysDistributed author audienceId epoch packages device signer present bounded authorized =>
    obtain ⟨log, event, applied⟩ := foldl_applyEvent_singleton sdk db logs
    rw [applied, applyEvent, event]
    obtain ⟨_, _, written⟩ := applyKeys_eq sdk log db author audienceId epoch packages env.now
    show ((applyPublications sdk db log _).reactions.get (postId, actor, reaction)).isSome = _
    rw [written]
    rfl
  | crossPostRecorded author idempotencyKey adapter wire outcome externalRef other manifestHash
      device signer decoded authorized owned succeeded =>
    obtain ⟨log, event, applied⟩ := foldl_applyEvent_singleton sdk db logs
    rw [applied, applyEvent, event]
    rfl

end Step

/-! ### Every run -/

section Run

variable (sdk : Sdk) {host : Host}

theorem reactionShown_step {history : List (machine host).Accepted}
    (entry : (machine host).Accepted) {db : Database} {records : List LogEvent}
    (logs : records.map LogEvent.event = entry.output.map .publications) (postId : Bytes)
    (actor : Address) (reaction : ℕ) (shown : ReactionShown history db postId actor reaction) :
    ReactionShown (history ++ [entry]) (records.foldl (applyEvent sdk) db) postId actor
      reaction := by
  unfold ReactionShown
  rw [reactions_step sdk (effect_of_entry entry) logs, reactionsOf_concat]
  cases reactionOf postId actor reaction entry.call.operation with
  | none =>
    rw [Option.elim_none, Option.toList_none, List.append_nil]
    exact shown
  | some removed =>
    rw [Option.elim_some, Option.toList_some, List.getLast?_concat, Option.some.injEq,
      Bool.not_eq_true']

/-- The invariant of a run. -/
structure PublicationsTracked (history : List (machine host).Accepted) (state : State)
    (db : Database) : Prop where
  posts : ∀ postId, PostTracked postId history state
  rows : ∀ postId, RowsTracked (versionsOf postId history) db state postId
  reactions : ∀ postId actor reaction, ReactionShown history db postId actor reaction

theorem publicationsTracked_empty : PublicationsTracked ([] : List (machine host).Accepted) empty .empty where
  posts _ := rfl
  rows postId :=
    { bounded := fun number row present => absurd present (by simp [Database.empty])
      post := fun _ => Correspondence.mirrors_empty postId
      listed := fun _ => ⟨rfl, fun index => rfl⟩ }
  reactions postId actor reaction := by
    simp [ReactionShown, Database.empty, reactionsOf]

theorem publicationsTracked_step {history : List (machine host).Accepted}
    (entry : (machine host).Accepted) {db : Database} {records : List LogEvent}
    (logs : records.map LogEvent.event = entry.output.map .publications)
    (tracked : PublicationsTracked history entry.before db) :
    PublicationsTracked (history ++ [entry]) entry.after
      (records.foldl (applyEvent sdk) db) where
  posts postId := postTracked_step entry (tracked.posts postId)
  rows postId := by
    rw [versionsOf_concat]
    exact rowsTracked_step sdk (effect_of_entry entry) logs (tracked.posts postId).of_none
      (fun record known => ((tracked.posts postId).of_some known).counted) (tracked.rows postId)
  reactions postId actor reaction :=
    reactionShown_step sdk entry logs postId actor reaction (tracked.reactions postId actor reaction)

theorem publicationsTracked_run (calls : List Call) (records : List LogEvent)
    (logs : (machine host).Logs (List.map ProtocolEvent.publications) LogEvent.event
      ((machine host).history empty calls) records) :
    PublicationsTracked ((machine host).history empty calls) ((machine host).final empty calls)
      (replayProjections sdk records) :=
  (machine host).projection_induction (List.map ProtocolEvent.publications) LogEvent.event
    (applyEvent sdk) empty .empty PublicationsTracked publicationsTracked_empty
    (fun _ entry _ _ tracked logs => publicationsTracked_step sdk entry logs tracked) calls records
    logs

/-- A post with as many versions as a machine word has values misses a version row. -/
theorem postRefined_iff {history : List (machine host).Accepted} {state : State} {db : Database}
    (tracked : PublicationsTracked history state db) (postId : Bytes) :
    PostRefined history db state postId ↔ (versionsOf postId history).length < 2 ^ 32 := by
  constructor
  · intro refined
    by_contra outgrown
    have listed := refined.versions.numbered (2 ^ 32 - 1)
    rw [List.getElem?_eq_getElem (by omega), Option.map_some, Option.map_eq_some_iff] at listed
    obtain ⟨row, present, _⟩ := listed
    exact absurd ((tracked.rows postId).bounded _ _ present) (by omega)
  · intro fits
    exact ⟨(tracked.rows postId).post fits, (tracked.rows postId).listed fits⟩

/-- After every run and every log of it, the reactions are those that were not taken back, and a
post and its versions agree exactly while it has fewer than two to the thirty-second versions. -/
theorem publications_refined_iff (calls : List Call) (records : List LogEvent)
    (logs : (machine host).Logs (List.map ProtocolEvent.publications) LogEvent.event
      ((machine host).history empty calls) records) :
    (∀ postId actor reaction,
        ReactionShown ((machine host).history empty calls) (replayProjections sdk records) postId
          actor reaction) ∧
      ∀ postId,
        PostRefined ((machine host).history empty calls) (replayProjections sdk records)
            ((machine host).final empty calls) postId ↔
          (versionsOf postId ((machine host).history empty calls)).length < 2 ^ 32 := by
  have tracked := publicationsTracked_run sdk calls records logs
  exact ⟨tracked.reactions, postRefined_iff tracked⟩

end Run

/-! ### A post edited too often -/

/-- The log of a post that is edited a number of times. -/
def editLog (edits : ℕ) : List LogEvent :=
  logOf ((machine constantHost).emitted (List.map ProtocolEvent.publications)
    ((machine constantHost).history empty (editRun edits)))

theorem publications_refined_iff_editRun :
    ((machine constantHost).history empty (editRun 2)).length = 4 ∧
      PostRefined ((machine constantHost).history empty (editRun 2))
        (replayProjections Sdk.standard (editLog 2))
        ((machine constantHost).final empty (editRun 2)) (List.replicate 32 7) := by
  obtain ⟨_, refined⟩ := publications_refined_iff Sdk.standard (editRun 2) (editLog 2)
    (map_event_logOf _)
  exact ⟨by decide +kernel, (refined (List.replicate 32 7)).mpr (by decide +kernel)⟩

/-- The contract counts zero versions of a post that has all of them. -/
theorem edited_post_unrefined :
    (machine constantHost).Logs (List.map ProtocolEvent.publications) LogEvent.event
        ((machine constantHost).history empty (editRun 4294967295)) (editLog 4294967295) ∧
      (∃ record, ((machine constantHost).final empty (editRun 4294967295)).posts.get
          (List.replicate 32 7) = some record ∧ record.versionCount = 0) ∧
      ¬ PostRefined ((machine constantHost).history empty (editRun 4294967295))
        (replayProjections Sdk.standard (editLog 4294967295))
        ((machine constantHost).final empty (editRun 4294967295)) (List.replicate 32 7) := by
  obtain ⟨counted, record, known, count⟩ := editRun_miscounted 4294967295 rfl
  refine ⟨map_event_logOf _, ⟨record, known, count⟩, ?_⟩
  have tracked := publicationsTracked_run Sdk.standard (editRun 4294967295) (editLog 4294967295)
    (map_event_logOf _)
  rw [postRefined_iff tracked, counted]
  exact lt_irrefl _

end OpenSocial.Indexer

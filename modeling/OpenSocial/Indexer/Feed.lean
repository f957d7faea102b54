/-
This file models the listings of posts (the feed, an account's posts and the replies to
a post) and proves that paging through them loses nothing.

A post is listed at the position of the event that published it first. The positions of
a log are those of its primary key, so no two posts share one, and neither an edit nor
any other event moves a post. Cursors are positions as texts; the numbers of a log are
safe integers, the only ones the database reads.
-/

import OpenSocial.Indexer.Integrity
import OpenSocial.Indexer.Publications
import OpenSocial.Library.Base64
import OpenSocial.Library.Paging
import OpenSocial.Library.Utf16
import OpenSocial.Sdk.Ids

namespace OpenSocial.Indexer

open Library

/-! ### Cursors -/

abbrev PositionCursor := ℕ × ℕ × ℕ

/-- `2 ** 53`: integers below it are safe. -/
def SAFE : ℕ := 2 ^ 53

/-- A position whose numbers are safe integers. -/
def Safe (position : PositionCursor) : Prop :=
  position.1 < SAFE ∧ position.2.1 < SAFE ∧ position.2.2 < SAFE

/-- `position.join(":")`. -/
def cursorText (position : PositionCursor) : List Char :=
  List.intercalate [':'] [position.1.repr.toList, position.2.1.repr.toList,
    position.2.2.repr.toList]

def encodeCursor (position : PositionCursor) : List Char :=
  Base64.encode (Utf16.bytesOf (cursorText position))

/-- The safe integer of some decimal digits. -/
def cursorNumber (text : List Char) : Option ℕ :=
  (Sdk.digits text).filter fun number => number < SAFE

def decodeCursor (cursor : List Char) : Option PositionCursor :=
  match String.fromUTF8? ⟨(Base64.decode cursor).toArray⟩ with
  | none => none
  | some text =>
    match (text.toList.splitOn ':').map cursorNumber with
    | [some height, some txIndex, some sequence] => some (height, txIndex, sequence)
    | _ => none

theorem no_colon (number : ℕ) : ':' ∉ number.repr.toList := by
  intro member
  rw [Nat.toList_repr] at member
  have digit : Char.isDigit ':' = true :=
    Nat.isDigit_of_mem_toDigits (by decide) (by decide) member
  exact absurd digit (by decide)

theorem cursorNumber_repr {number : ℕ} (safe : number < SAFE) :
    cursorNumber number.repr.toList = some number := by
  rw [cursorNumber, Sdk.digits_repr, Option.filter_some, if_pos (decide_eq_true safe)]

/-- A cursor is read back. -/
theorem decodeCursor_encodeCursor {position : PositionCursor} (safe : Safe position) :
    decodeCursor (encodeCursor position) = some position := by
  have parts : (cursorText position).splitOn ':' = [position.1.repr.toList,
      position.2.1.repr.toList, position.2.2.repr.toList] := by
    refine List.splitOn_intercalate ':' ?_ (List.cons_ne_nil _ _)
    simp only [List.mem_cons, List.not_mem_nil, or_false]
    rintro part (rfl | rfl | rfl)
    · exact no_colon position.1
    · exact no_colon position.2.1
    · exact no_colon position.2.2
  unfold decodeCursor encodeCursor
  rw [Base64.decode_encode, Utf16.fromUTF8_bytesOf]
  dsimp only
  rw [String.toList_ofList, parts, List.map_cons, List.map_cons, List.map_cons, List.map_nil,
    cursorNumber_repr safe.1, cursorNumber_repr safe.2.1, cursorNumber_repr safe.2.2]

/-! ### Views -/

structure LabelView where
  communityId : Bytes
  postId : Bytes
  label : String
  reason : String
  actor : Address
  timestamp : ℕ
  blockHeight : ℕ
  txId : String

structure PostVersionView where
  contentHash : Bytes
  versionNumber : ℕ
  txId : String
  blockHeight : ℕ
  timestamp : ℕ

structure ReactionsView where
  total : ℕ
  byType : List (ℕ × ℕ)
  viewer : Option (List ℕ)

structure PostView where
  postId : Bytes
  author : Address
  sequence : ℕ
  versionNumber : ℕ
  contentHash : Bytes
  previousVersion : Bytes
  audience : AudienceKind
  audienceId : Bytes
  epoch : ℕ
  envelope : Bytes
  media : List Publications.MediaRef
  replyTo : Bytes
  state : LifecycleState
  stateReason : String
  replacementId : Bytes
  createdAt : ℕ
  updatedAt : ℕ
  txId : String
  blockHeight : ℕ
  reactions : ReactionsView
  replyCount : ℕ
  versions : List PostVersionView
  labels : List LabelView

/-- Bytes rank by their numbers. -/
def byteRank : Bytes ↪ List ℕ :=
  ⟨List.map UInt8.toNat, List.map_injective_iff.mpr fun _ _ => UInt8.toNat_inj.mp⟩

def positionRank : ℕ × ℕ × ℕ ↪ ℕ ×ₗ ℕ ×ₗ ℕ :=
  ⟨fun position => toLex (position.1, toLex position.2), fun first second same => by
    simpa [Prod.ext_iff] using same⟩

def versionRank : Bytes × ℕ ↪ List ℕ ×ₗ ℕ :=
  ⟨fun key => toLex (byteRank key.1, key.2), fun first second same => by
    simpa [Prod.ext_iff] using same⟩

def reactionRank : Bytes × Address × ℕ ↪ List ℕ ×ₗ ℕ ×ₗ List ℕ :=
  ⟨fun key => toLex (byteRank key.1, toLex (key.2.2, byteRank key.2.1.val)),
    fun first second same => by
      simpa [Prod.ext_iff, Subtype.ext_iff, and_comm] using same⟩

/-- `state NOT IN (1, 2)`. -/
def isRedactedState (state : LifecycleState) : Bool :=
  state == .authorHidden || state == .deleted

def labelsForPost (db : Database) (postId : Bytes) : List LabelView :=
  ((db.labels.rows positionRank).filter fun entry => entry.2.postId = postId).map fun entry =>
    ⟨entry.2.communityId, entry.2.postId, entry.2.label, entry.2.reason, entry.2.actor,
      entry.2.timestamp, entry.1.1, entry.2.txId⟩

/-- The reactions to a post, by their number, of everyone. -/
def reactionsTo (db : Database) (postId : Bytes) : List (Address × ℕ) :=
  ((db.reactions.rows reactionRank).filter fun entry => entry.1.1 = postId).map fun entry =>
    entry.1.2

def postView (db : Database) (viewer : Option Address) (entry : Bytes × PostRow) : PostView :=
  let (postId, row) := entry
  let reactions := reactionsTo db postId
  let kinds := reactions.map Prod.snd
  let redacted := isRedactedState row.state
  { postId := postId
    author := row.author
    sequence := row.sequence
    versionNumber := row.versionNumber
    contentHash := row.contentHash
    previousVersion := row.previousVersion
    audience := row.audience
    audienceId := row.audienceId
    epoch := row.epoch
    envelope := if redacted then [] else row.envelope
    media := if redacted then [] else row.media
    replyTo := row.replyTo
    state := row.state
    stateReason := row.stateReason
    replacementId := row.replacementId
    createdAt := row.createdAt
    updatedAt := row.updatedAt
    txId := row.txId
    blockHeight := row.blockHeight
    reactions :=
      { total := kinds.length
        byType := kinds.dedup.map fun kind => (kind, kinds.count kind)
        viewer := viewer.map fun viewer =>
          (reactions.filter fun reaction => reaction.1 = viewer).map Prod.snd }
    replyCount := ((db.posts.rows byteRank).filter fun other =>
      other.2.replyTo == postId && !isRedactedState other.2.state).length
    versions := ((db.postVersions.rows versionRank).filter fun version =>
      version.1.1 = postId).map fun version =>
        ⟨version.2.contentHash, version.1.2, version.2.txId, version.2.blockHeight,
          version.2.timestamp⟩
    labels := labelsForPost db postId }

/-! ### Queries -/

structure PostsPage where
  items : List PostView
  nextCursor : Option (List Char)

def PostRow.position (row : PostRow) : PositionCursor :=
  (row.blockHeight, row.txIndex, row.eventSequence)

/-- Positions go down in a listing. -/
abbrev Newest := (ℕ ×ₗ ℕ ×ₗ ℕ)ᵒᵈ

def newest (position : PositionCursor) : Newest := OrderDual.toDual (positionRank position)

/-- The position of a key. -/
def positionOfKey (key : Newest) : PositionCursor :=
  ((ofLex (OrderDual.ofDual key)).1, ofLex (ofLex (OrderDual.ofDual key)).2)

def postKey (entry : Bytes × PostRow) : Newest := newest entry.2.position

/-- `SELECT ... WHERE where AND position < cursor ORDER BY position DESC LIMIT limit + 1`, and what
is made of its rows. -/
def pagePosts (db : Database) (wanted : Bytes × PostRow → Bool) (cursor : Option PositionCursor)
    (limit : ℕ) (viewer : Option Address) : PostsPage :=
  let page := Rows.pageAfter postKey ((db.posts.rows byteRank).filter wanted)
    (cursor.map newest) limit
  { items := page.items.map (postView db viewer)
    nextCursor := page.next.map fun last => encodeCursor (positionOfKey last) }

/-- The scopes of the feed; the public one is everyone's. -/
inductive FeedScope where
  | everyone
  | friends
  | all
  deriving DecidableEq, Repr

/-- The accounts with an active relationship with the viewer. -/
def friendsOfViewer (db : Database) (viewer : Address) : Finset Address :=
  (db.relationships.keys.filter fun pair =>
    ((db.relationships.get pair).elim false fun row => row.status == .active) ∧
      (pair.1 = viewer ∨ pair.2 = viewer)).image
    fun pair => if pair.1 = viewer then pair.2 else pair.1

/-- The author is the viewer or a friend of theirs. -/
def friendsCondition (db : Database) (viewer : Option Address) (row : PostRow) : Bool :=
  viewer.elim false fun viewer =>
    row.author == viewer || decide (row.author ∈ friendsOfViewer db viewer)

/-- What the feed shows: top-level posts that are neither hidden nor deleted, of the scope, by
nobody the viewer blocks. -/
def inFeed (db : Database) (viewer : Option Address) (scope : FeedScope)
    (entry : Bytes × PostRow) : Bool :=
  let row := entry.2
  let inScope := match scope with
    | .everyone => row.audience == .everyone
    | .friends => friendsCondition db viewer row
    | .all => row.audience == .everyone || friendsCondition db viewer row
  row.replyTo == [] && !isRedactedState row.state && inScope &&
    viewer.elim true fun viewer => !db.blocksList.has (viewer, row.author)

def feed (db : Database) (viewer : Option Address) (scope : FeedScope)
    (cursor : Option PositionCursor) (limit : ℕ) : PostsPage :=
  pagePosts db (inFeed db viewer scope) cursor limit viewer

/-- Posts by an account, replies included. -/
def byAccount (account : Address) (entry : Bytes × PostRow) : Bool :=
  entry.2.author == account && !isRedactedState entry.2.state

def accountPosts (db : Database) (account : Address) (cursor : Option PositionCursor) (limit : ℕ)
    (viewer : Option Address) : PostsPage :=
  pagePosts db (byAccount account) cursor limit viewer

/-- Replies to a post. -/
def repliesTo (postId : Bytes) (entry : Bytes × PostRow) : Bool :=
  entry.2.replyTo == postId && !isRedactedState entry.2.state

def replies (db : Database) (postId : Bytes) (cursor : Option PositionCursor) (limit : ℕ)
    (viewer : Option Address) : PostsPage :=
  pagePosts db (repliesTo postId) cursor limit viewer

/-! ### Where a post stands -/

/-- The position of a post, if it is stored. -/
def positionAt (db : Database) (postId : Bytes) : Option PositionCursor :=
  (db.posts.get postId).map PostRow.position

section Handlers

variable (sdk : Sdk) (db : Database) (log : LogEvent)

theorem posts_identity (data : Identity.Event) : (applyIdentity db log data).posts = db.posts := by
  obtain ⟨_, _, _, applied⟩ := applyIdentity_eq db log data
  rw [applied]

theorem posts_relationships (data : Relationships.Event) :
    (applyRelationships sdk db log data).posts = db.posts := by
  obtain ⟨_, _, _, _, _, applied⟩ := applyRelationships_eq sdk db log data
  rw [applied]

theorem posts_communities (data : Communities.Event) :
    (applyCommunities db log data).posts = db.posts := by
  obtain ⟨_, _, _, _, applied⟩ := applyCommunities_eq db log data
  rw [applied]

theorem posts_registry (data : Registry.Event) : (applyRegistry db log data).posts = db.posts := by
  obtain ⟨_, _, _, applied⟩ := applyRegistry_eq db log data
  rw [applied]

theorem posts_messaging (data : Messaging.Event) :
    (applyMessaging db log data).posts = db.posts := by
  obtain ⟨_, _, applied⟩ := applyMessaging_eq db log data
  rw [applied]

theorem posts_token (data : Token.Event) : (applyToken db log data).posts = db.posts := by
  obtain ⟨_, _, applied⟩ := applyToken_eq db log data
  rw [applied]

theorem posts_sponsorship (data : SponsorshipEvent) :
    (applySponsorship db log data).posts = db.posts := by
  obtain ⟨_, _, applied⟩ := applySponsorship_eq db log data
  rw [applied]

/-- A change that keeps the position of a row keeps those of all posts. -/
theorem positionAt_modify {change : PostRow → PostRow} (postId other : Bytes)
    (keeps : ∀ row, (change row).position = row.position) :
    ((db.posts.modify postId change).get other).map PostRow.position = positionAt db other := by
  rw [Store.get_modify, positionAt]
  split
  · next same =>
    rw [same, Option.map_map]
    exact congrArg (Option.map · _) (funext keeps)
  · rfl

/-- What an event does to the positions: it may add one post, at its own position, and moves
none. -/
def Places (next : Database) : Prop :=
  ∃ added : Option Bytes, (∀ postId ∈ added, db.posts.get postId = none) ∧
    ∀ postId, positionAt next postId =
      if postId ∈ added then some log.position else positionAt db postId

theorem places_nothing {next : Database}
    (same : ∀ postId, positionAt next postId = positionAt db postId) : Places db log next := by
  refine ⟨none, fun postId member => absurd member (Option.not_mem_none postId), ?_⟩
  intro postId
  rw [if_neg (Option.not_mem_none postId), same]

theorem places_posts {next : Database} (same : next.posts = db.posts) : Places db log next :=
  places_nothing db log fun postId => by rw [positionAt, positionAt, same]

theorem places_publications (data : Publications.Event) :
    Places db log (applyPublications sdk db log data) := by
  cases data with
  | published author postId contentHash previousVersion version sequence audience audienceId epoch
      envelope media replyTo idempotencyKey protocolVersion timestamp =>
    cases known : db.posts.get postId with
    | none =>
      simp only [applyPublications, known]
      obtain ⟨rows, notified⟩ := notifyReply_eq _ log _ author postId replyTo
      rw [notified]
      refine ⟨some postId, ?_, ?_⟩
      · rintro other ⟨⟩
        exact known
      · intro other
        rw [positionAt, positionAt, Store.get_put]
        by_cases same : other = postId
        · rw [if_pos same, if_pos (by rw [same]; rfl)]
          rfl
        · rw [if_neg same, if_neg fun member => same (Option.mem_some_iff.mp member).symm]
    | some old =>
      simp only [applyPublications, known]
      exact places_nothing db log fun other => positionAt_modify db postId other fun _ => rfl
  | lifecycle author postId version state reason replacementId timestamp =>
    refine places_nothing db log fun other => positionAt_modify db postId other fun row => ?_
    split <;> rfl
  | reaction actor postId postAuthor reaction removed timestamp =>
    obtain ⟨_, _, applied⟩ := applyReaction_eq sdk log db actor postId postAuthor reaction removed
      timestamp
    rw [applied]
    exact places_posts db log rfl
  | keysDistributed author audienceId epoch packages timestamp =>
    obtain ⟨_, _, applied⟩ := applyKeys_eq sdk log db author audienceId epoch packages timestamp
    rw [applied]
    exact places_posts db log rfl
  | crossPostOutcome author idempotencyKey adapter state externalRef postId manifestHash timestamp =>
    exact places_posts db log rfl

theorem places_applyEvent : Places db log (applyEvent sdk db log) := by
  unfold applyEvent
  cases log.event with
  | publications data => exact places_publications sdk db log data
  | identity data => exact places_posts db log (posts_identity db log data)
  | relationships data => exact places_posts db log (posts_relationships sdk db log data)
  | communities data => exact places_posts db log (posts_communities db log data)
  | registry data => exact places_posts db log (posts_registry db log data)
  | messaging data => exact places_posts db log (posts_messaging db log data)
  | token data => exact places_posts db log (posts_token db log data)
  | sponsorship data => exact places_posts db log (posts_sponsorship db log data)

/-- An edit, like any other event, leaves a post where it stands. -/
theorem position_kept {postId : Bytes} {position : PositionCursor}
    (stands : positionAt db postId = some position) :
    positionAt (applyEvent sdk db log) postId = some position := by
  obtain ⟨added, fresh, placed⟩ := places_applyEvent sdk db log
  rw [placed, if_neg, stands]
  intro member
  rw [positionAt, fresh postId member] at stands
  cases stands

end Handlers

/-! ### Logs -/

/-- A log as the event table has it: in the order of its primary key, and with numbers that the
database reads. -/
structure EventLog where
  records : List LogEvent
  ordered : Rows.Ordered (fun record => positionRank record.position) records
  safe : ∀ record ∈ records, Safe record.position

/-- The posts stand at positions of the log, each at its own. -/
structure Placed (records : List LogEvent) (db : Database) : Prop where
  logged : ∀ postId position, positionAt db postId = some position →
    ∃ record ∈ records, record.position = position
  apart : ∀ first second position, positionAt db first = some position →
    positionAt db second = some position → first = second

theorem placed_concat {sdk : Sdk} {records : List LogEvent} {db : Database}
    (placed : Placed records db) {record : LogEvent}
    (behind : ∀ earlier ∈ records, earlier.position ≠ record.position) :
    Placed (records ++ [record]) (applyEvent sdk db record) := by
  obtain ⟨added, fresh, places⟩ := places_applyEvent sdk db record
  have other : ∀ postId, positionAt db postId ≠ some record.position := by
    intro postId stands
    obtain ⟨earlier, member, same⟩ := placed.logged postId _ stands
    exact behind earlier member same
  constructor
  · intro postId position stands
    rw [places] at stands
    split at stands
    · exact ⟨record, List.mem_append_right _ List.mem_cons_self, Option.some.inj stands⟩
    · obtain ⟨earlier, member, same⟩ := placed.logged postId position stands
      exact ⟨earlier, List.mem_append_left _ member, same⟩
  · intro first second position stands stands'
    rw [places] at stands stands'
    split at stands
    · next here =>
      split at stands'
      · next there => exact Option.some.inj (here.symm.trans there)
      · rw [← stands] at stands'
        exact absurd stands' (other second)
    · split at stands'
      · rw [← stands'] at stands
        exact absurd stands (other first)
      · exact placed.apart first second position stands stands'

theorem placed_replay (sdk : Sdk) {records : List LogEvent}
    (ordered : Rows.Ordered (fun record => positionRank record.position) records) :
    Placed records (replayProjections sdk records) := by
  unfold replayProjections
  induction records using List.reverseRecOn with
  | nil =>
    constructor
    · intro postId position stands
      cases stands
    · intro first second position stands
      cases stands
  | append_singleton records record inductionHypothesis =>
    obtain ⟨earlier, _, between⟩ := Rows.ordered_append.mp ordered
    rw [List.foldl_append, List.foldl_cons, List.foldl_nil]
    refine placed_concat (inductionHypothesis earlier) fun other member same => ?_
    have below := between other member record List.mem_cons_self
    rw [same] at below
    exact lt_irrefl _ below

/-- Whatever was called on the indexer, its projections are the replay of a log in the order of its
positions. -/
theorem replay_databaseAfter {runtime : Runtime} (startHeight : ℕ)
    (calls : List (LogCall runtime)) :
    ∃ records, Rows.Ordered (fun record => positionRank (LogEvent.position record)) records ∧
      (databaseAfter startHeight calls).projections = replayProjections runtime.sdk records := by
  obtain ⟨blocks, linked, same⟩ := databaseAfter_linked startHeight calls
  refine ⟨blocks.flatMap fun block => block.events.map (logEvent block), ?_, ?_⟩
  · refine List.pairwise_flatMap.mpr ⟨fun block _ => ?_, ?_⟩
    · refine List.pairwise_map.mpr (block.ordered.imp fun before => ?_)
      exact Prod.Lex.toLex_lt_toLex.mpr (.inr ⟨rfl, before⟩)
    · refine (ordered_of_linked linked).imp ?_
      intro lower upper below first memberFirst second memberSecond
      obtain ⟨_, _, rfl⟩ := List.mem_map.mp memberFirst
      obtain ⟨_, _, rfl⟩ := List.mem_map.mp memberSecond
      exact Prod.Lex.toLex_lt_toLex.mpr (.inl below)
  · rw [same, projections_eq_replay, loggedEvents_databaseOf]

/-! ### Listings -/

inductive Listing where
  | ofFeed (scope : FeedScope)
  | ofAccount (author : Address)
  | ofReplies (parent : Bytes)

section Listings

variable (db : Database) (listing : Listing) (viewer : Option Address) (limit : ℕ)

/-- The posts that belong to a listing. -/
def Listing.wanted (entry : Bytes × PostRow) : Bool :=
  match listing with
  | .ofFeed scope => inFeed db viewer scope entry
  | .ofAccount author => byAccount author entry
  | .ofReplies parent => repliesTo parent entry

def Listing.page (cursor : Option PositionCursor) : PostsPage :=
  match listing with
  | .ofFeed scope => feed db viewer scope cursor limit
  | .ofAccount author => accountPosts db author cursor limit viewer
  | .ofReplies parent => replies db parent cursor limit viewer

/-- Following the cursors until there is none: the pages one gets. -/
inductive Listing.Pages : Option PositionCursor → List (List PostView) → Prop
  | last {cursor : Option PositionCursor}
      (ended : (listing.page db viewer limit cursor).nextCursor = none) :
      Pages cursor [(listing.page db viewer limit cursor).items]
  | next {cursor : Option PositionCursor} {text : List Char} {position : PositionCursor}
      {pages : List (List PostView)}
      (continued : (listing.page db viewer limit cursor).nextCursor = some text)
      (decoded : decodeCursor text = some position) (rest : Pages (some position) pages) :
      Pages cursor ((listing.page db viewer limit cursor).items :: pages)

/-- The rows of a listing. -/
def Listing.rows : List (Bytes × PostRow) :=
  (db.posts.rows byteRank).filter (listing.wanted db viewer)

variable {db listing viewer limit}

theorem Listing.page_eq (cursor : Option PositionCursor) :
    listing.page db viewer limit cursor =
      pagePosts db (listing.wanted db viewer) cursor limit viewer := by
  cases listing with
  | _ => rfl

theorem Listing.mem_rows {postId : Bytes} {row : PostRow} :
    (postId, row) ∈ listing.rows db viewer ↔
      db.posts.get postId = some row ∧ listing.wanted db viewer (postId, row) = true := by
  rw [Listing.rows, List.mem_filter, Store.mem_rows]

theorem positionAt_of_mem {entry : Bytes × PostRow} (member : entry ∈ listing.rows db viewer) :
    positionAt db entry.1 = some entry.2.position := by
  rw [positionAt, (Listing.mem_rows.mp member).1]
  rfl

theorem newest_inj {first second : PositionCursor} (same : newest first = newest second) :
    first = second :=
  positionRank.injective (OrderDual.toDual.injective same)

/-- The position tells the posts of a listing apart. -/
theorem distinct_rows {records : List LogEvent} (placed : Placed records db) :
    ((listing.rows db viewer).map postKey).Nodup := by
  have rows : (db.posts.rows byteRank).Nodup := Store.nodup_rows.of_map
  refine (rows.filter _).map_on fun first member second member' same => ?_
  have stands := positionAt_of_mem member
  have stands' := positionAt_of_mem member'
  rw [← newest_inj same] at stands'
  have ids := placed.apart _ _ _ stands stands'
  have found := (Listing.mem_rows.mp member).1
  rw [ids, (Listing.mem_rows.mp member').1] at found
  exact Prod.ext ids (Option.some.inj found).symm

/-- The pages that the cursors give are the pages of the rows, shown. -/
theorem Listing.pages_iff_follows (safe : ∀ entry ∈ listing.rows db viewer, Safe entry.2.position)
    {cursor : Option PositionCursor} {pages : List (List PostView)} :
    listing.Pages db viewer limit cursor pages ↔
      ∃ found, Rows.Follows postKey (listing.rows db viewer) limit (cursor.map newest) found ∧
        pages = found.map (List.map (postView db viewer)) := by
  constructor
  · intro shown
    induction shown with
    | last ended =>
      rw [Listing.page_eq] at ended ⊢
      exact ⟨_, .last (Option.map_eq_none_iff.mp ended), rfl⟩
    | next continued decoded _ inductionHypothesis =>
      obtain ⟨found, follows, rfl⟩ := inductionHypothesis
      rw [Listing.page_eq] at continued ⊢
      obtain ⟨last, next, rfl⟩ := Option.map_eq_some_iff.mp continued
      obtain ⟨entry, member, rfl⟩ := Rows.key_of_next next
      have position : some entry.2.position = some _ :=
        (decodeCursor_encodeCursor (safe entry member)).symm.trans decoded
      cases position
      exact ⟨_, .next next follows, rfl⟩
  · rintro ⟨found, follows, rfl⟩
    generalize reached : cursor.map newest = key at follows
    induction follows generalizing cursor with
    | last ended =>
      subst reached
      have shown : (listing.page db viewer limit cursor).nextCursor = none := by
        rw [Listing.page_eq]
        exact congrArg (Option.map _) ended
      have items := Listing.Pages.last shown
      rw [Listing.page_eq] at items
      exact items
    | next continued _ inductionHypothesis =>
      subst reached
      obtain ⟨entry, member, rfl⟩ := Rows.key_of_next continued
      have shown : (listing.page db viewer limit cursor).nextCursor =
          some (encodeCursor entry.2.position) := by
        rw [Listing.page_eq]
        exact congrArg (Option.map _) continued
      have items := Listing.Pages.next shown (decodeCursor_encodeCursor (safe entry member))
        (inductionHypothesis rfl)
      rw [Listing.page_eq] at items
      exact items

end Listings

/-- Whatever the indexer did, its projections are the replay of an ordered log; in every replay of a
log, following the cursors of a listing gives all of its posts, each once, the newest first; and no
event moves a post. -/
theorem posts_paged :
    (∀ (runtime : Runtime) (startHeight : ℕ) (calls : List (LogCall runtime)), ∃ records,
      Rows.Ordered (fun record => positionRank (LogEvent.position record)) records ∧
        (databaseAfter startHeight calls).projections =
          replayProjections runtime.sdk records) ∧
    (∀ (sdk : Sdk) (log : EventLog) (listing : Listing) (viewer : Option Address) (limit : ℕ),
      1 ≤ limit → ∃ pages,
        listing.Pages (replayProjections sdk log.records) viewer limit none pages ∧
        (∀ others, listing.Pages (replayProjections sdk log.records) viewer limit none others →
          others = pages) ∧
        ∃ rows : List (Bytes × PostRow),
          pages.flatten = rows.map (postView (replayProjections sdk log.records) viewer) ∧
          (∀ postId row, (postId, row) ∈ rows ↔
            (replayProjections sdk log.records).posts.get postId = some row ∧
              listing.wanted (replayProjections sdk log.records) viewer (postId, row) = true) ∧
          rows.Pairwise fun first second =>
            positionRank second.2.position < positionRank first.2.position) ∧
    ∀ (sdk : Sdk) (db : Database) (record : LogEvent) (postId : Bytes) (position : PositionCursor),
      positionAt db postId = some position →
        positionAt (applyEvent sdk db record) postId = some position := by
  refine ⟨fun runtime startHeight calls => replay_databaseAfter startHeight calls, ?_, ?_⟩
  · intro sdk log listing viewer limit positive
    have placed := placed_replay sdk log.ordered
    have safe : ∀ entry ∈ listing.rows (replayProjections sdk log.records) viewer,
        Safe entry.2.position := by
      intro entry member
      obtain ⟨record, present, same⟩ := placed.logged _ _ (positionAt_of_mem member)
      exact same ▸ log.safe record present
    have distinct : ((listing.rows (replayProjections sdk log.records) viewer).map
        postKey).Nodup := distinct_rows placed
    obtain ⟨pages, follows, joined⟩ := Rows.follows_all distinct positive none
    rw [Rows.beyond_none] at joined
    refine ⟨_, (Listing.pages_iff_follows safe).mpr ⟨pages, follows, rfl⟩, fun others again => ?_,
      Rows.orderBy postKey (listing.rows _ viewer), ?_, ?_, Rows.ordered_orderBy distinct⟩
    · obtain ⟨found, also, rfl⟩ := (Listing.pages_iff_follows safe).mp again
      rw [Rows.follows_unique follows also]
    · rw [← joined, List.map_flatten]
    · intro postId row
      rw [Rows.mem_orderBy, Listing.mem_rows]
  · intro sdk db record postId position stands
    exact position_kept sdk db record stands

/-- A post with this id, published in the block of this height. -/
def posted (postId : UInt8) (height : ℕ) : LogEvent :=
  ⟨height, 0, 0, 0, "", .publications (.published (Address.repeated 1) [postId] [2] [] 1 1 .everyone
    [] 0 [] [] [] [] 1 5)⟩

/-- The log of two posts. -/
def postsLog : EventLog where
  records := [posted 1 1, posted 2 2]
  ordered := List.pairwise_pair.mpr (by decide)
  safe := by
    rintro record (_ | ⟨_, _ | ⟨_, ⟨⟩⟩⟩)
    · exact ⟨by decide, by decide, by decide⟩
    · exact ⟨by decide, by decide, by decide⟩

theorem posts_paged_postsLog :
    (∃ pages,
      (Listing.ofFeed .everyone).Pages (replayProjections Sdk.standard postsLog.records) none 1 none
        pages ∧
      (∀ others, (Listing.ofFeed .everyone).Pages
        (replayProjections Sdk.standard postsLog.records) none 1 none others → others = pages) ∧
      pages.map (List.map PostView.postId) = [[[2]], [[1]]]) ∧
    positionAt (applyEvent Sdk.standard (replayProjections Sdk.standard postsLog.records)
      (posted 1 3)) [1] = some (1, 0, 0) := by
  obtain ⟨_, paged, kept⟩ := posts_paged
  refine ⟨?_, kept _ _ (posted 1 3) [1] (1, 0, 0) rfl⟩
  obtain ⟨pages, follows, unique, _⟩ := paged Sdk.standard postsLog (.ofFeed .everyone) none 1 le_rfl
  refine ⟨pages, follows, unique, ?_⟩
  have cursor : ((Listing.ofFeed .everyone).page (replayProjections Sdk.standard postsLog.records)
      none 1 none).nextCursor = some (encodeCursor (2, 0, 0)) := by
    decide +kernel
  cases follows with
  | last ended => exact absurd (ended.symm.trans cursor) (Option.some_ne_none _).symm
  | next continued decoded rest =>
    obtain rfl := Option.some.inj (continued.symm.trans cursor)
    have read := @decodeCursor_encodeCursor (2, 0, 0) ⟨by decide, by decide, by decide⟩
    obtain rfl := Option.some.inj (decoded.symm.trans read)
    have ends : ((Listing.ofFeed .everyone).page (replayProjections Sdk.standard postsLog.records)
        none 1 (some (2, 0, 0))).nextCursor = none := by
      decide +kernel
    cases rest with
    | last _ => decide +kernel
    | next continued _ _ => exact absurd (continued.symm.trans ends) (Option.some_ne_none _)

end OpenSocial.Indexer

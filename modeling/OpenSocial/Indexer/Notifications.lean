/-
This file follows a client that polls its notifications while the indexer adds
and drops blocks.

A notification gets the id above the greatest one there is, so replaying a log
gives its notifications the ids they had, but blocks that replace others give
new notifications the ids of the dropped ones. A client that asks for what lies
beyond the last id it saw is told of everything as long as no block gives a
notification an id that its cursor has already passed.
-/

import OpenSocial.Indexer.Integrity
import OpenSocial.Library.Paging

namespace OpenSocial.Indexer

open Library

/-! ### The query -/

structure NotificationView where
  id : ℕ
  kind : NotificationKind
  actor : Address
  postId : Option Bytes
  communityId : Option Bytes
  data : NotificationData
  timestamp : ℕ
  blockHeight : ℕ
  deriving DecidableEq, Repr

def notificationView (row : NotificationRow) : NotificationView where
  id := row.id
  kind := row.kind
  actor := row.actor
  postId := row.postId.filter (· ≠ [])
  communityId := row.communityId.filter (· ≠ [])
  data := row.data
  timestamp := row.timestamp
  blockHeight := row.blockHeight

structure NotificationsPage where
  items : List NotificationView
  nextCursor : Option ℕ

/-- `SELECT * FROM notifications WHERE account = ?`. -/
def notificationsOf (db : Database) (account : Address) : List NotificationRow :=
  db.notifications.filter fun row => row.account = account

/-- The rows of a page: without a cursor the most recent ones, else the oldest beyond it. -/
def notificationRows (db : Database) (account : Address) (since : Option ℕ) (limit : ℕ) :
    List NotificationRow :=
  match since with
  | none =>
    Rows.orderBy NotificationRow.id
      ((Rows.orderBy (fun row => OrderDual.toDual (NotificationRow.id row))
        (notificationsOf db account)).take limit)
  | some since => Rows.page NotificationRow.id (notificationsOf db account) since limit

def notifications (db : Database) (account : Address) (since : Option ℕ) (limit : ℕ) :
    NotificationsPage :=
  let items := (notificationRows db account since limit).map notificationView
  ⟨items, (items.getLast?.map NotificationView.id).or since⟩

/-! ### What an event adds -/

/-- The ids number the notifications. -/
def Numbered (rows : List NotificationRow) : Prop :=
  rows.map NotificationRow.id = List.range' 1 rows.length

theorem ordered_of_numbered {rows : List NotificationRow} (numbered : Numbered rows) :
    Rows.Ordered NotificationRow.id rows := by
  have increasing : (rows.map NotificationRow.id).Pairwise (· < ·) := by
    rw [numbered]
    exact List.pairwise_lt_range'
  exact List.pairwise_map.mp increasing

theorem foldr_max_range' (count least : ℕ) :
    (List.range' 1 count).foldr max least = max least count := by
  induction count generalizing least with
  | zero => exact (Nat.max_eq_left (Nat.zero_le least)).symm
  | succ count inductionHypothesis =>
    rw [List.range'_concat, List.foldr_append, List.foldr_cons, List.foldr_nil,
      inductionHypothesis]
    omega

/-- What is done at a height adds notifications of that height behind those there are, and numbers
them on. -/
structure Adds (height : ℕ) (rows after : List NotificationRow) : Prop where
  behind : ∃ added, after = rows ++ added ∧ ∀ row ∈ added, row.blockHeight = height
  numbered : Numbered rows → Numbered after

theorem adds_nothing (height : ℕ) (rows : List NotificationRow) : Adds height rows rows where
  behind := ⟨[], (List.append_nil rows).symm, fun _ absent => absurd absent List.not_mem_nil⟩
  numbered := id

theorem Adds.trans {height : ℕ} {rows after later : List NotificationRow}
    (first : Adds height rows after) (second : Adds height after later) :
    Adds height rows later where
  behind := by
    obtain ⟨added, rfl, heights⟩ := first.behind
    obtain ⟨more, rfl, others⟩ := second.behind
    refine ⟨added ++ more, List.append_assoc _ _ _, fun row member => ?_⟩
    exact (List.mem_append.mp member).elim (heights row) (others row)
  numbered start := second.numbered (first.numbered start)

/-- The next id is the next number. -/
theorem nextNotificationId_eq {db : Database} (numbered : Numbered db.notifications) :
    nextNotificationId db = db.notifications.length + 1 := by
  unfold nextNotificationId
  rw [numbered, foldr_max_range', Nat.max_eq_right (Nat.zero_le _)]

section Handlers

variable (sdk : Sdk) (db : Database) (log : LogEvent)

theorem adds_notify {rows : List NotificationRow} (same : db.notifications = rows) (ts : ℕ)
    (input : NotificationInput) : Adds log.height rows (notify db log ts input).notifications := by
  rw [← same]
  unfold notify
  by_cases self : input.account = input.actor
  · rw [if_pos self]
    exact adds_nothing log.height db.notifications
  · rw [if_neg self]
    refine ⟨⟨_, rfl, fun row member => ?_⟩, fun numbered => ?_⟩
    · rw [List.mem_singleton.mp member]
    · unfold Numbered
      rw [List.map_append, numbered, List.length_append, List.length_singleton, List.range'_concat]
      show _ ++ [nextNotificationId db] = _
      rw [nextNotificationId_eq numbered, Nat.one_mul, Nat.add_comm 1]

theorem adds_notifyReply {rows : List NotificationRow} (same : db.notifications = rows) (ts : ℕ)
    (author : Address) (postId replyTo : Bytes) :
    Adds log.height rows (notifyReply db log ts author postId replyTo).notifications := by
  unfold notifyReply
  split
  · exact same ▸ adds_nothing _ _
  · split
    · exact same ▸ adds_nothing _ _
    · exact adds_notify db log same ts _

theorem adds_notifyLabel {rows : List NotificationRow} (same : db.notifications = rows) (ts : ℕ)
    (communityId : Bytes) (actor : Address) (postId : Bytes) (label reason : String) :
    Adds log.height rows
      (notifyLabel db log ts communityId actor postId label reason).notifications := by
  unfold notifyLabel
  split
  · exact same ▸ adds_nothing _ _
  · exact adds_notify db log same ts _

theorem adds_applySealedKey (ts : ℕ) (author : Address) (audienceId : Bytes) (epoch : ℕ)
    (entry : SealedKey × ℕ) :
    Adds log.height db.notifications
      (applySealedKey log ts author audienceId epoch db entry).notifications := by
  obtain ⟨key, index⟩ := entry
  by_cases length : key.recipient.length = 25
  · simp only [applySealedKey, dif_pos length]
    exact adds_notify _ log (by rfl) ts _
  · simp only [applySealedKey, dif_neg length]
    exact adds_nothing _ _

theorem adds_sealedKeys (ts : ℕ) (author : Address) (audienceId : Bytes) (epoch : ℕ)
    (entries : List (SealedKey × ℕ)) :
    Adds log.height db.notifications
      (entries.foldl (applySealedKey log ts author audienceId epoch) db).notifications := by
  induction entries generalizing db with
  | nil => exact adds_nothing _ _
  | cons entry entries inductionHypothesis =>
    exact (adds_applySealedKey db log ts author audienceId epoch entry).trans
      (inductionHypothesis _)

theorem adds_identity (data : Identity.Event) :
    Adds log.height db.notifications (applyIdentity db log data).notifications := by
  cases data with
  | deviceAuthorized account device capabilities expiresAt label deviceEpoch timestamp =>
    exact adds_notify _ log (by rfl) _ _
  | deviceRevoked account device timestamp => exact adds_notify _ log (by rfl) _ _
  | recoveryProposed account guardian newOwner approvals threshold effectiveAt timestamp =>
    exact adds_notify _ log (by rfl) _ _
  | recovered account previousOwner newOwner deviceEpoch timestamp =>
    exact adds_notify _ log (by rfl) _ _
  | _ => exact adds_nothing _ _

theorem adds_relationships (data : Relationships.Event) :
    Adds log.height db.notifications (applyRelationships sdk db log data).notifications := by
  cases data with
  | friendRequested requester recipient nonce timestamp => exact adds_notify _ log (by rfl) _ _
  | friendAccepted approver requester nonce keyPackageRef timestamp =>
    exact adds_notify _ log (by rfl) _ _
  | blocked actor target newEpoch timestamp =>
    dsimp only [applyRelationships]
    obtain ⟨_, ended⟩ := endRelationship_eq sdk
      { db with blocksList := db.blocksList.put (actor, target) ⟨_⟩ } actor target _
    rw [ended]
    exact adds_nothing _ _
  | _ => exact adds_nothing _ _

theorem adds_publications (data : Publications.Event) :
    Adds log.height db.notifications (applyPublications sdk db log data).notifications := by
  cases data with
  | published author postId contentHash previousVersion version sequence audience audienceId epoch
      envelope media replyTo idempotencyKey protocolVersion timestamp =>
    dsimp only [applyPublications]
    split
    · exact adds_notifyReply _ log (by rfl) _ author postId replyTo
    · exact adds_nothing _ _
  | reaction actor postId postAuthor reaction removed timestamp =>
    dsimp only [applyPublications]
    split
    · exact adds_nothing _ _
    · exact adds_notify _ log (by rfl) _ _
  | keysDistributed author audienceId epoch packages timestamp =>
    dsimp only [applyPublications]
    split
    · exact adds_nothing _ _
    · exact adds_sealedKeys db log _ author audienceId epoch _
  | _ => exact adds_nothing _ _

theorem adds_communities (data : Communities.Event) :
    Adds log.height db.notifications (applyCommunities db log data).notifications := by
  cases data with
  | roleSet communityId actor subject role scope expiresAt timestamp =>
    exact adds_notify _ log (by rfl) _ _
  | labelSet communityId actor postId label reason timestamp =>
    exact adds_notifyLabel _ log (by rfl) _ communityId actor postId label reason
  | _ => exact adds_nothing _ _

/-- Every event adds notifications behind those there are. -/
theorem adds_applyEvent :
    Adds log.height db.notifications (applyEvent sdk db log).notifications := by
  unfold applyEvent
  cases log.event with
  | identity data => exact adds_identity db log data
  | relationships data => exact adds_relationships sdk db log data
  | publications data => exact adds_publications sdk db log data
  | communities data => exact adds_communities db log data
  | registry data =>
    obtain ⟨_, _, _, applied⟩ := applyRegistry_eq db log data
    dsimp only
    rw [applied]
    exact adds_nothing _ _
  | messaging data =>
    obtain ⟨_, _, applied⟩ := applyMessaging_eq db log data
    dsimp only
    rw [applied]
    exact adds_nothing _ _
  | token data =>
    obtain ⟨_, _, applied⟩ := applyToken_eq db log data
    dsimp only
    rw [applied]
    exact adds_nothing _ _
  | sponsorship data =>
    obtain ⟨_, _, applied⟩ := applySponsorship_eq db log data
    dsimp only
    rw [applied]
    exact adds_nothing _ _

end Handlers

/-! ### The notifications of a list of blocks -/

section Blocks

variable {runtime : Runtime}

/-- The notifications that a list of blocks leaves. -/
def blockNotifications (runtime : Runtime) (blocks : List (ChainBlock runtime.codec)) :
    List NotificationRow :=
  (databaseOf runtime blocks).projections.notifications

/-- One more block adds notifications of its height. -/
theorem adds_block (blocks : List (ChainBlock runtime.codec)) (block : ChainBlock runtime.codec) :
    Adds block.height (blockNotifications runtime blocks)
      (blockNotifications runtime (blocks ++ [block])) := by
  have folded : ∀ (events : List ChainEvent) (db : Database),
      Adds block.height db.notifications
        ((events.map (logEvent block)).foldl (applyEvent runtime.sdk) db).notifications := by
    intro events
    induction events with
    | nil => exact fun db => adds_nothing _ _
    | cons event rest inductionHypothesis =>
      exact fun db =>
        (adds_applyEvent runtime.sdk db (logEvent block event)).trans (inductionHypothesis _)
  unfold blockNotifications
  rw [databaseOf_concat]
  exact folded block.events _

theorem numbered_blockNotifications (blocks : List (ChainBlock runtime.codec)) :
    Numbered (blockNotifications runtime blocks) := by
  induction blocks using List.reverseRecOn with
  | nil => rfl
  | append_singleton blocks block inductionHypothesis =>
    exact (adds_block blocks block).numbered inductionHypothesis

/-- More blocks leave the notifications there are where they are. -/
theorem blockNotifications_begin {blocks longer : List (ChainBlock runtime.codec)}
    (beginning : blocks <+: longer) :
    blockNotifications runtime blocks <+: blockNotifications runtime longer := by
  obtain ⟨more, rfl⟩ := beginning
  induction more using List.reverseRecOn with
  | nil => rw [List.append_nil]
  | append_singleton more block inductionHypothesis =>
    obtain ⟨added, behind, _⟩ := (adds_block (blocks ++ more) block).behind
    rw [← List.append_assoc]
    exact inductionHypothesis.trans ⟨added, behind.symm⟩

/-- Every notification is of the height of a block. -/
theorem height_of_mem_blockNotifications {blocks : List (ChainBlock runtime.codec)}
    {row : NotificationRow} (member : row ∈ blockNotifications runtime blocks) :
    ∃ block ∈ blocks, block.height = row.blockHeight := by
  induction blocks using List.reverseRecOn with
  | nil => cases member
  | append_singleton blocks block inductionHypothesis =>
    obtain ⟨added, behind, heights⟩ := (adds_block blocks block).behind
    rw [behind] at member
    rcases List.mem_append.mp member with old | new
    · obtain ⟨lower, inside, same⟩ := inductionHypothesis old
      exact ⟨lower, List.mem_append_left _ inside, same⟩
    · exact ⟨block, List.mem_append_right _ List.mem_cons_self, (heights row new).symm⟩

end Blocks

section Linked

variable {runtime : Runtime} {startHeight : ℕ} {blocks : List (ChainBlock runtime.codec)}
  {block : ChainBlock runtime.codec} {row : NotificationRow}

/-- The notifications of one more block are those there were, of other heights, and its own. -/
theorem mem_blockNotifications_concat (linked : Linked startHeight (blocks ++ [block])) :
    row ∈ blockNotifications runtime (blocks ++ [block]) ↔
      (row ∈ blockNotifications runtime blocks ∧ row.blockHeight ≠ block.height) ∨
      (row ∈ (blockNotifications runtime (blocks ++ [block])).drop
          (blockNotifications runtime blocks).length ∧ row.blockHeight = block.height) := by
  obtain ⟨added, behind, heights⟩ := (adds_block blocks block).behind
  rw [behind, List.drop_left, List.mem_append]
  constructor
  · intro member
    refine member.imp (fun old => ⟨old, ?_⟩) fun new => ⟨new, heights row new⟩
    obtain ⟨lower, inside, same⟩ := height_of_mem_blockNotifications old
    have bound := height_of_mem_linked (linked_concat.mp linked).1 inside
    rw [height_of_concat linked, ← same]
    omega
  · exact fun parts => parts.imp And.left And.left

/-- A rollback leaves notifications up to its height. -/
theorem mem_blockNotifications_upTo {height : ℤ}
    (member : row ∈ blockNotifications runtime (upTo height blocks)) :
    row ∈ blockNotifications runtime blocks ∧ (row.blockHeight : ℤ) ≤ height := by
  refine ⟨(blockNotifications_begin (upTo_begins height blocks)).subset member, ?_⟩
  obtain ⟨block, inside, same⟩ := height_of_mem_blockNotifications member
  rw [← same]
  exact height_le_of_mem_upTo inside

end Linked

/-! ### A page -/

section Page

variable {db : Database} {account : Address}

/-- The account's notifications beyond a cursor. -/
def unseen (db : Database) (account : Address) (cursor : Option ℕ) : List NotificationRow :=
  Rows.beyond NotificationRow.id (notificationsOf db account) cursor

theorem mem_unseen {cursor : Option ℕ} {row : NotificationRow} :
    row ∈ unseen db account cursor ↔
      row ∈ notificationsOf db account ∧ ∀ seen ∈ cursor, seen < row.id := by
  unfold unseen Rows.beyond
  rw [List.mem_filter]
  cases cursor with
  | none =>
    simp only [Option.elim_none, and_true, Option.mem_def, reduceCtorEq, false_implies,
      implies_true]
  | some seen =>
    simp only [Option.elim_some, decide_eq_true_eq, Option.mem_def, Option.some.injEq,
      forall_eq']

/-- What lies beyond the last row read lies beyond the next cursor. -/
theorem nextCursor_eq (since : Option ℕ) (limit : ℕ) :
    (notifications db account since limit).nextCursor =
      ((notificationRows db account since limit).getLast?.map NotificationRow.id).or since := by
  dsimp only [notifications]
  rw [List.getLast?_map, Option.map_map]
  rfl

variable (ordered : Rows.Ordered NotificationRow.id db.notifications)
include ordered

theorem ordered_notificationsOf :
    Rows.Ordered NotificationRow.id (notificationsOf db account) :=
  ordered.sublist List.filter_sublist

/-- A page beyond a cursor is the beginning of what lies beyond it. -/
theorem notificationRows_some (since limit : ℕ) :
    notificationRows db account (some since) limit =
      (unseen db account (some since)).take limit := by
  have beyond : Rows.Ordered NotificationRow.id (unseen db account (some since)) :=
    (ordered_notificationsOf ordered).sublist List.filter_sublist
  show Rows.page _ _ _ _ = _
  rw [Rows.page]
  exact congrArg (List.take limit) (Rows.orderBy_of_ordered beyond)

/-- A page without a cursor is the end of what there is. -/
theorem notificationRows_none (limit : ℕ) :
    notificationRows db account none limit =
      (notificationsOf db account).drop ((notificationsOf db account).length - limit) :=
  Rows.latest_of_ordered (ordered_notificationsOf ordered) limit

/-- What is left beyond the cursor of a page: behind a cursor the rows after the page, else none. -/
theorem unseen_nextCursor (since : Option ℕ) (limit : ℕ+) :
    unseen db account (notifications db account since limit).nextCursor =
      since.elim [] fun since => (unseen db account (some since)).drop limit := by
  rw [nextCursor_eq]
  cases since with
  | none =>
    rw [notificationRows_none ordered, Option.elim_none]
    cases last : (notificationsOf db account).getLast? with
    | none =>
      rw [List.getLast?_eq_none_iff] at last
      refine List.eq_nil_iff_forall_not_mem.mpr fun row member => ?_
      have listed := (mem_unseen.mp member).1
      rw [last] at listed
      cases listed
    | some final =>
      obtain ⟨shown, whole⟩ := List.getLast?_eq_some_iff.mp last
      have kept : ((notificationsOf db account).drop
          ((notificationsOf db account).length - limit)).getLast? = some final := by
        rw [List.getLast?_drop, if_neg, last]
        have positive := limit.pos
        have nonempty : 0 < (notificationsOf db account).length := by
          rw [whole, List.length_append, List.length_singleton]
          omega
        omega
      rw [kept]
      refine List.eq_nil_iff_forall_not_mem.mpr fun row member => ?_
      obtain ⟨listed, above⟩ := mem_unseen.mp member
      have later := above final.id rfl
      rw [whole] at listed
      rcases List.mem_append.mp listed with early | same
      · have parts : Rows.Ordered NotificationRow.id (notificationsOf db account) :=
          ordered_notificationsOf ordered
        rw [whole] at parts
        have below := (Rows.ordered_append.mp parts).2.2 row early final List.mem_cons_self
        exact absurd (later.trans below) (lt_irrefl _)
      · rw [List.mem_singleton.mp same] at later
        exact absurd later (lt_irrefl _)
  | some since =>
    have beyond : Rows.Ordered NotificationRow.id (unseen db account (some since)) :=
      (ordered_notificationsOf ordered).sublist List.filter_sublist
    rw [notificationRows_some ordered, Option.elim_some]
    cases last : ((unseen db account (some since)).take limit).getLast? with
    | none =>
      rw [List.getLast?_eq_none_iff, List.take_eq_nil_iff] at last
      have empty := last.resolve_left limit.pos.ne'
      show unseen db account (some since) = _
      rw [empty, List.drop_nil]
    | some final =>
      have member : final ∈ unseen db account (some since) :=
        List.mem_of_mem_take (List.mem_of_getLast? last)
      obtain ⟨passed, remaining⟩ := Rows.split_after beyond last
      show Rows.beyond NotificationRow.id (notificationsOf db account) (some final.id) = _
      rw [Rows.beyond_last member]
      show ((unseen db account (some since)).filter fun row => final.id < row.id) = _
      have split := Rows.filter_of_split passed remaining
      rw [List.take_append_drop] at split
      exact split

/-- A page leaves fewer rows beyond its cursor than there were. -/
theorem length_unseen_nextCursor (since : Option ℕ) (limit : ℕ+) :
    (unseen db account (notifications db account since limit).nextCursor).length ≤
      (unseen db account since).length - 1 := by
  rw [unseen_nextCursor ordered]
  cases since with
  | none => exact Nat.zero_le _
  | some since =>
    have positive := limit.pos
    rw [Option.elim_some, List.length_drop]
    omega

/-- What lay beyond the cursor is on the page or lies beyond the next cursor, if a page without a
cursor has room for everything. -/
theorem shown_or_unseen {since : Option ℕ} {limit : ℕ+}
    (room : since = none → (notificationsOf db account).length ≤ limit) {row : NotificationRow}
    (member : row ∈ unseen db account since) :
    notificationView row ∈ (notifications db account since limit).items ∨
      row ∈ unseen db account (notifications db account since limit).nextCursor := by
  cases since with
  | none =>
    refine .inl (List.mem_map_of_mem ?_)
    rw [notificationRows_none ordered, Nat.sub_eq_zero_of_le (room rfl), List.drop_zero]
    exact (mem_unseen.mp member).1
  | some since =>
    rw [unseen_nextCursor ordered, Option.elim_some]
    rw [← List.take_append_drop limit (unseen db account (some since))] at member
    rcases List.mem_append.mp member with shown | left
    · refine .inl (List.mem_map_of_mem ?_)
      rw [notificationRows_some ordered]
      exact shown
    · exact .inr left

end Page

/-! ### A polling client -/

/-- The indexer and a client that polls an account's notifications: the cursor it was last given,
whether it has polled yet, what it was told, and the heights of the blocks that were added since its
first poll and are still there. -/
structure Polling where
  db : IndexerDb
  cursor : Option ℕ
  polled : Bool
  returned : List NotificationView
  applied : List ℕ

def Polling.start : Polling := ⟨.empty, none, false, [], []⟩

/-- A block is offered or a rollback asked for, or the client polls. -/
inductive PollStep (runtime : Runtime) where
  | log (call : LogCall runtime)
  | poll (limit : ℕ+)

section Client

variable {runtime : Runtime}

/-- The heights of the blocks added since the first poll, after a call. -/
def appliedAfter (polled : Bool) (applied : List ℕ) :
    LogCall runtime → Except Failure (CheckpointRow ⊕ ℕ) → List ℕ
  | .applyBlock block _, .ok _ => if polled then applied ++ [block.height] else applied
  | .rollbackTo height _, .ok _ => applied.filter fun other => (other : ℤ) ≤ height
  | _, .error _ => applied

variable (startHeight : ℕ) (account : Address)

/-- A poll: the client always passes the cursor it was last given. -/
def Polling.poll (account : Address) (state : Polling) (limit : ℕ+) : Polling :=
  let page := notifications state.db.projections account state.cursor limit
  { state with cursor := page.nextCursor, polled := true,
               returned := state.returned ++ page.items }

def advance (state : Polling) : PollStep runtime → Polling
  | .log call =>
    let done := perform startHeight state.db call
    { state with db := done.2, applied := appliedAfter state.polled state.applied call done.1 }
  | .poll limit => state.poll account limit

def stateAfter (steps : List (PollStep runtime)) : Polling :=
  steps.foldl (advance startHeight account) .start

/-- The notifications that a call writes. -/
def written (db : IndexerDb) (call : LogCall runtime) : List NotificationRow :=
  (perform startHeight db call).2.projections.notifications.drop db.projections.notifications.length

/-- The client was told of a notification, or its cursor has not passed it. -/
def Due (state : Polling) (row : NotificationRow) : Prop :=
  notificationView row ∈ state.returned ∨ ∀ seen ∈ state.cursor, seen < row.id

/-- A step after which the client can still be told of everything: no block gives a notification of
the account an id that the client's cursor has passed, unless the client was told of it; and a poll
without a cursor has room for all of the account's notifications. -/
def Timely (state : Polling) : PollStep runtime → Prop
  | .log call => state.polled = true →
      ∀ row ∈ written startHeight state.db call, row.account = account → Due state row
  | .poll limit => state.polled = true → state.cursor = none →
      (notificationsOf state.db.projections account).length ≤ limit

/-- Every step is timely where it is taken. -/
def AllTimely : Polling → List (PollStep runtime) → Prop
  | _, [] => True
  | state, step :: rest =>
    Timely startHeight account state step ∧
      AllTimely (advance startHeight account state step) rest

/-! ### What every timely step keeps -/

/-- The notifications of the account whose block was added since the first poll. -/
def fresh (state : Polling) : List NotificationRow :=
  (notificationsOf state.db.projections account).filter fun row => row.blockHeight ∈ state.applied

/-- The database is one that linked blocks fill, nothing is fresh before the first poll, a client
that was given no cursor was told of nothing and everything is fresh to it, and every fresh
notification is due. -/
structure Kept (runtime : Runtime) (state : Polling) : Prop where
  filled : ∃ blocks : List (ChainBlock runtime.codec), Linked startHeight blocks ∧
    state.db = databaseOf runtime blocks
  waiting : state.polled = false → state.applied = []
  unmarked : state.cursor = none → state.returned = [] ∧
    (state.polled = true →
      ∀ row ∈ notificationsOf state.db.projections account, row ∈ fresh account state)
  owed : ∀ row ∈ fresh account state, Due state row

variable {startHeight account} {state : Polling}

theorem mem_fresh {row : NotificationRow} :
    row ∈ fresh account state ↔
      row ∈ notificationsOf state.db.projections account ∧ row.blockHeight ∈ state.applied := by
  rw [fresh, List.mem_filter, decide_eq_true_eq]

theorem mem_notificationsOf {db : Database} {row : NotificationRow} :
    row ∈ notificationsOf db account ↔ row ∈ db.notifications ∧ row.account = account := by
  rw [notificationsOf, List.mem_filter, decide_eq_true_eq]

theorem numbered_of_filled (filled : ∃ blocks : List (ChainBlock runtime.codec),
    Linked startHeight blocks ∧ state.db = databaseOf runtime blocks) :
    Numbered state.db.projections.notifications := by
  obtain ⟨blocks, _, same⟩ := filled
  rw [same]
  exact numbered_blockNotifications blocks

theorem ordered_of_filled (filled : ∃ blocks : List (ChainBlock runtime.codec),
    Linked startHeight blocks ∧ state.db = databaseOf runtime blocks) :
    Rows.Ordered NotificationRow.id state.db.projections.notifications :=
  ordered_of_numbered (numbered_of_filled filled)

theorem kept_start : Kept startHeight account runtime .start where
  filled := ⟨[], linked_nil, rfl⟩
  waiting _ := rfl
  unmarked _ := ⟨rfl, fun impossible => by cases impossible⟩
  owed row member := by cases member

/-- A call that fails changes nothing. -/
theorem advance_failed {call : LogCall runtime} {failure : Failure}
    (failed : perform startHeight state.db call = (.error failure, state.db)) :
    advance startHeight account state (.log call) = state := by
  have same : appliedAfter state.polled state.applied call (.error failure) = state.applied := by
    cases call with
    | applyBlock block plan => rfl
    | rollbackTo height plan => rfl
  dsimp only [advance]
  rw [failed]
  dsimp only
  rw [same]

end Client

/-! ### What a call of the log keeps -/

section Log

variable {runtime : Runtime} {startHeight : ℕ} {account : Address} {state : Polling}
  {blocks : List (ChainBlock runtime.codec)} {block : ChainBlock runtime.codec}

/-- The state after a block was added. -/
def Polling.added (state : Polling) (runtime : Runtime) (blocks : List (ChainBlock runtime.codec))
    (block : ChainBlock runtime.codec) : Polling :=
  { state with db := databaseOf runtime (blocks ++ [block]),
               applied := if state.polled then state.applied ++ [block.height] else state.applied }

/-- The state after a rollback. -/
def Polling.dropped (state : Polling) (runtime : Runtime) (blocks : List (ChainBlock runtime.codec))
    (height : ℤ) : Polling :=
  { state with db := databaseOf runtime (upTo height blocks),
               applied := state.applied.filter fun other => (other : ℤ) ≤ height }

/-- What is fresh after a block was added was fresh before, or is written by the block after the
first poll. -/
theorem fresh_added (kept : Kept startHeight account runtime state)
    (same : state.db = databaseOf runtime blocks) (longer : Linked startHeight (blocks ++ [block]))
    {row : NotificationRow} :
    row ∈ fresh account (state.added runtime blocks block) ↔
      row ∈ fresh account state ∨
        state.polled = true ∧ row.account = account ∧
          row ∈ (blockNotifications runtime (blocks ++ [block])).drop
            (blockNotifications runtime blocks).length := by
  rw [mem_fresh, mem_notificationsOf, mem_fresh, mem_notificationsOf, same]
  show (row ∈ blockNotifications runtime (blocks ++ [block]) ∧ row.account = account) ∧
      row.blockHeight ∈ (if state.polled then state.applied ++ [block.height] else state.applied) ↔
    ((row ∈ blockNotifications runtime blocks ∧ row.account = account) ∧
      row.blockHeight ∈ state.applied) ∨ _
  rw [mem_blockNotifications_concat longer]
  cases polled : state.polled with
  | false =>
    have none_applied := kept.waiting polled
    simp only [none_applied, Bool.false_eq_true, if_false, List.not_mem_nil, and_false, false_and,
      or_self]
  | true =>
    rw [if_pos rfl, List.mem_append, List.mem_singleton]
    constructor
    · rintro ⟨⟨old | new, mine⟩, applied⟩
      · exact .inl ⟨⟨old.1, mine⟩, applied.resolve_right old.2⟩
      · exact .inr ⟨rfl, mine, new.1⟩
    · rintro (⟨⟨old, mine⟩, applied⟩ | ⟨_, mine, new⟩)
      · have other := (mem_blockNotifications_concat longer).mp
          ((blockNotifications_begin (List.prefix_append blocks [block])).subset old)
        exact ⟨⟨other.imp id id, mine⟩, .inl applied⟩
      · have other := (mem_blockNotifications_concat longer).mp (List.mem_of_mem_drop new)
        rcases other with ⟨old, different⟩ | mine'
        · obtain ⟨added, behind, heights⟩ := (adds_block blocks block).behind
          rw [behind, List.drop_left] at new
          exact absurd (heights row new) different
        · exact ⟨⟨.inr mine', mine⟩, .inr mine'.2⟩

end Log

section Steps

variable {runtime : Runtime} {startHeight : ℕ} {account : Address} {state : Polling}
  {blocks : List (ChainBlock runtime.codec)}

theorem kept_added (kept : Kept startHeight account runtime state)
    (same : state.db = databaseOf runtime blocks) {block : ChainBlock runtime.codec}
    (longer : Linked startHeight (blocks ++ [block]))
    (due : state.polled = true →
      ∀ row ∈ (blockNotifications runtime (blocks ++ [block])).drop
        (blockNotifications runtime blocks).length, row.account = account → Due state row) :
    Kept startHeight account runtime (state.added runtime blocks block) where
  filled := ⟨blocks ++ [block], longer, rfl⟩
  waiting unpolled := by
    show (if state.polled then _ else _) = _
    rw [show state.polled = false from unpolled]
    exact kept.waiting unpolled
  unmarked unset := by
    refine ⟨(kept.unmarked unset).1, fun polled row member => ?_⟩
    rw [fresh_added kept same longer]
    obtain ⟨stored, mine⟩ := mem_notificationsOf.mp member
    rcases (mem_blockNotifications_concat longer).mp stored with old | new
    · refine .inl ((kept.unmarked unset).2 polled row (mem_notificationsOf.mpr ⟨?_, mine⟩))
      rw [same]
      exact old.1
    · exact .inr ⟨polled, mine, new.1⟩
  owed row member := by
    rcases (fresh_added kept same longer).mp member with old | ⟨polled, mine, new⟩
    · exact kept.owed row old
    · exact due polled row new mine

theorem kept_dropped (kept : Kept startHeight account runtime state)
    (linked : Linked startHeight blocks) (same : state.db = databaseOf runtime blocks)
    (height : ℤ) :
    Kept startHeight account runtime (state.dropped runtime blocks height) := by
  have fewer : ∀ row ∈
      notificationsOf (databaseOf runtime (upTo height blocks)).projections account,
      row ∈ notificationsOf state.db.projections account ∧ (row.blockHeight : ℤ) ≤ height := by
    intro row member
    obtain ⟨stored, mine⟩ := mem_notificationsOf.mp member
    obtain ⟨before, low⟩ := mem_blockNotifications_upTo stored
    rw [same]
    exact ⟨mem_notificationsOf.mpr ⟨before, mine⟩, low⟩
  constructor
  · exact ⟨upTo height blocks, linked_of_prefix linked (upTo_begins height blocks), rfl⟩
  · intro unpolled
    show state.applied.filter _ = []
    rw [kept.waiting unpolled]
    rfl
  · intro unset
    refine ⟨(kept.unmarked unset).1, fun polled row member => ?_⟩
    obtain ⟨before, low⟩ := fewer row member
    have applied := (mem_fresh.mp ((kept.unmarked unset).2 polled row before)).2
    exact mem_fresh.mpr ⟨member, List.mem_filter.mpr ⟨applied, decide_eq_true low⟩⟩
  · intro row member
    obtain ⟨listed, applied⟩ := mem_fresh.mp member
    exact kept.owed row (mem_fresh.mpr ⟨(fewer row listed).1, (List.mem_filter.mp applied).1⟩)

/-- A call of the log changes nothing, adds a block or drops some; only the second writes
notifications. -/
theorem advance_log (kept : Kept startHeight account runtime state) (call : LogCall runtime) :
    (advance startHeight account state (.log call) = state ∧
      written startHeight state.db call = []) ∨
    (∃ blocks block, Linked startHeight (blocks ++ [block]) ∧ state.db = databaseOf runtime blocks ∧
      advance startHeight account state (.log call) = state.added runtime blocks block ∧
      written startHeight state.db call =
        (blockNotifications runtime (blocks ++ [block])).drop
          (blockNotifications runtime blocks).length) ∨
    ∃ blocks height, Linked startHeight blocks ∧ state.db = databaseOf runtime blocks ∧
      advance startHeight account state (.log call) = state.dropped runtime blocks height ∧
      written startHeight state.db call = [] := by
  obtain ⟨blocks, linked, same⟩ := kept.filled
  have unchanged : ∀ failure, perform startHeight (databaseOf runtime blocks) call =
      (.error failure, databaseOf runtime blocks) →
      advance startHeight account state (.log call) = state ∧
        written startHeight state.db call = [] := by
    intro failure failed
    rw [← same] at failed
    refine ⟨advance_failed failed, ?_⟩
    rw [written, failed]
    exact List.drop_length
  cases call with
  | applyBlock block plan =>
    rcases perform_applyBlock linked block plan with ⟨failure, failed⟩ | ⟨row, longer, done⟩
    · exact .inl (unchanged failure failed)
    · rw [← same] at done
      refine .inr (.inl ⟨blocks, block, longer, same, ?_, ?_⟩)
      · dsimp only [advance]
        rw [done]
        rfl
      · rw [written, done, same]
        rfl
  | rollbackTo height plan =>
    rcases perform_rollbackTo linked height plan with ⟨failure, failed⟩ | ⟨count, done⟩
    · exact .inl (unchanged failure failed)
    · rw [← same] at done
      refine .inr (.inr ⟨blocks, height, linked, same, ?_, ?_⟩)
      · dsimp only [advance]
        rw [done]
        rfl
      · rw [written, done, same]
        exact List.drop_eq_nil_of_le
          (blockNotifications_begin (upTo_begins height blocks)).length_le

theorem kept_log (kept : Kept startHeight account runtime state) (call : LogCall runtime)
    (timely : Timely startHeight account state (.log call)) :
    Kept startHeight account runtime (advance startHeight account state (.log call)) := by
  rcases advance_log kept call with ⟨unchanged, _⟩ | ⟨blocks, block, longer, same, done, rows⟩ |
    ⟨blocks, height, linked, same, done, _⟩
  · rw [unchanged]
    exact kept
  · rw [done]
    refine kept_added kept same longer fun polled row member => ?_
    rw [← rows] at member
    exact timely polled row member
  · rw [done]
    exact kept_dropped kept linked same height

/-- What a call writes after the first poll is fresh. -/
theorem fresh_of_written (kept : Kept startHeight account runtime state) {call : LogCall runtime}
    (polled : state.polled = true) {row : NotificationRow} (mine : row.account = account)
    (member : row ∈ written startHeight state.db call) :
    row ∈ fresh account (advance startHeight account state (.log call)) := by
  rcases advance_log kept call with ⟨_, nothing⟩ | ⟨blocks, block, longer, same, done, rows⟩ |
    ⟨_, _, _, _, _, nothing⟩
  · rw [nothing] at member
    cases member
  · rw [done, fresh_added kept same longer]
    rw [rows] at member
    exact .inr ⟨polled, mine, member⟩
  · rw [nothing] at member
    cases member

/-! ### What a poll keeps -/

/-- A client that is given no cursor has been told of nothing, for there is nothing. -/
theorem notificationsOf_eq_nil (ordered :
    Rows.Ordered NotificationRow.id state.db.projections.notifications) {limit : ℕ+}
    (unset : (state.poll account limit).cursor = none) :
    state.cursor = none ∧ notificationsOf state.db.projections account = [] := by
  have next : (notifications state.db.projections account state.cursor limit).nextCursor = none :=
    unset
  rw [nextCursor_eq, Option.or_eq_none_iff, Option.map_eq_none_iff,
    List.getLast?_eq_none_iff] at next
  obtain ⟨empty, unmarked⟩ := next
  refine ⟨unmarked, List.eq_nil_of_length_eq_zero ?_⟩
  rw [unmarked, notificationRows_none ordered, List.drop_eq_nil_iff] at empty
  have positive := limit.pos
  omega

theorem kept_poll (kept : Kept startHeight account runtime state) (limit : ℕ+)
    (room : state.polled = true → state.cursor = none →
      (notificationsOf state.db.projections account).length ≤ limit) :
    Kept startHeight account runtime (state.poll account limit) := by
  have ordered := ordered_of_filled kept.filled
  constructor
  · exact kept.filled
  · intro impossible
    cases impossible
  · intro unset
    obtain ⟨unmarked, empty⟩ := notificationsOf_eq_nil ordered unset
    refine ⟨?_, fun _ row member => ?_⟩
    · have items : (notifications state.db.projections account state.cursor limit).items = [] := by
        dsimp only [notifications]
        rw [unmarked, notificationRows_none ordered, empty, List.drop_nil, List.map_nil]
      show state.returned ++ _ = []
      rw [items, (kept.unmarked unmarked).1, List.append_nil]
    · have listed : row ∈ notificationsOf state.db.projections account := member
      rw [empty] at listed
      cases listed
  · intro row member
    have before : row ∈ fresh account state := member
    obtain ⟨listed, applied⟩ := mem_fresh.mp before
    have polled : state.polled = true := by
      by_contra unpolled
      rw [kept.waiting (Bool.eq_false_of_not_eq_true unpolled)] at applied
      cases applied
    rcases kept.owed row before with told | ahead
    · exact .inl (List.mem_append_left _ told)
    · rcases shown_or_unseen ordered (room polled) (mem_unseen.mpr ⟨listed, ahead⟩) with
        shown | still
      · exact .inl (List.mem_append_right _ shown)
      · exact .inr (mem_unseen.mp still).2

theorem kept_advance (kept : Kept startHeight account runtime state) {step : PollStep runtime}
    (timely : Timely startHeight account state step) :
    Kept startHeight account runtime (advance startHeight account state step) := by
  cases step with
  | log call => exact kept_log kept call timely
  | poll limit => exact kept_poll kept limit timely

/-- What every timely step keeps, every run of timely steps keeps. -/
theorem kept_run (kept : Kept startHeight account runtime state) {steps : List (PollStep runtime)}
    (timely : AllTimely startHeight account state steps) :
    Kept startHeight account runtime (steps.foldl (advance startHeight account) state) := by
  induction steps generalizing state with
  | nil => exact kept
  | cons step rest inductionHypothesis =>
    exact inductionHypothesis (kept_advance kept timely.1) timely.2

/-! ### Polling until nothing is left -/

/-- Polls change neither the database nor which blocks are new. -/
theorem fresh_polls (limits : List ℕ+) (state : Polling) :
    fresh account (limits.foldl (Polling.poll account) state) = fresh account state := by
  induction limits generalizing state with
  | nil => rfl
  | cons limit rest inductionHypothesis => exact inductionHypothesis (state.poll account limit)

/-- Every poll leaves less beyond the cursor. -/
theorem length_unseen_polls (limits : List ℕ+) {state : Polling}
    (ordered : Rows.Ordered NotificationRow.id state.db.projections.notifications) :
    (unseen (limits.foldl (Polling.poll account) state).db.projections account
        (limits.foldl (Polling.poll account) state).cursor).length ≤
      (unseen state.db.projections account state.cursor).length - limits.length := by
  induction limits generalizing state with
  | nil => exact Nat.le_refl _
  | cons limit rest inductionHypothesis =>
    have later := @inductionHypothesis (state.poll account limit) ordered
    have once : (unseen (state.poll account limit).db.projections account
        (state.poll account limit).cursor).length ≤
        (unseen state.db.projections account state.cursor).length - 1 :=
      length_unseen_nextCursor ordered state.cursor limit
    rw [List.foldl_cons, List.length_cons]
    omega

/-- A notification that the cursor has passed is in no page to come. -/
theorem not_due_poll {row : NotificationRow} (passed : ¬ Due state row)
    (ordered : Rows.Ordered NotificationRow.id state.db.projections.notifications) (limit : ℕ+) :
    ¬ Due (state.poll account limit) row := by
  unfold Due at passed ⊢
  rw [not_or] at passed ⊢
  obtain ⟨untold, behind⟩ := passed
  cases marked : state.cursor with
  | none =>
    rw [marked] at behind
    exact absurd (fun seen impossible => by cases impossible) behind
  | some since =>
    have below : row.id ≤ since := by
      by_contra above
      refine behind fun seen member => ?_
      rw [marked] at member
      cases member
      omega
    have beyond : ∀ other ∈ notificationRows state.db.projections account state.cursor limit,
        since < other.id := by
      intro other member
      rw [marked, notificationRows_some ordered] at member
      exact (mem_unseen.mp (List.mem_of_mem_take member)).2 since rfl
    constructor
    · intro told
      rcases List.mem_append.mp told with old | new
      · exact untold old
      · obtain ⟨other, member, same⟩ := List.mem_map.mp new
        have ids : other.id = row.id := congrArg NotificationView.id same
        have above := beyond other member
        omega
    · intro ahead
      have next : (state.poll account limit).cursor = _ := nextCursor_eq state.cursor limit
      rw [next] at ahead
      cases last : (notificationRows state.db.projections account state.cursor limit).getLast? with
      | none =>
        rw [last, marked] at ahead
        have above := ahead since rfl
        omega
      | some final =>
        rw [last] at ahead
        have above := ahead final.id rfl
        have passed := beyond final (List.mem_of_getLast? last)
        omega

theorem not_due_polls {row : NotificationRow} (limits : List ℕ+) {state : Polling}
    (passed : ¬ Due state row)
    (ordered : Rows.Ordered NotificationRow.id state.db.projections.notifications) :
    ¬ Due (limits.foldl (Polling.poll account) state) row := by
  induction limits generalizing state with
  | nil => exact passed
  | cons limit rest inductionHypothesis =>
    exact inductionHypothesis (not_due_poll passed ordered limit) ordered

/-- Any step leaves a database that linked blocks fill. -/
theorem filled_advance (filled : ∃ blocks : List (ChainBlock runtime.codec),
    Linked startHeight blocks ∧ state.db = databaseOf runtime blocks) (step : PollStep runtime) :
    ∃ blocks : List (ChainBlock runtime.codec), Linked startHeight blocks ∧
      (advance startHeight account state step).db = databaseOf runtime blocks := by
  cases step with
  | log call =>
    obtain ⟨blocks, linked, same⟩ := filled
    dsimp only [advance]
    rw [same]
    rcases perform_linked linked call with ⟨failure, failed⟩ | ⟨answer, others, kept, done⟩
    · exact ⟨blocks, linked, by rw [failed]⟩
    · exact ⟨others, kept, by rw [done]⟩
  | poll limit => exact filled

/-- A step that is not timely leaves a fresh notification that the cursor has passed. -/
theorem passed_of_not_timely (kept : Kept startHeight account runtime state)
    {step : PollStep runtime} (violates : ¬ Timely startHeight account state step) :
    ∃ row ∈ fresh account (advance startHeight account state step),
      ¬ Due (advance startHeight account state step) row := by
  cases step with
  | log call =>
    dsimp only [Timely] at violates
    push Not at violates
    obtain ⟨polled, row, member, mine, passed⟩ := violates
    exact ⟨row, fresh_of_written kept polled mine member, passed⟩
  | poll limit =>
    dsimp only [Timely] at violates
    push Not at violates
    obtain ⟨polled, unmarked, crowded⟩ := violates
    have ordered := ordered_of_filled kept.filled
    have increasing : Rows.Ordered NotificationRow.id
        (notificationsOf state.db.projections account) := ordered_notificationsOf ordered
    cases rows : notificationsOf state.db.projections account with
    | nil =>
      rw [rows] at crowded
      exact absurd crowded (Nat.not_lt_zero _)
    | cons first rest =>
      have listed : first ∈ notificationsOf state.db.projections account := by
        rw [rows]
        exact List.mem_cons_self
      refine ⟨first, (kept.unmarked unmarked).2 polled first listed, ?_⟩
      have positive := limit.pos
      rw [rows] at increasing crowded
      -- the page leaves out the oldest row
      have page : notificationRows state.db.projections account state.cursor limit =
          rest.drop (rest.length - limit) := by
        rw [List.length_cons] at crowded
        rw [unmarked, notificationRows_none ordered, rows, List.length_cons,
          show rest.length + 1 - (limit : ℕ) = rest.length - limit + 1 by omega,
          List.drop_succ_cons]
      have above : ∀ other ∈ notificationRows state.db.projections account state.cursor limit,
          first.id < other.id := by
        intro other member
        rw [page] at member
        exact (List.pairwise_cons.mp increasing).1 other (List.mem_of_mem_drop member)
      rintro (told | ahead)
      · have items : notificationView first ∈
            (notifications state.db.projections account state.cursor limit).items := by
          have none_told : (state.poll account limit).returned =
              (notifications state.db.projections account state.cursor limit).items := by
            show state.returned ++ _ = _
            rw [(kept.unmarked unmarked).1, List.nil_append]
          rw [← none_told]
          exact told
        obtain ⟨other, member, same⟩ := List.mem_map.mp items
        have ids : other.id = first.id := congrArg NotificationView.id same
        have later := above other member
        omega
      · have next : (state.poll account limit).cursor = _ := nextCursor_eq state.cursor limit
        have read : ∃ final,
            (notificationRows state.db.projections account state.cursor limit).getLast? =
              some final := by
          refine Option.ne_none_iff_exists'.mp fun empty => ?_
          rw [page, List.getLast?_eq_none_iff, List.drop_eq_nil_iff] at empty
          rw [List.length_cons] at crowded
          omega
        obtain ⟨final, last⟩ := read
        have seen : (state.poll account limit).cursor = some final.id := by
          rw [next, last]
          rfl
        have below := above final (List.mem_of_getLast? last)
        have passed := ahead final.id seen
        omega

end Steps

end OpenSocial.Indexer

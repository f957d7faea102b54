/-
This file models the listing of an account's conversations and finds when paging through
it loses none.

The listing is in the order of the last change, the newest first, and then of the two
accounts; but the client continues strictly before the time of the last conversation it
got. Conversations changed at one time, as those of one block are, are lost where a page
ends between them.
-/

import OpenSocial.Indexer.Projections
import OpenSocial.Library.Paging

namespace OpenSocial.Indexer

open Library

/-! ### The query -/

/-- An error of the API, with its status. -/
structure ApiError where
  status : ℕ
  code : String
  message : String
  deriving DecidableEq, Repr

/-- `CAST(number AS INTEGER)` of a decimal text: capped at the largest integer. -/
def castInteger (number : ℕ) : ℕ := min number (2 ^ 63 - 1)

/-- Accounts compare by their texts. -/
def accountRank : Address ↪ String := ⟨Sdk.standard.toBase58, Sdk.standard_injective⟩

def pairRank : Address × Address ↪ String ×ₗ String :=
  ⟨fun pair => toLex (accountRank pair.1, accountRank pair.2), fun first second same => by
    simpa [Prod.ext_iff] using same⟩

abbrev ConversationEntry := (Address × Address) × ConversationRow

/-- The time of a change, the latest first. -/
def changedAt (entry : ConversationEntry) : ℕᵒᵈ :=
  OrderDual.toDual (castInteger entry.2.updatedAt)

/-- `ORDER BY CAST(updated_at AS INTEGER) DESC, a, b`. -/
def conversationKey (entry : ConversationEntry) : ℕᵒᵈ ×ₗ (String ×ₗ String) :=
  toLex (changedAt entry, pairRank entry.1)

def ofAccount (account : Address) (entry : ConversationEntry) : Bool :=
  entry.1.1 == account || entry.1.2 == account

/-- The rows that a page is taken from. -/
def conversationRows (db : Database) (account : Address) (before : Option ℕ) :
    List ConversationEntry :=
  Rows.orderBy conversationKey ((db.conversations.rows pairRank).filter fun entry =>
    ofAccount account entry &&
      before.elim true fun before => castInteger entry.2.updatedAt < castInteger before)

/-- `GET /v1/conversations/:account`. A time has at most twenty digits, a page at most a hundred
conversations. -/
def conversationsPage (db : Database) (account : Address) (before : Option ℕ) (limit : ℕ) :
    Except ApiError (List Messaging.ConversationRecord) :=
  if before.elim false fun before => 10 ^ 20 ≤ before then
    .error ⟨400, "invalid_request", "invalid timestamp"⟩
  else
    .ok (((conversationRows db account before).take (min limit 100)).map fun entry =>
      entry.2.value)

section Paging

variable (db : Database) (account : Address) (limit : ℕ)

/-- Fetching pages, each before the time of the last conversation of the one before, until one is
empty: the conversations of each. -/
inductive ConversationPages : Option ℕ → List (List Messaging.ConversationRecord) → Prop
  | done {before : Option ℕ} (empty : conversationsPage db account before limit = .ok []) :
      ConversationPages before []
  | page {before : Option ℕ} {items : List Messaging.ConversationRecord}
      {last : Messaging.ConversationRecord} {pages : List (List Messaging.ConversationRecord)}
      (answer : conversationsPage db account before limit = .ok items)
      (ends : items.getLast? = some last)
      (rest : ConversationPages (some last.updatedAt) pages) :
      ConversationPages before (items :: pages)

variable {db account limit}

/-! ### What is stored -/

/-- Rows of conversations as their events are: the column has the time of the record, which is a
64-bit number. -/
def StoredTimes (db : Database) : Prop :=
  ∀ pair row, db.conversations.get pair = some row →
    row.updatedAt = row.value.updatedAt ∧ row.updatedAt < 2 ^ 64

/-- All conversations of the account, in the order of the listing. -/
def conversationsOf (db : Database) (account : Address) : List ConversationEntry :=
  Rows.orderBy conversationKey ((db.conversations.rows pairRank).filter (ofAccount account))

theorem distinct_conversations (wanted : ConversationEntry → Bool) :
    (((db.conversations.rows pairRank).filter wanted).map conversationKey).Nodup := by
  have keys : ((db.conversations.rows pairRank).map Prod.fst).Nodup := Store.nodup_rows
  have rows := keys.of_map
  refine (rows.filter _).map_on fun first member second member' same => ?_
  have pairs : pairRank first.1 = pairRank second.1 := congrArg (fun key => (ofLex key).2) same
  exact List.inj_on_of_nodup_map keys (List.mem_of_mem_filter member)
    (List.mem_of_mem_filter member') (pairRank.injective pairs)

theorem rising_conversations :
    (conversationsOf db account).Pairwise fun first second => changedAt first ≤ changedAt second := by
  have ordered := Rows.ordered_orderBy (@distinct_conversations db (ofAccount account))
  refine ordered.imp fun before => ?_
  rcases Prod.Lex.toLex_lt_toLex.mp before with less | ⟨same, _⟩
  · exact less.le
  · exact same.le

/-- The rows of a page are the rows of the account behind its time. -/
theorem conversationRows_eq (before : Option ℕ) :
    conversationRows db account before =
      Rows.beyond changedAt (conversationsOf db account)
        (before.map fun before => OrderDual.toDual (castInteger before)) := by
  unfold conversationRows Rows.beyond conversationsOf
  rw [← Rows.orderBy_filter (distinct_conversations (ofAccount account)), List.filter_filter]
  refine congrArg (Rows.orderBy conversationKey) (List.filter_congr fun entry _ => ?_)
  rw [Bool.and_comm]
  cases before with
  | none => rfl
  | some before => rfl

theorem conversationsPage_eq {before : Option ℕ} (fits : ∀ time ∈ before, time < 2 ^ 64) :
    conversationsPage db account before limit =
      .ok (((Rows.beyond changedAt (conversationsOf db account)
        (before.map fun before => OrderDual.toDual (castInteger before))).take
          (min limit 100)).map fun entry => entry.2.value) := by
  have valid : (before.elim false fun before => decide (10 ^ 20 ≤ before)) = false := by
    cases before with
    | none => rfl
    | some before =>
      have small := fits before rfl
      exact decide_eq_false (by omega)
  rw [conversationsPage, valid, if_neg Bool.false_ne_true, conversationRows_eq]

/-- The time of a conversation that a page ends with. -/
theorem time_of_ends (stored : StoredTimes db) {key : Option ℕᵒᵈ} {last : ConversationEntry}
    (ends : ((Rows.beyond changedAt (conversationsOf db account) key).take
      (min limit 100)).getLast? = some last) :
    last.2.updatedAt = last.2.value.updatedAt ∧ last.2.updatedAt < 2 ^ 64 := by
  have member : last ∈ (db.conversations.rows pairRank).filter (ofAccount account) :=
    Rows.mem_orderBy.mp (List.mem_of_mem_filter (List.mem_of_mem_take (List.mem_of_getLast? ends)))
  exact stored last.1 last.2 (Store.mem_rows.mp (List.mem_of_mem_filter member))

/-- The pages that the times give are the pages of the rows. -/
theorem conversationPages_iff_walk (stored : StoredTimes db) {before : Option ℕ}
    (fits : ∀ time ∈ before, time < 2 ^ 64)
    {pages : List (List Messaging.ConversationRecord)} :
    ConversationPages db account limit before pages ↔
      ∃ found, Rows.Walk changedAt (conversationsOf db account) (min limit 100)
        (before.map fun before => OrderDual.toDual (castInteger before)) found ∧
        pages = found.map (List.map fun entry => entry.2.value) := by
  constructor
  · intro shown
    induction shown with
    | done empty =>
      rw [conversationsPage_eq fits] at empty
      exact ⟨[], .done (List.map_eq_nil_iff.mp (Except.ok.inj empty)), rfl⟩
    | page answer ends _ inductionHypothesis =>
      rw [conversationsPage_eq fits] at answer
      obtain rfl := Except.ok.inj answer
      rw [List.getLast?_map] at ends
      obtain ⟨last, final, rfl⟩ := Option.map_eq_some_iff.mp ends
      obtain ⟨same, small⟩ := time_of_ends stored final
      rw [same] at small
      obtain ⟨found, walk, rfl⟩ := inductionHypothesis fun time member =>
        Option.some.inj member ▸ small
      refine ⟨_ :: found, .page final ?_, rfl⟩
      rw [Option.map_some, ← same] at walk
      exact walk
  · rintro ⟨found, walk, rfl⟩
    generalize reached : (before.map fun before => OrderDual.toDual (castInteger before)) = key
      at walk
    induction walk generalizing before with
    | done empty =>
      refine .done ?_
      rw [conversationsPage_eq fits, reached, empty]
      rfl
    | page ends _ inductionHypothesis =>
      have answer := @conversationsPage_eq db account limit before fits
      rw [reached] at answer
      obtain ⟨same, small⟩ := time_of_ends stored ends
      refine .page answer (by rw [List.getLast?_map, ends]; rfl) (inductionHypothesis ?_ ?_)
      · rintro time ⟨⟩
        rw [← same]
        exact small
      · rw [Option.map_some, ← same]
        rfl

/-- Only one list of pages follows from the times. -/
theorem conversationPages_unique (stored : StoredTimes db)
    {pages others : List (List Messaging.ConversationRecord)}
    (shown : ConversationPages db account limit none pages)
    (again : ConversationPages db account limit none others) : others = pages := by
  have fits : ∀ time ∈ (none : Option ℕ), time < 2 ^ 64 :=
    fun time member => absurd member (Option.not_mem_none time)
  obtain ⟨_, walk, rfl⟩ := (conversationPages_iff_walk stored fits).mp shown
  obtain ⟨_, also, rfl⟩ := (conversationPages_iff_walk stored fits).mp again
  rw [Rows.walk_unique walk also]

/-- The rows that stand on both sides of a page's end have different times. -/
def PagesParted (db : Database) (account : Address) (limit : ℕ) : Prop :=
  Rows.Parted changedAt (conversationsOf db account) (min limit 100)

/-- The pages of an account end; they have all of its conversations, each once, exactly if none of
them ends between two conversations of one time. -/
theorem conversationPages_spec (stored : StoredTimes db) (positive : 1 ≤ limit) :
    ∃ pages, ConversationPages db account limit none pages ∧
      (pages.flatten.Perm ((conversationsOf db account).map fun entry => entry.2.value) ↔
        PagesParted db account limit) := by
  obtain ⟨pages, walk, shown, whole⟩ := Rows.walk_spec (by omega : 1 ≤ min limit 100)
    (@rising_conversations db account) none
  rw [Rows.beyond_none] at shown whole
  have fits : ∀ time ∈ (none : Option ℕ), time < 2 ^ 64 :=
    fun time member => absurd member (Option.not_mem_none time)
  refine ⟨_, (conversationPages_iff_walk stored fits).mpr ⟨pages, walk, rfl⟩, ?_⟩
  rw [← List.map_flatten, PagesParted, ← whole]
  constructor
  · intro perm
    have length := perm.length_eq
    rw [List.length_map, List.length_map] at length
    exact shown.eq_of_length length
  · intro same
    rw [same]

end Paging

/-- Of all events, only a change of a conversation writes a conversation. -/
theorem conversations_applyEvent (sdk : Sdk) (db : Database) (log : LogEvent) :
    (applyEvent sdk db log).conversations = db.conversations ∨
      ∃ value timestamp, log.event = .messaging (.conversationChanged value timestamp) ∧
        (applyEvent sdk db log).conversations =
          db.conversations.put (value.a, value.b) ⟨value, value.updatedAt⟩ := by
  unfold applyEvent
  cases log.event with
  | identity data =>
    obtain ⟨_, _, _, applied⟩ := applyIdentity_eq db log data
    refine .inl ?_
    dsimp only
    rw [applied]
  | relationships data =>
    obtain ⟨_, _, _, _, _, applied⟩ := applyRelationships_eq sdk db log data
    refine .inl ?_
    dsimp only
    rw [applied]
  | publications data =>
    obtain ⟨_, _, _, _, _, _, applied⟩ := applyPublications_eq sdk db log data
    refine .inl ?_
    dsimp only
    rw [applied]
  | communities data =>
    obtain ⟨_, _, _, _, applied⟩ := applyCommunities_eq db log data
    refine .inl ?_
    dsimp only
    rw [applied]
  | registry data =>
    obtain ⟨_, _, _, applied⟩ := applyRegistry_eq db log data
    refine .inl ?_
    dsimp only
    rw [applied]
  | messaging data =>
    cases data with
    | conversationChanged value timestamp => exact .inr ⟨value, timestamp, rfl, rfl⟩
    | messageSent value envelope timestamp => exact .inl rfl
  | token data =>
    obtain ⟨_, _, applied⟩ := applyToken_eq db log data
    refine .inl ?_
    dsimp only
    rw [applied]
  | sponsorship data =>
    obtain ⟨_, _, applied⟩ := applySponsorship_eq db log data
    refine .inl ?_
    dsimp only
    rw [applied]

/-- What the projections store is what their events are, whose times are 64-bit numbers. -/
theorem storedTimes_replay (sdk : Sdk) (records : List LogEvent)
    (words : ∀ record ∈ records, ∀ value timestamp,
      record.event = .messaging (.conversationChanged value timestamp) →
        value.updatedAt < 2 ^ 64) :
    StoredTimes (replayProjections sdk records) := by
  refine foldl_applyEvent_keeps sdk StoredTimes ?_ fun log member db stored => ?_
  · intro pair row found
    cases found
  · intro pair row found
    rcases conversations_applyEvent sdk db log with same | ⟨value, timestamp, event, written⟩
    · rw [same] at found
      exact stored pair row found
    · rw [written, Store.get_put] at found
      split at found
      · rw [← Option.some.inj found]
        exact ⟨rfl, words log member value timestamp event⟩
      · exact stored pair row found

/-- Following the times of an account's conversations ends; it gives all of them, each once, exactly
if no page ends between two of one time. -/
theorem conversations_paged_iff (sdk : Sdk) (records : List LogEvent)
    (words : ∀ record ∈ records, ∀ value timestamp,
      record.event = .messaging (.conversationChanged value timestamp) →
        value.updatedAt < 2 ^ 64)
    (account : Address) (limit : ℕ) (positive : 1 ≤ limit) :
    ∃ pages, ConversationPages (replayProjections sdk records) account limit none pages ∧
      (∀ others, ConversationPages (replayProjections sdk records) account limit none others →
        others = pages) ∧
      (pages.flatten.Perm ((conversationsOf (replayProjections sdk records) account).map
          fun entry => entry.2.value) ↔
        PagesParted (replayProjections sdk records) account limit) := by
  have stored := storedTimes_replay sdk records words
  obtain ⟨pages, follows, whole⟩ := conversationPages_spec stored positive
  exact ⟨pages, follows, fun others again => conversationPages_unique stored follows again, whole⟩

/-- The first account's conversation with this one, changed at this time. -/
def changed (peer : UInt8) (time : ℕ) : Messaging.ConversationRecord :=
  ⟨Address.repeated 1, Address.repeated peer, Address.repeated 1, .requested, 1, 0, time⟩

/-- The log of these changes. -/
def changesLog (records : List Messaging.ConversationRecord) : List LogEvent :=
  logOf (records.map fun record => .messaging (.conversationChanged record record.updatedAt))

/-- The times of this log are 64-bit numbers if those of its records are. -/
theorem words_changesLog {records : List Messaging.ConversationRecord}
    (words : ∀ record ∈ records, record.updatedAt < 2 ^ 64) :
    ∀ record ∈ changesLog records, ∀ value timestamp,
      record.event = .messaging (.conversationChanged value timestamp) →
        value.updatedAt < 2 ^ 64 := by
  intro record member value timestamp event
  have listed : record.event ∈ (changesLog records).map LogEvent.event :=
    List.mem_map_of_mem member
  rw [changesLog, map_event_logOf, event] at listed
  obtain ⟨_, known, same⟩ := List.mem_map.mp listed
  cases same
  exact words _ known

theorem conversations_paged_iff_changesLog :
    ∃ pages,
      ConversationPages (replayProjections Sdk.standard (changesLog [changed 2 5, changed 3 7]))
        (Address.repeated 1) 1 none pages ∧
      pages.flatten.Perm [changed 3 7, changed 2 5] := by
  obtain ⟨pages, follows, _, whole⟩ := conversations_paged_iff Sdk.standard
    (changesLog [changed 2 5, changed 3 7]) (words_changesLog (by decide)) (Address.repeated 1) 1
    le_rfl
  have listed : (conversationsOf (replayProjections Sdk.standard
      (changesLog [changed 2 5, changed 3 7])) (Address.repeated 1)).map
        (fun entry => entry.2.value) = [changed 3 7, changed 2 5] := by
    decide +kernel
  have times : (conversationsOf (replayProjections Sdk.standard
      (changesLog [changed 2 5, changed 3 7])) (Address.repeated 1)).map changedAt =
        [OrderDual.toDual 7, OrderDual.toDual 5] := by
    decide +kernel
  refine ⟨pages, follows, listed ▸ whole.mpr fun page first second there here same => ?_⟩
  have one := congrArg (Option.map changedAt) there
  have next := congrArg (Option.map changedAt) here
  rw [← List.getElem?_map, times, Option.map_some, same] at one
  rw [← List.getElem?_map, times, Option.map_some] at next
  cases page with
  | zero => exact absurd (Option.some.inj (one.trans next.symm)) (by decide)
  | succ page => cases next

/-- Two conversations changed at one time: pages of one lose the second. -/
theorem conversation_lost :
    ¬ ∀ (records : List LogEvent) (account : Address) (limit : ℕ), 1 ≤ limit →
      ∃ pages,
        ConversationPages (replayProjections Sdk.standard records) account limit none pages ∧
        pages.flatten.Perm ((conversationsOf (replayProjections Sdk.standard records) account).map
          fun entry => entry.2.value) := by
  intro all
  obtain ⟨pages, follows, perm⟩ := all (changesLog [changed 2 5, changed 3 5])
    (Address.repeated 1) 1 le_rfl
  have shown : ConversationPages
      (replayProjections Sdk.standard (changesLog [changed 2 5, changed 3 5]))
      (Address.repeated 1) 1 none [[changed 3 5]] := by
    refine .page ?_ rfl (.done ?_)
    · decide +kernel
    · decide +kernel
  have stored := storedTimes_replay Sdk.standard _
    (@words_changesLog [changed 2 5, changed 3 5] (by decide))
  rw [conversationPages_unique stored shown follows] at perm
  have length := perm.length_eq
  rw [List.length_map] at length
  exact absurd length (by decide +kernel)

end OpenSocial.Indexer

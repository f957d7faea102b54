/-
This file relates the scripts of the indexer's log to lists of blocks.

The database that linked blocks fill has its log and its checkpoints in the
order of their keys, so a replay of the log, which pages through it, applies
every event once and in order, and it applies the events that were applied when
the blocks came in. From such a database `applyBlock` adds a block or refuses it,
and `rollbackTo` takes the blocks above a height away.
-/

import OpenSocial.Indexer.Log

namespace OpenSocial.Indexer

open Library Library.Script

variable (runtime : Runtime)

/-! ### Linked blocks -/

section Linked

variable {codec : EventCodec} {startHeight : ℕ} {blocks : List (ChainBlock codec)}

theorem linked_nil : Linked startHeight ([] : List (ChainBlock codec)) :=
  ⟨List.IsChain.nil, fun first absent => by cases absent⟩

/-- One more block is linked when it is the first one at the start height, or extends the last. -/
theorem linked_concat {block : ChainBlock codec} :
    Linked startHeight (blocks ++ [block]) ↔ Linked startHeight blocks ∧
      (blocks = [] → block.height = startHeight) ∧
      ∀ last, blocks.getLast? = some last → Extends last block := by
  cases blocks with
  | nil =>
    refine ⟨fun linked => ⟨linked_nil, fun _ => linked.2 block rfl, fun last absent => ?_⟩,
      fun parts => ⟨List.isChain_singleton block, fun first found => ?_⟩⟩
    · cases absent
    · cases found
      exact parts.2.1 rfl
  | cons first rest =>
    unfold Linked
    rw [List.isChain_append]
    refine ⟨fun linked => ⟨⟨linked.1.1, linked.2⟩, fun empty => absurd empty (List.cons_ne_nil _ _),
        fun last found => ?_⟩,
      fun parts => ⟨⟨parts.1.1, List.isChain_singleton block, ?_⟩, parts.1.2⟩⟩
    · exact linked.1.2.2 last found block rfl
    · intro last found other single
      cases single
      exact parts.2.2 last found

theorem linked_of_prefix {earlier : List (ChainBlock codec)} (linked : Linked startHeight blocks)
    (beginning : earlier <+: blocks) : Linked startHeight earlier := by
  obtain ⟨later, rfl⟩ := beginning
  refine ⟨(List.isChain_append.mp linked.1).1, fun first found => linked.2 first ?_⟩
  cases earlier with
  | nil => cases found
  | cons head tail => exact found

/-- Linked blocks have the heights from the start height upwards. -/
theorem map_height_of_linked (linked : Linked startHeight blocks) :
    blocks.map ChainBlock.height = List.range' startHeight blocks.length := by
  induction blocks using List.reverseRecOn with
  | nil => rfl
  | append_singleton blocks block inductionHypothesis =>
    obtain ⟨before, starts, extends_⟩ := linked_concat.mp linked
    rw [List.map_append, inductionHypothesis before, List.length_append, List.length_singleton,
      List.range'_concat, List.map_singleton, Nat.one_mul]
    congr 2
    cases last : blocks.getLast? with
    | none =>
      rw [List.getLast?_eq_none_iff] at last
      rw [starts last, last, List.length_nil, Nat.add_zero]
    | some lower =>
      obtain ⟨shown, rfl⟩ := List.getLast?_eq_some_iff.mp last
      have heights := inductionHypothesis before
      rw [List.map_append, List.length_append, List.length_singleton, List.range'_concat,
        Nat.one_mul] at heights
      have lowerHeight := List.append_inj_right' heights rfl
      simp only [List.map_singleton, List.cons.injEq, and_true] at lowerHeight
      rw [(extends_ lower last).1, lowerHeight, List.length_append, List.length_singleton,
        Nat.add_assoc]

theorem ordered_of_linked (linked : Linked startHeight blocks) :
    Rows.Ordered ChainBlock.height blocks := by
  have sorted : (blocks.map ChainBlock.height).Pairwise (· < ·) := by
    rw [map_height_of_linked linked]
    exact List.pairwise_lt_range'
  exact List.pairwise_map.mp sorted

end Linked

/-! ### What a list of blocks fills -/

section Filled

variable {runtime}

theorem databaseOf_concat (blocks : List (ChainBlock runtime.codec))
    (block : ChainBlock runtime.codec) :
    databaseOf runtime (blocks ++ [block]) = extended runtime (databaseOf runtime blocks) block := by
  rw [databaseOf, List.foldl_append, List.foldl_cons, List.foldl_nil, ← databaseOf]

/-- The log rows of a block. -/
def blockRows (block : ChainBlock runtime.codec) : List EventLogRow :=
  block.events.map (eventLogRow runtime block)

theorem eventLog_databaseOf (blocks : List (ChainBlock runtime.codec)) :
    (databaseOf runtime blocks).eventLog = blocks.flatMap blockRows := by
  induction blocks using List.reverseRecOn with
  | nil => rfl
  | append_singleton blocks block inductionHypothesis =>
    rw [databaseOf_concat, extended, inductionHypothesis, List.flatMap_append,
      List.flatMap_singleton]
    rfl

theorem projections_databaseOf (blocks : List (ChainBlock runtime.codec)) :
    (databaseOf runtime blocks).projections =
      replayProjections runtime.sdk (blocks.flatMap fun block => block.events.map (logEvent block)) := by
  induction blocks using List.reverseRecOn with
  | nil => rfl
  | append_singleton blocks block inductionHypothesis =>
    rw [databaseOf_concat, extended, inductionHypothesis, List.flatMap_append,
      List.flatMap_singleton, replayProjections, replayProjections, List.foldl_append]

variable (runtime) in
/-- More blocks leave the checkpoints there are and add one each. -/
theorem checkpoints_append (blocks more : List (ChainBlock runtime.codec)) :
    ∃ rows, (databaseOf runtime (blocks ++ more)).checkpoints =
        (databaseOf runtime blocks).checkpoints ++ rows ∧
      rows.map CheckpointRow.height = more.map ChainBlock.height ∧
      rows.map CheckpointRow.blockId = more.map ChainBlock.id ∧
      rows.map CheckpointRow.previousId = more.map ChainBlock.previous := by
  induction more using List.reverseRecOn with
  | nil => exact ⟨[], by rw [List.append_nil, List.append_nil], rfl, rfl, rfl⟩
  | append_singleton more block inductionHypothesis =>
    obtain ⟨rows, stored, heights, ids, previous⟩ := inductionHypothesis
    rw [← List.append_assoc, databaseOf_concat]
    refine ⟨rows ++ [checkpointRow runtime
      (databaseOf runtime (blocks ++ more)).checkpoints.getLast? block], ?_, ?_, ?_, ?_⟩
    · rw [extended, stored, List.append_assoc]
    · rw [List.map_append, List.map_append, heights]
      rfl
    · rw [List.map_append, List.map_append, ids]
      rfl
    · rw [List.map_append, List.map_append, previous]
      rfl

section Columns

variable (blocks : List (ChainBlock runtime.codec))

theorem map_height_checkpoints :
    (databaseOf runtime blocks).checkpoints.map CheckpointRow.height =
      blocks.map ChainBlock.height := by
  obtain ⟨rows, stored, heights, _⟩ := checkpoints_append runtime [] blocks
  rw [List.nil_append] at stored
  rw [stored, ← heights]
  rfl

theorem map_blockId_checkpoints :
    (databaseOf runtime blocks).checkpoints.map CheckpointRow.blockId =
      blocks.map ChainBlock.id := by
  obtain ⟨rows, stored, _, ids, _⟩ := checkpoints_append runtime [] blocks
  rw [List.nil_append] at stored
  rw [stored, ← ids]
  rfl

theorem map_previousId_checkpoints :
    (databaseOf runtime blocks).checkpoints.map CheckpointRow.previousId =
      blocks.map ChainBlock.previous := by
  obtain ⟨rows, stored, _, _, previous⟩ := checkpoints_append runtime [] blocks
  rw [List.nil_append] at stored
  rw [stored, ← previous]
  rfl

end Columns

/-! ### The order of the rows -/

theorem positionOf_lt_of_height {height other txIndex otherIndex sequence otherSequence : ℕ}
    (below : height < other) :
    positionOf height txIndex sequence < positionOf other otherIndex otherSequence :=
  Prod.Lex.toLex_lt_toLex.mpr (Or.inl (Int.ofNat_lt.mpr below))

/-- Within a block, rows are ordered as the events are. -/
theorem position_lt_of_event {block : ChainBlock runtime.codec} {first second : ChainEvent}
    (before : first.position < second.position) :
    (eventLogRow runtime block first).position < (eventLogRow runtime block second).position := by
  refine Prod.Lex.toLex_lt_toLex.mpr (Or.inr ⟨rfl, Prod.Lex.toLex_lt_toLex.mpr ?_⟩)
  rcases Prod.Lex.toLex_lt_toLex.mp before with index | ⟨index, sequence⟩
  · exact Or.inl (Int.ofNat_lt.mpr index)
  · exact Or.inr ⟨congrArg Nat.cast index, Int.ofNat_lt.mpr sequence⟩

theorem height_of_mem_blockRows {block : ChainBlock runtime.codec} {row : EventLogRow}
    (member : row ∈ blockRows block) : row.height = block.height := by
  obtain ⟨event, _, rfl⟩ := List.mem_map.mp member
  rfl

theorem ordered_blockRows (block : ChainBlock runtime.codec) :
    Rows.Ordered EventLogRow.position (blockRows block) :=
  List.pairwise_map.mpr (block.ordered.imp position_lt_of_event)

/-- The log of linked blocks is in the order of its primary key. -/
theorem ordered_eventLog {startHeight : ℕ} {blocks : List (ChainBlock runtime.codec)}
    (linked : Linked startHeight blocks) :
    Rows.Ordered EventLogRow.position (databaseOf runtime blocks).eventLog := by
  rw [eventLog_databaseOf]
  refine List.pairwise_flatMap.mpr ⟨fun block _ => ordered_blockRows block, ?_⟩
  refine (ordered_of_linked linked).imp ?_
  intro lower upper below first memberFirst second memberSecond
  rw [← height_of_mem_blockRows memberFirst, ← height_of_mem_blockRows memberSecond] at below
  exact positionOf_lt_of_height below

theorem ordered_checkpoints {startHeight : ℕ} {blocks : List (ChainBlock runtime.codec)}
    (linked : Linked startHeight blocks) :
    Rows.Ordered CheckpointRow.height (databaseOf runtime blocks).checkpoints := by
  have sorted := List.pairwise_map.mpr (ordered_of_linked linked)
  rw [← map_height_checkpoints] at sorted
  exact List.pairwise_map.mp sorted

theorem lastCheckpoint_databaseOf {startHeight : ℕ} {blocks : List (ChainBlock runtime.codec)}
    (linked : Linked startHeight blocks) :
    (databaseOf runtime blocks).lastCheckpoint =
      (databaseOf runtime blocks).checkpoints.getLast? := by
  rw [IndexerDb.lastCheckpoint, Rows.orderBy_of_ordered (ordered_checkpoints linked)]

end Filled

/-! ### Replaying the log -/

section Replay

/-- What one replayed row does to the count and the database. -/
def replayed (state : ℕ × IndexerDb) (row : EventLogRow) : ℕ × IndexerDb :=
  match logEventFromRow runtime.codec row with
  | none => state
  | some event =>
    (state.1 + 1, { state.2 with projections := applyEvent runtime.sdk state.2.projections event })

theorem foldl_replayed (rows : List EventLogRow) (applied : ℕ) (db : IndexerDb) :
    rows.foldl (replayed runtime) (applied, db) =
      (applied + (rows.filterMap (logEventFromRow runtime.codec)).length,
        { db with
          projections := (rows.filterMap (logEventFromRow runtime.codec)).foldl
            (applyEvent runtime.sdk) db.projections }) := by
  induction rows generalizing applied db with
  | nil => rfl
  | cons row rest inductionHypothesis =>
    rw [List.foldl_cons]
    cases decoded : logEventFromRow runtime.codec row with
    | none =>
      have skipped : replayed runtime (applied, db) row = (applied, db) := by
        simp only [replayed, decoded]
      rw [skipped, inductionHypothesis, List.filterMap_cons_none decoded]
    | some event =>
      have written : replayed runtime (applied, db) row = (applied + 1,
          { db with projections := applyEvent runtime.sdk db.projections event }) := by
        simp only [replayed, decoded]
      rw [written, inductionHypothesis, List.filterMap_cons_some decoded, List.length_cons,
        List.foldl_cons, Nat.add_assoc, Nat.add_comm 1]

theorem answers_replayRow (applied : ℕ) (db : IndexerDb) (row : EventLogRow) :
    Answers (replayRow runtime applied row) db (.ok (replayed runtime (applied, db) row)) := by
  unfold replayRow replayed
  cases logEventFromRow runtime.codec row with
  | none => exact answers_pure applied
  | some event => exact answers_bind (answers_run _) (answers_pure (applied + 1))

/-- The paging loop applies what is left of an ordered log beyond the cursor. -/
theorem answers_replayPages (rounds : ℕ) (cursor : Position) (applied : ℕ) (db : IndexerDb)
    {done rest : List EventLogRow} (log : db.eventLog = done ++ rest)
    (ordered : Rows.Ordered EventLogRow.position rest)
    (behind : ∀ row ∈ done, row.position ≤ cursor) (ahead : ∀ row ∈ rest, cursor < row.position)
    (enough : rest.length < rounds) :
    Answers (replayPages runtime rounds cursor applied) db
      (.ok (rest.foldl (replayed runtime) (applied, db))) := by
  induction rounds generalizing cursor applied db done rest with
  | zero => omega
  | succ rounds inductionHypothesis =>
    have read : Answers (query fun db => Rows.page EventLogRow.position db.eventLog cursor 1000 :
        DbScript (List EventLogRow)) db
        (.ok (Rows.page EventLogRow.position db.eventLog cursor 1000, db)) := answers_query _
    have shown : Rows.page EventLogRow.position db.eventLog cursor 1000 = rest.take 1000 := by
      rw [log]
      exact Rows.page_of_split 1000 ordered behind ahead
    rw [shown] at read
    refine answers_bind read ?_
    cases ends : (rest.take 1000).getLast? with
    | none =>
      have empty : rest = [] := by
        rw [List.getLast?_eq_none_iff, List.take_eq_nil_iff] at ends
        exact ends.resolve_left (by omega)
      rw [empty]
      exact answers_pure applied
    | some last =>
      obtain ⟨passed, remaining⟩ := Rows.split_after ordered ends
      have member : last ∈ rest.take 1000 := List.mem_of_getLast? ends
      have shorter : (rest.drop 1000).length < rounds := by
        have nonempty := List.length_pos_of_mem (List.mem_of_mem_take member)
        rw [List.length_drop]
        omega
      have front : Answers ((rest.take 1000).foldlM (replayRow runtime) applied) db
          (.ok ((rest.take 1000).foldl (replayed runtime) (applied, db))) :=
        answers_foldlM (answers_replayRow runtime) _ applied
      refine answers_bind front ?_
      have parts : rest.foldl (replayed runtime) (applied, db) =
          (rest.drop 1000).foldl (replayed runtime)
            ((rest.take 1000).foldl (replayed runtime) (applied, db)) := by
        rw [← List.foldl_append, List.take_append_drop]
      rw [parts, foldl_replayed runtime (rest.take 1000)]
      have moved : db.eventLog = (done ++ rest.take 1000) ++ rest.drop 1000 := by
        rw [List.append_assoc, List.take_append_drop]
        exact log
      refine inductionHypothesis last.position _ _ moved
        (ordered.sublist (List.drop_sublist _ _)) ?_ remaining shorter
      intro row inside
      rcases List.mem_append.mp inside with early | late
      · exact (behind row early).trans (ahead last (List.mem_of_mem_take member)).le
      · exact passed row late

/-- The events a log carries. -/
def loggedEvents (log : List EventLogRow) : List LogEvent :=
  log.filterMap (logEventFromRow runtime.codec)

/-- A replay of an ordered log leaves the projections of its events. -/
theorem answers_replayBody (db : IndexerDb)
    (ordered : Rows.Ordered EventLogRow.position db.eventLog) :
    Answers (replayBody runtime) db
      (.ok ((loggedEvents runtime db.eventLog).length,
        { db with
          projections := replayProjections runtime.sdk (loggedEvents runtime db.eventLog) })) := by
  refine answers_bind (answers_transaction (answers_run _)) (answers_bind answers_peek ?_)
  have start : ∀ row ∈ db.eventLog, toLex (-1, toLex (-1, -1)) < row.position := by
    intro row _
    refine Prod.Lex.toLex_lt_toLex.mpr (Or.inl ?_)
    omega
  have pages := answers_replayPages runtime (db.eventLog.length + 1) (toLex (-1, toLex (-1, -1))) 0
    { db with projections := .empty } (List.nil_append db.eventLog).symm ordered
    (fun row absent => absurd absent List.not_mem_nil) start (Nat.lt_succ_self _)
  rw [foldl_replayed, Nat.zero_add] at pages
  exact pages

end Replay

/-! ### What was logged decodes to what was applied -/

section Decoded

variable {runtime}

theorem logEventFromRow_eventLogRow {block : ChainBlock runtime.codec} {event : ChainEvent}
    (member : event ∈ block.events) :
    logEventFromRow runtime.codec (eventLogRow runtime block event) = some (logEvent block event) := by
  have decoded := block.decoded event member
  unfold logEventFromRow
  show (runtime.codec.decode event.name event.raw).map _ = _
  rw [decoded]
  rfl

theorem loggedEvents_blockRows (block : ChainBlock runtime.codec) :
    loggedEvents runtime (blockRows block) = block.events.map (logEvent block) := by
  rw [loggedEvents, blockRows, List.filterMap_map, ← List.filterMap_eq_map]
  exact List.filterMap_congr fun event member => logEventFromRow_eventLogRow member

theorem loggedEvents_databaseOf (blocks : List (ChainBlock runtime.codec)) :
    loggedEvents runtime (databaseOf runtime blocks).eventLog =
      blocks.flatMap fun block => block.events.map (logEvent block) := by
  rw [eventLog_databaseOf, loggedEvents, List.filterMap_flatMap]
  exact congrArg (List.flatMap · blocks) (funext loggedEvents_blockRows)

/-- The projections of a list of blocks are the replay of its log. -/
theorem projections_eq_replay (blocks : List (ChainBlock runtime.codec)) :
    (databaseOf runtime blocks).projections =
      replayProjections runtime.sdk (loggedEvents runtime (databaseOf runtime blocks).eventLog) := by
  rw [projections_databaseOf, loggedEvents_databaseOf]

end Decoded

/-! ### Rolling back -/

section Rollback

/-- The blocks up to a height. -/
def upTo {codec : EventCodec} (height : ℤ) (blocks : List (ChainBlock codec)) :
    List (ChainBlock codec) :=
  blocks.takeWhile fun block => (block.height : ℤ) ≤ height

theorem upTo_begins {codec : EventCodec} (height : ℤ) (blocks : List (ChainBlock codec)) :
    upTo height blocks <+: blocks :=
  List.takeWhile_prefix _

theorem height_le_of_mem_upTo {codec : EventCodec} {height : ℤ}
    {blocks : List (ChainBlock codec)} {block : ChainBlock codec}
    (member : block ∈ upTo height blocks) : (block.height : ℤ) ≤ height := by
  have kept := List.mem_takeWhile_imp member
  exact of_decide_eq_true kept

variable {runtime} {startHeight : ℕ} {blocks : List (ChainBlock runtime.codec)}

/-- Linked blocks are those up to a height and then those above it. -/
theorem upTo_split (linked : Linked startHeight blocks) (height : ℤ) :
    ∃ dropped, blocks = upTo height blocks ++ dropped ∧
      ∀ block ∈ dropped, height < (block.height : ℤ) := by
  refine ⟨blocks.dropWhile fun block => (block.height : ℤ) ≤ height,
    List.takeWhile_append_dropWhile.symm, ?_⟩
  intro block member
  have above := Rows.not_of_mem_dropWhile (ordered_of_linked linked) ?_ block member
  · have failing := of_decide_eq_false above
    omega
  · intro first second below kept
    have least := of_decide_eq_true kept
    refine decide_eq_true ?_
    omega

/-- Deleting the log rows above a height leaves the log of the blocks up to it. -/
theorem filter_eventLog (linked : Linked startHeight blocks) (height : ℤ) :
    ((databaseOf runtime blocks).eventLog.filter fun row => (row.height : ℤ) ≤ height) =
      (databaseOf runtime (upTo height blocks)).eventLog := by
  obtain ⟨dropped, split, above⟩ := upTo_split linked height
  have kept : (((upTo height blocks).flatMap blockRows).filter fun row =>
      (row.height : ℤ) ≤ height) = (upTo height blocks).flatMap blockRows := by
    refine List.filter_eq_self.mpr fun row member => decide_eq_true ?_
    obtain ⟨block, inside, logged⟩ := List.mem_flatMap.mp member
    rw [height_of_mem_blockRows logged]
    exact height_le_of_mem_upTo inside
  have lost : ((dropped.flatMap blockRows).filter fun row => (row.height : ℤ) ≤ height) = [] := by
    refine List.filter_eq_nil_iff.mpr fun row member => ?_
    obtain ⟨block, inside, logged⟩ := List.mem_flatMap.mp member
    have higher := above block inside
    rw [← height_of_mem_blockRows logged] at higher
    simp only [decide_eq_true_eq]
    omega
  rw [eventLog_databaseOf, eventLog_databaseOf]
  conv_lhs => rw [split, List.flatMap_append, List.filter_append, kept, lost, List.append_nil]

/-- Deleting the checkpoints above a height leaves those of the blocks up to it. -/
theorem filter_checkpoints (linked : Linked startHeight blocks) (height : ℤ) :
    ((databaseOf runtime blocks).checkpoints.filter fun row => (row.height : ℤ) ≤ height) =
      (databaseOf runtime (upTo height blocks)).checkpoints := by
  obtain ⟨dropped, split, above⟩ := upTo_split linked height
  obtain ⟨rows, stored, heights, _⟩ := 
    checkpoints_append runtime (upTo height blocks) dropped
  have kept : ((databaseOf runtime (upTo height blocks)).checkpoints.filter fun row =>
      (row.height : ℤ) ≤ height) = (databaseOf runtime (upTo height blocks)).checkpoints := by
    refine List.filter_eq_self.mpr fun row member => decide_eq_true ?_
    have listed : row.height ∈ (databaseOf runtime (upTo height blocks)).checkpoints.map
        CheckpointRow.height := List.mem_map_of_mem member
    rw [map_height_checkpoints] at listed
    obtain ⟨block, inside, same⟩ := List.mem_map.mp listed
    rw [← same]
    exact height_le_of_mem_upTo inside
  have lost : (rows.filter fun row => (row.height : ℤ) ≤ height) = [] := by
    refine List.filter_eq_nil_iff.mpr fun row member => ?_
    have listed : row.height ∈ rows.map CheckpointRow.height := List.mem_map_of_mem member
    rw [heights] at listed
    obtain ⟨block, inside, same⟩ := List.mem_map.mp listed
    have higher := above block inside
    rw [same] at higher
    simp only [decide_eq_true_eq]
    omega
  rw [← split] at stored
  rw [stored, List.filter_append, kept, lost, List.append_nil]

/-- A rollback of linked blocks leaves the blocks up to its height. -/
theorem answers_rollbackBody (linked : Linked startHeight blocks) (height : ℤ) :
    ∃ count, Answers (rollbackBody runtime height) (databaseOf runtime blocks)
      (.ok (count, databaseOf runtime (upTo height blocks))) := by
  have remaining : Linked startHeight (upTo height blocks) :=
    linked_of_prefix linked (upTo_begins height blocks)
  have replay := answers_replayBody runtime
    { eventLog := (databaseOf runtime (upTo height blocks)).eventLog
      checkpoints := (databaseOf runtime (upTo height blocks)).checkpoints
      projections := (databaseOf runtime blocks).projections } (ordered_eventLog remaining)
  rw [← projections_eq_replay] at replay
  refine ⟨(loggedEvents runtime (databaseOf runtime (upTo height blocks)).eventLog).length,
    answers_bind (answers_run _) (answers_bind (answers_run _) (answers_transaction ?_))⟩
  simp only [filter_eventLog linked height, filter_checkpoints linked height]
  exact replay

end Rollback

/-! ### Adding a block -/

section Apply

variable {runtime} {startHeight : ℕ} {blocks : List (ChainBlock runtime.codec)}

/-- Events that an ordered log has no row of yet, in order. -/
def Fits (block : ChainBlock runtime.codec) (db : IndexerDb) (events : List ChainEvent) : Prop :=
  Rows.Ordered ChainEvent.position events ∧
    ∀ event ∈ events, ∀ row ∈ db.eventLog, row.position < (eventLogRow runtime block event).position

/-- The database with the row and the effect of one more event. -/
def recorded (block : ChainBlock runtime.codec) (db : IndexerDb) (event : ChainEvent) : IndexerDb :=
  { db with
    eventLog := db.eventLog ++ [eventLogRow runtime block event]
    projections := applyEvent runtime.sdk db.projections (logEvent block event) }

theorem answers_recordEvent (block : ChainBlock runtime.codec) (db : IndexerDb) (event : ChainEvent)
    (rest : List ChainEvent) (fits : Fits block db (event :: rest)) :
    Answers (recordEvent runtime block event) db (.ok ((), recorded block db event)) ∧
      Fits block (recorded block db event) rest := by
  obtain ⟨ordered, free⟩ := fits
  obtain ⟨first, later⟩ := List.pairwise_cons.mp ordered
  constructor
  · have inserted : Answers (insertEvent (eventLogRow runtime block event)) db
        (.ok ((), { db with eventLog := db.eventLog ++ [eventLogRow runtime block event] })) := by
      have absent : (eventLogRow runtime block event).position ∉
          db.eventLog.map EventLogRow.position := by
        intro taken
        obtain ⟨row, member, same⟩ := List.mem_map.mp taken
        exact absurd same (free event List.mem_cons_self row member).ne
      have answer : Answers (insertEvent (eventLogRow runtime block event)) db _ :=
        answers_statement _
      rw [if_neg absent] at answer
      exact answer
    exact answers_bind inserted (answers_run _)
  · refine ⟨later, fun other member row inside => ?_⟩
    rcases List.mem_append.mp inside with old | new
    · exact free other (List.mem_cons_of_mem event member) row old
    · rw [List.mem_singleton.mp new]
      exact position_lt_of_event (first other member)

theorem foldl_recorded (block : ChainBlock runtime.codec) (db : IndexerDb)
    (events : List ChainEvent) :
    events.foldl (recorded block) db =
      { db with
        eventLog := db.eventLog ++ events.map (eventLogRow runtime block)
        projections := (events.map (logEvent block)).foldl (applyEvent runtime.sdk) db.projections } := by
  induction events generalizing db with
  | nil =>
    rw [List.foldl_nil, List.map_nil, List.append_nil]
    rfl
  | cons event rest inductionHypothesis =>
    rw [List.foldl_cons, inductionHypothesis, recorded, List.map_cons, List.map_cons,
      List.foldl_cons, List.append_assoc, List.singleton_append]

theorem getLast?_checkpoints_concat (earlier : List (ChainBlock runtime.codec))
    (last : ChainBlock runtime.codec) :
    (databaseOf runtime (earlier ++ [last])).checkpoints.getLast? =
      some (checkpointRow runtime (databaseOf runtime earlier).checkpoints.getLast? last) := by
  rw [databaseOf_concat]
  exact List.getLast?_concat

theorem extends?_none_iff {codec : EventCodec} (block : ChainBlock codec) :
    extends? none block startHeight = .ok () ↔ block.height = startHeight := by
  unfold extends?
  by_cases starts : block.height = startHeight
  · simp only [Option.elim_none, starts, ne_eq, not_true_eq_false, if_false]
  · simp only [Option.elim_none, starts, ne_eq, not_false_eq_true, if_true, reduceCtorEq]

theorem extends?_some_iff {codec : EventCodec} (row : CheckpointRow) (block : ChainBlock codec) :
    extends? (some row) block startHeight = .ok () ↔
      block.height = row.height + 1 ∧ (block.previous ≠ "" → row.blockId = block.previous) := by
  unfold extends?
  by_cases above : block.height = row.height + 1
  · by_cases forks : block.previous ≠ "" ∧ row.blockId ≠ block.previous
    · simp only [Option.elim_some, above, ne_eq, not_true_eq_false, if_false, forks,
        not_false_eq_true, and_self, if_true, reduceCtorEq, true_and, forall_const]
    · simp only [Option.elim_some, above, ne_eq, not_true_eq_false, if_false, if_neg forks, true_and,
        true_iff]
      exact fun named => not_not.mp fun differs => forks ⟨named, differs⟩
  · simp only [Option.elim_some, above, ne_eq, not_false_eq_true, if_true, reduceCtorEq, false_and]

/-- A block passes the checks exactly when it can be added to the linked blocks. -/
theorem extends?_eq_ok_iff (linked : Linked startHeight blocks)
    (block : ChainBlock runtime.codec) :
    extends? (databaseOf runtime blocks).checkpoints.getLast? block startHeight = .ok () ↔
      Linked startHeight (blocks ++ [block]) := by
  rw [linked_concat]
  cases blocks using List.reverseRecOn with
  | nil =>
    show extends? none block startHeight = .ok () ↔ _
    rw [extends?_none_iff]
    exact ⟨fun starts => ⟨linked, fun _ => starts, fun last absent => by cases absent⟩,
      fun parts => parts.2.1 rfl⟩
  | append_singleton earlier last =>
    rw [getLast?_checkpoints_concat, List.getLast?_concat, extends?_some_iff]
    refine ⟨fun passed => ⟨linked, fun empty => absurd empty (List.concat_ne_nil _ _), ?_⟩,
      fun parts => ?_⟩
    · intro other same
      cases same
      exact ⟨passed.1, fun named => (passed.2 named).symm⟩
    · obtain ⟨above, named⟩ := parts.2.2 last rfl
      exact ⟨above, fun given => (named given).symm⟩

theorem fits_databaseOf {block : ChainBlock runtime.codec}
    (linked : Linked startHeight (blocks ++ [block])) :
    Fits block (databaseOf runtime blocks) block.events := by
  refine ⟨block.ordered, fun event member row logged => ?_⟩
  rw [eventLog_databaseOf] at logged
  obtain ⟨lower, inside, found⟩ := List.mem_flatMap.mp logged
  have below := (Rows.ordered_append.mp (ordered_of_linked linked)).2.2 lower inside block
    List.mem_cons_self
  rw [← height_of_mem_blockRows found] at below
  exact positionOf_lt_of_height below

/-- Adding a block to linked blocks fails its checks, or fills the database with one more block. -/
theorem answers_applyBlockBody (linked : Linked startHeight blocks)
    (block : ChainBlock runtime.codec) :
    (∃ failure, extends? (databaseOf runtime blocks).checkpoints.getLast? block startHeight =
        .error failure ∧
      Answers (applyBlockBody runtime block startHeight) (databaseOf runtime blocks)
        (.error failure)) ∨
      Linked startHeight (blocks ++ [block]) ∧
        Answers (applyBlockBody runtime block startHeight) (databaseOf runtime blocks)
          (.ok (checkpointRow runtime (databaseOf runtime blocks).checkpoints.getLast? block,
            databaseOf runtime (blocks ++ [block]))) := by
  have read : Answers (query IndexerDb.lastCheckpoint : DbScript (Option CheckpointRow))
      (databaseOf runtime blocks) (.ok ((databaseOf runtime blocks).lastCheckpoint, _)) :=
    answers_query _
  rw [lastCheckpoint_databaseOf linked] at read
  have checked : Answers (check (extends? (databaseOf runtime blocks).checkpoints.getLast? block
      startHeight) : DbScript Unit) (databaseOf runtime blocks) _ := answers_check _
  cases outcome : extends? (databaseOf runtime blocks).checkpoints.getLast? block startHeight with
  | error failure =>
    rw [outcome] at checked
    refine .inl ⟨failure, rfl, answers_bind read ?_⟩
    rw [outcome]
    exact answers_bind_error checked
  | ok _ =>
    have longer := (extends?_eq_ok_iff linked block).mp outcome
    rw [outcome] at checked
    refine .inr ⟨longer, answers_bind read ?_⟩
    rw [outcome]
    refine answers_bind checked ?_
    have logged := answers_forM (Fits block) (answers_recordEvent block) block.events
      (fits_databaseOf longer)
    rw [foldl_recorded] at logged
    have absent : (checkpointRow runtime (databaseOf runtime blocks).checkpoints.getLast?
        block).height ∉ (databaseOf runtime blocks).checkpoints.map CheckpointRow.height := by
      rw [map_height_checkpoints]
      intro taken
      obtain ⟨lower, inside, same⟩ := List.mem_map.mp taken
      exact absurd same ((Rows.ordered_append.mp (ordered_of_linked longer)).2.2 lower inside block
        List.mem_cons_self).ne
    have inserted : Answers (insertCheckpoint (checkpointRow runtime
        (databaseOf runtime blocks).checkpoints.getLast? block))
        { databaseOf runtime blocks with
          eventLog := (databaseOf runtime blocks).eventLog ++
            block.events.map (eventLogRow runtime block)
          projections := (block.events.map (logEvent block)).foldl (applyEvent runtime.sdk)
            (databaseOf runtime blocks).projections } _ := answers_statement _
    rw [if_neg absent] at inserted
    rw [databaseOf_concat]
    exact answers_bind logged (answers_bind inserted (answers_pure _))

end Apply

end OpenSocial.Indexer

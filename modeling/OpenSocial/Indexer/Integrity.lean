/-
This file proves that the event log, the checkpoints and the projections of the
indexer always belong together.

Whatever blocks were offered, whatever rollbacks were asked for and whatever
statements failed on the way, the database is the one that some linked list of
blocks fills. Everything said about the stored rows is read off that list, and
replaying the log gives the projections that are there.
-/

import OpenSocial.Indexer.Blocks

namespace OpenSocial.Indexer

open Library Library.Script

variable (runtime : Runtime)

/-! ### The hash chain of the log -/

section Hashes

/-- The JSON view of an event, read back from its row. -/
def rowView (row : EventLogRow) : Json :=
  .object
    [("height", .string (toString row.height)), ("blockId", .string row.blockId),
      ("txIndex", .number row.txIndex), ("txId", .string row.txId),
      ("sequence", .number row.sequence), ("contract", .string row.contract.text),
      ("name", .string row.name), ("data", row.dataJson),
      ("impacted", .array (row.impacted.map .string))]

/-- The logged events of a height, as they are hashed. -/
def viewsAt (log : List EventLogRow) (height : ℕ) : List Json :=
  (log.filter fun row => row.height = height).map rowView

/-- The state hash of the first heights of a log, each computed from the one before. -/
def hashChain (log : List EventLogRow) (startHeight : ℕ) : ℕ → Option String
  | 0 => none
  | count + 1 =>
    some (computeStateHash runtime (hashChain log startHeight count)
      (viewsAt log (startHeight + count)))

variable {runtime} {startHeight : ℕ} {blocks : List (ChainBlock runtime.codec)}

theorem height_of_mem_linked (linked : Linked startHeight blocks) {block : ChainBlock runtime.codec}
    (member : block ∈ blocks) :
    startHeight ≤ block.height ∧ block.height < startHeight + blocks.length := by
  have listed : block.height ∈ blocks.map ChainBlock.height := List.mem_map_of_mem member
  rw [map_height_of_linked linked] at listed
  exact List.mem_range'_1.mp listed

theorem height_of_concat {block : ChainBlock runtime.codec}
    (linked : Linked startHeight (blocks ++ [block])) :
    block.height = startHeight + blocks.length := by
  have heights := map_height_of_linked linked
  rw [List.map_append, List.length_append, List.length_singleton, List.range'_concat,
    Nat.one_mul] at heights
  have last := List.append_inj_right' heights rfl
  exact List.singleton_inj.mp last

/-- The rows at a height below the last block are those of the blocks before it. -/
theorem viewsAt_concat_of_lt {block : ChainBlock runtime.codec}
    (linked : Linked startHeight (blocks ++ [block])) {height : ℕ}
    (below : height < startHeight + blocks.length) :
    viewsAt (databaseOf runtime (blocks ++ [block])).eventLog height =
      viewsAt (databaseOf runtime blocks).eventLog height := by
  have none_new : ((blockRows block).filter fun row => row.height = height) = [] := by
    refine List.filter_eq_nil_iff.mpr fun row member => ?_
    rw [height_of_mem_blockRows member, height_of_concat linked]
    simp only [decide_eq_true_eq]
    omega
  rw [viewsAt, viewsAt, eventLog_databaseOf, eventLog_databaseOf, List.flatMap_append,
    List.flatMap_singleton, List.filter_append, none_new, List.append_nil]

/-- The rows at the height of the last block are its own. -/
theorem viewsAt_concat_last {block : ChainBlock runtime.codec}
    (linked : Linked startHeight (blocks ++ [block])) :
    viewsAt (databaseOf runtime (blocks ++ [block])).eventLog (startHeight + blocks.length) =
      eventViews runtime block := by
  have none_old : ((blocks.flatMap blockRows).filter fun row =>
      row.height = startHeight + blocks.length) = [] := by
    refine List.filter_eq_nil_iff.mpr fun row member => ?_
    obtain ⟨lower, inside, found⟩ := List.mem_flatMap.mp member
    have bound := height_of_mem_linked (linked_concat.mp linked).1 inside
    rw [height_of_mem_blockRows found]
    simp only [decide_eq_true_eq]
    omega
  have all_new : ((blockRows block).filter fun row => row.height = startHeight + blocks.length) =
      blockRows block := by
    refine List.filter_eq_self.mpr fun row member => decide_eq_true ?_
    rw [height_of_mem_blockRows member, height_of_concat linked]
  rw [viewsAt, eventLog_databaseOf, List.flatMap_append, List.flatMap_singleton,
    List.filter_append, none_old, all_new, List.nil_append, blockRows, List.map_map]
  rfl

theorem hashChain_concat {block : ChainBlock runtime.codec}
    (linked : Linked startHeight (blocks ++ [block])) {count : ℕ} (within : count ≤ blocks.length) :
    hashChain runtime (databaseOf runtime (blocks ++ [block])).eventLog startHeight count =
      hashChain runtime (databaseOf runtime blocks).eventLog startHeight count := by
  induction count with
  | zero => rfl
  | succ count inductionHypothesis =>
    rw [hashChain, hashChain, inductionHypothesis (by omega),
      viewsAt_concat_of_lt linked (by omega)]

theorem length_checkpoints (blocks : List (ChainBlock runtime.codec)) :
    (databaseOf runtime blocks).checkpoints.length = blocks.length := by
  have same := congrArg List.length (map_height_checkpoints blocks)
  rw [List.length_map, List.length_map] at same
  exact same

/-- Every checkpoint holds the hash chain of the log up to its height. -/
theorem hashChain_databaseOf (linked : Linked startHeight blocks) {index : ℕ} {row : CheckpointRow}
    (stored : (databaseOf runtime blocks).checkpoints[index]? = some row) :
    hashChain runtime (databaseOf runtime blocks).eventLog startHeight (index + 1) =
      some row.stateHash := by
  induction blocks using List.reverseRecOn generalizing index row with
  | nil => cases stored
  | append_singleton blocks block inductionHypothesis =>
    have before := (linked_concat.mp linked).1
    have checkpoints : (databaseOf runtime (blocks ++ [block])).checkpoints =
        (databaseOf runtime blocks).checkpoints ++
          [checkpointRow runtime (databaseOf runtime blocks).checkpoints.getLast? block] := by
      rw [databaseOf_concat]
      rfl
    rw [checkpoints] at stored
    have bound := (List.getElem?_eq_some_iff.mp stored).1
    rw [List.length_append, List.length_singleton, length_checkpoints] at bound
    rcases Nat.lt_or_ge index blocks.length with early | last
    · rw [List.getElem?_append_left (by rw [length_checkpoints]; exact early)] at stored
      rw [hashChain_concat linked (by omega)]
      exact inductionHypothesis before stored
    · have index_eq : index = blocks.length := by omega
      rw [index_eq, ← length_checkpoints, List.getElem?_concat_length] at stored
      cases stored
      have previous : hashChain runtime (databaseOf runtime blocks).eventLog startHeight
          blocks.length =
          (databaseOf runtime blocks).checkpoints.getLast?.map CheckpointRow.stateHash := by
        rw [List.getLast?_eq_getElem?, length_checkpoints]
        cases count : blocks.length with
        | zero =>
          rw [List.length_eq_zero_iff.mp count]
          rfl
        | succ count' =>
          have exists_row : ∃ row, (databaseOf runtime blocks).checkpoints[count']? = some row :=
            ⟨_, List.getElem?_eq_getElem (by rw [length_checkpoints]; omega)⟩
          obtain ⟨row, found⟩ := exists_row
          rw [inductionHypothesis before found, Nat.add_sub_cancel, found]
          rfl
      rw [index_eq, hashChain, hashChain_concat linked (Nat.le_refl _), previous,
        viewsAt_concat_last linked]
      rfl

end Hashes

/-! ### Every sequence of calls -/

/-- What will disturb the statements of a call. -/
abbrev Plan := List (Option (Failure × (IndexerDb → IndexerDb)))

/-- A call of one of the two operations. -/
inductive LogCall where
  | applyBlock (block : ChainBlock runtime.codec) (plan : Plan)
  | rollbackTo (height : ℤ) (plan : Plan)

section Calls

variable {runtime} (startHeight : ℕ)

/-- What a call answers, and the database after it. -/
def perform (db : IndexerDb) : LogCall runtime → Except Failure (CheckpointRow ⊕ ℕ) × IndexerDb
  | .applyBlock block plan =>
    let (answer, after) := call (applyBlock runtime block startHeight) db plan
    (answer.map .inl, after)
  | .rollbackTo height plan =>
    let (answer, after) := call (rollbackTo runtime height) db plan
    (answer.map .inr, after)

/-- The database after a list of calls, from an empty one. -/
def databaseAfter (calls : List (LogCall runtime)) : IndexerDb :=
  calls.foldl (fun db call => (perform startHeight db call).2) .empty

variable {startHeight} {blocks : List (ChainBlock runtime.codec)}

/-- Applying a block either fails and changes nothing, or adds the block. -/
theorem perform_applyBlock (linked : Linked startHeight blocks) (block : ChainBlock runtime.codec)
    (plan : Plan) :
    (∃ failure, perform startHeight (databaseOf runtime blocks) (.applyBlock block plan) =
        (.error failure, databaseOf runtime blocks)) ∨
      ∃ row, Linked startHeight (blocks ++ [block]) ∧
        perform startHeight (databaseOf runtime blocks) (.applyBlock block plan) =
          (.ok (.inl row), databaseOf runtime (blocks ++ [block])) := by
  rcases answers_applyBlockBody linked block with ⟨failure, _, refused⟩ | ⟨longer, added⟩
  · rcases call_transaction plan refused with ⟨other, failed⟩ | ⟨value, after, impossible, _⟩
    · refine .inl ⟨other, ?_⟩
      rw [perform, applyBlock, failed]
      rfl
    · cases impossible
  · rcases call_transaction plan added with ⟨failure, failed⟩ | ⟨value, after, given, done⟩
    · refine .inl ⟨failure, ?_⟩
      rw [perform, applyBlock, failed]
      rfl
    · cases given
      refine .inr ⟨checkpointRow runtime (databaseOf runtime blocks).checkpoints.getLast? block,
        longer, ?_⟩
      rw [perform, applyBlock, done]
      rfl

/-- A rollback either fails and changes nothing, or leaves the blocks up to its height. -/
theorem perform_rollbackTo (linked : Linked startHeight blocks) (height : ℤ) (plan : Plan) :
    (∃ failure, @perform runtime startHeight (databaseOf runtime blocks) (.rollbackTo height plan) =
        (.error failure, databaseOf runtime blocks)) ∨
      ∃ count, @perform runtime startHeight (databaseOf runtime blocks) (.rollbackTo height plan) =
        (.ok (.inr count), databaseOf runtime (upTo height blocks)) := by
  obtain ⟨count, dropped⟩ := answers_rollbackBody linked height
  rcases call_transaction plan dropped with ⟨failure, failed⟩ | ⟨value, after, given, done⟩
  · refine .inl ⟨failure, ?_⟩
    rw [perform, rollbackTo, failed]
    rfl
  · cases given
    refine .inr ⟨count, ?_⟩
    rw [perform, rollbackTo, done]
    rfl

/-- A call either fails and changes nothing, or leaves the database of some linked blocks. -/
theorem perform_linked (linked : Linked startHeight blocks) (call : LogCall runtime) :
    (∃ failure, perform startHeight (databaseOf runtime blocks) call =
        (.error failure, databaseOf runtime blocks)) ∨
      ∃ answer others, Linked startHeight others ∧
        perform startHeight (databaseOf runtime blocks) call =
          (.ok answer, databaseOf runtime others) := by
  cases call with
  | applyBlock block plan =>
    rcases perform_applyBlock linked block plan with failed | ⟨row, longer, done⟩
    · exact .inl failed
    · exact .inr ⟨.inl row, blocks ++ [block], longer, done⟩
  | rollbackTo height plan =>
    rcases perform_rollbackTo linked height plan with failed | ⟨count, done⟩
    · exact .inl failed
    · exact .inr ⟨.inr count, upTo height blocks,
        linked_of_prefix linked (upTo_begins height blocks), done⟩

variable (startHeight) in
/-- Whatever was called, the database is the one some linked blocks fill. -/
theorem databaseAfter_linked (calls : List (LogCall runtime)) :
    ∃ blocks, Linked startHeight blocks ∧
      databaseAfter startHeight calls = databaseOf runtime blocks := by
  induction calls using List.reverseRecOn with
  | nil => exact ⟨[], linked_nil, rfl⟩
  | append_singleton calls call inductionHypothesis =>
    obtain ⟨blocks, linked, same⟩ := inductionHypothesis
    rw [databaseAfter, List.foldl_append, List.foldl_cons, List.foldl_nil, ← databaseAfter, same]
    rcases perform_linked linked call with ⟨failure, failed⟩ | ⟨answer, others, kept, done⟩
    · exact ⟨blocks, linked, by rw [failed]⟩
    · exact ⟨others, kept, by rw [done]⟩

end Calls

/-! ### The log, the checkpoints and the projections belong together -/

/-- What holds of the stored rows: the checkpoints run upwards from the start height, each naming
the block below it if it names any; every log row is of a checkpointed height; every state hash is
the hash chain of the log; and replaying the log leaves every projection as it is. -/
structure Integrity (startHeight : ℕ) (db : IndexerDb) : Prop where
  contiguous : db.checkpoints.map CheckpointRow.height =
    List.range' startHeight db.checkpoints.length
  linked : ∀ index lower upper, db.checkpoints[index]? = some lower →
    db.checkpoints[index + 1]? = some upper → upper.previousId ≠ "" →
    upper.previousId = lower.blockId
  logged : ∀ row ∈ db.eventLog, ∃ checkpoint ∈ db.checkpoints, checkpoint.height = row.height
  hashed : ∀ index checkpoint, db.checkpoints[index]? = some checkpoint →
    hashChain runtime db.eventLog startHeight (index + 1) = some checkpoint.stateHash
  replayed : ∃ applied, call (replayLog runtime) db [] = (.ok applied, db)

theorem integrity_databaseOf {runtime : Runtime} {startHeight : ℕ}
    {blocks : List (ChainBlock runtime.codec)} (linked : Linked startHeight blocks) :
    Integrity runtime startHeight (databaseOf runtime blocks) where
  contiguous := by
    rw [map_height_checkpoints, length_checkpoints, map_height_of_linked linked]
  linked index lower upper storedLower storedUpper named := by
    have column : ∀ (position : ℕ) (row : CheckpointRow),
        (databaseOf runtime blocks).checkpoints[position]? = some row →
        ∃ block : ChainBlock runtime.codec, blocks[position]? = some block ∧ block.id = row.blockId ∧
          block.previous = row.previousId := by
      intro position row stored
      have ids := congrArg (fun column : List String => column[position]?)
        (map_blockId_checkpoints blocks)
      have previous := congrArg (fun column : List String => column[position]?)
        (map_previousId_checkpoints blocks)
      simp only [List.getElem?_map, stored, Option.map_some] at ids previous
      obtain ⟨block, found, same⟩ := Option.map_eq_some_iff.mp ids.symm
      rw [found, Option.map_some, Option.some.injEq] at previous
      exact ⟨block, found, same, previous.symm⟩
    obtain ⟨below, foundBelow, sameId, _⟩ := column index lower storedLower
    obtain ⟨above, foundAbove, _, samePrevious⟩ := column (index + 1) upper storedUpper
    obtain ⟨bound, rfl⟩ := List.getElem?_eq_some_iff.mp foundAbove
    obtain ⟨_, rfl⟩ := List.getElem?_eq_some_iff.mp foundBelow
    have steps := List.isChain_iff_getElem.mp linked.1 index bound
    rw [← samePrevious] at named ⊢
    rw [← sameId]
    exact steps.2 named
  logged row member := by
    rw [eventLog_databaseOf] at member
    obtain ⟨block, inside, found⟩ := List.mem_flatMap.mp member
    have listed : block.height ∈ (databaseOf runtime blocks).checkpoints.map CheckpointRow.height := by
      rw [map_height_checkpoints]
      exact List.mem_map_of_mem inside
    obtain ⟨checkpoint, stored, same⟩ := List.mem_map.mp listed
    exact ⟨checkpoint, stored, same.trans (height_of_mem_blockRows found).symm⟩
  hashed index checkpoint stored := hashChain_databaseOf linked stored
  replayed := by
    have replay := answers_replayBody runtime (databaseOf runtime blocks) (ordered_eventLog linked)
    rw [← projections_eq_replay] at replay
    exact ⟨_, call_transaction_quiet replay⟩

/-- After every sequence of calls, failed ones included, the stored rows belong together, and a call
that throws leaves the whole database as it was. -/
theorem log_integrity (runtime : Runtime) (startHeight : ℕ) (calls : List (LogCall runtime)) :
    Integrity runtime startHeight (databaseAfter startHeight calls) ∧
      ∀ (call : LogCall runtime) (failure : Failure),
        (perform startHeight (databaseAfter startHeight calls) call).1 = .error failure →
        (perform startHeight (databaseAfter startHeight calls) call).2 =
          databaseAfter startHeight calls := by
  obtain ⟨blocks, linked, same⟩ := databaseAfter_linked startHeight calls
  rw [same]
  refine ⟨integrity_databaseOf linked, fun call failure threw => ?_⟩
  rcases perform_linked linked call with ⟨other, failed⟩ | ⟨answer, others, kept, done⟩
  · rw [failed]
  · rw [done] at threw
    cases threw

end OpenSocial.Indexer

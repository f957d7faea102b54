/-
This file proves what a sync step does to the blocks that are stored.

Whatever the node answers and whatever fails, a step leaves the database of a linked
list of blocks: it adds served blocks that link, or drops the blocks above a height.
An undisturbed step against a node that answers fails in one way only: a fork was
found, and the node does not serve the stored block at the height to go back to.
-/

import OpenSocial.Indexer.Sync

namespace OpenSocial.Indexer

open Library Library.Script Library.Stateful

variable {runtime : Runtime} {options : SyncOptions} {node : Node runtime.codec}

/-! ### Stored blocks -/

/-- The database of a syncer is the one some linked blocks fill. -/
structure Stores (options : SyncOptions) (blocks : List (ChainBlock runtime.codec))
    (syncer : Syncer) : Prop where
  linked : Linked options.first blocks
  filled : syncer.db = databaseOf runtime blocks

/-- The block of a height. -/
def blockAt {codec : EventCodec} (blocks : List (ChainBlock codec)) (height : ℕ) :
    Option (ChainBlock codec) :=
  blocks.find? fun block => block.height = height

theorem Stores.of_db {blocks : List (ChainBlock runtime.codec)} {syncer after : Syncer}
    (stored : Stores options blocks syncer) (same : after.db = syncer.db) :
    Stores options blocks after :=
  ⟨stored.linked, same.trans stored.filled⟩

/-- Lists with the same keys and the same values find the same values. -/
theorem map_find?_congr {Row Other Value : Type} {rows : List Row} {others : List Other}
    {key : Row → ℕ} {otherKey : Other → ℕ} {value : Row → Value} {otherValue : Other → Value}
    (keys : rows.map key = others.map otherKey) (values : rows.map value = others.map otherValue)
    (sought : ℕ) :
    (rows.find? fun row => key row = sought).map value =
      (others.find? fun other => otherKey other = sought).map otherValue := by
  induction rows generalizing others with
  | nil =>
    rw [List.map_nil] at keys
    rw [List.map_eq_nil_iff.mp keys.symm]
    rfl
  | cons row rows inductionHypothesis =>
    cases others with
    | nil => cases keys
    | cons other others =>
      rw [List.map_cons, List.map_cons, List.cons.injEq] at keys values
      by_cases found : key row = sought
      · simp only [List.find?_cons, found, ← keys.1, decide_true, Option.map_some, values.1]
      · simp only [List.find?_cons, found, ← keys.1, decide_false]
        exact inductionHypothesis keys.2 values.2

theorem checkpointAt_databaseOf (blocks : List (ChainBlock runtime.codec)) (height : ℕ) :
    ((databaseOf runtime blocks).checkpointAt height).map CheckpointRow.blockId =
      (blockAt blocks height).map ChainBlock.id :=
  map_find?_congr (map_height_checkpoints blocks) (map_blockId_checkpoints blocks) height

theorem checkpointAt_height {db : IndexerDb} {height : ℕ} {row : CheckpointRow}
    (found : db.checkpointAt height = some row) : row.height = height := by
  have holds := List.find?_some found
  exact of_decide_eq_true holds

theorem blockAt_eq_some {codec : EventCodec} {blocks : List (ChainBlock codec)} {height : ℕ}
    {block : ChainBlock codec} (found : blockAt blocks height = some block) :
    block ∈ blocks ∧ block.height = height := by
  have holds := List.find?_some found
  exact ⟨List.mem_of_find?_eq_some found, of_decide_eq_true holds⟩

/-- In linked blocks a block is the only one of its height. -/
theorem eq_of_height {blocks : List (ChainBlock runtime.codec)} {start : ℕ}
    (linked : Linked start blocks) {block other : ChainBlock runtime.codec}
    (member : block ∈ blocks) (inside : other ∈ blocks) (same : block.height = other.height) :
    block = other := by
  have heights : (blocks.map ChainBlock.height).Nodup := by
    rw [map_height_of_linked linked]
    exact List.nodup_range'
  exact List.inj_on_of_nodup_map heights member inside same

theorem blockAt_of_mem {blocks : List (ChainBlock runtime.codec)} {start : ℕ}
    (linked : Linked start blocks) {block : ChainBlock runtime.codec} (member : block ∈ blocks) :
    blockAt blocks block.height = some block := by
  cases found : blockAt blocks block.height with
  | none =>
    have absent := List.find?_eq_none.mp found block member
    exact absurd (decide_eq_true rfl) absent
  | some other =>
    obtain ⟨inside, same⟩ := blockAt_eq_some found
    rw [eq_of_height linked member inside same.symm]

/-! ### Calls of the database -/

/-- Nothing will disturb the calls of the database. -/
def Undisturbed (syncer : Syncer) : Prop := syncer.plans = []

/-- The database may have changed, and no disturbance was added. -/
def Calm (syncer after : Syncer) : Prop := Undisturbed syncer → Undisturbed after

theorem Calm.refl (syncer : Syncer) : Calm syncer syncer := id

theorem Calm.trans {first second third : Syncer} (one : Calm first second)
    (other : Calm second third) : Calm first third :=
  fun calm => other (one calm)

/-- What a call that answers as the script does comes to. -/
theorem leads_onDatabase {Value : Type} {body : DbScript Value} {syncer : Syncer}
    {value : Value} {db : IndexerDb} (answers : Answers body syncer.db (.ok (value, db))) :
    Leads (onDatabase (transaction body)) syncer fun result after => Calm syncer after ∧
      ((result = .ok value ∧ after.db = db) ∨
        ∃ failure, result = .error failure ∧ after.db = syncer.db ∧ ¬ Undisturbed syncer) := by
  have calm : Calm syncer (onDatabase (transaction body) syncer).2 := by
    intro undisturbed
    show syncer.plans.tail = []
    rw [undisturbed, List.tail_nil]
  refine ⟨calm, ?_⟩
  rcases call_transaction (syncer.plans.headD []) answers with
    ⟨failure, failed⟩ | ⟨found, after, same, done⟩
  · refine .inr ⟨failure, congrArg Prod.fst failed, congrArg Prod.snd failed, fun undisturbed => ?_⟩
    rw [undisturbed, List.headD_nil, call_transaction_quiet answers] at failed
    cases congrArg Prod.fst failed
  · cases same
    exact .inl ⟨congrArg Prod.fst done, congrArg Prod.snd done⟩

/-- A read answers what is stored, unless it is disturbed. -/
theorem leads_fromDatabase {Value : Type} (read : IndexerDb → Value) (syncer : Syncer) :
    Leads (fromDatabase read) syncer fun result after => Calm syncer after ∧
      after.db = syncer.db ∧ (result = .ok (read syncer.db) ∨
        ∃ failure, result = .error failure ∧ ¬ Undisturbed syncer) := by
  refine (leads_onDatabase (answers_query read)).weaken fun result after ended => ⟨ended.1, ?_⟩
  rcases ended.2 with ⟨answered, same⟩ | ⟨failure, failed, same, disturbed⟩
  · exact ⟨same, .inl answered⟩
  · exact ⟨same, .inr ⟨failure, failed, disturbed⟩⟩

/-- A change of the state in memory. -/
theorem leads_onState (change : SyncState → SyncState) (syncer : Syncer) :
    Leads (onState change) syncer fun result after =>
      result = .ok () ∧ after.db = syncer.db ∧ Calm syncer after :=
  .change ⟨rfl, rfl, id⟩

theorem leads_onShrunkHead (head : Option ChainHead) (syncer : Syncer) :
    Leads (onShrunkHead head) syncer fun result after =>
      result = .ok () ∧ after.db = syncer.db ∧ Calm syncer after :=
  .change ⟨rfl, rfl, id⟩

/-! ### Rolling back -/

section Rollback

variable {blocks : List (ChainBlock runtime.codec)} {syncer : Syncer}

theorem first_positive (options : SyncOptions) : 0 < options.first := by
  have least := Nat.le_max_left 1 options.startHeight
  exact least

theorem floor_eq (options : SyncOptions) : options.floor + 1 = options.first := by
  unfold SyncOptions.floor
  omega

/-- No block is stored at the floor or below. -/
theorem blockAt_floor (linked : Linked options.first blocks) {height : ℤ}
    (low : height ≤ options.floor) : blockAt blocks height.toNat = none := by
  refine List.find?_eq_none.mpr fun block member same => ?_
  have bound := (height_of_mem_linked linked member).1
  have found := of_decide_eq_true same
  have above := floor_eq options
  have positive := first_positive options
  omega

/-- The id of the block stored at a height. -/
theorem leads_storedAt (stored : Stores options blocks syncer) (height : ℤ) :
    Leads (storedAt options height) syncer fun result after => Calm syncer after ∧
      after.db = syncer.db ∧
        ((∃ row, result = .ok row ∧
            row.map CheckpointRow.blockId = (blockAt blocks height.toNat).map ChainBlock.id) ∨
          ∃ failure, result = .error failure ∧ ¬ Undisturbed syncer) := by
  unfold storedAt
  split
  · refine (leads_fromDatabase _ syncer).weaken fun result after ended => ⟨ended.1, ended.2.1, ?_⟩
    rcases ended.2.2 with answered | failed
    · refine .inl ⟨_, answered, ?_⟩
      rw [stored.filled]
      exact checkpointAt_databaseOf blocks height.toNat
    · exact .inr failed
  · next low =>
    refine .ret ⟨.refl _, rfl, .inl ⟨none, rfl, ?_⟩⟩
    rw [blockAt_floor stored.linked (not_lt.mp low)]
    rfl

/-- The node serves the block that is stored at a height, if one is. -/
def Agrees (node : Node runtime.codec) (head : ChainHead) (blocks : List (ChainBlock runtime.codec))
    (target : ℤ) : Prop :=
  ∀ block, blockAt blocks target.toNat = some block →
    ∃ served, node.getBlocks target.toNat 1 head.id = .ok served ∧
      served.head?.map ChainBlock.id = some block.id

/-- A failure that refuses to roll back. -/
def Refusal (failure : Failure) : Prop :=
  ∃ target stored canonical, failure = .sync (.forkBelowFinal target stored canonical)

/-- The node answers every request for blocks of the chain that ends at its head. -/
def ServesAll (node : Node runtime.codec) (head : ChainHead) : Prop :=
  ∀ fromHeight count, ∃ served, node.getBlocks fromHeight count head.id = .ok served

theorem leads_agreeAt {head : ChainHead} {target : ℤ} {ours : Option CheckpointRow}
    (known : ours.map CheckpointRow.blockId = (blockAt blocks target.toNat).map ChainBlock.id)
    (syncer : Syncer) :
    Leads (agreeAt runtime node head target ours) syncer fun result after => after = syncer ∧
      ((result = .ok () ∧ Agrees node head blocks target) ∨
        ∃ failure, result = .error failure ∧
          (ServesAll node head → Refusal failure ∧ ¬ Agrees node head blocks target)) := by
  unfold agreeAt
  cases ours with
  | none =>
    refine .ret ⟨rfl, .inl ⟨rfl, fun block found => ?_⟩⟩
    rw [found] at known
    cases known
  | some row =>
    obtain ⟨block, found, same⟩ := Option.map_eq_some_iff.mp known.symm
    cases answered : node.getBlocks target.toNat 1 head.id with
    | error message =>
      refine .seq (.lift ⟨rfl, rfl⟩ : Leads _ syncer fun result after =>
        result = .error (.other message) ∧ after = syncer) ?_ ?_
      · rintro failure after ⟨-, rfl⟩
        refine ⟨rfl, .inr ⟨failure, rfl, fun servesAll => ?_⟩⟩
        obtain ⟨served, impossible⟩ := servesAll target.toNat 1
        rw [answered] at impossible
        cases impossible
      · rintro value after ⟨impossible, -⟩
        cases impossible
    | ok served =>
      refine .seq (.lift ⟨rfl, rfl⟩ : Leads _ syncer fun result after =>
        result = .ok served ∧ after = syncer) ?_ ?_
      · rintro failure after ⟨impossible, -⟩
        cases impossible
      · rintro value after ⟨given, rfl⟩
        cases given
        dsimp only
        split
        · next other =>
          refine .refuse ⟨rfl, .inr ⟨_, rfl, fun _ => ⟨⟨_, _, _, rfl⟩, fun agrees => ?_⟩⟩⟩
          obtain ⟨there, again, agreed⟩ := agrees block found
          cases answered.symm.trans again
          exact other (agreed.trans (congrArg some same))
        · next agreed =>
          refine .ret ⟨rfl, .inl ⟨rfl, fun other sought => ?_⟩⟩
          rw [found] at sought
          cases sought
          refine ⟨served, answered, ?_⟩
          rw [same]
          exact not_not.mp agreed

theorem leads_dropAbove (stored : Stores options blocks syncer) (target : ℤ) :
    Leads (dropAbove runtime target) syncer fun result after => Calm syncer after ∧
      ((result = .ok () ∧ Stores options (upTo target blocks) after) ∨
        ∃ failure, result = .error failure ∧ Stores options blocks after ∧
          ¬ Undisturbed syncer) := by
  obtain ⟨count, answers⟩ := answers_rollbackBody stored.linked target
  rw [← stored.filled] at answers
  have remaining : Linked options.first (upTo target blocks) :=
    linked_of_prefix stored.linked (upTo_begins target blocks)
  refine .seq (leads_onDatabase answers) ?_ ?_
  · rintro failure after ⟨calm, ⟨impossible, -⟩ | ⟨_, -, same, disturbed⟩⟩
    · cases impossible
    · exact ⟨calm, .inr ⟨failure, rfl, stored.of_db same, disturbed⟩⟩
  · rintro value after ⟨calm, ⟨-, dropped⟩ | ⟨_, impossible, _⟩⟩
    · exact .change ⟨calm, .inl ⟨rfl, remaining, dropped⟩⟩
    · cases impossible

/-- What rolling back comes to: the blocks above the target are dropped if the node serves the
stored block there. -/
theorem leads_rollback (stored : Stores options blocks syncer) (head : ChainHead) {forkHeight : ℕ}
    (above : options.floor < forkHeight) :
    Leads (rollback runtime options node head forkHeight) syncer fun result after =>
      Calm syncer after ∧
        ((result = .ok (rollbackTarget options head forkHeight) ∧
            Agrees node head blocks (rollbackTarget options head forkHeight) ∧
            Stores options (upTo (rollbackTarget options head forkHeight) blocks) after) ∨
          ∃ failure, result = .error failure ∧ Stores options blocks after ∧
            (Undisturbed syncer → ServesAll node head →
              Refusal failure ∧
                ¬ Agrees node head blocks (rollbackTarget options head forkHeight))) := by
  have below : ¬ (forkHeight : ℤ) ≤ rollbackTarget options head forkHeight := by
    unfold rollbackTarget
    omega
  unfold rollback
  rw [if_neg below]
  refine .seq (leads_storedAt stored _) ?_ ?_
  · rintro failure after ⟨calm, same, ⟨_, impossible, _⟩ | ⟨_, -, disturbed⟩⟩
    · cases impossible
    · exact ⟨calm, .inr ⟨failure, rfl, stored.of_db same,
        fun undisturbed => absurd undisturbed disturbed⟩⟩
  · rintro ours looked ⟨calm, same, ⟨_, answered, known⟩ | ⟨_, impossible, _⟩⟩
    · cases answered
      have stored := stored.of_db same
      refine .seq (leads_agreeAt known looked) ?_ ?_
      · rintro failure after ⟨rfl, ⟨impossible, _⟩ | ⟨_, given, refused⟩⟩
        · cases impossible
        · cases given
          exact ⟨calm, .inr ⟨failure, rfl, stored, fun _ servesAll => refused servesAll⟩⟩
      · rintro _ after ⟨rfl, ⟨-, agrees⟩ | ⟨_, impossible, _⟩⟩
        · refine .seq (leads_dropAbove stored _) ?_ ?_
          · rintro failure after ⟨dropping, ⟨impossible, _⟩ | ⟨_, -, kept, disturbed⟩⟩
            · cases impossible
            · exact ⟨calm.trans dropping, .inr ⟨failure, rfl, kept,
                fun undisturbed => absurd (calm undisturbed) disturbed⟩⟩
          · rintro _ after ⟨dropping, ⟨-, dropped⟩ | ⟨_, impossible, _⟩⟩
            · exact .ret ⟨calm.trans dropping, .inl ⟨rfl, agrees, dropped⟩⟩
            · cases impossible
        · cases impossible
    · cases impossible

end Rollback

/-! ### Taking blocks -/

section Taking

variable {blocks : List (ChainBlock runtime.codec)} {syncer : Syncer}

/-- The height above linked blocks. -/
def nextHeight (options : SyncOptions) (blocks : List (ChainBlock runtime.codec)) : ℕ :=
  options.first + blocks.length

/-- A block names another predecessor than the last stored block below it. -/
def Departs (blocks : List (ChainBlock runtime.codec)) (block : ChainBlock runtime.codec) : Prop :=
  ∃ last, blocks.getLast? = some last ∧ block.previous ≠ "" ∧ last.id ≠ block.previous

theorem nextHeight_concat (block : ChainBlock runtime.codec) :
    nextHeight options (blocks ++ [block]) = nextHeight options blocks + 1 := by
  unfold nextHeight
  rw [List.length_append, List.length_singleton, Nat.add_assoc]

theorem height_getLast (linked : Linked options.first blocks) {last : ChainBlock runtime.codec}
    (found : blocks.getLast? = some last) : last.height + 1 = nextHeight options blocks := by
  obtain ⟨earlier, rfl⟩ := List.getLast?_eq_some_iff.mp found
  rw [nextHeight_concat, height_of_concat linked]
  rfl

/-- The block stored directly below the next height is the last one. -/
theorem blockAt_last (linked : Linked options.first blocks) :
    blockAt blocks (nextHeight options blocks - 1) = blocks.getLast? := by
  cases found : blocks.getLast? with
  | none =>
    rw [List.getLast?_eq_none_iff.mp found]
    rfl
  | some last =>
    rw [← height_getLast linked found, Nat.add_sub_cancel]
    exact blockAt_of_mem linked (List.mem_of_getLast? found)

theorem departs_iff {parent : Option CheckpointRow} {block : ChainBlock runtime.codec}
    (known : parent.map CheckpointRow.blockId = blocks.getLast?.map ChainBlock.id) :
    departs parent block = true ↔ Departs blocks block := by
  unfold departs Departs
  cases parent with
  | none =>
    have none_last := Option.map_eq_none_iff.mp known.symm
    rw [none_last]
    simp
  | some row =>
    obtain ⟨last, found, same⟩ := Option.map_eq_some_iff.mp known.symm
    rw [found, Option.any_some, Bool.and_eq_true, decide_eq_true_eq, decide_eq_true_eq]
    constructor
    · rintro ⟨named, other⟩
      exact ⟨last, rfl, named, by rw [same]; exact other⟩
    · rintro ⟨other, sameLast, named, differs⟩
      cases sameLast
      exact ⟨named, by rw [← same]; exact differs⟩

/-- A block of the next height that does not depart from the stored blocks extends them. -/
theorem linked_of_not_departs (linked : Linked options.first blocks)
    {block : ChainBlock runtime.codec} (height : block.height = nextHeight options blocks)
    (follows : ¬ Departs blocks block) : Linked options.first (blocks ++ [block]) := by
  refine linked_concat.mpr ⟨linked, fun empty => ?_, fun last found => ⟨?_, fun named => ?_⟩⟩
  · rw [height, empty]
    rfl
  · rw [height, height_getLast linked found]
  · by_contra other
    exact follows ⟨last, found, named, fun same => other same.symm⟩

theorem leads_applyBlock (stored : Stores options blocks syncer) {block : ChainBlock runtime.codec}
    (longer : Linked options.first (blocks ++ [block])) :
    Leads (onDatabase (applyBlock runtime block options.first)) syncer fun result after =>
      Calm syncer after ∧
        ((∃ row, result = .ok row ∧ Stores options (blocks ++ [block]) after) ∨
          ∃ failure, result = .error failure ∧ Stores options blocks after ∧
            ¬ Undisturbed syncer) := by
  rcases answers_applyBlockBody stored.linked block with ⟨failure, refused, _⟩ | ⟨_, answers⟩
  · have passed := (extends?_eq_ok_iff stored.linked block).mpr longer
    rw [passed] at refused
    cases refused
  · rw [← stored.filled] at answers
    refine (leads_onDatabase answers).weaken fun result after ended => ⟨ended.1, ?_⟩
    rcases ended.2 with ⟨answered, filled⟩ | ⟨failure, failed, same, disturbed⟩
    · exact .inl ⟨_, answered, longer, filled⟩
    · exact .inr ⟨failure, failed, stored.of_db same, disturbed⟩

/-- What taking the blocks of a response comes to. -/
structure Takes (options : SyncOptions) (node : Node runtime.codec) (head : ChainHead)
    (blocks : List (ChainBlock runtime.codec)) (applied : ℕ)
    (served : List (ChainBlock runtime.codec))
    (syncer : Syncer) (more : List (ChainBlock runtime.codec)) (result : Except Failure Taken)
    (after : Syncer) : Prop where
  calm : Calm syncer after
  taken : more <+: served
  linked : Linked options.first (blocks ++ more)
  ending :
    (result = .ok (.reached (nextHeight options (blocks ++ more)) (applied + more.length)) ∧
      Stores options (blocks ++ more) after ∧
      ∀ block, served[more.length]? = some block →
        block.height ≠ nextHeight options (blocks ++ more)) ∨
    (∃ block last, served[more.length]? = some block ∧
      block.height = nextHeight options (blocks ++ more) ∧ Departs (blocks ++ more) block ∧
      (blocks ++ more).getLast? = some last ∧
      result = .ok (.forked
        { applied := applied + more.length
          caughtUp := false
          rolledBack := some (last.height, rollbackTarget options head block.height) }) ∧
      Agrees node head (blocks ++ more) (rollbackTarget options head block.height) ∧
      Stores options (upTo (rollbackTarget options head block.height) (blocks ++ more)) after) ∨
    ∃ failure, result = .error failure ∧ Stores options (blocks ++ more) after ∧
      (Undisturbed syncer → ServesAll node head → Refusal failure ∧
        ∃ block, served[more.length]? = some block ∧
          block.height = nextHeight options (blocks ++ more) ∧ Departs (blocks ++ more) block ∧
          ¬ Agrees node head (blocks ++ more) (rollbackTarget options head block.height))

/-- The first block was applied, and the others are taken after it. -/
theorem Takes.cons {head : ChainHead} {applied : ℕ} {block : ChainBlock runtime.codec}
    {others more : List (ChainBlock runtime.codec)} {result : Except Failure Taken}
    {before after : Syncer} (calm : Calm syncer before)
    (takes : Takes options node head (blocks ++ [block]) (applied + 1) others before more result
      after) :
    Takes options node head blocks applied (block :: others) syncer (block :: more) result
      after := by
  have whole : blocks ++ block :: more = blocks ++ [block] ++ more := by
    rw [List.append_assoc, List.singleton_append]
  have count : applied + (block :: more).length = applied + 1 + more.length := by
    rw [List.length_cons]
    omega
  refine ⟨calm.trans takes.calm, List.cons_prefix_cons.mpr ⟨rfl, takes.taken⟩,
    whole ▸ takes.linked, ?_⟩
  rw [whole, count, List.length_cons, List.getElem?_cons_succ]
  rcases takes.ending with reached | forked | ⟨failure, failed, stored, why⟩
  · exact .inl reached
  · exact .inr (.inl forked)
  · exact .inr (.inr ⟨failure, failed, stored, fun undisturbed => why (calm undisturbed)⟩)

theorem leads_takeBlocks (head : ChainHead) (served : List (ChainBlock runtime.codec)) :
    ∀ (blocks : List (ChainBlock runtime.codec)) (applied : ℕ) (syncer : Syncer),
      Stores options blocks syncer →
        Leads (takeBlocks runtime options node head (nextHeight options blocks) applied served)
          syncer fun result after =>
            ∃ more, Takes options node head blocks applied served syncer more result after := by
  have unchanged : ∀ {blocks : List (ChainBlock runtime.codec)} {syncer : Syncer},
      Stores options blocks syncer → Linked options.first (blocks ++ []) := by
    intro blocks syncer stored
    rw [List.append_nil]
    exact stored.linked
  induction served with
  | nil =>
    intro blocks applied syncer stored
    refine .ret ⟨[], .refl _, List.prefix_refl _, unchanged stored,
      .inl ⟨?_, ?_, fun block absent => by cases absent⟩⟩
    · rw [List.append_nil, List.length_nil, Nat.add_zero]
    · rwa [List.append_nil]
  | cons block others inductionHypothesis =>
    intro blocks applied syncer stored
    have nothing : [] <+: block :: others := List.nil_prefix
    unfold takeBlocks
    split
    · next gap =>
      refine .ret ⟨[], .refl _, nothing, unchanged stored, .inl ⟨?_, ?_, fun other found => ?_⟩⟩
      · rw [List.append_nil, List.length_nil, Nat.add_zero]
      · rwa [List.append_nil]
      · rw [List.length_nil, List.getElem?_cons_zero] at found
        cases found
        rwa [List.append_nil]
    · next same =>
      have height : block.height = nextHeight options blocks := not_not.mp same
      refine .seq (leads_fromDatabase _ syncer) ?_ ?_
      · rintro failure after ⟨calm, same, impossible | ⟨_, -, disturbed⟩⟩
        · cases impossible
        · refine ⟨[], calm, nothing, unchanged stored, .inr (.inr ⟨failure, rfl, ?_,
            fun undisturbed => absurd undisturbed disturbed⟩)⟩
          rw [List.append_nil]
          exact stored.of_db same
      · rintro parent looked ⟨calm, same, answered | ⟨_, impossible, _⟩⟩
        · have known : parent.map CheckpointRow.blockId = blocks.getLast?.map ChainBlock.id := by
            cases answered
            rw [stored.filled, checkpointAt_databaseOf, height, blockAt_last stored.linked]
          have stored := stored.of_db same
          split
          · next away =>
            have departing := (departs_iff known).mp away
            obtain ⟨last, found, -⟩ := (departs_iff known).mp away
            have lastHeight : parent.map (fun row =>
                (row.height, rollbackTarget options head block.height)) =
                  some (last.height, rollbackTarget options head block.height) := by
              cases parent with
              | none =>
                rw [found] at known
                cases known
              | some row =>
                have there := checkpointAt_height (Except.ok.inj answered).symm
                have below := height_getLast stored.linked found
                rw [Option.map_some]
                congr 2
                omega
            have above : options.floor < (block.height : ℤ) := by
              have bottom := floor_eq options
              rw [height, nextHeight]
              omega
            refine .seq (leads_rollback stored head above) ?_ ?_
            · rintro failure after ⟨rolling, ⟨impossible, _⟩ | ⟨_, given, kept, why⟩⟩
              · cases impossible
              · cases given
                refine ⟨[], calm.trans rolling, nothing, unchanged stored,
                  .inr (.inr ⟨failure, rfl, ?_, ?_⟩)⟩
                · rwa [List.append_nil]
                · intro undisturbed servesAll
                  obtain ⟨refusal, disagrees⟩ := why (calm undisturbed) servesAll
                  rw [List.append_nil]
                  exact ⟨refusal, block, rfl, height, departing, disagrees⟩
            · rintro target after ⟨rolling, ⟨given, agrees, dropped⟩ | ⟨_, impossible, _⟩⟩
              · cases given
                refine .ret ⟨[], calm.trans rolling, nothing, unchanged stored, .inr (.inl ?_)⟩
                rw [List.append_nil, lastHeight]
                exact ⟨block, last, rfl, height, departing, found, rfl, agrees, dropped⟩
              · cases impossible
          · next along =>
            have longer := linked_of_not_departs stored.linked height
              (fun departing => along ((departs_iff known).mpr departing))
            refine .seq (leads_applyBlock stored longer) ?_ ?_
            · rintro failure after ⟨applying, ⟨_, impossible, _⟩ | ⟨_, -, kept, disturbed⟩⟩
              · cases impossible
              · refine ⟨[], calm.trans applying, nothing, unchanged stored,
                  .inr (.inr ⟨failure, rfl, ?_,
                  fun undisturbed => absurd (calm undisturbed) disturbed⟩)⟩
                rwa [List.append_nil]
            · rintro row after ⟨applying, ⟨_, -, added⟩ | ⟨_, impossible, _⟩⟩
              · refine .seq (leads_onState _ after) ?_ ?_
                · rintro failure counted ⟨impossible, _⟩
                  cases impossible
                · rintro _ counted ⟨-, same, counting⟩
                  rw [← nextHeight_concat block]
                  refine (inductionHypothesis (blocks ++ [block]) (applied + 1) counted
                    (added.of_db same)).weaken fun result last ended => ?_
                  obtain ⟨more, takes⟩ := ended
                  exact ⟨block :: more, takes.cons ((calm.trans applying).trans counting)⟩
              · cases impossible
        · cases impossible

end Taking

/-! ### Steps -/

section Steps

variable {blocks : List (ChainBlock runtime.codec)} {syncer : Syncer}

/-- The id by which the node knows its block at the head height. -/
def KnownAt (node : Node runtime.codec) (head : ChainHead) (last : ChainBlock runtime.codec)
    (id : String) : Prop :=
  (last.height = head.height ∧ id = head.id) ∨
    last.height ≠ head.height ∧ ∃ served block,
      node.getBlocks head.height 1 head.id = .ok served ∧ served.head? = some block ∧ id = block.id

/-- The stored block at the head height is not the one the node knows there. -/
def TipForks (node : Node runtime.codec) (head : ChainHead)
    (blocks : List (ChainBlock runtime.codec)) (last : ChainBlock runtime.codec) : Prop :=
  ∃ id ours, KnownAt node head last id ∧ id ≠ "" ∧ blockAt blocks head.height = some ours ∧
    ours.id ≠ id

/-- The request for the next blocks. -/
def Asked (options : SyncOptions) (node : Node runtime.codec) (head : ChainHead)
    (blocks served : List (ChainBlock runtime.codec)) : Prop :=
  node.getBlocks (nextHeight options blocks)
    (min options.batch (head.height + 1 - nextHeight options blocks)) head.id = .ok served

/-- The stored blocks end below the head, or there are none. -/
def Below (head : ChainHead) (blocks : List (ChainBlock runtime.codec)) : Prop :=
  ∀ last, blocks.getLast? = some last → last.height < head.height

/-- A fork was found after these blocks were added, and the node does not serve the stored block to
go back to. -/
def Refused (options : SyncOptions) (node : Node runtime.codec) (head : ChainHead)
    (blocks more : List (ChainBlock runtime.codec)) : Prop :=
  (more = [] ∧ ∃ last, blocks.getLast? = some last ∧ head.height ≤ last.height ∧
      TipForks node head blocks last ∧
      ¬ Agrees node head blocks (rollbackTarget options head head.height)) ∨
    ∃ served block, Below head blocks ∧ Asked options node head blocks served ∧
      more <+: served ∧ Linked options.first (blocks ++ more) ∧
      served[more.length]? = some block ∧
      block.height = nextHeight options (blocks ++ more) ∧ Departs (blocks ++ more) block ∧
      ¬ Agrees node head (blocks ++ more) (rollbackTarget options head block.height)

/-- What a step does once it knows the head of the node; `calm` says that nothing disturbed it. -/
inductive Moves (options : SyncOptions) (node : Node runtime.codec) (head : ChainHead)
    (blocks : List (ChainBlock runtime.codec)) (calm : Prop) :
    Except Failure SyncResult → List (ChainBlock runtime.codec) → Prop where
  | settled (last : ChainBlock runtime.codec) (found : blocks.getLast? = some last)
      (level : last.height = head.height) (same : ¬ TipForks node head blocks last) :
      Moves options node head blocks calm (.ok { applied := 0, caughtUp := true }) blocks
  | tolerated (last : ChainBlock runtime.codec) (found : blocks.getLast? = some last)
      (higher : head.height < last.height) (same : ¬ TipForks node head blocks last)
      (answered : ∃ served, node.getBlocks head.height 1 head.id = .ok served) :
      Moves options node head blocks calm (.ok { applied := 0, caughtUp := true }) blocks
  | truncated (last : ChainBlock runtime.codec) (found : blocks.getLast? = some last)
      (higher : head.height < last.height) (same : ¬ TipForks node head blocks last)
      (answered : ∃ served, node.getBlocks head.height 1 head.id = .ok served) :
      Moves options node head blocks calm
        (.ok
          { applied := 0
            caughtUp := true
            rolledBack := some (last.height, max (head.height : ℤ) options.floor) })
        (upTo (max (head.height : ℤ) options.floor) blocks)
  | receded (last : ChainBlock runtime.codec) (found : blocks.getLast? = some last)
      (reached : head.height ≤ last.height) (fork : TipForks node head blocks last)
      (agrees : Agrees node head blocks (rollbackTarget options head head.height)) :
      Moves options node head blocks calm
        (.ok
          { applied := 0
            caughtUp := false
            rolledBack := some (last.height, rollbackTarget options head head.height) })
        (upTo (rollbackTarget options head head.height) blocks)
  | extended (served more : List (ChainBlock runtime.codec)) (below : Below head blocks)
      (asked : Asked options node head blocks served) (taken : more <+: served)
      (linked : Linked options.first (blocks ++ more))
      (ended : ∀ block, served[more.length]? = some block →
        block.height ≠ nextHeight options (blocks ++ more)) :
      Moves options node head blocks calm
        (.ok ((Taken.reached (nextHeight options (blocks ++ more)) more.length).result head))
        (blocks ++ more)
  | forked (served more : List (ChainBlock runtime.codec)) (block last : ChainBlock runtime.codec)
      (below : Below head blocks) (asked : Asked options node head blocks served)
      (taken : more <+: served) (linked : Linked options.first (blocks ++ more))
      (next : served[more.length]? = some block)
      (height : block.height = nextHeight options (blocks ++ more))
      (departs : Departs (blocks ++ more) block) (found : (blocks ++ more).getLast? = some last)
      (agrees : Agrees node head (blocks ++ more) (rollbackTarget options head block.height)) :
      Moves options node head blocks calm
        (.ok
          { applied := more.length
            caughtUp := false
            rolledBack := some (last.height, rollbackTarget options head block.height) })
        (upTo (rollbackTarget options head block.height) (blocks ++ more))
  | failed (failure : Failure) (more : List (ChainBlock runtime.codec))
      (taken : more = [] ∨ ∃ served, Asked options node head blocks served ∧ more <+: served)
      (why : calm → ServesAll node head →
        Refusal failure ∧ Refused options node head blocks more) :
      Moves options node head blocks calm (.error failure) (blocks ++ more)

theorem differs_iff {canonicalId : Option String} {ours : Option CheckpointRow}
    {block : Option (ChainBlock runtime.codec)}
    (known : ours.map CheckpointRow.blockId = block.map ChainBlock.id) :
    differs canonicalId ours = true ↔
      ∃ id found, canonicalId = some id ∧ id ≠ "" ∧ block = some found ∧ found.id ≠ id := by
  unfold differs
  rw [Option.any_eq_true]
  constructor
  · rintro ⟨id, given, both⟩
    obtain ⟨named, other⟩ := Bool.and_eq_true_iff.mp both
    obtain ⟨row, rfl, differing⟩ := (Option.any_eq_true _ _).mp other
    obtain ⟨found, rfl, same⟩ := Option.map_eq_some_iff.mp known.symm
    refine ⟨id, found, given, of_decide_eq_true named, rfl, ?_⟩
    rw [same]
    exact of_decide_eq_true differing
  · rintro ⟨id, found, given, named, rfl, other⟩
    obtain ⟨row, rfl, same⟩ := Option.map_eq_some_iff.mp known
    refine ⟨id, given, Bool.and_eq_true_iff.mpr ⟨decide_eq_true named, ?_⟩⟩
    refine (Option.any_eq_true _ _).mpr ⟨row, rfl, decide_eq_true ?_⟩
    rw [same]
    exact other

theorem leads_fromNode {Value : Type} (answer : Except String Value) (syncer : Syncer) :
    Leads (fromNode answer) syncer fun result after => after = syncer ∧
      ((∃ value, answer = .ok value ∧ result = .ok value) ∨
        ∃ message failure, answer = .error message ∧ result = .error failure) := by
  refine .lift ⟨rfl, ?_⟩
  cases answer with
  | ok value => exact .inl ⟨value, rfl, rfl⟩
  | error message => exact .inr ⟨message, _, rfl, rfl⟩

theorem leads_canonicalIdAt {head : ChainHead} {row : CheckpointRow}
    {last : ChainBlock runtime.codec} (same : row.height = last.height) (syncer : Syncer) :
    Leads (canonicalIdAt runtime node head row) syncer fun result after => after = syncer ∧
      ((∃ answer, result = .ok answer ∧ (∀ id, answer = some id ↔ KnownAt node head last id) ∧
          (last.height ≠ head.height →
            ∃ served, node.getBlocks head.height 1 head.id = .ok served)) ∨
        ∃ failure, result = .error failure ∧ ¬ ServesAll node head) := by
  unfold canonicalIdAt
  split
  · next level =>
    refine .ret ⟨rfl, .inl ⟨_, rfl, fun id => ?_,
      fun other => absurd (same.symm.trans level) other⟩⟩
    constructor
    · intro given
      cases given
      exact .inl ⟨same.symm.trans level, rfl⟩
    · rintro (⟨-, rfl⟩ | ⟨other, _⟩)
      · rfl
      · exact absurd (same.symm.trans level) other
  · next apart =>
    refine .seq (leads_fromNode _ syncer) ?_ ?_
    · rintro failure after ⟨rfl, ⟨_, -, impossible⟩ | ⟨message, _, failed, -⟩⟩
      · cases impossible
      · refine ⟨rfl, .inr ⟨failure, rfl, fun servesAll => ?_⟩⟩
        obtain ⟨served, answered⟩ := servesAll head.height 1
        rw [failed] at answered
        cases answered
    · rintro served after ⟨rfl, ⟨_, answered, given⟩ | ⟨_, _, -, impossible⟩⟩
      · cases given
        refine .ret ⟨rfl, .inl ⟨_, rfl, fun id => ?_, fun _ => ⟨served, answered⟩⟩⟩
        rw [Option.map_eq_some_iff]
        constructor
        · rintro ⟨block, first, rfl⟩
          exact .inr ⟨fun level => apart (same.trans level), served, block, answered, first, rfl⟩
        · rintro (⟨level, -⟩ | ⟨-, others, block, again, first, rfl⟩)
          · exact absurd (same.trans level) apart
          · cases answered.symm.trans again
            exact ⟨block, first, rfl⟩
      · cases impossible

theorem leads_truncateShrunk {calm : Prop} (stored : Stores options blocks syncer)
    {head : ChainHead} {row : CheckpointRow} {last : ChainBlock runtime.codec}
    (rowHeight : row.height = last.height) (found : blocks.getLast? = some last)
    (higher : head.height < last.height) (same : ¬ TipForks node head blocks last)
    (answered : ∃ served, node.getBlocks head.height 1 head.id = .ok served)
    (quiet : calm → Undisturbed syncer) :
    Leads (truncateShrunk runtime options head row) syncer fun result after =>
      Calm syncer after ∧ ∃ others, Stores options others after ∧
        Moves options node head blocks calm result others := by
  unfold truncateShrunk
  refine .seq (.read ⟨rfl, rfl⟩ : Leads _ syncer fun result after =>
    result = .ok syncer ∧ after = syncer) ?_ ?_
  · rintro failure after ⟨impossible, -⟩
    cases impossible
  · rintro _ after ⟨given, rfl⟩
    cases given
    split
    · refine .seq (leads_onShrunkHead (some head) _) ?_ ?_
      · rintro failure later ⟨impossible, -⟩
        cases impossible
      · rintro _ later ⟨-, unchanged, calming⟩
        exact .ret ⟨calming, blocks, stored.of_db unchanged,
          .tolerated last found higher same answered⟩
    · refine .seq (leads_dropAbove stored _) ?_ ?_
      · rintro failure later ⟨calming, ⟨impossible, -⟩ | ⟨_, -, kept, disturbed⟩⟩
        · cases impossible
        · refine ⟨calming, blocks, kept, ?_⟩
          have failed : Moves options node head blocks calm (.error failure) (blocks ++ []) :=
            .failed failure [] (.inl rfl) fun calm => absurd (quiet calm) disturbed
          rwa [List.append_nil] at failed
      · rintro _ later ⟨calming, ⟨-, dropped⟩ | ⟨_, impossible, _⟩⟩
        · refine .seq (leads_onShrunkHead none later) ?_ ?_
          · rintro failure last ⟨impossible, -⟩
            cases impossible
          · rintro _ final ⟨-, unchanged, more⟩
            refine .ret ⟨calming.trans more, _, dropped.of_db unchanged, ?_⟩
            rw [rowHeight]
            exact .truncated last found higher same answered
        · cases impossible

theorem failed_here {head : ChainHead} {calm : Prop} {failure : Failure}
    (why : calm → ServesAll node head → Refusal failure ∧ Refused options node head blocks []) :
    Moves options node head blocks calm (.error failure) blocks := by
  have failed : Moves options node head blocks calm (.error failure) (blocks ++ []) :=
    .failed failure [] (.inl rfl) why
  rwa [List.append_nil] at failed

/-- The row that was read at the head height tells whether the tip forks. -/
theorem differs_iff_tipForks {head : ChainHead} {last : ChainBlock runtime.codec}
    {canonicalId : Option String} {ours : Option CheckpointRow}
    (knows : ∀ id, canonicalId = some id ↔ KnownAt node head last id)
    (known : ours.map CheckpointRow.blockId =
      (blockAt blocks head.height).map ChainBlock.id) :
    differs canonicalId ours = true ↔ TipForks node head blocks last := by
  rw [differs_iff known]
  constructor
  · rintro ⟨id, block, answered, named, there, other⟩
    exact ⟨id, block, (knows id).mp answered, named, there, other⟩
  · rintro ⟨id, block, knownAs, named, there, other⟩
    exact ⟨id, block, (knows id).mpr knownAs, named, there, other⟩

/-- A tip that forks has a stored block, so it is above what is never rolled back. -/
theorem TipForks.above_floor {head : ChainHead} {last : ChainBlock runtime.codec}
    (fork : TipForks node head blocks last) (stored : Stores options blocks syncer) :
    options.floor < (head.height : ℤ) := by
  obtain ⟨_, block, _, _, there, _⟩ := fork
  obtain ⟨member, height⟩ := blockAt_eq_some there
  have bound := (height_of_mem_linked stored.linked member).1
  have bottom := floor_eq options
  omega

/-- The stored tip is at the head or above it. -/
theorem leads_reconcileTip {calm : Prop} (stored : Stores options blocks syncer)
    {head : ChainHead} {row : CheckpointRow} {last : ChainBlock runtime.codec}
    (rowHeight : row.height = last.height) (found : blocks.getLast? = some last)
    (reached : head.height ≤ last.height) (quiet : calm → Undisturbed syncer) :
    Leads (reconcileTip runtime options node head row) syncer fun result after =>
      Calm syncer after ∧ ∃ others, Stores options others after ∧
        Moves options node head blocks calm result others := by
  unfold reconcileTip
  refine .seq (leads_canonicalIdAt rowHeight syncer) ?_ ?_
  · rintro failure after ⟨same, ⟨_, impossible, _⟩ | ⟨_, -, silent⟩⟩
    · cases impossible
    · subst same
      exact ⟨.refl _, blocks, stored, failed_here fun _ servesAll => absurd servesAll silent⟩
  · rintro canonicalId asked ⟨same, ⟨_, given, knows, answers⟩ | ⟨_, impossible, _⟩⟩
    · subst same
      cases given
      refine .seq (leads_storedAt stored (head.height : ℤ)) ?_ ?_
      · rintro failure after ⟨calming, unchanged, ⟨_, impossible, _⟩ | ⟨_, -, disturbed⟩⟩
        · cases impossible
        · exact ⟨calming, blocks, stored.of_db unchanged,
            failed_here fun calm => absurd (quiet calm) disturbed⟩
      · rintro ours looked ⟨calming, unchanged, ⟨_, given, known⟩ | ⟨_, impossible, _⟩⟩
        · cases given
          rw [Int.toNat_natCast] at known
          have stored := stored.of_db unchanged
          have forks : differs canonicalId ours = true ↔ TipForks node head blocks last :=
            differs_iff_tipForks knows known
          split
          · next apart =>
            have fork := forks.mp apart
            have above : options.floor < (head.height : ℤ) := fork.above_floor stored
            refine .seq (leads_onShrunkHead none looked) ?_ ?_
            · rintro failure after ⟨impossible, -⟩
              cases impossible
            · rintro _ cleared ⟨-, unchanged, clearing⟩
              refine .seq (leads_rollback (stored.of_db unchanged) head above) ?_ ?_
              · rintro failure after ⟨rolling, ⟨impossible, -⟩ | ⟨_, given, kept, why⟩⟩
                · cases impossible
                · cases given
                  refine ⟨(calming.trans clearing).trans rolling, blocks, kept,
                    failed_here fun calm servesAll => ?_⟩
                  obtain ⟨refusal, disagrees⟩ := why (clearing (calming (quiet calm))) servesAll
                  exact ⟨refusal, .inl ⟨rfl, last, found, reached, fork, disagrees⟩⟩
              · rintro target after ⟨rolling, ⟨given, agrees, dropped⟩ | ⟨_, impossible, _⟩⟩
                · cases given
                  refine .ret ⟨(calming.trans clearing).trans rolling, _, dropped, ?_⟩
                  rw [rowHeight]
                  exact .receded last found reached fork agrees
                · cases impossible
          · next along =>
            have same : ¬ TipForks node head blocks last := fun fork => along (forks.mpr fork)
            split
            · next level =>
              refine .seq (leads_onShrunkHead none looked) ?_ ?_
              · rintro failure after ⟨impossible, -⟩
                cases impossible
              · rintro _ after ⟨-, unchanged, clearing⟩
                exact .ret ⟨calming.trans clearing, blocks, stored.of_db unchanged,
                  .settled last found (rowHeight.symm.trans level) same⟩
            · next apart =>
              have higher : head.height < last.height := by omega
              refine (leads_truncateShrunk stored rowHeight found higher same
                (answers higher.ne')
                fun calm => calming (quiet calm)).weaken fun result after ended => ?_
              exact ⟨calming.trans ended.1, ended.2⟩
        · cases impossible
    · cases impossible

/-- The stored tip is below the head, or nothing is stored. -/
theorem leads_takeNext {calm : Prop} (stored : Stores options blocks syncer) {head : ChainHead}
    (below : Below head blocks) (quiet : calm → Undisturbed syncer) :
    Leads (takeNext runtime options node head (nextHeight options blocks)) syncer
      fun result after => Calm syncer after ∧ ∃ others, Stores options others after ∧
        Moves options node head blocks calm result others := by
  unfold takeNext
  refine .seq (leads_fromNode _ syncer) ?_ ?_
  · rintro failure after ⟨same, ⟨_, -, impossible⟩ | ⟨message, _, failed, -⟩⟩
    · cases impossible
    · subst same
      refine ⟨.refl _, blocks, stored, failed_here fun _ servesAll => ?_⟩
      obtain ⟨served, answered⟩ := servesAll (nextHeight options blocks)
        (min options.batch (head.height + 1 - nextHeight options blocks))
      rw [failed] at answered
      cases answered
  · rintro served asked ⟨same, ⟨_, answered, given⟩ | ⟨_, _, -, impossible⟩⟩
    · subst same
      cases given
      refine .seq (leads_takeBlocks head served blocks 0 _ stored) ?_ ?_
      · rintro failure after ⟨more, takes⟩
        rcases takes.ending with ⟨impossible, _⟩ | ⟨_, _, _, _, _, _, impossible, _⟩ | ended
        · cases impossible
        · cases impossible
        · obtain ⟨_, given, kept, why⟩ := ended
          cases given
          refine ⟨takes.calm, _, kept, .failed failure more (.inr ⟨served, answered, takes.taken⟩)
            fun calm servesAll => ?_⟩
          obtain ⟨refusal, block, next, height, departs, disagrees⟩ := why (quiet calm) servesAll
          exact ⟨refusal, .inr ⟨served, block, below, answered, takes.taken, takes.linked,
            next, height, departs, disagrees⟩⟩
      · rintro taken after ⟨more, takes⟩
        rcases takes.ending with ⟨given, kept, ended⟩ | forked | ⟨_, impossible, _⟩
        · cases given
          rw [Nat.zero_add]
          exact .ret ⟨takes.calm, _, kept, .extended served more below answered takes.taken
            takes.linked ended⟩
        · obtain ⟨block, last, next, height, departs, found, given, agrees, kept⟩ := forked
          cases given
          rw [Nat.zero_add]
          exact .ret ⟨takes.calm, _, kept, .forked served more block last below answered
            takes.taken takes.linked next height departs found agrees⟩
        · cases impossible
    · cases impossible

theorem lastCheckpoint_map (stored : Stores options blocks syncer) :
    syncer.db.lastCheckpoint.map CheckpointRow.height =
      blocks.getLast?.map ChainBlock.height := by
  rw [stored.filled, lastCheckpoint_databaseOf stored.linked, ← List.getLast?_map,
    ← List.getLast?_map, map_height_checkpoints]

theorem leads_stepAt {calm : Prop} (stored : Stores options blocks syncer) (head : ChainHead)
    (quiet : calm → Undisturbed syncer) :
    Leads (stepAt runtime options node head) syncer fun result after => Calm syncer after ∧
      ∃ others, Stores options others after ∧
        Moves options node head blocks calm result others := by
  unfold stepAt
  refine .seq (leads_onState _ syncer) ?_ ?_
  · rintro failure after ⟨impossible, -⟩
    cases impossible
  · rintro _ noted ⟨-, unchanged, noting⟩
    have stored := stored.of_db unchanged
    refine .seq (leads_fromDatabase _ noted) ?_ ?_
    · rintro failure after ⟨calming, unchanged, impossible | ⟨_, -, disturbed⟩⟩
      · cases impossible
      · exact ⟨noting.trans calming, blocks, stored.of_db unchanged,
          failed_here fun calm => absurd (noting (quiet calm)) disturbed⟩
    · rintro last looked ⟨calming, unchanged, given | ⟨_, impossible, _⟩⟩
      · have tip := lastCheckpoint_map stored
        cases given
        have stored := stored.of_db unchanged
        have quieted : calm → Undisturbed looked := fun calm => calming (noting (quiet calm))
        split
        · next row =>
          rw [row] at tip
          have empty := List.getLast?_eq_none_iff.mp (Option.map_eq_none_iff.mp tip.symm)
          subst empty
          refine .seq (leads_onShrunkHead none looked) ?_ ?_
          · rintro failure after ⟨impossible, -⟩
            cases impossible
          · rintro _ cleared ⟨-, unchanged, clearing⟩
            refine (leads_takeNext (stored.of_db unchanged) (fun last absent => by cases absent)
              fun calm => clearing (quieted calm)).weaken fun result after ended => ?_
            exact ⟨(noting.trans calming).trans (clearing.trans ended.1), ended.2⟩
        · next last row =>
          rw [row] at tip
          obtain ⟨block, found, height⟩ := Option.map_eq_some_iff.mp tip.symm
          split
          · next reached =>
            refine (leads_reconcileTip stored height.symm found (by omega)
              quieted).weaken fun result after ended => ?_
            exact ⟨(noting.trans calming).trans ended.1, ended.2⟩
          · next under =>
            have below : Below head blocks := by
              intro other same
              rw [found] at same
              cases same
              omega
            have next : last.height + 1 = nextHeight options blocks := by
              rw [← height]
              exact height_getLast stored.linked found
            rw [next]
            refine .seq (leads_onShrunkHead none looked) ?_ ?_
            · rintro failure after ⟨impossible, -⟩
              cases impossible
            · rintro _ cleared ⟨-, unchanged, clearing⟩
              refine (leads_takeNext (stored.of_db unchanged) below
                fun calm => clearing (quieted calm)).weaken fun result after ended => ?_
              exact ⟨(noting.trans calming).trans (clearing.trans ended.1), ended.2⟩
      · cases impossible

/-- The node answers its head and a chain id that is the configured one. -/
structure Introduces (options : SyncOptions) (node : Node runtime.codec) (head : ChainHead) :
    Prop where
  head : node.head = .ok head
  chainId : ∃ id, node.chainId = .ok id ∧
    ∀ expected, options.chainId = some expected → id = expected

theorem leads_verifyChainId (syncer : Syncer) :
    Leads (verifyChainId options node) syncer fun result after =>
      after.db = syncer.db ∧ Calm syncer after ∧ (result = .ok () ∨
        ∃ failure, result = .error failure ∧ ∀ head, ¬ Introduces options node head) := by
  unfold verifyChainId
  refine .seq (.read ⟨rfl, rfl⟩ : Leads _ syncer fun result after =>
    result = .ok syncer ∧ after = syncer) ?_ ?_
  · rintro failure after ⟨impossible, -⟩
    cases impossible
  · rintro _ after ⟨given, same⟩
    subst same
    cases given
    split
    · exact .ret ⟨rfl, .refl _, .inl rfl⟩
    · refine .seq (leads_fromNode _ _) ?_ ?_
      · rintro failure after ⟨same, ⟨_, -, impossible⟩ | ⟨message, _, failed, -⟩⟩
        · cases impossible
        · subst same
          refine ⟨rfl, .refl _, .inr ⟨failure, rfl, fun head introduces => ?_⟩⟩
          obtain ⟨id, answered, _⟩ := introduces.chainId
          rw [failed] at answered
          cases answered
      · rintro rpcChainId after ⟨same, ⟨_, answered, given⟩ | ⟨_, _, -, impossible⟩⟩
        · subst same
          cases given
          refine .seq (leads_onState _ _) ?_ ?_
          · rintro failure after ⟨impossible, -⟩
            cases impossible
          · rintro _ noted ⟨-, unchanged, noting⟩
            split
            · exact .change ⟨unchanged, noting, .inl rfl⟩
            · next expected configured =>
              refine .seq (leads_onState _ noted) ?_ ?_
              · rintro failure after ⟨impossible, -⟩
                cases impossible
              · rintro _ compared ⟨-, again, comparing⟩
                split
                · next other =>
                  refine .refuse ⟨again.trans unchanged, noting.trans comparing,
                    .inr ⟨_, rfl, fun head introduces => ?_⟩⟩
                  obtain ⟨id, reported, matching⟩ := introduces.chainId
                  cases answered.symm.trans reported
                  exact other (matching expected configured)
                · exact .change ⟨again.trans unchanged, noting.trans comparing, .inl rfl⟩
        · cases impossible

/-- What a whole step comes to: it moves with the head of the node, or fails before it knows it. -/
structure Steps (options : SyncOptions) (node : Node runtime.codec)
    (blocks : List (ChainBlock runtime.codec)) (syncer : Syncer)
    (result : Except Failure SyncResult) (after : Syncer)
    (others : List (ChainBlock runtime.codec)) : Prop where
  calm : Calm syncer after
  stored : Stores options others after
  moved : (∃ head, node.head = .ok head ∧
      Moves options node head blocks (Undisturbed syncer) result others) ∨
    others = blocks ∧ ∃ failure, result = .error failure ∧ ∀ head, ¬ Introduces options node head

variable (node) in
/-- A step keeps linked blocks stored and moves with the head the node tells. -/
theorem leads_step (stored : Stores options blocks syncer) :
    Leads (step runtime options node) syncer fun result after =>
      ∃ others, Steps options node blocks syncer result after others := by
  unfold step
  refine .caught ?_
  suffices inner : Leads _ syncer fun result after =>
      ∃ others, Steps options node blocks syncer result after others by
    refine inner.weaken fun result after ended =>
      ⟨fun value answered => ?_, fun failure failed => ?_⟩
    · rwa [← answered]
    · obtain ⟨others, steps⟩ := ended
      rw [← failed]
      exact ⟨others, steps.calm, steps.stored.of_db rfl, steps.moved⟩
  refine .seq (leads_verifyChainId syncer) ?_ ?_
  · rintro failure after ⟨unchanged, calming, impossible | ⟨_, given, strange⟩⟩
    · cases impossible
    · cases given
      exact ⟨blocks, calming, stored.of_db unchanged, .inr ⟨rfl, failure, rfl, strange⟩⟩
  · rintro _ verified ⟨unchanged, verifying, _⟩
    have stored := stored.of_db unchanged
    refine .seq (leads_fromNode _ verified) ?_ ?_
    · rintro failure after ⟨same, ⟨_, -, impossible⟩ | ⟨message, _, failed, -⟩⟩
      · cases impossible
      · subst same
        refine ⟨blocks, verifying, stored, .inr ⟨rfl, failure, rfl, fun head introduces => ?_⟩⟩
        rw [introduces.head] at failed
        cases failed
    · rintro head asked ⟨same, ⟨_, answered, given⟩ | ⟨_, _, -, impossible⟩⟩
      · subst same
        cases given
        refine .seq (leads_stepAt stored head fun undisturbed => verifying undisturbed) ?_ ?_
        · rintro failure after ⟨calming, others, kept, moves⟩
          exact ⟨others, verifying.trans calming, kept, .inl ⟨head, answered, moves⟩⟩
        · rintro result after ⟨calming, others, kept, moves⟩
          unfold finish
          refine .seq (leads_onState _ after) ?_ ?_
          · rintro failure final ⟨impossible, -⟩
            cases impossible
          · rintro _ final ⟨-, unchanged, finishing⟩
            exact .ret ⟨others, (verifying.trans calming).trans finishing, kept.of_db unchanged,
              .inl ⟨head, answered, moves⟩⟩
      · cases impossible

end Steps

end OpenSocial.Indexer

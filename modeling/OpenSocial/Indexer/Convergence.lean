/-
This file proves that the sync loop reaches the head of its node.

Against a node that serves one whole chain, and unless a settled block has left that
chain, the first step either has caught up or leaves blocks of the chain only, at most
up to the head; from there on every step adds the next blocks of the chain, so the loop
ends, and it ends caught up.
-/

import OpenSocial.Indexer.Confluence

namespace OpenSocial.Indexer

open Library Library.Script Library.Stateful

variable {runtime : Runtime} {options : SyncOptions} {node : Node runtime.codec}
variable {chain : ℕ → ChainBlock runtime.codec} {head : ChainHead}
variable {blocks others : List (ChainBlock runtime.codec)}

/-! ### Aligned blocks -/

/-- The stored blocks are of the chain and end at the head or below it. -/
structure Aligned (chain : ℕ → ChainBlock runtime.codec) (head : ChainHead)
    (blocks : List (ChainBlock runtime.codec)) : Prop where
  isOf : ∀ block ∈ blocks, IsOf chain block
  within : ∀ block ∈ blocks, block.height ≤ head.height

/-- Linked blocks of the chain that reach the head are the chain up to the head. -/
theorem eq_canonicalBlocks (canonical : Canonical chain) (linked : Linked options.first blocks)
    (isOf : ∀ block ∈ blocks, IsOf chain block)
    (reaches : nextHeight options blocks = head.height + 1 ∨
      blocks = [] ∧ head.height < options.first) :
    blocks = canonicalBlocks chain options.first head.height := by
  have whole := canonical_of_last canonical linked (fun block member _ => isOf block member)
    fun last found => isOf last (List.mem_of_getLast? found)
  have count : blocks.length = head.height + 1 - options.first := by
    unfold nextHeight at reaches
    rcases reaches with reaches | ⟨rfl, low⟩
    · omega
    · rw [List.length_nil]
      omega
  unfold canonicalBlocks
  rw [← count]
  exact whole

/-- The stored blocks up to the head, where the node does not gainsay the one at the head. -/
theorem upTo_head (canonical : Canonical chain) (serves : ServesChain chain head node)
    (linked : Linked options.first blocks)
    (determined : ∀ block ∈ blocks, Determined chain block) {last : ChainBlock runtime.codec}
    (found : blocks.getLast? = some last) (reached : head.height ≤ last.height)
    (answered : last.height ≠ head.height →
      ∃ served, node.getBlocks head.height 1 head.id = .ok served)
    (same : ¬ TipForks node head blocks last) :
    upTo head.height blocks = canonicalBlocks chain options.first head.height := by
  have lower : Linked options.first (upTo head.height blocks) :=
    linked_of_prefix linked (upTo_begins _ _)
  have tall := height_getLast linked found
  unfold nextHeight at tall
  by_cases low : head.height < options.first
  · have empty : upTo head.height blocks = [] := by
      refine List.eq_nil_iff_forall_not_mem.mpr fun block member => ?_
      obtain ⟨inside, below⟩ := (mem_upTo linked).mp member
      have bound := (height_of_mem_linked linked inside).1
      omega
    rw [empty]
    exact eq_canonicalBlocks canonical linked_nil (fun block absent => by cases absent)
      (.inr ⟨rfl, low⟩)
  · have inRange : head.height ∈ blocks.map ChainBlock.height := by
      rw [map_height_of_linked linked]
      exact List.mem_range'_1.mpr ⟨by omega, by omega⟩
    obtain ⟨top, among, level⟩ := List.mem_map.mp inRange
    have sits : blockAt blocks head.height = some top := by
      rw [← level]
      exact blockAt_of_mem linked among
    have isOf : IsOf chain top := by
      unfold IsOf
      rw [level]
      exact canonical_at_head serves.named serves.tip answered same sits (determined top among)
    have kept : top ∈ upTo head.height blocks := (mem_upTo linked).mpr ⟨among, by omega⟩
    refine eq_canonicalBlocks canonical lower (fun block member => ?_) (.inl ?_)
    · obtain ⟨inside, below⟩ := (mem_upTo linked).mp member
      exact isOf_below canonical linked determined among isOf inside (by omega)
    · cases ends : (upTo (head.height : ℤ) blocks).getLast? with
      | none =>
        rw [List.getLast?_eq_none_iff.mp ends] at kept
        cases kept
      | some final =>
        have above := height_getLast lower ends
        have bound := (height_of_mem_linked lower kept).2
        have below := ((mem_upTo linked).mp (List.mem_of_getLast? ends)).2
        unfold nextHeight at above ⊢
        omega

/-- What is left after a rollback to a target that the node agrees with is aligned. -/
theorem aligned_upTo (canonical : Canonical chain) (serves : ServesChain chain head node)
    (linked : Linked options.first blocks)
    (determined : ∀ block ∈ blocks, Determined chain block) {forkHeight : ℕ}
    {last : ChainBlock runtime.codec} (found : blocks.getLast? = some last)
    (low : forkHeight ≤ head.height) (reached : forkHeight ≤ last.height + 1)
    (agrees : Agrees node head blocks (rollbackTarget options head forkHeight)) :
    Aligned chain head (upTo (rollbackTarget options head forkHeight) blocks) := by
  have tall := height_getLast linked found
  unfold nextHeight at tall
  have bottom := floor_eq options
  have positive := first_positive options
  have each : ∀ block ∈ upTo (rollbackTarget options head forkHeight) blocks,
      IsOf chain block ∧ block.height ≤ head.height := by
    intro block member
    obtain ⟨inside, below⟩ := (mem_upTo linked).mp member
    have bound := (height_of_mem_linked linked inside).1
    have target : rollbackTarget options head forkHeight =
        min (finalHeight options head) (forkHeight - 1) := by
      unfold rollbackTarget at below ⊢
      omega
    have within : rollbackTarget options head forkHeight ≤ head.height := by omega
    have inRange : (rollbackTarget options head forkHeight).toNat ∈
        blocks.map ChainBlock.height := by
      rw [map_height_of_linked linked]
      exact List.mem_range'_1.mpr ⟨by omega, by omega⟩
    obtain ⟨top, among, level⟩ := List.mem_map.mp inRange
    have sits : blockAt blocks (rollbackTarget options head forkHeight).toNat = some top := by
      rw [← level]
      exact blockAt_of_mem linked among
    have isOf := (agrees_iff serves determined within).mp agrees top sits
    exact ⟨isOf_below canonical linked determined among isOf inside (by omega), by omega⟩
  exact ⟨fun block member => (each block member).1, fun block member => (each block member).2⟩

/-! ### Steps of an undisturbed loop -/

/-- How many blocks the next request is answered with. -/
def nextCount (options : SyncOptions) (head : ChainHead)
    (blocks : List (ChainBlock runtime.codec)) : ℕ :=
  min options.batch (head.height + 1 - nextHeight options blocks)

/-- A response that is taken is taken whole. -/
theorem taken_whole (canonical : Canonical chain) (serves : ServesChain chain head node)
    {served more : List (ChainBlock runtime.codec)}
    (asked : Asked options node head blocks served) (taken : more <+: served)
    (ended : ∀ block, served[more.length]? = some block →
      block.height ≠ nextHeight options (blocks ++ more)) :
    more = (List.range' (nextHeight options blocks) (nextCount options head blocks)).map chain := by
  unfold Asked at asked
  rw [serves.served] at asked
  have count : min (min options.batch (head.height + 1 - nextHeight options blocks))
      (head.height + 1 - nextHeight options blocks) = nextCount options head blocks := by
    unfold nextCount
    omega
  rw [count] at asked
  cases asked
  obtain ⟨rest, same⟩ := taken
  rw [← same]
  cases rest with
  | nil => rw [List.append_nil]
  | cons block rest =>
    have there : (more ++ block :: rest)[more.length]? = some block := by
      rw [List.getElem?_append_right (Nat.le_refl _), Nat.sub_self]
      rfl
    rw [same] at there
    refine absurd ?_ (ended block there)
    rw [List.getElem?_map] at there
    obtain ⟨height, found, rfl⟩ := Option.map_eq_some_iff.mp there
    obtain ⟨_, rfl⟩ := List.getElem?_eq_some_iff.mp found
    rw [canonical.heights, List.getElem_range', Nat.one_mul]
    unfold nextHeight
    rw [List.length_append, Nat.add_assoc]

/-- Heights that no block lies between cut the same. -/
theorem upTo_congr {one other : ℤ}
    (same : ∀ block ∈ blocks, (block.height : ℤ) ≤ one ↔ (block.height : ℤ) ≤ other) :
    upTo one blocks = upTo other blocks := by
  induction blocks with
  | nil => rfl
  | cons block later inductionHypothesis =>
    have here : decide ((block.height : ℤ) ≤ one) = decide ((block.height : ℤ) ≤ other) :=
      decide_eq_decide.mpr (same block List.mem_cons_self)
    have rest := inductionHypothesis fun block member => same block (List.mem_cons_of_mem _ member)
    unfold upTo at rest ⊢
    rw [List.takeWhile_cons, List.takeWhile_cons, here, rest]

/-- No fork is seen at the head where the stored blocks are aligned. -/
theorem not_tipForks_of_aligned (serves : ServesChain chain head node)
    (aligned : Aligned chain head blocks) {last : ChainBlock runtime.codec}
    (found : blocks.getLast? = some last) (reached : head.height ≤ last.height) :
    ¬ TipForks node head blocks last := by
  rintro ⟨id, ours, known, _, there, other⟩
  obtain ⟨member, height⟩ := blockAt_eq_some there
  have bound := aligned.within last (List.mem_of_getLast? found)
  have isOf := aligned.isOf ours member
  unfold IsOf at isOf
  rcases known with ⟨_, rfl⟩ | ⟨apart, _⟩
  · rw [serves.named, ← height] at other
    exact other (congrArg ChainBlock.id isOf)
  · omega

/-- The first block of a response extends aligned blocks. -/
theorem not_departs_of_aligned (canonical : Canonical chain) (serves : ServesChain chain head node)
    (linked : Linked options.first blocks) (aligned : Aligned chain head blocks)
    {served : List (ChainBlock runtime.codec)} (asked : Asked options node head blocks served)
    (below : Below head blocks) {block : ChainBlock runtime.codec}
    (next : served[0]? = some block) : ¬ Departs blocks block := by
  rintro ⟨last, found, _, other⟩
  have low := below last found
  have above := height_getLast linked found
  obtain ⟨later, rfl⟩ := asked_cons serves asked (by omega)
  rw [List.getElem?_cons_zero] at next
  cases next
  have isOf := aligned.isOf last (List.mem_of_getLast? found)
  unfold IsOf at isOf
  rw [← above, canonical.links] at other
  exact other (congrArg ChainBlock.id isOf)

/-- A response that is taken whole leaves blocks of the chain. -/
theorem isOf_of_extended (canonical : Canonical chain) (serves : ServesChain chain head node)
    (linked : Linked options.first blocks)
    (determined : ∀ block ∈ blocks, Determined chain block)
    {served more : List (ChainBlock runtime.codec)} (below : Below head blocks)
    (asked : Asked options node head blocks served) (taken : more <+: served)
    (longer : Linked options.first (blocks ++ more))
    (whole : more = (List.range' (nextHeight options blocks)
      (nextCount options head blocks)).map chain) :
    ∀ block ∈ blocks ++ more, IsOf chain block := by
  intro block member
  rcases List.mem_append.mp member with old | new
  · cases found : blocks.getLast? with
    | none =>
      rw [List.getLast?_eq_none_iff.mp found] at old
      cases old
    | some last =>
      have low := below last found
      have above := height_getLast linked found
      have batch : 1 ≤ options.batch := Nat.le_max_left _ _
      obtain ⟨count, same⟩ : ∃ count, nextCount options head blocks = count + 1 := by
        unfold nextCount
        exact ⟨_, (Nat.succ_pred_eq_of_pos (by omega)).symm⟩
      rw [same, List.range'_succ, List.map_cons] at whole
      rw [whole] at taken longer
      have isOf := isOf_last_of_extended canonical serves linked determined found asked low taken
        longer
      have bound := (height_of_mem_linked linked old).2
      unfold nextHeight at above
      exact isOf_below canonical linked determined (List.mem_of_getLast? found) isOf old (by omega)
  · rw [whole] at new
    exact isOf_of_mem canonical new

/-- What a step comes to where it does not fail: it has caught up, or leaves aligned blocks, more of
them if those before it were aligned. -/
def Proceeds (options : SyncOptions) (chain : ℕ → ChainBlock runtime.codec) (head : ChainHead)
    (blocks others : List (ChainBlock runtime.codec)) (result : SyncResult) : Prop :=
  (result.caughtUp = true ∧ ∃ more,
      others = canonicalBlocks chain options.first head.height ++ more ∧
      ((∀ block ∈ blocks, block.height ≤ head.height) → more = [])) ∨
    (result.caughtUp = false ∧ result.stalled = false ∧ Aligned chain head others ∧
      (Aligned chain head blocks → nextHeight options blocks < nextHeight options others ∧
        nextHeight options others ≤ head.height))

theorem proceeds_of_moved (canonical : Canonical chain) (serves : ServesChain chain head node)
    (linked : Linked options.first blocks) (kept : Linked options.first others)
    (determined : ∀ block ∈ blocks, Determined chain block) {calm : Prop} {result : SyncResult}
    (moves : Moves options node head blocks calm (.ok result) others) :
    Proceeds options chain head blocks others result := by
  cases moves with
  | settled last found level same =>
    refine .inl ⟨rfl, [], ?_, fun _ => rfl⟩
    have whole := upTo_head canonical serves linked determined found level.ge
      (fun apart => absurd level apart) same
    rw [List.append_nil, ← whole]
    have all : ∀ block ∈ blocks, decide ((block.height : ℤ) ≤ head.height) = true := by
      intro block member
      have bound := (height_of_mem_linked linked member).2
      have tall := height_getLast linked found
      unfold nextHeight at tall
      exact decide_eq_true (by omega)
    exact (List.takeWhile_eq_self_iff.mpr all).symm
  | tolerated last found higher same answered =>
    have whole := upTo_head canonical serves linked determined found higher.le
      (fun _ => answered) same
    obtain ⟨dropped, split, _⟩ := upTo_split linked (head.height : ℤ)
    rw [whole] at split
    refine .inl ⟨rfl, dropped, split, fun within => ?_⟩
    have top := within last (List.mem_of_getLast? found)
    omega
  | truncated last found higher same answered =>
    refine .inl ⟨rfl, [], ?_, fun _ => rfl⟩
    have whole := upTo_head canonical serves linked determined found higher.le
      (fun _ => answered) same
    rw [List.append_nil, ← whole]
    have bottom := floor_eq options
    refine upTo_congr fun block member => ?_
    have bound := (height_of_mem_linked linked member).1
    omega
  | receded last found reached fork agrees =>
    refine .inr ⟨rfl, rfl, aligned_upTo canonical serves linked determined found (Nat.le_refl _)
      (by omega) agrees, fun aligned => ?_⟩
    exact absurd fork (not_tipForks_of_aligned serves aligned found reached)
  | extended served more below asked taken longer ended =>
    have whole := taken_whole canonical serves asked taken ended
    have isOf := isOf_of_extended canonical serves linked determined below asked taken longer whole
    have next : nextHeight options (blocks ++ more) =
        nextHeight options blocks + nextCount options head blocks := by
      rw [whole]
      unfold nextHeight
      rw [List.length_append, List.length_map, List.length_range', Nat.add_assoc]
    have batch : 1 ≤ options.batch := Nat.le_max_left _ _
    have within : nextHeight options blocks ≤ head.height + 1 ∨
        blocks = [] ∧ head.height < options.first := by
      cases found : blocks.getLast? with
      | none =>
        have empty := List.getLast?_eq_none_iff.mp found
        rw [empty]
        unfold nextHeight
        rw [List.length_nil]
        by_cases low : head.height < options.first
        · exact .inr ⟨rfl, low⟩
        · exact .inl (by omega)
      | some last =>
        have low := below last found
        have above := height_getLast linked found
        exact .inl (by omega)
    have count : nextCount options head blocks =
        min options.batch (head.height + 1 - nextHeight options blocks) := rfl
    by_cases passed : head.height < nextHeight options (blocks ++ more)
    · refine .inl ⟨decide_eq_true passed, [], ?_, fun _ => rfl⟩
      rw [List.append_nil]
      refine eq_canonicalBlocks canonical kept isOf ?_
      rcases within with within | ⟨rfl, low⟩
      · exact .inl (by omega)
      · refine .inr ⟨?_, low⟩
        have none_more : nextCount options head ([] : List (ChainBlock runtime.codec)) = 0 := by
          rw [count]
          unfold nextHeight
          rw [List.length_nil]
          omega
        rw [whole, none_more]
        rfl
    · have positive : more.length ≠ 0 := by
        rw [whole, List.length_map, List.length_range', count]
        omega
      refine .inr ⟨decide_eq_false passed, ?_, ⟨isOf, fun block member => ?_⟩, fun _ => ?_⟩
      · show (!decide (head.height < nextHeight options (blocks ++ more)) && more.length == 0) =
          false
        rw [decide_eq_false passed, beq_false_of_ne positive]
        rfl
      · have bound := (height_of_mem_linked kept member).2
        unfold nextHeight at passed
        omega
      · omega
  | forked served more block last below asked taken longer next height departs found agrees =>
    have nothing := departs_first canonical serves asked taken longer next departs
    subst nothing
    rw [List.append_nil] at height found agrees departs ⊢
    have low := below last found
    have above := height_getLast linked found
    refine .inr ⟨rfl, rfl, aligned_upTo canonical serves linked determined found (by omega)
      (by omega) agrees, fun aligned => ?_⟩
    exact absurd departs (not_departs_of_aligned canonical serves linked aligned asked below next)

/-! ### The loop -/

/-- A step that finds no violation proceeds. -/
theorem leads_step_proceeds {syncer : Syncer} (canonical : Canonical chain)
    (serves : ServesChain chain head node) (introduces : Introduces options node head)
    (undisturbed : Undisturbed syncer) (stored : Stores options blocks syncer)
    (determined : ∀ block ∈ blocks, Determined chain block)
    (settled : ¬ Violated options chain head blocks) :
    Leads (step runtime options node) syncer fun result after => Undisturbed after ∧
      ∃ others done, result = .ok done ∧ Stores options others after ∧
        Proceeds options chain head blocks others done := by
  obtain ⟨others, steps⟩ := leads_step node stored
  have exact_ := step_fails_iff canonical serves introduces undisturbed stored determined
  refine ⟨steps.calm undisturbed, others, ?_⟩
  cases answered : (step runtime options node syncer).1 with
  | error failure => exact absurd (exact_.1.mp ⟨failure, answered⟩) settled
  | ok done =>
    refine ⟨done, rfl, steps.stored, ?_⟩
    rcases steps.moved with ⟨known, told, moves⟩ | ⟨-, failure, failed, _⟩
    · cases serves.reported.symm.trans told
      rw [answered] at moves
      exact proceeds_of_moved canonical serves stored.linked steps.stored.linked determined moves
    · rw [answered] at failed
      cases failed

/-- Aligned blocks violate nothing. -/
theorem not_violated_of_aligned (aligned : Aligned chain head blocks) :
    ¬ Violated options chain head blocks := by
  rintro ⟨_, _, block, there, off⟩
  exact off (aligned.isOf block (blockAt_eq_some there).1)

section Loop

variable (nodes : ℕ → Node runtime.codec)

/-- What the loop ends with: it has caught up, and the chain is stored up to the head. -/
def Reached (options : SyncOptions) (chain : ℕ → ChainBlock runtime.codec) (head : ChainHead)
    (level : Prop) (result : Except Failure SyncResult) (after : Syncer) : Prop :=
  ∃ done more, result = .ok done ∧ done.caughtUp = true ∧
    Stores options (canonicalBlocks chain options.first head.height ++ more) after ∧
    (level → more = [])

/-- From aligned blocks, the loop ends within as many rounds as blocks are missing, and one. -/
theorem leads_syncToHead_aligned (canonical : Canonical chain)
    (serves : ∀ round, ServesChain chain head (nodes round))
    (introduces : ∀ round, Introduces options (nodes round) head) (rounds : ℕ) :
    ∀ (round : ℕ) (before : SyncResult) (blocks : List (ChainBlock runtime.codec))
      (syncer : Syncer), Undisturbed syncer → Stores options blocks syncer →
        Aligned chain head blocks → head.height + 1 - nextHeight options blocks < rounds →
          Leads (syncToHead runtime options nodes rounds round before) syncer
            (Reached options chain head True) := by
  induction rounds with
  | zero =>
    intro round before blocks syncer _ _ _ enough
    omega
  | succ rounds inductionHypothesis =>
    intro round before blocks syncer undisturbed stored aligned enough
    unfold syncToHead
    refine .seq (leads_step_proceeds canonical (serves round) (introduces round) undisturbed stored
      (fun block member _ => aligned.isOf block member) (not_violated_of_aligned aligned)) ?_ ?_
    · rintro failure after ⟨_, _, _, impossible, _⟩
      cases impossible
    · rintro done after ⟨quiet, others, _, same, kept, proceeds⟩
      cases same
      dsimp only
      rcases proceeds with ⟨caughtUp, more, whole, nothing⟩ | ⟨behind, moving, next, farther⟩
      · rw [caughtUp, Bool.true_or, if_pos rfl]
        rw [whole] at kept
        exact .ret ⟨_, more, rfl, rfl, kept, fun _ => nothing aligned.within⟩
      · rw [behind, moving, Bool.false_or, if_neg Bool.false_ne_true]
        obtain ⟨more, within⟩ := farther aligned
        exact inductionHypothesis (round + 1) _ others after quiet kept next (by omega)

end Loop

/-- From every state that polls reach and without a violation, the undisturbed loop against nodes
that serve one whole chain catches up, and leaves the database of that chain up to the head; only
blocks above the head may remain, if some were stored. -/
theorem sync_converges (runtime : Runtime) (options : SyncOptions)
    (chain : ℕ → ChainBlock runtime.codec) (canonical : Canonical chain) (plans : List Plan)
    (polls : List (Poll runtime)) (head : ChainHead) (nodes : ℕ → Node runtime.codec)
    (serves : ∀ round, ServesChain chain head (nodes round))
    (introduces : ∀ round, Introduces options (nodes round) head)
    (determined : ∀ other, Poll.step other ∈ polls → ∀ block, Served other block →
      Determined chain block)
    (undisturbed : Undisturbed (syncerAfter runtime options plans polls))
    (settled : ∀ tip row, (syncerAfter runtime options plans polls).db.lastCheckpoint = some tip →
      (syncerAfter runtime options plans polls).db.checkpointAt
        (settledHeight options head tip.height).toNat = some row →
      row.blockId = (chain row.height).id)
    (rounds : ℕ) (enough : head.height + 2 ≤ rounds) :
    ∃ done more, (syncToHead runtime options nodes rounds 0 { applied := 0, caughtUp := false }
        (syncerAfter runtime options plans polls)).1 = .ok done ∧ done.caughtUp = true ∧
      (syncToHead runtime options nodes rounds 0 { applied := 0, caughtUp := false }
        (syncerAfter runtime options plans polls)).2.db =
          databaseOf runtime (canonicalBlocks chain options.first head.height ++ more) ∧
      ((∀ tip, (syncerAfter runtime options plans polls).db.lastCheckpoint = some tip →
        tip.height ≤ head.height) → more = []) := by
  obtain ⟨blocks, stored, served⟩ := @stores_syncerAfter runtime options plans polls
  have each : ∀ block ∈ blocks, Determined chain block := by
    intro block member
    obtain ⟨other, polled, from_⟩ := served block member
    exact determined other polled block from_
  have fine : ¬ Violated options chain head blocks := by
    rw [violated_iff stored each]
    rintro ⟨tip, row, shown, at_, off⟩
    exact off (settled tip row shown at_)
  have tips := lastCheckpoint_map stored
  have within : (∀ tip, (syncerAfter runtime options plans polls).db.lastCheckpoint = some tip →
      tip.height ≤ head.height) → ∀ block ∈ blocks, block.height ≤ head.height := by
    intro level block member
    cases found : blocks.getLast? with
    | none =>
      rw [List.getLast?_eq_none_iff.mp found] at member
      cases member
    | some last =>
      rw [found] at tips
      obtain ⟨tip, shown, same⟩ := Option.map_eq_some_iff.mp tips
      have low := level tip shown
      have tall := height_getLast stored.linked found
      have bound := (height_of_mem_linked stored.linked member).2
      unfold nextHeight at tall
      omega
  have whole : Leads (syncToHead runtime options nodes rounds 0 { applied := 0, caughtUp := false })
      (syncerAfter runtime options plans polls)
      (Reached options chain head (∀ block ∈ blocks, block.height ≤ head.height)) := by
    obtain ⟨later, rfl⟩ : ∃ later, rounds = later + 1 :=
      ⟨rounds - 1, (Nat.succ_pred_eq_of_pos (by omega)).symm⟩
    unfold syncToHead
    refine .seq (leads_step_proceeds canonical (serves 0) (introduces 0) undisturbed stored each
      fine) ?_ ?_
    · rintro failure after ⟨_, _, _, impossible, _⟩
      cases impossible
    · rintro done after ⟨quiet, others, _, same, kept, proceeds⟩
      cases same
      dsimp only
      rcases proceeds with ⟨caughtUp, more, shape, nothing⟩ | ⟨behind, moving, next, _⟩
      · rw [caughtUp, Bool.true_or, if_pos rfl]
        rw [shape] at kept
        exact .ret ⟨_, more, rfl, rfl, kept, nothing⟩
      · rw [behind, moving, Bool.false_or, if_neg Bool.false_ne_true]
        have positive := first_positive options
        refine (leads_syncToHead_aligned nodes canonical serves introduces later 1 _ others after
          quiet kept next (by unfold nextHeight; omega)).weaken fun result final reached => ?_
        obtain ⟨done, more, ended, caughtUp, stores, nothing⟩ := reached
        exact ⟨done, more, ended, caughtUp, stores, fun _ => nothing trivial⟩
  obtain ⟨done, more, ended, caughtUp, stores, nothing⟩ := whole
  exact ⟨done, more, ended, caughtUp, stores.filled, fun level => nothing (within level)⟩

/-- From a fork at height 2, the loop rolls back and catches up. -/
theorem sync_converges_fork :
    ∃ done, (syncToHead silentRuntime plainOptions (fun _ => chainNode 3 1) 5 0
        { applied := 0, caughtUp := false }
        (syncerAfter silentRuntime plainOptions [] [.step forkedNode])).1 = .ok done ∧
      (syncToHead silentRuntime plainOptions (fun _ => chainNode 3 1) 5 0
        { applied := 0, caughtUp := false }
        (syncerAfter silentRuntime plainOptions [] [.step forkedNode])).2.db =
          databaseOf silentRuntime (canonicalBlocks emptyChain 1 3) := by
  have last : (syncerAfter silentRuntime plainOptions [] [.step forkedNode]).db.lastCheckpoint =
      some ⟨2, idOf 'f' 2, idOf 'b' 1, 0, "00", 0⟩ := by decide +kernel
  have settled : (syncerAfter silentRuntime plainOptions [] [.step forkedNode]).db.checkpointAt
      (settledHeight plainOptions ⟨3, idOf 'b' 3, some 1, 0⟩ 2).toNat =
        some ⟨1, idOf 'b' 1, idOf 'b' 0, 0, "00", 0⟩ := by decide +kernel
  obtain ⟨done, more, answered, _, filled, nothing⟩ := sync_converges silentRuntime plainOptions
    emptyChain emptyChain_canonical [] [.step forkedNode] ⟨3, idOf 'b' 3, some 1, 0⟩
    (fun _ => chainNode 3 1) (fun _ => chainNode_serves 3 1) (fun _ => chainNode_introduces 3 1)
    (fun other polled block served => by
      cases List.mem_singleton.mp polled
      exact forkedNode_determined block served)
    (List.isEmpty_iff.mp (by decide +kernel))
    (fun tip row shown stored => by
      cases last.symm.trans shown
      cases settled.symm.trans stored
      decide +kernel) 5 (by decide)
  have none_more : more = [] := nothing fun tip shown => by
    cases last.symm.trans shown
    decide
  rw [none_more, List.append_nil] at filled
  exact ⟨done, answered, filled⟩

end OpenSocial.Indexer

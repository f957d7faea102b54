/-
This file proves that the sync loop follows the chain of its node.

After any history of forks, failures and restarts, a step that has caught up with a
node of one fixed chain leaves the database of that chain up to the head, and the loop
gets there: if no block at or below the final height has left the chain, it rolls back
at most once and then only adds blocks.
-/

import OpenSocial.Indexer.Following

namespace OpenSocial.Indexer

open Library Library.Script Library.Stateful

/-! ### Runs -/

/-- A step against a node, or a new process on the same database. -/
inductive Poll (runtime : Runtime) where
  | step (node : Node runtime.codec)
  | restart

section Runs

variable (runtime : Runtime) (options : SyncOptions)

def poll (syncer : Syncer) : Poll runtime → Syncer
  | .step node => (step runtime options node syncer).2
  | .restart => { db := syncer.db, plans := syncer.plans }

/-- The syncer after a list of polls, from an empty database. -/
def syncerAfter (plans : List Plan) (polls : List (Poll runtime)) : Syncer :=
  polls.foldl (poll runtime options) { db := .empty, plans := plans }

variable {runtime options} {node : Node runtime.codec}

/-- A node served a block. -/
def Served {codec : EventCodec} (node : Node codec) (block : ChainBlock codec) : Prop :=
  ∃ fromHeight count headId served,
    node.getBlocks fromHeight count headId = .ok served ∧ block ∈ served

/-- A step stores nothing but what was stored before and what the node served. -/
theorem Moves.served {head : ChainHead} {blocks others : List (ChainBlock runtime.codec)}
    {calm : Prop} {result : Except Failure SyncResult}
    (moves : Moves options node head blocks calm result others) :
    ∀ block ∈ others, block ∈ blocks ∨ Served node block := by
  have kept : ∀ {whole : List (ChainBlock runtime.codec)} {height : ℤ} {block},
      block ∈ upTo height whole → block ∈ whole :=
    fun member => (upTo_begins _ _).subset member
  have added : ∀ {served more : List (ChainBlock runtime.codec)} {block},
      Asked options node head blocks served → more <+: served → block ∈ blocks ++ more →
        block ∈ blocks ∨ Served node block := by
    intro served more block asked taken member
    exact (List.mem_append.mp member).imp_right
      fun new => ⟨_, _, _, served, asked, taken.subset new⟩
  intro block member
  cases moves with
  | settled => exact .inl member
  | tolerated => exact .inl member
  | truncated => exact .inl (kept member)
  | receded => exact .inl (kept member)
  | extended served more below asked taken => exact added asked taken member
  | forked served more other last below asked taken => exact added asked taken (kept member)
  | failed failure more taken =>
    rcases taken with rfl | ⟨served, asked, taken⟩
    · rw [List.append_nil] at member
      exact .inl member
    · exact added asked taken member

/-- Whatever was polled, linked blocks are stored, each of which some node served. -/
theorem stores_syncerAfter (plans : List Plan) (polls : List (Poll runtime)) :
    ∃ blocks, Stores options blocks (syncerAfter runtime options plans polls) ∧
      ∀ block ∈ blocks, ∃ node, Poll.step node ∈ polls ∧ Served node block := by
  induction polls using List.reverseRecOn with
  | nil => exact ⟨[], ⟨linked_nil, rfl⟩, fun block absent => absurd absent List.not_mem_nil⟩
  | append_singleton polls last inductionHypothesis =>
    obtain ⟨blocks, stored, served⟩ := inductionHypothesis
    have before : ∀ block ∈ blocks, ∃ node, Poll.step node ∈ polls ++ [last] ∧ Served node block :=
      fun block member => (served block member).imp
        fun node found => ⟨List.mem_append_left _ found.1, found.2⟩
    rw [syncerAfter, List.foldl_append, List.foldl_cons, List.foldl_nil, ← syncerAfter]
    cases last with
    | restart => exact ⟨blocks, stored.of_db rfl, before⟩
    | step node =>
      obtain ⟨others, steps⟩ := leads_step node stored
      refine ⟨others, steps.stored, fun block member => ?_⟩
      rcases steps.moved with ⟨head, _, moves⟩ | ⟨rfl, _⟩
      · rcases moves.served block member with old | new
        · exact before block old
        · exact ⟨node, List.mem_append_right _ List.mem_cons_self, new⟩
      · exact before block member

end Runs

/-! ### One chain -/

section Canonical

variable {codec : EventCodec} (chain : ℕ → ChainBlock codec)

/-- A block for every height, each naming the one below it. -/
structure Canonical : Prop where
  heights : ∀ height, (chain height).height = height
  links : ∀ height, (chain (height + 1)).previous = (chain height).id

/-- The blocks of the chain from a height to another. -/
def canonicalBlocks (first head : ℕ) : List (ChainBlock codec) :=
  (List.range' first (head + 1 - first)).map chain

/-- If a block has the id of the block of the chain at its height, it is that block. -/
def Determined (block : ChainBlock codec) : Prop :=
  block.id = (chain block.height).id → block = chain block.height

/-- What the node reports and serves is of the chain, and it serves its head. -/
structure OnChain (node : Node codec) : Prop where
  head : ∀ head, node.head = .ok head → head.id = (chain head.height).id
  blocks : ∀ block, Served node block → block = chain block.height
  tip : ∀ head served, node.head = .ok head → node.getBlocks head.height 1 head.id = .ok served →
    served = [chain head.height]

variable {chain}

theorem id_ne_empty (block : ChainBlock codec) : block.id ≠ "" := block.identified

/-- Below a block of the chain, linked blocks are those of the chain. -/
theorem canonical_of_last (canonical : Canonical chain) {first : ℕ}
    {blocks : List (ChainBlock codec)} (linked : Linked first blocks)
    (determined : ∀ block ∈ blocks, Determined chain block)
    (top : ∀ last, blocks.getLast? = some last → last = chain last.height) :
    blocks = (List.range' first blocks.length).map chain := by
  induction blocks using List.reverseRecOn with
  | nil => rfl
  | append_singleton blocks block inductionHypothesis =>
    obtain ⟨before, starts, extends_⟩ := linked_concat.mp linked
    have isCanonical : block = chain block.height := top block List.getLast?_concat
    have lower := inductionHypothesis before
      (fun other member => determined other (List.mem_append_left _ member)) ?_
    · have height : block.height = first + blocks.length := by
        cases last : blocks.getLast? with
        | none =>
          rw [List.getLast?_eq_none_iff] at last
          rw [starts last, last]
          rfl
        | some below =>
          have heights := map_height_of_linked linked
          rw [List.map_append, List.length_append, List.length_singleton, List.range'_concat,
            Nat.one_mul] at heights
          have lastHeight := List.append_inj_right' heights rfl
          exact List.singleton_inj.mp lastHeight
      rw [List.length_append, List.length_singleton, List.range'_concat, Nat.one_mul,
        List.map_append, List.map_singleton, ← lower, ← height, ← isCanonical]
    · intro last found
      obtain ⟨above, names⟩ := extends_ last found
      have previous : block.previous = (chain last.height).id := by
        rw [isCanonical, above]
        exact canonical.links last.height
      have named : block.previous ≠ "" := by
        rw [previous]
        exact id_ne_empty _
      have same : last.id = (chain last.height).id := (names named).symm.trans previous
      have member := List.mem_append_left [block] (List.mem_of_getLast? found)
      exact determined last member same

end Canonical

/-! ### Confluence -/

section Confluence

variable {runtime : Runtime} {options : SyncOptions} {node : Node runtime.codec}
variable {chain : ℕ → ChainBlock runtime.codec} {head : ChainHead}
variable {blocks others : List (ChainBlock runtime.codec)}

/-- A stored block at the head height that the node does not gainsay is of the chain. -/
theorem canonical_at_head (named : head.id = (chain head.height).id)
    (tip : ∀ served, node.getBlocks head.height 1 head.id = .ok served →
      served = [chain head.height]) {last : ChainBlock runtime.codec}
    (answered : last.height ≠ head.height →
      ∃ served, node.getBlocks head.height 1 head.id = .ok served)
    (same : ¬ TipForks node head blocks last) {block : ChainBlock runtime.codec}
    (found : blockAt blocks head.height = some block) (determined : Determined chain block) :
    block = chain head.height := by
  have height := (blockAt_eq_some found).2
  rw [← height]
  refine determined ?_
  rw [height]
  by_contra other
  refine same ⟨(chain head.height).id, block, ?_, id_ne_empty _, found, other⟩
  by_cases level : last.height = head.height
  · exact .inl ⟨level, named.symm⟩
  · obtain ⟨served, given⟩ := answered level
    rw [tip served given] at given
    exact .inr ⟨level, _, _, given, rfl, rfl⟩

/-- Where a step has caught up and the stored tip is at the head, the tip is the head block. -/
theorem tip_canonical (onChain : OnChain chain node) (reported : node.head = .ok head)
    (linked : Linked options.first blocks)
    (determined : ∀ block ∈ others, Determined chain block) {calm : Prop} {result : SyncResult}
    (moves : Moves options node head blocks calm (.ok result) others)
    (caughtUp : result.caughtUp = true) {tip : ChainBlock runtime.codec}
    (found : others.getLast? = some tip) (level : tip.height = head.height) :
    tip = chain tip.height := by
  have member := List.mem_of_getLast? found
  have named := onChain.head head reported
  have serves : ∀ served, node.getBlocks head.height 1 head.id = .ok served →
      served = [chain head.height] := fun served => onChain.tip head served reported
  rw [level]
  cases moves with
  | settled last there _ same =>
    refine canonical_at_head named serves (fun apart => ?_) same ?_ (determined tip member)
    · cases there.symm.trans found
      exact absurd level apart
    · rw [← level]
      exact blockAt_of_mem linked member
  | tolerated last there higher =>
    cases there.symm.trans found
    omega
  | truncated last there higher same answered =>
    have inside := (upTo_begins _ _).subset member
    refine canonical_at_head named serves (fun _ => answered) same ?_ (determined tip member)
    rw [← level]
    exact blockAt_of_mem linked inside
  | receded => cases caughtUp
  | forked => cases caughtUp
  | extended served more below asked taken longer =>
    have passed : head.height < nextHeight options (blocks ++ more) := of_decide_eq_true caughtUp
    rcases List.eq_nil_or_concat' more with rfl | ⟨front, last, rfl⟩
    · rw [List.append_nil] at found
      have under := below tip found
      omega
    · rw [← List.append_assoc, List.getLast?_concat] at found
      cases found
      have served : Served node tip :=
        ⟨_, _, _, _, asked, taken.subset (List.mem_append_right _ List.mem_cons_self)⟩
      rw [← level]
      exact onChain.blocks tip served

end Confluence

/-! ### Nodes that serve their whole chain -/

section Serving

variable {runtime : Runtime} {options : SyncOptions} {node : Node runtime.codec}
variable {chain : ℕ → ChainBlock runtime.codec} {head : ChainHead}
variable {blocks others : List (ChainBlock runtime.codec)}

theorem mem_upTo (linked : Linked options.first blocks) {height : ℤ}
    {block : ChainBlock runtime.codec} :
    block ∈ upTo height blocks ↔ block ∈ blocks ∧ (block.height : ℤ) ≤ height := by
  constructor
  · intro member
    exact ⟨(upTo_begins _ _).subset member, height_le_of_mem_upTo member⟩
  · rintro ⟨member, low⟩
    obtain ⟨dropped, split, above⟩ := upTo_split linked height
    rw [split] at member
    rcases List.mem_append.mp member with kept | lost
    · exact kept
    · have high := above block lost
      omega

/-- A block is of the chain. -/
def IsOf (chain : ℕ → ChainBlock runtime.codec) (block : ChainBlock runtime.codec) : Prop :=
  block = chain block.height

theorem isOf_of_mem (canonical : Canonical chain) {first count : ℕ}
    {block : ChainBlock runtime.codec}
    (member : block ∈ (List.range' first count).map chain) : IsOf chain block := by
  obtain ⟨height, _, rfl⟩ := List.mem_map.mp member
  unfold IsOf
  rw [canonical.heights]

/-- Below a stored block of the chain, the stored blocks are of the chain. -/
theorem isOf_below (canonical : Canonical chain) (linked : Linked options.first blocks)
    (determined : ∀ block ∈ blocks, Determined chain block) {block other : ChainBlock runtime.codec}
    (member : block ∈ blocks) (isOf : IsOf chain block) (inside : other ∈ blocks)
    (below : other.height ≤ block.height) : IsOf chain other := by
  have lower : Linked options.first (upTo block.height blocks) :=
    linked_of_prefix linked (upTo_begins _ _)
  have kept : block ∈ upTo block.height blocks := (mem_upTo linked).mpr ⟨member, le_refl _⟩
  have whole := canonical_of_last canonical lower
    (fun one found => determined one ((mem_upTo linked).mp found).1) fun last found => by
      have there := List.mem_of_getLast? found
      obtain ⟨among, low⟩ := (mem_upTo linked).mp there
      have top := height_getLast lower found
      have bound := (height_of_mem_linked lower kept).2
      unfold nextHeight at top
      have level : last.height = block.height := by omega
      rw [eq_of_height linked among member level]
      exact isOf
  have found : other ∈ upTo block.height blocks :=
    (mem_upTo linked).mpr ⟨inside, Int.ofNat_le.mpr below⟩
  rw [whole] at found
  exact isOf_of_mem canonical found

/-- The node reports a head of the chain and serves every block up to it. -/
structure ServesChain (chain : ℕ → ChainBlock runtime.codec) (head : ChainHead)
    (node : Node runtime.codec) : Prop where
  reported : node.head = .ok head
  named : head.id = (chain head.height).id
  served : ∀ fromHeight count, node.getBlocks fromHeight count head.id =
    .ok ((List.range' fromHeight (min count (head.height + 1 - fromHeight))).map chain)

theorem ServesChain.tip (serves : ServesChain chain head node) :
    ∀ served, node.getBlocks head.height 1 head.id = .ok served → served = [chain head.height] := by
  intro served answered
  rw [serves.served] at answered
  cases answered
  have one : min 1 (head.height + 1 - head.height) = 1 := by omega
  rw [one]
  rfl

theorem ServesChain.all (serves : ServesChain chain head node) : ServesAll node head :=
  fun fromHeight count => ⟨_, serves.served fromHeight count⟩

/-- The node serves the stored block at a height up to its head exactly if it is of the chain. -/
theorem agrees_iff (serves : ServesChain chain head node)
    (determined : ∀ block ∈ blocks, Determined chain block) {target : ℤ}
    (within : target ≤ head.height) :
    Agrees node head blocks target ↔
      ∀ block, blockAt blocks target.toNat = some block → IsOf chain block := by
  have one : min 1 (head.height + 1 - target.toNat) = 1 := by omega
  have there := serves.served target.toNat 1
  rw [one, List.range'_one, List.map_singleton] at there
  constructor
  · intro agrees block found
    obtain ⟨member, height⟩ := blockAt_eq_some found
    obtain ⟨served, answered, same⟩ := agrees block found
    rw [there] at answered
    cases answered
    refine determined block member ?_
    rw [height]
    exact (Option.some.inj same).symm
  · intro isOf block found
    have height := (blockAt_eq_some found).2
    refine ⟨_, there, ?_⟩
    have same := isOf block found
    unfold IsOf at same
    rw [height] at same
    rw [same]
    rfl

/-- The response to the request for the next blocks begins with the block above the stored ones. -/
theorem asked_cons (serves : ServesChain chain head node)
    {served : List (ChainBlock runtime.codec)} (asked : Asked options node head blocks served)
    (room : nextHeight options blocks ≤ head.height) :
    ∃ later, served = chain (nextHeight options blocks) :: later := by
  unfold Asked at asked
  rw [serves.served] at asked
  cases asked
  have batch : 1 ≤ options.batch := Nat.le_max_left _ _
  obtain ⟨count, same⟩ : ∃ count, min (min options.batch (head.height + 1 -
      nextHeight options blocks)) (head.height + 1 - nextHeight options blocks) = count + 1 :=
    ⟨_, (Nat.succ_pred_eq_of_pos (by omega)).symm⟩
  rw [same, List.range'_succ, List.map_cons]
  exact ⟨_, rfl⟩

/-- The highest stored height that must not have left the chain: it is final, below the head, and
not above the tip. -/
def settledHeight (options : SyncOptions) (head : ChainHead) (tip : ℕ) : ℤ :=
  min (finalHeight options head) (min (head.height - 1) tip)

/-- The stored block at the settled height has left the chain. -/
def Violated (options : SyncOptions) (chain : ℕ → ChainBlock runtime.codec) (head : ChainHead)
    (blocks : List (ChainBlock runtime.codec)) : Prop :=
  ∃ last, blocks.getLast? = some last ∧ ∃ block,
    blockAt blocks (settledHeight options head last.height).toNat = some block ∧ ¬ IsOf chain block

/-- If a stored block at a rollback target is off the chain, the target is no floor. -/
theorem target_of_off (linked : Linked options.first blocks) {forkHeight : ℕ}
    {block : ChainBlock runtime.codec}
    (found : blockAt blocks (rollbackTarget options head forkHeight).toNat = some block) :
    rollbackTarget options head forkHeight = min (finalHeight options head) (forkHeight - 1) := by
  obtain ⟨member, height⟩ := blockAt_eq_some found
  have bound := (height_of_mem_linked linked member).1
  have bottom := floor_eq options
  have positive := first_positive options
  unfold rollbackTarget at height ⊢
  omega

section Violations

variable (canonical : Canonical chain) (serves : ServesChain chain head node)
variable (linked : Linked options.first blocks)
variable (determined : ∀ block ∈ blocks, Determined chain block)

include canonical serves linked determined

/-- Where the stored tip is not of the chain, the first block of the response departs from it. -/
theorem isOf_last_of_extended {served more : List (ChainBlock runtime.codec)}
    {last block : ChainBlock runtime.codec} (found : blocks.getLast? = some last)
    (asked : Asked options node head blocks served) (below : last.height < head.height)
    (taken : block :: more <+: served) (longer : Linked options.first (blocks ++ block :: more)) :
    IsOf chain last := by
  have next := height_getLast linked found
  obtain ⟨later, rfl⟩ := asked_cons serves asked (by omega)
  obtain ⟨rfl, -⟩ := List.cons_prefix_cons.mp taken
  have shorter : Linked options.first (blocks ++ [chain (nextHeight options blocks)]) := by
    refine linked_of_prefix longer ⟨more, ?_⟩
    rw [List.append_assoc, List.singleton_append]
  have extends_ := (linked_concat.mp shorter).2.2 last found
  have previous : (chain (nextHeight options blocks)).previous = (chain last.height).id := by
    rw [← next]
    exact canonical.links last.height
  have named : (chain (nextHeight options blocks)).previous ≠ "" := by
    rw [previous]
    exact id_ne_empty _
  exact determined last (List.mem_of_getLast? found) ((extends_.2 named).symm.trans previous)

omit linked determined in
/-- A departing block is the first of its response. -/
theorem departs_first {served more : List (ChainBlock runtime.codec)}
    {block : ChainBlock runtime.codec} (asked : Asked options node head blocks served)
    (taken : more <+: served) (longer : Linked options.first (blocks ++ more))
    (next : served[more.length]? = some block) (departs : Departs (blocks ++ more) block) :
    more = [] := by
  rcases List.eq_nil_or_concat' more with rfl | ⟨front, top, rfl⟩
  · rfl
  · obtain ⟨last, found, named, other⟩ := departs
    rw [← List.append_assoc, List.getLast?_concat] at found
    cases found
    unfold Asked at asked
    rw [serves.served] at asked
    cases asked
    obtain ⟨rest, same⟩ := taken
    have position : ∀ {index : ℕ} {item : ChainBlock runtime.codec},
        ((List.range' (nextHeight options blocks) (min (min options.batch
          (head.height + 1 - nextHeight options blocks))
          (head.height + 1 - nextHeight options blocks))).map chain)[index]? = some item →
        item = chain (nextHeight options blocks + index) := by
      intro index item there
      rw [List.getElem?_map] at there
      obtain ⟨height, found, rfl⟩ := Option.map_eq_some_iff.mp there
      obtain ⟨_, rfl⟩ := List.getElem?_eq_some_iff.mp found
      rw [List.getElem_range', Nat.one_mul]
    have blockIs := position next
    have topIs : top = chain (nextHeight options blocks + front.length) := by
      refine position ?_
      rw [← same, List.append_assoc, List.getElem?_append_right (Nat.le_refl _), Nat.sub_self]
      rfl
    refine absurd ?_ other
    rw [topIs, blockIs, List.length_append, List.length_singleton, ← Nat.add_assoc]
    exact (canonical.links _).symm

omit linked determined in
/-- A step that refuses has added nothing. -/
theorem nothing_of_refused {more : List (ChainBlock runtime.codec)}
    (refused : Refused options node head blocks more) : more = [] := by
  rcases refused with ⟨nothing, _⟩ | ⟨served, block, _, asked, taken, longer, next, _, departs, _⟩
  · exact nothing
  · exact departs_first canonical serves asked taken longer next departs

/-- A step that refuses found that a settled block has left the chain. -/
theorem violated_of_refused {more : List (ChainBlock runtime.codec)}
    (refused : Refused options node head blocks more) : Violated options chain head blocks := by
  rcases refused with ⟨_, last, found, reached, _, disagrees⟩ |
    ⟨served, block, below, asked, taken, longer, next, height, departs, disagrees⟩
  · have within : rollbackTarget options head head.height ≤ head.height := by
      by_contra high
      refine disagrees fun block there => ?_
      have target := target_of_off linked there
      omega
    rw [agrees_iff serves determined within] at disagrees
    obtain ⟨block, disagrees⟩ := not_forall.mp disagrees
    obtain ⟨there, off⟩ := Classical.not_imp.mp disagrees
    refine ⟨last, found, block, ?_, off⟩
    have target := target_of_off linked there
    have same : settledHeight options head last.height =
        rollbackTarget options head head.height := by
      unfold settledHeight
      omega
    rw [same]
    exact there
  · have nothing := departs_first canonical serves asked taken longer next departs
    subst nothing
    rw [List.append_nil] at height departs disagrees
    obtain ⟨last, found, _⟩ := departs
    have low := below last found
    have above := height_getLast linked found
    have within : rollbackTarget options head block.height ≤ head.height := by
      by_contra high
      refine disagrees fun block there => ?_
      have target := target_of_off linked there
      omega
    rw [agrees_iff serves determined within] at disagrees
    obtain ⟨off, disagrees⟩ := not_forall.mp disagrees
    obtain ⟨there, off'⟩ := Classical.not_imp.mp disagrees
    refine ⟨last, found, off, ?_, off'⟩
    have target := target_of_off linked there
    have same : settledHeight options head last.height =
        rollbackTarget options head block.height := by
      unfold settledHeight
      omega
    rw [same]
    exact there

omit serves in
/-- A stored block of the chain at or above the settled height excludes a violation. -/
theorem not_violated_of_isOf {last top : ChainBlock runtime.codec}
    (found : blocks.getLast? = some last) (member : top ∈ blocks) (isOf : IsOf chain top)
    (above : settledHeight options head last.height ≤ top.height) :
    ¬ Violated options chain head blocks := by
  rintro ⟨other, again, block, there, off⟩
  cases found.symm.trans again
  obtain ⟨inside, height⟩ := blockAt_eq_some there
  have positive := first_positive options
  have bound := (height_of_mem_linked linked inside).1
  exact off (isOf_below canonical linked determined member isOf inside (by omega))

/-- The block at the head height that the node does not gainsay excludes a violation. -/
theorem not_violated_at_head {last : ChainBlock runtime.codec}
    (found : blocks.getLast? = some last)
    (answered : last.height ≠ head.height →
      ∃ served, node.getBlocks head.height 1 head.id = .ok served)
    (reached : head.height ≤ last.height) (same : ¬ TipForks node head blocks last) :
    ¬ Violated options chain head blocks := by
  intro violated
  obtain ⟨other, again, block, there, off⟩ := violated
  cases found.symm.trans again
  obtain ⟨inside, height⟩ := blockAt_eq_some there
  have bounds := height_of_mem_linked linked inside
  have positive := first_positive options
  have low : settledHeight options head last.height ≤ head.height - 1 := by
    unfold settledHeight
    omega
  have tall := height_getLast linked found
  unfold nextHeight at tall
  have heights := map_height_of_linked linked
  have inRange : head.height ∈ blocks.map ChainBlock.height := by
    rw [heights]
    exact List.mem_range'_1.mpr ⟨by omega, by omega⟩
  obtain ⟨top, among, level⟩ := List.mem_map.mp inRange
  have sits : blockAt blocks head.height = some top := by
    rw [← level]
    exact blockAt_of_mem linked among
  have isCanonical := canonical_at_head serves.named serves.tip answered same sits
    (determined top among)
  have isOf : IsOf chain top := by
    unfold IsOf
    rw [level]
    exact isCanonical
  exact not_violated_of_isOf canonical linked determined found among isOf (by omega)
    ⟨last, found, block, there, off⟩

/-- A step that does not fail found no violation. -/
theorem not_violated_of_moved {calm : Prop} {result : SyncResult}
    (moves : Moves options node head blocks calm (.ok result) others) :
    ¬ Violated options chain head blocks := by
  cases moves with
  | settled last found level same =>
    exact not_violated_at_head canonical serves linked determined found
      (fun apart => absurd level apart) level.ge same
  | tolerated last found higher same answered =>
    exact not_violated_at_head canonical serves linked determined found (fun _ => answered)
      higher.le same
  | truncated last found higher same answered =>
    exact not_violated_at_head canonical serves linked determined found (fun _ => answered)
      higher.le same
  | receded last found reached fork agrees =>
    rintro ⟨other, again, block, there, off⟩
    cases found.symm.trans again
    have target : (settledHeight options head last.height).toNat =
        (rollbackTarget options head head.height).toNat := by
      obtain ⟨inside, height⟩ := blockAt_eq_some there
      have bound := (height_of_mem_linked linked inside).1
      have bottom := floor_eq options
      have positive := first_positive options
      unfold settledHeight at height ⊢
      unfold rollbackTarget
      omega
    have within : rollbackTarget options head head.height ≤ head.height := by
      obtain ⟨inside, height⟩ := blockAt_eq_some there
      have bound := (height_of_mem_linked linked inside).1
      have bottom := floor_eq options
      unfold settledHeight at height
      unfold rollbackTarget
      omega
    rw [target] at there
    exact off ((agrees_iff serves determined within).mp agrees block there)
  | extended served more below asked taken longer ended =>
    rintro ⟨last, found, violation⟩
    have low := below last found
    have next := height_getLast linked found
    obtain ⟨later, same⟩ := asked_cons serves asked (by omega)
    cases more with
    | nil =>
      rw [List.append_nil] at ended
      have there : served[0]? = some (chain (nextHeight options blocks)) := by rw [same]; rfl
      exact ended _ there (canonical.heights _)
    | cons block more =>
      have isOf := isOf_last_of_extended canonical serves linked determined found asked low taken
        longer
      refine not_violated_of_isOf canonical linked determined found
        (List.mem_of_getLast? found) isOf ?_ ⟨last, found, violation⟩
      unfold settledHeight
      omega
  | forked served more block last below asked taken longer next height departs found agrees =>
    have nothing := departs_first canonical serves asked taken longer next departs
    subst nothing
    rw [List.append_nil] at height found agrees
    rintro ⟨other, again, settled, there, off⟩
    cases found.symm.trans again
    have low := below last found
    have above := height_getLast linked found
    obtain ⟨inside, sits⟩ := blockAt_eq_some there
    have bound := (height_of_mem_linked linked inside).1
    have bottom := floor_eq options
    have positive := first_positive options
    have target : (settledHeight options head last.height).toNat =
        (rollbackTarget options head block.height).toNat := by
      unfold settledHeight at sits ⊢
      unfold rollbackTarget
      omega
    have within : rollbackTarget options head block.height ≤ head.height := by
      unfold settledHeight at sits
      unfold rollbackTarget
      omega
    rw [target] at there
    exact off ((agrees_iff serves determined within).mp agrees settled there)

end Violations

/-- A violation, read off the checkpoints. -/
theorem violated_iff {syncer : Syncer} (stored : Stores options blocks syncer)
    (each : ∀ block ∈ blocks, Determined chain block) :
    Violated options chain head blocks ↔
      ∃ tip row, syncer.db.lastCheckpoint = some tip ∧
        syncer.db.checkpointAt (settledHeight options head tip.height).toNat = some row ∧
        row.blockId ≠ (chain row.height).id := by
  have tips := lastCheckpoint_map stored
  have rows : ∀ height, (syncer.db.checkpointAt height).map
      CheckpointRow.blockId = (blockAt blocks height).map ChainBlock.id := by
    intro height
    rw [stored.filled]
    exact checkpointAt_databaseOf blocks height
  constructor
  · rintro ⟨last, found, block, there, off⟩
    rw [found] at tips
    obtain ⟨tip, shown, level⟩ := Option.map_eq_some_iff.mp tips
    have known := rows (settledHeight options head last.height).toNat
    rw [there] at known
    obtain ⟨row, at_, same⟩ := Option.map_eq_some_iff.mp known
    obtain ⟨member, height⟩ := blockAt_eq_some there
    refine ⟨tip, row, shown, by rw [level]; exact at_, fun matching => off ?_⟩
    refine each block member ?_
    rw [height, ← checkpointAt_height at_, ← matching]
    exact same.symm
  · rintro ⟨tip, row, shown, at_, other⟩
    rw [shown] at tips
    obtain ⟨last, found, level⟩ := Option.map_eq_some_iff.mp tips.symm
    have known := rows (settledHeight options head tip.height).toNat
    rw [at_] at known
    obtain ⟨block, there, same⟩ := Option.map_eq_some_iff.mp known.symm
    refine ⟨last, found, block, by rw [level]; exact there, fun isOf => other ?_⟩
    obtain ⟨_, height⟩ := blockAt_eq_some there
    rw [checkpointAt_height at_, ← height, ← same]
    exact congrArg ChainBlock.id isOf

/-- A step against a node that serves its whole chain fails exactly if the stored block at the
settled height has left that chain, and then it refuses to roll back and has changed nothing. -/
theorem step_fails_iff {syncer : Syncer} (canonical : Canonical chain)
    (serves : ServesChain chain head node) (introduces : Introduces options node head)
    (undisturbed : Undisturbed syncer) (stored : Stores options blocks syncer)
    (determined : ∀ block ∈ blocks, Determined chain block) :
    ((∃ failure, (step runtime options node syncer).1 = .error failure) ↔
        Violated options chain head blocks) ∧
      ∀ failure, (step runtime options node syncer).1 = .error failure →
        Refusal failure ∧ (step runtime options node syncer).2.db = syncer.db := by
  obtain ⟨others, steps⟩ := leads_step node stored
  rcases steps.moved with ⟨known, told, moves⟩ | ⟨-, failure, _, strange⟩
  · cases serves.reported.symm.trans told
    cases answered : (step runtime options node syncer).1 with
    | ok result =>
      rw [answered] at moves
      refine ⟨⟨fun failing => ?_, fun violated => ?_⟩,
        fun failure impossible => by cases impossible⟩
      · obtain ⟨failure, impossible⟩ := failing
        cases impossible
      · exact absurd violated
          (not_violated_of_moved canonical serves stored.linked determined moves)
    | error failure =>
      rw [answered] at moves
      have refused : ∃ more, others = blocks ++ more ∧ Refusal failure ∧
          Refused options node head blocks more := by
        cases moves with
        | failed _ more taken why => exact ⟨more, rfl, why undisturbed serves.all⟩
      obtain ⟨more, same, refusal, refused⟩ := refused
      have violated := violated_of_refused canonical serves stored.linked determined refused
      refine ⟨⟨fun _ => violated, fun _ => ⟨failure, rfl⟩⟩, fun other given => ?_⟩
      cases given
      have nothing := nothing_of_refused canonical serves refused
      rw [same, nothing, List.append_nil] at steps
      exact ⟨refusal, steps.stored.filled.trans stored.filled.symm⟩
  · exact absurd introduces (strange head)

end Serving

/-! ### Every run -/

/-- After any history, a step that catches up with a node of one chain and ends at its head leaves
the database which that chain fills, as if nothing else had ever been seen. -/
theorem synced_is_canonical (runtime : Runtime) (options : SyncOptions)
    (chain : ℕ → ChainBlock runtime.codec) (canonical : Canonical chain) (plans : List Plan)
    (polls : List (Poll runtime)) (node : Node runtime.codec) (onChain : OnChain chain node)
    (determined : ∀ other, Poll.step other ∈ polls → ∀ block, Served other block →
      Determined chain block)
    (result : SyncResult) (head : ChainHead) (reported : node.head = .ok head)
    (answered : (step runtime options node (syncerAfter runtime options plans polls)).1 =
      .ok result) (caughtUp : result.caughtUp = true)
    (level : (step runtime options node
      (syncerAfter runtime options plans polls)).2.db.lastCheckpoint.map CheckpointRow.height =
        some head.height) :
    (step runtime options node (syncerAfter runtime options plans polls)).2.db =
      databaseOf runtime (canonicalBlocks chain options.first head.height) := by
  obtain ⟨blocks, stored, served⟩ := @stores_syncerAfter runtime options plans polls
  obtain ⟨others, steps⟩ := leads_step node stored
  rw [lastCheckpoint_map steps.stored] at level
  obtain ⟨tip, found, height⟩ := Option.map_eq_some_iff.mp level
  rcases steps.moved with ⟨known, told, moves⟩ | ⟨-, failure, failed, _⟩
  · cases reported.symm.trans told
    rw [answered] at moves
    have each : ∀ block ∈ others, Determined chain block := by
      intro block member
      rcases moves.served block member with old | new
      · obtain ⟨other, polled, from_⟩ := served block old
        exact determined other polled block from_
      · exact fun _ => onChain.blocks block new
    have top := tip_canonical onChain reported stored.linked each moves caughtUp found height
    have whole := canonical_of_last canonical steps.stored.linked each fun last same => by
      cases found.symm.trans same
      exact top
    have count : others.length = head.height + 1 - options.first := by
      have next := height_getLast steps.stored.linked found
      unfold nextHeight at next
      omega
    rw [steps.stored.filled, canonicalBlocks, ← count, ← whole]
  · rw [answered] at failed
    cases failed

/-- In every state that polls reach, an undisturbed step against a node that serves its whole chain
fails exactly if the stored block at the settled height (final, below the head and not above the
tip) has left the chain, and then it refuses to roll back and has changed nothing. -/
theorem sync_refuses_iff (runtime : Runtime) (options : SyncOptions)
    (chain : ℕ → ChainBlock runtime.codec) (canonical : Canonical chain) (plans : List Plan)
    (polls : List (Poll runtime)) (node : Node runtime.codec) (head : ChainHead)
    (serves : ServesChain chain head node) (introduces : Introduces options node head)
    (determined : ∀ other, Poll.step other ∈ polls → ∀ block, Served other block →
      Determined chain block)
    (undisturbed : Undisturbed (syncerAfter runtime options plans polls)) :
    ((∃ failure, (step runtime options node
          (syncerAfter runtime options plans polls)).1 = .error failure) ↔
        ∃ tip row, (syncerAfter runtime options plans polls).db.lastCheckpoint = some tip ∧
          (syncerAfter runtime options plans polls).db.checkpointAt
            (settledHeight options head tip.height).toNat = some row ∧
          row.blockId ≠ (chain row.height).id) ∧
      ∀ failure, (step runtime options node
          (syncerAfter runtime options plans polls)).1 = .error failure → Refusal failure ∧
        (step runtime options node (syncerAfter runtime options plans polls)).2.db =
          (syncerAfter runtime options plans polls).db := by
  obtain ⟨blocks, stored, served⟩ := @stores_syncerAfter runtime options plans polls
  have each : ∀ block ∈ blocks, Determined chain block := by
    intro block member
    obtain ⟨other, polled, from_⟩ := served block member
    exact determined other polled block from_
  obtain ⟨exact_, refusal⟩ := step_fails_iff canonical serves introduces undisturbed stored each
  exact ⟨exact_.trans (violated_iff stored each), refusal⟩

/-! ### A fork -/

/-- Libraries that decode no event. -/
def silentRuntime : Runtime where
  codec := ⟨fun _ _ => none, fun _ => .null⟩
  sdk := Sdk.standard
  sha256 := fun _ _ => "00"

/-- The id of a block without events. -/
def idOf (label : Char) (height : ℕ) : String :=
  String.ofList (label :: List.replicate height 'x')

theorem idOf_ne_empty (label : Char) (height : ℕ) : idOf label height ≠ "" := by
  intro same
  have lists := congrArg String.toList same
  rw [idOf, String.toList_ofList] at lists
  cases lists

theorem ordered_nothing : Rows.Ordered ChainEvent.position [] := List.Pairwise.nil

theorem decoded_nothing : ∀ event ∈ ([] : List ChainEvent),
    silentRuntime.codec.decode event.name event.raw = some event.event :=
  fun event absent => by cases absent

/-- A block without events. -/
def emptyBlock (label : Char) (height : ℕ) (previous : String) :
    ChainBlock silentRuntime.codec where
  height := height
  id := idOf label height
  previous := previous
  timestamp := 0
  events := []
  identified := idOf_ne_empty label height
  ordered := ordered_nothing
  decoded := decoded_nothing

/-- A chain of empty blocks. -/
def emptyChain (height : ℕ) : ChainBlock silentRuntime.codec :=
  emptyBlock 'b' height (if height = 0 then "" else idOf 'b' (height - 1))

/-- A node of that chain, with its head and its last irreversible block. -/
def chainNode (height lib : ℕ) : Node silentRuntime.codec where
  chainId := .ok "main"
  head := .ok ⟨height, idOf 'b' height, some lib, 0⟩
  returned := fun fromHeight count _ =>
    .ok ((List.range' fromHeight (min count (height + 1 - fromHeight))).map emptyChain)

/-- A node whose second block is another one. -/
def forkedNode : Node silentRuntime.codec where
  chainId := .ok "main"
  head := .ok ⟨2, idOf 'f' 2, some 1, 0⟩
  returned := fun _ _ _ => .ok [emptyChain 1, emptyBlock 'f' 2 (idOf 'b' 1)]

def plainOptions : SyncOptions := ⟨1, some "main", none, none⟩

theorem emptyChain_canonical : Canonical emptyChain where
  heights := fun _ => rfl
  links := fun _ => rfl

theorem heights_emptyChain (fromHeight count : ℕ) :
    ((List.range' fromHeight count).map emptyChain).map ChainBlock.height =
      List.range' fromHeight count := by
  rw [List.map_map]
  exact List.map_id _

theorem chainNode_serves (height lib : ℕ) :
    ServesChain emptyChain ⟨height, idOf 'b' height, some lib, 0⟩ (chainNode height lib) where
  reported := rfl
  named := rfl
  served := by
    intro fromHeight count
    unfold Node.getBlocks
    split
    · next empty =>
      rw [empty, Nat.zero_min]
      rfl
    · have sorted : Rows.Ordered ChainBlock.height
          ((List.range' fromHeight (min count (height + 1 - fromHeight))).map emptyChain) := by
        refine List.pairwise_map.mp ?_
        rw [heights_emptyChain]
        exact List.pairwise_lt_range'
      have all : ∀ block ∈ (List.range' fromHeight (min count (height + 1 - fromHeight))).map
          emptyChain, decide (fromHeight ≤ block.height ∧ block.height < fromHeight + count) =
            true := by
        intro block member
        obtain ⟨at_, inside, rfl⟩ := List.mem_map.mp member
        have bounds := List.mem_range'_1.mp inside
        refine decide_eq_true ⟨bounds.1, ?_⟩
        show at_ < fromHeight + count
        omega
      exact congrArg Except.ok ((congrArg (Rows.orderBy ChainBlock.height)
        (List.filter_eq_self.mpr all)).trans (Rows.orderBy_of_ordered sorted))

theorem chainNode_introduces (height lib : ℕ) :
    Introduces plainOptions (chainNode height lib) ⟨height, idOf 'b' height, some lib, 0⟩ where
  head := rfl
  chainId := ⟨"main", rfl, fun _ same => Option.some.inj same⟩

/-- What a node serves is among what it returned. -/
theorem returned_of_served {node : Node silentRuntime.codec}
    {block : ChainBlock silentRuntime.codec} (served : Served node block) :
    ∃ fromHeight count headId returned, node.returned fromHeight count headId = .ok returned ∧
      block ∈ returned := by
  obtain ⟨fromHeight, count, headId, list, answered, member⟩ := served
  unfold Node.getBlocks at answered
  split at answered
  · cases answered
    cases member
  · cases given : node.returned fromHeight count headId with
    | error message =>
      rw [given] at answered
      cases answered
    | ok returned =>
      rw [given] at answered
      cases answered
      have kept := Rows.mem_orderBy.mp member
      exact ⟨_, _, _, returned, given, (List.mem_filter.mp kept).1⟩

theorem chainNode_onChain (height lib : ℕ) : OnChain emptyChain (chainNode height lib) where
  head := by
    intro head reported
    cases reported
    rfl
  blocks := by
    intro block served
    obtain ⟨_, _, _, returned, given, member⟩ := returned_of_served served
    cases given
    obtain ⟨at_, _, rfl⟩ := List.mem_map.mp member
    rfl
  tip := by
    intro head served reported answered
    cases reported
    exact (chainNode_serves height lib).tip served answered

theorem forkedNode_determined (block : ChainBlock silentRuntime.codec)
    (served : Served forkedNode block) : Determined emptyChain block := by
  obtain ⟨_, _, _, returned, given, member⟩ := returned_of_served served
  cases given
  rcases List.mem_cons.mp member with rfl | later
  · exact fun _ => rfl
  · rw [List.mem_singleton.mp later]
    intro same
    exact absurd same (by decide +kernel)

/-- After a fork at height 2 and a rollback, the indexer has the chain up to its head. -/
theorem synced_is_canonical_fork :
    (step silentRuntime plainOptions (chainNode 3 1) (syncerAfter silentRuntime plainOptions []
      [.step forkedNode, .step (chainNode 3 1)])).2.db =
        databaseOf silentRuntime (canonicalBlocks emptyChain 1 3) := by
  refine synced_is_canonical silentRuntime plainOptions emptyChain emptyChain_canonical []
    [.step forkedNode, .step (chainNode 3 1)] (chainNode 3 1) (chainNode_onChain 3 1) ?_
    { applied := 2, caughtUp := true } ⟨3, idOf 'b' 3, some 1, 0⟩ rfl (by decide +kernel) rfl
    (by decide +kernel)
  intro other polled block served
  rcases List.mem_cons.mp polled with first | later
  · cases first
    exact forkedNode_determined block served
  · cases List.mem_singleton.mp later
    exact fun _ => (chainNode_onChain 3 1).blocks block served

/-- After the same fork, a node whose last irreversible block is the second is refused. -/
theorem sync_refuses_iff_fork :
    ∃ failure, (step silentRuntime plainOptions (chainNode 3 2) (syncerAfter silentRuntime
      plainOptions [] [.step forkedNode])).1 = .error failure := by
  have refuses := sync_refuses_iff silentRuntime plainOptions emptyChain emptyChain_canonical []
    [.step forkedNode] (chainNode 3 2) ⟨3, idOf 'b' 3, some 2, 0⟩ (chainNode_serves 3 2)
    (chainNode_introduces 3 2) (fun other polled block served => by
      cases List.mem_singleton.mp polled
      exact forkedNode_determined block served) (List.isEmpty_iff.mp (by decide +kernel))
  exact refuses.1.mpr ⟨⟨2, idOf 'f' 2, idOf 'b' 1, 0, "00", 0⟩,
    ⟨2, idOf 'f' 2, idOf 'b' 1, 0, "00", 0⟩,
    by decide +kernel, by decide +kernel, by decide +kernel⟩

end OpenSocial.Indexer

/-
This file models the sync loop of the indexer: a step asks the node for its head and
for blocks, applies them, and rolls back where the node's chain has left the stored one.

What a node answers in a step is given, requests that fail included, and so is what
disturbs each call of the database. The times of steps and the log lines are left out.
-/

import OpenSocial.Indexer.Integrity
import OpenSocial.Library.Stateful

namespace OpenSocial.Indexer

open Library Library.Script Library.Stateful

/-! ### Nodes -/

/-- What a node answers during one step; `returned` are the parsed blocks of a request for some
heights of the chain that ends at a head. -/
structure Node (codec : EventCodec) where
  chainId : Except String String
  head : Except String ChainHead
  returned : (fromHeight count : ℕ) → (headId : String) → Except String (List (ChainBlock codec))

/-- `KoinosChain.getBlocks`. -/
def Node.getBlocks {codec : EventCodec} (node : Node codec) (fromHeight count : ℕ)
    (headId : String) : Except String (List (ChainBlock codec)) :=
  if count = 0 then .ok []
  else (node.returned fromHeight count headId).map fun returned =>
    Indexer.getBlocks returned fromHeight count

/-! ### The syncer -/

/-- Heights and sizes are the integers that `loadConfig` admits. -/
structure SyncOptions where
  startHeight : ℕ
  chainId : Option String
  batchSize : Option ℕ
  reversibleWindow : Option ℕ

namespace SyncOptions

/-- The first height that is indexed. -/
def first (options : SyncOptions) : ℕ := max 1 options.startHeight

def batch (options : SyncOptions) : ℕ := max 1 (options.batchSize.getD 50)

/-- The height below the first. -/
def floor (options : SyncOptions) : ℤ := options.first - 1

end SyncOptions

structure SyncResult where
  applied : ℕ
  caughtUp : Bool
  stalled : Bool := false
  rolledBack : Option (ℕ × ℤ) := none
  deriving DecidableEq, Repr

structure SyncState where
  head : Option ChainHead := none
  rpcChainId : Option String := none
  chainIdMatch : Option Bool := none
  lastError : Option String := none
  rollbacks : ℕ := 0
  blocksApplied : ℕ := 0
  stalledSteps : ℕ := 0
  deriving DecidableEq, Repr

/-- A syncer with its database; `plans` are what will disturb the calls of the database, one after
the other. -/
structure Syncer where
  db : IndexerDb
  state : SyncState := {}
  chainIdVerified : Bool := false
  shrunkHead : Option ChainHead := none
  plans : List Plan := []

abbrev Syncing := Stateful Syncer Failure

def Failure.message : Failure → String
  | .sync error => error.message
  | .other message => message

/-- One call of the database. -/
def onDatabase {Value : Type} (script : DbScript Value) : Syncing Value := fun syncer =>
  let (answer, after) := call script syncer.db (syncer.plans.headD [])
  (answer, { syncer with db := after, plans := syncer.plans.tail })

/-- A read on its own, which SQLite makes a transaction of. -/
def fromDatabase {Value : Type} (read : IndexerDb → Value) : Syncing Value :=
  onDatabase (transaction (query read))

/-- What a node answers, or the error of its request. -/
def fromNode {Value : Type} (answer : Except String Value) : Syncing Value :=
  Stateful.lift (answer.mapError .other)

def onState (change : SyncState → SyncState) : Syncing Unit :=
  modify fun syncer => { syncer with state := change syncer.state }

/-- Highest height considered final for a head. -/
def finalHeight (options : SyncOptions) (head : ChainHead) : ℤ :=
  let lib : ℤ := (head.lastIrreversible.getD 0 : ℕ)
  match options.reversibleWindow with
  | none => lib
  | some window => max lib (head.height - window)

/-- Compares the node's chain id with the configured one, until it matched once. -/
def verifyChainId (options : SyncOptions) {codec : EventCodec} (node : Node codec) :
    Syncing Unit := do
  let syncer ← get
  if syncer.chainIdVerified then pure ()
  else do
    let rpcChainId ← fromNode node.chainId
    onState fun state => { state with rpcChainId := some rpcChainId }
    match options.chainId with
    | none => modify fun syncer => { syncer with chainIdVerified := true }
    | some expected => do
      onState fun state => { state with chainIdMatch := some (decide (rpcChainId = expected)) }
      if rpcChainId ≠ expected then throw (.sync (.chainIdMismatch rpcChainId expected))
      else modify fun syncer => { syncer with chainIdVerified := true }

section Steps

variable (runtime : Runtime) (options : SyncOptions) (node : Node runtime.codec)

/-- The height a fork is rolled back to. -/
def rollbackTarget (head : ChainHead) (forkHeight : ℕ) : ℤ :=
  max (min (finalHeight options head) (forkHeight - 1)) options.floor

/-- The stored block at a height above the floor. -/
def storedAt (height : ℤ) : Syncing (Option CheckpointRow) :=
  if options.floor < height then
    fromDatabase fun db => db.checkpointAt height.toNat
  else pure none

/-- Refuse a rollback to a stored block that the node does not serve. -/
def agreeAt (head : ChainHead) (target : ℤ) : Option CheckpointRow → Syncing Unit
  | none => pure ()
  | some ours => do
    let served ← fromNode (node.getBlocks target.toNat 1 head.id)
    let canonical := served.head?.map ChainBlock.id
    if canonical ≠ some ours.blockId then
      throw (.sync (.forkBelowFinal target.toNat ours.blockId canonical))
    else pure ()

/-- Drop the blocks above a height and count the rollback. -/
def dropAbove (target : ℤ) : Syncing Unit := do
  let _ ← onDatabase (rollbackTo runtime target)
  onState fun state => { state with rollbacks := state.rollbacks + 1 }

/-- `Syncer.rollback`. -/
def rollback (head : ChainHead) (forkHeight : ℕ) : Syncing ℤ := do
  let target := rollbackTarget options head forkHeight
  if (forkHeight : ℤ) ≤ target then throw (.sync (.forkNotAboveFinal forkHeight target.toNat))
  else do
    let ours ← storedAt options target
    agreeAt runtime node head target ours
    dropAbove runtime target
    pure target

/-- `Syncer.finish`. -/
def finish (result : SyncResult) : Syncing SyncResult := do
  onState fun state =>
    { state with
      stalledSteps := if result.stalled then state.stalledSteps + 1 else 0
      lastError := none }
  pure result

def onShrunkHead (head : Option ChainHead) : Syncing Unit :=
  modify fun syncer => { syncer with shrunkHead := head }

/-- The id of the node's block at its head height. -/
def canonicalIdAt (head : ChainHead) (last : CheckpointRow) : Syncing (Option String) :=
  if last.height = head.height then pure (some head.id)
  else do
    let served ← fromNode (node.getBlocks head.height 1 head.id)
    pure (served.head?.map ChainBlock.id)

/-- Both ids are known and differ. -/
def differs (canonicalId : Option String) (ours : Option CheckpointRow) : Bool :=
  canonicalId.any fun canonical => canonical ≠ "" && ours.any fun row => row.blockId ≠ canonical

/-- The blocks above the head are dropped once the head was seen below them in two steps. -/
def truncateShrunk (head : ChainHead) (last : CheckpointRow) : Syncing SyncResult := do
  let syncer ← get
  match syncer.shrunkHead with
  | none => do
    onShrunkHead (some head)
    pure { applied := 0, caughtUp := true }
  | some _ => do
    let target := max (head.height : ℤ) options.floor
    dropAbove runtime target
    onShrunkHead none
    pure { applied := 0, caughtUp := true, rolledBack := some (last.height, target) }

/-- `Syncer.reconcileTip`. -/
def reconcileTip (head : ChainHead) (last : CheckpointRow) : Syncing SyncResult := do
  let canonicalId ← canonicalIdAt runtime node head last
  let ours ← storedAt options head.height
  if differs canonicalId ours then do
    onShrunkHead none
    let target ← rollback runtime options node head head.height
    pure { applied := 0, caughtUp := false, rolledBack := some (last.height, target) }
  else if last.height = head.height then do
    onShrunkHead none
    pure { applied := 0, caughtUp := true }
  else truncateShrunk runtime options head last

/-- How the blocks of a response were taken: a fork ended it, or the next height is known. -/
inductive Taken where
  | forked (result : SyncResult)
  | reached (expected applied : ℕ)
  deriving DecidableEq, Repr

/-- The stored block names another predecessor than this block does. -/
def departs {codec : EventCodec} (parent : Option CheckpointRow) (block : ChainBlock codec) :
    Bool :=
  parent.any fun row => block.previous ≠ "" && row.blockId ≠ block.previous

/-- The loop over the served blocks; a gap in the response ends it. -/
def takeBlocks (head : ChainHead) :
    (expected applied : ℕ) → List (ChainBlock runtime.codec) → Syncing Taken
  | expected, applied, [] => pure (.reached expected applied)
  | expected, applied, block :: others =>
    if block.height ≠ expected then pure (.reached expected applied)
    else do
      let parent ← fromDatabase fun db => db.checkpointAt (block.height - 1)
      if departs parent block then do
        let target ← rollback runtime options node head block.height
        pure (.forked
          { applied := applied
            caughtUp := false
            rolledBack := parent.map fun row => (row.height, target) })
      else do
        let _ ← onDatabase (applyBlock runtime block options.first)
        onState fun state => { state with blocksApplied := state.blocksApplied + 1 }
        takeBlocks head (expected + 1) (applied + 1) others

/-- What taking the blocks up to a head comes to. -/
def Taken.result (head : ChainHead) : Taken → SyncResult
  | .forked result => result
  | .reached expected applied =>
    { applied := applied
      caughtUp := head.height < expected
      stalled := !decide (head.height < expected) && applied == 0 }

/-- The next blocks up to the head. -/
def takeNext (head : ChainHead) (next : ℕ) : Syncing SyncResult := do
  let served ← fromNode (node.getBlocks next (min options.batch (head.height + 1 - next)) head.id)
  let taken ← takeBlocks runtime options node head next 0 served
  pure (taken.result head)

/-- What a step does with the head of the node. -/
def stepAt (head : ChainHead) : Syncing SyncResult := do
  onState fun state => { state with head := some head }
  let last ← fromDatabase IndexerDb.lastCheckpoint
  match last with
  | none => do
    onShrunkHead none
    takeNext runtime options node head options.first
  | some last =>
    if head.height ≤ last.height then reconcileTip runtime options node head last
    else do
      onShrunkHead none
      takeNext runtime options node head (last.height + 1)

/-- One sync step; what failed is kept as the last error. -/
def step : Syncing SyncResult :=
  onFailure
    (do
      verifyChainId options node
      let head ← fromNode node.head
      let result ← stepAt runtime options node head
      finish result)
    fun failure syncer =>
      { syncer with state := { syncer.state with lastError := some failure.message } }

/-- `syncToHead`: steps until one has caught up or stalled, each with what the node answers then. -/
def syncToHead (nodes : ℕ → Node runtime.codec) :
    (rounds round : ℕ) → SyncResult → Syncing SyncResult
  | 0, _, _ => throw (.sync .didNotCatchUp)
  | rounds + 1, round, before => do
    let done ← step runtime options (nodes round)
    let result : SyncResult :=
      { applied := before.applied + done.applied
        caughtUp := done.caughtUp
        stalled := done.stalled
        rolledBack := done.rolledBack <|> before.rolledBack }
    if done.caughtUp || done.stalled then pure result
    else syncToHead nodes rounds (round + 1) result

end Steps

end OpenSocial.Indexer
